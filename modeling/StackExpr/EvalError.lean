/-!
# Errors

An `EvalError` says why an expression has no value. It is one of three ways in which an evaluation
ends without one: the cloud may also fail to answer, and a chain of outputs that lead to each other
may be given up. The three are never mistaken for each other (`Failure`).
-/

namespace StackExpr

/-- Why an expression has no value. -/
inductive EvalError where
  /-- The function is none of those that can be evaluated. -/
  | unsupportedFunction (name : String)
  /-- The name is neither bound nor deployed. -/
  | unresolvedRef (id : String)
  /-- The attribute of the resource cannot be told. -/
  | unresolvedAttribute (id attr : String)
  /-- No page of exports holds the name. -/
  | exportNotFound (name : String)
  /-- The export has no value. -/
  | exportWithoutValue (name : String)
  /-- Nothing is known of the attributes of resources of this type. -/
  | unsupportedType (type : String)
  /-- The type is known, the attribute is not. -/
  | unsupportedAttribute (type attr : String)
  /-- The arguments do not fit the function. -/
  | invalidArguments (function reason : String)
  deriving DecidableEq

/-- The error as a sentence. -/
def EvalError.message : EvalError → String
  | unsupportedFunction name => "CloudFormation function " ++ name ++ " is not supported"
  | unresolvedRef id =>
    "Parameter or resource '" ++ id ++ "' could not be found for evaluation"
  | unresolvedAttribute id attr =>
    "Trying to evaluate Fn::GetAtt of '" ++ id ++ "." ++ attr ++
      "' but not in hotswap-able state"
  | exportNotFound name => "Export '" ++ name ++ "' could not be found for evaluation"
  | exportWithoutValue name => "Export '" ++ name ++ "' exists without a value"
  | unsupportedType type =>
    "Attributes of the '" ++ type ++ "' resource are not supported for evaluation"
  | unsupportedAttribute type attr =>
    "The '" ++ attr ++ "' attribute of the '" ++ type ++
      "' resource is not supported for evaluation"
  | invalidArguments function reason =>
    "Invalid arguments for " ++ function ++ ": " ++ reason

/-- Why an evaluation ends without a value. -/
inductive Failure where
  /-- The expression has none. -/
  | evaluation (e : EvalError)
  /-- A request to the cloud failed. -/
  | client (message : String)
  /-- The outputs followed from each other more often than the bound allows. -/
  | tooDeep
  deriving DecidableEq

/-- The failure as a sentence. -/
def Failure.message : Failure → String
  | evaluation e => e.message
  | client message => message
  | tooDeep => "Outputs refer to each other without end"

end StackExpr
