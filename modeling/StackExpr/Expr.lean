import StackExpr.EvalError
import StackExpr.Function
import StackExpr.Json
/-!
# Expressions

An expression is a JSON value in which some objects are calls of functions. `Expr` is that value
with the calls recognised and their arguments told apart; `Expr.ofJson` recognises them.

An object is a call if it has exactly one key and that key is the name of a call
(`Function.isCallName`). Arguments are a list; a single argument needs no list around it. A call of
an unknown function, or with arguments that do not fit, is an `invalid` expression: it is an error
to evaluate it, and no error to have it where it is not evaluated.
-/

namespace StackExpr

/-- A value in which calls are recognised. -/
inductive Expr where
  /-- A value that is neither list nor object. -/
  | scalar (v : Json)
  | list (elements : List Expr)
  /-- An object that is no call. -/
  | record (fields : List (String × Expr))
  | ref (id : String)
  | getAtt (id : String)
  | getAttOf (id : String) (attr : Expr)
  | join (delimiter : String) (list : Expr)
  | split (delimiter : String) (text : Expr)
  | select (index list : Expr)
  | sub (template : String)
  | subWith (template : String) (bindings : Expr)
  | importValue (name : Expr)
  /-- A call that cannot be evaluated. -/
  | invalid (error : EvalError)

namespace Function

/-- A complaint about the arguments of a function. -/
def complain (f : Function) (reason : String) : EvalError := .invalidArguments f.name reason

/-- What a function expects, as a complaint says it. -/
def expected : Function → String
  | ref => "expected a logical id"
  | getAtt => "expected [logicalId, attributeName]"
  | join => "expected [delimiter, list]"
  | split => "expected [delimiter, string]"
  | select => "expected [index, list]"
  | sub => "expected a template string or [template, variables]"
  | importValue => "expected an export name"

end Function

namespace Expr

/-- The call of a function with these arguments, each given as the value it is written as and as the
expression it is. -/
def call (f : Function) (args : List (Json × Expr)) : Expr :=
  match f, args with
  | .ref, [(.string id, _)] => .ref id
  | .getAtt, [(.string id, _)] => .getAtt id
  | .getAtt, [(.string id, _), (_, attr)] => .getAttOf id attr
  | .join, [(.string delimiter, _), (_, items)] => .join delimiter items
  | .split, [(.string delimiter, _), (_, text)] => .split delimiter text
  | .select, [(_, index), (_, items)] => .select index items
  | .sub, [(.string template, _)] => .sub template
  | .sub, [(.string template, _), (_, bindings)] => .subWith template bindings
  | .importValue, [(_, name)] => .importValue name
  | f, _ => .invalid (f.complain f.expected)

/-- The call of a name. -/
def callNamed (name : String) (args : List (Json × Expr)) : Expr :=
  match Function.ofName? name with
  | some f => call f args
  | none => .invalid (.unsupportedFunction name)

/-- The arguments of a call: the elements of a list, or a single value, each beside its
expression. -/
def arguments : Json → Expr → List (Json × Expr)
  | .array elements, .list exprs => elements.zip exprs
  | v, e => [(v, e)]

mutual

/-- The expression of a value. -/
def ofJson : Json → Expr
  | .array elements => .list (ofElements elements)
  | .object [(name, value)] =>
    if Function.isCallName name then
      callNamed name (arguments value (ofJson value))
    else .record [(name, ofJson value)]
  | .object fields => .record (ofFields fields)
  | v => .scalar v

/-- The expressions of list elements. -/
def ofElements : List Json → List Expr
  | [] => []
  | e :: es => ofJson e :: ofElements es

/-- The expressions of object fields. -/
def ofFields : List (String × Json) → List (String × Expr)
  | [] => []
  | (k, v) :: fs => (k, ofJson v) :: ofFields fs

end

end Expr

/-- A call as it is written: the function and its unevaluated arguments. -/
structure Call where
  function : Function
  args : Json

namespace Call

/-- The call that an object is; `none` if it is none, an error if there is no such function. -/
def ofFields? : Dict Json → Option (Except EvalError Call)
  | [(name, args)] =>
    if Function.isCallName name then
      some (match Function.ofName? name with
        | some function => .ok ⟨function, args⟩
        | none => .error (.unsupportedFunction name))
    else none
  | _ => none

/-- The arguments as a list: a single argument that is no list is a list of one. -/
def argumentList (c : Call) : List Json :=
  match c.args with
  | .array args => args
  | v => [v]

end Call

end StackExpr
