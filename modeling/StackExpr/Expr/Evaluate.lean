import StackExpr.Expr
import StackExpr.Job
import StackExpr.Json.Index
import StackExpr.Json.Writer
import StackExpr.Sub
/-!
# Evaluating expressions

An expression is evaluated by recursion on it. What a name, an attribute or an export stands for is
told by a `Resolver`; all else depends on the expression alone.

* The elements of a list are evaluated side by side.
* The fields of an object, the arguments of a call and the placeholders of a substitution template
  are evaluated one after the other.
-/

namespace StackExpr

/-- What names, attributes and exports stand for. -/
structure Resolver where
  ref : (id : String) → Job Json
  getAtt : (id : String) → (attr : Option String) → Job Json
  importValue : (name : String) → Job Json

/-- What a placeholder stands for that is no variable. -/
def Resolver.target (r : Resolver) : Sub.Target → Job Json
  | .ref id => r.ref id
  | .getAtt id attr => r.getAtt id (some attr)

/-! ## Results of a kind -/

namespace Function

/-- The value as a string; other values are no argument of the function. -/
def stringOf (f : Function) : Json → Except EvalError String
  | .string s => .ok s
  | v => .error (f.complain ("expected a string, got " ++ v.kind))

/-- The value as a list; other values are no argument of the function. -/
def listOf (f : Function) : Json → Except EvalError (List Json)
  | .array vs => .ok vs
  | v => .error (f.complain ("expected a list, got " ++ v.kind))

/-- The value as an object of variables; other values are no argument of the function. -/
def variablesOf (f : Function) : Json → Except EvalError (Dict Json)
  | .object fs => .ok fs
  | v => .error (f.complain ("variables must be an object, got " ++ v.kind))

/-- The value as a position in a list; other values are no argument of the function. -/
def indexOf (f : Function) (v : Json) : Except EvalError Nat :=
  match v.index? with
  | some n => .ok n
  | none => .error (f.complain ("index must be a non-negative integer, got " ++ v.compactText))

end Function

/-! ## Values of calls -/

/-- The texts of values. -/
def textsOf (f : Function) : List Json → Except EvalError (List String)
  | [] => .ok []
  | v :: vs =>
    match v.text? with
    | some s => (textsOf f vs).map (s :: ·)
    | none => .error (f.complain ("can't join " ++ v.kind))

/-- The texts of the values with a delimiter between them. -/
def joined (delimiter : String) (vs : List Json) : Except EvalError Json :=
  (textsOf .join vs).map fun texts => .string (delimiter.intercalate texts)

/-- The pieces of a text between the occurrences of a delimiter; an empty delimiter leaves single
characters. -/
def pieces (delimiter s : String) : List String :=
  (if delimiter = "" then Text.chars s.toList else Text.splitOn delimiter.toList s.toList).map
    String.ofList

/-- The element at a position. -/
def selected (index : Nat) (vs : List Json) : Except EvalError Json :=
  match vs[index]? with
  | some v => .ok v
  | none =>
    .error (Function.select.complain ("index " ++ Decimal.toText index ++
      " out of range for list of " ++ Decimal.toText vs.length))

/-- The text of a value that takes the place of a placeholder. -/
def substituted (placeholder : String) (v : Json) : Except EvalError String :=
  match v.text? with
  | some s => .ok s
  | none =>
    .error (Function.sub.complain
      ("can't substitute $\x7b" ++ placeholder ++ "\x7d with " ++ v.kind))

/-- The text of segments, each placeholder replaced by the text of its value. -/
def substitute (r : Resolver) (vars : Dict Json) : List Sub.Segment → Job String
  | [] => pure ""
  | .literal text :: segments => do
    let rest ← substitute r vars segments
    return text ++ rest
  | .placeholder name :: segments => do
    let v ← match vars.get? name with
      | some v => pure v
      | none => r.target (.ofPlaceholder name)
    let text ← Job.ofExcept (substituted name v)
    let rest ← substitute r vars segments
    return text ++ rest

/-! ## Evaluation -/

namespace Expr

mutual

/-- The value of an expression. -/
def evaluate (r : Resolver) : Expr → Job Json
  | scalar v => pure v
  | list elements => do return .array (← Job.all (evaluateParts r elements))
  | record fields => do return .object (← evaluateFields r fields)
  | ref id => r.ref id
  | getAtt id => r.getAtt id none
  | getAttOf id attr => do
    let attr ← Job.ofExcept (Function.getAtt.stringOf (← evaluate r attr))
    r.getAtt id (some attr)
  | join delimiter items => do
    let vs ← Job.ofExcept (Function.join.listOf (← evaluate r items))
    Job.ofExcept (joined delimiter vs)
  | split delimiter text => do
    let s ← Job.ofExcept (Function.split.stringOf (← evaluate r text))
    return .array ((pieces delimiter s).map .string)
  | select index items => do
    let i ← Job.ofExcept (Function.select.indexOf (← evaluate r index))
    let vs ← Job.ofExcept (Function.select.listOf (← evaluate r items))
    Job.ofExcept (selected i vs)
  | sub template => do return .string (← substitute r [] (Sub.parse template))
  | subWith template bindings => do
    let vars ← Job.ofExcept (Function.sub.variablesOf (← evaluate r bindings))
    return .string (← substitute r vars (Sub.parse template))
  | importValue name => do
    let name ← Job.ofExcept (Function.importValue.stringOf (← evaluate r name))
    r.importValue name
  | invalid e => Job.fail e

/-- The elements of a list, each to be evaluated. -/
def evaluateParts (r : Resolver) : List Expr → List (Job Json)
  | [] => []
  | e :: es => evaluate r e :: evaluateParts r es

/-- The values of fields. -/
def evaluateFields (r : Resolver) : List (String × Expr) → Job (List (String × Json))
  | [] => pure []
  | (k, e) :: fs => do
    let v ← evaluate r e
    let rest ← evaluateFields r fs
    return (k, v) :: rest

end

end Expr

end StackExpr
