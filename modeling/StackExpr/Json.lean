import StackExpr.Dict
import StackExpr.Number
/-!
# JSON values

A JSON value keeps the order of an object's keys. Objects are dictionaries (`Dict`), so each key
appears once in a value that was read; `Json.Distinct` says so at every depth.

Beside the type stand the three readings of a value as something simpler:

* `kind` — the name of its type
* `text?` — a scalar as text: strings as they are, numbers and booleans printed, `null` empty
* `index?` — a position in a list, given as an integer or as text
-/

namespace StackExpr

/-- A JSON value. -/
inductive Json where
  | null
  | bool (b : Bool)
  | number (n : Number)
  | string (s : String)
  | array (elements : List Json)
  | object (fields : List (String × Json))

namespace Json

/-- A string value of a text that may be missing: `null` if it is. -/
def ofText? : Option String → Json
  | some s => .string s
  | none => .null

/-- A number value. -/
def ofNat (n : Nat) : Json := .number (.ofNat n)

mutual

/-- Every object in the value holds each key once. -/
def Distinct : Json → Prop
  | .array elements => DistinctElements elements
  | .object fields => Dict.Distinct fields ∧ DistinctFields fields
  | _ => True

/-- Every element has distinct keys at every depth. -/
def DistinctElements : List Json → Prop
  | [] => True
  | e :: es => e.Distinct ∧ DistinctElements es

/-- Every field's value has distinct keys at every depth. -/
def DistinctFields : List (String × Json) → Prop
  | [] => True
  | (_, v) :: fs => v.Distinct ∧ DistinctFields fs

end

/-! ## Simpler readings -/

/-- The name of the value's type. -/
def kind : Json → String
  | .null => "null"
  | .bool _ => "boolean"
  | .number _ => "number"
  | .string _ => "string"
  | .array _ => "array"
  | .object _ => "object"

/-- The text of a scalar; lists and objects have none. -/
def text? : Json → Option String
  | .string s => some s
  | .number n => some (String.ofList (n.text Binary64.jsonLayout))
  | .bool b => some (if b then "true" else "false")
  | .null => some ""
  | .array _ => none
  | .object _ => none

end Json

end StackExpr
