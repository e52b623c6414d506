import StackExpr.Json
import StackExpr.Yaml.Plain
/-!
# Documents as written

A `Doc` is what a reader of JSON or YAML text finds, before anybody decides what it means: a key may
appear twice, an unquoted scalar has not yet been taken for a number, a word or a text, and a node
may carry a tag. What such a document means depends on who asks.

* `toJson?` — the document as a value: the last of repeated keys counts, unquoted scalars are
  resolved
* `text?` — the document as text: an unquoted scalar is its characters, whatever they look like
* `entries?`, `items?` — the document as a map or a list; a missing node is an empty one
* `members?` — the document as a record of named fields, given by name or in order

A JSON value is a document too (`ofJson`).
-/

namespace StackExpr

/-- A scalar used as a key. -/
structure Key where
  text : String
  /-- The key was written without quotes and could be taken for something else than text. -/
  plain : Bool := false
  deriving DecidableEq

/-- A document as written. -/
inductive Doc where
  | null
  | bool (b : Bool)
  | number (n : Number)
  | string (s : String)
  | plain (s : String)
  | list (items : List Doc)
  | map (entries : List (Key × Doc))
  | tagged (node : Doc)

namespace Doc

/-! ## Height -/

mutual

/-- The number of levels of a document. -/
def height : Doc → Nat
  | .list items => heightOfItems items + 1
  | .map entries => heightOfEntries entries + 1
  | .tagged d => height d + 1
  | _ => 0

/-- The number of levels below list items. -/
def heightOfItems : List Doc → Nat
  | [] => 0
  | d :: ds => max (height d) (heightOfItems ds)

/-- The number of levels below the values of entries. -/
def heightOfEntries : List (Key × Doc) → Nat
  | [] => 0
  | (_, d) :: es => max (height d) (heightOfEntries es)

end

/-! ## Values -/

mutual

/-- A value as a document. -/
def ofJson : Json → Doc
  | .null => .null
  | .bool b => .bool b
  | .number n => .number n
  | .string s => .string s
  | .array es => .list (ofElements es)
  | .object fs => .map (ofFields fs)

/-- List elements as documents. -/
def ofElements : List Json → List Doc
  | [] => []
  | e :: es => ofJson e :: ofElements es

/-- Object fields as entries with text keys. -/
def ofFields : List (String × Json) → List (Key × Doc)
  | [] => []
  | (k, v) :: fs => (⟨k, false⟩, ofJson v) :: ofFields fs

end

/-- What an unquoted scalar is taken for. -/
def ofResolved : Yaml.Resolved → Option Json
  | .null => some .null
  | .bool b => some (.bool b)
  | .number n => some (.number n)
  | .text s => some (.string s)
  | .outOfRange => none

mutual

/-- The value of a document: of a repeated key the first place and the last value count. Tagged
nodes and integers of more than 64 bits have none. -/
def toJson? : Doc → Option Json
  | .null => some .null
  | .bool b => some (.bool b)
  | .number n => some (.number n)
  | .string s => some (.string s)
  | .plain s => ofResolved (Yaml.resolve s)
  | .list items => (itemsToJson? items).map .array
  | .map entries => (entriesToJson? entries).map fun fs => .object (Dict.ofEntries fs)
  | .tagged _ => none

/-- The values of list items. -/
def itemsToJson? : List Doc → Option (List Json)
  | [] => some []
  | d :: ds => do return (← toJson? d) :: (← itemsToJson? ds)

/-- The values of entries. -/
def entriesToJson? : List (Key × Doc) → Option (List (String × Json))
  | [] => some []
  | (k, d) :: es => do return (k.text, ← toJson? d) :: (← entriesToJson? es)

end

/-! ## Settled documents -/

mutual

/-- The document with every unquoted scalar resolved. A key that is not text then fits no map, and a
tagged node has no resolution. -/
def settle? : Doc → Option Doc
  | .plain s => (ofResolved (Yaml.resolve s)).map ofJson
  | .list items => (settleItems? items).map .list
  | .map entries => (settleEntries? entries).map .map
  | .tagged _ => none
  | d => some d

/-- Settles list items. -/
def settleItems? : List Doc → Option (List Doc)
  | [] => some []
  | d :: ds => do return (← settle? d) :: (← settleItems? ds)

/-- Settles entries and their keys. -/
def settleEntries? : List (Key × Doc) → Option (List (Key × Doc))
  | [] => some []
  | (k, d) :: es => do
    if k.plain && !Yaml.isText k.text then none
    else return (⟨k.text, false⟩, ← settle? d) :: (← settleEntries? es)

end

/-! ## Readings of one node -/

/-- The node as text. -/
def text? : Doc → Option String
  | .string s => some s
  | .plain s => some s
  | .tagged d => text? d
  | _ => none

/-- The node is a missing or null value. -/
def isNull : Doc → Bool
  | .null => true
  | .plain s => s == "" || Yaml.isNull s
  | _ => false

/-- The node as text that may be null. -/
def optionalText? (d : Doc) : Option (Option String) :=
  if d.isNull then some none else d.text?.map some

/-- The node as a value, null counting as absent. -/
def optionalJson? (d : Doc) : Option (Option Json) :=
  if d.isNull then some none else d.toJson?.map some

/-- The node as a list; an empty node is an empty list. -/
def items? : Doc → Option (List Doc)
  | .list items => some items
  | .plain s => if s = "" then some [] else none
  | .tagged d => items? d
  | _ => none

/-- The node as a map; an empty node is an empty map. -/
def entries? : Doc → Option (List (String × Doc))
  | .map entries => some (entries.map fun (k, d) => (k.text, d))
  | .plain s => if s = "" then some [] else none
  | .tagged d => entries? d
  | _ => none

/-- The node as a list whose items are read by `read`. -/
def listOf? {α : Type} (read : Doc → Option α) (d : Doc) : Option (List α) := do
  (← d.items?).mapM read

/-- The node as a dictionary whose values are read by `read`. -/
def dict? {α : Type} (read : Doc → Option α) (d : Doc) : Option (Dict α) := do
  let entries ← d.entries?
  let values ← entries.mapM fun (k, v) => (read v).map fun x => (k, x)
  return Dict.ofEntries values

/-! ## Records -/

/-- The value of a field among entries: absent, given once, or (an error) given twice. -/
def field? (name : String) (entries : List (String × Doc)) : Option (Option Doc) :=
  match entries.filter fun e => e.1 == name with
  | [] => some none
  | [(_, d)] => some (some d)
  | _ => none

/-- The node as a record with these fields, each present or not: a map in which no field is given
twice and other keys are ignored, or a list of the fields in order, without more items than there
are fields. -/
def members? (names : List String) (d : Doc) : Option (List (Option Doc)) :=
  match d.items? with
  | some items =>
    if items.length ≤ names.length then
      some (items.map some ++ List.replicate (names.length - items.length) none)
    else none
  | none => do
    let entries ← d.entries?
    names.mapM fun name => field? name entries

/-- A field that may be missing. -/
def orDefault {α : Type} (default : α) (read : Doc → Option α) : Option Doc → Option α
  | none => some default
  | some d => read d

/-- A field that must be there. -/
def required {α : Type} (read : Doc → Option α) (field : Option Doc) : Option α := field.bind read

end Doc

end StackExpr
