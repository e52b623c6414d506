import StackExpr.Template
/-!
# References

A resource mentions an id if the id is its type or one of the strings in its properties or in its
other attributes, at any depth. Keys of objects and parts of strings do not count. The references to
an id are the other resources of the template that mention it.
-/

namespace StackExpr

namespace Json

mutual

/-- The strings in a value, from left to right. -/
def strings : Json → List String
  | .string s => [s]
  | .array elements => stringsOfElements elements
  | .object fields => stringsOfFields fields
  | _ => []

/-- The strings in list elements. -/
def stringsOfElements : List Json → List String
  | [] => []
  | v :: vs => strings v ++ stringsOfElements vs

/-- The strings in the values of fields. -/
def stringsOfFields : List (String × Json) → List String
  | [] => []
  | (_, v) :: fs => strings v ++ stringsOfFields fs

end

end Json

/-- The strings in the definition of a resource: its type, then its properties, then the rest. -/
def Resource.strings (r : Resource) : List String :=
  r.type :: (Json.stringsOfFields r.properties ++ Json.stringsOfFields r.attributes)

/-- The resource mentions an id. -/
def Resource.mentions (r : Resource) (id : String) : Bool := r.strings.contains id

/-- The resources other than `id` that mention it, in the order of the template. -/
def Template.references (t : Template) (id : String) : Dict Resource :=
  t.resources.filter fun (name, r) => name != id && r.mentions id

end StackExpr
