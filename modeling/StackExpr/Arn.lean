import StackExpr.EvalError
import StackExpr.Text.Split
import StackExpr.Text.LowerCase
/-!
# Attributes of deployed resources

What a deployed resource is called elsewhere follows from its physical id, but not by one rule: the
shapes of resource names differ between services. `attribute?` is the table of the shapes that are
known, by resource type and attribute; types and attributes that are not in it are errors.

A type name has parts between double colons, `AWS::Lambda::Function`. The second names the service,
the third the kind of resource; both are in lower case in a resource name.
-/

namespace StackExpr

/-- Where a resource lives. -/
structure Place where
  partition : String
  region : String
  account : String

namespace Arn

/-! ## Parts of a type name -/

/-- The service of a type. -/
def service (type : String) : String := Text.lowerCase ((Text.piece? "::" 1 type).getD "")

/-- The kind of resource of a type, as resource names write it. -/
def resourceKind (type : String) : String :=
  if type = "AWS::Events::EventBus" then "event-bus"
  else Text.lowerCase ((Text.piece? "::" 2 type).getD "")

/-! ## Shapes -/

/-- The shapes an attribute can have. -/
inductive Shape where
  /-- A name without a region; kind and id with a slash between them. -/
  | global
  /-- A name with neither region nor account nor kind. -/
  | bare
  /-- A full name; kind and id with a colon between them. -/
  | colon
  /-- A full name; kind and id with a slash between them. -/
  | slash
  /-- The physical id itself. -/
  | id
  /-- A segment of the physical id between slashes. -/
  | segment (index : Nat)
  deriving DecidableEq

/-- The table: the attributes that are known for a type; `none` for a type that is not in it. -/
def attributesOf? (type : String) : Option (List (String × Shape)) :=
  if type = "AWS::IAM::Role" ∨ type = "AWS::IAM::User" ∨ type = "AWS::IAM::Group" then
    some [("Arn", .global)]
  else if type = "AWS::S3::Bucket" then some [("Arn", .bare)]
  else if type = "AWS::Lambda::Function" then some [("Arn", .colon)]
  else if type = "AWS::Events::EventBus" then some [("Arn", .slash), ("Name", .id)]
  else if type = "AWS::DynamoDB::Table" ∨ type = "AWS::KMS::Key" then some [("Arn", .slash)]
  else if type = "AWS::AppSync::GraphQLApi" then some [("ApiId", .segment 1)]
  else if type = "AWS::AppSync::FunctionConfiguration" then some [("FunctionId", .segment 3)]
  else if type = "AWS::AppSync::DataSource" then some [("Name", .segment 3)]
  else none

/-- Texts with colons between them. -/
def colons (parts : List String) : String := String.intercalate ":" parts

/-- The segment of an id between slashes, unless it is empty. -/
def segment? (index : Nat) (id : String) : Option String :=
  (Text.piece? "/" index id).filter (· ≠ "")

/-- An attribute of a shape, for a resource of a type with a physical id. -/
def Shape.format? (place : Place) (type id : String) : Shape → Option String
  | .global =>
    some (colons ["arn", place.partition, service type, "", place.account,
      resourceKind type ++ "/" ++ id])
  | .bare => some (colons ["arn", place.partition, service type, "", "", id])
  | .colon =>
    some (colons ["arn", place.partition, service type, place.region, place.account,
      resourceKind type, id])
  | .slash =>
    some (colons ["arn", place.partition, service type, place.region, place.account,
      resourceKind type ++ "/" ++ id])
  | .id => some id
  | .segment index => segment? index id

/-- An attribute of a deployed resource. Without an attribute it is the physical id; `none` if the
physical id has not the shape that the attribute is taken from. -/
def attribute? (place : Place) (type id : String) :
    (attr : Option String) → Except EvalError (Option String)
  | none => .ok (some id)
  | some attr =>
    match attributesOf? type with
    | none => .error (.unsupportedType type)
    | some known =>
      match known.lookup attr with
      | none => .error (.unsupportedAttribute type attr)
      | some shape => .ok (shape.format? place type id)

end Arn

end StackExpr
