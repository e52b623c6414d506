import Mathlib.Data.List.Infix
import StackExpr.Arn
/-!
# Names of resources can be taken apart

The name of a resource, its attribute `Arn`, has six fields with colons between them. The physical
id stands at the end as it is, with whatever colons and slashes it has. **The name tells the
service, the kind of resource and the physical id** (`Arn.names_decodable`), as long as there are no
colons in what it is made of besides: then its first five colons are those between the fields.

Several types have a service in common, and their names differ only in the last field. What stands
before the physical id there is not the beginning of what stands there for another type of the
service (`Arn.eq_of_prefix_head`). So no two resources in a place have the same name.
-/

namespace StackExpr

/-! ## Fields -/

namespace Text

/-- The fields of a text between the first `n` occurrences of a character; the last field holds all
that follows. -/
def fields (c : Char) : (n : Nat) → String → List String
  | 0, s => [s]
  | n + 1, s =>
    match cutAt c s with
    | some (before, after) => before :: fields c n after
    | none => [s]

theorem cutAt_append {c : Char} {before : String} (h : c ∉ before.toList) (after : String) :
    cutAt c (before ++ String.singleton c ++ after) = some (before, after) := by
  have hcut : cut [c] (before.toList ++ [c] ++ after.toList)
      = some (before.toList, after.toList) := by
    refine (cut_eq_some_iff (List.cons_ne_nil _ _)).mpr ⟨rfl, ?_⟩
    simpa [List.singleton_infix_iff] using h
  rw [cutAt, String.toList_append, String.toList_append, String.toList_singleton, hcut]
  simp

/-- Fields that do not hold the character are found again. -/
theorem fields_intercalate {c : Char} {parts : List String} (h : ∀ part ∈ parts, c ∉ part.toList)
    (last : String) : fields c parts.length ((String.singleton c).intercalate (parts ++ [last]))
      = parts ++ [last] := by
  induction parts with
  | nil => simp [fields]
  | cons part parts ih =>
    obtain ⟨hpart, hparts⟩ := List.forall_mem_cons.mp h
    have hne : parts ++ [last] ≠ [] := List.append_ne_nil_of_right_ne_nil _ (List.cons_ne_nil _ _)
    rw [List.length_cons, List.cons_append, String.intercalate_cons_of_ne_nil hne, fields,
      cutAt_append hpart]
    exact congrArg (part :: ·) (ih hparts)

end Text

namespace Arn

/-! ## The types that have names -/

/-- The attribute `Arn` of the type is in the table. -/
def Named (type : String) : Prop := ((attributesOf? type).bind (·.lookup "Arn")).isSome

instance (type : String) : Decidable (Named type) := inferInstanceAs (Decidable (_ = true))

theorem Named.exists_shape {type : String} (h : Named type) :
    ∃ known shape, attributesOf? type = some known ∧ known.lookup "Arn" = some shape := by
  obtain ⟨shape, h⟩ := Option.isSome_iff_exists.mp h
  obtain ⟨known, hknown, hshape⟩ := Option.bind_eq_some_iff.mp h
  exact ⟨known, shape, hknown, hshape⟩

/-- A type that has names, with its service and the kind of resource that it is. -/
structure NamedType where
  type : String
  service : String
  kind : String
  deriving DecidableEq

/-- All types that have names. -/
def namedTypes : List NamedType :=
  [⟨"AWS::IAM::Role", "iam", "role"⟩, ⟨"AWS::IAM::User", "iam", "user"⟩,
    ⟨"AWS::IAM::Group", "iam", "group"⟩, ⟨"AWS::S3::Bucket", "s3", "bucket"⟩,
    ⟨"AWS::Lambda::Function", "lambda", "function"⟩,
    ⟨"AWS::Events::EventBus", "events", "event-bus"⟩,
    ⟨"AWS::DynamoDB::Table", "dynamodb", "table"⟩, ⟨"AWS::KMS::Key", "kms", "key"⟩]

theorem Named.mem_namedTypes {type : String} (h : Named type) :
    ⟨type, service type, resourceKind type⟩ ∈ namedTypes := by
  obtain ⟨known, shape, hknown, hshape⟩ := h.exists_shape
  unfold attributesOf? at hknown
  split_ifs at hknown with hiam hbucket hlambda hbus hslash happ happ happ <;> cases hknown
  · rcases hiam with rfl | rfl | rfl <;> decide +kernel
  · subst hbucket
    decide +kernel
  · subst hlambda
    decide +kernel
  · subst hbus
    decide +kernel
  · rcases hslash with rfl | rfl <;> decide +kernel
  -- The other types have attributes, but no names.
  all_goals cases hshape

/-- The region in the names of a type: none if it is known without. -/
def region (place : Place) (type : String) : String :=
  if service type = "iam" ∨ service type = "s3" then "" else place.region

/-- The account in the names of a type: none if it is known without. -/
def account (place : Place) (type : String) : String :=
  if service type = "s3" then "" else place.account

/-- What stands before the physical id in the last field of a name: the kind of resource and a
separator, but nothing for a bucket. -/
def headOf (service kind : String) : String :=
  if service = "s3" then "" else kind ++ if service = "lambda" then ":" else "/"

/-- What stands before the physical id in the last field of the names of a type. -/
def head (type : String) : String := headOf (service type) (resourceKind type)

/-- Buckets, global resources and functions have shapes of their own; all others have the same. -/
theorem shape_eq {type : String} (h : Named type) : (attributesOf? type).bind (·.lookup "Arn") =
    some (if service type = "iam" then .global else if service type = "s3" then .bare
      else if service type = "lambda" then .colon else .slash) := by
  have hall : ∀ t ∈ namedTypes, (attributesOf? t.type).bind (·.lookup "Arn") =
      some (if t.service = "iam" then .global else if t.service = "s3" then .bare
        else if t.service = "lambda" then .colon else .slash) := by decide +kernel
  exact hall ⟨type, service type, resourceKind type⟩ h.mem_namedTypes

theorem colon_notMem_service {type : String} (h : Named type) : ':' ∉ (service type).toList := by
  have hall : ∀ t ∈ namedTypes, ':' ∉ t.service.toList := by decide +kernel
  exact hall ⟨type, service type, resourceKind type⟩ h.mem_namedTypes

/-- Types of one service are told apart by what stands before the physical id. -/
theorem eq_of_prefix_head {type type' : String} (h : Named type) (h' : Named type')
    (hservice : service type = service type')
    (hbegin : (head type).toList <+: (head type').toList) : type = type' := by
  have hall : ∀ t ∈ namedTypes, ∀ t' ∈ namedTypes, t.service = t'.service →
      (headOf t.service t.kind).toList <+: (headOf t'.service t'.kind).toList →
      t.type = t'.type := by decide +kernel
  exact hall ⟨type, service type, resourceKind type⟩ h.mem_namedTypes
    ⟨type', service type', resourceKind type'⟩ h'.mem_namedTypes hservice hbegin

/-! ## Names -/

/-- The name of a resource: six fields, of which the last ends with the physical id. -/
theorem attribute?_arn {type : String} (h : Named type) (place : Place) (id : String) :
    attribute? place type id (some "Arn") = .ok (some ((String.singleton ':').intercalate
      (["arn", place.partition, service type, region place type, account place type]
        ++ [head type ++ id]))) := by
  have hshape := shape_eq h
  obtain ⟨known, shape, hknown, hlookup⟩ := h.exists_shape
  rw [hknown, Option.bind_some, hlookup] at hshape
  obtain rfl := Option.some.inj hshape
  have hcolon : String.singleton ':' = ":" := rfl
  rw [attribute?, hknown]
  simp only [hlookup, region, account, head, headOf, hcolon]
  by_cases hiam : service type = "iam"
  · simp [hiam, Shape.format?, colons]
  · by_cases hbucket : service type = "s3"
    · simp [hbucket, Shape.format?, colons]
    · by_cases hlambda : service type = "lambda"
      · simp [hlambda, Shape.format?, colons, String.append_assoc]
      · simp [hiam, hbucket, hlambda, Shape.format?, colons]

/-- There are no colons in the place of a resource. -/
structure ColonFree (place : Place) : Prop where
  partition : ':' ∉ place.partition.toList
  region : ':' ∉ place.region.toList
  account : ':' ∉ place.account.toList

theorem fields_arn {place : Place} (hp : ColonFree place) {type : String} (h : Named type)
    (last : String) :
    Text.fields ':' 5 ((String.singleton ':').intercalate
        (["arn", place.partition, service type, region place type, account place type]
          ++ [last]))
      = ["arn", place.partition, service type, region place type, account place type, last] := by
  have hregion : ':' ∉ (region place type).toList := by
    unfold region
    split
    · exact List.not_mem_nil
    · exact hp.region
  have haccount : ':' ∉ (account place type).toList := by
    unfold account
    split
    · exact List.not_mem_nil
    · exact hp.account
  have hparts : ∀ part ∈ ["arn", place.partition, service type, region place type,
      account place type], ':' ∉ part.toList := by
    simp [hp.partition, colon_notMem_service h, hregion, haccount]
  exact Text.fields_intercalate hparts last

/-- The last field of a name tells the type, if the service is known, and the physical id. -/
theorem eq_of_last_field {type type' id id' : String} (h : Named type) (h' : Named type')
    (hservice : service type = service type') (hlast : head type ++ id = head type' ++ id') :
    type = type' ∧ id = id' := by
  have hchars : (head type).toList ++ id.toList = (head type').toList ++ id'.toList := by
    rw [← String.toList_append, ← String.toList_append, hlast]
  have hbegins : (head type).toList <+: (head type').toList ++ id'.toList := by
    rw [← hchars]
    exact List.prefix_append _ _
  have htype : type = type' := by
    rcases List.prefix_or_prefix_of_prefix hbegins (List.prefix_append _ _) with
      hbegin | hbegin
    · exact eq_of_prefix_head h h' hservice hbegin
    · exact (eq_of_prefix_head h' h hservice.symm hbegin).symm
  subst htype
  exact ⟨rfl, String.toList_inj.mp (List.append_cancel_left hchars)⟩

/-- **The name of a resource can be taken apart, and no two resources have the same.** Let there be
no colons in the place. Then the first five colons of the name of any resource are those between its
fields, whatever colons and slashes there are in the physical id. The fields tell the partition, the
service, the region and the account, where these are given, and behind the kind of resource in the
last one stands the physical id. So resources that are of different types or have different physical
ids have different names. -/
theorem names_decodable {place : Place} (hp : ColonFree place) :
    (∀ type id, Named type → ∃ arn resource,
      attribute? place type id (some "Arn") = .ok (some arn) ∧
      Text.fields ':' 5 arn = ["arn", place.partition, service type, region place type,
        account place type, resource] ∧
      Text.dropStart? (head type) resource = some id) ∧
    ∀ type type' id id', Named type → Named type' →
      attribute? place type id (some "Arn") = attribute? place type' id' (some "Arn") →
      type = type' ∧ id = id' := by
  refine ⟨fun type id h => ?_, fun type type' id id' h h' heq => ?_⟩
  · exact ⟨_, head type ++ id, attribute?_arn h place id, fields_arn hp h _,
      Text.dropStart?_append (head type) id⟩
  · rw [attribute?_arn h, attribute?_arn h'] at heq
    have hfields := congrArg (Text.fields ':' 5) (Option.some.inj (Except.ok.inj heq))
    rw [fields_arn hp h, fields_arn hp h'] at hfields
    simp only [List.cons.injEq, and_true, true_and] at hfields
    obtain ⟨hservice, -, -, hlast⟩ := hfields
    exact eq_of_last_field h h' hservice hlast

/-- Two types of one service, and a physical id that looks like the end of another name. -/
theorem names_decodable_of_colons :
    let place : Place := ⟨"aws", "us-east-1", "111111111111"⟩
    ColonFree place ∧ Named "AWS::Lambda::Function" ∧
      (∃ arn resource,
        attribute? place "AWS::Lambda::Function" "f:1/a" (some "Arn") = .ok (some arn) ∧
        Text.fields ':' 5 arn
          = ["arn", "aws", "lambda", "us-east-1", "111111111111", resource] ∧
        Text.dropStart? "function:" resource = some "f:1/a") ∧
      Named "AWS::IAM::Role" ∧ Named "AWS::IAM::User" ∧
      attribute? place "AWS::IAM::Role" "user/r" (some "Arn")
        ≠ attribute? place "AWS::IAM::User" "r" (some "Arn") := by
  intro place
  have hp : ColonFree place := ⟨by decide, by decide, by decide⟩
  have hlambda : Named "AWS::Lambda::Function" := by decide +kernel
  have hrole : Named "AWS::IAM::Role" := by decide +kernel
  have huser : Named "AWS::IAM::User" := by decide +kernel
  have hservice : service "AWS::Lambda::Function" = "lambda" := by decide +kernel
  have hhead : head "AWS::Lambda::Function" = "function:" := by decide +kernel
  refine ⟨hp, hlambda, ?_, hrole, huser, fun heq => ?_⟩
  · have h := (names_decodable hp).1 "AWS::Lambda::Function" "f:1/a" hlambda
    have hregion : region place "AWS::Lambda::Function" = "us-east-1" := by decide +kernel
    have haccount : account place "AWS::Lambda::Function" = "111111111111" := by decide +kernel
    rwa [hservice, hhead, hregion, haccount] at h
  · obtain ⟨htype, -⟩ := (names_decodable hp).2 _ _ _ _ hrole huser heq
    exact absurd htype (by decide)

end Arn

end StackExpr
