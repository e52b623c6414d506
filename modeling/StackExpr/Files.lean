import StackExpr.Dict
import StackExpr.Json.Reader
import StackExpr.Text.LowerCase
import StackExpr.Text.Split
import StackExpr.Yaml.Reader
/-!
# Reading files

A file holds one document in JSON or YAML; its extension says which. A `Source` is a file that was
found, under the path that messages show. `Directory.source?` finds files among texts by relative
path.
-/

namespace StackExpr

/-- A file that was found. -/
structure Source where
  path : String
  text : String

/-- Why a file gives nothing. -/
inductive LoadError where
  | notFound
  | unknownFormat (path : String)
  | notJson
  | notYaml
  deriving DecidableEq

/-- The error as a sentence. -/
def LoadError.message : LoadError → String
  | notFound => "IO error"
  | unknownFormat path =>
    "Unknown file format " ++ path ++ " (expected .json, .yaml or .yml)"
  | notJson => "Unable to parse json file"
  | notYaml => "Unable to parse yaml file"

/-! ## Formats -/

/-- The formats of files. -/
inductive Format where
  | json
  | yaml
  deriving DecidableEq

/-- The extension of a path: what stands behind the last dot of its last part, unless that dot is
the first character of it. -/
def extension? (path : String) : Option String :=
  let name := (Text.splitOn ['/'] path.toList).getLast?.getD []
  match Text.splitOn ['.'] name with
  | [] => none
  | [_] => none
  | [[], _] => none
  | pieces => pieces.getLast?.map String.ofList

/-- The format of a path. -/
def Format.ofPath? (path : String) : Option Format :=
  match (extension? path).map Text.lowerCase with
  | some "json" => some .json
  | some "yaml" => some .yaml
  | some "yml" => some .yaml
  | _ => none

/-- Reads a file by `read`. -/
def load {α : Type} (read : Doc → Option α) (source : Option Source) : Except LoadError α :=
  match source with
  | none => .error .notFound
  | some s =>
    match Format.ofPath? s.path with
    | some .json =>
      match (Json.document? s.text).bind read with
      | some x => .ok x
      | none => .error .notJson
    | some .yaml =>
      match (Yaml.document? s.text).bind read with
      | some x => .ok x
      | none => .error .notYaml
    | none => .error (.unknownFormat s.path)

/-! ## Directories -/

/-- Files by name. -/
abbrev Directory := Dict String

namespace Directory

/-- The parts of a relative path, its dots resolved; `done` are the parts so far, latest first.
There are none for a path that leaves the directory. -/
def resolve? (done : List String) : List String → Option (List String)
  | [] => some done.reverse
  | "." :: parts => resolve? done parts
  | ".." :: parts =>
    match done with
    | [] => none
    | _ :: done => resolve? done parts
  | part :: parts => resolve? (part :: done) parts

/-- The file at a relative path. -/
def source? (d : Directory) (path : String) : Option Source :=
  match (Text.splitOn ['/'] path.toList).map String.ofList with
  | "" :: _ => none
  | parts => do
    if parts.getLast? == some "" then none
    else
      let name := "/".intercalate (← resolve? [] (parts.filter (· != "")))
      return ⟨name, ← d.get? name⟩

end Directory

end StackExpr
