import StackExpr.CommandLine.Arguments
import StackExpr.Evaluator
import StackExpr.Files
import StackExpr.Job.Run
import StackExpr.Outline
import StackExpr.Template.Encode
import StackExpr.Template.References
import StackExpr.Yaml.Writer
/-!
# Running an invocation

The template is loaded first, then the state, and what is missing is empty. `run` gives what the
program prints and the code it ends with: 0 if all went well, 1 if it did not, 2 if the arguments
make no sense. Files are found by a function, so that nothing here reads any.
-/

namespace StackExpr.CommandLine

/-- The name and version of the program. -/
def versionText : String := "cfn-eval 0.1.0"

/-- What the program prints and the code it ends with. -/
structure Outcome where
  code : Nat
  output : String := ""
  complaint : String := ""
  deriving DecidableEq

namespace Outcome

/-- All went well. -/
def success (output : String) : Outcome := { code := 0, output }

/-- It did not. -/
def failure (complaint : String) : Outcome := { code := 1, complaint }

end Outcome

/-- The value of a text on the command line: JSON if it is, else the text itself. -/
def expressionOf (text : String) : Json := (Json.parse? text).getD (.string text)

/-- A value in an output format, with the end of its line. -/
def OutputFormat.print : OutputFormat → Json → String
  | .json, v => v.prettyText ++ "\n"
  | .yaml, v => Yaml.text v

/-- The content of the file at a path, if one is given. -/
def loadOrDefault {α : Type} (read : Doc → Option α) (default : α)
    (find : String → Option Source) (path : Option String) : Except LoadError α :=
  match path with
  | none => .ok default
  | some path => load read (find path)

namespace Invocation

/-- The context that is asked for. -/
def context (i : Invocation) : Context :=
  let c := Context.ofRegion i.account i.region
  let c := match i.partition with
    | some p => c.withPartition p
    | none => c
  i.parameters.foldl (fun c (name, value) => c.withParameter name (.string value)) c

/-- Runs a job in the stack that is asked for. -/
def evaluateIn {α : Type} (i : Invocation) (template : Template) (state : State)
    (job : Evaluator → Job α) : Except Failure α :=
  (Job.run { cloud := state.cloud } (do
    let ev ← Evaluator.openStack state.cloud.exportPages.length i.stackName template i.context
      state.nested
    job ev) {}).1

/-- Does what is asked for with a template and a state. -/
def perform (i : Invocation) (template : Template) (state : State) : Outcome :=
  match i.task with
  | .evaluate expression format =>
    match i.evaluateIn template state fun ev => ev.evaluate (expressionOf expression) with
    | .ok v => .success (format.print v)
    | .error e => .failure e.message
  | .physicalName id expression =>
    match i.evaluateIn template state fun ev =>
      ev.establishPhysicalName? id (expression.map expressionOf) with
    | .ok (some name) => .success (name ++ "\n")
    | .ok none => .failure ("No physical name found for " ++ id)
    | .error e => .failure e.message
  | .references id format =>
    .success (format.print (.array ((template.references id).map fun (name, r) =>
      .object (r.referenceFields name))))
  | .showTemplate => .success ((Outline.ofTemplate template).text ++ "\n")
  | .showState => .success ((Outline.ofState state).text ++ "\n")

/-- Loads the files of an invocation and does what is asked for. -/
def run (i : Invocation) (find : String → Option Source) : Outcome :=
  match loadOrDefault Template.ofDoc? {} find i.template with
  | .error e => .failure e.message
  | .ok template =>
    match loadOrDefault State.ofDoc? {} find i.state with
    | .error e => .failure e.message
    | .ok state => i.perform template state

end Invocation

/-- Runs the program with arguments. -/
def run (find : String → Option Source) (arguments : List String) : Outcome :=
  match Invocation.ofArguments arguments with
  | .ok i => i.run find
  | .error .usage => { code := 2 }
  | .error .help => { code := 0 }
  | .error .version => .success (versionText ++ "\n")

end StackExpr.CommandLine
