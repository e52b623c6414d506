import StackExpr.Dict
import StackExpr.Text.Split
/-!
# Command line arguments

Arguments are read from left to right. They name a command, perhaps a command below it, and settings
with their values; settings may stand anywhere, and those that every command has may be given at any
level. `Invocation.ofArguments` says what is asked for, or why nothing is done.

* A value follows its setting as an argument of its own, or behind `=`, or, if the name of the
  setting is a letter, directly. An argument that begins with a dash is no value of the first form.
* A setting is given once at a level; parameters may be repeated. What is given below a command
  counts more than what is given before it.
* Behind `--` all arguments are words.

## Why the recursion ends

Every step reads at least one argument.
-/

namespace StackExpr.CommandLine

/-- The forms in which a value is printed. -/
inductive OutputFormat where
  | json
  | yaml
  deriving DecidableEq

/-- The format of a name. -/
def OutputFormat.ofName? (name : String) : Option OutputFormat :=
  if name = "json" then some .json else if name = "yaml" then some .yaml else none

/-! ## Settings -/

/-- What can be set on the command line. -/
inductive Setting where
  | template
  | state
  | stackName
  | account
  | region
  | partition
  | parameter
  | format
  | expression
  deriving DecidableEq

namespace Setting

/-- The name of a setting behind two dashes. -/
def name : Setting → String
  | template => "template"
  | state => "state"
  | stackName => "stack-name"
  | account => "account"
  | region => "region"
  | partition => "partition"
  | parameter => "parameter"
  | format => "output-format"
  | expression => "expr"

/-- The letter of a setting behind one dash. -/
def letter? : Setting → Option Char
  | template => some 't'
  | state => some 's'
  | parameter => some 'p'
  | format => some 'F'
  | _ => none

/-- The settings that every command has. -/
def everywhere : List Setting :=
  [template, state, stackName, account, region, partition, parameter]

/-- The setting can have this value. -/
def accepts (s : Setting) (value : String) : Bool :=
  match s with
  | template => value != ""
  | state => value != ""
  | parameter => (Text.cutAt '=' value).isSome
  | format => (OutputFormat.ofName? value).isSome
  | _ => true

end Setting

/-- Settings with their values, as they were given. -/
abbrev Settings := List (Setting × String)

/-! ## Commands -/

/-- The commands, the program itself among them. -/
inductive Command where
  | program
  | evaluate
  | physicalName
  | references
  | dev
  | devTemplate
  | devState
  deriving DecidableEq

namespace Command

/-- The commands below a command, by name. -/
def below : Command → List (String × Command)
  | program => [("evaluate", evaluate), ("eval", evaluate), ("physical-name", physicalName),
      ("references", references), ("dev", dev)]
  | dev => [("template", devTemplate), ("state", devState)]
  | _ => []

/-- The settings of a command. -/
def settings : Command → List Setting
  | evaluate => Setting.everywhere ++ [.format]
  | references => Setting.everywhere ++ [.format]
  | physicalName => Setting.everywhere ++ [.expression]
  | _ => Setting.everywhere

/-- The number of words that a command is given. -/
def wordCount : Command → Nat
  | evaluate => 1
  | physicalName => 1
  | references => 1
  | _ => 0

/-- The command that a word names below a command. -/
def below? (c : Command) (word : String) : Option Command := c.below.lookup word

end Command

/-! ## Single arguments -/

/-- Why nothing is done. -/
inductive Stop where
  /-- The arguments make no sense. -/
  | usage
  /-- Help was asked for. -/
  | help
  /-- The version was asked for. -/
  | version
  deriving DecidableEq

/-- What a single argument is. -/
inductive Argument where
  | word (text : String)
  | setting (s : Setting) (value : Option String)
  | stop (s : Stop)

namespace Argument

/-- An argument behind two dashes: a name, perhaps with a value. -/
def ofName (c : Command) (name : String) (value : Option String) : Argument :=
  match c.settings.find? fun s => s.name == name with
  | some s => setting s value
  | none =>
    if value.isSome then stop .usage
    else if name = "help" then stop .help
    else if name = "version" ∧ c = .program then stop .version
    else stop .usage

/-- An argument behind one dash: a letter, perhaps with a value. -/
def ofLetter (c : Command) (letter : Char) (rest : List Char) : Argument :=
  match c.settings.find? fun s => s.letter? == some letter with
  | some s =>
    match rest with
    | [] => setting s none
    | '=' :: value => setting s (some (String.ofList value))
    | value => setting s (some (String.ofList value))
  | none =>
    if letter = 'h' then stop .help
    else if letter = 'V' ∧ c = .program then stop .version
    else stop .usage

/-- What an argument of a command is. -/
def ofText (c : Command) (text : String) : Argument :=
  match text.toList with
  | '-' :: '-' :: cs =>
    match Text.cut ['='] cs with
    | some (name, value) => ofName c (String.ofList name) (some (String.ofList value))
    | none => ofName c (String.ofList cs) none
  | '-' :: letter :: rest => ofLetter c letter rest
  | _ => word text

end Argument

/-- The argument can be the value of the setting before it. -/
def isValue (text : String) : Bool := text == "-" || text.toList.head? != some '-'

/-! ## All arguments -/

/-- What arguments say: a command, its words, and the settings of all levels, the deepest first. -/
structure Reading where
  command : Command
  words : List String := []
  settings : List Settings := [[]]

namespace Reading

/-- One more setting at the deepest level. -/
def withSetting (r : Reading) (s : Setting) (value : String) : Except Stop Reading :=
  match r.settings with
  | [] => .error .usage
  | level :: outer =>
    if !s.accepts value || s != .parameter && (level.lookup s).isSome then .error .usage
    else .ok { r with settings := (level ++ [(s, value)]) :: outer }

/-- More words. -/
def withWords (r : Reading) (words : List String) : Except Stop Reading :=
  if r.words.length + words.length ≤ r.command.wordCount then
    .ok { r with words := r.words ++ words }
  else .error .usage

/-- The reading below a command. -/
def enter (r : Reading) (c : Command) : Reading :=
  { command := c, settings := [] :: r.settings }

/-- The value of a setting: from the deepest level at which it is given. -/
def value? (r : Reading) (s : Setting) : Option String :=
  r.settings.findSome? fun level => level.lookup s

/-- The parameters of the deepest level that has any. -/
def parameters (r : Reading) : List (String × String) :=
  let level := (r.settings.find? fun level => (level.lookup .parameter).isSome).getD []
  level.filterMap fun (s, value) =>
    if s = .parameter then Text.cutAt '=' value else none

end Reading

/-- The words behind a request for help name commands below a command, one below the other; help may
itself be among them. -/
def namesCommands (c : Command) : List String → Bool
  | [] => true
  | word :: words =>
    match c.below? word with
    | some c => namesCommands c words
    | none => word == "help" && !c.below.isEmpty && words.isEmpty

/-- Reads arguments onto what was read so far. -/
def read (r : Reading) : List String → Except Stop Reading
  | [] => .ok r
  | text :: rest =>
    if text = "--" then r.withWords rest
    else
      match Argument.ofText r.command text with
      | .stop s => .error s
      | .setting s (some value) => do read (← r.withSetting s value) rest
      | .setting s none =>
        match rest with
        | [] => .error .usage
        | value :: rest =>
          if isValue value then do read (← r.withSetting s value) rest else .error .usage
      | .word text =>
        if r.command.below.isEmpty then do read (← r.withWords [text]) rest
        else
          match r.command.below? text with
          | some c => read (r.enter c) rest
          | none =>
            .error (if text = "help" && namesCommands r.command rest then .help else .usage)

/-! ## Invocations -/

/-- What is asked for. -/
inductive Task where
  | evaluate (expression : String) (format : OutputFormat)
  | physicalName (id : String) (expression : Option String)
  | references (id : String) (format : OutputFormat)
  | showTemplate
  | showState
  deriving DecidableEq

/-- What is asked for, and of which files and in which context. -/
structure Invocation where
  task : Task
  template : Option String
  state : Option String
  stackName : String
  account : String
  region : String
  partition : Option String
  parameters : List (String × String)

namespace Invocation

/-- The task of a command with its words. -/
def task? (r : Reading) : Option Task :=
  let format := ((r.value? .format).bind OutputFormat.ofName?).getD .json
  match r.command, r.words with
  | .evaluate, [expression] => some (.evaluate expression format)
  | .physicalName, [id] => some (.physicalName id (r.value? .expression))
  | .references, [id] => some (.references id format)
  | .devTemplate, [] => some .showTemplate
  | .devState, [] => some .showState
  | _, _ => none

/-- What the arguments ask for. -/
def ofArguments (arguments : List String) : Except Stop Invocation := do
  let r ← read { command := .program } arguments
  match task? r with
  | none => .error .usage
  | some task =>
    return { task
             template := r.value? .template
             state := r.value? .state
             stackName := (r.value? .stackName).getD "stack"
             account := (r.value? .account).getD "111111111111"
             region := (r.value? .region).getD "us-east-1"
             partition := r.value? .partition
             parameters := r.parameters }

end Invocation

end StackExpr.CommandLine
