/-!
# Functions

The functions that expressions can call are a closed set. A name is a call's if it is `Ref` or
begins with `Fn::`, whether or not there is such a function.
-/

namespace StackExpr

/-- The functions that can be evaluated. -/
inductive Function where
  | ref
  | getAtt
  | join
  | split
  | select
  | sub
  | importValue
  deriving DecidableEq

namespace Function

/-- The name a function is called by. -/
def name : Function → String
  | ref => "Ref"
  | getAtt => "Fn::GetAtt"
  | join => "Fn::Join"
  | split => "Fn::Split"
  | select => "Fn::Select"
  | sub => "Fn::Sub"
  | importValue => "Fn::ImportValue"

/-- All functions. -/
def all : List Function := [ref, getAtt, join, split, select, sub, importValue]

/-- The function of a name. -/
def ofName? (name : String) : Option Function := all.find? fun f => f.name == name

/-- The name is one that calls are made by. -/
def isCallName (name : String) : Bool :=
  name == "Ref" || ['F', 'n', ':', ':'].isPrefixOf name.toList

theorem ofName?_name (f : Function) : ofName? f.name = some f := by
  cases f <;> decide

theorem isCallName_name (f : Function) : isCallName f.name = true := by
  cases f <;> decide

end Function

end StackExpr
