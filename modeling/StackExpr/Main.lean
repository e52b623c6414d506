import StackExpr.CommandLine.Run
/-!
# The program

Reads the files that the arguments name and leaves all else to `StackExpr.CommandLine.run`.
-/

namespace StackExpr

/-- The file at a path, if it can be read. -/
def readSource? (path : String) : IO (Option Source) := do
  try
    let text ← IO.FS.readFile path
    let real ← IO.FS.realPath path
    return some ⟨real.toString, text⟩
  catch _ => return none

/-- The files that arguments name, by the paths they are named by. -/
def readSources (arguments : List String) : IO (List (String × Option Source)) := do
  match CommandLine.Invocation.ofArguments arguments with
  | .error _ => return []
  | .ok i =>
    (i.template.toList ++ i.state.toList).mapM fun path => return (path, ← readSource? path)

end StackExpr

/-- Prints what the program has to say and ends with its code. -/
def main (arguments : List String) : IO UInt32 := do
  let sources ← StackExpr.readSources arguments
  let outcome := StackExpr.CommandLine.run (fun path => (sources.lookup path).join) arguments
  IO.print outcome.output
  if outcome.complaint ≠ "" then IO.eprintln outcome.complaint
  return outcome.code.toUInt32
