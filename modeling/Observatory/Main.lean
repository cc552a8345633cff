import Observatory.CommandLine.Answer

/-! The program: reads the files and variables that a command line names, writes the
answer to the standard output and failures to the standard error. -/
namespace Observatory.CommandLine

/-- The environment variables that the program looks at. -/
def variableNames : List String :=
  Setting.all.map (·.variableName) ++ Config.variableNames

def readEnvironment : IO Environment := do
  let entries ← variableNames.filterMapM fun name => do
    return (← IO.getEnv name).map fun value => (name, value)
  return fun name => entries.lookup name

def readFile (path : String) : IO FileContent := do
  try
    return .text (← IO.FS.readFile path)
  catch
    | .noFileOrDirectory _ _ _ => return .missing
    | _ => return .unreadable

/-- Answers a command line from real files. -/
def answerFrom (args : List String) : IO (Except Failure Document) := do
  let env ← readEnvironment
  match Arguments.read? env args with
  | none => return .error .usage
  | some a => return a.answer env (← readFile a.config) (← readFile a.catalog)

end Observatory.CommandLine

open Observatory.CommandLine in
def main (args : List String) : IO UInt32 := do
  let answer ← answerFrom args
  if let .error failure := answer then IO.eprintln failure.message
  let outcome := Outcome.ofAnswer answer
  IO.print outcome.output
  return UInt32.ofNat outcome.exitCode
