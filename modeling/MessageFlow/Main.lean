import MessageFlow.Cli

/-! The program: reads the request, answers it and writes the answer. It ends with 0 if there is one, with
    1 if there is none, and with 2 if the arguments are not used as they should be. -/

namespace MessageFlow
namespace Cli

/-- Why the system refused a file. -/
def FileFault.ofError : IO.Error → FileFault
  | .noFileOrDirectory .. => .notFound
  | .inappropriateType _ 21 _ => .isDirectory
  | e => .other (toString e)

/-- All that standard input holds. -/
def readStandardInput : IO String := do (← IO.getStdin).readToEnd

/-- The text of the request. -/
def readText (path : String) : IO (Except Failure String) := do
  try
    return .ok (← if path = "-" then readStandardInput else IO.FS.readFile path)
  catch e =>
    return .error (.unreadableInput path (.ofError e))

/-- Writes the answer to the file that was named, or to standard output. -/
def writeText (output : Option String) (text : String) : IO (Except Failure Unit) := do
  match output with
  | none =>
    IO.println text
    return .ok ()
  | some path =>
    try
      IO.FS.writeFile path text
      return .ok ()
    catch e =>
      return .error (.unwritableOutput path (.ofError e))

/-- Ids that no other run has. -/
def freshIds : IO IdSource := do
  let bytes ← IO.getRandomBytes 16
  return .ofSeed (bytes.toList.foldl (fun n b => n * 256 + b.toNat) 0)

/-- Reads, answers and writes. -/
def run (i : Invocation) : IO (Except Failure Unit) := do
  match ← readText i.input with
  | .error e => return .error e
  | .ok text =>
    match respond i text (← freshIds) with
    | .error e => return .error e
    | .ok answer => writeText i.output answer

/-- How the program is used. -/
def usage : String := "Usage: [-p] [-o PATH] compile|scaffold|campaign INPUT"

end Cli
end MessageFlow

/-- Does what the arguments ask for. -/
def main (args : List String) : IO UInt32 := do
  match MessageFlow.Cli.parse args with
  | none =>
    IO.eprintln MessageFlow.Cli.usage
    return 2
  | some i =>
    match ← MessageFlow.Cli.run i with
    | .ok () => return 0
    | .error e =>
      IO.eprintln ("\nError: " ++ e.message)
      return 1
