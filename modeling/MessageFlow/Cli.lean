import MessageFlow.Json.Parser
import MessageFlow.Json.Printer
import MessageFlow.Request

/-! The command line: a command, the file that holds the request (or `-` for standard input), and two
    options that may stand before or after the command. `-p` spreads the response over several lines,
    `-o` names a file to write it to. No option may be given twice on one side of the command; where both
    sides name a file, the one behind the command counts. -/

namespace MessageFlow
namespace Cli

/-! ### Arguments -/

/-- The options on one side of the command. -/
structure Options where
  pretty : Bool := false
  output : Option String := none
deriving DecidableEq

/-- What is to be done. -/
structure Invocation where
  command : Request.Command
  input : String
  pretty : Bool
  output : Option String
deriving DecidableEq

/-- The command with a name. -/
def command? : String → Option Request.Command
  | "compile" => some .compile
  | "scaffold" => some .scaffold
  | "campaign" => some .campaign
  | _ => none

/-- The argument is no option. -/
def isPlain (arg : String) : Bool := arg == "-" || arg.toList.head? != some '-'

/-- Sets the output file. -/
def Options.setOutput (o : Options) (path : String) : Option Options :=
  if o.output.isSome then none else some { o with output := some path }

/-- Asks for several lines. -/
def Options.setPretty (o : Options) : Option Options :=
  if o.pretty then none else some { o with pretty := true }

/-- Reads the letters of short options. The answer says whether the path of the output file is still to
    come. -/
def Options.readLetters (o : Options) : List Char → Option (Options × Bool)
  | [] => some (o, false)
  | 'p' :: rest => o.setPretty.bind fun o => readLetters o rest
  | ['o'] => some (o, true)
  | 'o' :: '=' :: path => (o.setOutput (String.ofList path)).map (·, false)
  | 'o' :: path => (o.setOutput (String.ofList path)).map (·, false)
  | _ => none

/-- What an option that names its path asks for. -/
def attachedOutput? (arg : String) : Option String :=
  ("--output=".toList.isPrefixOf? arg.toList).map String.ofList

/-- Reads one option. The answer says whether the path of the output file is still to come. -/
def Options.readOption (o : Options) (arg : String) : Option (Options × Bool) :=
  if arg = "--pretty" then o.setPretty.map (·, false)
  else if arg = "--output" then some (o, true)
  else
    match attachedOutput? arg with
    | some path => (o.setOutput path).map (·, false)
    | none =>
      match arg.toList with
      | '-' :: '-' :: _ => none
      | _ :: letters => o.readLetters letters
      | [] => none

/-- Reads options up to the first argument that is none, or the `--` that ends them. -/
def Options.readAll (o : Options) : List String → Option (Options × List String)
  | [] => some (o, [])
  | arg :: rest =>
    if isPlain arg || arg == "--" then some (o, arg :: rest)
    else
      match o.readOption arg with
      | none => none
      | some (o, false) => readAll o rest
      | some (o, true) =>
        match rest with
        | [] => none
        | path :: rest => if isPlain path then (o.setOutput path).bind fun o => readAll o rest else none

/-- Reads what stands behind the command: one input and options. -/
def readInput (args : List String) : Option (Options × String) :=
  match Options.readAll {} args with
  | some (o, ["--", input]) => some (o, input)
  | some (o, input :: rest) =>
    if input = "--" then none
    else
      match o.readAll rest with
      | some (o, []) | some (o, ["--"]) => some (o, input)
      | _ => none
  | _ => none

/-- Reads the arguments; `none` if they are not used as they should be. -/
def parse (args : List String) : Option Invocation :=
  match Options.readAll {} args with
  | some (before, name :: rest) =>
    match command? name, readInput rest with
    | some command, some (behind, input) =>
      some ⟨command, input, before.pretty || behind.pretty, behind.output.or before.output⟩
    | _, _ => none
  | _ => none

/-! ### Answers -/

/-- Why a file cannot be used. -/
inductive FileFault where
  | notFound
  | isDirectory
  | other (reason : String)
deriving DecidableEq

def FileFault.describe : FileFault → String
  | .notFound => "No such file or directory (os error 2)"
  | .isDirectory => "Is a directory (os error 21)"
  | .other reason => reason

/-- Why there is no answer. -/
inductive Failure where
  | unreadableInput (path : String) (fault : FileFault)
  | unreadableRequest (error : Json.SyntaxError)
  | request (error : RequestError)
  | unwritableOutput (path : String) (fault : FileFault)
deriving DecidableEq

def Failure.message : Failure → String
  | .unreadableInput path fault => "Failed to read request file '" ++ path ++ "': " ++ fault.describe
  | .unreadableRequest e => "Failed to parse request JSON: " ++ e.message
  | .request e => "Request failed (status " ++ Text.decimal e.status ++ "): " ++ e.message
  | .unwritableOutput path fault => "Failed to write output file '" ++ path ++ "': " ++ fault.describe

/-- The text of a response. -/
def render (pretty : Bool) (r : Response) : String := if pretty then r.write.pretty else r.write.compact

/-- Answers the request in a text. -/
def respond (i : Invocation) (text : String) (ids : IdSource) : Except Failure String :=
  match Json.parse text Json.depthLimit with
  | .error e => .error (.unreadableRequest e)
  | .ok body =>
    match Request.answer i.command body ids with
    | .error e => .error (.request e)
    | .ok (r, _) => .ok (render i.pretty r)

end Cli
end MessageFlow
