import MessageFlow.Json.SyntaxError
import MessageFlow.Schema.ReadError

/-! Why a canvas does not compile. -/

namespace MessageFlow

/-- Why the options of a template do not read. -/
inductive OptionsFault where
  /-- The text is no JSON list. -/
  | unreadable (error : Json.SyntaxError)
  /-- The option at a position has no type. -/
  | untyped (index : Nat)
  /-- The option at a position has nothing under its type. -/
  | vacant (index : Nat) (type : String)
deriving DecidableEq

def OptionsFault.message : OptionsFault → String
  | .unreadable e => e.message
  | .untyped index => "option " ++ Text.decimal index ++ " has no type"
  | .vacant index type => "option " ++ Text.decimal index ++ " has no '" ++ type ++ "' object"

/-- Why the compiler refuses a canvas. -/
inductive Refusal where
  /-- The options of a template node do not read. -/
  | malformedOptions (node : String) (fault : OptionsFault)
  /-- The data of a node does not fit its type. -/
  | invalidData (node type : String) (error : ReadError)
deriving DecidableEq

def Refusal.message : Refusal → String
  | .malformedOptions node fault =>
    "Node '" ++ node ++ "' carries a malformed embedded 'template.options' value: " ++ fault.message
  | .invalidData node type error =>
    "Node '" ++ node ++ "' of type '" ++ type ++ "' has invalid data: " ++ error.message

/-- Why there is no flow for a canvas. -/
inductive CompileError where
  | refused (refusal : Refusal)
  /-- No error that the compiler ever gives: it goes into the groups of the canvas without end. This takes a
      group that sits in itself, and two nodes of one id. -/
  | endlessGroup
deriving DecidableEq

namespace CompileError

@[match_pattern] abbrev malformedOptions (node : String) (fault : OptionsFault) : CompileError :=
  .refused (.malformedOptions node fault)

@[match_pattern] abbrev invalidData (node type : String) (error : ReadError) : CompileError :=
  .refused (.invalidData node type error)

def message : CompileError → String
  | .refused refusal => refusal.message
  -- Shown by no run, for none that goes on without end comes to show anything.
  | .endlessGroup => "A group sits in itself"

end CompileError

end MessageFlow
