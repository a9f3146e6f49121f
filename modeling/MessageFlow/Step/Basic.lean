import MessageFlow.Step.Content

/-! Steps: what the delivery engine runs. A step sends one message, or is a group that holds the steps
    of its members. -/

namespace MessageFlow

/-- The delivery engine's kinds of step. -/
inductive StepKind where
  | triggers
  | text
  | attachment
  | interactive
  | catalog
  | template
  | group
deriving DecidableEq, Repr

def StepKind.name : StepKind → String
  | .triggers => "triggers"
  | .text => "text"
  | .attachment => "attachment"
  | .interactive => "interactive"
  | .catalog => "catalog"
  | .template => "template"
  | .group => "group"

/-- A step that sends one message. -/
structure Message where
  id : String
  kind : StepKind
  subKind : Option String := none
  name : Option String := none
  broadcast : Option Json := none
  content : Content
  delay : Option Json := none

/-- A step of a flow. -/
inductive Step where
  | message (m : Message)
  | group (id : String) (members : List Step) (target : List String) (delay : Option Json)

namespace Message

def write (m : Message) : Json :=
  .obj ([("id", .str m.id), ("type", .str m.kind.name)] ++
    (m.subKind.map fun s => ("sub_type", .str s)).toList ++
    (m.name.map fun s => ("messageName", .str s)).toList ++
    (m.broadcast.map ("broadcastId", ·)).toList ++
    [("data", m.content.write)] ++
    (m.delay.map ("delay", ·)).toList)

end Message

namespace Step

def id : Step → String
  | .message m => m.id
  | .group id _ _ _ => id

/-- How long to wait before the step. -/
def delay : Step → Option Json
  | .message m => m.delay
  | .group _ _ _ delay => delay

mutual

def write : Step → Json
  | .message m => m.write
  | .group id members target delay =>
    .obj ([("id", .str id), ("type", .str StepKind.group.name),
      ("data", .obj [("members", .arr (writeAll members)), ("target", .strings target)])] ++
      (delay.map ("delay", ·)).toList)

def writeAll : List Step → List Json
  | [] => []
  | s :: rest => write s :: writeAll rest

end

end Step
end MessageFlow
