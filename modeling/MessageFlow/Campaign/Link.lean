import MessageFlow.Campaign.Descriptor
import MessageFlow.Step.Basic

/-! The steps of a campaign. Every option of a step that is not conditional is made to lead to the next
    step, by the `target` in its state; nothing else of the descriptor changes. -/

namespace MessageFlow
namespace Campaign

/-- The state of an option, as far as it is an object. -/
def stateOf (option : Json.Object) : Json.Object :=
  match option.get? "state" with
  | some (.obj state) => state
  | _ => []

/-- The option is followed only on a condition. -/
def isConditional (state : Json.Object) : Bool :=
  match state.get? "isConditional" with
  | some (.bool b) => b
  | _ => false

/-- Makes an option lead to the given steps, unless it is conditional. An option that is no object stays
    as it is; one without a state gets one. -/
def link (target : List String) : Json → Json
  | .obj option =>
    let state := stateOf option
    let linked := if isConditional state then state else state.insert "target" (.strings target)
    .obj (Json.Object.insert option "state" (.obj linked))
  | v => v

/-- The template with its options linked. -/
def Template.link (t : Template) (target : List String) : Template :=
  { t with options := t.options.map (Campaign.link target) }

/-- The step of a descriptor. -/
def Descriptor.step (d : Descriptor) (id : String) (target : List String) : Step :=
  .message
    { id := id, kind := .template, name := d.name, broadcast := d.broadcast, delay := d.delay,
      content := .spec (Template.record.codec.encode (d.template.link target)) }

end Campaign
end MessageFlow
