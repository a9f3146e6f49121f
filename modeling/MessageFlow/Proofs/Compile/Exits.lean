import MessageFlow.Proofs.Canvas.Routing
import MessageFlow.Proofs.Compile.Message

/-! What a message depends on: the data of its node, and where the handles of the node lead. Nodes that agree in
    both send the same message, up to their ids, whatever canvases they stand on. -/

namespace MessageFlow

def Index.nowhere : Index := .ofLists [] []

theorem Index.successors_nowhere (id : String) (handle : Option Handle) : nowhere.successors id handle = [] :=
  successors_eq_nil [] (fun _ he => absurd he List.not_mem_nil) handle

/-- The handles of one node lead where those of another lead. -/
structure SameExits (ix : Index) (id : String) (ix' : Index) (id' : String) : Prop where
  all : ix'.successors id' none = ix.successors id none
  trigger : ix'.successors id' (some .trigger) = ix.successors id (some .trigger)
  choice : ∀ option, ix'.successors id' (some (.choice id' option)) = ix.successors id (some (.choice id option))

theorem SameExits.of_edges {nodes nodes' : List Node} {edges edges' : List Edge} {id : String}
    (h : (edges'.filter fun e => e.source == id) = edges.filter fun e => e.source == id) :
    SameExits (.ofLists nodes edges) id (.ofLists nodes' edges') id :=
  ⟨Index.successors_congr h _, Index.successors_congr h _, fun _ => Index.successors_congr h _⟩

theorem SameExits.of_nil {ix ix' : Index} {id id' : String} (h : ∀ handle, ix.successors id handle = [])
    (h' : ∀ handle, ix'.successors id' handle = []) : SameExits ix id ix' id' :=
  ⟨by rw [h, h'], by rw [h, h'], fun _ => by rw [h, h']⟩

namespace Form
variable {ix ix' : Index} {id id' : String}

theorem rows_eq_of_sameExits (hx : SameExits ix id ix' id') (choices : List Choice) :
    choices.map (·.row id' ix') = choices.map (·.row id ix) := by
  refine List.map_congr_left fun o _ => ?_
  rw [Choice.row, Choice.row, hx.choice]

theorem Template.content_eq_of_sameExits (hx : SameExits ix id ix' id') (f : Template) (options : List OptionEntry) :
    f.content options id' ix' = f.content options id ix := by
  simp only [Template.content, Handle.choiceAt, hx.choice]

end Form

namespace Message
open Compile

section SameData
variable {n n' : Node} {ix ix' : Index} {k : MessageKind} {m : Message}

theorem form_congr {α : Type} {r : Record α} {f : α} (hdata : n'.data = n.data) (h : n.form r = .ok f) :
    n'.form r = .ok f := by
  rw [form_eq_ok_iff] at h ⊢
  rw [hdata, h]

variable (hdata : n'.data = n.data) (hx : SameExits ix n.id ix' n'.id)
include hdata hx

/-- Nodes of the same data that lead to the same places send the same message, up to their ids. -/
theorem Sent.transfer (h : Sent n ix k m) : Sent n' ix' k { m with id := n'.id } := by
  have hdelay : n.delay = n'.delay := by rw [Node.delay, Node.delay, hdata]
  cases h with
  | trigger =>
    have h : Sent n' ix' .trigger (ofTrigger n' ix') := .trigger
    rw [ofTrigger, hx.trigger] at h
    exact h
  | text hf =>
    rw [hdelay]
    exact .text (form_congr hdata hf)
  | media hk hf =>
    rw [hdelay]
    exact .media hk (form_congr hdata hf)
  | @list f hf =>
    have h : Sent n' ix' .list _ := .list (form_congr hdata hf)
    rw [Form.Menu.content, Form.rows_eq_of_sameExits hx] at h
    rw [hdelay]
    exact h
  | @button f hf =>
    have h : Sent n' ix' .button _ := .button (form_congr hdata hf)
    rw [Form.Buttons.content, Form.rows_eq_of_sameExits hx] at h
    rw [hdelay]
    exact h
  | @flow f hf =>
    have h : Sent n' ix' .flow _ := .flow (form_congr hdata hf)
    rw [Form.Launch.content, hx.all] at h
    rw [hdelay]
    exact h
  | catalog hf hk =>
    rw [hdelay]
    exact .catalog (form_congr hdata hf) hk
  | @template f options hf ho =>
    have h : Sent n' ix' .template _ := .template (form_congr hdata hf) ho
    rw [Form.Template.content_eq_of_sameExits hx] at h
    rw [hdelay]
    exact h

theorem ofNode_transfer {om : Option Message} (h : ofNode k n ix = .ok om) :
    ofNode k n' ix' = .ok (om.map fun m => { m with id := n'.id }) := by
  cases om with
  | some m => exact ofNode_eq_ok_some_iff.2 ((ofNode_eq_ok_some_iff.1 h).transfer hdata hx)
  | none =>
    refine ofNode_eq_ok_none_iff.2 ((ofNode_eq_ok_none_iff.1 h).imp_right ?_)
    rintro ⟨hk, f, hf, hnone⟩
    exact ⟨hk, f, form_congr hdata hf, hnone⟩

theorem ofNode_eq_of_id_eq (hid : n'.id = n.id) {om : Option Message} (h : ofNode k n ix = .ok om) :
    ofNode k n' ix' = .ok om := by
  have hsame : (om.map fun m => { m with id := n'.id }) = om := by
    cases om with
    | none => rfl
    | some m => rw [Option.map_some, hid, ← (ofNode_eq_ok_some_iff.1 h).id_eq]
  rw [ofNode_transfer hdata hx h, hsame]

end SameData

end Message

end MessageFlow
