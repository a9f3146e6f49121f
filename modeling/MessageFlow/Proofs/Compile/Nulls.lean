import MessageFlow.Proofs.Compile.Agreement
import MessageFlow.Proofs.Compile.Endless
import MessageFlow.Proofs.Form.Nulls

/-! # Nodes that nobody has filled in

A node that an editor has just added holds null in its fields, or no data at all. The compiler sees no more in it than
in the node without these fields: it has the same step, or is refused for the same reason, and a compilation that does
not end with these fields does not end without them. -/

namespace MessageFlow

/-- The node without the fields that nobody has filled in. -/
def Node.filled (n : Node) : Node := { n with data := n.data.filled }

def Canvas.filled (c : Canvas) : Canvas := { c with nodes := c.nodes.map Node.filled }

namespace Compile

/-- The canvases compile to the same steps with the same edges, or both are refused for the same reason. -/
def SameOutcome (s : Settings) (c c' : Canvas) : Prop :=
  (∃ f g, c.compile s = .ok f ∧ c'.compile s = .ok g ∧ f.steps = g.steps ∧ f.stepEdges = g.stepEdges) ∨
    ∃ e : Refusal, c.compile s = .error (.refused e) ∧ c'.compile s = .error (.refused e)

theorem sameOutcome_of_seenAlike {s : Settings} {c c' : Canvas}
    (hnodes : List.Forall₂ (SeenAlike s s id) c.nodes c'.nodes) (hedges : c'.edges = c.edges) :
    SameOutcome s c c' ∨ NeverEnds c s ∧ NeverEnds c' s := by
  have hgiven := compile_eq c s
  have halike := compile_eq c' s
  rw [steps_congr hnodes hedges, hedges] at halike
  cases houtcome : outcome (plan c s).steps with
  | ok made =>
    rw [houtcome] at hgiven halike
    exact .inl (.inl ⟨_, _, hgiven, halike, rfl, rfl⟩)
  | error e =>
    rw [houtcome] at hgiven halike
    cases e with
    | refused e => exact .inl (.inr ⟨e, hgiven, halike⟩)
    | endlessGroup => exact .inr ⟨neverEnds_of_compile hgiven, neverEnds_of_compile halike⟩

/-! ### What a node sends -/

theorem delay_filled (n : Node) : n.filled.delay = n.delay := by
  unfold Node.delay Node.filled
  cases n.data with
  | obj fields =>
    rw [Json.get?_filled, Json.get?]
    cases Json.Object.get? fields "delay" with
    | none => rfl
    | some v => cases v <;> rfl
  | _ => rfl

theorem form_filled {α : Type} {r : Record α} (h : r.schema.Tolerates Json.filledAt) (n : Node) :
    n.filled.form r = n.form r := by
  unfold Node.form Node.filled
  rw [Form.ofData_filled h]

theorem ofNode_filled (k : MessageKind) (n : Node) (ix : Index) :
    Message.ofNode k n.filled ix = Message.ofNode k n ix := by
  have hid : n.filled.id = n.id := rfl
  have hsame : ∀ {α : Type} {r : Record α}, Form.HeldBy r k → r.schema.Tolerates Json.filledAt →
      Message.ofNode k n.filled ix = Message.ofNode k n ix :=
    fun hr h => hr.ofNode_congr hid (form_filled h n) (delay_filled n) ix
  cases k with
  | trigger | group => rfl
  | text => exact hsame .text Form.Text.tolerates
  | image => exact hsame .image Form.Media.tolerates
  | video => exact hsame .video Form.Media.tolerates
  | audio => exact hsame .audio Form.Media.tolerates
  | document => exact hsame .document Form.Media.tolerates
  | list => exact hsame .list Form.Menu.tolerates
  | button => exact hsame .button Form.Buttons.tolerates
  | flow => exact hsame .flow Form.Launch.tolerates
  | catalog => exact hsame .catalog Form.Catalog.tolerates
  -- The templates that are read differ in what they do not know of their descriptions, which no message shows.
  | template =>
    have htemplate : Message.ofTemplate n.filled ix = Message.ofTemplate n ix :=
      ofTemplate_congr hid rfl (delay_filled n) Form.Template.options_bare Form.Template.content_bare
        (Form.Template.ofData_filled n.data)
    simp only [Message.ofNode, htemplate]

theorem seenAlike_filled (s : Settings) (n : Node) : SeenAlike s s id n n.filled :=
  ⟨rfl, rfl, rfl, delay_filled n, fun k ix => (ofNode_filled k n ix).trans (mapError_id _).symm⟩

theorem ofNode_of_no_data (k : MessageKind) (n : Node) (ix : Index) :
    Message.ofNode k { n with data := .obj [] } ix = Message.ofNode k { n with data := .null } ix := by
  cases k <;> rfl

theorem seenAlike_of_no_data (s : Settings) (n : Node) :
    SeenAlike s s id { n with data := .null } { n with data := .obj [] } :=
  ⟨rfl, rfl, rfl, rfl, fun k ix => (ofNode_of_no_data k n ix).trans (mapError_id _).symm⟩

/-! ### Canvases -/

/-- A canvas compiles as it does without the fields that hold null, and a node without data compiles as one that holds
    an object without fields, if either compilation ends. -/
theorem compile_filled (c : Canvas) (s : Settings) :
    (SameOutcome s c c.filled ∨ NeverEnds c s ∧ NeverEnds c.filled s) ∧
    ∀ (before : List Node) (n : Node) (after : List Node),
      let unset : Canvas := ⟨before ++ { n with data := .null } :: after, c.edges⟩
      let empty : Canvas := ⟨before ++ { n with data := .obj [] } :: after, c.edges⟩
      SameOutcome s unset empty ∨ NeverEnds unset s ∧ NeverEnds empty s := by
  refine ⟨sameOutcome_of_seenAlike ?_ rfl, fun before n after => sameOutcome_of_seenAlike ?_ rfl⟩
  · rw [Canvas.filled, List.forall₂_map_right_iff]
    exact List.forall₂_same.2 fun n _ => seenAlike_filled s n
  · have hsame : ∀ l : List Node, List.Forall₂ (SeenAlike s s id) l l :=
      fun l => List.forall₂_same.2 fun _ _ => ⟨rfl, rfl, rfl, rfl, fun _ _ => (mapError_id _).symm⟩
    exact List.rel_append (hsame before) (.cons (seenAlike_of_no_data s n) (hsame after))

theorem not_sameOutcome_ringed : ¬SameOutcome {} ringed ringed.filled := by
  rintro (⟨f, -, hf, -⟩ | ⟨e, he, -⟩)
  · exact (neverEnds_ringed true).ne_ok f hf
  · exact (neverEnds_ringed true).ne_refused e he

end Compile
end MessageFlow
