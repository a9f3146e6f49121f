import MessageFlow.Proofs.Compile.Sanitizing

/-! # Mapped types as names

Rules by which nodes of one type count as nodes of a known type do to a compilation what renaming the types
does: on the canvas whose nodes carry the names of their kinds, the compiler without rules makes the same
steps, or refuses the same node, or does not come to an end either. The type that an editor gave a node stays
visible only in the node itself and in the error about its data. -/

namespace MessageFlow
namespace Compile

/-! ### What rules say -/

/-- The kind that the last rule for a type gives it, among those that name a known type. -/
def lastKind (rules : List (String × String)) (type : String) : Option MessageKind :=
  (rules.filterMap fun r => if r.1 = type then MessageKind.ofName? r.2 else none).getLast?

theorem lastKind_cons (r : String × String) (rules : List (String × String)) (type : String) :
    lastKind (r :: rules) type =
      (lastKind rules type).or (if r.1 = type then MessageKind.ofName? r.2 else none) := by
  unfold lastKind
  rw [List.filterMap_cons]
  cases h : (if r.1 = type then MessageKind.ofName? r.2 else none) with
  | none => rw [Option.or_none]
  | some k => rw [List.getLast?_cons, Option.or_some]

theorem kindOf_withTypes (s : Settings) (rules : List (String × String)) (type : String) :
    (s.withTypes rules).kindOf type = (lastKind rules type).or (s.kindOf type) := by
  induction rules generalizing s with
  | nil => rfl
  | cons r rules ih =>
    rw [Settings.withTypes, List.foldl_cons, ← Settings.withTypes, ih, kindOf_withType, lastKind_cons,
      Option.or_assoc]
    split <;> simp

theorem sanitize_withTypes (s : Settings) (rules : List (String × String)) :
    (s.withTypes rules).sanitize = s.sanitize := by
  induction rules generalizing s with
  | nil => rfl
  | cons r rules ih =>
    rw [Settings.withTypes, List.foldl_cons, ← Settings.withTypes, ih, Settings.withType]
    split <;> rfl

/-! ### Types by the names of their kinds -/

/-- The name of the kind of a type; a type of unknown kind is its own name. -/
def Settings.nameOf (s : Settings) (type : String) : String := (s.kindOf type).elim type MessageKind.name

end Compile

open Compile

/-- The node with the name of its kind as its type. -/
def Node.retyped (s : Settings) (n : Node) : Node := { n with type := s.nameOf n.type }

def Canvas.retyped (s : Settings) (c : Canvas) : Canvas := { c with nodes := c.nodes.map (Node.retyped s) }

/-- The refusal with the name of its kind in place of the type it names. -/
def Refusal.retyped (s : Settings) : Refusal → Refusal
  | .invalidData node type error => .invalidData node (s.nameOf type) error
  | e => e

namespace Compile

theorem kindOf_nameOf (s : Settings) (b : Bool) (type : String) :
    Settings.kindOf { sanitize := b } (s.nameOf type) = s.kindOf type := by
  rw [kindOf_default, Settings.nameOf]
  cases h : s.kindOf type with
  | none => exact (Option.or_eq_none_iff.1 h).2
  | some k => exact MessageKind.ofName?_name k

section Nodes
variable {s : Settings}

theorem form_retyped {α : Type} (n : Node) (r : Record α) :
    (n.retyped s).form r = (n.form r).mapError (·.retyped s) := by
  simp only [Node.form, Node.retyped]
  cases Form.ofData r n.data <;> rfl

theorem refusal_retyped (n : Node) (k : MessageKind) :
    Message.refusal (n.retyped s) k = (Message.refusal n k).map (·.retyped s) := by
  cases k
  case trigger | group => rfl
  case template =>
    simp only [Message.refusal, form_retyped]
    cases n.form Form.Template.record with
    | error e => rfl
    | ok f => cases h : f.options <;> simp [Except.mapError, h, Refusal.retyped, Node.retyped]
  all_goals simp only [Message.refusal, form_retyped, fault_mapError]

/-- A node sends under the name of its kind what it sends under its type. -/
theorem ofNode_retyped (k : MessageKind) (n : Node) (ix : Index) :
    Message.ofNode k (n.retyped s) ix = (Message.ofNode k n ix).mapError (·.retyped s) := by
  have hfault : fault (Message.ofNode k (n.retyped s) ix) = (fault (Message.ofNode k n ix)).map (·.retyped s) := by
    rw [Message.fault_ofNode, Message.fault_ofNode, refusal_retyped]
  cases h : Message.ofNode k n ix with
  | ok om =>
    have hdata : (n.retyped s).data = n.data := rfl
    have hx : SameExits ix n.id ix (n.retyped s).id := ⟨rfl, rfl, fun _ => rfl⟩
    exact Message.ofNode_eq_of_id_eq hdata hx rfl h
  | error e =>
    rw [h] at hfault
    exact fault_eq_some_iff.1 hfault

end Nodes

/-! ### Canvases -/

theorem kindOf_retyped (s : Settings) (b : Bool) (n : Node) :
    Settings.kindOf { sanitize := b } (n.retyped s).type = s.kindOf n.type := kindOf_nameOf s b n.type

/-- Without rules the compiler sees of a node under the name of its kind what it sees of the node by the rules. -/
theorem seenAlike_retyped (s : Settings) (b : Bool) (n : Node) :
    SeenAlike s { sanitize := b } (·.retyped s) n (n.retyped s) :=
  ⟨rfl, kindOf_retyped s b n, rfl, rfl, fun k ix => ofNode_retyped k n ix⟩

theorem steps_retyped (c : Canvas) (s : Settings) (b : Bool) :
    outcome (plan (c.retyped s) { sanitize := b }).steps =
      (outcome (plan c s).steps).mapError (.reword (·.retyped s)) := by
  refine steps_mapError ?_ rfl
  rw [Canvas.retyped, List.forall₂_map_right_iff]
  exact List.forall₂_same.2 fun n _ => seenAlike_retyped s b n

/-- What the compiler makes of a node is shown under the name of its kind as under its type. -/
theorem sort_retyped (s : Settings) (n : Node) :
    (sort { sanitize := s.sanitize } (n.retyped s)).node = (sort s n).node.retyped s := by
  simp only [sort, kindOf_retyped]
  split <;> rfl

/-- The canvas compiles under the rules as it does without them once its types are renamed, or both are refused for
    the same reason. -/
def SameRenamed (c : Canvas) (rules : List (String × String)) (sanitize : Bool) : Prop :=
  let s := Settings.withTypes { sanitize := sanitize } rules
  (∃ f, c.compile s = .ok f ∧
    (c.retyped s).compile { sanitize := sanitize } = .ok { f with nodes := f.nodes.map (Node.retyped s) }) ∨
  ∃ e : Refusal, c.compile s = .error (.refused e) ∧
    (c.retyped s).compile { sanitize := sanitize } = .error (.refused (e.retyped s))

/-- Rules for types rename them: the last rule for a type that names a known type decides its kind, and a canvas
    compiles under the rules as the canvas with the types renamed does without, if either compilation ends. -/
theorem compile_withTypes (c : Canvas) (rules : List (String × String)) (sanitize : Bool) :
    let s := Settings.withTypes { sanitize := sanitize } rules
    (∀ type, s.kindOf type = (lastKind rules type).or (MessageKind.ofName? type)) ∧
    (SameRenamed c rules sanitize ∨ NeverEnds c s ∧ NeverEnds (c.retyped s) { sanitize := sanitize }) := by
  intro s
  have hsanitize : s.sanitize = sanitize := sanitize_withTypes _ rules
  have hgiven := compile_eq c s
  have hrenamed := compile_eq (c.retyped s) { sanitize := sanitize }
  rw [steps_retyped] at hrenamed
  refine ⟨fun type => by rw [kindOf_withTypes, kindOf_default], ?_⟩
  cases houtcome : outcome (plan c s).steps with
  | error e =>
    rw [houtcome] at hgiven hrenamed
    cases e with
    | refused e => exact .inl (.inr ⟨e, hgiven, hrenamed⟩)
    | endlessGroup => exact .inr ⟨neverEnds_of_compile hgiven, neverEnds_of_compile hrenamed⟩
  | ok made =>
    rw [houtcome] at hgiven hrenamed
    have hnodes : ((c.retyped s).nodes.map fun n => (sort { sanitize := sanitize } n).node) =
        (c.nodes.map fun n => (sort s n).node).map (Node.retyped s) := by
      rw [Canvas.retyped, List.map_map, List.map_map]
      exact List.map_congr_left fun n _ => hsanitize ▸ sort_retyped s n
    refine .inl (.inl ⟨_, hgiven, ?_⟩)
    rw [hrenamed]
    simp only [Except.mapError, hnodes]
    rfl

theorem not_sameRenamed_ringed : ¬SameRenamed ringed [] true := by
  rintro (⟨f, hf, -⟩ | ⟨e, he, -⟩)
  · exact (neverEnds_ringed true).ne_ok f hf
  · exact (neverEnds_ringed true).ne_refused e he

end Compile
end MessageFlow
