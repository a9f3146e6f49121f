import MessageFlow.Proofs.Compile.Exits
import MessageFlow.Proofs.Compile.Stripping

/-! # Canvases that compile alike

Of a node the compiler sees the id, the kind of its type, the group that it sits in, how long it waits and what it
sends. Canvases with the same edges whose nodes agree in these, one by one, have the same steps or are refused for
the same reason, or neither of them comes to an end, whatever else the nodes hold and by whatever settings the compiler
understands them. Where the nodes are refused in other words, so are the canvases. -/

namespace MessageFlow

/-- The error with its refusal put in other words. -/
def CompileError.reword (φ : Refusal → Refusal) : CompileError → CompileError
  | .refused e => .refused (φ e)
  | .endlessGroup => .endlessGroup

namespace Compile

/-- The compiler sees the same of both nodes, each under settings of its own, but for the words of refusals. -/
structure SeenAlike (s t : Settings) (φ : Refusal → Refusal) (n m : Node) : Prop where
  id : m.id = n.id
  kind : t.kindOf m.type = s.kindOf n.type
  parent : m.parent = n.parent
  delay : m.delay = n.delay
  sends : ∀ k ix, Message.ofNode k m ix = (Message.ofNode k n ix).mapError φ

theorem mapError_id {ε α : Type} (r : Except ε α) : r.mapError id = r := by
  cases r <;> rfl

/-! ### Lists of nodes -/

theorem map_eq_of_forall₂ {α β γ : Type} {R : α → β → Prop} {l : List α} {l' : List β} {f : α → γ} {g : β → γ}
    (h : List.Forall₂ R l l') (hfg : ∀ a b, R a b → g b = f a) : l'.map g = l.map f := by
  induction h with
  | nil => rfl
  | cons hab _ ih => rw [List.map_cons, List.map_cons, hfg _ _ hab, ih]

theorem filter_of_forall₂ {α β : Type} {R : α → β → Prop} {l : List α} {l' : List β} {p : α → Bool} {q : β → Bool}
    (h : List.Forall₂ R l l') (hpq : ∀ a b, R a b → q b = p a) : List.Forall₂ R (l.filter p) (l'.filter q) :=
  List.rel_filter (fun a b hab => Bool.eq_iff_iff.1 (hpq a b hab).symm) h

theorem inTurn_mapError {α β : Type} {step step' : Sorted → Except CompileError (Option Step)} {f : α → Sorted}
    {g : β → Sorted} {work : List α} {work' : List β} {φ : CompileError → CompileError}
    (h : List.Forall₂ (fun a b => step' (g b) = (step (f a)).mapError φ) work work') :
    inTurn step' (work'.map g) = (inTurn step (work.map f)).mapError φ := by
  induction h with
  | nil => rfl
  | @cons a b rest rest' hab _ ih =>
    rw [List.map_cons, List.map_cons, inTurn, inTurn, hab, ih]
    cases step (f a) with
    | error e => rfl
    | ok o => cases inTurn step (rest.map f) <;> rfl

/-- The nodes of an index have no part in what a node sends. -/
theorem ofNode_plan {c c' : Canvas} (hedges : c'.edges = c.edges) (s t : Settings) (k : MessageKind) (n : Node) :
    Message.ofNode k n (plan c' t).index = Message.ofNode k n (plan c s).index := by
  have hx : SameExits (plan c s).index n.id (plan c' t).index n.id := SameExits.of_edges (by rw [hedges])
  cases h : Message.ofNode k n (plan c s).index with
  | ok om => exact Message.ofNode_eq_of_id_eq rfl hx rfl h
  | error e =>
    have hfault : fault (Message.ofNode k n (plan c' t).index) = some e := by
      rw [Message.fault_ofNode, ← Message.fault_ofNode k n (plan c s).index, h, fault]
    exact fault_eq_some_iff.1 hfault

/-! ### Runs -/

section Runs
variable {c c' : Canvas} {s t : Settings} {φ : Refusal → Refusal}
  (hnodes : List.Forall₂ (SeenAlike s t φ) c.nodes c'.nodes) (hedges : c'.edges = c.edges)
include hnodes

theorem members_alike (id : String) : List.Forall₂ (SeenAlike s t φ) (c.members id) (c'.members id) :=
  filter_of_forall₂ hnodes fun _ _ h => by rw [h.parent]

theorem groupIds_alike : Plan.groupIds (c'.nodes.map (sort t)) = Plan.groupIds (c.nodes.map (sort s)) := by
  have hgroups : List.Forall₂ (SeenAlike s t φ) (c.nodes.filter fun n => s.kindOf n.type == some .group)
      (c'.nodes.filter fun m => t.kindOf m.type == some .group) :=
    filter_of_forall₂ hnodes fun _ _ h => by rw [h.kind]
  simp only [Plan.groupIds, List.filter_map, List.map_map, Function.comp_def, sort_kind, sort_node_id]
  rw [map_eq_of_forall₂ hgroups fun _ _ h => h.id]

theorem grouped_alike : (plan c' t).grouped = (plan c s).grouped := by
  have hmembers : List.Forall₂ (SeenAlike s t φ)
      (c.nodes.filter fun n => n.parent.any (Plan.groupIds (c.nodes.map (sort s))).contains)
      (c'.nodes.filter fun m => m.parent.any (Plan.groupIds (c.nodes.map (sort s))).contains) :=
    filter_of_forall₂ hnodes fun _ _ h => by rw [h.parent]
  simp only [plan, Plan.ofNodes, groupIds_alike hnodes, List.filter_map, List.map_map, Function.comp_def,
    sort_node_parent, sort_node_id]
  rw [map_eq_of_forall₂ hmembers fun _ _ h => h.id]

/-- The nodes that a compilation goes through correspond. -/
theorem starts_alike : List.Forall₂ (SeenAlike s t φ) (starts c s) (starts c' t) := by
  unfold starts
  rw [grouped_alike hnodes]
  exact List.rel_append (filter_of_forall₂ hnodes fun _ _ h => by rw [h.id, h.kind])
    (filter_of_forall₂ hnodes fun _ _ h => by rw [h.id, h.kind])

include hedges

omit hnodes in
theorem stepWithin_mapError_of_ne_group (d : Nat) {n m : Node} (h : SeenAlike s t φ n m)
    (hg : s.kindOf n.type ≠ some .group) :
    stepWithin (plan c' t) d (sort t m) = (stepWithin (plan c s) d (sort s n)).mapError (.reword φ) := by
  have hkind := h.kind
  cases hk : s.kindOf n.type with
  | none =>
    rw [stepWithin_of_unknown hk, stepWithin_of_unknown (hkind.trans hk)]
    rfl
  | some k =>
    have hne : k ≠ .group := fun h => hg (h ▸ hk)
    rw [stepWithin_of_kind hk hne, stepWithin_of_kind (hkind.trans hk) hne, ofNode_sort hk,
      ofNode_sort (hkind.trans hk), h.sends, ofNode_plan hedges s t]
    cases Message.ofNode k n (plan c s).index <;> rfl

/-- Nodes that are seen alike have the same step, whatever is stripped from each. -/
theorem stepWithin_mapError (d : Nat) {n m : Node} (h : SeenAlike s t φ n m) :
    stepWithin (plan c' t) d (sort t m) = (stepWithin (plan c s) d (sort s n)).mapError (.reword φ) := by
  induction d generalizing n m with
  | zero =>
    by_cases hg : s.kindOf n.type = some .group
    · rw [stepWithin_zero_of_group hg, stepWithin_zero_of_group (h.kind.trans hg)]
      rfl
    · exact stepWithin_mapError_of_ne_group hedges 0 h hg
  | succ d ih =>
    by_cases hg : s.kindOf n.type = some .group
    -- Groups have corresponding members, and these have the same steps one level below.
    · have hmembers := inTurn_mapError ((members_alike hnodes n.id).imp fun _ _ => ih)
      have htargets : c'.targetsFrom n.id = c.targetsFrom n.id := by rw [Canvas.targetsFrom, hedges, Canvas.targetsFrom]
      rw [stepWithin_of_group hg, stepWithin_of_group (h.kind.trans hg), h.id, h.delay, members_plan, members_plan,
        hmembers, successors_plan, successors_plan, htargets]
      cases inTurn (stepWithin (plan c s) d) ((c.members n.id).map (sort s)) <;> rfl
    · exact stepWithin_mapError_of_ne_group hedges (d + 1) h hg

theorem steps_mapError : outcome (plan c' t).steps = (outcome (plan c s).steps).mapError (.reword φ) := by
  have hlength : c'.nodes.length = c.nodes.length := hnodes.length_eq.symm
  rw [steps_plan, steps_plan, hlength]
  exact inTurn_mapError ((starts_alike hnodes).imp fun _ _ => stepWithin_mapError hnodes hedges _)

end Runs

/-- Canvases whose nodes are refused in the same words have the same steps or the same error. -/
theorem steps_congr {c c' : Canvas} {s t : Settings} (hnodes : List.Forall₂ (SeenAlike s t id) c.nodes c'.nodes)
    (hedges : c'.edges = c.edges) : outcome (plan c' t).steps = outcome (plan c s).steps := by
  rw [steps_mapError hnodes hedges]
  cases outcome (plan c s).steps with
  | error e => cases e <;> rfl
  | ok made => rfl

end Compile
end MessageFlow
