import MessageFlow.Proofs.Campaign.Recompile
import MessageFlow.Proofs.Scaffold.Group

/-! # Flows from drawn ids

A flow that is made anew holds the ids that are drawn for it, each once: for a node, or for the step in which a group
carries its items. All else in it that names a node or a step is a copy of one of these ids, so that its edges join
what it holds and no edge stands twice. -/

namespace MessageFlow

/-! ### Flows that hold together -/

/-- The edges are pairwise different, so that none is left out as a repeat. -/
structure Edge.Unrepeated (edges : List Edge) : Prop where
  differ : edges.Pairwise fun a b => (a == b) = false
  distinct : Edge.distinct edges = edges

theorem Edge.unrepeated_of_nodup_map {field : Edge → String} (hfield : ∀ a b, (a == b) = true → field a = field b)
    {edges : List Edge} (h : (edges.map field).Nodup) : Unrepeated edges :=
  have hdiffer := pairwise_of_nodup_map hfield h
  ⟨hdiffer, distinct_eq_self hdiffer⟩

/-- The step carries the items of a group as they were given. -/
def Step.carriesItems : Step → Bool
  | .message { content := .specs _, .. } => true
  | _ => false

namespace Flow

/-- The ids of the nodes, and of the step that carries the items of a group. -/
def ids (f : Flow) : List String := f.nodes.map (·.id) ++ (f.steps.filter Step.carriesItems).map Step.id

/-- Edges join what the flow holds, no edge stands twice, and every step but one that carries items is that of a
    node. -/
structure WellFormed (f : Flow) : Prop where
  edges : ∀ e ∈ f.edges, e.source ∈ f.nodes.map (·.id) ∧ e.target ∈ f.nodes.map (·.id)
  stepEdges : ∀ e ∈ f.stepEdges, e.source ∈ f.steps.map Step.id ∧ e.target ∈ f.steps.map Step.id
  edges_unrepeated : Edge.Unrepeated f.edges
  stepEdges_unrepeated : Edge.Unrepeated f.stepEdges
  steps : ∀ t ∈ f.steps, t.carriesItems = false → t.id ∈ f.nodes.map (·.id)

end Flow

/-! ### Names of numbers -/

namespace IdSource

/-- The names are all different, and none begins as the id of an anchor does. -/
structure Fresh (name : Nat → String) : Prop where
  distinct : ∀ {i j : Nat}, name i = name j → i = j
  unanchored : ∀ i rest, name i ≠ "plus-" ++ rest

/-- The id is the name of the number, or that of an anchor made from it. -/
def StandsFor (name : Nat → String) (i : Nat) (id : String) : Prop := id = name i ∨ id = Campaign.anchorId (name i)

section Numbers
variable {name : Nat → String} {ids : IdSource} {i j n : Nat} {id last : String}

theorem Fresh.eq_of_standsFor (h : Fresh name) (hi : StandsFor name i id) (hj : StandsFor name j id) : i = j := by
  rcases hi with rfl | rfl
  · rcases hj with hj | hj
    · exact h.distinct hj
    · exact absurd hj (h.unanchored i _)
  · rcases hj with hj | hj
    · exact absurd hj.symm (h.unanchored j _)
    · exact h.distinct (String.append_right_inj "plus-" |>.1 hj)

theorem Fresh.comp (h : Fresh name) {pick : Nat → Nat} (hpick : Function.Injective pick) :
    Fresh fun i => name (pick i) where
  distinct hij := hpick (h.distinct hij)
  unanchored i := h.unanchored (pick i)

/-- Ids that stand for numbers in a row are all different. -/
theorem Fresh.nodup_of_standsFor (h : Fresh name) {xs : List String} {next : Nat}
    (hnames : ∀ i x, xs[i]? = some x → StandsFor name (next + i) x) : xs.Nodup := by
  rw [List.nodup_iff_getElem?_ne_getElem?]
  intro i j hij hj heq
  have hx := List.getElem?_eq_getElem hj
  have hsame := h.eq_of_standsFor (hnames i _ (heq.trans hx)) (hnames j _ hx)
  omega

theorem Fresh.nodup_peek (h : Fresh ids.name) (n : Nat) : (ids.peek n).Nodup :=
  List.nodup_range.map fun _ _ hij => Nat.add_left_cancel (h.distinct hij)

/-- Drawn ids, with one more that stands for the next number, stand for numbers in a row. -/
theorem standsFor_peek_append (hlast : StandsFor ids.name (ids.next + n) last) :
    ∀ i x, (ids.peek n ++ [last])[i]? = some x → StandsFor ids.name (ids.next + i) x := by
  intro i x hx
  by_cases hi : i < n
  · rw [List.getElem?_append_left (by rwa [length_peek]), peek, List.getElem?_map, List.getElem?_range hi] at hx
    exact .inl (Option.some.inj hx).symm
  · rw [List.getElem?_append_right (by rw [length_peek]; omega), length_peek, List.getElem?_singleton] at hx
    split at hx
    · obtain rfl : i = n := by omega
      exact Option.some.inj hx ▸ hlast
    · cases hx

end Numbers

end IdSource

/-! ### Flows that are made -/

open IdSource

/-- The flow holds together, and its ids are those drawn for it, in their order. -/
structure Drawn (ids : IdSource) (f : Flow) (rest : IdSource) : Prop where
  wellFormed : f.WellFormed
  standsFor : ∀ i x, f.ids[i]? = some x → StandsFor ids.name (ids.next + i) x
  rest : rest.next = ids.next + f.ids.length

theorem drawn_of_ids {ids rest : IdSource} {f : Flow} {n : Nat} {last : String} (hf : f.WellFormed)
    (hids : f.ids = ids.peek n ++ [last]) (hlast : StandsFor ids.name (ids.next + n) last)
    (hrest : rest.next = ids.next + n + 1) : Drawn ids f rest where
  wellFormed := hf
  standsFor := hids ▸ standsFor_peek_append hlast
  rest := by rw [hids, List.length_append, length_peek, hrest, List.length_singleton, Nat.add_assoc]

namespace Scaffold
variable {k : SingleKind} {spec : Json} {ids rest : IdSource} {f : Flow}

/-- A flow of messages with different ids behind a trigger holds together. -/
theorem wellFormed_of_behind (trigger : String) (shown : List Node) (hcanvas : f.canvas = behind trigger shown)
    (hnone : f.stepEdges = []) (hshown : (shown.map (·.id)).Nodup)
    (hsteps : ∀ t ∈ f.steps, t.carriesItems = false → t.id ∈ shown.map (·.id)) :
    f.WellFormed := by
  have hnodes : f.nodes = triggerNode trigger :: shown := congrArg Canvas.nodes hcanvas
  have hedges : f.edges = shown.map fun n => triggerEdge trigger n.id := congrArg Canvas.edges hcanvas
  have hids : f.nodes.map (·.id) = trigger :: shown.map (·.id) := by
    rw [hnodes, List.map_cons]
    rfl
  have htargets : f.edges.map (·.target) = shown.map (·.id) := by
    rw [hedges, List.map_map]
    rfl
  constructor
  · intro e he
    have htarget : e.target ∈ shown.map (·.id) := htargets ▸ List.mem_map.2 ⟨e, he, rfl⟩
    rw [hedges] at he
    obtain ⟨n, -, rfl⟩ := List.mem_map.1 he
    rw [hids]
    exact ⟨List.mem_cons_self, List.mem_cons_of_mem _ htarget⟩
  · rw [hnone]
    exact fun e he => absurd he List.not_mem_nil
  · exact Edge.unrepeated_of_nodup_map (fun _ _ h => (Edge.beq_iff.1 h).2.2.1) (htargets ▸ hshown)
  · rw [hnone]
    exact ⟨.nil, rfl⟩
  · intro t ht hcarries
    rw [hids]
    exact List.mem_cons_of_mem _ (hsteps t ht hcarries)

theorem drawn_of_single (h : ofSpec (.single k) spec ids = .ok (f, rest)) : Drawn ids f rest := by
  obtain ⟨data, hdata⟩ := scaffolds_iff.1 ⟨ids, f, rest, h⟩
  rw [ofSpec_of_data hdata] at h
  cases h
  have hids : [k.node data (ids.skip 1).head].map (·.id) = [(ids.skip 1).head] := rfl
  have hlast : StandsFor ids.name (ids.next + 1) (ids.skip 1).head := .inl rfl
  refine drawn_of_ids (wellFormed_of_behind ids.head [k.node data (ids.skip 1).head] rfl rfl ?_ ?_) rfl hlast rfl
  · rw [hids]
    exact List.nodup_singleton _
  · intro t ht _
    rw [hids, List.mem_singleton.1 ht]
    exact List.mem_singleton_self _

theorem drawn_of_group (h : Fresh ids.name) (items : List Json) :
    Drawn ids (group items ids).1 (group items ids).2 := by
  obtain ⟨messages, hmessages⟩ : ∃ messages, items.filterMap item? = messages := ⟨_, rfl⟩
  obtain ⟨drawn, hdrawn⟩ : ∃ drawn, (ids.skip 1).peek messages.length = drawn := ⟨_, rfl⟩
  have hflow : group items ids = (
      { stepEdges := []
        steps := [.message { id := (ids.skip (1 + messages.length)).head, kind := .group, content := .specs items }]
        nodes := triggerNode ids.head :: nodesOf messages drawn
        edges := drawn.map (triggerEdge ids.head) }, (ids.skip (1 + messages.length)).skip 1) := by
    rw [← hdrawn, ← hmessages]
    rfl
  have hlength : messages.length = drawn.length := by rw [← hdrawn, length_peek]
  have hshown : (nodesOf messages drawn).map (·.id) = drawn := ids_nodesOf hlength
  have hskip : Fresh (ids.skip 1).name := h
  have hnodup : drawn.Nodup := hdrawn ▸ hskip.nodup_peek _
  have hlast : StandsFor ids.name (ids.next + (messages.length + 1)) (ids.skip (1 + messages.length)).head := by
    rw [Nat.add_comm messages.length 1]
    exact .inl rfl
  rw [hflow]
  refine drawn_of_ids (wellFormed_of_behind ids.head (nodesOf messages drawn) ?_ rfl ?_ ?_) ?_ hlast ?_
  · rw [behind, Flow.canvas, edges_nodesOf hlength]
  · rwa [hshown]
  · intro t ht hcarries
    rw [List.mem_singleton.1 ht] at hcarries
    cases hcarries
  · rw [Flow.ids, List.map_cons, hshown, peek_succ, hdrawn]
    rfl
  · simp only [skip, Nat.add_comm 1, Nat.add_assoc]

end Scaffold

namespace Campaign
variable {c : Campaign} {ids rest : IdSource} {f : Flow}

/-- A flow of steps in a chain, whose nodes have an anchor behind the last, holds together. -/
theorem wellFormed_of_chain {drawn : List String} {last anchor : String} (hdrawn : drawn.Nodup)
    (hlast : drawn.getLast? = some last) (hnodes : f.nodes.map (·.id) = drawn ++ [anchor])
    (hsteps : f.steps.map Step.id = drawn) (hedges : f.edges = chain drawn ++ [edge last anchor])
    (hstepEdges : f.stepEdges = chain drawn) : f.WellFormed := by
  have hsource : ∀ a b : Edge, (a == b) = true → a.source = b.source := fun _ _ h => (Edge.beq_iff.1 h).2.1
  constructor
  · intro e he
    rw [hnodes]
    rw [hedges] at he
    rcases List.mem_append.1 he with he | he
    · obtain ⟨hsource, htarget⟩ := ends_mem_of_mem_chain he
      exact ⟨List.mem_append_left _ hsource, List.mem_append_left _ htarget⟩
    · rw [List.mem_singleton.1 he]
      exact ⟨List.mem_append_left _ (List.mem_of_getLast? hlast), List.mem_append_right _ (List.mem_singleton_self _)⟩
  · intro e he
    rw [hsteps]
    exact ends_mem_of_mem_chain (hstepEdges ▸ he)
  · refine Edge.unrepeated_of_nodup_map hsource ?_
    rwa [hedges, sources_edges hlast]
  · refine Edge.unrepeated_of_nodup_map hsource ?_
    rw [hstepEdges, sources_chain]
    exact hdrawn.sublist (List.dropLast_sublist drawn)
  · intro t ht _
    rw [hnodes]
    exact List.mem_append_left _ (hsteps ▸ List.mem_map.2 ⟨t, ht, rfl⟩)

theorem drawn_of_sequence (hids : Fresh ids.name) (h : c.sequence ids = .ok (f, rest)) : Drawn ids f rest := by
  obtain ⟨drawn, hdrawn⟩ : ∃ drawn, ids.peek c.size = drawn := ⟨_, rfl⟩
  have hnodup : drawn.Nodup := hdrawn ▸ hids.nodup_peek _
  have hlen : c.descriptors.length = drawn.length := by
    rw [← hdrawn, length_peek]
    rfl
  rw [sequence, hdrawn] at h
  cases hlast : drawn.getLast? with
  | none => simp [hlast] at h
  | some last =>
    simp only [hlast, Except.ok.injEq, Prod.mk.injEq] at h
    obtain ⟨rfl, rfl⟩ := h
    have hnodes : (nodes c.layout 0 c.descriptors drawn ++
        [anchorNode c.layout c.size (anchorId (ids.skip c.size).head) last]).map (·.id) =
          drawn ++ [anchorId (ids.skip c.size).head] := by
      rw [List.map_append, ids_nodes _ 0 hlen]
      rfl
    have hcarries : (steps c.descriptors drawn).filter Step.carriesItems = [] := by
      rw [List.filter_eq_nil_iff, steps_eq _ hnodup]
      intro t ht
      obtain ⟨p, -, rfl⟩ := List.mem_map.1 ht
      exact Bool.false_ne_true
    refine drawn_of_ids (wellFormed_of_chain hnodup hlast hnodes (ids_steps hnodup hlen) rfl rfl) ?_ (.inr rfl) rfl
    rw [Flow.ids, hnodes, hcarries, hdrawn]
    exact List.append_nil _

end Campaign
end MessageFlow
