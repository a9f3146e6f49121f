import MessageFlow.Proofs.Canvas.Routing
import MessageFlow.Proofs.Compile.Depth
import MessageFlow.Proofs.Compile.Nesting

/-! # Runs of the compiler

A compilation goes through the nodes of a canvas in the order of a walk from the top level. The first node
of the walk that is refused decides the failure; without one, the steps and the steps inside them are those
of the nodes that the walk meets, and every step is made from the node with its id. With distinct ids the
compiler comes to an end, since no node lies deeper than there are nodes. -/

namespace MessageFlow

/-! ### Steps inside steps -/

namespace Step

mutual

/-- The step and the steps inside it, at any depth. -/
def all : Step → List Step
  | .message m => [.message m]
  | .group id members target delay => .group id members target delay :: allOf members

/-- Several steps and the steps inside them. -/
def allOf : List Step → List Step
  | [] => []
  | s :: rest => all s ++ allOf rest

end

theorem allOf_append (a b : List Step) : allOf (a ++ b) = allOf a ++ allOf b := by
  induction a with
  | nil => rfl
  | cons s a ih => rw [List.cons_append, allOf, allOf, ih, List.append_assoc]

theorem allOf_toList (o : Option Step) : allOf o.toList = o.elim [] all := by
  cases o with
  | none => rfl
  | some s => rw [Option.toList_some, allOf, allOf, List.append_nil, Option.elim_some]

theorem mem_allOf {s : Step} {steps : List Step} : s ∈ allOf steps ↔ ∃ t ∈ steps, s ∈ all t := by
  induction steps with
  | nil => simp [allOf]
  | cons t rest ih => rw [allOf, List.mem_append, ih, List.exists_mem_cons_iff]

end Step

namespace Compile

/-! ### Plans of canvases -/

/-- The plan by which a canvas is compiled. -/
def plan (c : Canvas) (s : Settings) : Plan := .ofNodes (c.nodes.map (sort s)) c.edges

section Plans
variable {c : Canvas} {s : Settings}

theorem compile_eq (c : Canvas) (s : Settings) : c.compile s =
    match outcome (plan c s).steps with
    | .error e => .error e
    | .ok steps => .ok { stepEdges := Edge.distinct c.edges, steps := steps,
                         nodes := c.nodes.map fun n => (sort s n).node, edges := c.edges } := by
  simp only [Canvas.compile, plan, List.map_map]
  rfl

theorem fault_compile (c : Canvas) (s : Settings) : fault (c.compile s) = fault (outcome (plan c s).steps) := by
  rw [compile_eq]
  cases outcome (plan c s).steps <;> rfl

theorem steps_of_compile {f : Flow} (h : c.compile s = .ok f) : outcome (plan c s).steps = .ok f.steps := by
  rw [compile_eq] at h
  cases hs : outcome (plan c s).steps with
  | error e => simp [hs] at h
  | ok st =>
    rw [hs] at h
    cases h
    rfl

theorem members_plan (c : Canvas) (s : Settings) (id : String) :
    (plan c s).members id = (c.members id).map (sort s) := by
  rw [Plan.members, plan, Plan.ofNodes, List.filter_map, Canvas.members]
  exact congrArg _ (List.filter_congr fun n _ => by simp)

theorem successors_plan (c : Canvas) (s : Settings) (id : String) :
    (plan c s).index.successors id none = c.targetsFrom id := by
  rw [plan, Plan.ofNodes, Index.successors_none]

theorem contains_groupIds {id : String} : (Plan.groupIds (c.nodes.map (sort s))).contains id = true ↔
    ∃ g ∈ c.nodes, s.kindOf g.type = some .group ∧ g.id = id := by
  simp only [Plan.groupIds, Std.HashSet.contains_ofList, List.contains_iff_mem, List.mem_map, List.mem_filter,
    beq_iff_eq]
  constructor
  · rintro ⟨_, ⟨⟨g, hg, rfl⟩, hk⟩, hid⟩
    exact ⟨g, hg, hk, sort_node_id.symm.trans hid⟩
  · rintro ⟨g, hg, hk, hid⟩
    exact ⟨sort s g, ⟨⟨g, hg, rfl⟩, hk⟩, sort_node_id.trans hid⟩

theorem contains_grouped {id : String} :
    (plan c s).grouped.contains id = true ↔ ∃ n ∈ c.nodes, Grouped c s n ∧ n.id = id := by
  have hgrouped : ∀ n : Node, ((sort s n).node.parent.any (Plan.groupIds (c.nodes.map (sort s))).contains) = true ↔
      Grouped c s n := by
    intro n
    rw [sort_node_parent, Option.any_eq_true, Grouped]
    constructor
    · rintro ⟨id, hp, hid⟩
      obtain ⟨g, hg, hk, rfl⟩ := contains_groupIds.1 hid
      exact ⟨g, hg, hk, hp⟩
    · rintro ⟨g, hg, hk, hp⟩
      exact ⟨g.id, hp, contains_groupIds.2 ⟨g, hg, hk, rfl⟩⟩
  simp only [plan, Plan.ofNodes, Std.HashSet.contains_ofList, List.contains_iff_mem, List.mem_map, List.mem_filter]
  constructor
  · rintro ⟨_, ⟨⟨n, hn, rfl⟩, hg⟩, hid⟩
    exact ⟨n, hn, (hgrouped n).1 hg, sort_node_id.symm.trans hid⟩
  · rintro ⟨n, hn, hg, hid⟩
    exact ⟨sort s n, ⟨⟨n, hn, rfl⟩, (hgrouped n).2 hg⟩, sort_node_id.trans hid⟩

end Plans

/-! ### Nodes of each kind -/

/-- Why a node of a canvas is refused. Nodes of unknown kind and groups are not. -/
def refusal (s : Settings) (n : Node) : Option Refusal :=
  (s.kindOf n.type).bind (Message.refusal (sort s n).node)

/-- The node becomes a step: its kind is known, and it is no catalog node of an unknown catalogue type. -/
def becomesStep (s : Settings) (n : Node) : Bool :=
  match s.kindOf n.type with
  | none => false
  | some .catalog => ((n.form Form.Catalog.record).toOption.bind fun f => CatalogKind.ofName? f.type).isSome
  | some _ => true

section Kinds
variable {c : Canvas} {s : Settings} {p : Plan} {n : Node} {d : Nat}

theorem stepWithin_of_unknown (hk : s.kindOf n.type = none) : stepWithin p d (sort s n) = .ok none := by
  cases d <;> simp [stepWithin, sort, hk]

theorem stepWithin_of_kind {k : MessageKind} (hk : s.kindOf n.type = some k) (hg : k ≠ .group) :
    stepWithin p d (sort s n) =
      ((Message.ofNode k (sort s n).node p.index).map (Option.map .message)).mapError .refused := by
  have hsort : sort s n = ⟨(sort s n).node, some k⟩ := by rw [← hk]; rfl
  rw [hsort]
  cases k with
  | group => exact absurd rfl hg
  | _ => cases d <;> rfl

theorem stepWithin_of_group (hk : s.kindOf n.type = some .group) : stepWithin p (d + 1) (sort s n) =
    match inTurn (stepWithin p d) (p.members n.id) with
    | .error e => .error e
    | .ok members => .ok (some (.group n.id members (p.index.successors n.id none) n.delay)) := by
  rw [sort_of_group hk]
  exact stepWithin_succ rfl

theorem stepWithin_zero_of_group (hk : s.kindOf n.type = some .group) :
    stepWithin p 0 (sort s n) = .error .endlessGroup := by
  rw [sort_of_group hk, stepWithin_zero rfl]

theorem fault_stepWithin (hk : s.kindOf n.type ≠ some .group) :
    fault (stepWithin p d (sort s n)) = (refusal s n).map .refused := by
  rw [refusal]
  cases h : s.kindOf n.type with
  | none => rw [stepWithin_of_unknown h, Option.bind_none, fault, Option.map_none]
  | some k =>
    rw [stepWithin_of_kind h fun hg => hk (hg ▸ h), fault_mapError, fault_map, Message.fault_ofNode,
      Option.bind_some]

theorem fault_stepWithin_group (hk : s.kindOf n.type = some .group) : fault (stepWithin (plan c s) (d + 1) (sort s n)) =
    fault (inTurn (stepWithin (plan c s) d) ((c.members n.id).map (sort s))) := by
  rw [stepWithin_of_group hk, members_plan]
  cases inTurn (stepWithin (plan c s) d) ((c.members n.id).map (sort s)) <;> rfl

/-- What comes of a node, where anything does: nothing, a message or a group. -/
theorem stepWithin_eq_ok {o : Option Step} (h : stepWithin (plan c s) d (sort s n) = .ok o) :
    (s.kindOf n.type = none ∧ o = none) ∨
    (∃ k om, s.kindOf n.type = some k ∧ k ≠ .group ∧
      Message.ofNode k (sort s n).node (plan c s).index = .ok om ∧ o = om.map .message) ∨
    ∃ e members, d = e + 1 ∧ s.kindOf n.type = some .group ∧
      inTurn (stepWithin (plan c s) e) ((c.members n.id).map (sort s)) = .ok members ∧
      o = some (.group n.id members (c.targetsFrom n.id) n.delay) := by
  cases hk : s.kindOf n.type with
  | none =>
    rw [stepWithin_of_unknown hk] at h
    exact .inl ⟨rfl, (Except.ok.inj h).symm⟩
  | some k =>
    by_cases hg : k = .group
    · subst hg
      cases d with
      | zero =>
        rw [stepWithin_zero_of_group hk] at h
        cases h
      | succ e =>
        rw [stepWithin_of_group hk, members_plan] at h
        cases hm : inTurn (stepWithin (plan c s) e) ((c.members n.id).map (sort s)) with
        | error e => simp [hm] at h
        | ok members =>
          simp only [hm, Except.ok.injEq] at h
          refine .inr (.inr ⟨e, members, rfl, rfl, hm, ?_⟩)
          rw [← h, successors_plan]
    · rw [stepWithin_of_kind hk hg, mapError_eq_ok_iff, map_eq_ok_iff] at h
      obtain ⟨om, hom, ho⟩ := h
      exact .inr (.inl ⟨k, om, rfl, hg, hom, ho.symm⟩)

end Kinds

/-! ### Walks and runs -/

/-- The step is made from a node of the canvas; a group holds the steps of the nodes that sit in it. -/
inductive Made (c : Canvas) (s : Settings) : Step → Prop
  | message {n : Node} {k : MessageKind} {m : Message} (hn : n ∈ c.nodes) (hk : s.kindOf n.type = some k)
      (hm : Message.Sent (sort s n).node (plan c s).index k m) : Made c s (.message m)
  | group {g : Node} {members : List Step} (hg : g ∈ c.nodes) (hk : s.kindOf g.type = some .group)
      (hm : members.map Step.id = ((c.members g.id).filter (becomesStep s)).map (·.id)) :
    Made c s (.group g.id members (c.targetsFrom g.id) g.delay)

section Runs
variable {c : Canvas} {s : Settings} {n : Node} {d : Nat} {work order : List Node} {out : List Step}

theorem becomesStep_of_sent {k : MessageKind} {m : Message} {ix : Index} (hk : s.kindOf n.type = some k)
    (hm : Message.Sent (sort s n).node ix k m) : becomesStep s n = true := by
  cases hm with
  | catalog hf hkind =>
    rw [sort_node_of_ne (by simp [hk])] at hf
    simp [becomesStep, hk, hf, Except.toOption, hkind]
  | media hm _ => rcases hm with rfl | rfl | rfl | rfl <;> simp [becomesStep, hk]
  | _ => simp [becomesStep, hk]

theorem inTurn_of_messages {messages : List Message} (h : List.Forall₂ (fun n m => ∃ k,
    s.kindOf n.type = some k ∧ Message.Sent (sort s n).node (plan c s).index k m) work messages) :
    inTurn (stepWithin (plan c s) d) (work.map (sort s)) = .ok (messages.map .message) := by
  induction h with
  | nil => rfl
  | @cons n m _ _ hm _ ih =>
    obtain ⟨k, hk, hm⟩ := hm
    refine inTurn_cons_eq_ok_iff.2 ⟨some (.message m), _, ?_, ih, rfl⟩
    rw [stepWithin_of_kind hk hm.ne_group, Message.ofNode_eq_ok_some_iff.2 hm]
    rfl

theorem id_of_stepWithin {o : Option Step} (h : stepWithin (plan c s) d (sort s n) = .ok o) :
    o.map Step.id = if becomesStep s n then some n.id else none := by
  rcases stepWithin_eq_ok h with ⟨hk, rfl⟩ | ⟨k, om, hk, hg, hom, rfl⟩ | ⟨e, members, rfl, hk, -, rfl⟩
  · simp [becomesStep, hk]
  · cases om with
    | none =>
      rcases Message.ofNode_eq_ok_none_iff.1 hom with rfl | ⟨rfl, f, hf, hkind⟩
      · exact absurd rfl hg
      · rw [sort_node_of_ne (by simp [hk])] at hf
        simp [becomesStep, hk, hf, Except.toOption, hkind]
    | some m =>
      have hm := Message.ofNode_eq_ok_some_iff.1 hom
      rw [if_pos (becomesStep_of_sent hk hm)]
      exact congrArg some (hm.id_eq.trans sort_node_id)
  · simp [becomesStep, hk, Step.id]

/-- The steps of nodes in turn stand in the order of the nodes. -/
theorem ids_of_inTurn (h : inTurn (stepWithin (plan c s) d) (work.map (sort s)) = .ok out) :
    out.map Step.id = (work.filter (becomesStep s)).map (·.id) := by
  induction work generalizing out with
  | nil =>
    cases h
    rfl
  | cons n rest ih =>
    obtain ⟨o, tail, ho, htail, rfl⟩ := inTurn_cons_eq_ok_iff.1 h
    have hid := id_of_stepWithin ho
    rw [List.map_append, ih htail, List.filter_cons]
    split at hid
    · rename_i hb
      obtain ⟨t, rfl, ht⟩ := Option.map_eq_some_iff.1 hid
      simp [hb, ht]
    · rename_i hb
      rw [Option.map_eq_none_iff.1 hid]
      simp [hb]

/-- Every step of a run, at any depth, is the step of a node of the canvas. -/
theorem exists_stepWithin_of_mem_allOf (hwork : ∀ n ∈ work, n ∈ c.nodes)
    (h : inTurn (stepWithin (plan c s) d) (work.map (sort s)) = .ok out) {t : Step} (ht : t ∈ Step.allOf out) :
    ∃ e, ∃ n ∈ c.nodes, stepWithin (plan c s) e (sort s n) = .ok (some t) := by
  induction d using Nat.strongRecOn generalizing work out with
  | ind d ih =>
    obtain ⟨u, hu, htu⟩ := Step.mem_allOf.1 ht
    obtain ⟨_, hmem, hnu⟩ := exists_of_mem_inTurn h hu
    obtain ⟨n, hn, rfl⟩ := List.mem_map.1 hmem
    rcases stepWithin_eq_ok hnu with ⟨-, ho⟩ | ⟨k, om, -, -, -, ho⟩ | ⟨e, members, rfl, -, hm, ho⟩
    · cases ho
    · obtain ⟨m, rfl, rfl⟩ := Option.map_eq_some_iff.1 ho.symm
      rw [Step.all, List.mem_singleton] at htu
      exact ⟨d, n, hwork n hn, htu ▸ hnu⟩
    · cases ho
      rw [Step.all, List.mem_cons] at htu
      rcases htu with rfl | htu
      · exact ⟨e + 1, n, hwork n hn, hnu⟩
      · exact ih e (Nat.lt_succ_self e) (fun m hm => (Canvas.mem_members.1 hm).1) hm htu

theorem made_of_stepWithin (hn : n ∈ c.nodes) {t : Step} (h : stepWithin (plan c s) d (sort s n) = .ok (some t)) :
    Made c s t := by
  rcases stepWithin_eq_ok h with ⟨-, ho⟩ | ⟨k, om, hk, -, hom, ho⟩ | ⟨e, members, -, hk, hm, ho⟩
  · cases ho
  · obtain ⟨m, rfl, rfl⟩ := Option.map_eq_some_iff.1 ho.symm
    exact .message hn hk (Message.ofNode_eq_ok_some_iff.1 hom)
  · cases ho
    exact .group hn hk (ids_of_inTurn hm)

/-- The steps of a run and those inside them are those of the nodes that a walk meets. -/
theorem ids_allOf_of_inTurn (hw : Walk c s work order)
    (h : inTurn (stepWithin (plan c s) d) (work.map (sort s)) = .ok out) :
    (Step.allOf out).map Step.id = (order.filter (becomesStep s)).map (·.id) := by
  induction hw generalizing d out with
  | nil =>
    cases h
    rfl
  | @single n rest order hk _ ih =>
    obtain ⟨o, tail, ho, htail, rfl⟩ := inTurn_cons_eq_ok_iff.1 h
    have hid := id_of_stepWithin ho
    rw [Step.allOf_append, List.map_append, ih htail, Step.allOf_toList, List.filter_cons]
    rcases stepWithin_eq_ok ho with ⟨-, rfl⟩ | ⟨k, om, -, -, -, rfl⟩ | ⟨e, members, -, hk', -, -⟩
    · split at hid
      · cases hid
      · rename_i hb
        simp [hb]
    · cases om with
      | none =>
        split at hid
        · cases hid
        · rename_i hb
          simp [hb]
      | some m =>
        split at hid
        · rename_i hb
          simpa [hb, Step.all] using hid
        · cases hid
    · exact absurd hk' hk
  | @group g rest inner order hk _ _ ihm ih =>
    obtain ⟨o, tail, ho, htail, rfl⟩ := inTurn_cons_eq_ok_iff.1 h
    rw [Step.allOf_append, List.map_append, ih htail, Step.allOf_toList, List.filter_cons, List.filter_append]
    have hb : becomesStep s g = true := by simp [becomesStep, hk]
    rcases stepWithin_eq_ok ho with ⟨hk', -⟩ | ⟨k, om, hk', hg, -, -⟩ | ⟨e, members, -, -, hm, rfl⟩
    · rw [hk] at hk'
      cases hk'
    · rw [hk] at hk'
      exact absurd (Option.some.inj hk').symm hg
    · simp [hb, Step.all, Step.id, ihm hm]

/-- Without groups the first node that is refused decides a run. -/
theorem fault_inTurn_of_groupless {p : Plan} (h : ∀ n ∈ work, s.kindOf n.type ≠ some .group) :
    fault (inTurn (stepWithin p d) (work.map (sort s))) = (work.findSome? (refusal s)).map .refused := by
  induction work with
  | nil => rfl
  | cons n rest ih =>
    obtain ⟨hn, hrest⟩ := List.forall_mem_cons.1 h
    rw [List.map_cons, fault_inTurn_cons, fault_stepWithin hn, ih hrest, List.findSome?_cons]
    cases refusal s n <;> rfl

/-- The first node of a walk that is refused decides a run, if no group lies deeper than is allowed. -/
theorem fault_inTurn (hc : c.DistinctIds) {k : Nat} (hw : Walk c s work order)
    (hwork : ∀ r ∈ work, AtDepth c s r k) (hd : c.nodes.length ≤ d + k) :
    fault (inTurn (stepWithin (plan c s) d) (work.map (sort s))) = (order.findSome? (refusal s)).map .refused := by
  induction hw generalizing d k with
  | nil => rfl
  | @single n rest order hk _ ih =>
    obtain ⟨-, hrest⟩ := List.forall_mem_cons.1 hwork
    rw [List.map_cons, fault_inTurn_cons, fault_stepWithin hk, ih hrest hd, List.findSome?_cons]
    cases refusal s n <;> rfl
  | @group g rest inner order hk _ _ ihm ih =>
    obtain ⟨hgk, hrest⟩ := List.forall_mem_cons.1 hwork
    have hlt := hgk.lt_length hc
    obtain ⟨e, rfl⟩ : ∃ e, d = e + 1 := ⟨d - 1, by omega⟩
    have hinner := ihm (d := e) (fun m hm => atDepth_of_mem_members hgk hk hm) (by omega)
    have hg : refusal s g = none := by rw [refusal, hk, Option.bind_some, Message.refusal]
    rw [List.map_cons, fault_inTurn_cons, fault_stepWithin_group hk, hinner, ih hrest hd, List.findSome?_cons, hg,
      List.findSome?_append]
    exact Option.map_or.symm

end Runs

/-! ### Whole canvases -/

/-- The nodes that a compilation goes through: of those whose id is not that of a node in a group, those that
    are no groups before those that are. -/
def starts (c : Canvas) (s : Settings) : List Node :=
  (c.nodes.filter fun n => !(plan c s).grouped.contains n.id && !(s.kindOf n.type == some .group)) ++
    c.nodes.filter fun n => !(plan c s).grouped.contains n.id && s.kindOf n.type == some .group

section Whole
variable {c : Canvas} {s : Settings} {f : Flow} {order : List Node}

theorem mem_nodes_of_mem_starts {n : Node} (hn : n ∈ starts c s) : n ∈ c.nodes := by
  rcases List.mem_append.1 hn with hn | hn <;> exact (List.mem_filter.1 hn).1

theorem steps_plan (c : Canvas) (s : Settings) : outcome (plan c s).steps =
    inTurn (stepWithin (plan c s) c.nodes.length) ((starts c s).map (sort s)) := by
  have hlen : (plan c s).nodes.length = c.nodes.length := List.length_map _
  have hungrouped : (plan c s).ungrouped =
      (c.nodes.filter fun n => !(plan c s).grouped.contains n.id).map (sort s) := by
    rw [Plan.ungrouped, show (plan c s).nodes = c.nodes.map (sort s) from rfl, List.filter_map]
    simp only [Function.comp_def, sort_node_id]
  rw [outcome_steps, hlen, hungrouped, starts, List.map_append, List.filter_map, List.filter_map]
  simp only [List.filter_filter, Function.comp_def, sort_kind, Bool.and_comm]

theorem starts_eq_topLevel (hc : c.DistinctIds) : starts c s = topLevel c s := by
  have hgrouped : ∀ n ∈ c.nodes, (plan c s).grouped.contains n.id = true ↔ Grouped c s n := by
    intro n hn
    rw [contains_grouped]
    constructor
    · rintro ⟨m, hm, hg, hid⟩
      exact hc.eq_of_id_eq hm hn hid ▸ hg
    · exact fun hg => ⟨n, hn, hg, rfl⟩
  rw [starts, topLevel]
  congr 1
  all_goals
    refine List.filter_congr fun n hn => ?_
    rw [Bool.eq_iff_iff]
    simp [← hgrouped n hn]

theorem starts_of_groupless (h : ∀ n ∈ c.nodes, s.kindOf n.type ≠ some .group) : starts c s = c.nodes := by
  have hgrouped : ∀ id, (plan c s).grouped.contains id = false := by
    intro id
    rw [Bool.eq_false_iff, ne_eq, contains_grouped]
    rintro ⟨n, -, ⟨g, hg, hk, -⟩, -⟩
    exact h g hg hk
  have hfirst : (c.nodes.filter fun n => !(plan c s).grouped.contains n.id && !(s.kindOf n.type == some .group)) =
      c.nodes := by
    rw [List.filter_eq_self]
    intro n hn
    simp [hgrouped, h n hn]
  have hlast : (c.nodes.filter fun n => !(plan c s).grouped.contains n.id && s.kindOf n.type == some .group) =
      [] := by
    rw [List.filter_eq_nil_iff]
    intro n hn
    simp [h n hn]
  rw [starts, hfirst, hlast, List.append_nil]

theorem steps_of_groupless (h : ∀ n ∈ c.nodes, s.kindOf n.type ≠ some .group) :
    outcome (plan c s).steps = inTurn (stepWithin (plan c s) c.nodes.length) (c.nodes.map (sort s)) := by
  rw [steps_plan, starts_of_groupless h]

/-- A canvas each of whose nodes has a message compiles to these messages. -/
theorem exists_compile_of_messages {nodes : List Node} {messages : List Message} (hnodes : c.nodes = nodes)
    (h : List.Forall₂ (fun n m => ∃ k, s.kindOf n.type = some k ∧
      Message.Sent (sort s n).node (plan c s).index k m) nodes messages) :
    ∃ f, c.compile s = .ok f ∧ f.steps = messages.map .message := by
  subst hnodes
  have hgroupless : ∀ n ∈ c.nodes, s.kindOf n.type ≠ some .group := by
    refine ((List.forall₂_and_left _ _).1 (h.imp fun n m hm => ⟨?_, hm⟩)).1
    obtain ⟨k, hk, hm⟩ := hm
    exact fun hg => hm.ne_group (Option.some.inj (hk.symm.trans hg))
  rw [compile_eq, steps_of_groupless hgroupless, inTurn_of_messages h]
  exact ⟨_, rfl, rfl⟩

/-- Every step of a compiled canvas, at any depth, is the step of one of its nodes. -/
theorem exists_stepWithin_of_compile (h : c.compile s = .ok f) {t : Step} (ht : t ∈ Step.allOf f.steps) :
    ∃ d, ∃ n ∈ c.nodes, stepWithin (plan c s) d (sort s n) = .ok (some t) :=
  exists_stepWithin_of_mem_allOf (fun _ => mem_nodes_of_mem_starts)
    ((steps_plan c s).symm.trans (steps_of_compile h)) ht

theorem made_of_compile (h : c.compile s = .ok f) {t : Step} (ht : t ∈ Step.allOf f.steps) : Made c s t := by
  obtain ⟨_, n, hn, hnt⟩ := exists_stepWithin_of_compile h ht
  exact made_of_stepWithin hn hnt

variable (hc : c.DistinctIds)
include hc

theorem ids_of_compile (h : c.compile s = .ok f) :
    f.steps.map Step.id = ((topLevel c s).filter (becomesStep s)).map (·.id) :=
  starts_eq_topLevel (s := s) hc ▸ ids_of_inTurn ((steps_plan c s).symm.trans (steps_of_compile h))

theorem ids_allOf_of_compile (hw : Walk c s (topLevel c s) order) (h : c.compile s = .ok f) :
    (Step.allOf f.steps).map Step.id = (order.filter (becomesStep s)).map (·.id) := by
  rw [← starts_eq_topLevel hc] at hw
  exact ids_allOf_of_inTurn hw ((steps_plan c s).symm.trans (steps_of_compile h))

theorem fault_compile_eq (hw : Walk c s (topLevel c s) order) :
    fault (c.compile s) = (order.findSome? (refusal s)).map .refused := by
  rw [fault_compile, steps_plan, starts_eq_topLevel hc]
  exact fault_inTurn hc hw (fun _ hr => atDepth_zero_of_mem_topLevel hr) (Nat.le_refl _)

/-- A compilation ends: without a flow it is a refusal. -/
theorem exists_refusal_of_compile {error : CompileError} (h : c.compile s = .error error) :
    ∃ e : Refusal, error = .refused e := by
  obtain ⟨order, hw⟩ := exists_walk_topLevel (s := s) hc
  rw [← fault_eq_some_iff, fault_compile_eq hc hw, Option.map_eq_some_iff] at h
  obtain ⟨e, -, rfl⟩ := h
  exact ⟨e, rfl⟩

/-- A canvas on which no node is refused compiles. -/
theorem exists_compile_eq_ok (h : ∀ n ∈ c.nodes, refusal s n = none) : ∃ f, c.compile s = .ok f := by
  obtain ⟨order, hw⟩ := exists_walk_topLevel (s := s) hc
  rw [← fault_eq_none_iff, fault_compile_eq hc hw, Option.map_eq_none_iff, List.findSome?_eq_none_iff]
  intro n hn
  obtain ⟨k, hk⟩ := hw.mem_iff_rooted.1 hn
  exact h n hk.mem

end Whole

/-! ### A canvas with groups -/

/-- A list and a text in a group inside a folder, and a text in one of two groups that sit in each other. -/
def nested : Canvas where
  nodes :=
    [{ id := "hello", type := "text", data := .obj [("body", .str "Hi")], parent := some "inner" },
     { id := "inner", type := "group", data := .null, parent := some "outer" },
     { id := "menu", type := "list", parent := some "inner",
       data := .obj [("listOptions", .arr [.obj [("id", .str "@@a")], .obj []])] },
     { id := "outer", type := "folder", data := .null },
     { id := "left", type := "group", data := .null, parent := some "right" },
     { id := "right", type := "group", data := .null, parent := some "left" },
     { id := "lost", type := "text", data := .null, parent := some "left" },
     { id := "note", type := "comment", data := .null, parent := some "outer" },
     { id := "start", type := "startNode", data := .null, parent := some "hello" }]
  edges :=
    [{ id := "", source := "start", target := "menu", sourceHandle := some "startNodeOut" },
     { id := "", source := "menu", target := "hello", sourceHandle := some "menu@@@@a" },
     { id := "", source := "menu", target := "outer", sourceHandle := some "menu@@" }]

/-- Folders are groups. -/
def folders : Settings := ({} : Settings).withType "folder" "group"

theorem distinctIds_nested : nested.DistinctIds := by
  unfold Canvas.DistinctIds
  decide

theorem kindOf_folders (type : String) : folders.kindOf type =
    if "folder" = type then some .group else MessageKind.ofName? type := by
  rw [folders, kindOf_withType, kindOf_default]
  rfl

theorem compile_nested : ∃ f, nested.compile folders = .ok f := by
  refine exists_compile_eq_ok distinctIds_nested ?_
  simp only [nested, List.forall_mem_cons, refusal, sort, kindOf_folders]
  decide

end Compile
end MessageFlow
