import MessageFlow.Proofs.Compile.Run

/-! How the steps of a compiled canvas stand: each rooted node that becomes a step has exactly one, at the
    top level if it sits in no group and directly in the step of its group otherwise, and steps that stand
    side by side keep the order of their nodes, groups of the top level after all else that stands there.
    Nodes on or below groups that sit in each other in a circle have none. -/

namespace MessageFlow
namespace Compile

/-- How the steps of a canvas stand. -/
structure Arranged (c : Canvas) (s : Settings) (steps : List Step) : Prop where
  /-- No two steps have one id, at any depth. -/
  once : ((Step.allOf steps).map Step.id).Nodup
  /-- The steps are those of the rooted nodes that become steps. -/
  mem_iff : ∀ id, id ∈ (Step.allOf steps).map Step.id ↔
    ∃ n ∈ c.nodes, n.id = id ∧ Rooted c s n ∧ becomesStep s n = true
  /-- The step of a node that sits in no group stands at the top level. -/
  outside : ∀ n ∈ c.nodes, ¬Grouped c s n → becomesStep s n = true → n.id ∈ steps.map Step.id
  /-- The step of a rooted node that sits in a group stands directly in the group's step. -/
  inside : ∀ n g, SitsIn c s n g → Rooted c s n → becomesStep s n = true →
    ∃ members target delay, .group g.id members target delay ∈ Step.allOf steps ∧ n.id ∈ members.map Step.id
  /-- The top level holds the nodes in no group in their order, first those that are no groups. -/
  order : steps.map Step.id =
    ((c.nodes.filter fun n => (¬Grouped c s n ∧ s.kindOf n.type ≠ some .group) ∧ becomesStep s n = true) ++
      c.nodes.filter fun n => ¬Grouped c s n ∧ s.kindOf n.type = some .group).map (·.id)
  /-- The step of a group holds the nodes that name it as their parent in their order. -/
  memberOrder : ∀ id members target delay, .group id members target delay ∈ Step.allOf steps →
    members.map Step.id = (c.nodes.filter fun n => n.parent = some id ∧ becomesStep s n = true).map (·.id)
  /-- The steps of groups, and no others, hold steps. -/
  groups : ∀ n ∈ c.nodes, ∀ t ∈ Step.allOf steps, t.id = n.id →
    (s.kindOf n.type = some .group ↔ ∃ members target delay, t = .group n.id members target delay)

section Arrangement
variable {c : Canvas} {s : Settings} {f : Flow} {steps : List Step} {n : Node} {t : Step}

theorem becomesStep_of_group (hk : s.kindOf n.type = some .group) : becomesStep s n = true := by
  simp [becomesStep, hk]

theorem filter_becomesStep_topLevel : (topLevel c s).filter (becomesStep s) =
    (c.nodes.filter fun n => (¬Grouped c s n ∧ s.kindOf n.type ≠ some .group) ∧ becomesStep s n = true) ++
      c.nodes.filter fun n => ¬Grouped c s n ∧ s.kindOf n.type = some .group := by
  rw [topLevel, List.filter_append, List.filter_filter, List.filter_filter]
  congr 1
  · refine List.filter_congr fun n _ => ?_
    rw [Bool.eq_iff_iff]
    simp [and_comm]
  · refine List.filter_congr fun n _ => ?_
    rw [Bool.eq_iff_iff]
    simp only [Bool.and_eq_true, decide_eq_true_eq]
    exact ⟨And.right, fun h => ⟨becomesStep_of_group h.2, h⟩⟩

theorem filter_becomesStep_members {id : String} : (c.members id).filter (becomesStep s) =
    c.nodes.filter fun n => n.parent = some id ∧ becomesStep s n = true := by
  rw [Canvas.members, List.filter_filter]
  refine List.filter_congr fun n _ => ?_
  rw [Bool.eq_iff_iff]
  simp [and_comm]

theorem Made.eq_group_of_id_eq (hc : c.DistinctIds) (ht : Made c s t) (hn : n ∈ c.nodes)
    (hk : s.kindOf n.type = some .group) (hid : t.id = n.id) :
    ∃ members, t = .group n.id members (c.targetsFrom n.id) n.delay ∧
      members.map Step.id = ((c.members n.id).filter (becomesStep s)).map (·.id) := by
  cases ht with
  | message hn' hk' hm =>
    have := hc.eq_of_id_eq hn' hn (sort_node_id.symm.trans (hm.id_eq.symm.trans hid))
    subst this
    rw [hk] at hk'
    cases hk'
    cases hm with
    | media hk _ => rcases hk with h | h | h | h <;> cases h
  | group hg hk' hm =>
    have := hc.eq_of_id_eq hg hn hid
    subst this
    exact ⟨_, rfl, hm⟩

theorem Made.kind_of_id_eq (hc : c.DistinctIds) {id : String} {members : List Step} {target : List String}
    {delay : Option Json} (ht : Made c s (.group id members target delay)) (hn : n ∈ c.nodes) (hid : n.id = id) :
    s.kindOf n.type = some .group := by
  cases ht with
  | group hg hk _ => exact hc.eq_of_id_eq hn hg hid ▸ hk

section Distinct
variable (hc : c.DistinctIds) (h : c.compile s = .ok f)
include hc h

/-- The ids of all steps are those of the rooted nodes that become steps. -/
theorem mem_ids_of_compile {id : String} : id ∈ (Step.allOf f.steps).map Step.id ↔
    ∃ n ∈ c.nodes, n.id = id ∧ Rooted c s n ∧ becomesStep s n = true := by
  obtain ⟨order, hw⟩ := exists_walk_topLevel (s := s) hc
  rw [ids_allOf_of_compile hc hw h, List.mem_map]
  constructor
  · rintro ⟨n, hn, hid⟩
    obtain ⟨hn, hb⟩ := List.mem_filter.1 hn
    obtain ⟨k, hk⟩ := hw.mem_iff_rooted.1 hn
    exact ⟨n, hk.mem, hid, ⟨k, hk⟩, hb⟩
  · rintro ⟨n, -, hid, hr, hb⟩
    exact ⟨n, List.mem_filter.2 ⟨hw.mem_iff_rooted.2 hr, hb⟩, hid⟩

theorem nodup_ids_of_compile : ((Step.allOf f.steps).map Step.id).Nodup := by
  obtain ⟨order, hw⟩ := exists_walk_topLevel (s := s) hc
  have hnd : order.Nodup := hw.nodup hc (nodup_topLevel hc) fun _ hr => atDepth_zero_of_mem_topLevel hr
  have hsub : ∀ n ∈ order.filter (becomesStep s), n ∈ c.nodes := fun n hn => by
    obtain ⟨k, hk⟩ := hw.mem_iff_rooted.1 (List.mem_filter.1 hn).1
    exact hk.mem
  rw [ids_allOf_of_compile hc hw h]
  exact (hnd.filter _).map_on fun m hm n hn hid => hc.eq_of_id_eq (hsub m hm) (hsub n hn) hid

/-- A rooted group has a step, which holds the steps of the nodes that sit in it. -/
theorem exists_group_of_rooted (hn : n ∈ c.nodes) (hk : s.kindOf n.type = some .group) (hr : Rooted c s n) :
    ∃ members, .group n.id members (c.targetsFrom n.id) n.delay ∈ Step.allOf f.steps ∧
      members.map Step.id = ((c.members n.id).filter (becomesStep s)).map (·.id) := by
  have hid : n.id ∈ (Step.allOf f.steps).map Step.id :=
    (mem_ids_of_compile hc h).2 ⟨n, hn, rfl, hr, becomesStep_of_group hk⟩
  obtain ⟨t, ht, hid⟩ := List.mem_map.1 hid
  obtain ⟨members, rfl, hm⟩ := (made_of_compile h ht).eq_group_of_id_eq hc hn hk hid
  exact ⟨members, ht, hm⟩

/-- The steps of a canvas with distinct ids are arranged as its nodes are. -/
theorem arranged_of_compile : Arranged c s f.steps where
  once := nodup_ids_of_compile hc h
  mem_iff _ := mem_ids_of_compile hc h
  outside n hn hg hb := by
    rw [ids_of_compile hc h]
    exact List.mem_map.2 ⟨n, List.mem_filter.2 ⟨mem_topLevel.2 ⟨hn, hg⟩, hb⟩, rfl⟩
  inside n g hs hr hb := by
    obtain ⟨k, hk⟩ := hr
    obtain ⟨j, -, hj⟩ := hk.of_sitsIn hc hs
    obtain ⟨members, ht, hm⟩ := exists_group_of_rooted hc h hs.group hs.kind ⟨j, hj⟩
    refine ⟨members, _, _, ht, ?_⟩
    rw [hm]
    exact List.mem_map.2 ⟨n, List.mem_filter.2 ⟨(sitsIn_iff_mem_members hs.group hs.kind).1 hs, hb⟩, rfl⟩
  order := by rw [ids_of_compile hc h, filter_becomesStep_topLevel]
  memberOrder id members target delay ht := by
    cases made_of_compile h ht with
    | group _ _ hm => rw [hm, filter_becomesStep_members]
  groups n hn t ht hid := by
    constructor
    · intro hk
      obtain ⟨members, ht, -⟩ := (made_of_compile h ht).eq_group_of_id_eq hc hn hk hid
      exact ⟨members, _, _, ht⟩
    · rintro ⟨members, target, delay, rfl⟩
      exact (made_of_compile h ht).kind_of_id_eq hc hn rfl

end Distinct

end Arrangement

theorem arranged_nested : nested.DistinctIds ∧
    ∃ f, nested.compile folders = .ok f ∧ Arranged nested folders f.steps := by
  obtain ⟨f, h⟩ := compile_nested
  exact ⟨distinctIds_nested, f, h, arranged_of_compile distinctIds_nested h⟩

end Compile
end MessageFlow
