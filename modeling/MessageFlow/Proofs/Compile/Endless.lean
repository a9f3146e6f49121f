import MessageFlow.Proofs.Compile.Descent
import MessageFlow.Proofs.Compile.Outcome

/-! # Compilations without end

Why there is no flow, whatever the ids. Either the data of a node that the compilation comes to is refused, or
it comes to a circle of groups and goes round it without end. The second takes two nodes of one id: only so can
a node that sits below a start of the compilation sit in itself. A compilation that comes to such a circle has
no flow, but it may be refused before. -/

namespace MessageFlow
namespace Compile

/-- The compilation can come to the node: it is gone through from the start or sits below such a node. -/
def Below (c : Canvas) (s : Settings) (n : Node) : Prop := ∃ r ∈ starts c s, Relation.ReflTransGen (SitsIn c s) n r

/-- The compilation can come to a group that sits in itself, at any depth. -/
def Endless (c : Canvas) (s : Settings) : Prop := ∃ g, Below c s g ∧ Relation.TransGen (SitsIn c s) g g

section Failures
variable {c : Canvas} {s : Settings} {n g : Node} {e : CompileError} {around work : List Node}

theorem below_of_mem_members (hg : Below c s g) (hmem : g ∈ c.nodes) (hk : s.kindOf g.type = some .group)
    (hn : n ∈ c.members g.id) : Below c s n := by
  obtain ⟨r, hr, hgr⟩ := hg
  exact ⟨r, hr, .head ((sitsIn_iff_mem_members hmem hk).2 hn) hgr⟩

/-- Each node of the path sits in the next, and the compilation can come to all of them. -/
structure Reached (c : Canvas) (s : Settings) (path : List Node) : Prop where
  nodes : path ⊆ c.nodes
  below : ∀ n ∈ path, Below c s n
  chain : path.IsChain (SitsIn c s)

theorem Reached.cons (h : Reached c s (g :: around)) (hk : s.kindOf g.type = some .group) (hn : n ∈ c.members g.id) :
    Reached c s (n :: g :: around) := by
  have hg : g ∈ c.nodes := h.nodes List.mem_cons_self
  have hs : SitsIn c s n g := (sitsIn_iff_mem_members hg hk).2 hn
  exact ⟨List.cons_subset.2 ⟨hs.node, h.nodes⟩,
    List.forall_mem_cons.2 ⟨below_of_mem_members (h.below g List.mem_cons_self) hg hk hn, h.below⟩,
    List.isChain_cons_cons.2 ⟨hs, h.chain⟩⟩

theorem refused_of_stepWithin {d : Nat} (hn : Reached c s (n :: around)) (hk : s.kindOf n.type ≠ some .group)
    (h : stepWithin (plan c s) d (sort s n) = .error e) :
    ∃ r, e = .refused r ∧ ∃ m ∈ c.nodes, Below c s m ∧ refusal s m = some r := by
  rw [← fault_eq_some_iff, fault_stepWithin hk, Option.map_eq_some_iff] at h
  obtain ⟨r, hr, rfl⟩ := h
  exact ⟨r, rfl, n, hn.nodes List.mem_cons_self, hn.below n List.mem_cons_self, hr⟩

/-- A node fails with what it or a node inside it is refused for, or with as many groups around as the depth
    allows. -/
theorem refused_or_reached_of_stepWithin {d : Nat} (hn : Reached c s (n :: around))
    (h : stepWithin (plan c s) d (sort s n) = .error e) :
    (∃ r, e = .refused r ∧ ∃ m ∈ c.nodes, Below c s m ∧ refusal s m = some r) ∨
      e = .endlessGroup ∧ ∃ path, Reached c s path ∧ path.length = around.length + d + 1 := by
  induction d generalizing n around with
  | zero =>
    by_cases hk : s.kindOf n.type = some .group
    · rw [stepWithin_zero_of_group hk] at h
      cases h
      exact .inr ⟨rfl, _, hn, rfl⟩
    · exact .inl (refused_of_stepWithin hn hk h)
  | succ d ih =>
    by_cases hk : s.kindOf n.type = some .group
    · -- the group fails because one of its members does, with one group more around
      rw [← fault_eq_some_iff, fault_stepWithin_group hk, fault_eq_some_iff] at h
      obtain ⟨_, hmap, hm⟩ := exists_of_inTurn_eq_error h
      obtain ⟨m, hmem, rfl⟩ := List.mem_map.1 hmap
      have hinner := ih (hn.cons hk hmem) hm
      rwa [List.length_cons, Nat.add_assoc around.length 1 d, Nat.add_comm 1 d] at hinner
    · exact .inl (refused_of_stepWithin hn hk h)

/-- A path longer than there are nodes goes round a circle. -/
theorem Reached.endless {path : List Node} (h : Reached c s path) (hlen : c.nodes.length < path.length) :
    Endless c s := by
  by_contra hnone
  have hnodup : path.Nodup := by
    refine (pairwise_of_isChain h.chain).imp_of_mem fun {m n} hm _ hmn heq => ?_
    subst heq
    exact hnone ⟨m, h.below m hm, hmn⟩
  exact absurd (hnodup.subperm h.nodes).length_le (Nat.not_le.2 hlen)

theorem refused_or_endless_of_compile (h : c.compile s = .error e) :
    (∃ r, e = .refused r ∧ ∃ n ∈ c.nodes, Below c s n ∧ Refused c s n r) ∨ e = .endlessGroup ∧ Endless c s := by
  rw [← fault_eq_some_iff, fault_compile, steps_plan, fault_eq_some_iff] at h
  obtain ⟨_, hmap, hstart⟩ := exists_of_inTurn_eq_error h
  obtain ⟨start, hmem, rfl⟩ := List.mem_map.1 hmap
  have hreached : Reached c s [start] :=
    ⟨by simpa using mem_nodes_of_mem_starts hmem, by simpa using ⟨start, hmem, .refl⟩, .singleton start⟩
  obtain ⟨r, rfl, n, hn, hbelow, hr⟩ | ⟨rfl, path, hpath, hlen⟩ := refused_or_reached_of_stepWithin hreached hstart
  · exact .inl ⟨r, rfl, n, hn, hbelow, refused_iff.2 hr⟩
  · rw [List.length_nil] at hlen
    exact .inr ⟨rfl, hpath.endless (by omega)⟩

/-- With distinct ids a compilation comes to rooted nodes only, and so to an end. -/
theorem not_endless_of_distinctIds (hc : c.DistinctIds) (s : Settings) : ¬Endless c s := by
  rintro ⟨g, ⟨r, hr, hgr⟩, hcircle⟩
  obtain ⟨order, hw⟩ := exists_walk_topLevel (s := s) hc
  have hmet : g ∈ order :=
    (hw.mem_iff fun r hr => (mem_topLevel.1 hr).1).2 ⟨r, starts_eq_topLevel hc ▸ hr, hgr⟩
  exact (hw.mem_iff_rooted.1 hmet).not_within_self hc hcircle

/-- A compilation that never ends: it comes to a group that sits in itself, and two nodes have one id. -/
structure NeverEnds (c : Canvas) (s : Settings) : Prop where
  compile : c.compile s = .error .endlessGroup
  endless : Endless c s
  repeated : ¬c.DistinctIds

theorem neverEnds_of_compile (h : c.compile s = .error .endlessGroup) : NeverEnds c s := by
  obtain ⟨_, hrefused, -⟩ | ⟨-, hendless⟩ := refused_or_endless_of_compile h
  · cases hrefused
  · exact ⟨h, hendless, fun hc => not_endless_of_distinctIds hc s hendless⟩

theorem NeverEnds.ne_ok (h : NeverEnds c s) (f : Flow) : c.compile s ≠ .ok f := by
  rw [h.compile]
  exact nofun

theorem NeverEnds.ne_refused (h : NeverEnds c s) (r : Refusal) : c.compile s ≠ .error (.refused r) := by
  rw [h.compile]
  exact nofun

/-! ### Flows -/

/-- A node that sits in a group with a step has a step at a smaller depth, if any step at all. -/
theorem exists_stepWithin_of_sitsIn {d : Nat} {o : Option Step} (hn : SitsIn c s n g)
    (h : stepWithin (plan c s) d (sort s g) = .ok o) :
    ∃ e < d, ∃ o, stepWithin (plan c s) e (sort s n) = .ok o := by
  obtain ⟨hk, -⟩ | ⟨k, -, hk, hg, -⟩ | ⟨e, members, rfl, -, hm, -⟩ := stepWithin_eq_ok h
  · cases hn.kind.symm.trans hk
  · exact absurd (Option.some.inj (hk.symm.trans hn.kind)) hg
  · have hmem := (sitsIn_iff_mem_members hn.group hn.kind).1 hn
    exact ⟨e, Nat.lt_succ_self e, exists_eq_ok_of_mem hm (List.mem_map_of_mem hmem)⟩

theorem exists_stepWithin_of_within {d : Nat} {o : Option Step} (hn : Relation.TransGen (SitsIn c s) n g)
    (h : stepWithin (plan c s) d (sort s g) = .ok o) :
    ∃ e < d, ∃ o, stepWithin (plan c s) e (sort s n) = .ok o := by
  induction hn using Relation.TransGen.head_induction_on with
  | single hs => exact exists_stepWithin_of_sitsIn hs h
  | head hs _ ih =>
    obtain ⟨e, he, o, ho⟩ := ih
    obtain ⟨e', he', ho'⟩ := exists_stepWithin_of_sitsIn hs ho
    exact ⟨e', by omega, ho'⟩

/-- A node that sits in itself has no step at any depth. -/
theorem stepWithin_ne_ok_of_within_self (hg : Relation.TransGen (SitsIn c s) g g) (d : Nat) (o : Option Step) :
    stepWithin (plan c s) d (sort s g) ≠ .ok o := by
  induction d using Nat.strongRecOn generalizing o with
  | ind d ih =>
    intro h
    obtain ⟨e, he, o', ho'⟩ := exists_stepWithin_of_within hg h
    exact ih e he o' ho'

theorem not_endless_of_compile {f : Flow} (h : c.compile s = .ok f) : ¬Endless c s := by
  rintro ⟨g, ⟨start, hstart, hwithin⟩, hcircle⟩
  obtain ⟨o, ho⟩ := exists_eq_ok_of_mem ((steps_plan c s).symm.trans (steps_of_compile h))
    (List.mem_map_of_mem hstart)
  rcases Relation.reflTransGen_iff_eq_or_transGen.1 hwithin with rfl | hwithin
  · exact stepWithin_ne_ok_of_within_self hcircle _ o ho
  · obtain ⟨d, -, o', ho'⟩ := exists_stepWithin_of_within hwithin ho
    exact stepWithin_ne_ok_of_within_self hcircle d o' ho'

end Failures

/-! ### A circle behind two groups of one id -/

def shelf : Node := { id := "shelf", type := "group", data := .null }

def drawer (parent : String) : Node := { id := "drawer", type := "group", data := .null, parent := some parent }

def tray : Node := { id := "tray", type := "group", data := .null, parent := some "drawer" }

/-- The tray sits in both of two groups of one id. Through the one a compilation comes to it, through the other
    it sits in itself. -/
def ringed : Canvas := ⟨[shelf, drawer "shelf", drawer "tray", tray], []⟩

theorem kindOf_ringed (sanitize : Bool) :
    ∀ n ∈ ringed.nodes, Settings.kindOf { sanitize := sanitize } n.type = some .group := by
  simp only [kindOf_default]
  decide

theorem endless_ringed (sanitize : Bool) : Endless ringed { sanitize := sanitize } := by
  have hgroup := kindOf_ringed sanitize
  have hsits : ∀ n ∈ ringed.nodes, ∀ g ∈ ringed.nodes, n.parent = some g.id →
      SitsIn ringed { sanitize := sanitize } n g := fun n hn g hg hparent => ⟨hn, hg, hgroup g hg, hparent⟩
  have hin := hsits tray (by simp [ringed]) (drawer "shelf") (by simp [ringed]) rfl
  have hout := hsits (drawer "shelf") (by simp [ringed]) shelf (by simp [ringed]) rfl
  have hback := hsits tray (by simp [ringed]) (drawer "tray") (by simp [ringed]) rfl
  have hround := hsits (drawer "tray") (by simp [ringed]) tray (by simp [ringed]) rfl
  have hshelf : (plan ringed { sanitize := sanitize }).grouped.contains shelf.id = false := by
    rw [Bool.eq_false_iff, ne_eq, contains_grouped]
    simp only [Grouped, kindOf_default]
    decide
  refine ⟨tray, ⟨shelf, ?_, .head hin (.single hout)⟩, .head hback (.single hround)⟩
  refine List.mem_append_right _ (List.mem_filter.2 ⟨by simp [ringed], ?_⟩)
  rw [hshelf, hgroup shelf (by simp [ringed])]
  rfl

/-- Groups are never refused, so nothing stops the compilation on its way round. -/
theorem neverEnds_ringed (sanitize : Bool) : NeverEnds ringed { sanitize := sanitize } := by
  refine neverEnds_of_compile ?_
  cases h : ringed.compile { sanitize := sanitize } with
  | ok f => exact absurd (endless_ringed sanitize) (not_endless_of_compile h)
  | error e =>
    obtain ⟨r, rfl, n, hn, -, k, hk, hg, -⟩ | ⟨rfl, -⟩ := refused_or_endless_of_compile h
    · exact absurd (Option.some.inj (hk.symm.trans (kindOf_ringed sanitize n hn))) hg
    · rfl

end Compile
end MessageFlow
