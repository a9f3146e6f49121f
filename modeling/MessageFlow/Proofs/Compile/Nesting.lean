import MessageFlow.Proofs.Compile.Message
import Mathlib.Data.List.Nodup
import Mathlib.Data.List.Perm.Subperm
import Mathlib.Logic.Relation

/-! # Groups inside groups

Which nodes of a canvas sit in which groups, and the order in which a walk through the groups meets the
nodes: first those that sit in no group, then, below each group, the nodes that sit in it. Parents are
arbitrary, so groups may sit in themselves or in each other in a circle; a walk from the top level never
comes to such a group. With distinct ids every node has one parent at most and one depth at most, and no
depth exceeds the number of nodes: a walk through the top level exists, and it meets each node that lies
below the top level exactly once. -/

namespace MessageFlow

namespace Canvas

/-- No two nodes have one id. -/
def DistinctIds (c : Canvas) : Prop := (c.nodes.map (·.id)).Nodup

/-- The nodes that name an id as their parent, in their order. -/
def members (c : Canvas) (id : String) : List Node := c.nodes.filter fun n => n.parent == some id

theorem mem_members {c : Canvas} {id : String} {n : Node} :
    n ∈ c.members id ↔ n ∈ c.nodes ∧ n.parent = some id := by
  rw [members, List.mem_filter, beq_iff_eq]

theorem DistinctIds.nodup {c : Canvas} (h : c.DistinctIds) : c.nodes.Nodup := List.Nodup.of_map _ h

theorem DistinctIds.eq_of_id_eq {c : Canvas} (h : c.DistinctIds) {m n : Node} (hm : m ∈ c.nodes)
    (hn : n ∈ c.nodes) (hid : m.id = n.id) : m = n :=
  List.inj_on_of_nodup_map h hm hn hid

end Canvas

namespace Compile

/-- The node names a group of the canvas as its parent. -/
def Grouped (c : Canvas) (s : Settings) (n : Node) : Prop :=
  ∃ g ∈ c.nodes, s.kindOf g.type = some .group ∧ n.parent = some g.id

instance (c : Canvas) (s : Settings) (n : Node) : Decidable (Grouped c s n) :=
  inferInstanceAs (Decidable (∃ g ∈ c.nodes, s.kindOf g.type = some .group ∧ n.parent = some g.id))

/-- The node `n` of the canvas sits in its group `g`. -/
structure SitsIn (c : Canvas) (s : Settings) (n g : Node) : Prop where
  node : n ∈ c.nodes
  group : g ∈ c.nodes
  kind : s.kindOf g.type = some .group
  parent : n.parent = some g.id

/-- Following the groups from a node, one comes after so many to a node that sits in no group. -/
inductive AtDepth (c : Canvas) (s : Settings) : Node → Nat → Prop
  | top {n : Node} (hn : n ∈ c.nodes) (h : ¬Grouped c s n) : AtDepth c s n 0
  | inside {n g : Node} {k : Nat} (h : SitsIn c s n g) (hg : AtDepth c s g k) : AtDepth c s n (k + 1)

/-- Following the groups from a node, one comes to a node that sits in no group. -/
def Rooted (c : Canvas) (s : Settings) (n : Node) : Prop := ∃ k, AtDepth c s n k

/-- The nodes that sit in no group: those that are no groups before those that are. -/
def topLevel (c : Canvas) (s : Settings) : List Node :=
  (c.nodes.filter fun n => ¬Grouped c s n ∧ s.kindOf n.type ≠ some .group) ++
    c.nodes.filter fun n => ¬Grouped c s n ∧ s.kindOf n.type = some .group

/-- The order in which nodes are met that are gone through one after the other, each group followed by the
    nodes that name it as their parent. -/
inductive Walk (c : Canvas) (s : Settings) : List Node → List Node → Prop
  | nil : Walk c s [] []
  | single {n : Node} {rest order : List Node} (hk : s.kindOf n.type ≠ some .group)
      (hr : Walk c s rest order) : Walk c s (n :: rest) (n :: order)
  | group {g : Node} {rest inner order : List Node} (hk : s.kindOf g.type = some .group)
      (hm : Walk c s (c.members g.id) inner) (hr : Walk c s rest order) :
    Walk c s (g :: rest) (g :: (inner ++ order))

section Depth
variable {c : Canvas} {s : Settings} {m n g h r : Node} {j k : Nat}

theorem SitsIn.grouped (hs : SitsIn c s n g) : Grouped c s n := ⟨g, hs.group, hs.kind, hs.parent⟩

theorem sitsIn_iff_mem_members (hg : g ∈ c.nodes) (hk : s.kindOf g.type = some .group) :
    SitsIn c s n g ↔ n ∈ c.members g.id := by
  rw [Canvas.mem_members]
  exact ⟨fun hs => ⟨hs.node, hs.parent⟩, fun hm => ⟨hm.1, hg, hk, hm.2⟩⟩

theorem AtDepth.mem (hn : AtDepth c s n k) : n ∈ c.nodes := by
  cases hn with
  | top hn _ => exact hn
  | inside hs _ => exact hs.node

theorem mem_topLevel : n ∈ topLevel c s ↔ n ∈ c.nodes ∧ ¬Grouped c s n := by
  simp only [topLevel, List.mem_append, List.mem_filter, decide_eq_true_eq]
  tauto

theorem atDepth_zero_of_mem_topLevel (hn : n ∈ topLevel c s) : AtDepth c s n 0 :=
  .top (mem_topLevel.1 hn).1 (mem_topLevel.1 hn).2

variable (hc : c.DistinctIds)
include hc

theorem SitsIn.unique (hg : SitsIn c s n g) (hh : SitsIn c s n h) : g = h :=
  hc.eq_of_id_eq hg.group hh.group (Option.some.inj (hg.parent.symm.trans hh.parent))

theorem AtDepth.of_sitsIn (hn : AtDepth c s n k) (hs : SitsIn c s n g) : ∃ j, k = j + 1 ∧ AtDepth c s g j := by
  cases hn with
  | top _ h => exact absurd hs.grouped h
  | @inside _ g' j hs' hg' =>
    rw [SitsIn.unique hc hs hs']
    exact ⟨j, rfl, hg'⟩

theorem AtDepth.unique (hn : AtDepth c s n k) (hn' : AtDepth c s n j) : k = j := by
  induction hn generalizing j with
  | top _ h =>
    cases hn' with
    | top => rfl
    | inside hs _ => exact absurd hs.grouped h
  | inside hs _ ih =>
    obtain ⟨i, rfl, hi⟩ := hn'.of_sitsIn hc hs
    rw [ih hi]

/-- The groups around a node lie less deep than the node. -/
theorem AtDepth.of_within (hn : AtDepth c s n k) (hw : Relation.ReflTransGen (SitsIn c s) n r) :
    ∃ j ≤ k, AtDepth c s r j ∧ (j = k → n = r) := by
  induction hw using Relation.ReflTransGen.head_induction_on generalizing k with
  | refl => exact ⟨k, Nat.le_refl k, hn, fun _ => rfl⟩
  | head hs _ ih =>
    obtain ⟨i, rfl, hi⟩ := hn.of_sitsIn hc hs
    obtain ⟨j, hj, hr, -⟩ := ih hi
    exact ⟨j, by omega, hr, fun h => by omega⟩

theorem AtDepth.eq_of_within (hm : AtDepth c s m k) (hn : AtDepth c s n k)
    (hrm : Relation.ReflTransGen (SitsIn c s) r m) (hrn : Relation.ReflTransGen (SitsIn c s) r n) : m = n := by
  have hu : Relator.RightUnique (SitsIn c s) := fun _ _ _ hg hh => SitsIn.unique hc hg hh
  rcases Relation.ReflTransGen.total_of_right_unique hu hrm hrn with hmn | hnm
  · obtain ⟨j, -, hj, heq⟩ := hm.of_within hc hmn
    exact heq (hj.unique hc hn)
  · obtain ⟨j, -, hj, heq⟩ := hn.of_within hc hnm
    exact (heq (hj.unique hc hm)).symm

/-- The groups around a node, from the node to the top level. -/
theorem AtDepth.exists_chain (hn : AtDepth c s n k) :
    ∃ chain : List Node, chain.length = k + 1 ∧ chain.Nodup ∧ ∀ m ∈ chain, ∃ j ≤ k, AtDepth c s m j := by
  induction hn with
  | @top n hn h =>
    exact ⟨[n], rfl, List.nodup_singleton n, fun m hm => ⟨0, Nat.le_refl 0, List.mem_singleton.1 hm ▸ .top hn h⟩⟩
  | @inside n g k hs hg ih =>
    obtain ⟨chain, hlen, hnd, hall⟩ := ih
    have hn : AtDepth c s n (k + 1) := .inside hs hg
    refine ⟨n :: chain, by rw [List.length_cons, hlen], List.nodup_cons.2 ⟨fun hmem => ?_, hnd⟩, fun m hm => ?_⟩
    · obtain ⟨j, hj, hnj⟩ := hall n hmem
      have := hn.unique hc hnj
      omega
    · rcases List.mem_cons.1 hm with rfl | hm
      · exact ⟨k + 1, Nat.le_refl _, hn⟩
      · obtain ⟨j, hj, hmj⟩ := hall m hm
        exact ⟨j, by omega, hmj⟩

theorem AtDepth.lt_length (hn : AtDepth c s n k) : k < c.nodes.length := by
  obtain ⟨chain, hlen, hnd, hall⟩ := hn.exists_chain hc
  have hsub : chain ⊆ c.nodes := fun m hm => by
    obtain ⟨j, -, hj⟩ := hall m hm
    exact hj.mem
  have := (hnd.subperm hsub).length_le
  omega

end Depth

/-! ### Walks -/

section Walks
variable {c : Canvas} {s : Settings} {work order : List Node} {n : Node}

theorem atDepth_of_mem_members {g m : Node} {k : Nat} (hg : AtDepth c s g k)
    (hk : s.kindOf g.type = some .group) (hm : m ∈ c.members g.id) : AtDepth c s m (k + 1) :=
  .inside ((sitsIn_iff_mem_members hg.mem hk).2 hm) hg

theorem within_iff_eq_of_ne {r : Node} (hk : s.kindOf r.type ≠ some .group) :
    Relation.ReflTransGen (SitsIn c s) n r ↔ n = r := by
  constructor
  · intro hw
    rcases Relation.ReflTransGen.cases_tail hw with heq | ⟨m, -, hs⟩
    · exact heq.symm
    · exact absurd hs.kind hk
  · rintro rfl
    exact .refl

theorem within_group_iff {g : Node} (hg : g ∈ c.nodes) (hk : s.kindOf g.type = some .group) :
    Relation.ReflTransGen (SitsIn c s) n g ↔
      n = g ∨ ∃ m ∈ c.members g.id, Relation.ReflTransGen (SitsIn c s) n m := by
  constructor
  · intro hw
    rcases Relation.ReflTransGen.cases_tail hw with heq | ⟨m, hm, hs⟩
    · exact .inl heq.symm
    · exact .inr ⟨m, (sitsIn_iff_mem_members hg hk).1 hs, hm⟩
  · rintro (rfl | ⟨m, hm, hw⟩)
    · exact .refl
    · exact hw.tail ((sitsIn_iff_mem_members hg hk).2 hm)

/-- A walk meets the nodes it starts from and all that sit in them, at any depth. -/
theorem Walk.mem_iff (hw : Walk c s work order) (hwork : ∀ r ∈ work, r ∈ c.nodes) :
    n ∈ order ↔ ∃ r ∈ work, Relation.ReflTransGen (SitsIn c s) n r := by
  induction hw with
  | nil => simp
  | single hk _ ih =>
    rw [List.mem_cons, ih fun r hr => hwork r (List.mem_cons_of_mem _ hr), List.exists_mem_cons_iff,
      within_iff_eq_of_ne hk]
  | @group g rest inner order hk _ _ ihm ih =>
    have hg : g ∈ c.nodes := hwork g List.mem_cons_self
    rw [List.mem_cons, List.mem_append, ihm fun m hm => (Canvas.mem_members.1 hm).1,
      ih fun r hr => hwork r (List.mem_cons_of_mem _ hr), List.exists_mem_cons_iff, within_group_iff hg hk,
      or_assoc]

/-- A walk from the top level meets the rooted nodes. -/
theorem Walk.mem_iff_rooted (hw : Walk c s (topLevel c s) order) : n ∈ order ↔ Rooted c s n := by
  rw [hw.mem_iff fun r hr => (mem_topLevel.1 hr).1]
  constructor
  · rintro ⟨r, hr, hnr⟩
    induction hnr using Relation.ReflTransGen.head_induction_on with
    | refl => exact ⟨0, atDepth_zero_of_mem_topLevel hr⟩
    | head hs _ ih =>
      obtain ⟨k, hk⟩ := ih
      exact ⟨k + 1, .inside hs hk⟩
  · rintro ⟨k, hk⟩
    induction hk with
    | top hn h => exact ⟨_, mem_topLevel.2 ⟨hn, h⟩, .refl⟩
    | inside hs _ ih =>
      obtain ⟨r, hr, hnr⟩ := ih
      exact ⟨r, hr, .head hs hnr⟩

variable (hc : c.DistinctIds)
include hc

/-- A walk through nodes of one depth meets no node twice. -/
theorem Walk.nodup {k : Nat} (hw : Walk c s work order) (hnd : work.Nodup)
    (hwork : ∀ r ∈ work, AtDepth c s r k) : order.Nodup := by
  induction hw generalizing k with
  | nil => exact List.nodup_nil
  | @single r rest order hk hr ih =>
    obtain ⟨hmem, hnd⟩ := List.nodup_cons.1 hnd
    obtain ⟨hrk, hrest⟩ := List.forall_mem_cons.1 hwork
    refine List.nodup_cons.2 ⟨fun hro => ?_, ih hnd hrest⟩
    obtain ⟨q, hq, hrq⟩ := (hr.mem_iff fun q hq => (hrest q hq).mem).1 hro
    exact hmem (AtDepth.eq_of_within hc hrk (hrest q hq) .refl hrq ▸ hq)
  | @group g rest inner order hk hm hr ihm ih =>
    obtain ⟨hmem, hnd⟩ := List.nodup_cons.1 hnd
    obtain ⟨hgk, hrest⟩ := List.forall_mem_cons.1 hwork
    have hin : ∀ m ∈ c.members g.id, AtDepth c s m (k + 1) := fun m hm => atDepth_of_mem_members hgk hk hm
    have hinner : ∀ x, x ∈ inner ↔ ∃ m ∈ c.members g.id, Relation.ReflTransGen (SitsIn c s) x m := fun x =>
      hm.mem_iff fun m hm => (hin m hm).mem
    have horder : ∀ x, x ∈ order ↔ ∃ q ∈ rest, Relation.ReflTransGen (SitsIn c s) x q := fun x =>
      hr.mem_iff fun q hq => (hrest q hq).mem
    refine List.nodup_cons.2 ⟨fun hgo => ?_, List.nodup_append.2
      ⟨ihm (hc.nodup.filter _) hin, ih hnd hrest, fun x hx y hy hxy => ?_⟩⟩
    · rcases List.mem_append.1 hgo with hgi | hgo
      · -- A group that sits below itself would lie deeper than it lies.
        obtain ⟨m, hm, hgm⟩ := (hinner g).1 hgi
        obtain ⟨j, hj, hmj, -⟩ := hgk.of_within hc hgm
        have := (hin m hm).unique hc hmj
        omega
      · obtain ⟨q, hq, hgq⟩ := (horder g).1 hgo
        exact hmem (AtDepth.eq_of_within hc hgk (hrest q hq) .refl hgq ▸ hq)
    · subst hxy
      obtain ⟨m, hm, hxm⟩ := (hinner x).1 hx
      obtain ⟨q, hq, hxq⟩ := (horder x).1 hy
      have hxg : Relation.ReflTransGen (SitsIn c s) x g :=
        hxm.tail ((sitsIn_iff_mem_members hgk.mem hk).2 hm)
      exact hmem (AtDepth.eq_of_within hc hgk (hrest q hq) hxg hxq ▸ hq)

theorem nodup_topLevel : (topLevel c s).Nodup := by
  refine List.nodup_append.2 ⟨hc.nodup.filter _, hc.nodup.filter _, ?_⟩
  rintro m hm n hn rfl
  simp only [List.mem_filter, decide_eq_true_eq] at hm hn
  exact hm.2.2 hn.2.2

/-- Nodes can be walked through if they lie deep enough for the depth that is left. -/
theorem exists_walk (d : Nat) {k : Nat} (hd : c.nodes.length ≤ d + k) (work : List Node)
    (hwork : ∀ r ∈ work, AtDepth c s r k) : ∃ order, Walk c s work order := by
  induction d generalizing k work with
  | zero =>
    cases work with
    | nil => exact ⟨[], .nil⟩
    | cons r rest =>
      have := (hwork r List.mem_cons_self).lt_length hc
      omega
  | succ d ihd =>
    induction work with
    | nil => exact ⟨[], .nil⟩
    | cons r rest ih =>
      obtain ⟨hrk, hrest⟩ := List.forall_mem_cons.1 hwork
      obtain ⟨order, horder⟩ := ih hrest
      by_cases hk : s.kindOf r.type = some .group
      · obtain ⟨inner, hinner⟩ := ihd (k := k + 1) (by omega) (c.members r.id) fun m hm =>
          atDepth_of_mem_members hrk hk hm
        exact ⟨_, .group hk hinner horder⟩
      · exact ⟨_, .single hk horder⟩

theorem exists_walk_topLevel : ∃ order, Walk c s (topLevel c s) order :=
  exists_walk hc c.nodes.length (k := 0) (by omega) _ fun _ hr => atDepth_zero_of_mem_topLevel hr

end Walks

end Compile
end MessageFlow
