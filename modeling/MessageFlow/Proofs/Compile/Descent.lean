import MessageFlow.Proofs.Compile.Run

/-! # Descents into groups

A compilation goes into a group to make the steps of its members, and from there into the groups among them.
`Traverses` tells such a run without any bound on the depth, with the groups that it goes into and those that
it is inside of at the time. Nothing is marked as visited: the run ends because a node names one parent only,
so that the groups it is inside of are those around the node, and a group in a circle of groups has none at
the top level around it.

With distinct ids every compilation is such a run, and the only one. It goes into no group twice and into none
from which a circle of groups is reached, so it is never inside of more groups than the canvas has. A circle
that is closed by a node that is no group is not one of them: that node sits in a group but holds nothing. -/

namespace MessageFlow
namespace Compile

/-- A group that a run goes into, and the groups it is inside of at the time, the innermost first. -/
structure Entry where
  group : Node
  around : List Node

/-- What comes of a node that is no group. -/
def single (c : Canvas) (s : Settings) (n : Node) : Except CompileError (Option Step) :=
  match s.kindOf n.type with
  | none => .ok none
  | some k => ((Message.ofNode k (sort s n).node (plan c s).index).map (Option.map .message)).mapError .refused

/-- A run through nodes in turn, inside the groups `around`: the groups that it goes into, in their order, and
    the steps of the nodes or the first failure. The members of a group are gone through when it is met. -/
inductive Traverses (c : Canvas) (s : Settings) :
    List Node → List Node → List Entry → Except CompileError (List Step) → Prop
  | nil {around : List Node} : Traverses c s around [] [] (.ok [])
  | passed {around rest : List Node} {n : Node} {o : Option Step} {entries : List Entry}
      {out : Except CompileError (List Step)} (hk : s.kindOf n.type ≠ some .group) (hn : single c s n = .ok o)
      (hr : Traverses c s around rest entries out) :
    Traverses c s around (n :: rest) entries (out.map (o.toList ++ ·))
  | refused {around rest : List Node} {n : Node} {e : CompileError} (hk : s.kindOf n.type ≠ some .group)
      (hn : single c s n = .error e) : Traverses c s around (n :: rest) [] (.error e)
  | entered {around rest : List Node} {g : Node} {members : List Step} {inner entries : List Entry}
      {out : Except CompileError (List Step)} (hk : s.kindOf g.type = some .group)
      (hm : Traverses c s (g :: around) (c.members g.id) inner (.ok members))
      (hr : Traverses c s around rest entries out) :
    Traverses c s around (g :: rest) (⟨g, around⟩ :: (inner ++ entries))
      (out.map (.group g.id members (c.targetsFrom g.id) g.delay :: ·))
  | stopped {around rest : List Node} {g : Node} {inner : List Entry} {e : CompileError}
      (hk : s.kindOf g.type = some .group) (hm : Traverses c s (g :: around) (c.members g.id) inner (.error e)) :
    Traverses c s around (g :: rest) (⟨g, around⟩ :: inner) (.error e)

/-- The groups that a compilation goes into, where `above` relates a node to what it sits in. -/
structure Descends (above : Node → Node → Prop) (c : Canvas) (s : Settings) (entries : List Entry) : Prop where
  /-- The compilation is a run through the nodes at the top level, with these entries. -/
  run : Traverses c s [] (starts c s) entries ((c.compile s).map (·.steps))
  /-- There is no other run. -/
  only : ∀ {others out}, Traverses c s [] (starts c s) others out →
    others = entries ∧ out = (c.compile s).map (·.steps)
  /-- The compilation ends. -/
  ends : c.compile s ≠ .error .endlessGroup
  groups : ∀ e ∈ entries, e.group ∈ c.nodes ∧ s.kindOf e.group.type = some .group
  once : (entries.map (·.group.id)).Nodup
  /-- No group that is gone into lies on a circle or below one. -/
  acyclic : ∀ e ∈ entries, ∀ n, Relation.ReflTransGen above e.group n → ¬Relation.TransGen above n n
  /-- The run is never inside of more groups than there are. -/
  depth : ∀ e ∈ entries, (e.group :: e.around).length ≤
    (c.nodes.filter fun n => s.kindOf n.type = some .group).length

section Circles
variable {c : Canvas} {s : Settings} {n g : Node}

theorem pairwise_of_isChain {nodes : List Node} (h : nodes.IsChain (SitsIn c s)) :
    nodes.Pairwise (Relation.TransGen (SitsIn c s)) :=
  (h.imp fun _ _ => .single).pairwise

variable (hc : c.DistinctIds)
include hc

theorem Rooted.of_within (hn : Rooted c s n) (hw : Relation.ReflTransGen (SitsIn c s) n g) : Rooted c s g := by
  obtain ⟨k, hk⟩ := hn
  obtain ⟨j, -, hj, -⟩ := hk.of_within hc hw
  exact ⟨j, hj⟩

/-- A rooted node does not sit in itself, at any depth. -/
theorem Rooted.not_within_self (hn : Rooted c s n) : ¬Relation.TransGen (SitsIn c s) n n := by
  intro hcircle
  obtain ⟨k, hk⟩ := hn
  obtain ⟨g, hs, hgn⟩ := Relation.TransGen.head'_iff.1 hcircle
  obtain ⟨i, rfl, hg⟩ := hk.of_sitsIn hc hs
  obtain ⟨j, hj, hnj, -⟩ := hg.of_within hc hgn
  have := hk.unique hc hnj
  omega

/-- Nodes each of which sits in the next are distinct, from a rooted node on. -/
theorem Rooted.nodup_of_isChain {around : List Node} (hn : Rooted c s n)
    (hchain : (n :: around).IsChain (SitsIn c s)) : (n :: around).Nodup := by
  have hwithin : (n :: around).Pairwise (Relation.TransGen (SitsIn c s)) := pairwise_of_isChain hchain
  have hrooted : ∀ m ∈ n :: around, Rooted c s m := by
    intro m hm
    rcases List.mem_cons.1 hm with rfl | hm
    · exact hn
    · exact hn.of_within hc ((List.pairwise_cons.1 hwithin).1 m hm).to_reflTransGen
  refine hwithin.imp_of_mem fun {m g} hm _ hmg heq => ?_
  subst heq
  exact (hrooted m hm).not_within_self hc hmg

end Circles

section Traversals
variable {c : Canvas} {s : Settings} {around work order : List Node} {entries : List Entry}
  {out : Except CompileError (List Step)} {n g : Node} {e : Entry}

theorem stepWithin_eq_single (hk : s.kindOf n.type ≠ some .group) (d : Nat) :
    stepWithin (plan c s) d (sort s n) = single c s n := by
  unfold single
  cases h : s.kindOf n.type with
  | none => exact stepWithin_of_unknown h
  | some k => exact stepWithin_of_kind h fun hg => hk (hg ▸ h)

theorem Traverses.mem_entries (h : Traverses c s around (g :: work) entries out)
    (hk : s.kindOf g.type = some .group) : ⟨g, around⟩ ∈ entries := by
  cases h with
  | passed hk' | refused hk' => exact absurd hk hk'
  | entered | stopped => exact List.mem_cons_self

/-- Nodes are gone through in one way at most. -/
theorem Traverses.unique (h : Traverses c s around work entries out) {others : List Entry}
    {result : Except CompileError (List Step)} (h' : Traverses c s around work others result) :
    others = entries ∧ result = out := by
  induction h generalizing others result with
  | nil =>
    cases h'
    exact ⟨rfl, rfl⟩
  | passed hk hn _ ih =>
    cases h' with
    | passed _ hn' hr' =>
      obtain ⟨rfl, rfl⟩ := ih hr'
      cases hn.symm.trans hn'
      exact ⟨rfl, rfl⟩
    | refused _ hn' => cases hn.symm.trans hn'
    | entered hk' | stopped hk' => exact absurd hk' hk
  | refused hk hn =>
    cases h' with
    | passed _ hn' => cases hn.symm.trans hn'
    | refused _ hn' =>
      cases hn.symm.trans hn'
      exact ⟨rfl, rfl⟩
    | entered hk' | stopped hk' => exact absurd hk' hk
  | entered hk _ _ ihm ih =>
    cases h' with
    | passed hk' | refused hk' => exact absurd hk hk'
    | entered _ hm' hr' =>
      obtain ⟨rfl, hmembers⟩ := ihm hm'
      obtain ⟨rfl, rfl⟩ := ih hr'
      cases hmembers
      exact ⟨rfl, rfl⟩
    | stopped _ hm' => cases (ihm hm').2
  | stopped hk _ ihm =>
    cases h' with
    | passed hk' | refused hk' => exact absurd hk hk'
    | entered _ hm' => cases (ihm hm').2
    | stopped _ hm' =>
      obtain ⟨rfl, herror⟩ := ihm hm'
      cases herror
      exact ⟨rfl, rfl⟩

/-- The groups gone into are met in the order of a walk. -/
theorem Traverses.sublist (h : Traverses c s around work entries out) (hw : Walk c s work order) :
    (entries.map (·.group)).Sublist order := by
  induction h generalizing order with
  | nil => exact List.nil_sublist _
  | passed hk _ _ ih =>
    cases hw with
    | single _ hr => exact (ih hr).cons _
    | group hk' => exact absurd hk' hk
  | refused => exact List.nil_sublist _
  | entered hk _ _ ihm ih =>
    cases hw with
    | single hk' => exact absurd hk hk'
    | group _ hm hr =>
      rw [List.map_cons, List.map_append]
      exact ((ihm hm).append (ih hr)).cons_cons _
  | stopped hk _ ihm =>
    cases hw with
    | single hk' => exact absurd hk hk'
    | group _ hm _ => exact ((ihm hm).trans (List.sublist_append_left _ _)).cons_cons _

theorem Traverses.kind_of_mem (h : Traverses c s around work entries out) (he : e ∈ entries) :
    s.kindOf e.group.type = some .group := by
  induction h with
  | nil | refused => cases he
  | passed _ _ _ ih => exact ih he
  | entered hk _ _ ihm ih =>
    rcases List.mem_cons.1 he with rfl | he
    · exact hk
    · exact (List.mem_append.1 he).elim ihm ih
  | stopped hk _ ihm =>
    rcases List.mem_cons.1 he with rfl | he
    · exact hk
    · exact ihm he

/-- The groups that a run is inside of are those around the group that it goes into: each sits in the next. -/
theorem Traverses.isChain (h : Traverses c s around work entries out)
    (hwork : ∀ r ∈ work, r ∈ c.nodes ∧ (r :: around).IsChain (SitsIn c s)) (he : e ∈ entries) :
    (e.group :: e.around).IsChain (SitsIn c s) := by
  have hmembers : ∀ {around work : List Node} {g : Node}, s.kindOf g.type = some .group →
      (∀ r ∈ g :: work, r ∈ c.nodes ∧ (r :: around).IsChain (SitsIn c s)) →
      ∀ m ∈ c.members g.id, m ∈ c.nodes ∧ (m :: g :: around).IsChain (SitsIn c s) := by
    intro around work g hk hwork m hm
    obtain ⟨hg, hchain⟩ := hwork g List.mem_cons_self
    have hs := (sitsIn_iff_mem_members hg hk).2 hm
    exact ⟨hs.node, List.isChain_cons_cons.2 ⟨hs, hchain⟩⟩
  induction h with
  | nil | refused => cases he
  | passed _ _ _ ih => exact ih (List.forall_mem_cons.1 hwork).2 he
  | entered hk _ _ ihm ih =>
    rcases List.mem_cons.1 he with rfl | he
    · exact (hwork _ List.mem_cons_self).2
    · rcases List.mem_append.1 he with he | he
      · exact ihm (hmembers hk hwork) he
      · exact ih (List.forall_mem_cons.1 hwork).2 he
  | stopped hk _ ihm =>
    rcases List.mem_cons.1 he with rfl | he
    · exact (hwork _ List.mem_cons_self).2
    · exact ihm (hmembers hk hwork) he

/-- With distinct ids a run up to the depth that there are nodes is a run without a bound. -/
theorem exists_traverses (hc : c.DistinctIds) (d : Nat) {k : Nat} (hd : c.nodes.length ≤ d + k)
    (around work : List Node) (hwork : ∀ r ∈ work, AtDepth c s r k) :
    ∃ entries, Traverses c s around work entries (inTurn (stepWithin (plan c s) d) (work.map (sort s))) := by
  induction d generalizing k around work with
  | zero =>
    cases work with
    | nil => exact ⟨[], .nil⟩
    | cons r rest =>
      have := (hwork r List.mem_cons_self).lt_length hc
      omega
  | succ d ihd =>
    induction work with
    | nil => exact ⟨[], .nil⟩
    | cons r rest ih =>
      obtain ⟨hrk, hrest⟩ := List.forall_mem_cons.1 hwork
      obtain ⟨entries, hentries⟩ := ih hrest
      by_cases hk : s.kindOf r.type = some .group
      · obtain ⟨inner, hinner⟩ := ihd (k := k + 1) (by omega) (r :: around) (c.members r.id) fun m hm =>
          atDepth_of_mem_members hrk hk hm
        rw [List.map_cons, inTurn, stepWithin_of_group hk, members_plan, successors_plan]
        cases hm : inTurn (stepWithin (plan c s) d) ((c.members r.id).map (sort s)) with
        | error e =>
          rw [hm] at hinner
          exact ⟨_, .stopped hk hinner⟩
        | ok members =>
          rw [hm] at hinner
          exact ⟨_, .entered hk hinner hentries⟩
      · rw [List.map_cons, inTurn, stepWithin_eq_single hk]
        cases hn : single c s r with
        | error e => exact ⟨_, .refused hk hn⟩
        | ok o => exact ⟨_, .passed hk hn hentries⟩

end Traversals

section Whole
variable {c : Canvas} {s : Settings}

theorem map_steps_compile (c : Canvas) (s : Settings) : (c.compile s).map (·.steps) = outcome (plan c s).steps := by
  rw [compile_eq]
  cases outcome (plan c s).steps <;> rfl

/-- A compilation goes into each group once at most, and into none on or below a circle of groups. -/
theorem descends_of_distinctIds (hc : c.DistinctIds) (s : Settings) :
    ∃ entries, Descends (SitsIn c s) c s entries := by
  obtain ⟨entries, hrun⟩ := exists_traverses hc c.nodes.length (k := 0) (by omega) [] (starts c s) fun r hr =>
    atDepth_zero_of_mem_topLevel (starts_eq_topLevel (s := s) hc ▸ hr)
  obtain ⟨order, hw⟩ := exists_walk_topLevel (s := s) hc
  rw [← steps_plan, ← map_steps_compile] at hrun
  have hsub := hrun.sublist (starts_eq_topLevel (s := s) hc ▸ hw)
  have hrooted : ∀ e ∈ entries, Rooted c s e.group := fun e he =>
    hw.mem_iff_rooted.1 (hsub.subset (List.mem_map_of_mem he))
  have hmem : ∀ e ∈ entries, e.group ∈ c.nodes := fun e he => by
    obtain ⟨k, hk⟩ := hrooted e he
    exact hk.mem
  refine ⟨entries, hrun, fun h => hrun.unique h, fun h => ?_, fun e he => ⟨hmem e he, hrun.kind_of_mem he⟩,
    ?_, ?_, ?_⟩
  · obtain ⟨e, he⟩ := exists_refusal_of_compile hc h
    cases he
  · have hnodup := (hw.nodup hc (nodup_topLevel hc) fun _ hr => atDepth_zero_of_mem_topLevel hr).sublist hsub
    rw [show entries.map (·.group.id) = (entries.map (·.group)).map (·.id) from (List.map_map ..).symm]
    refine hnodup.map_on fun m hm n hn hid => ?_
    obtain ⟨a, ha, rfl⟩ := List.mem_map.1 hm
    obtain ⟨b, hb, rfl⟩ := List.mem_map.1 hn
    exact hc.eq_of_id_eq (hmem a ha) (hmem b hb) hid
  · exact fun e he n hn => ((hrooted e he).of_within hc hn).not_within_self hc
  · intro e he
    have hchain := hrun.isChain (fun r hr => ⟨mem_nodes_of_mem_starts hr, List.IsChain.singleton r⟩) he
    have hgroups : ∀ m ∈ e.group :: e.around, m ∈ c.nodes.filter fun n => s.kindOf n.type = some .group := by
      intro m hm
      rw [List.mem_filter, decide_eq_true_eq]
      rcases List.mem_cons.1 hm with rfl | hm
      · exact ⟨hmem e he, hrun.kind_of_mem he⟩
      · obtain ⟨n, -, hs⟩ := Relation.TransGen.tail'_iff.1 ((List.pairwise_cons.1 (pairwise_of_isChain hchain)).1 m hm)
        exact ⟨hs.group, hs.kind⟩
    exact (((hrooted e he).nodup_of_isChain hc hchain).subperm hgroups).length_le

theorem descends_nested : nested.DistinctIds ∧ ∃ entries, Descends (SitsIn nested folders) nested folders entries :=
  ⟨distinctIds_nested, descends_of_distinctIds distinctIds_nested folders⟩

end Whole

/-! ### Circles through other nodes -/

/-- The node `m` names `n` as its parent, whatever `n` is. -/
def Names (c : Canvas) (m n : Node) : Prop := m ∈ c.nodes ∧ n ∈ c.nodes ∧ m.parent = some n.id

/-- A group that names a text as its parent. -/
def box : Node := { id := "box", type := "group", data := .null, parent := some "note" }

/-- A text in this group. -/
def note : Node := { id := "note", type := "text", data := .obj [("body", .str "Hi")], parent := some "box" }

/-- A group and a text that name each other as parents. -/
def crossed : Canvas := ⟨[box, note], []⟩

/-- The group is gone into although following the parents from it leads back to it. -/
theorem not_descends_crossed :
    crossed.DistinctIds ∧ ¬∃ entries, Descends (Names crossed) crossed {} entries := by
  have hc : crossed.DistinctIds := by
    unfold Canvas.DistinctIds
    decide
  have hgroup : MessageKind.ofName? box.type = some .group := rfl
  have htext : MessageKind.ofName? note.type = some .text := rfl
  have hin : Names crossed box note := ⟨by simp [crossed], by simp [crossed], rfl⟩
  have hout : Names crossed note box := ⟨by simp [crossed], by simp [crossed], rfl⟩
  have hstarts : starts crossed {} = [box] := by
    have hparents : box.parent ≠ some box.id ∧ note.parent = some box.id := by decide
    rw [starts_eq_topLevel hc, topLevel]
    simp [Grouped, crossed, kindOf_default, hgroup, htext, hparents]
  refine ⟨hc, ?_⟩
  rintro ⟨entries, h⟩
  have hrun := h.run
  rw [hstarts] at hrun
  have hbox : ⟨box, []⟩ ∈ entries := hrun.mem_entries (by rw [kindOf_default, hgroup])
  exact h.acyclic _ hbox box .refl (.head hin (.single hout))

end Compile
end MessageFlow
