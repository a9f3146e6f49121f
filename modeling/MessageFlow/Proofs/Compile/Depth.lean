import MessageFlow.Proofs.Compile.Message
import Mathlib.Data.List.Perm.Subperm

/-! # As deep as there are nodes

The compiler goes into a group, and from there into the groups inside it, without counting how deep it is. Here
it is compared with a run that goes into groups up to a depth only, and so always ends. What such a run comes to
before it gives up is what the compiler comes to, and the depth that a canvas has nodes is always enough: a node
that ends at some depth, but not at a smaller one, holds a node that ends one level below, but not at a smaller
depth, and so on, so that there are as many nodes as levels. -/

namespace MessageFlow
namespace Compile

/-! ### Nodes in turn -/

/-- The steps of several nodes in turn; the first failure decides. -/
def inTurn (step : Sorted → Except CompileError (Option Step)) : List Sorted → Except CompileError (List Step)
  | [] => .ok []
  | n :: rest =>
    match step n with
    | .error e => .error e
    | .ok s => (inTurn step rest).map (s.toList ++ ·)

section Turns
variable {step step' : Sorted → Except CompileError (Option Step)} {n : Sorted} {nodes rest : List Sorted}
  {out : List Step}

theorem inTurn_cons_eq_ok_iff : inTurn step (n :: rest) = .ok out ↔
    ∃ o tail, step n = .ok o ∧ inTurn step rest = .ok tail ∧ out = o.toList ++ tail := by
  rw [inTurn]
  cases step n with
  | error e => simp
  | ok o =>
    simp only [map_eq_ok_iff, Except.ok.injEq, exists_and_left, exists_eq_left']
    exact ⟨fun ⟨t, ht, h⟩ => ⟨t, ht, h.symm⟩, fun ⟨t, ht, h⟩ => ⟨t, ht, h.symm⟩⟩

theorem fault_inTurn_cons :
    fault (inTurn step (n :: rest)) = (fault (step n)).or (fault (inTurn step rest)) := by
  rw [inTurn]
  cases step n with
  | error e => rfl
  | ok o => rw [fault_map, fault, Option.none_or]

theorem inTurn_congr (h : ∀ n ∈ nodes, step' n = step n) : inTurn step' nodes = inTurn step nodes := by
  induction nodes with
  | nil => rfl
  | cons n rest ih =>
    obtain ⟨hn, hrest⟩ := List.forall_mem_cons.1 h
    rw [inTurn, inTurn, hn, ih hrest]

theorem inTurn_append (a b : List Sorted) : inTurn step (a ++ b) =
    (inTurn step a).bind fun out => (inTurn step b).map (out ++ ·) := by
  induction a with
  | nil =>
    rw [List.nil_append]
    cases inTurn step b <;> rfl
  | cons n a ih =>
    rw [List.cons_append, inTurn, inTurn, ih]
    cases step n with
    | error e => rfl
    | ok o =>
      cases inTurn step a with
      | error e => rfl
      | ok out => cases inTurn step b <;> simp [Except.map, Except.bind]

/-- Each step comes from one of the nodes. -/
theorem exists_of_mem_inTurn (h : inTurn step nodes = .ok out) {t : Step} (ht : t ∈ out) :
    ∃ n ∈ nodes, step n = .ok (some t) := by
  induction nodes generalizing out with
  | nil =>
    cases h
    cases ht
  | cons n rest ih =>
    obtain ⟨o, tail, ho, htail, rfl⟩ := inTurn_cons_eq_ok_iff.1 h
    rcases List.mem_append.1 ht with ht | ht
    · exact ⟨n, List.mem_cons_self, by rw [ho, Option.mem_toList.1 ht]⟩
    · obtain ⟨m, hm, hmt⟩ := ih htail ht
      exact ⟨m, List.mem_cons_of_mem _ hm, hmt⟩

theorem exists_eq_ok_of_mem (h : inTurn step nodes = .ok out) (hn : n ∈ nodes) : ∃ o, step n = .ok o := by
  induction nodes generalizing out with
  | nil => cases hn
  | cons m rest ih =>
    obtain ⟨o, tail, ho, htail, rfl⟩ := inTurn_cons_eq_ok_iff.1 h
    rcases List.mem_cons.1 hn with rfl | hn
    · exact ⟨o, ho⟩
    · exact ih htail hn

theorem exists_of_inTurn_eq_error {e : CompileError} (h : inTurn step nodes = .error e) :
    ∃ n ∈ nodes, step n = .error e := by
  induction nodes with
  | nil => cases h
  | cons n rest ih =>
    rw [← fault_eq_some_iff, fault_inTurn_cons, Option.or_eq_some_iff, fault_eq_some_iff, fault_eq_some_iff] at h
    obtain hn | ⟨-, hrest⟩ := h
    · exact ⟨n, List.mem_cons_self, hn⟩
    · obtain ⟨m, hm, hme⟩ := ih hrest
      exact ⟨m, List.mem_cons_of_mem _ hm, hme⟩

end Turns

/-! ### Ends -/

/-- There is a result, or a refusal. -/
def Ends {α : Type} (r : Except CompileError α) : Prop := r ≠ .error .endlessGroup

section Ends
variable {α : Type} {step step' : Sorted → Except CompileError (Option Step)} {n : Sorted}
  {nodes rest : List Sorted}

@[simp] theorem ends_ok (a : α) : Ends (.ok a) := by
  simp [Ends]

theorem ends_outcome_some (r : Except Refusal α) : Ends (outcome (some r)) := by
  cases r <;> exact nofun

theorem ends_inTurn_cons : Ends (inTurn step (n :: rest)) ↔
    Ends (step n) ∧ ∀ o, step n = .ok o → Ends (inTurn step rest) := by
  rw [inTurn]
  cases step n with
  | error e => simp [Ends]
  | ok o => cases inTurn step rest <;> simp [Ends, Except.map]

/-- Nodes that end in turn have the same steps where each that ends has the same. -/
theorem inTurn_eq_of_ends (hstep : ∀ n ∈ nodes, Ends (step n) → step' n = step n) (h : Ends (inTurn step nodes)) :
    inTurn step' nodes = inTurn step nodes := by
  induction nodes with
  | nil => rfl
  | cons n rest ih =>
    obtain ⟨hn, hrest⟩ := ends_inTurn_cons.1 h
    rw [inTurn, inTurn, hstep n List.mem_cons_self hn]
    cases ho : step n with
    | error e => rfl
    | ok o => rw [ih (fun m hm => hstep m (List.mem_cons_of_mem _ hm)) (hrest o ho)]

/-- Nodes that do not end in turn, but do with other steps, hold one of which this is true. -/
theorem exists_ends_of_inTurn (hstep : ∀ n ∈ nodes, Ends (step n) → step' n = step n)
    (h : ¬Ends (inTurn step nodes)) (h' : Ends (inTurn step' nodes)) :
    ∃ n ∈ nodes, ¬Ends (step n) ∧ Ends (step' n) := by
  induction nodes with
  | nil => exact absurd (ends_ok []) h
  | cons n rest ih =>
    obtain ⟨hn', hrest'⟩ := ends_inTurn_cons.1 h'
    by_cases hn : Ends (step n)
    · obtain ⟨o, ho, hrest⟩ : ∃ o, step n = .ok o ∧ ¬Ends (inTurn step rest) := by
        by_contra hnone
        exact h (ends_inTurn_cons.2 ⟨hn, fun o ho => by_contra fun hr => hnone ⟨o, ho, hr⟩⟩)
      obtain ⟨m, hm, hends⟩ := ih (fun m hm => hstep m (List.mem_cons_of_mem _ hm)) hrest
        (hrest' o ((hstep n List.mem_cons_self hn).trans ho))
      exact ⟨m, List.mem_cons_of_mem _ hm, hends⟩
    · exact ⟨n, List.mem_cons_self, hn, hn'⟩

end Ends

/-! ### Runs up to a depth -/

/-- The step of a node, where groups may nest as deep as `depth`. -/
def stepWithin (p : Plan) : Nat → Sorted → Except CompileError (Option Step)
  | _, ⟨_, none⟩ => .ok none
  | 0, ⟨_, some .group⟩ => .error .endlessGroup
  | depth + 1, ⟨n, some .group⟩ =>
    match inTurn (stepWithin p depth) (p.members n.id) with
    | .error e => .error e
    | .ok members => .ok (some (.group n.id members (p.index.successors n.id none) n.delay))
  | _, ⟨n, some kind⟩ => ((Message.ofNode kind n p.index).map (Option.map .message)).mapError .refused

section Depths
variable {p : Plan} {n : Sorted} {nodes : List Sorted} {d e : Nat}

/-- A node that is no group has the same step at every depth. -/
theorem stepWithin_of_ne_group (hk : n.kind ≠ some .group) (d e : Nat) : stepWithin p d n = stepWithin p e n := by
  obtain ⟨n, kind⟩ := n
  cases kind with
  | none => cases d <;> cases e <;> rfl
  | some k =>
    cases k with
    | group => exact absurd rfl hk
    | _ => cases d <;> cases e <;> rfl

theorem stepWithin_zero (hk : n.kind = some .group) : stepWithin p 0 n = .error .endlessGroup := by
  obtain ⟨n, kind⟩ := n
  subst hk
  rfl

theorem stepWithin_succ (hk : n.kind = some .group) : stepWithin p (d + 1) n =
    match inTurn (stepWithin p d) (p.members n.node.id) with
    | .error e => .error e
    | .ok members => .ok (some (.group n.node.id members (p.index.successors n.node.id none) n.node.delay)) := by
  obtain ⟨n, kind⟩ := n
  subst hk
  rfl

theorem ends_stepWithin_succ (hk : n.kind = some .group) :
    Ends (stepWithin p (d + 1) n) ↔ Ends (inTurn (stepWithin p d) (p.members n.node.id)) := by
  rw [stepWithin_succ hk]
  cases inTurn (stepWithin p d) (p.members n.node.id) <;> simp [Ends]

/-- What is reached at some depth is reached at every greater one. -/
theorem stepWithin_of_le (h : Ends (stepWithin p d n)) (hde : d ≤ e) : stepWithin p e n = stepWithin p d n := by
  induction d generalizing n e with
  | zero =>
    by_cases hk : n.kind = some .group
    · exact absurd (stepWithin_zero hk) h
    · exact stepWithin_of_ne_group hk e 0
  | succ d ih =>
    by_cases hk : n.kind = some .group
    · obtain ⟨e, rfl⟩ : ∃ e', e = e' + 1 := ⟨e - 1, by omega⟩
      rw [stepWithin_succ hk, stepWithin_succ hk,
        inTurn_eq_of_ends (fun m _ hm => ih hm (by omega)) ((ends_stepWithin_succ hk).1 h)]
    · exact stepWithin_of_ne_group hk e (d + 1)

theorem ends_of_le (h : Ends (stepWithin p d n)) (hde : d ≤ e) : Ends (stepWithin p e n) := by
  rwa [stepWithin_of_le h hde]

theorem inTurn_of_le (h : Ends (inTurn (stepWithin p d) nodes)) (hde : d ≤ e) :
    inTurn (stepWithin p e) nodes = inTurn (stepWithin p d) nodes :=
  inTurn_eq_of_ends (fun _ _ hn => stepWithin_of_le hn hde) h

/-- A node that ends at a depth, but not one level less deep, is the first of as many nodes as there are levels:
    each holds the next, which ends one level below but not at a smaller depth. -/
theorem exists_path_of_ends (hn : n ∈ p.nodes) (h : Ends (stepWithin p (d + 1) n))
    (hbefore : ¬Ends (stepWithin p d n)) : ∃ path : List Sorted, path.length = d + 1 ∧ path.Nodup ∧
      path ⊆ p.nodes ∧ ∀ m ∈ path, Ends (stepWithin p (d + 1) m) := by
  have hk : n.kind = some .group := by
    by_contra hk
    exact hbefore (stepWithin_of_ne_group hk d (d + 1) ▸ h)
  induction d generalizing n with
  | zero => exact ⟨[n], rfl, by simp, by simpa using hn, by simpa using h⟩
  | succ d ih =>
    obtain ⟨m, hm, hmbefore, hmends⟩ := exists_ends_of_inTurn (fun m _ he => stepWithin_of_le he (Nat.le_succ d))
      (fun he => hbefore ((ends_stepWithin_succ hk).2 he)) ((ends_stepWithin_succ hk).1 h)
    have hmk : m.kind = some .group := by
      by_contra hmk
      exact hmbefore (stepWithin_of_ne_group hmk d (d + 1) ▸ hmends)
    obtain ⟨path, hlen, hnodup, hsub, hends⟩ := ih (List.mem_filter.1 hm).1 hmends hmbefore hmk
    refine ⟨n :: path, by rw [List.length_cons, hlen], List.nodup_cons.2 ⟨fun hmem => hbefore (hends n hmem), hnodup⟩,
      List.cons_subset.2 ⟨hn, hsub⟩, List.forall_mem_cons.2 ⟨h, fun m hm => ends_of_le (hends m hm) (Nat.le_succ _)⟩⟩

/-- A node that ends at any depth ends at the depth that there are nodes. -/
theorem ends_length_of_ends (hn : n ∈ p.nodes) (h : Ends (stepWithin p d n)) :
    Ends (stepWithin p p.nodes.length n) := by
  induction d with
  | zero => exact ends_of_le h (Nat.zero_le _)
  | succ d ih =>
    by_cases hd : Ends (stepWithin p d n)
    · exact ih hd
    · obtain ⟨path, hlen, hnodup, hsub, -⟩ := exists_path_of_ends hn h hd
      exact ends_of_le h (hlen ▸ (hnodup.subperm hsub).length_le)

end Depths

/-! ### The compiler -/

section Compiler
variable {p : Plan} {n : Sorted} {nodes : List Sorted} {d : Nat}

theorem outcome_stepOf_of_ne_group (hk : n.kind ≠ some .group) (d : Nat) :
    outcome (p.stepOf n) = stepWithin p d n := by
  obtain ⟨n, kind⟩ := n
  rw [Plan.stepOf]
  cases kind with
  | none => cases d <;> rfl
  | some k =>
    cases k with
    | group => exact absurd rfl hk
    | _ => cases d <;> rfl

theorem outcome_stepOf_of_group (hk : n.kind = some .group) : outcome (p.stepOf n) =
    match outcome (p.stepsOf (p.members n.node.id)) with
    | .error e => .error e
    | .ok members => .ok (some (.group n.node.id members (p.index.successors n.node.id none) n.node.delay)) := by
  rw [Plan.stepOf, hk]
  cases p.stepsOf (p.members n.node.id) with
  | none => rfl
  | some result => cases result <;> rfl

theorem outcome_stepsOf (p : Plan) (nodes : List Sorted) :
    outcome (p.stepsOf nodes) = inTurn (fun n => outcome (p.stepOf n)) nodes := by
  induction nodes with
  | nil =>
    rw [Plan.stepsOf]
    rfl
  | cons n rest ih =>
    rw [Plan.stepsOf, inTurn, ← ih]
    cases p.stepOf n with
    | none => rfl
    | some result =>
      cases result with
      | error e => rfl
      | ok o =>
        cases p.stepsOf rest with
        | none => rfl
        | some result => cases result <;> rfl

/-- Where a run up to a depth ends, the compiler comes to the same. -/
theorem outcome_stepOf_of_ends (h : Ends (stepWithin p d n)) : outcome (p.stepOf n) = stepWithin p d n := by
  induction d generalizing n with
  | zero =>
    by_cases hk : n.kind = some .group
    · exact absurd (stepWithin_zero hk) h
    · exact outcome_stepOf_of_ne_group hk 0
  | succ d ih =>
    by_cases hk : n.kind = some .group
    · rw [outcome_stepOf_of_group hk, stepWithin_succ hk, outcome_stepsOf,
        inTurn_eq_of_ends (fun _ _ hm => ih hm) ((ends_stepWithin_succ hk).1 h)]
    · exact outcome_stepOf_of_ne_group hk (d + 1)

/-- A node and the nodes behind it take the greater of their depths. -/
theorem exists_inTurn_cons {rest : List Sorted} {o : Option Step} {others : Except Refusal (List Step)} {d e : Nat}
    (hn : stepWithin p d n = .ok o) (hrest : inTurn (stepWithin p e) rest = outcome (some others)) :
    ∃ f, inTurn (stepWithin p f) (n :: rest) = outcome (some (others.map (o.toList ++ ·))) := by
  have hends : Ends (stepWithin p d n) := hn ▸ ends_ok o
  have hrestends : Ends (inTurn (stepWithin p e) rest) := hrest ▸ ends_outcome_some others
  refine ⟨max d e, ?_⟩
  rw [inTurn, stepWithin_of_le hends (Nat.le_max_left d e), hn, inTurn_of_le hrestends (Nat.le_max_right d e), hrest]
  cases others <;> rfl

/-- Whatever the compiler comes to, a run up to some depth comes to. -/
theorem exists_stepWithin_of_stepOf {result : Except Refusal (Option Step)} (h : p.stepOf n = some result) :
    ∃ d, stepWithin p d n = outcome (some result) := by
  refine (Plan.stepOf.mutual_partial_correctness p (fun n r => ∃ d, stepWithin p d n = outcome (some r))
    (fun nodes r => ∃ d, inTurn (stepWithin p d) nodes = outcome (some r)) ?_ ?_).1 n result h
  · rintro members ih ⟨n, kind⟩ r h
    by_cases hk : kind = some .group
    · subst hk
      cases hm : members (p.members n.id) with
      | none => simp [hm] at h
      | some result =>
        obtain ⟨d, hd⟩ := ih _ _ hm
        refine ⟨d + 1, ?_⟩
        rw [stepWithin_succ rfl, hd]
        cases result <;> simp only [hm, Option.bind_eq_bind, Option.bind_some] at h <;> cases h <;> rfl
    · cases kind with
      | none =>
        cases h
        exact ⟨0, rfl⟩
      | some k =>
        cases k with
        | group => exact absurd rfl hk
        | _ =>
          cases h
          exact ⟨0, rfl⟩
  · intro step turn ihn ihrest nodes r h
    cases nodes with
    | nil =>
      cases h
      exact ⟨0, rfl⟩
    | cons n rest =>
      cases hn : step n with
      | none => simp [hn] at h
      | some result =>
        obtain ⟨d, hd⟩ := ihn _ _ hn
        cases result with
        | error e =>
          simp only [hn, Option.bind_eq_bind, Option.bind_some] at h
          cases h
          exact ⟨d, by rw [inTurn, hd]; rfl⟩
        | ok o =>
          cases hr : turn rest with
          | none => simp [hn, hr] at h
          | some others =>
            obtain ⟨e, he⟩ := ihrest _ _ hr
            simp only [hn, hr, Option.bind_eq_bind, Option.bind_some] at h
            cases h
            exact exists_inTurn_cons hd he

/-- The depth that there are nodes is always enough. -/
theorem outcome_stepOf (hn : n ∈ p.nodes) : outcome (p.stepOf n) = stepWithin p p.nodes.length n := by
  by_cases h : Ends (stepWithin p p.nodes.length n)
  · exact outcome_stepOf_of_ends h
  · have hnone : p.stepOf n = none := by
      cases hr : p.stepOf n with
      | none => rfl
      | some result =>
        obtain ⟨d, hd⟩ := exists_stepWithin_of_stepOf hr
        exact absurd (ends_length_of_ends hn (hd ▸ ends_outcome_some result)) h
    rw [hnone, not_not.1 h]
    rfl

theorem outcome_steps (p : Plan) : outcome p.steps = inTurn (stepWithin p p.nodes.length)
    ((p.ungrouped.filter fun n => !(n.kind == some .group)) ++
      p.ungrouped.filter fun n => n.kind == some .group) := by
  have hmem : ∀ n ∈ (p.ungrouped.filter fun n => !(n.kind == some .group)) ++
      p.ungrouped.filter (fun n => n.kind == some .group), n ∈ p.nodes := by
    intro n hn
    simp only [Plan.ungrouped, List.mem_append, List.mem_filter] at hn
    tauto
  rw [← inTurn_congr fun n hn => outcome_stepOf (hmem n hn), inTurn_append, ← outcome_stepsOf, ← outcome_stepsOf,
    Plan.steps, List.partition_eq_filter_filter]
  simp only [Function.comp_def]
  cases p.stepsOf (p.ungrouped.filter fun n => !(n.kind == some .group)) with
  | none => rfl
  | some result =>
    cases result with
    | error e => rfl
    | ok first =>
      cases p.stepsOf (p.ungrouped.filter fun n => n.kind == some .group) with
      | none => rfl
      | some result => cases result <;> rfl

end Compiler

end Compile
end MessageFlow
