import MessageFlow.Proofs.Flow.Drawing
import Mathlib.Data.List.Pairwise

/-! # Flows made one after the other

Flows are made by calls, of any kinds and in any order, that draw their ids from one source. If the source gives no id
twice, every flow holds together and no id stands for two things, neither in one flow nor in two. Which of the ids that
a call draws it keeps has no part in this: items that fail draw ids as well, and those of a group may be worked through
side by side. -/

namespace MessageFlow
namespace Generation
open IdSource

/-- A call that makes a flow. -/
inductive Call where
  | scaffold (kind : Scaffold.Kind) (spec : Json)
  | group (items : List Json)
  | campaign (c : Campaign)

/-- The flow that a call makes, and the ids that are left; nothing if it fails. -/
def Call.run : Call → IdSource → Option (Flow × IdSource)
  | .scaffold kind spec, ids => (Scaffold.ofSpec kind spec ids).toOption
  | .group items, ids => some (Scaffold.group items ids)
  | .campaign c, ids => (c.sequence ids).toOption

/-- Calls in turn make these flows, and draw the ids from one number up to another. Each call draws those of the next
    few numbers and keeps some of them, in an order of its own and each once; the others are lost. -/
inductive Run (name : Nat → String) : Nat → List Call → List Flow → Nat → Prop
  | nil {m : Nat} : Run name m [] [] m
  | failed {m n e : Nat} {call : Call} {calls : List Call} {flows : List Flow} {ids : IdSource} (hmn : m ≤ n)
      (h : call.run ids = none) (hrest : Run name n calls flows e) : Run name m (call :: calls) flows e
  | made {m n e : Nat} {call : Call} {calls : List Call} {f : Flow} {flows : List Flow} {rest : IdSource}
      {pick : Nat → Nat} (hmn : m ≤ n) (hpick : Function.Injective pick)
      (h : call.run ⟨fun i => name (pick i), 0⟩ = some (f, rest)) (hdrawn : ∀ i < rest.next, m ≤ pick i ∧ pick i < n)
      (hrest : Run name n calls flows e) : Run name m (call :: calls) (f :: flows) e

/-! ### Single calls -/

section Calls
variable {name : Nat → String} {call : Call} {ids rest : IdSource} {f : Flow} {m n : Nat}

theorem eq_ok_of_toOption {ε α : Type} {r : Except ε α} {a : α} (h : r.toOption = some a) : r = .ok a := by
  cases r with
  | error e => cases h
  | ok b => rw [Option.some.inj h]

theorem Call.drawn_of_run (hids : Fresh ids.name) (h : call.run ids = some (f, rest)) : Drawn ids f rest := by
  cases call with
  | scaffold kind spec =>
    have hflow := eq_ok_of_toOption h
    cases kind with
    | single k => exact Scaffold.drawn_of_single hflow
    | group =>
      cases spec with
      | arr items =>
        obtain ⟨rfl, rfl⟩ := Prod.mk.inj (Except.ok.inj hflow)
        exact Scaffold.drawn_of_group hids items
      | _ => cases hflow
  | group items =>
    obtain ⟨rfl, rfl⟩ := Prod.mk.inj (Option.some.inj h)
    exact Scaffold.drawn_of_group hids items
  | campaign c => exact Campaign.drawn_of_sequence hids (eq_ok_of_toOption h)

/-- A call holds each of its ids once, and they stand for the numbers that it draws. -/
theorem ids_of_made (hname : Fresh name) {pick : Nat → Nat} (hpick : Function.Injective pick)
    (h : call.run ⟨fun i => name (pick i), 0⟩ = some (f, rest)) (hdrawn : ∀ i < rest.next, m ≤ pick i ∧ pick i < n) :
    f.ids.Nodup ∧ ∀ x ∈ f.ids, ∃ j, m ≤ j ∧ j < n ∧ StandsFor name j x := by
  have hcall := Call.drawn_of_run (hname.comp hpick) h
  refine ⟨(hname.comp hpick).nodup_of_standsFor hcall.standsFor, fun x hx => ?_⟩
  obtain ⟨i, hi, hix⟩ := List.getElem_of_mem hx
  have hlt : i < rest.next := by
    rw [hcall.rest]
    omega
  have hnames := hcall.standsFor i x (List.getElem?_eq_some_iff.2 ⟨hi, hix⟩)
  rw [Nat.zero_add] at hnames
  exact ⟨pick i, (hdrawn i hlt).1, (hdrawn i hlt).2, hnames⟩

end Calls

/-! ### Calls in turn -/

/-- All nodes of the flows have different ids, each flow holds together, and the step that carries the items of a group
    has an id that no node of any flow has. -/
structure Generated (flows : List Flow) : Prop where
  nodes : (flows.flatMap fun f => f.nodes.map (·.id)).Nodup
  wellFormed : ∀ f ∈ flows, f.WellFormed
  apart : ∀ f ∈ flows, ∀ t ∈ f.steps, t.carriesItems = true → ∀ g ∈ flows, t.id ∉ g.nodes.map (·.id)

section Runs
variable {name : Nat → String} {calls : List Call} {flows : List Flow} {m n : Nat}

/-- A call that draws ids one after the other, and keeps them all. -/
theorem Run.cons {call : Call} {f : Flow} {rest : IdSource} (h : call.run ⟨fun i => name (m + i), 0⟩ = some (f, rest))
    (hrest : Run name (m + rest.next) calls flows n) : Run name m (call :: calls) (f :: flows) n := by
  refine .made (Nat.le_add_right m rest.next) (fun i j hij => Nat.add_left_cancel hij) h (fun i hi => ?_) hrest
  omega

theorem exists_run (name : Nat → String) (calls : List Call) (m : Nat) : ∃ flows n, Run name m calls flows n := by
  induction calls generalizing m with
  | nil => exact ⟨[], m, .nil⟩
  | cons call calls ih =>
    cases h : call.run ⟨fun i => name (m + i), 0⟩ with
    | none =>
      obtain ⟨flows, n, hrest⟩ := ih m
      exact ⟨flows, n, .failed (Nat.le_refl m) h hrest⟩
    | some made =>
      obtain ⟨f, rest⟩ := made
      obtain ⟨flows, n, hrest⟩ := ih (m + rest.next)
      exact ⟨f :: flows, n, .cons h hrest⟩

/-- A run holds each of its ids once, and they stand for the numbers that it draws. -/
theorem ids_of_run (hname : Fresh name) (h : Run name m calls flows n) : m ≤ n ∧ (flows.flatMap Flow.ids).Nodup ∧
    ∀ x ∈ flows.flatMap Flow.ids, ∃ j, m ≤ j ∧ j < n ∧ StandsFor name j x := by
  induction h with
  | nil => exact ⟨Nat.le_refl _, List.nodup_nil, fun x hx => absurd hx List.not_mem_nil⟩
  | failed hmn _ _ ih =>
    obtain ⟨hne, hnodup, hnames⟩ := ih
    refine ⟨Nat.le_trans hmn hne, hnodup, fun x hx => ?_⟩
    obtain ⟨j, hj, hje, hjx⟩ := hnames x hx
    exact ⟨j, Nat.le_trans hmn hj, hje, hjx⟩
  | made hmn hpick hrun hdrawn _ ih =>
    obtain ⟨hne, hnodup, hnames⟩ := ih
    obtain ⟨hnodup', hnames'⟩ := ids_of_made hname hpick hrun hdrawn
    rw [List.flatMap_cons]
    refine ⟨Nat.le_trans hmn hne, List.nodup_append.2 ⟨hnodup', hnodup, ?_⟩, fun x hx => ?_⟩
    -- The numbers of a call lie below those of all later ones, so that no id stands for two.
    · rintro x hx _ hy rfl
      obtain ⟨i, -, hi, hix⟩ := hnames' x hx
      obtain ⟨j, hj, -, hjx⟩ := hnames x hy
      have hij := hname.eq_of_standsFor hix hjx
      omega
    · rcases List.mem_append.1 hx with hx | hx
      · obtain ⟨j, hj, hjn, hjx⟩ := hnames' x hx
        exact ⟨j, hj, Nat.lt_of_lt_of_le hjn hne, hjx⟩
      · obtain ⟨j, hj, hje, hjx⟩ := hnames x hx
        exact ⟨j, Nat.le_trans hmn hj, hje, hjx⟩

theorem wellFormed_of_run (hname : Fresh name) (h : Run name m calls flows n) : ∀ f ∈ flows, f.WellFormed := by
  induction h with
  | nil => exact fun f hf => absurd hf List.not_mem_nil
  | failed _ _ _ ih => exact ih
  | made _ hpick hrun _ _ ih =>
    exact List.forall_mem_cons.2 ⟨(Call.drawn_of_run (hname.comp hpick) hrun).wellFormed, ih⟩

/-- If all ids of flows are different, no node has the id of a step that carries items. -/
theorem generated_of_nodup (hnodup : (flows.flatMap Flow.ids).Nodup) (hflows : ∀ f ∈ flows, f.WellFormed) :
    Generated flows := by
  obtain ⟨hown, hothers⟩ := List.nodup_flatMap.1 hnodup
  have hnodes : ∀ f : Flow, f.nodes.map (·.id) ⊆ f.ids := fun f => List.subset_append_left _ _
  refine ⟨List.nodup_flatMap.2 ⟨fun f hf => (List.nodup_append.1 (hown f hf)).1, ?_⟩, hflows, ?_⟩
  · exact hothers.imp fun hfg x hx hy => hfg (hnodes _ hx) (hnodes _ hy)
  · intro f hf t ht hcarries g hg hmem
    have hcarried : t.id ∈ (f.steps.filter Step.carriesItems).map Step.id :=
      List.mem_map.2 ⟨t, List.mem_filter.2 ⟨ht, hcarries⟩, rfl⟩
    by_cases hfg : f = g
    · subst hfg
      exact (List.nodup_append.1 (hown f hf)).2.2 _ hmem _ hcarried rfl
    · have hsymm : Std.Symm (Function.onFun List.Disjoint Flow.ids) := ⟨fun _ _ hab _ hx hy => hab hy hx⟩
      exact hothers.forall hf hg hfg (List.mem_append_right _ hcarried) (hnodes g hmem)

/-- Any calls can be made in turn, and whatever flows they make from fresh ids hold together and have no id in
    common. -/
theorem generated_of_fresh (hname : Fresh name) (calls : List Call) (m : Nat) :
    (∃ flows n, Run name m calls flows n) ∧ ∀ flows n, Run name m calls flows n → Generated flows := by
  refine ⟨exists_run name calls m, fun flows n h => ?_⟩
  obtain ⟨-, hnodup, -⟩ := ids_of_run hname h
  exact generated_of_nodup hnodup (wellFormed_of_run hname h)

end Runs

/-! ### Numerals as ids -/

theorem fresh_decimal : Fresh Text.decimal where
  distinct := Text.decimal_inj.1
  unanchored i rest h := by
    have hmem : 'p' ∈ Nat.toDigits 10 i := by
      rw [← String.toList_ofList (l := Nat.toDigits 10 i), ← Text.decimal, h, String.toList_append]
      exact List.mem_append_left _ (by decide)
    have hdigit := Nat.isDigit_of_mem_toDigits (by decide) (by decide) hmem
    revert hdigit
    decide

/-- Buttons, a group some of whose items fail, a group that is none, and a campaign. -/
def varied : List Call :=
  [.scaffold (.single .button) Scaffold.replies, .group Scaffold.mixed, .scaffold .group .null,
   .campaign (Campaign.ofItems Campaign.promotions {})]

theorem generated_varied : Fresh Text.decimal ∧ ∃ flows n, Run Text.decimal 0 varied flows n ∧ flows.length = 3 ∧
    Generated flows := by
  have hfails : Call.run (.scaffold .group .null) ⟨Text.decimal, 0⟩ = none := rfl
  have hrun : Run Text.decimal 0 varied _ _ :=
    .cons rfl (.cons rfl (.failed (Nat.le_add_right _ 4) hfails (.cons rfl .nil)))
  exact ⟨fresh_decimal, _, _, hrun, rfl, (generated_of_fresh fresh_decimal varied 0).2 _ _ hrun⟩

end Generation
end MessageFlow
