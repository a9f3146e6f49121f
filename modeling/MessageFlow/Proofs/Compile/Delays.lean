import MessageFlow.Proofs.Compile.Arrangement
import MessageFlow.Proofs.Compile.Stripping

/-! # How long steps wait

A step waits for what the data of its node sets as the delay, whatever the kind of the node and however deep it sits in
groups, and a setting that counts as none is none. Triggers are the exception: they wait for nothing that their nodes
say. -/

namespace MessageFlow

/-- The values that count as none where they stand for a setting. -/
inductive Json.Falsy : Json → Prop
  | null : Falsy .null
  | no : Falsy (.bool false)
  | zero {n : Json.Number} (h : n.isZero = true) : Falsy (.num n)
  | empty : Falsy (.str "")

theorem Json.isTruthy_iff {v : Json} : v.isTruthy = true ↔ ¬ v.Falsy := by
  constructor
  · intro h hv
    cases hv with
    | null => cases h
    | no => cases h
    | zero hn => simp [isTruthy, hn] at h
    | empty => simp [isTruthy] at h
  · intro h
    cases v with
    | null => exact absurd .null h
    | bool b =>
      cases b with
      | false => exact absurd .no h
      | true => rfl
    | num n =>
      rw [isTruthy, Bool.not_eq_true', ← Bool.not_eq_true]
      exact fun hn => h (.zero hn)
    | str s =>
      rw [isTruthy, bne_iff_ne]
      rintro rfl
      exact h .empty
    | arr => rfl
    | obj => rfl

theorem Node.delay_eq_some_iff {n : Node} {d : Json} :
    n.delay = some d ↔ n.data.get? "delay" = some d ∧ ¬ d.Falsy := by
  rw [delay, Option.filter_eq_some_iff, Json.isTruthy_iff]

namespace Compile

/-- The step waits for what the one node with its id sets, unless that node is a trigger. -/
def Timed (c : Canvas) (s : Settings) (t : Step) : Prop :=
  ∃ n ∈ c.nodes, (∀ m ∈ c.nodes, m.id = t.id ↔ m = n) ∧
    ∀ d, t.delay = some d ↔ s.kindOf n.type ≠ some .trigger ∧ n.data.get? "delay" = some d ∧ ¬ d.Falsy

section Delays
variable {c : Canvas} {s : Settings} {n : Node} {k : MessageKind} {m : Message} {ix : Index}

theorem delay_sort (s : Settings) (n : Node) : (sort s n).node.delay = n.delay := by
  rw [sort]
  split
  · exact delay_strip n
  · rfl

theorem delay_of_sent (h : Message.Sent (sort s n).node ix k m) : m.delay = if k = .trigger then none else n.delay := by
  split
  · next hk =>
    subst hk
    cases h with
    | trigger => rfl
    | media hk _ => simp at hk
  · next hk => rw [h.delay_eq hk, delay_sort]

theorem exists_delay_of_made {t : Step} (h : Made c s t) :
    ∃ n ∈ c.nodes, n.id = t.id ∧ t.delay = if s.kindOf n.type = some .trigger then none else n.delay := by
  cases h with
  | @message n k m hn hk hm =>
    refine ⟨n, hn, sort_node_id.symm.trans hm.id_eq.symm, ?_⟩
    rw [Step.delay, delay_of_sent hm, hk]
    simp only [Option.some.injEq]
  | @group g members hg hk _ =>
    refine ⟨g, hg, rfl, ?_⟩
    rw [hk, if_neg (by decide)]
    rfl

theorem timed_of_compile (hc : c.DistinctIds) {f : Flow} (h : c.compile s = .ok f) :
    ∀ t ∈ Step.allOf f.steps, Timed c s t := by
  intro t ht
  obtain ⟨n, hn, hid, hdelay⟩ := exists_delay_of_made (made_of_compile h ht)
  refine ⟨n, hn, fun m hm => ?_, fun d => ?_⟩
  · rw [← hid]
    constructor
    · exact fun hmn => hc.eq_of_id_eq hm hn hmn
    · exact congrArg Node.id
  · rw [hdelay, ← Node.delay_eq_some_iff]
    split
    · next hk => simp [hk]
    · next hk => simp [hk]

end Delays

/-! ### A trigger, a group and a text that are told to wait -/

/-- Data that sets a delay. -/
def told (seconds : Nat) : Json := .obj [("delay", .num (.ofNat seconds))]

def waiting : Canvas where
  nodes := [{ id := "start", type := "startNode", data := told 30 }, { id := "box", type := "group", data := told 5 },
    { id := "hello", type := "text", data := told 10, parent := some "box" }]
  edges := [{ id := "", source := "start", target := "box", sourceHandle := some "startNodeOut" }]

theorem distinctIds_waiting : waiting.DistinctIds := by
  unfold Canvas.DistinctIds
  decide

theorem compile_waiting : ∃ f, waiting.compile {} = .ok f := by
  refine exists_compile_eq_ok distinctIds_waiting ?_
  simp only [waiting, List.forall_mem_cons, refusal, sort, kindOf_default]
  decide

theorem rooted_waiting : ∀ n ∈ waiting.nodes, Rooted waiting {} n := by
  have hbox : AtDepth waiting {} { id := "box", type := "group", data := told 5 } 0 :=
    .top (by simp [waiting]) (by simp only [Grouped, kindOf_default]; decide)
  intro n hn
  simp only [waiting, List.mem_cons, List.not_mem_nil, or_false] at hn
  rcases hn with rfl | rfl | rfl
  · exact ⟨0, .top (by simp [waiting]) (by simp only [Grouped, kindOf_default]; decide)⟩
  · exact ⟨0, hbox⟩
  · exact ⟨1, .inside ⟨by simp [waiting], by simp [waiting], by rw [kindOf_default]; rfl, rfl⟩ hbox⟩

theorem exists_step_waiting {f : Flow} (h : waiting.compile {} = .ok f) :
    ∀ n ∈ waiting.nodes, ∃ t ∈ Step.allOf f.steps, t.id = n.id := by
  have hsteps : ∀ n ∈ waiting.nodes, becomesStep {} n = true := by
    simp only [waiting, List.forall_mem_cons, becomesStep, kindOf_default]
    decide
  intro n hn
  exact List.mem_map.1 ((mem_ids_of_compile distinctIds_waiting h).2 ⟨n, hn, rfl, rooted_waiting n hn, hsteps n hn⟩)

theorem timed_waiting : waiting.DistinctIds ∧ ∃ f t, waiting.compile {} = .ok f ∧ t ∈ Step.allOf f.steps ∧
    t.id = "hello" ∧ Timed waiting {} t := by
  obtain ⟨f, hf⟩ := compile_waiting
  obtain ⟨t, ht, hid⟩ := exists_step_waiting hf { id := "hello", type := "text", data := told 10, parent := some "box" }
    (by simp [waiting])
  exact ⟨distinctIds_waiting, f, t, hf, ht, hid, timed_of_compile distinctIds_waiting hf t ht⟩

/-- The trigger is told to wait and does not. -/
theorem delay_trigger_waiting : ∃ f t n d, waiting.compile {} = .ok f ∧ t ∈ Step.allOf f.steps ∧ n ∈ waiting.nodes ∧
    n.id = t.id ∧ n.data.get? "delay" = some d ∧ ¬ d.Falsy ∧ t.delay ≠ some d := by
  obtain ⟨f, hf⟩ := compile_waiting
  have hstart : ({ id := "start", type := "startNode", data := told 30 } : Node) ∈ waiting.nodes := by simp [waiting]
  obtain ⟨t, ht, hid⟩ := exists_step_waiting hf _ hstart
  obtain ⟨n, hn, hnid, hdelay⟩ := exists_delay_of_made (made_of_compile hf ht)
  obtain rfl := distinctIds_waiting.eq_of_id_eq hn hstart (hnid.trans hid)
  refine ⟨f, t, _, .num (.ofNat 30), hf, ht, hn, hnid, rfl, Json.isTruthy_iff.1 (by decide), ?_⟩
  rw [hdelay, kindOf_default, if_pos (by decide)]
  exact nofun

end Compile
end MessageFlow
