import MessageFlow.Proofs.Compile.Run

/-! Whether a canvas compiles, and with which error it does not: only rooted nodes count, the first that is
    refused decides, and edges have no part in it. -/

namespace MessageFlow
namespace Compile

/-- The node is of a known kind other than a group, and has no message for the given reason. -/
def Refused (c : Canvas) (s : Settings) (n : Node) (e : Refusal) : Prop :=
  ∃ k, s.kindOf n.type = some k ∧ k ≠ .group ∧
    Message.ofNode k (sort s n).node (plan c s).index = .error e

/-- What decides the outcome of a compilation. -/
structure Decided (c : Canvas) (s : Settings) : Prop where
  /-- A canvas compiles exactly if the message of every rooted node of known kind, groups apart, can be made. -/
  ok_iff : (∃ f, c.compile s = .ok f) ↔
    ∀ n ∈ c.nodes, Rooted c s n → ∀ k, s.kindOf n.type = some k → k ≠ .group →
      ∃ m, Message.ofNode k (sort s n).node (plan c s).index = .ok m
  /-- There is a walk through the whole top level. -/
  walk : ∃ order, Walk c s (topLevel c s) order
  /-- Where there is no flow, the error is that of the first node refused on this walk, and names the node. -/
  error_iff : ∀ order, Walk c s (topLevel c s) order → ∀ error, c.compile s = .error error ↔
    ∃ e before n after, error = .refused e ∧ order = before ++ n :: after ∧ Refused c s n e ∧ e.node = n.id ∧
      ∀ m ∈ before, ∀ d, ¬Refused c s m d
  /-- With other edges the same nodes have the same outcome. -/
  edges : ∀ edges : List Edge,
    (∃ f g, c.compile s = .ok f ∧ Canvas.compile { c with edges := edges } s = .ok g) ∨
      ∃ e : Refusal, c.compile s = .error (.refused e) ∧
        Canvas.compile { c with edges := edges } s = .error (.refused e)

section Outcome
variable {c : Canvas} {s : Settings} {n : Node} {e : Refusal}

theorem refused_iff : Refused c s n e ↔ refusal s n = some e := by
  rw [refusal, Option.bind_eq_some_iff]
  constructor
  · rintro ⟨k, hk, -, he⟩
    exact ⟨k, hk, by rw [← Message.fault_ofNode, he, fault]⟩
  · rintro ⟨k, hk, he⟩
    refine ⟨k, hk, ?_, by rwa [← fault_eq_some_iff, Message.fault_ofNode]⟩
    rintro rfl
    cases he

theorem refusal_eq_none_iff : refusal s n = none ↔ ∀ k, s.kindOf n.type = some k → k ≠ .group →
    ∃ m, Message.ofNode k (sort s n).node (plan c s).index = .ok m := by
  rw [refusal, Option.bind_eq_none_iff]
  constructor
  · intro h k hk _
    rw [← fault_eq_none_iff, Message.fault_ofNode, h k hk]
  · intro h k hk
    by_cases hg : k = .group
    · rw [hg, Message.refusal]
    · rw [← Message.fault_ofNode k _ (plan c s).index, fault_eq_none_iff]
      exact h k hk hg

theorem node_of_refusal_eq_some (h : refusal s n = some e) : e.node = n.id := by
  obtain ⟨k, -, hk⟩ := Option.bind_eq_some_iff.1 h
  exact (Message.node_of_refusal_eq_some hk).trans sort_node_id

/-- Walks read the nodes of a canvas alone. -/
theorem Walk.with_edges {work order : List Node} (hw : Walk c s work order) (edges : List Edge) :
    Walk { c with edges := edges } s work order := by
  induction hw with
  | nil => exact .nil
  | single hk _ ih => exact .single hk ih
  | group hk _ _ ihm ih => exact .group hk ihm ih

variable (hc : c.DistinctIds)
include hc

theorem fault_compile_with_edges (edges : List Edge) :
    fault (Canvas.compile { c with edges := edges } s) = fault (c.compile s) := by
  obtain ⟨order, hw⟩ := exists_walk_topLevel (s := s) hc
  rw [fault_compile_eq hc hw]
  exact fault_compile_eq (c := { c with edges := edges }) hc (hw.with_edges edges)

theorem compile_eq_ok_iff : (∃ f, c.compile s = .ok f) ↔ ∀ n ∈ c.nodes, Rooted c s n → refusal s n = none := by
  obtain ⟨order, hw⟩ := exists_walk_topLevel (s := s) hc
  rw [← fault_eq_none_iff, fault_compile_eq hc hw, Option.map_eq_none_iff, List.findSome?_eq_none_iff]
  constructor
  · exact fun h n _ hr => h n (hw.mem_iff_rooted.2 hr)
  · intro h n hn
    obtain ⟨k, hk⟩ := hw.mem_iff_rooted.1 hn
    exact h n hk.mem ⟨k, hk⟩

/-- The outcome of a compilation is decided by the first refusal in the order of a walk. -/
theorem decided_of_distinctIds (s : Settings) : Decided c s where
  ok_iff := by
    rw [compile_eq_ok_iff hc]
    exact forall₃_congr fun n _ _ => refusal_eq_none_iff
  walk := exists_walk_topLevel hc
  error_iff order hw error := by
    rw [← fault_eq_some_iff, fault_compile_eq hc hw, Option.map_eq_some_iff]
    simp only [List.findSome?_eq_some_iff]
    constructor
    · rintro ⟨e, ⟨before, n, after, rfl, hn, hbefore⟩, rfl⟩
      refine ⟨e, before, n, after, rfl, rfl, refused_iff.2 hn, node_of_refusal_eq_some hn, fun m hm d hd => ?_⟩
      have := refused_iff.1 hd
      rw [hbefore m hm] at this
      cases this
    · rintro ⟨e, before, n, after, rfl, rfl, hn, -, hbefore⟩
      refine ⟨e, ⟨before, n, after, rfl, refused_iff.1 hn, fun m hm => ?_⟩, rfl⟩
      cases hr : refusal s m with
      | none => rfl
      | some d => exact absurd (refused_iff.2 hr) (hbefore m hm d)
  edges edges := by
    have hfault := fault_compile_with_edges (s := s) hc edges
    cases h : c.compile s with
    | ok f =>
      rw [h, fault] at hfault
      obtain ⟨g, hg⟩ := fault_eq_none_iff.1 hfault
      exact .inl ⟨f, g, rfl, hg⟩
    | error error =>
      obtain ⟨e, rfl⟩ := exists_refusal_of_compile hc h
      rw [h, fault] at hfault
      exact .inr ⟨e, rfl, fault_eq_some_iff.1 hfault⟩

end Outcome

/-- A text that is refused, behind a group that holds another; a third is below a group that sits in itself. -/
def faulty : Canvas where
  nodes :=
    [{ id := "box", type := "group", data := .null },
     { id := "inside", type := "text", data := .str "", parent := some "box" },
     { id := "outside", type := "text", data := .obj [("body", .bool true)] },
     { id := "ring", type := "group", data := .null, parent := some "ring" },
     { id := "lost", type := "text", data := .str "", parent := some "ring" }]
  edges := [{ id := "", source := "outside", target := "inside" }]

theorem decided_faulty : faulty.DistinctIds ∧ Decided faulty {} := by
  have hc : faulty.DistinctIds := by
    unfold Canvas.DistinctIds
    decide
  exact ⟨hc, decided_of_distinctIds hc {}⟩

end Compile
end MessageFlow
