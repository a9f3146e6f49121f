import MessageFlow.Canvas.Edge
import Std.Data.HashSet

/-! Edges without repeats: of several that are the same, the first stays, as it was written. No two of the
    edges that stay are the same (`pairwise_distinctFrom`); without repeats all stay (`distinct_eq_self`). -/

namespace MessageFlow
namespace Edge

/-- The edges that are the same neither as one that was seen nor as one before them. -/
def distinctFrom (seen : Std.HashSet Edge) : List Edge → List Edge
  | [] => []
  | e :: rest =>
    if seen.contains e then distinctFrom seen rest
    else e :: distinctFrom (seen.insert e) rest

/-- The edges without those that repeat an earlier one. -/
def distinct (edges : List Edge) : List Edge := distinctFrom ∅ edges

/-- What stays was not seen before. -/
theorem contains_of_mem_distinctFrom {edges : List Edge} {seen : Std.HashSet Edge} {e : Edge}
    (h : e ∈ distinctFrom seen edges) : seen.contains e = false := by
  induction edges generalizing seen with
  | nil => cases h
  | cons d rest ih =>
    rw [distinctFrom] at h
    split at h
    · exact ih h
    · next hd =>
      rcases List.mem_cons.1 h with rfl | h
      · simpa using hd
      · have := ih h
        rw [Std.HashSet.contains_insert, Bool.or_eq_false_iff] at this
        exact this.2

theorem pairwise_distinctFrom (edges : List Edge) (seen : Std.HashSet Edge) :
    (distinctFrom seen edges).Pairwise fun a b => (a == b) = false := by
  induction edges generalizing seen with
  | nil => exact .nil
  | cons e rest ih =>
    rw [distinctFrom]
    split
    · exact ih _
    · refine .cons (fun d hd => ?_) (ih _)
      have := contains_of_mem_distinctFrom hd
      rw [Std.HashSet.contains_insert, Bool.or_eq_false_iff] at this
      exact this.1

theorem distinctFrom_eq_self {edges : List Edge} {seen : Std.HashSet Edge}
    (hseen : ∀ e ∈ edges, seen.contains e = false) (h : edges.Pairwise fun a b => (a == b) = false) :
    distinctFrom seen edges = edges := by
  induction edges generalizing seen with
  | nil => rfl
  | cons e rest ih =>
    obtain ⟨he, hrest⟩ := List.pairwise_cons.1 h
    have hnew : ∀ d ∈ rest, (seen.insert e).contains d = false := fun d hd => by
      rw [Std.HashSet.contains_insert, he d hd, hseen d (List.mem_cons_of_mem _ hd), Bool.or_self]
    rw [distinctFrom, hseen e List.mem_cons_self, if_neg Bool.false_ne_true, ih hnew hrest]

/-- A test that tells no edge from one that is the same may come before or after. -/
theorem distinctFrom_filter {p : Edge → Bool} (hp : ∀ a b, (a == b) = true → p a = p b) (edges : List Edge)
    {seen seen' : Std.HashSet Edge} (h : ∀ e, p e = true → seen'.contains e = seen.contains e) :
    distinctFrom seen' (edges.filter p) = (distinctFrom seen edges).filter p := by
  induction edges generalizing seen seen' with
  | nil => rfl
  | cons e rest ih =>
    by_cases hpe : p e = true
    · have hnew : ∀ d, p d = true → (seen'.insert e).contains d = (seen.insert e).contains d := fun d hd => by
        rw [Std.HashSet.contains_insert, Std.HashSet.contains_insert, h d hd]
      rw [List.filter_cons_of_pos hpe, distinctFrom, distinctFrom, h e hpe]
      split
      · exact ih h
      · rw [List.filter_cons_of_pos hpe, ih hnew]
    · have hnew : ∀ d, p d = true → seen'.contains d = (seen.insert e).contains d := fun d hd => by
        have hne : (e == d) = false := Bool.eq_false_iff.2 fun hed => hpe ((hp e d hed).trans hd)
        rw [Std.HashSet.contains_insert, h d hd, hne, Bool.false_or]
      rw [List.filter_cons_of_neg hpe, distinctFrom]
      split
      · exact ih h
      · rw [List.filter_cons_of_neg hpe, ih hnew]

theorem distinct_filter {p : Edge → Bool} (hp : ∀ a b, (a == b) = true → p a = p b) (edges : List Edge) :
    distinct (edges.filter p) = (distinct edges).filter p :=
  distinctFrom_filter hp edges fun _ _ => rfl

theorem distinct_eq_self {edges : List Edge} (h : edges.Pairwise fun a b => (a == b) = false) :
    distinct edges = edges :=
  distinctFrom_eq_self (fun _ _ => Std.HashSet.contains_empty) h

/-- Edges are not the same if they differ in a field. -/
theorem pairwise_of_nodup_map {field : Edge → String} (hfield : ∀ a b, (a == b) = true → field a = field b)
    {edges : List Edge} (h : (edges.map field).Nodup) : edges.Pairwise fun a b => (a == b) = false := by
  refine (List.pairwise_map.1 h).imp fun {a b} hne => ?_
  rw [Bool.eq_false_iff]
  exact fun hsame => hne (hfield a b hsame)

end Edge
end MessageFlow
