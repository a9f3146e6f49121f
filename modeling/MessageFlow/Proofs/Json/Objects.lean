import MessageFlow.Proofs.Schema.RoundTrip

/-! Objects in order. An object in canonical form has ascending keys, so it is told by what its keys hold;
    what it keeps under other names than given ones is again such an object. -/

namespace MessageFlow
namespace Json

theorem Object.mem_of_get? {o : Object} {key : String} {v : Json} (h : o.get? key = some v) : (key, v) ∈ o := by
  obtain ⟨before, after, rfl, -⟩ := List.lookup_eq_some_iff.1 h
  exact List.mem_append_right _ List.mem_cons_self

theorem IsCanonical.of_get? {u v : Json} {key : String} (h : u.IsCanonical) (hv : u.get? key = some v) :
    v.IsCanonical := by
  cases u with
  | obj fields => exact (isCanonical_obj_iff.1 h).2 (key, v) (Object.mem_of_get? hv)
  | _ => cases hv

namespace Object

theorem Ascending.nodup {o : Object} (h : o.Ascending) : (o.map (·.1)).Nodup := by
  refine List.Pairwise.imp (fun {a b} hlt => ?_) h
  rintro rfl
  exact String.lt_irrefl _ hlt

theorem Ascending.filter {o : Object} (h : o.Ascending) (p : String × Json → Bool) : Ascending (o.filter p) :=
  h.sublist (List.filter_sublist.map _)

/-- Below its first key an object in order holds nothing. -/
theorem Ascending.get?_eq_none {k l : String} {v : Json} {o : Object} (h : Ascending ((l, v) :: o)) (hlt : k < l) :
    get? ((l, v) :: o) k = none := by
  refine lookup_eq_none_of_notMem fun hmem => ?_
  rcases List.mem_cons.1 hmem with rfl | hmem
  · exact String.lt_irrefl _ hlt
  · exact String.lt_irrefl _ (String.lt_trans hlt ((List.pairwise_cons.1 h).1 k hmem))

theorem Ascending.get?_tail {k : String} {v : Json} {o : Object} (h : Ascending ((k, v) :: o)) : get? o k = none :=
  lookup_eq_none_of_notMem (List.nodup_cons.1 h.nodup).1

/-- Under distinct keys every field is found. -/
theorem get?_of_mem {o : Object} (h : (o.map (·.1)).Nodup) {f : String × Json} (hf : f ∈ o) :
    o.get? f.1 = some f.2 := by
  induction o with
  | nil => cases hf
  | cons g o ih =>
    obtain ⟨k, v⟩ := g
    rw [get?_cons]
    rcases List.mem_cons.1 hf with rfl | hf
    · rw [if_pos rfl]
    · have hne : f.1 ≠ k := fun heq => (List.nodup_cons.1 h).1 (heq ▸ List.mem_map.2 ⟨f, hf, rfl⟩)
      rw [if_neg hne, ih (List.nodup_cons.1 h).2 hf]

theorem Ascending.get?_of_mem {o : Object} (h : o.Ascending) {f : String × Json} (hf : f ∈ o) :
    o.get? f.1 = some f.2 := Object.get?_of_mem h.nodup hf

/-- An object in order is told by what its keys hold. -/
theorem Ascending.ext {a b : Object} (ha : a.Ascending) (hb : b.Ascending)
    (h : ∀ key, a.get? key = b.get? key) : a = b := by
  induction a generalizing b with
  | nil =>
    cases b with
    | nil => rfl
    | cons g b =>
      have hg := h g.1
      rw [get?_cons, if_pos rfl] at hg
      cases hg
  | cons f a ih =>
    obtain ⟨k, v⟩ := f
    have hk := h k
    rw [get?_cons, if_pos rfl] at hk
    cases b with
    | nil => cases hk
    | cons g b =>
      obtain ⟨l, w⟩ := g
      have hl := h l
      rw [get?_cons l w, if_pos rfl] at hl
      have hkl : k = l := by
        rcases Std.lt_trichotomy k l with hlt | heq | hlt
        · rw [hb.get?_eq_none hlt] at hk
          cases hk
        · exact heq
        · rw [ha.get?_eq_none hlt] at hl
          cases hl
      subst hkl
      rw [get?_cons, if_pos rfl] at hk
      cases hk
      congr 1
      refine ih (List.pairwise_cons.1 ha).2 (List.pairwise_cons.1 hb).2 fun key => ?_
      by_cases hkey : key = k
      · subst hkey
        rw [ha.get?_tail, hb.get?_tail]
      · have := h key
        rwa [get?_cons, get?_cons, if_neg hkey, if_neg hkey] at this

/-- Leaving fields out by their keys leaves out what these keys hold, and nothing else. -/
theorem get?_filter_keys (keep : String → Bool) (o : Object) (key : String) :
    Object.get? (o.filter fun f => keep f.1) key = if keep key then o.get? key else none := by
  induction o with
  | nil => simp [Object.get?]
  | cons f o ih =>
    obtain ⟨k, v⟩ := f
    rw [List.filter_cons, get?_cons]
    by_cases hkey : key = k
    · subst hkey
      by_cases hk : keep key
      · rw [if_pos hk, get?_cons, if_pos rfl, if_pos hk, if_pos rfl]
      · rw [if_neg hk, ih, if_neg hk, if_neg hk]
    · rw [if_neg hkey]
      split
      · rw [get?_cons, if_neg hkey, ih]
      · exact ih

theorem get?_without (o : Object) (names : List String) (key : String) :
    (Object.without o names).get? key = if key ∈ names then none else o.get? key := by
  rw [Object.without, get?_filter_keys fun k => !names.contains k]
  by_cases hkey : key ∈ names <;> simp [hkey]

/-- Fields that a reader passed on with what it did not know: in order, of canonical values, and under none
    of the names it knew. -/
structure Unnamed (names : List String) (o : Object) : Prop where
  canonical : IsCanonical (.obj o)
  apart : ∀ name ∈ names, o.get? name = none

theorem Unnamed.ascending {names : List String} {o : Object} (h : Unnamed names o) : o.Ascending :=
  (isCanonical_obj_iff.1 h.canonical).1

theorem unnamed_without {o : Object} (h : IsCanonical (.obj o)) (names : List String) :
    Unnamed names (Object.without o names) where
  canonical := by
    obtain ⟨hascending, hfields⟩ := isCanonical_obj_iff.1 h
    exact isCanonical_obj_iff.2 ⟨hascending.filter _, fun f hf => hfields f (List.mem_filter.1 hf).1⟩
  apart name hname := by rw [get?_without, if_pos hname]

end Object
end Json
end MessageFlow
