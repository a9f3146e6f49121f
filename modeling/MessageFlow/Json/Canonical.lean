import MessageFlow.Json.Basic

/-! Laws of fields and of the canonical form. Setting a key changes what is found under that key and
    nothing else, and keeps the keys ascending; putting fields in order keeps those that are in order
    already. So the canonical form is canonical, and a canonical value is its own. -/

namespace MessageFlow
namespace Json

/-! ### Fields -/

namespace Object

theorem get?_cons (k : String) (v : Json) (rest : Object) (key : String) :
    Object.get? ((k, v) :: rest) key = if key = k then some v else Object.get? rest key := by
  unfold Object.get?
  by_cases h : key = k
  · subst h
    rw [if_pos rfl, List.lookup_cons_self]
  · rw [if_neg h, List.lookup_cons, beq_eq_false_iff_ne.2 h]

/-- After a key is set, it holds the value and every other key what it held before. -/
theorem get?_insert (o : Object) (k : String) (v : Json) (key : String) :
    (o.insert k v).get? key = if key = k then some v else o.get? key := by
  induction o with
  | nil => exact get?_cons k v [] key
  | cons f rest ih =>
    obtain ⟨j, w⟩ := f
    simp only [insert]
    split
    · exact get?_cons k v _ key
    · split
      · rename_i hk
        subst hk
        rw [get?_cons, get?_cons]
        by_cases h : key = k
        · simp [h]
        · simp [h]
      · rename_i hk
        rw [get?_cons, get?_cons, ih]
        by_cases h : key = j
        · have hne : ¬key = k := fun h' => hk (h'.symm.trans h)
          rw [if_pos h, if_neg hne, if_pos h]
        · simp only [if_neg h]

theorem mem_keys_insert {o : Object} {k : String} {v : Json} {key : String} :
    key ∈ (o.insert k v).map (·.1) ↔ key = k ∨ key ∈ o.map (·.1) := by
  induction o with
  | nil => simp [insert]
  | cons f rest ih =>
    obtain ⟨j, w⟩ := f
    simp only [insert]
    split
    · simp
    · split
      · rename_i hk
        subst hk
        simp
      · simp only [List.map_cons, List.mem_cons, ih]
        exact or_left_comm

theorem Ascending.insert {o : Object} (h : o.Ascending) (k : String) (v : Json) :
    (o.insert k v).Ascending := by
  induction o with
  | nil => exact List.pairwise_singleton _ _
  | cons f rest ih =>
    obtain ⟨j, w⟩ := f
    obtain ⟨hj, hrest⟩ := List.pairwise_cons.1 h
    simp only [Object.insert]
    split
    · rename_i hlt
      refine List.pairwise_cons.2 ⟨fun key hkey => ?_, h⟩
      rcases List.mem_cons.1 hkey with rfl | hkey
      · exact hlt
      · exact String.lt_trans hlt (hj key hkey)
    · rename_i hge
      split
      · rename_i hk
        subst hk
        exact h
      · rename_i hne
        refine List.pairwise_cons.2 ⟨fun key hkey => ?_, ih hrest⟩
        rcases mem_keys_insert.1 hkey with rfl | hkey
        · exact Std.lt_of_le_of_ne (String.not_lt.1 hge) (Ne.symm hne)
        · exact hj key hkey

/-- A key above all others is set at the end. -/
theorem insert_eq_append {o : Object} {k : String} {v : Json} (h : ∀ j ∈ o.map (·.1), j < k) :
    o.insert k v = o ++ [(k, v)] := by
  induction o with
  | nil => rfl
  | cons f rest ih =>
    obtain ⟨j, w⟩ := f
    have hj : j < k := h j List.mem_cons_self
    simp only [insert, if_neg (String.lt_asymm hj), List.cons_append]
    rw [if_neg, ih fun i hi => h i (List.mem_cons_of_mem _ hi)]
    rintro rfl
    exact String.lt_irrefl _ hj

theorem ascending_foldl {l : List (String × Json)} {o : Object} (h : o.Ascending) :
    Ascending (l.foldl (fun o f => o.insert f.1 f.2) o) := by
  induction l generalizing o with
  | nil => exact h
  | cons f rest ih => exact ih (h.insert f.1 f.2)

theorem ascending_ofList (l : List (String × Json)) : (ofList l).Ascending :=
  ascending_foldl List.Pairwise.nil

theorem foldl_insert_eq_append {l o : Object} (h : Ascending (o ++ l)) :
    l.foldl (fun o f => o.insert f.1 f.2) o = o ++ l := by
  induction l generalizing o with
  | nil => simp
  | cons f rest ih =>
    obtain ⟨k, v⟩ := f
    have hk : o.insert k v = o ++ [(k, v)] := insert_eq_append fun j hj => by
      rw [Ascending, List.map_append, List.pairwise_append] at h
      exact h.2.2 j hj k (by simp)
    rw [List.foldl_cons, hk, ih (by simpa using h)]
    simp

/-- Fields in order stay as they are. -/
theorem ofList_eq_self {l : Object} (h : l.Ascending) : ofList l = l :=
  foldl_insert_eq_append (o := []) h

theorem get?_foldl_insert (l : List (String × Json)) (o : Object) (key : String) :
    Object.get? (l.foldl (fun o f => o.insert f.1 f.2) o) key = (l.reverse.lookup key).or (o.get? key) := by
  induction l generalizing o with
  | nil => simp
  | cons f rest ih =>
    obtain ⟨k, v⟩ := f
    rw [List.foldl_cons, ih, get?_insert, List.reverse_cons, List.lookup_append, Option.or_assoc]
    congr 1
    by_cases h : key = k
    · subst h
      simp
    · simp [List.lookup_cons, h, beq_eq_false_iff_ne.2 h]

/-- Of several fields under a key the last is found. -/
theorem get?_ofList (l : List (String × Json)) (key : String) :
    (ofList l).get? key = l.reverse.lookup key := by
  rw [ofList, get?_foldl_insert, Object.get?, List.lookup_nil, Option.or_none]

end Object

/-! ### Canonical values -/

theorem isCanonicalItems_iff {items : List Json} :
    IsCanonicalItems items ↔ ∀ v ∈ items, IsCanonical v := by
  induction items with
  | nil => simp [IsCanonicalItems]
  | cons v rest ih => simp [IsCanonicalItems, ih]

theorem isCanonicalFields_iff {fields : List (String × Json)} :
    IsCanonicalFields fields ↔ ∀ f ∈ fields, IsCanonical f.2 := by
  induction fields with
  | nil => simp [IsCanonicalFields]
  | cons f rest ih => simp [IsCanonicalFields, ih]

theorem isCanonical_arr_iff {items : List Json} :
    IsCanonical (.arr items) ↔ ∀ v ∈ items, IsCanonical v := by
  rw [IsCanonical, isCanonicalItems_iff]

theorem isCanonical_obj_iff {fields : Object} :
    IsCanonical (.obj fields) ↔ fields.Ascending ∧ ∀ f ∈ fields, IsCanonical f.2 := by
  rw [IsCanonical, isCanonicalFields_iff]

theorem Object.mem_of_mem_insert {o : Object} {k : String} {v : Json} {f : String × Json}
    (h : f ∈ o.insert k v) : f = (k, v) ∨ f ∈ o := by
  induction o with
  | nil => exact .inl (List.mem_singleton.1 h)
  | cons g rest ih =>
    obtain ⟨j, w⟩ := g
    simp only [Object.insert] at h
    split at h
    · exact List.mem_cons.1 h
    · split at h
      · exact (List.mem_cons.1 h).imp_right (List.mem_cons_of_mem _)
      · rcases List.mem_cons.1 h with rfl | h
        · exact .inr List.mem_cons_self
        · exact (ih h).imp_right (List.mem_cons_of_mem _)

theorem Object.mem_of_mem_ofList {l : List (String × Json)} {f : String × Json}
    (h : f ∈ Object.ofList l) : f ∈ l := by
  have key : ∀ (l : List (String × Json)) (o : Object),
      f ∈ l.foldl (fun o f => o.insert f.1 f.2) o → f ∈ l ∨ f ∈ o := by
    intro l
    induction l with
    | nil => exact fun o h => .inr h
    | cons g rest ih =>
      intro o h
      rcases ih _ h with h | h
      · exact .inl (List.mem_cons_of_mem _ h)
      · rcases mem_of_mem_insert h with rfl | h
        · exact .inl List.mem_cons_self
        · exact .inr h
  exact (key l [] h).resolve_right (List.not_mem_nil)

mutual

/-- The canonical form is canonical. -/
theorem isCanonical_canonical : ∀ v : Json, IsCanonical v.canonical
  | .null | .bool _ | .num _ | .str _ => by simp [canonical, IsCanonical]
  | .arr items => by
    simp only [canonical, IsCanonical]
    exact isCanonicalItems_canonicalItems items
  | .obj fields => by
    simp only [canonical, IsCanonical]
    refine ⟨Object.ascending_ofList _, isCanonicalFields_iff.2 fun f hf => ?_⟩
    exact isCanonicalFields_iff.1 (isCanonicalFields_canonicalFields fields) f
      (Object.mem_of_mem_ofList hf)

theorem isCanonicalItems_canonicalItems : ∀ items : List Json, IsCanonicalItems (canonicalItems items)
  | [] => trivial
  | v :: rest => ⟨isCanonical_canonical v, isCanonicalItems_canonicalItems rest⟩

theorem isCanonicalFields_canonicalFields :
    ∀ fields : List (String × Json), IsCanonicalFields (canonicalFields fields)
  | [] => trivial
  | (_, v) :: rest => ⟨isCanonical_canonical v, isCanonicalFields_canonicalFields rest⟩

end

mutual

/-- A canonical value is its own canonical form. -/
theorem canonical_eq_self : ∀ {v : Json}, IsCanonical v → v.canonical = v
  | .null, _ | .bool _, _ | .num _, _ | .str _, _ => by simp [canonical]
  | .arr items, h => by
    simp only [canonical, IsCanonical] at h ⊢
    rw [canonicalItems_eq_self h]
  | .obj fields, h => by
    simp only [canonical, IsCanonical] at h ⊢
    rw [canonicalFields_eq_self h.2, Object.ofList_eq_self h.1]

theorem canonicalItems_eq_self : ∀ {items : List Json}, IsCanonicalItems items → canonicalItems items = items
  | [], _ => rfl
  | _ :: _, h => by rw [canonicalItems, canonical_eq_self h.1, canonicalItems_eq_self h.2]

theorem canonicalFields_eq_self :
    ∀ {fields : List (String × Json)}, IsCanonicalFields fields → canonicalFields fields = fields
  | [], _ => rfl
  | (_, _) :: _, h => by rw [canonicalFields, canonical_eq_self h.1, canonicalFields_eq_self h.2]

end

end Json
end MessageFlow
