import MessageFlow.Json.Canonical
import MessageFlow.Proofs.Schema.Reading
import Mathlib.Data.List.Nodup

/-! What is written reads again. A record is written as an object with its fields, without those that are
    hidden, and kept in canonical form; as no two fields share a name, every field finds there what was
    written for it, and a field that was hidden finds nothing. -/

namespace MessageFlow

/-! ### Fields in order -/

namespace Json

/-- The value, or none if it is null. -/
def given : Json → Option Json
  | .null => none
  | v => some v

theorem given_of_ne_null {v : Json} (h : v ≠ .null) : v.given = some v := by
  cases v with
  | null => exact absurd rfl h
  | _ => rfl

@[simp] theorem ofOption_given (v : Json) : ofOption v.given = v := by
  cases v <;> rfl

theorem canonicalItems_eq_map (items : List Json) : canonicalItems items = items.map canonical := by
  induction items with
  | nil => rfl
  | cons v rest ih => rw [canonicalItems, ih, List.map_cons]

theorem canonical_arr (items : List Json) : (arr items).canonical = .arr (items.map canonical) := by
  rw [canonical, canonicalItems_eq_map]

theorem canonical_canonical (v : Json) : v.canonical.canonical = v.canonical :=
  canonical_eq_self (isCanonical_canonical v)

theorem canonicalFields_eq_map (fields : List (String × Json)) :
    canonicalFields fields = fields.map fun f => (f.1, f.2.canonical) := by
  induction fields with
  | nil => rfl
  | cons f rest ih => rw [canonicalFields, ih, List.map_cons]

namespace Object

theorem lookup_eq_none_of_notMem {l : List (String × Json)} {key : String} (h : key ∉ l.map (·.1)) :
    l.lookup key = none := by
  induction l with
  | nil => rfl
  | cons f rest ih =>
    rw [List.map_cons, List.mem_cons, not_or] at h
    rw [List.lookup_cons, beq_eq_false_iff_ne.2 h.1]
    exact ih h.2

theorem lookup_reverse {l : List (String × Json)} (h : (l.map (·.1)).Nodup) (key : String) :
    l.reverse.lookup key = l.lookup key := by
  induction l with
  | nil => rfl
  | cons f rest ih =>
    obtain ⟨k, v⟩ := f
    rw [List.map_cons, List.nodup_cons] at h
    rw [List.reverse_cons, List.lookup_append, ih h.2]
    by_cases hk : key = k
    · subst hk
      rw [lookup_eq_none_of_notMem h.1, Option.none_or, List.lookup_cons_self, List.lookup_cons_self]
    · simp [List.lookup_cons, beq_eq_false_iff_ne.2 hk]

/-- Under keys that are all distinct, putting fields in order loses none. -/
theorem get?_canonical {l : List (String × Json)} (h : (l.map (·.1)).Nodup) (key : String) :
    (ofList (canonicalFields l)).get? key = (l.lookup key).map canonical := by
  have hkeys : ((canonicalFields l).map (·.1)).Nodup := by
    rw [canonicalFields_eq_map, List.map_map]
    exact h
  rw [get?_ofList, lookup_reverse hkeys, canonicalFields_eq_map]
  clear h hkeys
  induction l with
  | nil => rfl
  | cons f rest ih =>
    rw [List.map_cons, List.lookup_cons, List.lookup_cons, ih]
    split <;> rfl

end Object

end Json

/-! ### Values that are kept -/

namespace Codec

/-- The value is not written as null, and reads as itself once it is written. -/
def Keeps {α : Type} (c : Codec α) (a : α) : Prop := c.encode a ≠ .null ∧ c.read (c.encode a) = .ok a

theorem keeps_text (s : String) : text.Keeps s := ⟨nofun, rfl⟩

theorem keeps_flag (b : Bool) : flag.Keeps b := ⟨nofun, rfl⟩

theorem keeps_list {α : Type} {c : Codec α} {xs : List α} (h : ∀ a ∈ xs, c.Keeps a) : (list c).Keeps xs := by
  have hencode : (list c).encode xs = .arr (xs.map c.encode) := by
    simp only [encode, list, Json.canonical, Json.canonicalItems_eq_map, List.map_map]
    rfl
  rw [Keeps, hencode, read_list_eq_ok_iff]
  refine ⟨by simp, _, rfl, ?_⟩
  rw [List.forall₂_map_left_iff]
  exact List.forall₂_same.2 fun a ha => (h a ha).2

end Codec

namespace Field

/-- What a record that is written holds for a field. -/
def written {α : Type} (f : Field α) (a : α) : Option Json :=
  if f.hidden a then none else some (f.codec.encode a)

section Written
variable {α : Type} {c : Codec α} {key : String}

theorem reads_nullable {a d : α} (h : c.Keeps a) :
    (nullable key c d).Reads ((nullable key c d).written a) a :=
  Codec.read_nullAs_eq_ok_iff.2 (.inr h)

theorem reads_optional {o : Option α} (h : ∀ a, o = some a → c.Keeps a) :
    (optional key c).Reads ((optional key c).written o) o := by
  refine Codec.read_optional_eq_ok_iff.2 ?_
  cases o with
  | none => exact .inl ⟨rfl, rfl⟩
  | some a => exact .inr ⟨(h a rfl).1, a, (h a rfl).2, rfl⟩

theorem reads_omitted {o : Option α} (h : ∀ a, o = some a → c.Keeps a) :
    (omitted key c).Reads ((omitted key c).written o) o := by
  cases o with
  | none => rfl
  | some a => exact @reads_optional α c key (some a) h

theorem reads_optional_json (o : Option Json) :
    (optional key .json).Reads ((optional key .json).written o) (Json.ofOption o).canonical.given := by
  cases o with
  | none => rfl
  | some v =>
    show (Codec.optional .json).read v.canonical = .ok v.canonical.given
    cases v.canonical <;> rfl

theorem reads_omitted_json (o : Option Json) :
    (omitted key .json).Reads ((omitted key .json).written o) (Json.ofOption o).canonical.given := by
  cases o with
  | none => rfl
  | some v => exact @reads_optional_json key (some v)

end Written

theorem readIn_of_reads {α : Type} {f : Field α} {fields : Json.Object} {a : α}
    (h : f.Reads (fields.get? f.key) a) (ha : ∀ name, f.alternative = some name → fields.get? name = none) :
    f.readIn fields = .read a := by
  have hnone : (f.alternative.bind fun name => (fields.get? name).map (name, ·)) = none := by
    cases hf : f.alternative with
    | none => rfl
    | some name => simp [ha name hf]
  rw [readIn, hnone]
  cases hv : fields.get? f.key with
  | none =>
    rw [hv] at h
    simp only [show f.absent = some a from h]
  | some v =>
    rw [hv] at h
    simp only [readAt, show f.codec.read v = .ok a from h]

end Field

/-! ### Records that are kept -/

namespace Schema
variable {σ α : Type}

/-- From what is written of `x`, field by field, `y` is built. -/
def Restores {α : Type} (x : σ) : Schema σ α → α → Prop
  | .build a, y => y = a
  | .field before f get, y =>
    ∃ g b, before.Restores x g ∧ f.Reads (f.written (get x)) b ∧ y = g b

theorem keys_writeFields_sublist (schema : Schema σ α) (x : σ) :
    ((schema.writeFields x).map (·.1)).Sublist schema.names := by
  induction schema with
  | build a => exact .slnil
  | field before f get ih =>
    rw [writeFields, names, List.map_append]
    refine ih.append ?_
    split
    · exact List.nil_sublist _
    · exact (List.nil_sublist _).cons_cons _

theorem lookup_writeFields_eq_none {schema : Schema σ α} {x : σ} {key : String} (h : key ∉ schema.names) :
    (schema.writeFields x).lookup key = none :=
  Json.Object.lookup_eq_none_of_notMem fun hkey => h ((schema.keys_writeFields_sublist x).subset hkey)

theorem lookup_writeFields_field {α β : Type} (before : Schema σ (β → α)) (f : Field β) (get : σ → β) (x : σ)
    (name : String) : (writeFields (before.field f get) x).lookup name =
      ((before.writeFields x).lookup name).or (if name = f.key then
        if f.hidden (get x) then none else some (f.codec.write (get x)) else none) := by
  rw [writeFields, List.lookup_append]
  congr 1
  by_cases hh : f.hidden (get x)
  · simp [hh]
  · rw [if_neg hh, if_neg hh]
    exact Json.Object.get?_cons _ _ [] name

/-- An object that holds what was written, and nothing else under the names of the fields, reads again. -/
theorem readFields_of_restores {schema : Schema σ α} {x : σ} {y : α} {fields : Json.Object}
    (hn : schema.names.Nodup)
    (hf : ∀ name ∈ schema.names, fields.get? name = ((schema.writeFields x).lookup name).map Json.canonical)
    (h : schema.Restores x y) : schema.readFields fields = .read y := by
  induction schema with
  | build a => exact congrArg Outcome.read h.symm
  | field before f get ih =>
    obtain ⟨g, b, hg, hb, rfl⟩ := h
    rw [names, Field.names, List.nodup_append'] at hn
    obtain ⟨hbefore, hfield, hdisjoint⟩ := hn
    -- No field before has this field's names, so under its key stands what it wrote, and else nothing.
    have hkey : f.key ∉ before.names := fun hm => hdisjoint hm List.mem_cons_self
    have hgiven : fields.get? f.key = f.written (get x) := by
      rw [hf _ (List.mem_append_right _ List.mem_cons_self), lookup_writeFields_field,
        lookup_writeFields_eq_none hkey, Option.none_or, if_pos rfl, Field.written]
      split <;> rfl
    have halternative : ∀ name, f.alternative = some name → fields.get? name = none := by
      intro name hname
      have hmem : name ∈ f.key :: f.alternative.toList := by simp [hname]
      rw [hf _ (List.mem_append_right _ hmem), lookup_writeFields_field,
        lookup_writeFields_eq_none fun hm => hdisjoint hm hmem, Option.none_or, if_neg]
      · rfl
      · rintro rfl
        simp [hname] at hfield
    rw [readFields, ih hbefore (fun name hname => ?_) hg,
      Field.readIn_of_reads (hgiven ▸ hb) halternative]
    · rfl
    · rw [hf _ (List.mem_append_left _ hname), lookup_writeFields_field, if_neg, Option.or_none]
      rintro rfl
      exact hkey hname

end Schema

namespace Record
variable {σ : Type} {r : Record σ} {x y : σ}

theorem nodup_keys_writeFields (hn : r.schema.names.Nodup) (x : σ) :
    ((r.schema.writeFields x).map (·.1)).Nodup :=
  hn.sublist (r.schema.keys_writeFields_sublist x)

/-- Where no two fields share a name, a record reads again as what its fields are restored to. -/
theorem read_encode (hn : r.schema.names.Nodup) (h : r.schema.Restores x y) :
    r.codec.read (r.codec.encode x) = .ok y := by
  have hobj : r.codec.encode x = .obj (Json.Object.ofList (Json.canonicalFields (r.schema.writeFields x))) := by
    simp only [Codec.encode, codec, Json.canonical]
  have hread : r.schema.readFields (Json.Object.ofList (Json.canonicalFields (r.schema.writeFields x))) =
      .read y :=
    Schema.readFields_of_restores hn
      (fun name _ => Json.Object.get?_canonical (nodup_keys_writeFields hn x) name) h
  rw [hobj]
  show (r.schema.readFields _).toExcept = .ok y
  rw [hread, Outcome.toExcept]

theorem keeps (hn : r.schema.names.Nodup) (h : r.schema.Restores x x) : r.codec.Keeps x :=
  ⟨by simp [Codec.encode, codec, Json.canonical], read_encode hn h⟩

/-- A record holds nothing under a name that is none of its fields'. -/
theorem get?_encode_eq_none (hn : r.schema.names.Nodup) {key : String} (hkey : key ∉ r.schema.names) :
    (r.codec.encode x).get? key = none := by
  simp only [Codec.encode, codec, Json.canonical, Json.get?]
  rw [Json.Object.get?_canonical (nodup_keys_writeFields hn x), Schema.lookup_writeFields_eq_none hkey,
    Option.map_none]

end Record
end MessageFlow
