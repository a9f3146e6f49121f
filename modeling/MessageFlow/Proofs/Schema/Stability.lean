import MessageFlow.Proofs.Json.Objects

/-! What reads from JSON is written so that it reads again, as itself. JSON is taken in canonical form, as
    a reader of text leaves it. A value of a record then holds for each field either the default or what
    read from a value in canonical form, and the fields that a record does not know are in order and share
    no name with those it knows; written and put into canonical form, all of them are found again. -/

namespace MessageFlow

/-! ### Records with further fields -/

namespace OpenRecord
variable {σ : Type} {r : OpenRecord σ} {x : σ} {y : Json.Object → σ}

theorem nodup_keys (hn : r.schema.names.Nodup) (hx : Json.Object.Unnamed r.schema.names (r.extra x)) :
    ((r.schema.writeFields x ++ r.extra x).map (·.1)).Nodup := by
  rw [List.map_append]
  refine List.nodup_append'.2 ⟨hn.sublist (r.schema.keys_writeFields_sublist x), hx.ascending.nodup, ?_⟩
  intro key hkey hextra
  have hnone := hx.apart key ((r.schema.keys_writeFields_sublist x).subset hkey)
  rw [Json.Object.get?, List.lookup_eq_none_iff] at hnone
  obtain ⟨f, hf, rfl⟩ := List.mem_map.1 hextra
  exact absurd (hnone f hf) (by simp)

theorem encode_eq (r : OpenRecord σ) (x : σ) : r.codec.encode x =
    .obj (Json.Object.ofList (Json.canonicalFields (r.schema.writeFields x ++ r.extra x))) := by
  simp only [Codec.encode, codec, Json.canonical]

theorem read_obj_of_readFields {fields : Json.Object} (h : r.schema.readFields fields = .read y) :
    r.read (.obj fields) = .ok (y (Json.Object.without fields r.schema.names)) := by
  rw [read, h, Outcome.toExcept]

/-- A record that is written holds its own fields and the further ones. -/
theorem get?_encode (hn : r.schema.names.Nodup) (hx : Json.Object.Unnamed r.schema.names (r.extra x)) (key : String) :
    (r.codec.encode x).get? key =
      if key ∈ r.schema.names then ((r.schema.writeFields x).lookup key).map Json.canonical
      else (r.extra x).get? key := by
  rw [encode_eq, Json.get?, Json.Object.get?_canonical (nodup_keys hn hx), List.lookup_append]
  split
  · next hkey =>
    have hnone : (r.extra x).lookup key = none := hx.apart key hkey
    rw [hnone, Option.or_none]
  · next hkey =>
    rw [Schema.lookup_writeFields_eq_none hkey, Option.none_or]
    cases hv : (r.extra x).lookup key with
    | none => exact hv.symm
    | some v => rw [Option.map_some, Json.canonical_eq_self (hx.canonical.of_get? hv), ← hv]; rfl

/-- Where no two fields share a name, a record reads again with the further fields that it had. -/
theorem read_encode (hn : r.schema.names.Nodup) (hx : Json.Object.Unnamed r.schema.names (r.extra x))
    (h : r.schema.Restores x y) : r.codec.read (r.codec.encode x) = .ok (y (r.extra x)) := by
  obtain ⟨fields, hfields⟩ : ∃ fields, r.codec.encode x = .obj fields := ⟨_, encode_eq r x⟩
  have hget : ∀ key, Json.Object.get? fields key = (r.codec.encode x).get? key := by
    intro key
    rw [hfields, Json.get?]
  have hread : r.schema.readFields fields = .read y := by
    refine Schema.readFields_of_restores hn (fun name hname => ?_) h
    rw [hget, get?_encode hn hx, if_pos hname]
  have hextra : Json.Object.without fields r.schema.names = r.extra x := by
    have hcanonical : Json.IsCanonical (.obj fields) := hfields ▸ Json.isCanonical_canonical _
    refine Json.Object.Ascending.ext (Json.Object.unnamed_without hcanonical _).ascending hx.ascending fun key => ?_
    rw [Json.Object.get?_without, hget, get?_encode hn hx]
    split
    · next hkey => exact (hx.apart key hkey).symm
    · rfl
  rw [hfields]
  exact (read_obj_of_readFields hread).trans (by rw [hextra])

theorem keeps (hn : r.schema.names.Nodup) (hx : Json.Object.Unnamed r.schema.names (r.extra x))
    (h : r.schema.Restores x y) (hy : y (r.extra x) = x) : r.codec.Keeps x := by
  refine ⟨by simp [encode_eq], ?_⟩
  rw [read_encode hn hx h, hy]

end OpenRecord

/-! ### Values that were read -/

/-- What reads from a value in canonical form is kept. -/
def Codec.Stable {α : Type} (c : Codec α) : Prop := ∀ v a, v.IsCanonical → c.read v = .ok a → c.Keeps a

/-- The value of a field that was read: its default, or what read from a value in canonical form. -/
def Field.Arises {α : Type} (f : Field α) (a : α) : Prop :=
  f.absent = some a ∨ ∃ v, v.IsCanonical ∧ f.codec.read v = .ok a

/-- A value built from fields that were read. -/
def Schema.Arises {σ α : Type} : Schema σ α → α → Prop
  | .build a, x => x = a
  | .field before f _, x => ∃ g b, before.Arises g ∧ f.Arises b ∧ x = g b

section Arising
variable {σ α : Type}

theorem Field.arises_of_readIn {f : Field α} {fields : Json.Object} {a : α}
    (hv : Json.IsCanonical (.obj fields)) (h : f.readIn fields = .read a) : f.Arises a := by
  have hread : ∀ {key name : String} {v : Json}, fields.get? key = some v → f.readAt name v = .read a →
      f.Arises a := by
    intro key name v hkey h
    rw [Field.readAt] at h
    cases hr : f.codec.read v with
    | error e => simp [hr] at h
    | ok b =>
      rw [hr] at h
      cases h
      exact .inr ⟨v, hv.of_get? hkey, hr⟩
  rw [Field.readIn] at h
  split at h
  · next hkey _ => exact hread hkey h
  · next name v _ hname =>
    obtain ⟨other, -, hother⟩ := Option.bind_eq_some_iff.1 hname
    obtain ⟨w, hw, hpair⟩ := Option.map_eq_some_iff.1 hother
    cases hpair
    exact hread hw h
  · split at h
    · cases h
    · next hne => exact absurd h (hne a)
  · split at h
    · next b hb =>
      cases h
      exact .inl hb
    · cases h

theorem Schema.arises_of_readFields {schema : Schema σ α} {fields : Json.Object} {x : α}
    (hv : Json.IsCanonical (.obj fields)) (h : schema.readFields fields = .read x) : schema.Arises x := by
  induction schema with
  | build a => exact (Outcome.read.inj h).symm
  | field before f get ih =>
    obtain ⟨g, b, hg, hb, rfl⟩ := Outcome.join_eq_read_iff.1 h
    exact ⟨g, b, ih hg, f.arises_of_readIn hv hb, rfl⟩

theorem Schema.arises_of_readItems {schema : Schema σ α} {items : List Json} {x : α}
    (hv : Json.IsCanonical (.arr items)) (h : schema.Reads (Json.arr items).at? x) : schema.Arises x := by
  induction schema with
  | build a => exact h
  | field before f get ih =>
    obtain ⟨g, b, hg, hb, rfl⟩ := h
    refine ⟨g, b, ih hg, ?_, rfl⟩
    change Field.Reads f items[before.size]? b at hb
    cases hitem : items[before.size]? with
    | none =>
      rw [hitem] at hb
      exact .inl hb
    | some v =>
      rw [hitem] at hb
      exact .inr ⟨v, Json.isCanonical_arr_iff.1 hv v (List.mem_of_getElem? hitem), hb⟩

theorem Record.arises_of_read {r : Record σ} {v : Json} {x : σ} (hv : v.IsCanonical) (h : r.read v = .ok x) :
    r.schema.Arises x := by
  cases v with
  | obj fields => exact Schema.arises_of_readFields hv (Outcome.toExcept_eq_ok_iff.1 h)
  | arr items => exact Schema.arises_of_readItems hv (Record.read_arr_eq_ok_iff.1 h).1
  | _ => cases h

theorem OpenRecord.arises_of_read {r : OpenRecord σ} {v : Json} {x : σ} (hv : v.IsCanonical)
    (h : r.read v = .ok x) :
    ∃ y extra, r.schema.Arises y ∧ Json.Object.Unnamed r.schema.names extra ∧ x = y extra := by
  cases v with
  | obj fields =>
    rw [OpenRecord.read] at h
    split at h
    · cases h
    · next y hy =>
      cases h
      exact ⟨y, _, Schema.arises_of_readFields hv (Outcome.toExcept_eq_ok_iff.1 hy),
        Json.Object.unnamed_without hv _, rfl⟩
  | _ => cases h

end Arising

/-! ### Codecs that keep what they read -/

namespace Codec
variable {α : Type} {c : Codec α}

theorem stable_double : double.Stable := by
  intro v a _ h
  cases v with
  | num n =>
    cases h
    exact ⟨by simp [encode, double, Json.canonical], rfl⟩
  | _ => cases h

/-- Every element of a list that was read is read from a value of its own. -/
theorem exists_read_of_mem_list {v : Json} {xs : List α} {a : α} (hv : v.IsCanonical)
    (h : (list c).read v = .ok xs) (ha : a ∈ xs) : ∃ w : Json, w.IsCanonical ∧ c.read w = .ok a := by
  obtain ⟨items, rfl, hitems⟩ := read_list_eq_ok_iff.1 h
  have hall : ∀ w ∈ items, w.IsCanonical := Json.isCanonical_arr_iff.1 hv
  clear h hv
  induction hitems with
  | nil => cases ha
  | @cons w b items xs hb _ ih =>
    obtain ⟨hw, hall⟩ := List.forall_mem_cons.1 hall
    rcases List.mem_cons.1 ha with rfl | ha
    · exact ⟨w, hw, hb⟩
    · exact ih ha hall

end Codec

namespace Field
variable {α : Type} {c : Codec α} {key : String} {a d : α}

theorem keeps_of_required (hc : c.Stable) (h : (required key c).Arises a) : c.Keeps a := by
  obtain ⟨⟨⟩⟩ | ⟨v, hv, h⟩ := h
  exact hc v a hv h

theorem keeps_of_withDefault (hc : c.Stable) (hd : c.Keeps d) (h : (withDefault key c d).Arises a) : c.Keeps a := by
  obtain ⟨⟨⟩⟩ | ⟨v, hv, h⟩ := h
  · exact hd
  · exact hc v a hv h

/-- An optional value that was read is kept, where the codec keeps what it reads from values other than null. -/
theorem keeps_of_optional {o : Option α} (hc : ∀ v a, v.IsCanonical → v ≠ .null → c.read v = .ok a → c.Keeps a)
    (h : (optional key c).Arises o) : ∀ a, o = some a → c.Keeps a := by
  rintro a rfl
  obtain h | ⟨v, hv, h⟩ := h
  · cases h
  · obtain ⟨-, h⟩ | ⟨hne, b, hb, h⟩ := Codec.read_optional_eq_ok_iff.1 h
    · cases h
    · cases h
      exact hc v a hv hne hb

theorem keeps_of_omitted {o : Option α} (hc : c.Stable) (h : (omitted key c).Arises o) :
    ∀ a, o = some a → c.Keeps a :=
  @keeps_of_optional α c key o (fun v a hv _ => hc v a hv) h

theorem reads_required (h : c.Keeps a) : (required key c).Reads ((required key c).written a) a := h.2

theorem reads_withDefault (h : c.Keeps a) : (withDefault key c d).Reads ((withDefault key c d).written a) a := h.2

end Field

/-! ### Values without a type of their own -/

/-- An optional value as a reader leaves it: it is not null, and in canonical form. -/
def Json.Kept (o : Option Json) : Prop := ∀ v, o = some v → Codec.json.Keeps v

theorem Codec.keeps_json {v : Json} (hv : v.IsCanonical) (hne : v ≠ .null) : json.Keeps v := by
  have hencode : json.encode v = v := Json.canonical_eq_self hv
  exact ⟨hencode.symm ▸ hne, congrArg json.read hencode⟩

theorem Field.kept_of_optional {key : String} {o : Option Json} (h : (optional key .json).Arises o) : Json.Kept o := by
  refine keeps_of_optional (fun v a hv hne hread => ?_) h
  cases hread
  exact Codec.keeps_json hv hne

theorem Field.kept_of_omitted {key : String} {o : Option Json} (h : (omitted key .json).Arises o) : Json.Kept o :=
  @kept_of_optional key o h

theorem Codec.encode_list_json {items : List Json} (h : ∀ v ∈ items, v.IsCanonical) :
    (list json).encode items = .arr items := by
  have hwrite : (list json).write items = .arr items := congrArg Json.arr (List.map_id items)
  rw [encode, hwrite, Json.canonical_eq_self (Json.isCanonical_arr_iff.2 h)]

/-- A list of canonical values is kept, whether there are nulls among them or not. -/
theorem Codec.keeps_list_json {items : List Json} (h : ∀ v ∈ items, v.IsCanonical) : (list json).Keeps items := by
  rw [Keeps, encode_list_json h]
  exact ⟨by simp, read_list_eq_ok_iff.2 ⟨items, rfl, List.forall₂_same.2 fun _ _ => rfl⟩⟩

end MessageFlow
