import MessageFlow.Proofs.Schema.Stability

/-! What is written of a value that was read. A record reads more than it writes: a field that is missing is
    written with its default, one that is null may be left out, and the value of a field may be written in
    another form than it was read from. A table of edits tells all of this for a record; what stands under
    other keys is written as it was read. -/

namespace MessageFlow

/-! ### Objects with edits -/

namespace Json

/-- What stands under a key in place of what was held there. -/
abbrev Edit := Option Json → Option Json

namespace Edit

/-- The form in which a value was held. -/
def asHeld : Json → Json := id

/-- A default where nothing is held, else the value in another form. -/
def orElse (default : Json) (form : Json → Json) : Edit := fun held => some (held.elim default form)

/-- Nothing where null is held, else the value in another form. -/
def unlessNull (form : Json → Json) : Edit := fun held => (held.bind given).map form

/-- The edit for a key; without one what is held there stays. -/
def find (edits : List (String × Edit)) (key : String) : Edit := (edits.lookup key).getD id

theorem find_of_notMem {edits : List (String × Edit)} {key : String} (h : key ∉ edits.map (·.1)) :
    find edits key = id := by
  have hnone : edits.lookup key = none := by
    rw [List.lookup_eq_none_iff]
    exact fun e he => bne_iff_ne.2 fun heq => h (List.mem_map.2 ⟨e, he, heq.symm⟩)
  rw [find, hnone, Option.getD_none]

end Edit

namespace Object

/-- The fields with an edit under a key. -/
def alter (o : Object) (key : String) (edit : Edit) : Object :=
  match edit (o.get? key) with
  | some v => o.insert key v
  | none => o.erase key

/-- The fields with several edits. -/
def edit (o : Object) (edits : List (String × Edit)) : Object := edits.foldl (fun o e => o.alter e.1 e.2) o

theorem get?_alter (o : Object) (key : String) (edit : Edit) (k : String) :
    (o.alter key edit).get? k = if k = key then edit (o.get? key) else o.get? k := by
  rw [alter]
  split
  · next v hv => rw [get?_insert, hv]
  · next hv =>
    rw [erase, get?_filter_keys fun k => k != key, hv]
    by_cases hk : k = key <;> simp [hk]

theorem Ascending.alter {o : Object} (h : o.Ascending) (key : String) (edit : Edit) :
    (o.alter key edit).Ascending := by
  rw [Object.alter]
  split
  · exact h.insert _ _
  · exact h.filter _

theorem Ascending.edit {o : Object} (h : o.Ascending) (edits : List (String × Edit)) : (o.edit edits).Ascending := by
  induction edits generalizing o with
  | nil => exact h
  | cons e edits ih => exact ih (h.alter e.1 e.2)

/-- Edits under distinct keys do not meet. -/
theorem get?_edit {edits : List (String × Edit)} (hn : (edits.map (·.1)).Nodup) (o : Object) (key : String) :
    (o.edit edits).get? key = Edit.find edits key (o.get? key) := by
  induction edits generalizing o with
  | nil => rfl
  | cons e edits ih =>
    obtain ⟨k, edit⟩ := e
    rw [List.map_cons, List.nodup_cons] at hn
    rw [Object.edit, List.foldl_cons, ← Object.edit, ih hn.2, get?_alter]
    by_cases hk : key = k
    · subst hk
      rw [if_pos rfl, Edit.find_of_notMem hn.1, Edit.find, List.lookup_cons_self, Option.getD_some, id_eq]
    · rw [if_neg hk, Edit.find, Edit.find, List.lookup_cons, beq_eq_false_iff_ne.2 hk]

end Object

/-- An object with several edits; other values as they are. -/
def edited (edits : List (String × Edit)) : Json → Json
  | .obj fields => .obj (Object.edit fields edits)
  | v => v

end Json

/-! ### Codecs and fields -/

/-- What is written of a value in canonical form that was read. -/
def Codec.Returns {α : Type} (c : Codec α) (form : Json → Json) : Prop :=
  ∀ v a, v.IsCanonical → c.read v = .ok a → c.encode a = form v

namespace Codec

theorem returns_text : text.Returns Json.Edit.asHeld := by
  intro v s _ h
  rw [read_text_eq_ok_iff] at h
  rw [h]
  rfl

theorem returns_flag : flag.Returns Json.Edit.asHeld := by
  intro v b _ h
  cases v <;> cases h
  rfl

theorem returns_json : json.Returns Json.Edit.asHeld := by
  intro v w hv h
  cases h
  exact Json.canonical_eq_self hv

end Codec

namespace Field
variable {α : Type} {c : Codec α} {key : String} {form : Json → Json} {held : Option Json} {a d : α}

theorem written_required (hc : c.Returns Json.Edit.asHeld) (hv : ∀ v, held = some v → v.IsCanonical)
    (h : (required key c).Reads held a) : (required key c).written a = held := by
  cases held with
  | none => cases h
  | some v => exact congrArg some (hc v a (hv v rfl) h)

theorem written_withDefault (hc : c.Returns form) (hv : ∀ v, held = some v → v.IsCanonical)
    (h : (withDefault key c d).Reads held a) :
    (withDefault key c d).written a = Json.Edit.orElse (c.encode d) form held := by
  cases held with
  | none =>
    cases h
    rfl
  | some v => exact congrArg some (hc v a (hv v rfl) h)

theorem written_omitted {o : Option α} (hc : c.Returns form) (hv : ∀ v, held = some v → v.IsCanonical)
    (h : (omitted key c).Reads held o) : (omitted key c).written o = Json.Edit.unlessNull form held := by
  cases held with
  | none =>
    cases h
    rfl
  | some v =>
    obtain ⟨rfl, rfl⟩ | ⟨hne, a, ha, rfl⟩ := Codec.read_optional_eq_ok_iff.1 h
    · rfl
    · rw [Json.Edit.unlessNull, Option.bind_some, Json.given_of_ne_null hne, Option.map_some, ← hc v a (hv v rfl) ha]
      rfl

end Field

/-! ### Records -/

/-- What is written of a record holds under the keys of its fields what is told. -/
def Schema.WrittenAs {σ α : Type} (told : String → Option Json) (x : σ) : Schema σ α → Prop
  | .build _ => True
  | .field before f get => before.WrittenAs told x ∧ f.written (get x) = told f.key

theorem Schema.lookup_of_writtenAs {σ α : Type} {schema : Schema σ α} {told : String → Option Json} {x : σ}
    (hn : schema.names.Nodup) (hp : schema.isPlain) (h : schema.WrittenAs told x) {key : String}
    (hkey : key ∈ schema.names) : ((schema.writeFields x).lookup key).map Json.canonical = told key := by
  induction schema with
  | build a => cases hkey
  | field before f get ih =>
    rw [isPlain, Bool.and_eq_true, Option.isNone_iff_eq_none] at hp
    have hnames : f.names = [f.key] := by rw [Field.names, hp.2, Option.toList_none]
    rw [names, hnames] at hn hkey
    obtain ⟨hbefore, -, hdisjoint⟩ := List.nodup_append'.1 hn
    have hfresh : f.key ∉ before.names := fun hm => hdisjoint hm List.mem_cons_self
    rw [lookup_writeFields_field]
    rcases List.mem_append.1 hkey with hkey | hkey
    · have hne : key ≠ f.key := fun heq => hfresh (heq ▸ hkey)
      rw [if_neg hne, Option.or_none, ih hbefore hp.1 h.1 hkey]
    · rw [List.mem_singleton.1 hkey, lookup_writeFields_eq_none hfresh, Option.none_or, if_pos rfl, ← h.2, Field.written]
      split <;> rfl

namespace OpenRecord
variable {σ : Type} {r : OpenRecord σ} {x : σ} {fields : Json.Object} {edits : List (String × Json.Edit)}

theorem read_obj_eq_ok_iff (hp : r.schema.isPlain) : r.read (.obj fields) = .ok x ↔
    ∃ y, r.schema.Reads (Json.obj fields).at? y ∧ x = y (Json.Object.without fields r.schema.names) := by
  simp only [← Schema.readFields_eq_read_iff hp, ← Outcome.toExcept_eq_ok_iff]
  rw [read]
  cases (r.schema.readFields fields).toExcept <;> simp [eq_comm]

/-- A record that was read is written with the edits under the keys of its fields, and all else as it was. -/
theorem encode_eq_edit (hv : Json.IsCanonical (.obj fields)) (hn : r.schema.names.Nodup) (hp : r.schema.isPlain)
    (hedits : (edits.map (·.1)).Nodup ∧ edits.map (·.1) ⊆ r.schema.names)
    (hextra : r.extra x = Json.Object.without fields r.schema.names)
    (h : r.schema.WrittenAs (fun key => Json.Edit.find edits key (fields.get? key)) x) :
    r.codec.encode x = .obj (fields.edit edits) := by
  have hunnamed : Json.Object.Unnamed r.schema.names (r.extra x) := hextra ▸ Json.Object.unnamed_without hv _
  have hcanonical : (r.codec.encode x).IsCanonical := Json.isCanonical_canonical _
  have hget := get?_encode hn hunnamed
  rw [encode_eq] at hcanonical hget ⊢
  refine congrArg Json.obj (Json.Object.Ascending.ext (Json.isCanonical_obj_iff.1 hcanonical).1
    ((Json.isCanonical_obj_iff.1 hv).1.edit edits) fun key => (hget key).trans ?_)
  rw [Json.Object.get?_edit hedits.1]
  split
  · next hkey => exact Schema.lookup_of_writtenAs hn hp h hkey
  · next hkey =>
    have hnone : key ∉ edits.map (·.1) := fun hm => hkey (hedits.2 hm)
    rw [hextra, Json.Object.get?_without, if_neg hkey, Json.Edit.find_of_notMem hnone, id_eq]

end OpenRecord
end MessageFlow
