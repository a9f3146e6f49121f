import MessageFlow.Form.Template
import Mathlib.Data.List.Forall2

/-! What JSON reads as, said without the order in which a reader goes through it. A value reads as a record
    if every field reads as its part from what the value holds for the field: an object holds it under the
    field's name, a list at the field's place. -/

namespace MessageFlow

/-- What a value holds for a field: an object under the name, a list at the place. -/
def Json.at? (v : Json) (key : String) (place : Nat) : Option Json :=
  match v with
  | .obj fields => Json.Object.get? fields key
  | .arr items => items[place]?
  | _ => none

/-! ### Values -/

namespace Codec

section Reading
variable {α : Type} {c : Codec α} {v : Json} {a d : α}

theorem read_text_eq_ok_iff {s : String} : text.read v = .ok s ↔ v = .str s := by
  cases v <;> simp [text]

theorem read_optional_eq_ok_iff {o : Option α} : (optional c).read v = .ok o ↔
    (v = .null ∧ o = none) ∨ v ≠ .null ∧ ∃ a, c.read v = .ok a ∧ o = some a := by
  cases v with
  | null => simp [optional, eq_comm]
  | _ =>
    simp only [optional, reduceCtorEq, false_and, ne_eq, not_false_eq_true, true_and, false_or]
    cases c.read _ <;> simp [Except.map, eq_comm]

theorem read_nullAs_eq_ok_iff : (nullAs d c).read v = .ok a ↔
    (v = .null ∧ a = d) ∨ v ≠ .null ∧ c.read v = .ok a := by
  cases v <;> simp [nullAs, eq_comm]

theorem readItems_eq_ok_iff {read : Json → Except ReadError α} {items : List Json} {xs : List α} :
    readItems read items = .ok xs ↔ List.Forall₂ (fun v a => read v = .ok a) items xs := by
  induction items generalizing xs with
  | nil => simp [readItems, eq_comm]
  | cons v rest ih =>
    rw [readItems]
    cases hv : read v with
    | error e => simp [List.forall₂_cons_left_iff, hv]
    | ok a =>
      simp only [List.forall₂_cons_left_iff, hv, Except.ok.injEq, ← ih]
      cases readItems read rest <;> simp [Except.map, eq_comm]

theorem read_list_eq_ok_iff {xs : List α} : (list c).read v = .ok xs ↔
    ∃ items, v = .arr items ∧ List.Forall₂ (fun v a => c.read v = .ok a) items xs := by
  cases v <;> simp [list, readItems_eq_ok_iff]

end Reading

end Codec

/-! ### Fields -/

namespace Outcome

theorem toExcept_eq_ok_iff {α : Type} {o : Outcome α} {a : α} : o.toExcept = .ok a ↔ o = .read a := by
  cases o <;> simp [toExcept]

theorem join_eq_read_iff {α β : Type} {o : Outcome (β → α)} {p : Outcome β} {a : α} :
    o.join p = .read a ↔ ∃ g b, o = .read g ∧ p = .read b ∧ g b = a := by
  constructor
  · intro h
    cases o with
    | read g =>
      cases p with
      | read b => exact ⟨g, b, rfl, rfl, Outcome.read.inj h⟩
      | _ => cases h
    | missing k => cases p <;> cases h
    | failed k e =>
      cases p with
      | failed l d =>
        rw [join] at h
        split at h <;> cases h
      | _ => cases h
  · rintro ⟨g, b, rfl, rfl, rfl⟩
    rfl

end Outcome

namespace Field

/-- A field reads as a value from what is held for it. -/
def Reads {α : Type} (f : Field α) (held : Option Json) (a : α) : Prop :=
  match held with
  | some v => f.codec.read v = .ok a
  | none => f.absent = some a

theorem readIn_eq_read_iff {α : Type} {f : Field α} {fields : Json.Object} {a : α}
    (hf : f.alternative = none) : f.readIn fields = .read a ↔ f.Reads (fields.get? f.key) a := by
  rw [readIn, hf, Option.bind_none]
  cases fields.get? f.key with
  | some v =>
    simp only [readAt, Reads]
    cases f.codec.read v <;> simp
  | none =>
    simp only [Reads]
    cases f.absent <;> simp

end Field

/-! ### Records -/

namespace Schema
variable {σ α : Type}

def isPlain {α : Type} : Schema σ α → Bool
  | .build _ => true
  | .field before f _ => before.isPlain && f.alternative.isNone

/-- Every field reads as its part, from what is held under its name or at its place. -/
def Reads {α : Type} (held : String → Nat → Option Json) : Schema σ α → α → Prop
  | .build a, x => x = a
  | .field before f _, x =>
    ∃ g b, before.Reads held g ∧ f.Reads (held f.key before.size) b ∧ x = g b

theorem readFields_eq_read_iff {schema : Schema σ α} (h : schema.isPlain) {fields : Json.Object} {x : α} :
    schema.readFields fields = .read x ↔ schema.Reads (Json.obj fields).at? x := by
  induction schema with
  | build a => simp [readFields, Reads, eq_comm]
  | field before f get ih =>
    rw [isPlain, Bool.and_eq_true, Option.isNone_iff_eq_none] at h
    simp only [readFields, Reads, Outcome.join_eq_read_iff, ih h.1, Field.readIn_eq_read_iff h.2, Json.at?,
      @eq_comm _ x]

/-- The fields read from the front of a list, and leave the rest of it. -/
theorem readItems_eq_ok_iff {schema : Schema σ α} {short : Nat → ReadError} {items rest : List Json} {x : α} :
    schema.readItems short items = .ok (x, rest) ↔
      schema.Reads (Json.arr items).at? x ∧ rest = items.drop schema.size := by
  induction schema generalizing rest with
  | build a => simp [readItems, Reads, size, eq_comm]
  | @field α β before f get ih =>
    -- The fields before have taken one element each, so the head of what they leave is the field's own.
    have hhead : (Json.arr items).at? f.key before.size = (items.drop before.size).head? :=
      List.head?_drop.symm
    have htail : items.drop (before.size + 1) = (items.drop before.size).tail := List.tail_drop.symm
    rw [readItems, Reads, size, hhead, htail]
    cases hb : before.readItems short items with
    | error e =>
      simp only [reduceCtorEq, false_iff]
      rintro ⟨⟨g, b, hg, -⟩, -⟩
      rw [ih.2 ⟨hg, rfl⟩] at hb
      cases hb
    | ok r =>
      obtain ⟨g, left⟩ := r
      obtain ⟨hg, rfl⟩ := ih.1 hb
      have hunique : ∀ g', before.Reads (Json.arr items).at? g' ↔ g' = g := by
        refine fun g' => ⟨fun hg' => ?_, fun h => h ▸ hg⟩
        rw [ih.2 ⟨hg', rfl⟩] at hb
        exact (Prod.mk.inj (Except.ok.inj hb)).1
      simp only [hunique, exists_and_left, exists_eq_left]
      cases items.drop before.size with
      | nil => cases ha : f.absent <;> simp [Field.Reads, ha, eq_comm]
      | cons v left => cases hv : f.codec.read v <;> simp [Field.Reads, hv, eq_comm]

end Schema

namespace Record
variable {σ : Type} {r : Record σ} {x : σ}

theorem read_obj_eq_ok_iff (h : r.schema.isPlain) {fields : Json.Object} :
    r.read (.obj fields) = .ok x ↔ r.schema.Reads (Json.obj fields).at? x := by
  rw [read, Outcome.toExcept_eq_ok_iff, Schema.readFields_eq_read_iff h]

theorem read_arr_eq_ok_iff {items : List Json} : r.read (.arr items) = .ok x ↔
    r.schema.Reads (Json.arr items).at? x ∧ items.length ≤ r.schema.size := by
  rw [read]
  cases hr : r.schema.readItems (.tooFewItems · r.name r.schema.size) items with
  | error e =>
    simp only [reduceCtorEq, false_iff]
    rintro ⟨hx, -⟩
    rw [Schema.readItems_eq_ok_iff.2 ⟨hx, rfl⟩] at hr
    cases hr
  | ok p =>
    obtain ⟨y, left⟩ := p
    obtain ⟨hy, rfl⟩ := Schema.readItems_eq_ok_iff.1 hr
    have hunique : r.schema.Reads (Json.arr items).at? x ↔ y = x := by
      refine ⟨fun hx => ?_, fun h => h ▸ hy⟩
      rw [Schema.readItems_eq_ok_iff.2 ⟨hx, rfl⟩] at hr
      exact (Prod.mk.inj (Except.ok.inj hr)).1.symm
    rw [hunique, ← List.drop_eq_nil_iff]
    cases items.drop r.schema.size <;> simp

/-- A value that reads as a record is an object or a list, and each field reads from it. -/
theorem reads_of_read (h : r.schema.isPlain) {v : Json} (hv : r.read v = .ok x) : r.schema.Reads v.at? x := by
  cases v with
  | obj fields => exact (read_obj_eq_ok_iff h).1 hv
  | arr items => exact (read_arr_eq_ok_iff.1 hv).1
  | _ => cases hv

end Record

/-- Missing data is read like an object without fields, which holds nothing. -/
theorem Form.reads_of_ofData {α : Type} {r : Record α} (h : r.schema.isPlain) {data : Json} {x : α}
    (hx : Form.ofData r data = .ok x) : r.schema.Reads data.at? x := by
  cases data with
  | null =>
    have hr := Record.reads_of_read (v := .obj []) h hx
    exact hr
  | _ => exact Record.reads_of_read h hx

end MessageFlow
