import MessageFlow.Schema.Codec

/-! Records: types whose values are written as objects with known fields.

    A `Schema` lists the fields of a record in the order in which they are written and says how a value
    is built from them; reading and writing are both read off it. An object is read field by field; if
    several fields do not read, the one with the least key is reported, and only if all read that are
    there, the first required field that is not. A record without further fields can also be given as a
    list of its fields in order. A record with further fields keeps those it does not know. -/

namespace MessageFlow

/-- A field of a record. -/
structure Field (α : Type) where
  key : String
  /-- A second name under which the field is read; its key is the greater of the two. -/
  alternative : Option String
  codec : Codec α
  /-- What the field reads as where it is missing; `none` if it is required. -/
  absent : Option α
  /-- The values that are not written. -/
  hidden : α → Bool

namespace Field

/-- A field that must be there. -/
def required {α : Type} (key : String) (codec : Codec α) : Field α :=
  ⟨key, none, codec, none, fun _ => false⟩

/-- A field that reads as a fixed value where it is missing. -/
def withDefault {α : Type} (key : String) (codec : Codec α) (default : α) : Field α :=
  ⟨key, none, codec, some default, fun _ => false⟩

/-- A field that reads as a fixed value where it is missing or null. -/
def nullable {α : Type} (key : String) (codec : Codec α) (default : α) : Field α :=
  ⟨key, none, .nullAs default codec, some default, fun _ => false⟩

/-- A field that may be missing or null, and is written as null where there is no value. -/
def optional {α : Type} (key : String) (codec : Codec α) : Field (Option α) :=
  ⟨key, none, .optional codec, some none, fun _ => false⟩

/-- A field that may be missing or null, and is not written where there is no value. -/
def omitted {α : Type} (key : String) (codec : Codec α) : Field (Option α) :=
  ⟨key, none, .optional codec, some none, Option.isNone⟩

/-- The field under a second name too. -/
def orNamed {α : Type} (f : Field α) (name : String) : Field α := { f with alternative := some name }

/-- All names of the field. -/
def names {α : Type} (f : Field α) : List String := f.key :: f.alternative.toList

end Field

/-! ### Outcomes -/

/-- What comes of reading fields. -/
inductive Outcome (α : Type) where
  | read (value : α)
  | missing (key : String)
  | failed (key : String) (error : ReadError)

namespace Outcome

/-- Joins two outcomes: a field that does not read wins over one that is missing, among those that do
    not read the one with the lesser key, among those missing the first. -/
def join {α β : Type} : Outcome (β → α) → Outcome β → Outcome α
  | .read g, .read b => .read (g b)
  | .failed k e, .failed l d => if l < k then .failed l d else .failed k e
  | .failed k e, _ => .failed k e
  | _, .failed l d => .failed l d
  | .missing k, _ => .missing k
  | .read _, .missing l => .missing l

/-- The value, or why there is none. -/
def toExcept {α : Type} : Outcome α → Except ReadError α
  | .read a => .ok a
  | .missing key => .error (.missing key)
  | .failed _ e => .error e

end Outcome

/-- Reads the value of a field that stands under a name. -/
def Field.readAt {α : Type} (f : Field α) (name : String) (v : Json) : Outcome α :=
  match f.codec.read v with
  | .ok a => .read a
  | .error e => .failed name e

/-- Reads a field of an object. -/
def Field.readIn {α : Type} (f : Field α) (fields : Json.Object) : Outcome α :=
  match fields.get? f.key, f.alternative.bind fun name => (fields.get? name).map (name, ·) with
  | some v, none => f.readAt f.key v
  | none, some (name, v) => f.readAt name v
  | some v, some (name, _) =>
    match f.readAt f.key v with
    | .read _ => .failed name (.repeated f.key)
    | outcome => outcome
  | none, none =>
    match f.absent with
    | some a => .read a
    | none => .missing f.key

/-! ### Schemas -/

/-- How an `α` is built from fields of a record of type `σ`. -/
inductive Schema (σ : Type) : Type → Type 1 where
  | build {α : Type} (a : α) : Schema σ α
  | field {α β : Type} (before : Schema σ (β → α)) (f : Field β) (get : σ → β) : Schema σ α

namespace Schema

variable {σ : Type}

/-- How many fields there are. -/
def size {α : Type} : Schema σ α → Nat
  | .build _ => 0
  | .field before _ _ => before.size + 1

/-- The names of all fields. -/
def names {α : Type} : Schema σ α → List String
  | .build _ => []
  | .field before f _ => before.names ++ f.names

/-- The fields of a record, in order, but for those that are hidden. -/
def writeFields {α : Type} : Schema σ α → σ → List (String × Json)
  | .build _, _ => []
  | .field before f get, x =>
    before.writeFields x ++ if f.hidden (get x) then [] else [(f.key, f.codec.write (get x))]

/-- Reads the fields of an object. -/
def readFields {α : Type} : Schema σ α → Json.Object → Outcome α
  | .build a, _ => .read a
  | .field before f _, fields => (before.readFields fields).join (f.readIn fields)

/-- Reads fields given in order; `short` is the error for a list that ends before a required field. -/
def readItems {α : Type} (short : Nat → ReadError) :
    Schema σ α → List Json → Except ReadError (α × List Json)
  | .build a, items => .ok (a, items)
  | .field before f _, items =>
    match before.readItems short items with
    | .error e => .error e
    | .ok (g, []) =>
      match f.absent with
      | some b => .ok (g b, [])
      | none => .error (short before.size)
    | .ok (g, v :: rest) =>
      match f.codec.read v with
      | .error e => .error e
      | .ok b => .ok (g b, rest)

end Schema

/-! ### Records -/

/-- A record with the fields of its schema and no others. -/
structure Record (σ : Type) where
  name : String
  schema : Schema σ σ

/-- A record that keeps the fields it does not know. -/
structure OpenRecord (σ : Type) where
  name : String
  schema : Schema σ (Json.Object → σ)
  extra : σ → Json.Object

/-- Reads a record given as an object or as a list of its fields. -/
def Record.read {σ : Type} (r : Record σ) : Json → Except ReadError σ
  | .obj fields => (r.schema.readFields fields).toExcept
  | .arr items =>
    match r.schema.readItems (.tooFewItems · r.name r.schema.size) items with
    | .error e => .error e
    | .ok (x, []) => .ok x
    | .ok (_, _ :: _) => .error (.tooManyItems items.length)
  | v => .error (.wrongShape v.shape (.record r.name))

/-- The codec of a record. Fields that it does not know are passed over. -/
def Record.codec {σ : Type} (r : Record σ) : Codec σ where
  read := r.read
  write x := .obj (r.schema.writeFields x)

/-- Reads a record given as an object, with the fields that its schema does not name. -/
def OpenRecord.read {σ : Type} (r : OpenRecord σ) : Json → Except ReadError σ
  | .obj fields =>
    match (r.schema.readFields fields).toExcept with
    | .error e => .error e
    | .ok x => .ok (x (Json.Object.without fields r.schema.names))
  | v => .error (.wrongShape v.shape (.record r.name))

/-- The codec of a record with further fields, which are written last. -/
def OpenRecord.codec {σ : Type} (r : OpenRecord σ) : Codec σ where
  read := r.read
  write x := .obj (r.schema.writeFields x ++ r.extra x)

end MessageFlow
