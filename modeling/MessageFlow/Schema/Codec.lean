import MessageFlow.Schema.ReadError

/-! Both directions between JSON and a type in one value, so that what is written under a name is read
    under the same name. -/

namespace MessageFlow

/-- How values of a type are read from JSON and written to it. -/
structure Codec (α : Type) where
  read : Json → Except ReadError α
  write : α → Json

namespace Codec

/-- Any value, as it stands. -/
def json : Codec Json := ⟨.ok, id⟩

/-- A string. -/
def text : Codec String where
  read
    | .str s => .ok s
    | v => .error (.wrongShape v.shape .text)
  write := .str

/-- A truth value. -/
def flag : Codec Bool where
  read
    | .bool b => .ok b
    | v => .error (.wrongShape v.shape .flag)
  write := .bool

/-- A number as a double. `none` stands for a value beyond the finite doubles, which no JSON number is;
    it is written as null. -/
def double : Codec (Option Double) where
  read
    | .num n => .ok (some n.toDouble)
    | v => .error (.wrongShape v.shape .number)
  write
    | some x => .num (.double x)
    | none => .null

/-- Null, or a value of another codec. -/
def optional {α : Type} (c : Codec α) : Codec (Option α) where
  read
    | .null => .ok none
    | v => (c.read v).map some
  write
    | some a => c.write a
    | none => .null

/-- Null reads as a fixed value; it is never written. -/
def nullAs {α : Type} (default : α) (c : Codec α) : Codec α where
  read
    | .null => .ok default
    | v => c.read v
  write := c.write

/-- Reads the elements in turn; the first that does not read decides. -/
def readItems {α : Type} (read : Json → Except ReadError α) : List Json → Except ReadError (List α)
  | [] => .ok []
  | v :: rest =>
    match read v with
    | .error e => .error e
    | .ok a => (readItems read rest).map (a :: ·)

/-- A list. -/
def list {α : Type} (c : Codec α) : Codec (List α) where
  read
    | .arr items => readItems c.read items
    | v => .error (.wrongShape v.shape .list)
  write xs := .arr (xs.map c.write)

/-- The value as it stands in the data of another value: written and put into canonical form. -/
def encode {α : Type} (c : Codec α) (a : α) : Json := (c.write a).canonical

end Codec
end MessageFlow
