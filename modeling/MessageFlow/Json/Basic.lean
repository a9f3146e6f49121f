import MessageFlow.Json.Number

/-! JSON values. The fields of an object stand in a list: text that is read, and data built from it,
    hold them in ascending order of the key with no key twice (`Json.canonical`); a record that is
    about to be written lists them in the order in which they are to appear. -/

namespace MessageFlow

/-- A JSON value. -/
inductive Json where
  | null
  | bool (b : Bool)
  | num (n : Json.Number)
  | str (s : String)
  | arr (items : List Json)
  | obj (fields : List (String × Json))

namespace Json

instance : Inhabited Json := ⟨.null⟩

abbrev Object := List (String × Json)

/-! ### Fields -/

namespace Object

/-- The value under a key. -/
def get? (fields : Object) (key : String) : Option Json := fields.lookup key

/-- The fields without those under a key. -/
def erase (fields : Object) (key : String) : Object := fields.filter fun f => f.1 != key

/-- The fields whose key is none of the given ones. -/
def without (fields : Object) (keys : List String) : Object :=
  fields.filter fun f => !keys.contains f.1

/-- Sets the value under a key, keeping the keys ascending. -/
def insert : Object → String → Json → Object
  | [], key, value => [(key, value)]
  | (k, v) :: rest, key, value =>
    if key < k then (key, value) :: (k, v) :: rest
    else if key = k then (key, value) :: rest
    else (k, v) :: insert rest key value

/-- The fields in ascending order of the key; of several under one key the last. -/
def ofList (fields : List (String × Json)) : Object :=
  fields.foldl (fun o f => o.insert f.1 f.2) []

/-- The keys ascend, so that none stands twice. -/
def Ascending (fields : Object) : Prop := (fields.map (·.1)).Pairwise (· < ·)

end Object

/-! ### Canonical form -/

mutual

/-- The value with the keys of every object ascending and of several equal keys only the last. -/
def canonical : Json → Json
  | .arr items => .arr (canonicalItems items)
  | .obj fields => .obj (Object.ofList (canonicalFields fields))
  | v => v

def canonicalItems : List Json → List Json
  | [] => []
  | v :: rest => canonical v :: canonicalItems rest

def canonicalFields : List (String × Json) → List (String × Json)
  | [] => []
  | (k, v) :: rest => (k, canonical v) :: canonicalFields rest

end

mutual

/-- The keys of every object are ascending, and none stands twice. -/
def IsCanonical : Json → Prop
  | .arr items => IsCanonicalItems items
  | .obj fields => Object.Ascending fields ∧ IsCanonicalFields fields
  | _ => True

def IsCanonicalItems : List Json → Prop
  | [] => True
  | v :: rest => IsCanonical v ∧ IsCanonicalItems rest

def IsCanonicalFields : List (String × Json) → Prop
  | [] => True
  | (_, v) :: rest => IsCanonical v ∧ IsCanonicalFields rest

end

/-! ### Access -/

/-- The value under a key, if the value is an object that has it. -/
def get? (key : String) : Json → Option Json
  | .obj fields => Object.get? fields key
  | _ => none

/-- The text, if the value is a string. -/
def str? : Json → Option String
  | .str s => some s
  | _ => none

/-- The elements, if the value is a list. -/
def items? : Json → Option (List Json)
  | .arr items => some items
  | _ => none

/-- The value is an object. -/
def isObject : Json → Bool
  | .obj _ => true
  | _ => false

/-- The value counts as set: not null, false, zero or the empty string. -/
def isTruthy : Json → Bool
  | .null => false
  | .bool b => b
  | .num n => !n.isZero
  | .str s => s != ""
  | .arr _ => true
  | .obj _ => true

def strings (items : List String) : Json := .arr (items.map .str)

/-- The value, or null where there is none. -/
def ofOption : Option Json → Json
  | none => .null
  | some v => v

/-- The text, or null where there is none. -/
def ofText : Option String → Json
  | none => .null
  | some s => .str s

def nat (n : Nat) : Json := .num (.ofNat n)

end Json
end MessageFlow
