/-! Finite binary64 numbers, held as a sign and the remaining 63 bits of the encoding read as one
    natural number. That number grows with the absolute value, is 0 exactly for the two zeros, and is
    what the significand and the exponent are read from. -/

namespace MessageFlow

-- Powers are those of core, whatever is imported beside.
attribute [local instance (high)] instPowNat

/-- A finite binary64 number: a sign, and the exponent and fraction bits as one number. -/
structure Double where
  negative : Bool
  magnitude : Nat
  finite : magnitude < 2047 * 2 ^ (52 : Nat)
deriving DecidableEq, Hashable

namespace Double

def zero : Double := ⟨false, 0, by decide⟩

instance : Inhabited Double := ⟨zero⟩

/-- One of the two zeros. -/
def isZero (x : Double) : Bool := x.magnitude == 0

/-- The absolute value is `x.significand * 2 ^ x.exponent`. -/
def significand (x : Double) : Nat :=
  if x.magnitude < 2 ^ (52 : Nat) then x.magnitude else 2 ^ (52 : Nat) + x.magnitude % 2 ^ (52 : Nat)

/-- The absolute value is `x.significand * 2 ^ x.exponent`. -/
def exponent (x : Double) : Int :=
  (max (x.magnitude / 2 ^ (52 : Nat)) 1 : Nat) - 1075

/-- The neighbour below lies half as far away as the neighbour above. -/
def narrowBelow (x : Double) : Bool :=
  x.magnitude % 2 ^ (52 : Nat) == 0 && 2 ^ (52 : Nat) < x.magnitude

/-! ### Numeric equality -/

/-- Equal as numbers: the two zeros are equal, all others only to themselves. -/
def numEq (x y : Double) : Bool :=
  x.magnitude == y.magnitude && (x.negative == y.negative || x.isZero)

theorem numEq_iff {x y : Double} :
    x.numEq y = true ↔ x = y ∨ (x.isZero = true ∧ y.isZero = true) := by
  obtain ⟨s, m, hm⟩ := x
  obtain ⟨t, n, hn⟩ := y
  simp only [numEq, isZero, Bool.and_eq_true, Bool.or_eq_true, beq_iff_eq, mk.injEq]
  constructor
  · rintro ⟨rfl, rfl | rfl⟩
    · exact .inl ⟨rfl, rfl⟩
    · exact .inr ⟨rfl, rfl⟩
  · rintro (⟨rfl, rfl⟩ | ⟨rfl, rfl⟩)
    · exact ⟨rfl, .inl rfl⟩
    · exact ⟨rfl, .inr rfl⟩

theorem numEq_refl (x : Double) : x.numEq x = true := numEq_iff.2 (.inl rfl)

theorem numEq_symm {x y : Double} (h : x.numEq y = true) : y.numEq x = true := by
  rcases numEq_iff.1 h with rfl | ⟨hx, hy⟩
  · exact numEq_refl x
  · exact numEq_iff.2 (.inr ⟨hy, hx⟩)

theorem numEq_trans {x y z : Double} (hxy : x.numEq y = true) (hyz : y.numEq z = true) :
    x.numEq z = true := by
  rcases numEq_iff.1 hxy with rfl | ⟨hx, hy⟩
  · exact hyz
  · rcases numEq_iff.1 hyz with rfl | ⟨-, hz⟩
    · exact hxy
    · exact numEq_iff.2 (.inr ⟨hx, hz⟩)

/-! ### Arithmetic -/

/-- The machine number with the same value. -/
def toFloat (x : Double) : Float :=
  Float.ofBits (UInt64.ofNat (x.magnitude + if x.negative then 2 ^ (63 : Nat) else 0))

/-- The value of a machine number, unless it is infinite or no number. -/
def ofFloat? (f : Float) : Option Double :=
  let bits := f.toBits.toNat
  if h : bits % 2 ^ (63 : Nat) < 2047 * 2 ^ (52 : Nat) then
    some ⟨decide (2 ^ (63 : Nat) ≤ bits), bits % 2 ^ (63 : Nat), h⟩
  else none

/-- `start + step * count`, rounded after each operation; `none` beyond the finite numbers. -/
def advance? (start step : Double) (count : Nat) : Option Double :=
  ofFloat? (start.toFloat + step.toFloat * Float.ofNat count)

end Double
end MessageFlow
