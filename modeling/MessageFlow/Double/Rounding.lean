import MessageFlow.Double.Basic

/-! The double nearest to an exact value, a tie going to the even significand. -/

namespace MessageFlow

-- Powers are those of core, whatever is imported beside.
attribute [local instance (high)] instPowNat

namespace Double

/-- The quotient rounded to the nearest natural number, a half to the even neighbour. -/
def roundDiv (num den : Nat) : Nat :=
  let below := num / den
  let rest := 2 * (num % den)
  if rest < den ∨ (rest = den ∧ below % 2 = 0) then below else below + 1

/-- A finite double from its sign and magnitude, if the magnitude is that of one. -/
def ofMagnitude? (negative : Bool) (magnitude : Nat) : Option Double :=
  if h : magnitude < 2047 * 2 ^ (52 : Nat) then some ⟨negative, magnitude, h⟩ else none

/-- The least binary exponent, at least that of the subnormal numbers, for which the whole part of
    `num / den / 2 ^ exponent` has at most 53 bits. -/
def unitExponent (num den : Nat) : Int :=
  let low := max ((num.log2 : Int) - den.log2 - 53) (-1074)
  if num * 2 ^ (-low).toNat / (den * 2 ^ low.toNat) < 2 ^ (53 : Nat) then low else low + 1

/-- The double nearest to `num / den`; `none` if that lies beyond the finite numbers. -/
def ofRatio? (negative : Bool) (num den : Nat) : Option Double :=
  let e := if num = 0 then -1074 else unitExponent num den
  let significand := roundDiv (num * 2 ^ (-e).toNat) (den * 2 ^ e.toNat)
  ofMagnitude? negative ((e + 1074).toNat * 2 ^ (52 : Nat) + significand)

/-- The double nearest to `digits * 10 ^ exponent`; `none` if that lies beyond the finite numbers.
    Exponents that put every nonzero value far beyond either end are answered without computing it. -/
def ofDecimal? (negative : Bool) (digits : Nat) (exponent : Int) : Option Double :=
  let lead := (Nat.toDigits 10 digits).length + exponent
  if digits = 0 ∨ lead < -400 then ofMagnitude? negative 0
  else if 400 < lead then none
  else ofRatio? negative (digits * 10 ^ exponent.toNat) (10 ^ (-exponent).toNat)

/-- The double nearest to an integer. Every integer of at most 64 bits has one. -/
def ofInt (n : Int) : Double :=
  (ofRatio? (decide (n < 0)) n.natAbs 1).getD zero

end Double
end MessageFlow
