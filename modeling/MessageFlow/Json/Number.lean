import MessageFlow.Double.Rounding
import MessageFlow.Double.Written

/-! JSON numbers. A literal without point or exponent that fits a machine word of 64 bits, signed or
    unsigned, stays an integer; every other one is a double. The two kinds are never equal, even where
    their values are. -/

namespace MessageFlow

-- Powers are those of core, whatever is imported beside.
attribute [local instance (high)] instPowNat

/-- The integer fits a signed or an unsigned word of 64 bits. -/
abbrev Json.FitsWord (n : Int) : Prop := -2 ^ (63 : Nat) ≤ n ∧ n < 2 ^ (64 : Nat)

/-- A number: an integer of 64 bits or a finite double. -/
inductive Json.Number where
  | int (n : Int) (fits : Json.FitsWord n)
  | double (x : Double)
deriving DecidableEq

namespace Json.Number

/-- Equal as values of the same kind; the two zeros of the doubles are equal. -/
def numEq : Number → Number → Bool
  | .int m _, .int n _ => m == n
  | .double x, .double y => x.numEq y
  | _, _ => false

theorem numEq_refl : ∀ a : Number, a.numEq a = true
  | .int n _ => by simp [numEq]
  | .double x => x.numEq_refl

theorem numEq_symm : ∀ {a b : Number}, a.numEq b = true → b.numEq a = true
  | .int _ _, .int _ _, h => by simp only [numEq, beq_iff_eq] at h ⊢; exact h.symm
  | .double _, .double _, h => Double.numEq_symm h
  | .int _ _, .double _, h => by simp [numEq] at h
  | .double _, .int _ _, h => by simp [numEq] at h

theorem numEq_trans : ∀ {a b c : Number}, a.numEq b = true → b.numEq c = true → a.numEq c = true
  | .int _ _, .int _ _, .int _ _, h, k => by
    simp only [numEq, beq_iff_eq] at h k ⊢; exact h.trans k
  | .double _, .double _, .double _, h, k => Double.numEq_trans h k
  | .int _ _, .int _ _, .double _, _, k => by simp [numEq] at k
  | .int _ _, .double _, _, h, _ => by simp [numEq] at h
  | .double _, .int _ _, _, h, _ => by simp [numEq] at h
  | .double _, .double _, .int _ _, _, k => by simp [numEq] at k

def isZero : Number → Bool
  | .int n _ => n == 0
  | .double x => x.isZero

/-- The nearest double. -/
def toDouble : Number → Double
  | .int n _ => Double.ofInt n
  | .double x => x

/-- The number of a natural literal with a sign. `none` beyond the finite doubles. -/
def ofInteger? (negative : Bool) (digits : Nat) : Option Number :=
  if h : ¬(negative = true ∧ digits = 0) ∧ FitsWord (if negative then -digits else digits) then
    some (.int _ h.2)
  else (Double.ofDecimal? negative digits 0).map .double

/-- A natural number of at most 64 bits; larger ones are rounded to a double. -/
def ofNat (n : Nat) : Number := (ofInteger? false n).getD (.double .zero)

/-- Doubles from `1e-5` up to `1e16` are written positionally. -/
def style : Decimal.Style := ⟨-5, 16⟩

/-- The digits of an integer, or the shortest text of a double. -/
def written : Number → List Char
  | .int n _ => (if n < 0 then ['-'] else []) ++ Nat.toDigits 10 n.natAbs
  | .double x => x.written style

end Json.Number
end MessageFlow
