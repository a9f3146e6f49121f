import MessageFlow.Double.Rounding

/-! Doubles written as decimals in the library's own tables. -/

namespace MessageFlow
namespace Double

instance : OfScientific Double where
  ofScientific digits small exponent :=
    (ofDecimal? false digits (if small then -exponent else exponent)).getD zero

instance : Neg Double := ⟨fun x => { x with negative := !x.negative }⟩

end Double
end MessageFlow
