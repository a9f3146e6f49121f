import MessageFlow.Double.Shortest

/-! How a decimal is laid out as text: positionally in a middle range, else with an exponent. -/

namespace MessageFlow

/-- Where the positional form begins and ends. -/
structure Decimal.Style where
  /-- The least exponent of the leading digit that is written positionally. -/
  plainFrom : Int
  /-- The least exponent above that which is not. -/
  plainBelow : Int

namespace Decimal

/-- The digits with the point where it falls; a whole number ends in `.0`. -/
def positional (d : Decimal) : List Char :=
  let ds := Nat.toDigits 10 d.digits
  let places := (-d.exponent).toNat
  if 0 ≤ d.exponent then ds ++ List.replicate d.exponent.toNat '0' ++ ['.', '0']
  else if places < ds.length then ds.take (ds.length - places) ++ '.' :: ds.drop (ds.length - places)
  else '0' :: '.' :: (List.replicate (places - ds.length) '0' ++ ds)

/-- One digit before the point, and a signed exponent of least width. -/
def scientific (d : Decimal) : List Char :=
  let ds := Nat.toDigits 10 d.digits
  let e := d.exponent + ds.length - 1
  let fraction := ds.drop 1
  ds.take 1 ++ (if fraction.isEmpty then [] else '.' :: fraction) ++
    ['e', if e < 0 then '-' else '+'] ++ Nat.toDigits 10 e.natAbs

/-- The text of a decimal in a style. -/
def written (style : Style) (d : Decimal) : List Char :=
  let lead := d.exponent + (Nat.toDigits 10 d.digits).length - 1
  if style.plainFrom ≤ lead ∧ lead < style.plainBelow then d.positional else d.scientific

end Decimal

/-- The shortest text that reads back to `x`, with the sign of a negative zero kept. -/
def Double.written (style : Decimal.Style) (x : Double) : List Char :=
  (if x.negative then ['-'] else []) ++ x.shortest.written style

end MessageFlow
