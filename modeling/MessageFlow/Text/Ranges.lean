/-! Sets of characters as closed ranges of code points. -/

namespace MessageFlow
namespace Text

/-- Closed ranges of code points; a table lists them ascending and apart. -/
abbrev Ranges := List (Nat × Nat)

/-- Some range holds the character. -/
def Ranges.contains (rs : Ranges) (c : Char) : Bool :=
  rs.any fun r => r.1 ≤ c.toNat && c.toNat ≤ r.2

end Text
end MessageFlow
