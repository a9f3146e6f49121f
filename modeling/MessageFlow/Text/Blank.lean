import MessageFlow.Text.Ranges

/-! White space: the 25 characters with the Unicode property White_Space. -/

namespace MessageFlow
namespace Text

/-- Code points with the property White_Space, as ascending closed ranges. -/
def blankRanges : Ranges :=
  [(0x09, 0x0D), (0x20, 0x20), (0x85, 0x85), (0xA0, 0xA0), (0x1680, 0x1680), (0x2000, 0x200A),
   (0x2028, 0x2029), (0x202F, 0x202F), (0x205F, 0x205F), (0x3000, 0x3000)]

/-- The character is white space. -/
def isBlank (c : Char) : Bool := blankRanges.contains c

theorem isBlank_underscore : isBlank '_' = false := by decide

end Text
end MessageFlow
