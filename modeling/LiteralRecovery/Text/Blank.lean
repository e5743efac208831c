import LiteralRecovery.Text.CharRanges

/-!
# White space and control characters

The two character classes on which the acceptance of a literal rests: the Unicode property
White_Space and the general category Cc.
-/

namespace LiteralRecovery
namespace Text

/-- The code points with the property White_Space. -/
def blankRanges : CharRanges :=
  [(0x09, 0x0d), (0x20, 0x20), (0x85, 0x85), (0xa0, 0xa0), (0x1680, 0x1680), (0x2000, 0x200a),
   (0x2028, 0x2029), (0x202f, 0x202f), (0x205f, 0x205f), (0x3000, 0x3000)]

/-- Whether `c` is white space. -/
def isBlank (c : Char) : Bool :=
  blankRanges.covers c

/-- Whether `c` is a control character: the code points below the space and those from delete to
the end of the second control block. -/
def isControl (c : Char) : Bool :=
  c.toNat < 0x20 || (0x7f ≤ c.toNat && c.toNat ≤ 0x9f)

/-- Line feed, carriage return and tab: the control characters of ordinary text. -/
def isLayout (c : Char) : Bool :=
  c == '\n' || c == '\r' || c == '\t'

/-- A control character that ordinary text does not hold. -/
def isStrayControl (c : Char) : Bool :=
  isControl c && !isLayout c

end Text
end LiteralRecovery
