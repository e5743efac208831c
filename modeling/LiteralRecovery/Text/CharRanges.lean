/-!
# Sets of characters as ranges

A character class of a standard is a table of inclusive ranges of code points, in ascending order.
-/

namespace LiteralRecovery
namespace Text

/-- A set of characters: inclusive ranges of code points, in ascending order. -/
abbrev CharRanges := List (Nat × Nat)

/-- Whether some range of the table holds the code point of `c`. The search ends at the first range
that lies above it. -/
def CharRanges.covers (c : Char) : CharRanges → Bool
  | [] => false
  | (first, last) :: rest =>
    if c.toNat < first then false else c.toNat ≤ last || covers c rest

end Text
end LiteralRecovery
