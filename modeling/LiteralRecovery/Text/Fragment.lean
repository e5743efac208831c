/-!
# Fragments of a text

Whether one sequence of characters stands somewhere in another, in one piece.

## Main results

* `Text.occursIn_iff`: the test decides the infix relation.
-/

namespace LiteralRecovery
namespace Text

/-- Whether the fragment stands somewhere in the text. The empty fragment always does. -/
def occursIn (fragment : List Char) : List Char → Bool
  | [] => fragment.isEmpty
  | char :: rest => fragment.isPrefixOf (char :: rest) || occursIn fragment rest

theorem occursIn_iff {fragment text : List Char} :
    occursIn fragment text ↔ fragment <:+: text := by
  induction text with
  | nil => simp [occursIn]
  | cons char rest ih => simp [occursIn, List.infix_cons_iff, ih]

/-- Whether the fragment stands somewhere in the text when ASCII letters of either case count as
equal. -/
def occursInAnyCase (fragment text : String) : Bool :=
  occursIn fragment.toLower.toList text.toLower.toList

end Text
end LiteralRecovery
