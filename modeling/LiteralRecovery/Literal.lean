import LiteralRecovery.Text.Blank
import LiteralRecovery.Text.Utf8

/-!
# Which text passes for a literal

Decoding at a wrong place mostly gives garbage, so what was decoded has to look like text that
someone wrote. Short constants stand for one character and have a rule of their own.
-/

namespace LiteralRecovery

/-- The rule by which decoded text is accepted. -/
inductive Acceptance where
  /-- Text with something to see in it and no stray control character. -/
  | text
  /-- One printable ASCII character, the space included. -/
  | singleChar
deriving DecidableEq, Repr

namespace Acceptance

/-- The text without an embedded length: a stray control character in front, whose code point is
the number of characters after it. -/
def dropLengthMark : List Char → List Char
  | [] => []
  | first :: rest =>
    if Text.isStrayControl first && rest.length == first.toNat then rest else first :: rest

/-- The literal that is made of decoded characters, if they pass. -/
def acceptChars : Acceptance → List Char → Option (List Char)
  | .text, chars =>
    let body := dropLengthMark chars
    if body.all Text.isBlank || body.any Text.isStrayControl then none else some body
  | .singleChar, [char] => if ' ' ≤ char ∧ char ≤ '~' then some [char] else none
  | .singleChar, _ => none

/-- The literal that is made of decoded text, if it passes. -/
def accept (rule : Acceptance) (text : String) : Option String :=
  (rule.acceptChars text.toList).map String.ofList

/-- The literal that bytes encode as UTF-8, if they do and it passes. -/
def acceptUtf8 (rule : Acceptance) (bytes : List UInt8) : Option String :=
  ((Utf8.decode? bytes).bind rule.acceptChars).map String.ofList

end Acceptance
end LiteralRecovery
