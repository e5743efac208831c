import LiteralRecovery.Text.Extender
import LiteralRecovery.Text.Hex
import LiteralRecovery.Text.Unprintable

/-!
# Quoted text

Text between double quotes, on one line and free of invisible characters. The quote, the backslash
and the four common controls have two-character escapes; every other character that does not stand
on its own is spelled by its number.
-/

namespace LiteralRecovery
namespace Text

/-- A character spelled by its number: `\u` and lower-case hexadecimal digits in braces. -/
def spelled (c : Char) : List Char :=
  ['\\', 'u', '\x7b'] ++ Nat.toDigits 16 c.toNat ++ ['\x7d']

/-- The form a character takes between quotes. -/
def escapeChar (c : Char) : List Char :=
  if c = '\x00' then ['\\', '0']
  else if c = '\t' then ['\\', 't']
  else if c = '\r' then ['\\', 'r']
  else if c = '\n' then ['\\', 'n']
  else if c = '"' then ['\\', '"']
  else if c = '\\' then ['\\', '\\']
  else if isExtender c || isUnprintable c then spelled c
  else [c]

/-- `text` between double quotes. -/
def quoted (text : String) : String :=
  String.ofList (['"'] ++ text.toList.flatMap escapeChar ++ ['"'])

end Text
end LiteralRecovery
