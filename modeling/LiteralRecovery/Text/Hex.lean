/-!
# Hexadecimal text

Numbers are written in base sixteen with zeros in front up to a given width. Tokens use lower-case
digits, constants upper-case ones.
-/

namespace LiteralRecovery
namespace Text

/-- The base-sixteen digits of `n` in lower case, with zeros in front up to `width`. -/
def hexDigits (width n : Nat) : List Char :=
  let digits := Nat.toDigits 16 n
  List.replicate (width - digits.length) '0' ++ digits

/-- `n` in lower-case base sixteen, at least `width` digits long. -/
def lowerHex (width n : Nat) : String :=
  String.ofList (hexDigits width n)

/-- `n` in upper-case base sixteen, at least `width` digits long. -/
def upperHex (width n : Nat) : String :=
  String.ofList ((hexDigits width n).map Char.toUpper)

/-- A signed constant as the eight digits of its two's complement. -/
def hexConstant (constant : Int32) : String :=
  "0x" ++ upperHex 8 constant.toUInt32.toNat

end Text
end LiteralRecovery
