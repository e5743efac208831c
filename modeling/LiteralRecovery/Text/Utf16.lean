/-!
# Reading UTF-16, little endian

Strict decoding: an odd byte at the end or a surrogate without its partner makes the whole text
unreadable.

## Main results

* `Utf16.unitsOnto_eq`, `Utf16.charsOnto_eq`: what was read before does not influence what is read
  after it.
-/

namespace LiteralRecovery
namespace Utf16

/-- The units read so far, the last in front, followed by those of the bytes. -/
def unitsOnto (read : List Nat) : List UInt8 → Option (List Nat)
  | [] => some read.reverse
  | [_] => none
  | low :: high :: rest => unitsOnto ((low.toNat + 0x100 * high.toNat) :: read) rest

/-- The 16-bit units of the bytes, low byte first. -/
def units? (bytes : List UInt8) : Option (List Nat) :=
  unitsOnto [] bytes

theorem unitsOnto_eq (read : List Nat) : ∀ bytes : List UInt8,
    unitsOnto read bytes = (units? bytes).map (read.reverse ++ ·)
  | [] => by simp [units?, unitsOnto]
  | [_] => by simp [units?, unitsOnto]
  | low :: high :: rest => by
    rw [units?, unitsOnto, unitsOnto, unitsOnto_eq (_ :: read) rest, unitsOnto_eq [_] rest]
    simp [Function.comp_def]

/-- The first half of a pair. -/
def isHighSurrogate (unit : Nat) : Bool :=
  0xd800 ≤ unit && unit < 0xdc00

/-- The second half of a pair. -/
def isLowSurrogate (unit : Nat) : Bool :=
  0xdc00 ≤ unit && unit < 0xe000

/-- The character that a pair of surrogates writes. -/
def paired (high low : Nat) : Char :=
  Char.ofNat (0x10000 + (high - 0xd800) * 0x400 + (low - 0xdc00))

/-- The characters that the units encode, after those read so far, of which the last stands in
front. `pending` is a first half whose second half is to come. -/
def charsOnto (read : List Char) (pending : Option Nat) : List Nat → Option (List Char)
  | [] => if pending.isNone then some read.reverse else none
  | unit :: rest =>
    match pending with
    | some high =>
      if isLowSurrogate unit then charsOnto (paired high unit :: read) none rest else none
    | none =>
      if isHighSurrogate unit then charsOnto read (some unit) rest
      else if isLowSurrogate unit then none
      else charsOnto (Char.ofNat unit :: read) none rest

/-- The characters that the units encode. -/
def chars? (units : List Nat) : Option (List Char) :=
  charsOnto [] none units

theorem charsOnto_eq (read : List Char) (pending : Option Nat) (units : List Nat) :
    charsOnto read pending units = (charsOnto [] pending units).map (read.reverse ++ ·) := by
  induction units generalizing read pending with
  | nil => by_cases h : pending.isNone <;> simp [charsOnto, h]
  | cons unit rest ih =>
    have step (char : Char) : charsOnto (char :: read) none rest =
        (charsOnto [char] none rest).map (read.reverse ++ ·) := by
      rw [ih (char :: read), ih [char], Option.map_map]
      simp [Function.comp_def]
    cases pending <;> grind [charsOnto]

/-- The characters that the bytes encode. -/
def decode? (bytes : List UInt8) : Option (List Char) :=
  (units? bytes).bind chars?

end Utf16
end LiteralRecovery
