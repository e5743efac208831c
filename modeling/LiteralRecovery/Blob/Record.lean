import LiteralRecovery.Bytes

/-!
# Encoded strings in a byte sequence

Two formats are read at a byte offset. A *record* is a 32-bit little-endian length, taken as
signed, followed by that many bytes. A *terminated* string runs up to the next zero byte. Both are
bounded by a greatest length and neither is empty.
-/

namespace LiteralRecovery
namespace Blob

/-- The number that bytes write with the lowest first. -/
def littleEndian : List UInt8 → Nat
  | [] => 0
  | byte :: rest => byte.toNat + 0x100 * littleEndian rest

/-- The payload of the record at `offset`. A length of zero, one above `maxLength`, a negative one
and one that reaches past the end are refused. -/
def recordAt? (bytes : Bytes) (offset maxLength : Nat) : Option (List UInt8) :=
  let length := littleEndian (bytes.slice offset 4)
  if 0 < length ∧ length ≤ maxLength ∧ length < 0x80000000 ∧
      offset + 4 + length ≤ bytes.size then
    some (bytes.slice (offset + 4) length)
  else none

/-- The position of the first zero byte among the `window` bytes from `index` on. -/
def firstZero? (bytes : Bytes) : (window index : Nat) → Option Nat
  | 0, _ => none
  | window + 1, index =>
    match bytes[index]? with
    | none => none
    | some byte => if byte = 0 then some index else firstZero? bytes window (index + 1)

/-- The bytes at `offset` in front of the next zero byte, which must stand within `maxLength`
bytes of the offset. -/
def terminatedAt? (bytes : Bytes) (offset maxLength : Nat) : Option (List UInt8) :=
  match firstZero? bytes (min (maxLength + 1) (bytes.size - offset)) offset with
  | none => none
  | some stop => if offset < stop then some (bytes.slice offset (stop - offset)) else none

end Blob
end LiteralRecovery
