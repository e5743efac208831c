/-!
# Reading UTF-8

Strict decoding of bytes into characters: no overlong form, no surrogate, nothing past the last
code point, nothing cut short. One bad byte makes the whole text unreadable.

## Main results

* `Utf8.decodeOnto_eq`: what was read before does not influence what is read after it.
-/

namespace LiteralRecovery
namespace Utf8

/-- The six bits that a continuation byte carries. -/
def continuation? (byte : UInt8) : Option Nat :=
  if 0x80 ≤ byte.toNat ∧ byte.toNat < 0xc0 then some (byte.toNat - 0x80) else none

/-- The character numbered `n`, provided that it is a scalar value and that no shorter form could
have written it. -/
def scalar? (least n : Nat) : Option Char :=
  if least ≤ n ∧ n.isValidChar then some (Char.ofNat n) else none

/-- The characters that the bytes encode, after those read so far, of which the last stands in
front. Of a form that has begun, `due` continuation bytes are still to come, `bits` is the number
that its bytes have written, and `least` is the smallest number for which its length is right. -/
def decodeOnto (read : List Char) (due bits least : Nat) : List UInt8 → Option (List Char)
  | [] => if due = 0 then some read.reverse else none
  | byte :: rest =>
    if due = 0 then
      if byte.toNat < 0x80 then decodeOnto (Char.ofNat byte.toNat :: read) 0 0 0 rest
      else if byte.toNat < 0xc0 then none
      else if byte.toNat < 0xe0 then decodeOnto read 1 (byte.toNat - 0xc0) 0x80 rest
      else if byte.toNat < 0xf0 then decodeOnto read 2 (byte.toNat - 0xe0) 0x800 rest
      else if byte.toNat < 0xf8 then decodeOnto read 3 (byte.toNat - 0xf0) 0x10000 rest
      else none
    else
      match continuation? byte with
      | none => none
      | some low =>
        if due = 1 then
          match scalar? least (bits * 0x40 + low) with
          | none => none
          | some char => decodeOnto (char :: read) 0 0 0 rest
        else decodeOnto read (due - 1) (bits * 0x40 + low) least rest

/-- The characters that the bytes encode. -/
def decode? (bytes : List UInt8) : Option (List Char) :=
  decodeOnto [] 0 0 0 bytes

theorem decodeOnto_eq (read : List Char) (due bits least : Nat) (bytes : List UInt8) :
    decodeOnto read due bits least bytes =
      (decodeOnto [] due bits least bytes).map (read.reverse ++ ·) := by
  induction bytes generalizing read due bits least with
  | nil => by_cases h : due = 0 <;> simp [decodeOnto, h]
  | cons byte rest ih =>
    have step (char : Char) : decodeOnto (char :: read) 0 0 0 rest =
        (decodeOnto [char] 0 0 0 rest).map (read.reverse ++ ·) := by
      rw [ih (char :: read), ih [char], Option.map_map]
      simp [Function.comp_def]
    rw [decodeOnto, decodeOnto]
    repeat' split
    · exact step _
    · rfl
    · exact ih ..
    · exact ih ..
    · exact ih ..
    · rfl
    · rfl
    · rfl
    · exact step _
    · exact ih ..

end Utf8
end LiteralRecovery
