import LiteralRecovery.Assembly
import LiteralRecovery.Config
import LiteralRecovery.Error

/-!
# Finding the encoded blob

All hidden strings of an assembly lie in the initial bytes of one data slot. Unless the
configuration names it, the slot is chosen by size first and by content second, and a global slot
goes before one that belongs to a type.

## Main definitions

* `Config.looksTextual`: the content test on a sample of bytes.
* `Blob.locate?`: the choice among the slots, whatever name is configured.
* `Blob.resolve`: the configured slot, or else the choice.
-/

namespace LiteralRecovery

/-- The bytes that hold the hidden strings, and the slot they come from. -/
structure Blob where
  slot : Token
  name : String
  bytes : Bytes
deriving DecidableEq, Repr

/-- A byte of zero, or of printable ASCII with the space. -/
def isTextual (byte : UInt8) : Bool :=
  byte = 0 || (0x20 ≤ byte && byte ≤ 0x7e)

/-- Whether the share of textual bytes in the sample at the front exceeds the configured ratio. An
empty sample does not. -/
def Config.looksTextual (config : Config) (bytes : Bytes) : Bool :=
  let sample := bytes.slice 0 config.sampleSize
  !sample.isEmpty &&
    Float.ofNat (sample.countP isTextual) / Float.ofNat sample.length > config.minPrintableRatio

namespace Blob

/-- Bytes that come from no slot. -/
def ofBytes (bytes : Bytes) : Blob :=
  ⟨⟨0⟩, "", bytes⟩

/-- The initial bytes of a slot. -/
def ofSlot (slot : Slot) : Blob :=
  ⟨slot.token, slot.name, slot.bytes⟩

/-- The larger of two slots; of equally large ones the first stays. -/
def larger (best : Option Slot) (slot : Slot) : Option Slot :=
  match best with
  | none => some slot
  | some held => if held.size < slot.size then some slot else some held

/-- The earliest of the largest slots. -/
def largest? (slots : List Slot) : Option Slot :=
  slots.foldl larger none

/-- The earliest of the largest slots above the size limit. -/
def bySize? (config : Config) (slots : List Slot) : Option Slot :=
  largest? (slots.filter fun slot => config.minBlobSize < slot.size)

/-- The first slot that passes the content test. -/
def byContent? (config : Config) (slots : List Slot) : Option Slot :=
  slots.find? fun slot => config.looksTextual slot.bytes

/-- The slot chosen among those that have bytes: by size among the global ones, by size among the
others, then by content in the same order. -/
def choose? (config : Config) (slots : List Slot) : Option Slot :=
  let filled := slots.filter fun slot => 0 < slot.size
  let globals := filled.filter Slot.isGlobal
  let owned := filled.filter fun slot => !slot.isGlobal
  bySize? config globals <|> bySize? config owned
    <|> byContent? config globals <|> byContent? config owned

/-- The blob of the chosen slot. -/
def locate? (config : Config) (slots : List Slot) : Option Blob :=
  (choose? config slots).map ofSlot

/-- The first slot of the given name that has bytes. -/
def named? (name : String) (slots : List Slot) : Option Blob :=
  (slots.find? fun slot => slot.name = name && 0 < slot.size).map ofSlot

/-- The blob of the configured slot, or the located one if none is configured. -/
def resolve (config : Config) (slots : List Slot) : Except Error Blob :=
  match config.blobSlot with
  | some name =>
    match named? name slots with
    | some blob => .ok blob
    | none => .error (.blobSlotMissing name)
  | none =>
    match locate? config slots with
    | some blob => .ok blob
    | none => .error .blobNotFound

end Blob
end LiteralRecovery
