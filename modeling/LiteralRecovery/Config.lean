import LiteralRecovery.Text.Fragment

/-!
# Configuration of a run

Limits, key sets and switches. The defaults fit the usual obfuscators; `aggressive` adds the two
searches that cost most, and `sequential` keeps a run on one worker.
-/

namespace LiteralRecovery

/-- The settings of a run. -/
structure Config where
  /-- The name of the slot to read, if it is known. -/
  blobSlot : Option String := none
  /-- A slot larger than this is taken for the blob without a look at its content. -/
  minBlobSize : Nat := 1024
  /-- How many bytes the content test looks at. -/
  sampleSize : Nat := 100
  /-- The share of textual bytes that the content test asks to be exceeded. -/
  minPrintableRatio : Float := 0.30
  /-- Constants of a smaller absolute value are short. -/
  shortThreshold : Int32 := 1000
  /-- The keys for short constants. -/
  shortKeys : List Int32 := [0x2a, 0x7f, 0xff, 0x2d, 0x5a, 0xa5]
  /-- The keys for offsets. -/
  xorKeys : List Int32 := [0x2a, 0x7f, 0xff, 0x2d, 0x5a, 0xa5, 0x100, 0x55555555]
  /-- The longest encoded string, in bytes. -/
  maxLength : Nat := 10000
  /-- How many instructions in front of a call may be searched for its constant. -/
  lookback : Nat := 5
  /-- Whether strings that end in a zero byte are tried. -/
  nullTerminated : Bool := true
  /-- Whether every single-byte key is tried. -/
  exhaustiveXor : Bool := false
  /-- Whether a payload that is no acceptable UTF-8 is read as UTF-16. -/
  utf16 : Bool := false
  /-- The fragments of a name that mark a decoding call. -/
  decodeNames : List String := ["getstring", "decode", "decrypt"]
  /-- Whether routines are processed by several workers. -/
  parallel : Bool := true
  /-- The most workers, if there is a limit. -/
  maxThreads : Option Nat := none

instance : Inhabited Config := ⟨{}⟩

namespace Config

/-- The defaults with both costly searches on. -/
def aggressive : Config :=
  { exhaustiveXor := true, utf16 := true }

/-- The defaults on one worker. -/
def sequential : Config :=
  { parallel := false }

/-- Whether the absolute value of a constant is below that of the threshold. -/
def isShort (config : Config) (constant : Int32) : Bool :=
  constant.toInt.natAbs < config.shortThreshold.toInt.natAbs

/-- Whether a name holds one of the fragments, in any mixture of ASCII cases. -/
def isDecodeName (config : Config) (name : String) : Bool :=
  config.decodeNames.any fun fragment => Text.occursInAnyCase fragment name

end Config
end LiteralRecovery
