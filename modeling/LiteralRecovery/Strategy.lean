import LiteralRecovery.Literal

/-!
# Strategies and populations

A strategy is a reading of a call-site constant. Which strategies are tried, and what text is
accepted from them, depends on the population of the call site: a small constant that is not
passed to an exact decoder is far more often a plain number than an offset.
-/

namespace LiteralRecovery

/-- A reading of a call-site constant. -/
inductive Strategy where
  /-- An offset from the start of the blob. -/
  | directOffset
  /-- A negative offset from the end of the blob. -/
  | endRelativeOffset
  /-- An offset in words of four bytes. -/
  | scaledOffset
  /-- An offset that the decoder computes from the constant. -/
  | linearTransform
  /-- An offset under one of the configured keys. -/
  | keyedXor
  /-- An offset of a string that ends in a zero byte. -/
  | nullTerminated
  /-- An offset under some single-byte key. -/
  | exhaustiveXor
  /-- A character under one of the configured keys. -/
  | shortXorChar
deriving DecidableEq, Repr

namespace Strategy

/-- The strategies for offsets, in the order in which they are tried. -/
def full : List Strategy :=
  [directOffset, endRelativeOffset, scaledOffset, linearTransform, keyedXor, nullTerminated,
   exhaustiveXor]

/-- The strategies for single characters. -/
def short : List Strategy :=
  [shortXorChar]

/-- All strategies. -/
def all : List Strategy :=
  full ++ short

/-- The name of a strategy in reports. -/
def name : Strategy → String
  | directOffset => "DirectOffset"
  | endRelativeOffset => "EndRelativeOffset"
  | scaledOffset => "ScaledOffset"
  | linearTransform => "LinearTransform"
  | keyedXor => "KeyedXor"
  | nullTerminated => "NullTerminated"
  | exhaustiveXor => "ExhaustiveXor"
  | shortXorChar => "ShortXorChar"

end Strategy

/-- What the constant of a call site may stand for. -/
inductive Population where
  /-- A string in the blob. -/
  | full
  /-- A single character. -/
  | short
deriving DecidableEq, Repr

namespace Population

/-- The strategies that are tried, in order. -/
def strategies : Population → List Strategy
  | full => Strategy.full
  | short => Strategy.short

/-- The text that is accepted. -/
def acceptance : Population → Acceptance
  | full => .text
  | short => .singleChar

end Population
end LiteralRecovery
