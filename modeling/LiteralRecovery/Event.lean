import LiteralRecovery.Blob.Locate
import LiteralRecovery.Candidate
import LiteralRecovery.Report

/-!
# Events

What a run tells about itself while it works, each with a level and a wording. Events are data:
nothing that is computed depends on them.
-/

namespace LiteralRecovery

/-- How much an event matters. -/
inductive Level where
  | trace
  | debug
  | info
  | warn
deriving DecidableEq, Repr

/-- The level's name in a log. -/
def Level.name : Level → String
  | trace => "TRACE"
  | debug => "DEBUG"
  | info => "INFO"
  | warn => "WARN"

/-- Something worth telling. -/
inductive Event where
  /-- A slot was chosen as the blob. -/
  | blobChosen (blob : Blob)
  /-- A routine is a decoder candidate. -/
  | decoderFound (decoder : Decoder)
  /-- There were no candidates, and so many stand-ins were taken. -/
  | standInsTaken (count : Nat)
  /-- A strategy found nothing. -/
  | strategyMissed (strategy : Strategy) (constant : Int32)
  /-- A call site was left as it was. -/
  | siteFailed (site : Site) (reason : FailureReason)
  /-- A call site became a literal. -/
  | siteRecovered (site : Site) (candidate : Candidate)
  /-- A run or a patch was refused. -/
  | refused (error : Error)
  /-- A run ended. -/
  | finished (report : Report)

namespace Event

/-- How much the event matters. -/
def level : Event → Level
  | strategyMissed .. => .trace
  | blobChosen .. | decoderFound .. | standInsTaken .. | siteFailed .. | siteRecovered .. => .debug
  | finished .. => .info
  | refused .. => .warn

/-- The event in words. -/
def message : Event → String
  | blobChosen blob =>
    "selected '" ++ blob.name ++ "' (" ++ blob.slot.render ++ ", " ++ toString blob.bytes.size
      ++ " bytes) as encoded string blob"
  | decoderFound decoder =>
    "decoder candidate " ++ decoder.routine.render ++ " '" ++ decoder.name ++ "' ("
      ++ (if decoder.exact then "exact" else "superset") ++ "): " ++ decoder.shape.describe
  | standInsTaken count =>
    "no decoder signature matched, falling back to " ++ toString count ++ " call targets"
  | strategyMissed strategy constant =>
    strategy.name ++ " missed for constant " ++ Text.hexConstant constant
  | siteFailed site reason => site.render ++ ": " ++ reason.message
  | siteRecovered site candidate =>
    site.render ++ ": recovered " ++ Text.quoted candidate.value ++ " via "
      ++ candidate.strategy.name
  | refused error => error.message
  | finished report => report.render

end Event

/-- The events of locating the blob. -/
def Blob.locateEvents (config : Config) (slots : List Slot) : List Event :=
  ((Blob.locate? config slots).map .blobChosen).toList

/-- The events of resolving the blob: a configured slot is taken in silence. -/
def Blob.resolveEvents (config : Config) (slots : List Slot) : List Event :=
  match config.blobSlot with
  | some _ => []
  | none => Blob.locateEvents config slots

/-- The events of forming the pool. -/
def Pool.events (config : Config) (assembly : Assembly) : List Event :=
  match Pool.candidates config assembly with
  | [] => [.standInsTaken (Pool.ofAssembly config assembly).size]
  | found => found.map .decoderFound

/-- The events of decoding a constant: one for each strategy that was tried in vain. -/
def missedEvents (constant : Int32) (missed : List Strategy) : List Event :=
  missed.map fun strategy => .strategyMissed strategy constant

end LiteralRecovery
