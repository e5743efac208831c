import LiteralRecovery.Token

/-!
# Errors

Why a run or a single patch is refused, and the wording of each cause.
-/

namespace LiteralRecovery

/-- What stops a run or a patch. -/
inductive Error where
  /-- No slot qualifies as the blob. -/
  | blobNotFound
  /-- The slot that the configuration names is missing or has no bytes. -/
  | blobSlotMissing (name : String)
  /-- The instructions of a routine are not those that a call site recorded. -/
  | staleSite (routine : Token) (index : Nat) (detail : String)
  /-- The workers could not be started. -/
  | workerPool (reason : String)
deriving DecidableEq, Repr

/-- The error in words. -/
def Error.message : Error → String
  | blobNotFound => "No encoded string blob found in any static data slot"
  | blobSlotMissing name =>
    "Configured blob slot '" ++ name ++ "' does not exist or has no initial data"
  | staleSite routine index detail =>
    "Stale call site in " ++ routine.render ++ " at " ++ toString index ++ ": " ++ detail
  | workerPool reason => "Failed to build worker pool - " ++ reason

end LiteralRecovery
