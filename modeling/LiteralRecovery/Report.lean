import LiteralRecovery.Site

/-!
# Reports

What a run did: every examined call site with its outcome, the routines that were patched, and the
decoder calls that are left. The queries are views of these records.
-/

namespace LiteralRecovery

/-- Why a call site was left as it was. -/
inductive FailureReason where
  /-- No strategy gave an accepted literal. -/
  | decodeMiss
  /-- The call does not say what it calls. -/
  | ambiguousTarget
deriving DecidableEq, Repr

/-- The reason in words. -/
def FailureReason.message : FailureReason → String
  | decodeMiss => "no strategy produced a valid string"
  | ambiguousTarget => "call target cannot be resolved"

/-- A call site that became a literal. -/
structure Recovery where
  routine : Token
  load : Nat
  call : Nat
  constant : Int32
  decoder : Token
  strategy : Strategy
  value : String
deriving DecidableEq, Repr

/-- A call site that was left as it was. -/
structure Failure where
  site : Site
  reason : FailureReason
deriving DecidableEq, Repr

/-- The records of a run, in the order in which they were made. -/
structure Report where
  examined : Nat := 0
  /-- The number of recovered literals. -/
  recovered : Nat := 0
  recoveries : List Recovery := []
  failures : List Failure := []
  routinesPatched : Nat := 0
  liveCalls : List Token := []
  aborted : Bool := false
deriving DecidableEq, Repr

namespace Report

/-- Nothing recorded. -/
def empty : Report :=
  {}

/-! ### Recording -/

/-- One more call site was looked at. -/
def addExamined (report : Report) : Report :=
  { report with examined := report.examined + 1 }

/-- A call site became a literal. -/
def addRecovery (report : Report) (recovery : Recovery) : Report :=
  { report with
    recovered := report.recovered + 1
    recoveries := report.recoveries ++ [recovery] }

/-- A call site was left as it was. -/
def addFailure (report : Report) (site : Site) (reason : FailureReason) : Report :=
  { report with failures := report.failures ++ [⟨site, reason⟩] }

/-- One more routine was changed. -/
def addPatchedRoutine (report : Report) : Report :=
  { report with routinesPatched := report.routinesPatched + 1 }

/-- A call of a decoder is left. -/
def addLiveCall (report : Report) (decoder : Token) : Report :=
  { report with liveCalls := report.liveCalls ++ [decoder] }

/-- The run was stopped before its end. -/
def markAborted (report : Report) : Report :=
  { report with aborted := true }

/-! ### Queries -/

/-- The number of failures. -/
def failed (report : Report) : Nat :=
  report.failures.length

/-- The failures with the reason. -/
def failuresBy (report : Report) (reason : FailureReason) : List Failure :=
  report.failures.filter (·.reason = reason)

/-- How many calls of a decoder are left. -/
def liveCallsOf (report : Report) (decoder : Token) : Nat :=
  report.liveCalls.count decoder

/-- How many literals a strategy found. -/
def recoveredBy (report : Report) (strategy : Strategy) : Nat :=
  report.recoveries.countP (·.strategy = strategy)

/-- The strategies that found anything, with the number of literals each. -/
def strategyCounts (report : Report) : List (Strategy × Nat) :=
  (Strategy.all.map fun strategy => (strategy, report.recoveredBy strategy)).filter (0 < ·.2)

/-- Whether a failure has the decoder as its target. -/
def failsFor (report : Report) (decoder : Token) : Bool :=
  report.failures.any (·.site.target = some decoder)

/-- The decoders that nothing needs any more, in ascending order: some literal was recovered from
them, no site failed and no call is left. After a run that was stopped there are none. -/
def removable (report : Report) : List Token :=
  if report.aborted then []
  else
    Token.sorted ((report.recoveries.map (·.decoder)).eraseDups.filter fun decoder =>
      !report.failsFor decoder && report.liveCallsOf decoder = 0)

/-- The literals of a routine with the positions of their loads, in ascending order. -/
def stringsOf (report : Report) (routine : Token) : List (Nat × String) :=
  ((report.recoveries.filter (·.routine = routine)).map fun recovery =>
    (recovery.call, recovery.value)).mergeSort fun a b => a.1 ≤ b.1

/-- The literals of each routine that has any, in token order. -/
def stringsByRoutine (report : Report) : List (Token × List (Nat × String)) :=
  (Token.sorted (report.recoveries.map (·.routine)).eraseDups).map fun routine =>
    (routine, report.stringsOf routine)

/-- The report with both logs ordered by routine and call, which do not depend on the order in
which workers finish. -/
def ordered (report : Report) : Report :=
  { report with
    recoveries := report.recoveries.mergeSort fun a b =>
      if a.routine = b.routine then a.call ≤ b.call else a.routine.le b.routine
    failures := report.failures.mergeSort fun a b =>
      if a.site.routine = b.site.routine then a.site.call ≤ b.site.call
      else a.site.routine.le b.site.routine }

/-- The report in one line. -/
def render (report : Report) : String :=
  toString report.examined ++ " call sites examined, " ++ toString report.recovered
    ++ " strings recovered, " ++ toString report.failed ++ " failed ("
    ++ toString report.routinesPatched ++ " routines patched)"
    ++ if report.aborted then " [aborted]" else ""

end Report
end LiteralRecovery
