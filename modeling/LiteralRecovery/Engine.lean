import LiteralRecovery.Worker

/-!
# The recovery engine

An engine runs on one assembly after another. A run finds the blob, forms the pool of decoders,
obtains its workers and processes every routine. It fails if there is no blob or if the workers
cannot be had, and then the assembly is left alone. Nothing of an earlier run is carried into the
next: the cache and a request to abort are cleared at the start.

Whether workers can be had is up to the environment, so a run takes a `WorkerSupply`. Routines are
processed here in the order of the assembly. How many workers share them is of no account: a
routine's sites are decoded from the blob and the pool alone, and the logs of a report are compared
in the form that `Report.ordered` gives them.

## Main definitions

* `WorkerSupply`, `Config.obtainWorkers`: the workers of a run
* `Config.prepare`: what can fail in a run
* `Engine.runUntil`, `Engine.run`: a run
-/

namespace LiteralRecovery

/-! ### Workers -/

/-- Asked for so many workers, an environment gives them or says why it cannot. -/
abbrev WorkerSupply := Nat → Except String Unit

/-- Obtains the workers of a run. Only a limited number of them has to be asked for: a single
worker is there already, and so are those that all runs share. -/
def Config.obtainWorkers (config : Config) (supply : WorkerSupply) : Except Error Unit :=
  match config.parallel, config.maxThreads with
  | true, some count => (supply count).mapError .workerPool
  | _, _ => .ok ()

namespace Config

variable {config : Config} {supply : WorkerSupply} {slots : List Slot} {blob : Blob} {error : Error}

theorem obtainWorkers_eq_error_iff :
    config.obtainWorkers supply = .error error ↔
      config.parallel ∧ ∃ count reason, config.maxThreads = some count ∧
        supply count = .error reason ∧ error = .workerPool reason := by
  unfold obtainWorkers
  split
  next count hparallel hlimit =>
    constructor
    · intro h
      cases hsupply : supply count with
      | ok _ =>
        rw [hsupply] at h
        cases h
      | error reason =>
        rw [hsupply] at h
        cases h
        exact ⟨hparallel, count, reason, hlimit, hsupply, rfl⟩
    · rintro ⟨-, limit, reason, hsome, hsupply, rfl⟩
      obtain rfl := Option.some.inj (hlimit.symm.trans hsome)
      rw [hsupply]
      rfl
  next hother =>
    simp only [reduceCtorEq, false_iff, not_and, not_exists]
    rintro hparallel count reason hlimit -
    exact absurd hlimit (hother count hparallel)

/-- What has to succeed before a routine is started: the blob is found and the workers are
obtained. -/
def prepare (config : Config) (supply : WorkerSupply) (slots : List Slot) : Except Error Blob :=
  match Blob.resolve config slots with
  | .error error => .error error
  | .ok blob => (config.obtainWorkers supply).map fun _ => blob

theorem prepare_eq_ok_iff :
    config.prepare supply slots = .ok blob ↔
      Blob.resolve config slots = .ok blob ∧ config.obtainWorkers supply = .ok () := by
  cases hblob : Blob.resolve config slots <;>
    cases hworkers : config.obtainWorkers supply <;>
    simp [prepare, hblob, hworkers, Except.map]

theorem prepare_eq_error_iff :
    config.prepare supply slots = .error error ↔
      Blob.resolve config slots = .error error ∨
        (∃ blob, Blob.resolve config slots = .ok blob) ∧
          config.obtainWorkers supply = .error error := by
  cases hblob : Blob.resolve config slots <;>
    cases hworkers : config.obtainWorkers supply <;>
    simp [prepare, hblob, hworkers, Except.map]

end Config

/-! ### Runs -/

/-- A configuration, what the last run left in the cache, and whether an abort is requested. -/
structure Engine where
  config : Config := {}
  cache : Cache := []
  abortRequested : Bool := false

/-- What a run gives back: the engine and the assembly as it leaves them, the report or the error,
and the events in order. -/
structure Outcome where
  engine : Engine
  assembly : Assembly
  result : Except Error Report
  log : List Event

namespace Engine

/-- An engine before its first run. -/
def ofConfig (config : Config) : Engine :=
  { config := config }

/-- Asks for the current run to be stopped. Routines that were started are finished. -/
def abort (engine : Engine) : Engine :=
  { engine with abortRequested := true }

/-- What the routines of an assembly have in common once the blob is known. -/
def context (engine : Engine) (assembly : Assembly) (blob : Blob) : Context :=
  ⟨engine.config, blob.bytes, Pool.ofAssembly engine.config assembly⟩

/-- Recovers the literals of an assembly. With `stop = some n` an abort is requested during the
run, at the moment when `n` routines have been started. -/
def runUntil (engine : Engine) (supply : WorkerSupply) (stop : Option Nat) (assembly : Assembly) :
    Outcome :=
  let config := engine.config
  match Blob.resolve config assembly.slots with
  | .error error =>
    { engine := ofConfig config, assembly := assembly, result := .error error
      log := [.refused error] }
  | .ok blob =>
    let found := Blob.resolveEvents config assembly.slots ++ Pool.events config assembly
    match config.obtainWorkers supply with
    | .error error =>
      -- No routine is started, so of all requests only one at the very start has been made.
      { engine := { config := config, abortRequested := stop = some 0 }
        assembly := assembly
        result := .error error
        log := found }
    | .ok _ =>
      let context := engine.context assembly blob
      let (routines, progress) := context.processRoutines stop assembly.routines {}
      let report := if stop.isSome then progress.report.markAborted else progress.report
      { engine := { config := config, cache := progress.cache, abortRequested := stop.isSome }
        assembly := { assembly with routines := routines }
        result := .ok report
        log := found ++ progress.log.toList ++ [.finished report] }

/-- Recovers the literals of an assembly, undisturbed. -/
def run (engine : Engine) (supply : WorkerSupply) (assembly : Assembly) : Outcome :=
  engine.runUntil supply none assembly

end Engine
end LiteralRecovery
