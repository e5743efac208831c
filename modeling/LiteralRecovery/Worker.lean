import LiteralRecovery.Event
import LiteralRecovery.Patch

/-!
# Processing a routine

A worker takes one routine after another. For each call site it decodes the constant, through a
cache that all routines of a run share, and puts the literal in its place. Afterwards it counts
the decoder calls that the routine still makes.

## Main definitions

* `Context`: what stays the same throughout a run.
* `Progress`: what a run has gathered so far.
* `Context.processSite`, `Context.processRoutine`: the steps of a worker.
-/

namespace LiteralRecovery

/-! ### The cache -/

/-- What constants of decoders were found to stand for, misses included. -/
abbrev Cache := List ((Token × Int32) × Option Candidate)

namespace Cache

/-- What is held for a constant of a decoder. -/
def find? (cache : Cache) (decoder : Token) (constant : Int32) : Option (Option Candidate) :=
  (List.find? (fun entry => entry.1 = (decoder, constant)) cache).map (·.2)

/-- The cache with an answer added. -/
def insert (cache : Cache) (decoder : Token) (constant : Int32) (answer : Option Candidate) :
    Cache :=
  ((decoder, constant), answer) :: cache

@[simp] theorem find?_nil (decoder : Token) (constant : Int32) :
    find? [] decoder constant = none :=
  rfl

/-- The answer inserted last is the one that is found. -/
theorem find?_insert (cache : Cache) (decoder target : Token) (constant other : Int32)
    (answer : Option Candidate) :
    (cache.insert decoder constant answer).find? target other =
      if decoder = target ∧ constant = other then some answer else cache.find? target other := by
  by_cases h : decoder = target ∧ constant = other <;> simp [insert, find?, h]

end Cache

/-! ### Context and progress -/

/-- What stays the same throughout a run. -/
structure Context where
  config : Config
  blob : Bytes
  pool : Pool

/-- What a run has gathered so far. -/
structure Progress where
  cache : Cache := []
  report : Report := {}
  log : Array Event := #[]

namespace Progress

/-- Adds to the report. -/
def record (progress : Progress) (change : Report → Report) : Progress :=
  { progress with report := change progress.report }

/-- Adds an event to the log. -/
def tell (progress : Progress) (event : Event) : Progress :=
  { progress with log := progress.log.push event }

/-- The site fails for the reason. -/
def fail (progress : Progress) (site : Site) (reason : FailureReason) : Progress :=
  (progress.tell (.siteFailed site reason)).record (·.addFailure site reason)

/-- The literal of the site was decoded but could not be put in its place. -/
def refuse (progress : Progress) (site : Site) (error : Error) : Progress :=
  (progress.tell (.refused error)).record (·.addFailure site .decodeMiss)

/-- The site became a literal. -/
def recover (progress : Progress) (site : Site) (decoder : Token) (candidate : Candidate) :
    Progress :=
  (progress.tell (.siteRecovered site candidate)).record
    (·.addRecovery ⟨site.routine, site.load, site.call, site.constant, decoder,
      candidate.strategy, candidate.value⟩)

/-- The calls are left. -/
def addLiveCalls (progress : Progress) (decoders : List Token) : Progress :=
  progress.record (decoders.foldl Report.addLiveCall)

end Progress

/-! ### The steps of a worker -/

namespace Context

/-- The literal of a site that calls the decoder. -/
def decode? (context : Context) (decoder : Token) (site : Site) : Option Candidate :=
  LiteralRecovery.decode? context.config context.blob (context.pool.find? decoder)
    site.population site.constant

/-- The literal of a site that calls the decoder, after the strategies that were tried in vain. -/
def decodeTracing (context : Context) (decoder : Token) (site : Site) :
    List Strategy × Option Candidate :=
  LiteralRecovery.decodeTracing context.config context.blob (context.pool.find? decoder)
    site.population site.constant

@[simp] theorem decodeTracing_snd (context : Context) (decoder : Token) (site : Site) :
    (context.decodeTracing decoder site).2 = context.decode? decoder site :=
  LiteralRecovery.decodeTracing_snd ..

/-- The literal of a site, from the cache if the constant was decoded before. -/
def lookup (context : Context) (decoder : Token) (site : Site) (progress : Progress) :
    Option Candidate × Progress :=
  match progress.cache.find? decoder site.constant with
  | some answer => (answer, progress)
  | none =>
    let (missed, answer) := context.decodeTracing decoder site
    (answer, { progress with
      cache := progress.cache.insert decoder site.constant answer
      log := progress.log ++ missedEvents site.constant missed })

/-- Examines one call site of the routine under patching. -/
def processSite (context : Context) (state : Patcher × Progress) (site : Site) :
    Patcher × Progress :=
  let patcher := state.1
  let progress := state.2.record Report.addExamined
  match site.target with
  | none => (patcher, progress.fail site .ambiguousTarget)
  | some decoder =>
    match context.lookup decoder site progress with
    | (none, progress) => (patcher, progress.fail site .decodeMiss)
    | (some candidate, progress) =>
      match patcher.patch site candidate.value with
      | .error error => (patcher, progress.refuse site error)
      | .ok patcher => (patcher, progress.recover site decoder candidate)

/-- Examines the call sites of a routine, in order. -/
def processSites (context : Context) (routine : Routine) (progress : Progress) :
    Patcher × Progress :=
  (context.pool.sites context.config routine).foldl context.processSite
    (Patcher.start routine, progress)

/-- The decoder calls that a routine makes. -/
def decoderCalls (context : Context) (routine : Routine) : List Token :=
  routine.callees.filter context.pool.contains

/-- Processes one routine. One without a body is passed over. -/
def processRoutine (context : Context) (routine : Routine) (progress : Progress) :
    Routine × Progress :=
  if routine.hasBody then
    let (patcher, progress) := context.processSites routine progress
    let (routine, patched) := patcher.finish
    let progress := if 0 < patched then progress.record Report.addPatchedRoutine else progress
    (routine, progress.addLiveCalls (context.decoderCalls routine))
  else (routine, progress)

/-- Processes routines in order. With `stop = some n` no routine is started after the first `n`;
those left over stay as they are. -/
def processRoutines (context : Context) :
    (stop : Option Nat) → List Routine → Progress → List Routine × Progress
  | _, [], progress => ([], progress)
  | some 0, routines, progress => (routines, progress)
  | stop, routine :: rest, progress =>
    let (routine, progress) := context.processRoutine routine progress
    let (rest, progress) := context.processRoutines (stop.map (· - 1)) rest progress
    (routine :: rest, progress)

end Context
end LiteralRecovery
