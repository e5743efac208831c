import LiteralRecovery.Proofs.Effect
import Mathlib.Algebra.BigOperators.Group.List.Basic

/-!
# Workers side by side

A run may give every routine to a worker of its own. The workers share the cache and the report, and
nothing is said about the order in which they get to act. Here the work on one routine is cut into
steps that touch what is shared at most once: counting a site, asking the cache, decoding, storing
the answer, putting the literal in its place and recording it, and so on up to the last decoder call
that is left. A schedule says which worker takes the next step.

Two workers may ask for the same constant before either has stored an answer, and then both decode
and both store. They store the same answer, which is the reason why the outcome does not depend on
the schedule.

## The invariant

For every stage of a worker it is known what its routine will become (`goal`) and what it has still
to record (`due`). A step changes neither the goal nor the sum of the report and what is due, so the
two are in the end what they were in the beginning: the routine as it is rewritten, and the report
on it. For all workers together the sum is one of tallies, as their records come in any order.

## Main definitions

* `Stage`, `Worker`, `Context.step`: a worker and its steps
* `System`, `System.follow`: workers that share cache and report, under a schedule
* `Worker.Fits`, `System.Holds`: the invariants of a worker and of a system

## Main results

* `Context.step_moves`: what one step preserves
* `System.Holds.step`, `System.Holds.follow`: what a step of the system and a schedule preserve
* `System.Holds.exists_follow_isDone`: the workers can get done
* `schedules_agree`: every schedule that comes to an end agrees with the sequential run
-/

namespace LiteralRecovery

/-! ### Workers -/

/-- Where a worker stands in its routine. -/
inductive Stage where
  /-- The routine was not started. -/
  | fresh
  /-- The worker is in front of the first of the sites that are left. -/
  | between (rest : List Site)
  /-- The site was counted, and the cache is to be asked. -/
  | asking (site : Site) (rest : List Site)
  /-- The cache had no answer. -/
  | decoding (site : Site) (decoder : Token) (rest : List Site)
  /-- There is an answer for the cache. -/
  | storing (site : Site) (decoder : Token) (answer : Option Candidate) (rest : List Site)
  /-- The answer is known. -/
  | placing (site : Site) (decoder : Token) (answer : Option Candidate) (rest : List Site)
  /-- The sites are done, and these calls are to be counted. -/
  | counting (calls : List Token)
  /-- Nothing is left to do. -/
  | done

/-- A routine under patching, and how far it is. -/
structure Worker where
  patcher : Patcher
  stage : Stage

/-- What the workers share. -/
structure Shared where
  cache : Cache := []
  report : Report := {}

namespace Worker

/-- A worker that was given a routine. -/
def start (routine : Routine) : Worker :=
  ⟨Patcher.start routine, .fresh⟩

/-- Whether the worker has finished its routine. -/
def isDone (worker : Worker) : Bool :=
  match worker.stage with
  | .done => true
  | _ => false

end Worker

namespace Context

/-- One step of a worker. A worker that is done stays as it is. -/
def step (context : Context) (shared : Shared) (worker : Worker) : Shared × Worker :=
  let patcher := worker.patcher
  match worker.stage with
  | .fresh =>
    if patcher.routine.hasBody then
      (shared, ⟨patcher, .between (context.pool.sites context.config patcher.routine)⟩)
    else (shared, ⟨patcher, .done⟩)
  | .between (site :: rest) =>
    ({ shared with report := shared.report.addExamined }, ⟨patcher, .asking site rest⟩)
  | .asking site rest =>
    match site.target with
    | none =>
      ({ shared with report := shared.report.addFailure site .ambiguousTarget },
        ⟨patcher, .between rest⟩)
    | some decoder =>
      match shared.cache.find? decoder site.constant with
      | some answer => (shared, ⟨patcher, .placing site decoder answer rest⟩)
      | none => (shared, ⟨patcher, .decoding site decoder rest⟩)
  | .decoding site decoder rest =>
    (shared, ⟨patcher, .storing site decoder (context.decode? decoder site) rest⟩)
  | .storing site decoder answer rest =>
    ({ shared with cache := shared.cache.insert decoder site.constant answer },
      ⟨patcher, .placing site decoder answer rest⟩)
  | .placing site _ none rest =>
    ({ shared with report := shared.report.addFailure site .decodeMiss },
      ⟨patcher, .between rest⟩)
  | .placing site decoder (some candidate) rest =>
    match patcher.patch site candidate.value with
    | .error _ =>
      ({ shared with report := shared.report.addFailure site .decodeMiss },
        ⟨patcher, .between rest⟩)
    | .ok patcher =>
      ({ shared with report := shared.report.addRecovery (site.recovery decoder candidate) },
        ⟨patcher, .between rest⟩)
  | .between [] =>
    let (routine, patched) := patcher.finish
    let report := if 0 < patched then shared.report.addPatchedRoutine else shared.report
    ({ shared with report := report },
      ⟨⟨routine, patched⟩, .counting (context.decoderCalls routine)⟩)
  | .counting (call :: rest) =>
    ({ shared with report := shared.report.addLiveCall call }, ⟨patcher, .counting rest⟩)
  | .counting [] => (shared, ⟨patcher, .done⟩)
  | .done => (shared, worker)

end Context

/-! ### What a worker will have done -/

namespace Worker

variable (context : Context)

/-- The routine that the worker will end with. -/
def goal (worker : Worker) : Routine :=
  match worker.stage with
  | .fresh => context.rewrite worker.patcher.routine
  | .between rest => (context.ending worker.patcher rest).finish.1
  | .asking site rest => (context.ending worker.patcher (site :: rest)).finish.1
  | .decoding site _ rest => (context.ending worker.patcher (site :: rest)).finish.1
  | .storing site _ _ rest => (context.ending worker.patcher (site :: rest)).finish.1
  | .placing site _ _ rest => (context.ending worker.patcher (site :: rest)).finish.1
  | .counting _ => worker.patcher.routine
  | .done => worker.patcher.routine

/-- What is recorded of sites and of the end of the routine after them. -/
def dueFrom (patcher : Patcher) (sites : List Site) : Report :=
  context.summary sites ++ context.closing (context.ending patcher sites)

/-- The same for a site that was counted, and the sites after it. -/
def dueAt (patcher : Patcher) (site : Site) (rest : List Site) : Report :=
  context.verdict site ++
    dueFrom context (patcher.put (context.placement? site).toList) rest

/-- What the worker has still to record. -/
def due (worker : Worker) : Report :=
  match worker.stage with
  | .fresh => context.routineReport worker.patcher.routine
  | .between rest => dueFrom context worker.patcher rest
  | .asking site rest => dueAt context worker.patcher site rest
  | .decoding site _ rest => dueAt context worker.patcher site rest
  | .storing site _ _ rest => dueAt context worker.patcher site rest
  | .placing site _ _ rest => dueAt context worker.patcher site rest
  | .counting calls => { liveCalls := calls }
  | .done => {}

theorem dueFrom_cons (patcher : Patcher) (site : Site) (rest : List Site) :
    dueFrom context patcher (site :: rest) =
      { examined := 1 } ++ dueAt context patcher site rest := by
  rw [dueFrom, dueAt, dueFrom, context.summary_cons, context.ending_cons]
  simp only [Report.append_assoc]

/-- The patcher can go through the sites: they match its routine, and they are routed as the pool
routes them. -/
structure Ready (patcher : Patcher) (sites : List Site) : Prop where
  accepts : patcher.routine.Accepts sites
  routes : ∀ site ∈ sites, context.Routes site

theorem Ready.put_placement {context : Context} {patcher : Patcher} {site : Site}
    {rest : List Site} (h : Ready context patcher (site :: rest)) :
    Ready context (patcher.put (context.placement? site).toList) rest :=
  ⟨context.accepts_put_placement h.accepts, fun s hs => h.routes s (List.mem_cons_of_mem _ hs)⟩

/-- **The invariant of a worker.** The sites ahead can be gone through, and an answer in hand is the
answer. -/
def Fits (worker : Worker) : Prop :=
  match worker.stage with
  | .fresh => worker.patcher = Patcher.start worker.patcher.routine
  | .between rest => Ready context worker.patcher rest
  | .asking site rest => Ready context worker.patcher (site :: rest)
  | .decoding site decoder rest =>
    Ready context worker.patcher (site :: rest) ∧ site.target = some decoder
  | .storing site decoder answer rest =>
    Ready context worker.patcher (site :: rest) ∧ site.target = some decoder ∧
      answer = context.decode? decoder site
  | .placing site decoder answer rest =>
    Ready context worker.patcher (site :: rest) ∧ site.target = some decoder ∧
      answer = context.decode? decoder site
  | .counting _ => True
  | .done => True

theorem aborted_due (worker : Worker) : (worker.due context).aborted = false := by
  obtain ⟨patcher, stage⟩ := worker
  cases stage <;> rfl

theorem fits_start (routine : Routine) : (start routine).Fits context :=
  rfl

/-- Once the last step is taken, the routine is what it was to become and nothing is due. -/
theorem of_isDone {context : Context} {worker : Worker} (h : worker.isDone) :
    worker.goal context = worker.patcher.routine ∧ worker.due context = {} := by
  obtain ⟨patcher, stage⟩ := worker
  cases stage with
  | done => exact ⟨rfl, rfl⟩
  | _ => cases h

end Worker

/-! ### One step -/

namespace Context

/-- What a step preserves. The report grows by what is no longer due, in this order, which is an
equation between reports and not only between their tallies: nobody else acts within a step. -/
structure Moves (context : Context) (shared : Shared) (worker : Worker)
    (next : Shared × Worker) : Prop where
  sound : next.1.cache.Sound context
  fits : next.2.Fits context
  goal : next.2.goal context = worker.goal context
  report : next.1.report ++ next.2.due context = shared.report ++ worker.due context

variable {context : Context} {shared : Shared} {patcher : Patcher} {site : Site} {rest : List Site}

/-- The step that settles a site, one way or the other: the verdict on it is recorded, and if it is
recovered its literal is put in place. -/
theorem moves_settle {worker : Worker} {report : Report} {patched : Patcher}
    (hsound : shared.cache.Sound context) (hready : Worker.Ready context patcher (site :: rest))
    (hgoal : worker.goal context = (context.ending patcher (site :: rest)).finish.1)
    (hdue : worker.due context = Worker.dueAt context patcher site rest)
    (hpatched : patched = patcher.put (context.placement? site).toList)
    (hreport : report = shared.report ++ context.verdict site) :
    context.Moves shared worker (⟨shared.cache, report⟩, ⟨patched, .between rest⟩) := by
  subst hpatched hreport
  refine ⟨hsound, hready.put_placement, ?_, ?_⟩
  · rw [hgoal, ending_cons]
    rfl
  · rw [hdue, Worker.dueAt, ← Report.append_assoc]
    rfl

/-- Starting a routine. -/
theorem moves_fresh (hsound : shared.cache.Sound context)
    (hstart : patcher = Patcher.start patcher.routine) :
    context.Moves shared ⟨patcher, .fresh⟩ (context.step shared ⟨patcher, .fresh⟩) := by
  by_cases hbody : patcher.routine.hasBody
  · simp only [step, if_pos hbody]
    refine ⟨hsound, ⟨?_, fun site h => routes_of_mem_sites h⟩, ?_, ?_⟩
    · exact Pool.accepts_sites context.pool context.config patcher.routine
    · simp only [Worker.goal, rewrite, patcherOf_eq, ← hstart]
    · simp only [Worker.due, Worker.dueFrom, routineReport, patcherOf_eq, ← hstart]
  · obtain ⟨hrewrite, hreport⟩ := context.routineReport_of_not_hasBody hbody
    simp only [step, if_neg hbody]
    exact ⟨hsound, trivial, hrewrite.symm, congrArg _ hreport.symm⟩

/-- Asking the cache, or giving up on a site that has no target. -/
theorem moves_asking (hsound : shared.cache.Sound context)
    (hready : Worker.Ready context patcher (site :: rest)) :
    context.Moves shared ⟨patcher, .asking site rest⟩
      (context.step shared ⟨patcher, .asking site rest⟩) := by
  cases htarget : site.target with
  | none =>
    obtain ⟨hplacement, hverdict⟩ := context.verdict_of_ambiguous htarget
    simp only [step, htarget]
    exact moves_settle hsound hready rfl rfl (by simp [hplacement])
      (by rw [hverdict, Report.addFailure_eq])
  | some decoder =>
    cases hfind : shared.cache.find? decoder site.constant with
    | none =>
      simp only [step, htarget, hfind]
      exact ⟨hsound, ⟨hready, htarget⟩, rfl, rfl⟩
    | some answer =>
      have hanswer : answer = context.decode? decoder site :=
        eq_decode?_of_find? hsound (hready.routes site (List.mem_cons_self ..)) htarget hfind
      simp only [step, htarget, hfind]
      exact ⟨hsound, ⟨hready, htarget, hanswer⟩, rfl, rfl⟩

/-- Putting the literal in place. The branch in which the patch is refused is never taken. -/
theorem moves_placing {decoder : Token} {answer : Option Candidate}
    (hsound : shared.cache.Sound context) (hready : Worker.Ready context patcher (site :: rest))
    (htarget : site.target = some decoder) (hanswer : answer = context.decode? decoder site) :
    context.Moves shared ⟨patcher, .placing site decoder answer rest⟩
      (context.step shared ⟨patcher, .placing site decoder answer rest⟩) := by
  cases answer with
  | none =>
    obtain ⟨hplacement, hverdict⟩ := context.verdict_of_miss htarget hanswer
    exact moves_settle hsound hready rfl rfl (by simp [hplacement])
      (by rw [hverdict, Report.addFailure_eq])
  | some candidate =>
    obtain ⟨hplacement, hverdict⟩ := context.verdict_of_candidate htarget hanswer
    simp only [step, Patcher.patch_eq_ok candidate.value hready.accepts.head]
    exact moves_settle hsound hready rfl rfl (by rw [hplacement]; rfl)
      (by rw [hverdict, Report.addRecovery_eq])

/-- The end of the sites: the routine is marked if anything was patched, and its calls are read. -/
theorem moves_finish (hsound : shared.cache.Sound context) :
    context.Moves shared ⟨patcher, .between []⟩ (context.step shared ⟨patcher, .between []⟩) := by
  refine ⟨hsound, trivial, rfl, ?_⟩
  have hreport : (if 0 < patcher.finish.2 then shared.report.addPatchedRoutine
      else shared.report) =
        shared.report ++ { routinesPatched := if 0 < patcher.patched then 1 else 0 } := by
    rw [Patcher.finish_snd]
    split
    · exact Report.addPatchedRoutine_eq _
    · exact (Report.append_empty _).symm
  simp only [step, Worker.due, Worker.dueFrom, hreport, summary_nil, Report.empty_append,
    ending_nil, closing_eq, Report.append_assoc]

/-- **One step.** Whatever the others have left in the cache and in the report, a worker keeps to
its routine. -/
theorem step_moves (worker : Worker) (hsound : shared.cache.Sound context)
    (hfits : worker.Fits context) :
    context.Moves shared worker (context.step shared worker) := by
  obtain ⟨patcher, stage⟩ := worker
  cases stage with
  | fresh => exact moves_fresh hsound hfits
  | between sites =>
    cases sites with
    | nil => exact moves_finish hsound
    | cons site rest =>
      refine ⟨hsound, hfits, rfl, ?_⟩
      simp only [step, Worker.due, Worker.dueFrom_cons, Report.addExamined_eq, Report.append_assoc]
  | asking site rest => exact moves_asking hsound hfits
  | decoding site decoder rest =>
    obtain ⟨hready, htarget⟩ := hfits
    exact ⟨hsound, ⟨hready, htarget, rfl⟩, rfl, rfl⟩
  | storing site decoder answer rest =>
    obtain ⟨hready, htarget, rfl⟩ := hfits
    have hroutes := hready.routes site (List.mem_cons_self ..)
    exact ⟨sound_insert hsound hroutes htarget, ⟨hready, htarget, rfl⟩, rfl, rfl⟩
  | placing site decoder answer rest =>
    obtain ⟨hready, htarget, hanswer⟩ := hfits
    exact moves_placing hsound hready htarget hanswer
  | counting calls =>
    cases calls with
    | nil => exact ⟨hsound, trivial, rfl, rfl⟩
    | cons call rest =>
      refine ⟨hsound, trivial, rfl, ?_⟩
      simp only [step, Worker.due, Report.addLiveCall_eq, Report.append_assoc]
      rfl
  | done => exact ⟨hsound, hfits, rfl, rfl⟩

end Context

/-! ### Every worker gets done -/

/-- How much of a report is recorded one step at a time. A site takes five steps at most. -/
def Report.weight (report : Report) : Nat :=
  5 * report.examined + report.liveCalls.length

namespace Report

variable (a b : Report)

theorem weight_append : (a ++ b).weight = a.weight + b.weight := by
  simp only [weight, examined_append, liveCalls_append, List.length_append]
  omega

@[simp] theorem weight_addExamined : a.addExamined.weight = a.weight + 5 := by
  rw [addExamined_eq, weight_append]
  rfl

@[simp] theorem weight_addFailure (site : Site) (reason : FailureReason) :
    (a.addFailure site reason).weight = a.weight :=
  rfl

@[simp] theorem weight_addRecovery (recovery : Recovery) :
    (a.addRecovery recovery).weight = a.weight :=
  rfl

@[simp] theorem weight_addPatchedRoutine : a.addPatchedRoutine.weight = a.weight :=
  rfl

@[simp] theorem weight_addLiveCall (decoder : Token) :
    (a.addLiveCall decoder).weight = a.weight + 1 := by
  rw [addLiveCall_eq, weight_append]
  rfl

end Report

/-- How far a stage is from one that records, or from the end. -/
def Stage.rank : Stage → Nat
  | .fresh => 3
  | .between _ => 2
  | .asking .. => 6
  | .decoding .. => 5
  | .storing .. => 4
  | .placing .. => 3
  | .counting _ => 1
  | .done => 0

/-- A bound on the steps that the worker has still to take. -/
def Worker.pending (context : Context) (worker : Worker) : Nat :=
  (worker.due context).weight + worker.stage.rank

namespace Context

variable {context : Context}

/-- Every step goes on to a later stage or records what makes up for an earlier one. -/
theorem rank_step_lt (context : Context) (shared : Shared) (worker : Worker)
    (h : ¬ worker.isDone) :
    (context.step shared worker).2.stage.rank + shared.report.weight <
      worker.stage.rank + (context.step shared worker).1.report.weight := by
  obtain ⟨patcher, stage⟩ := worker
  cases stage with
  | fresh => simp only [step]; split <;> simp [Stage.rank]
  | between sites =>
    cases sites with
    | nil => simp only [step]; split <;> simp [Stage.rank]
    | cons site rest => simp only [step, Stage.rank, Report.weight_addExamined]; omega
  | asking site rest =>
    simp only [step]
    split
    · simp [Stage.rank]
    · split <;> simp [Stage.rank]
  | decoding site decoder rest => simp [step, Stage.rank]
  | storing site decoder answer rest => simp [step, Stage.rank]
  | placing site decoder answer rest =>
    cases answer with
    | none => simp [step, Stage.rank]
    | some candidate => simp only [step]; split <;> simp [Stage.rank]
  | counting calls =>
    cases calls with
    | nil => simp [step, Stage.rank]
    | cons call rest => simp only [step, Stage.rank, Report.weight_addLiveCall]; omega
  | done => exact absurd rfl h

/-- A worker that is not done gets closer to its end. -/
theorem pending_step_lt {shared : Shared} {worker : Worker} (hsound : shared.cache.Sound context)
    (hfits : worker.Fits context) (h : ¬ worker.isDone) :
    (context.step shared worker).2.pending context < worker.pending context := by
  have hrank := context.rank_step_lt shared worker h
  have hweight := congrArg Report.weight (step_moves worker hsound hfits).report
  simp only [Report.weight_append] at hweight
  simp only [Worker.pending]
  omega

end Context

/-! ### Workers that share -/

theorem Context.tally_reportOf (context : Context) (routines : List Routine) :
    (context.reportOf routines).tally =
      (routines.map fun routine => (context.routineReport routine).tally).sum := by
  induction routines with
  | nil => rfl
  | cons routine rest ih => simp [ih]

/-- Workers, and what they share. -/
structure System where
  shared : Shared := {}
  workers : List Worker

namespace System

/-- One worker for every routine. -/
def start (routines : List Routine) : System :=
  { workers := routines.map Worker.start }

/-- The worker at the index takes a step, if there is one. -/
def step (context : Context) (system : System) (index : Nat) : System :=
  match system.workers[index]? with
  | none => system
  | some worker =>
    let (shared, next) := context.step system.shared worker
    ⟨shared, system.workers.set index next⟩

/-- The workers take their steps in the given order. -/
def follow (context : Context) (system : System) (schedule : List Nat) : System :=
  schedule.foldl (step context) system

/-- Whether all workers have finished their routines. -/
def isDone (system : System) : Bool :=
  system.workers.all Worker.isDone

/-- The routines as they are now. -/
def routines (system : System) : List Routine :=
  system.workers.map (·.patcher.routine)

/-- **The invariant of a system.** The cache can be relied upon, every worker keeps to its routine,
and the records that were made and those that are due are together the records of a run. -/
structure Holds (context : Context) (routines : List Routine) (system : System) : Prop where
  sound : system.shared.cache.Sound context
  fits : ∀ worker ∈ system.workers, worker.Fits context
  goals : system.workers.map (·.goal context) = routines.map context.rewrite
  tally : system.shared.report.tally + (system.workers.map fun worker =>
    (worker.due context).tally).sum = (context.reportOf routines).tally
  aborted : system.shared.report.aborted = false

theorem holds_start (context : Context) (routines : List Routine) :
    (start routines).Holds context routines := by
  refine ⟨Context.sound_nil, ?_, ?_, ?_, rfl⟩
  · intro worker h
    obtain ⟨routine, -, rfl⟩ := List.mem_map.mp h
    exact Worker.fits_start context routine
  · rw [start, List.map_map]
    rfl
  · rw [start, List.map_map, context.tally_reportOf]
    exact zero_add _

/-- The worker that takes a step, and those that do not. -/
theorem exists_split_of_getElem? (context : Context) {system : System} {index : Nat}
    {worker : Worker} (h : system.workers[index]? = some worker) :
    ∃ before after, system.workers = before ++ worker :: after ∧
      system.step context index = ⟨(context.step system.shared worker).1,
        before ++ (context.step system.shared worker).2 :: after⟩ := by
  obtain ⟨hlt, hget⟩ := List.getElem?_eq_some_iff.mp h
  refine ⟨system.workers.take index, system.workers.drop (index + 1), ?_, ?_⟩
  · rw [← hget, List.getElem_cons_drop, List.take_append_drop]
  · simp only [step, h, List.set_eq_take_append_cons_drop, if_pos hlt]

/-- **One step of a system.** -/
theorem Holds.step {context : Context} {system : System} {routines : List Routine}
    (h : system.Holds context routines) (index : Nat) :
    (system.step context index).Holds context routines := by
  cases hworker : system.workers[index]? with
  | none => simpa only [System.step, hworker] using h
  | some worker =>
    obtain ⟨before, after, hsplit, hstep⟩ := exists_split_of_getElem? context hworker
    obtain ⟨hsound, hfits, hgoals, htally, haborted⟩ := h
    rw [hsplit] at hfits hgoals htally
    have hmoves := context.step_moves worker hsound (hfits worker (by simp))
    have hrecord := hmoves.report
    rw [hstep]
    refine ⟨hmoves.sound, ?_, ?_, ?_, ?_⟩
    · intro other hother
      rcases List.mem_append.mp hother with hbefore | hother
      · exact hfits other (List.mem_append_left _ hbefore)
      · rcases List.mem_cons.mp hother with rfl | hafter
        · exact hmoves.fits
        · exact hfits other (List.mem_append_right _ (List.mem_cons_of_mem _ hafter))
    · rw [← hgoals, List.map_append, List.map_append, List.map_cons, List.map_cons, hmoves.goal]
    · -- the worker that moved is put in front of the others, next to the report
      have htallies := congrArg Report.tally hrecord
      simp only [Report.tally_append] at htallies
      rw [(List.perm_middle.map _).sum_eq, List.map_cons, List.sum_cons, ← add_assoc] at htally ⊢
      rw [htallies, htally]
    · have hlater := congrArg Report.aborted hrecord
      simp only [Report.aborted_append, haborted, worker.aborted_due, Bool.or_false,
        Bool.or_eq_false_iff] at hlater
      exact hlater.1

/-- **A schedule.** What holds at the start holds whatever steps were taken. -/
theorem Holds.follow {context : Context} {system : System} {routines : List Routine}
    (h : system.Holds context routines) (schedule : List Nat) :
    (system.follow context schedule).Holds context routines := by
  induction schedule generalizing system with
  | nil => exact h
  | cons index rest ih => exact ih (h.step index)

/-- When all workers are done, the routines are rewritten and the records are those of a run. -/
theorem Holds.of_isDone {context : Context} {system : System} {routines : List Routine}
    (h : system.Holds context routines) (hdone : system.isDone) :
    system.routines = routines.map context.rewrite ∧
      system.shared.report.tally = (context.reportOf routines).tally := by
  have hworkers : ∀ worker ∈ system.workers, worker.goal context = worker.patcher.routine ∧
      worker.due context = {} := fun worker hworker =>
    Worker.of_isDone (List.all_eq_true.mp hdone worker hworker)
  constructor
  · rw [← h.goals, System.routines]
    exact List.map_congr_left fun worker hworker => (hworkers worker hworker).1.symm
  · rw [← h.tally, List.sum_eq_zero, add_zero]
    intro tally htally
    obtain ⟨worker, hworker, rfl⟩ := List.mem_map.mp htally
    rw [(hworkers worker hworker).2, Report.tally_empty]

/-- A bound on the steps that the workers have still to take. -/
def pending (context : Context) (system : System) : Nat :=
  (system.workers.map (·.pending context)).sum

/-- A step of a worker that is not done gets closer to the end. -/
theorem Holds.pending_step_lt {context : Context} {system : System} {routines : List Routine}
    (h : system.Holds context routines) {index : Nat} {worker : Worker}
    (hindex : system.workers[index]? = some worker) (hworker : ¬ worker.isDone) :
    (system.step context index).pending context < system.pending context := by
  obtain ⟨before, after, hsplit, hstep⟩ := exists_split_of_getElem? context hindex
  have hlt := Context.pending_step_lt h.sound (h.fits worker (List.mem_of_getElem? hindex)) hworker
  rw [pending, pending, hstep, hsplit]
  simp only [List.map_append, List.map_cons, List.sum_append, List.sum_cons]
  omega

/-- As long as some worker is not done, there is such a step. -/
theorem Holds.exists_pending_lt {context : Context} {system : System} {routines : List Routine}
    (h : system.Holds context routines) (hdone : ¬ system.isDone) :
    ∃ index, (system.step context index).pending context < system.pending context := by
  obtain ⟨worker, hmem, hworker⟩ : ∃ worker ∈ system.workers, ¬ worker.isDone := by
    simpa [isDone] using hdone
  obtain ⟨index, hindex⟩ := List.mem_iff_getElem?.mp hmem
  exact ⟨index, h.pending_step_lt hindex hworker⟩

/-- The workers can get done, from wherever they are. -/
theorem Holds.exists_follow_isDone {context : Context} {system : System} {routines : List Routine}
    (h : system.Holds context routines) :
    ∃ schedule, (system.follow context schedule).isDone := by
  induction hpending : system.pending context using Nat.strongRecOn generalizing system with
  | _ bound ih =>
    by_cases hdone : system.isDone
    · exact ⟨[], hdone⟩
    · obtain ⟨index, hlt⟩ := h.exists_pending_lt hdone
      obtain ⟨schedule, hschedule⟩ := ih _ (hpending ▸ hlt) (h.step index) rfl
      exact ⟨index :: schedule, hschedule⟩

end System

/-! ### Every schedule gives what the sequential run gives -/

/-- **The order of the work does not matter.** Give every routine a worker, and let the workers take
their steps in any order until all of them are done, which they can always become. The routines are
then those of the sequential run, with bodies and flags, and so are the counters, the calls left of
every decoder and the decoders that may be removed. The logs have the same entries in some order. -/
theorem schedules_agree {engine : Engine} {supply : WorkerSupply} {assembly : Assembly}
    {blob : Blob} (hready : engine.config.prepare supply assembly.slots = .ok blob) :
    let follow := (System.start assembly.routines).follow (engine.context assembly blob)
    (∃ schedule, (follow schedule).isDone) ∧
      ∀ schedule, (follow schedule).isDone → ∃ report,
        (engine.run supply assembly).result = .ok report ∧
        (follow schedule).routines = (engine.run supply assembly).assembly.routines ∧
        (follow schedule).shared.report.examined = report.examined ∧
        (follow schedule).shared.report.recovered = report.recovered ∧
        (follow schedule).shared.report.failed = report.failed ∧
        (follow schedule).shared.report.routinesPatched = report.routinesPatched ∧
        (∀ decoder, (follow schedule).shared.report.liveCallsOf decoder =
          report.liveCallsOf decoder) ∧
        (follow schedule).shared.report.removable = report.removable ∧
        (follow schedule).shared.report.recoveries.Perm report.recoveries ∧
        (follow schedule).shared.report.failures.Perm report.failures := by
  intro follow
  have hstart := System.holds_start (engine.context assembly blob) assembly.routines
  refine ⟨hstart.exists_follow_isDone, fun schedule hdone => ?_⟩
  have hholds := hstart.follow schedule
  obtain ⟨hroutines, htally⟩ := hholds.of_isDone hdone
  obtain ⟨hassembly, hresult⟩ := Engine.runUntil_of_prepare none hready
  obtain ⟨hexamined, hrecovered, hrecoveries, hfailures, hpatched, hcalls⟩ :=
    Report.tally_eq_iff.mp htally
  refine ⟨_, hresult, ?_, hexamined, hrecovered, hfailures.length_eq, hpatched,
    fun decoder => hcalls.count_eq decoder, ?_, hrecoveries, hfailures⟩
  · rw [Engine.run, hassembly, hroutines]
    exact (List.append_nil _).symm
  · exact Report.removable_eq_of_tally_eq htally hholds.aborted

namespace Sample

/-- A second routine with the calls of the first. -/
def twin : Routine :=
  { main with token := ⟨0x06000003⟩, name := "Twin" }

/-- The assembly with both callers. -/
def twinAssembly : Assembly :=
  { assembly with routines := [decoder, main, twin] }

/-- The callers take turns, and the second one is always ahead: both ask for the same constants
before there is an answer. -/
def schedule : List Nat :=
  (List.replicate 14 [2, 1, 0]).flatten

end Sample

/-- The records of the second caller come first here, and last in the sequential run. -/
theorem schedules_agree_sample :
    let follow := (System.start Sample.twinAssembly.routines).follow
      (Sample.engine.context Sample.twinAssembly Sample.blob)
    Sample.engine.config.prepare Sample.supply Sample.twinAssembly.slots = .ok Sample.blob ∧
      (follow Sample.schedule).isDone ∧
      (follow Sample.schedule).shared.report.recoveries.map (·.routine) =
        [Sample.twin.token, Sample.main.token] ∧
      ∃ report, (Sample.engine.run Sample.supply Sample.twinAssembly).result = .ok report ∧
        (follow Sample.schedule).routines =
          (Sample.engine.run Sample.supply Sample.twinAssembly).assembly.routines ∧
        (follow Sample.schedule).shared.report.recoveries.Perm report.recoveries := by
  intro follow
  have hready : Sample.engine.config.prepare Sample.supply Sample.twinAssembly.slots =
      .ok Sample.blob := rfl
  have hdone : (follow Sample.schedule).isDone := by decide
  obtain ⟨report, hresult, hroutines, -, -, -, -, -, -, hrecoveries, -⟩ :=
    (schedules_agree hready).2 Sample.schedule hdone
  exact ⟨hready, hdone, by decide, report, hresult, hroutines, hrecoveries⟩

end LiteralRecovery
