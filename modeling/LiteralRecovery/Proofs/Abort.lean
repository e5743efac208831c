import LiteralRecovery.Proofs.Entries
import Mathlib.Data.Finset.Range

/-!
# Stopping a run

A request to abort may come at any moment. It is looked at in one place only: a worker that is about
to start a routine turns away if an abort was requested, and leaves the routine alone. Whoever has
started by then goes on to the end of the routine, with all its sites and the calls that it is left
with.

So the request divides the routines into those that were started before it and the others. A worker
that turns away is as good as one that is never given a turn. A stopped run is therefore a run of
workers side by side in which some were never given a turn, and what holds of such runs holds of it:
the routines that were started end as they do in a run to the end, the others stay as they are, and
the report is about the former alone. As it knows nothing of the calls in the latter, it must not
call any decoder superfluous, and it does not.

## Main definitions

* `Move`, `Session`, `Engine.runUnder`: workers under a schedule, and requests to abort
* `startedBefore`: the positions of the routines that were started before the request
* `Report.Matches`: two reports with the same records in some order
* `Engine.ProcessedOnly`: what a run leaves that has processed the routines at some positions

## Main results

* `System.isFresh_step`, `System.isFresh_follow`: who has not started
* `Session.follow_of_not_mem`, `Session.exists_follow_of_abort`: moves before and after the request
* `Session.exists_isOver_append`: a run comes to its end, stopped or not
* `abort_all_or_nothing`
-/

namespace LiteralRecovery

/-! ### Sessions -/

/-- What may happen next in a run: the worker at an index gets a turn, or an abort is requested. -/
inductive Move where
  | act (index : Nat)
  | abort
deriving DecidableEq, Repr

/-- The worker that gets the turn. -/
def Move.index? : Move → Option Nat
  | act index => some index
  | abort => none

/-- Workers, and whether an abort was requested. -/
structure Session where
  system : System
  abortRequested : Bool := false

namespace Session

/-- One worker for every routine, and no request. -/
def start (routines : List Routine) : Session :=
  { system := .start routines }

/-- One move. A worker that has not started its routine looks for a request first. If there is one,
it turns away and leaves everything as it is, now and whenever it gets a turn again. -/
def step (context : Context) (session : Session) : Move → Session
  | .abort => { session with abortRequested := true }
  | .act index =>
    if session.abortRequested && session.system.workers[index]?.any Worker.isFresh then session
    else { session with system := session.system.step context index }

/-- The given moves, in order. -/
def follow (context : Context) (session : Session) (moves : List Move) : Session :=
  moves.foldl (step context) session

/-- Whether nothing is left to do: each worker is done with its routine or turns away from it. -/
def isOver (session : Session) : Bool :=
  session.system.workers.all fun worker =>
    worker.isDone || session.abortRequested && worker.isFresh

/-- The report, with the mark of a run that was stopped if it was. -/
def report (session : Session) : Report :=
  if session.abortRequested then session.system.shared.report.markAborted
  else session.system.shared.report

end Session

/-- A run under a schedule: the assembly as it is left and the report or the error, unless the moves
end before the run does. -/
def Engine.runUnder (engine : Engine) (supply : WorkerSupply) (moves : List Move)
    (assembly : Assembly) : Option (Assembly × Except Error Report) :=
  match engine.config.prepare supply assembly.slots with
  | .error error => some (assembly, .error error)
  | .ok blob =>
    let session := (Session.start assembly.routines).follow (engine.context assembly blob) moves
    if session.isOver then
      some ({ assembly with routines := session.system.routines }, .ok session.report)
    else none

/-- The positions of the routines that were started before an abort was requested. -/
def startedBefore (moves : List Move) : Finset Nat :=
  ((moves.takeWhile (· ≠ .abort)).filterMap Move.index?).toFinset

theorem startedBefore_of_not_mem {first : List Move} (h : .abort ∉ first) (second : List Move) :
    startedBefore (first ++ .abort :: second) = (first.filterMap Move.index?).toFinset := by
  have hfirst : ∀ move ∈ first, decide (move ≠ .abort) := fun move hmove =>
    decide_eq_true fun habort => h (habort ▸ hmove)
  rw [startedBefore, List.takeWhile_append_of_pos hfirst]
  simp

/-- What comes after the request is of no account. -/
theorem startedBefore_append {moves : List Move} (h : .abort ∈ moves) (later : List Move) :
    startedBefore (moves ++ later) = startedBefore moves := by
  obtain ⟨first, second, rfl, hfirst⟩ := List.eq_append_cons_of_mem h
  rw [List.append_assoc, List.cons_append, startedBefore_of_not_mem hfirst,
    startedBefore_of_not_mem hfirst]

/-! ### Who has not started -/

namespace System

/-- **One step.** Whoever takes it has started, and nobody else has because of it. -/
theorem isFresh_step (context : Context) (system : System) (index i : Nat) :
    (system.step context index).workers[i]?.any Worker.isFresh =
      (system.workers[i]?.any Worker.isFresh && decide (i ≠ index)) := by
  cases hworker : system.workers[index]? with
  | none =>
    rw [step, hworker]
    by_cases hi : i = index
    · rw [hi, hworker]
      rfl
    · simp [hi]
  | some worker =>
    rw [step, hworker]
    dsimp only
    rw [List.getElem?_set]
    by_cases hi : index = i
    · subst hi
      have hlt := (List.getElem?_eq_some_iff.mp hworker).1
      simp [hlt, context.isFresh_step]
    · simp [hi, Ne.symm hi]

/-- **A schedule.** Those have not started who had not before and got no turn. -/
theorem isFresh_follow (context : Context) (system : System) (schedule : List Nat) (i : Nat) :
    (system.follow context schedule).workers[i]?.any Worker.isFresh =
      (system.workers[i]?.any Worker.isFresh && decide (i ∉ schedule)) := by
  induction schedule generalizing system with
  | nil => simp [follow]
  | cons index rest ih =>
    have hrest := ih (system.step context index)
    rw [isFresh_step] at hrest
    rw [follow, List.foldl_cons, ← follow, hrest]
    by_cases hi : i = index <;> simp [hi]

theorem isFresh_start (routines : List Routine) (i : Nat) :
    (start routines).workers[i]?.any Worker.isFresh = decide (i < routines.length) := by
  rw [start, List.getElem?_map]
  by_cases hi : i < routines.length
  · simp [hi, Worker.start, Worker.isFresh]
  · simp [hi]

theorem follow_append (context : Context) (system : System) (first second : List Nat) :
    system.follow context (first ++ second) =
      (system.follow context first).follow context second :=
  List.foldl_append

end System

namespace Session

variable {context : Context} {moves : List Move}

theorem follow_append (context : Context) (session : Session) (first second : List Move) :
    session.follow context (first ++ second) =
      (session.follow context first).follow context second :=
  List.foldl_append

/-- **Before the request** moves are the turns of workers, and nothing else. -/
theorem follow_of_not_mem (system : System) (h : .abort ∉ moves) :
    (Session.mk system false).follow context moves =
      ⟨system.follow context (moves.filterMap Move.index?), false⟩ := by
  induction moves generalizing system with
  | nil => rfl
  | cons move rest ih =>
    cases move with
    | abort => exact absurd List.mem_cons_self h
    | act index =>
      exact ih (system.step context index) fun hrest => h (List.mem_cons_of_mem _ hrest)

/-- **After the request** only those get on who had started before. -/
theorem exists_follow_of_abort (context : Context) (system : System) (moves : List Move) :
    ∃ schedule, (Session.mk system true).follow context moves =
        ⟨system.follow context schedule, true⟩ ∧
      ∀ i ∈ schedule, system.workers[i]?.any Worker.isFresh = false := by
  induction moves generalizing system with
  | nil => exact ⟨[], rfl, by simp⟩
  | cons move rest ih =>
    cases move with
    | abort => exact ih system
    | act index =>
      rw [follow, List.foldl_cons, ← follow, step, Bool.true_and]
      split
      next => exact ih system
      next hstarted =>
        obtain ⟨schedule, hfollow, hschedule⟩ := ih (system.step context index)
        refine ⟨index :: schedule, hfollow, fun i hi => ?_⟩
        by_cases hindex : i = index
        · subst hindex
          simpa using hstarted
        · have hother := hschedule i ((List.mem_cons.mp hi).resolve_left hindex)
          rw [System.isFresh_step] at hother
          simpa [hindex] using hother

/-- **A session with a request** is a system under some schedule, in which exactly those routines
were started that were started before the request. -/
theorem exists_schedule (context : Context) (routines : List Routine) (h : .abort ∈ moves) :
    ∃ schedule, (start routines).follow context moves =
        ⟨(System.start routines).follow context schedule, true⟩ ∧
      ∀ i, ((System.start routines).follow context schedule).workers[i]?.any Worker.isFresh =
        decide (i < routines.length ∧ i ∉ startedBefore moves) := by
  obtain ⟨first, second, rfl, hfirst⟩ := List.eq_append_cons_of_mem h
  obtain ⟨late, hfollow, hlate⟩ := exists_follow_of_abort context
    ((System.start routines).follow context (first.filterMap Move.index?)) second
  refine ⟨first.filterMap Move.index? ++ late, ?_, fun i => ?_⟩
  · rw [follow_append, start, follow_of_not_mem _ hfirst, System.follow_append, ← hfollow]
    rfl
  · -- whoever is given a turn after the request was given one before
    have hearly : i ∈ late → i < routines.length → i ∈ first.filterMap Move.index? := by
      intro hi hlt
      have hstarted := hlate i hi
      rw [System.isFresh_follow, System.isFresh_start] at hstarted
      simpa [hlt] using hstarted
    rw [System.isFresh_follow, System.isFresh_start, startedBefore_of_not_mem hfirst,
      ← Bool.decide_and]
    refine decide_eq_decide.mpr (and_congr_right fun hlt => not_congr ?_)
    rw [List.mem_append, List.mem_toFinset, or_iff_left_of_imp fun hi => hearly hi hlt]

/-- Once there is a request, a session is over when nobody is in the middle of a routine. -/
theorem isOver_of_abort (system : System) : (Session.mk system true).isOver = system.isAtRest := by
  simp only [isOver, System.isAtRest, Bool.true_and, Bool.or_comm]

/-- **A stopped run comes to its end**, whoever is in the middle of a routine when it is stopped. -/
theorem exists_isOver {routines : List Routine} {system : System}
    (h : system.Holds context routines) :
    ∃ turns : List Nat, ((Session.mk system true).follow context (turns.map .act)).isOver := by
  induction hpending : system.pending context using Nat.strongRecOn generalizing system with
  | _ bound ih =>
    by_cases hover : (Session.mk system true).isOver
    · exact ⟨[], hover⟩
    · obtain ⟨worker, hmem, hfresh, hdone⟩ :
          ∃ worker ∈ system.workers, worker.isFresh = false ∧ worker.isDone = false := by
        simpa [isOver_of_abort, System.isAtRest] using hover
      obtain ⟨index, hindex⟩ := List.mem_iff_getElem?.mp hmem
      have hlt := h.pending_step_lt hindex (by simp [hdone])
      obtain ⟨turns, hturns⟩ := ih _ (hpending ▸ hlt) (h.step index) rfl
      have hstep : (Session.mk system true).step context (.act index) =
          ⟨system.step context index, true⟩ := by
        simp [step, hindex, hfresh]
      refine ⟨index :: turns, ?_⟩
      rw [List.map_cons, follow, List.foldl_cons, hstep]
      exact hturns

/-- **A session comes to its end**, whether or not there is a request. -/
theorem exists_isOver_append (context : Context) (routines : List Routine) (moves : List Move) :
    ∃ turns : List Nat,
      ((start routines).follow context (moves ++ turns.map .act)).isOver := by
  by_cases habort : .abort ∈ moves
  · obtain ⟨schedule, hfollow, -⟩ := exists_schedule context routines habort
    obtain ⟨turns, hover⟩ :=
      exists_isOver ((System.holds_start context routines).follow schedule)
    refine ⟨turns, ?_⟩
    rwa [follow_append, hfollow]
  · obtain ⟨turns, hdone⟩ := ((System.holds_start context routines).follow
      (moves.filterMap Move.index?)).exists_follow_isDone
    have hnone : .abort ∉ moves ++ turns.map Move.act := by simp [habort]
    have hturns : (turns.map Move.act).filterMap Move.index? = turns := by
      rw [List.filterMap_map]
      exact List.filterMap_some
    refine ⟨turns, ?_⟩
    rw [start, follow_of_not_mem _ hnone, List.filterMap_append, hturns, System.follow_append,
      isOver]
    simpa [System.isDone] using hdone

end Session

/-! ### Workers at rest, by position -/

/-- At rest, whoever has started is done. -/
theorem Worker.isDone_eq_not_isFresh {worker : Worker} (h : worker.isFresh || worker.isDone) :
    worker.isDone = !worker.isFresh := by
  obtain ⟨patcher, stage⟩ := worker
  cases stage with
  | fresh => rfl
  | done => rfl
  | _ => cases h

/-- The routines at the given positions, in order. -/
def routinesAt (positions : Finset Nat) (routines : List Routine) : List Routine :=
  (routines.zipIdx.filter (·.2 ∈ positions)).map Prod.fst

/-- Counted from any position, the first so many are those in front of a bound. -/
theorem filter_zipIdx_range (n offset : Nat) (routines : List Routine) :
    ((routines.zipIdx offset).filter (·.2 ∈ Finset.range n)).map Prod.fst =
      routines.take (n - offset) := by
  induction routines generalizing offset with
  | nil => simp
  | cons routine rest ih =>
    rw [List.zipIdx_cons]
    by_cases hlt : offset < n
    · obtain ⟨left, hleft⟩ : ∃ left, n - offset = left + 1 := ⟨n - offset - 1, by omega⟩
      have hrest : n - (offset + 1) = left := by omega
      rw [List.filter_cons_of_pos (by simpa using hlt), List.map_cons, ih, hleft, hrest,
        List.take_succ_cons]
    · have hnone : n - offset = 0 := by omega
      have hrest : n - (offset + 1) = 0 := by omega
      rw [List.filter_cons_of_neg (by simpa using hlt), ih, hnone, hrest, List.take_zero,
        List.take_zero]

theorem routinesAt_range (n : Nat) (routines : List Routine) :
    routinesAt (Finset.range n) routines = routines.take n :=
  filter_zipIdx_range n 0 routines

namespace System

variable {context : Context} {routines : List Routine} {system : System}

/-- Counted from any position, those are processed whose positions are of workers that are done. -/
theorem processedBy_eq_filter {workers : List Worker} {positions : Finset Nat}
    (h : List.Forall₂ Worker.Keeps routines workers) (offset : Nat)
    (hdone : ∀ i worker, workers[i]? = some worker →
      worker.isDone = decide (offset + i ∈ positions)) :
    processedBy routines workers =
      ((routines.zipIdx offset).filter (·.2 ∈ positions)).map Prod.fst := by
  induction h generalizing offset with
  | nil => rfl
  | @cons routine worker routines workers _ _ ih =>
    have hworker : worker.isDone = decide (offset ∈ positions) := hdone 0 worker rfl
    have hrest := ih (offset + 1) fun i other hother => by
      rw [hdone (i + 1) other hother, Nat.add_right_comm, Nat.add_assoc]
    rw [List.zipIdx_cons, List.filter_cons]
    rw [processedBy] at hrest ⊢
    rw [List.zip_cons_cons, List.filter_cons, hworker]
    split
    · rw [List.map_cons, List.map_cons, hrest]
    · exact hrest

/-- A worker that is done has rewritten its routine. -/
theorem Holds.getElem?_routines_of_isDone (h : system.Holds context routines) {i : Nat}
    (hdone : ∀ worker ∈ system.workers[i]?, worker.isDone) :
    system.routines[i]? = (routines.map context.rewrite)[i]? := by
  rw [← h.goals, System.routines, List.getElem?_map, List.getElem?_map]
  refine Option.map_congr fun worker hworker => ?_
  exact (Worker.of_isDone (hdone worker hworker)).1.symm

/-- A worker that has not started has left its routine alone. -/
theorem getElem?_routines_of_isFresh (h : List.Forall₂ Worker.Keeps routines system.workers)
    {i : Nat} (hfresh : ∀ worker ∈ system.workers[i]?, worker.isFresh) :
    system.routines[i]? = routines[i]? := by
  rw [System.routines, List.getElem?_map]
  by_cases hlt : i < system.workers.length
  · have hlt' : i < routines.length := h.length_eq ▸ hlt
    have hget := List.getElem?_eq_getElem hlt
    have hkeeps := (List.forall₂_iff_get.mp h).2 i hlt' hlt (hfresh _ hget)
    rw [hget, List.getElem?_eq_getElem hlt']
    exact congrArg (fun worker => some worker.patcher.routine) hkeeps
  · have hge : routines.length ≤ i := h.length_eq ▸ Nat.le_of_not_lt hlt
    rw [List.getElem?_eq_none (Nat.le_of_not_lt hlt), List.getElem?_eq_none hge]
    rfl

/-- **At rest.** If exactly the routines at the given positions were started, they are rewritten,
the others are left alone, and the records are about the former. -/
theorem Holds.of_isAtRest (h : system.Holds context routines)
    (hkeeps : List.Forall₂ Worker.Keeps routines system.workers) (hrest : system.isAtRest)
    {positions : Finset Nat}
    (hfresh : ∀ i, system.workers[i]?.any Worker.isFresh =
      decide (i < routines.length ∧ i ∉ positions)) :
    (∀ i ∈ positions, system.routines[i]? = (routines.map context.rewrite)[i]?) ∧
      (∀ i ∉ positions, system.routines[i]? = routines[i]?) ∧
      system.shared.report.tally = (context.reportOf (routinesAt positions routines)).tally := by
  have hworkers := List.all_eq_true.mp hrest
  have hdone : ∀ i worker, system.workers[i]? = some worker →
      worker.isDone = decide (i ∈ positions) := by
    intro i worker hworker
    have hlt : i < routines.length :=
      hkeeps.length_eq ▸ (List.getElem?_eq_some_iff.mp hworker).1
    have hstarted := hfresh i
    rw [hworker, Option.any_some] at hstarted
    rw [Worker.isDone_eq_not_isFresh (hworkers worker (List.mem_of_getElem? hworker)), hstarted]
    simp [hlt]
  refine ⟨fun i hi => ?_, fun i hi => ?_, ?_⟩
  · refine h.getElem?_routines_of_isDone fun worker hworker => ?_
    rw [hdone i worker hworker]
    exact decide_eq_true hi
  · refine getElem?_routines_of_isFresh hkeeps fun worker hworker => ?_
    have hstarted := Worker.isDone_eq_not_isFresh (hworkers worker (List.mem_of_getElem? hworker))
    rw [hdone i worker hworker, decide_eq_false hi] at hstarted
    simpa using hstarted.symm
  · have hprocessed := processedBy_eq_filter hkeeps 0 fun i worker hworker => by
      rw [hdone i worker hworker, Nat.zero_add]
    rw [h.tally_processed hkeeps hrest, processed, hprocessed]
    rfl

end System

/-! ### All or nothing -/

namespace Report

/-- The counters and the calls left of every decoder are those of another report, and so are, in
some order, the entries of the logs. -/
structure Matches (report other : Report) : Prop where
  examined : report.examined = other.examined
  recovered : report.recovered = other.recovered
  failed : report.failed = other.failed
  routinesPatched : report.routinesPatched = other.routinesPatched
  liveCallsOf : ∀ decoder, report.liveCallsOf decoder = other.liveCallsOf decoder
  recoveries : report.recoveries.Perm other.recoveries
  failures : report.failures.Perm other.failures

theorem matches_of_tally_eq {report other : Report} (h : report.tally = other.tally) :
    report.Matches other := by
  obtain ⟨hexamined, hrecovered, hrecoveries, hfailures, hpatched, hcalls⟩ := tally_eq_iff.mp h
  exact ⟨hexamined, hrecovered, hfailures.length_eq, hpatched,
    fun decoder => hcalls.count_eq decoder, hrecoveries, hfailures⟩

theorem removable_of_aborted {report : Report} (h : report.aborted) : report.removable = [] := by
  rw [removable, if_pos h]

end Report

namespace Engine

/-- **What a stopped run leaves** that has processed the routines at the given positions. They are
as after a run that is not stopped, all other routines are as before, and so is the rest of the
assembly. If there is a blob and there are workers, the report is marked and names no decoder to
remove, and for the rest it is the report of processing these routines, and no others. -/
structure ProcessedOnly (engine : Engine) (supply : WorkerSupply) (positions : Finset Nat)
    (assembly after : Assembly) (result : Except Error Report) : Prop where
  slots : after.slots = assembly.slots
  externals : after.externals = assembly.externals
  processed : ∀ i ∈ positions,
    after.routines[i]? = (engine.run supply assembly).assembly.routines[i]?
  untouched : ∀ i ∉ positions, after.routines[i]? = assembly.routines[i]?
  refuses : ∀ error, engine.config.prepare supply assembly.slots = .error error →
    result = .error error
  reports : ∀ blob, engine.config.prepare supply assembly.slots = .ok blob →
    ∃ report, result = .ok report ∧ report.aborted ∧ report.removable = [] ∧
      report.Matches ((engine.context assembly blob).processRoutines none
        (routinesAt positions assembly.routines) {}).2.report

variable {engine : Engine} {supply : WorkerSupply} {assembly : Assembly} {blob : Blob}
  {positions : Finset Nat}

theorem processedOnly_of_prepare_error {error : Error}
    (h : engine.config.prepare supply assembly.slots = .error error) (positions : Finset Nat) :
    engine.ProcessedOnly supply positions assembly assembly (.error error) where
  slots := rfl
  externals := rfl
  processed := fun i _ => by rw [run, (runUntil_of_prepare_error none h).1]
  untouched := fun _ _ => rfl
  refuses := fun other hother => by rw [Except.error.inj (h.symm.trans hother)]
  reports := fun blob hblob => by rw [h] at hblob; cases hblob

/-- It is enough to know the routines and the tally of the report. -/
theorem processedOnly_of_prepare {routines : List Routine} {report : Report}
    (h : engine.config.prepare supply assembly.slots = .ok blob)
    (hprocessed : ∀ i ∈ positions,
      routines[i]? = (assembly.routines.map (engine.context assembly blob).rewrite)[i]?)
    (huntouched : ∀ i ∉ positions, routines[i]? = assembly.routines[i]?)
    (haborted : report.aborted)
    (htally : report.tally = ((engine.context assembly blob).reportOf
      (routinesAt positions assembly.routines)).tally) :
    engine.ProcessedOnly supply positions assembly { assembly with routines := routines }
      (.ok report) where
  slots := rfl
  externals := rfl
  processed := fun i hi => by rw [hprocessed i hi, (run_of_prepare h).1]
  untouched := huntouched
  refuses := fun error herror => by rw [h] at herror; cases herror
  reports := fun other hother => by
    obtain rfl : blob = other := Except.ok.inj (h.symm.trans hother)
    have honly := ((engine.context assembly blob).processRoutines_spec none
      (routinesAt positions assembly.routines) {} Context.sound_nil).2.report
    rw [Report.empty_append] at honly
    refine ⟨report, rfl, haborted, Report.removable_of_aborted haborted, ?_⟩
    rw [honly]
    exact Report.matches_of_tally_eq htally

/-- A sequential run that is stopped has processed the routines in front. -/
theorem processedOnly_runUntil (engine : Engine) (supply : WorkerSupply) (n : Nat)
    (assembly : Assembly) :
    engine.ProcessedOnly supply (Finset.range n) assembly
      (engine.runUntil supply (some n) assembly).assembly
      (engine.runUntil supply (some n) assembly).result := by
  cases hready : engine.config.prepare supply assembly.slots with
  | error error =>
    obtain ⟨hassembly, hresult⟩ := runUntil_of_prepare_error (some n) hready
    rw [hassembly, hresult]
    exact processedOnly_of_prepare_error hready _
  | ok blob =>
    obtain ⟨hassembly, hresult⟩ := runUntil_of_prepare (some n) hready
    rw [hassembly, hresult]
    refine processedOnly_of_prepare hready (fun i hi => ?_) (fun i hi => ?_) rfl ?_
    · have hlt : i < n := Finset.mem_range.mp hi
      simp only [started, leftOver]
      grind
    · have hle : n ≤ i := by simpa using hi
      simp only [started, leftOver]
      grind
    · rw [routinesAt_range]
      rfl

/-- A run under a schedule with a request has processed the routines that were started before it. -/
theorem processedOnly_runUnder {moves : List Move} {after : Assembly}
    {result : Except Error Report} (habort : .abort ∈ moves)
    (h : engine.runUnder supply moves assembly = some (after, result)) :
    engine.ProcessedOnly supply (startedBefore moves) assembly after result := by
  rw [runUnder] at h
  split at h
  next error hready =>
    cases h
    exact processedOnly_of_prepare_error hready _
  next blob hready =>
    obtain ⟨schedule, hfollow, hfresh⟩ :=
      Session.exists_schedule (engine.context assembly blob) assembly.routines habort
    have hholds :=
      (System.holds_start (engine.context assembly blob) assembly.routines).follow schedule
    have hkeeps : List.Forall₂ Worker.Keeps assembly.routines
        ((System.start assembly.routines).follow (engine.context assembly blob) schedule).workers :=
      System.keeps_follow (System.keeps_start assembly.routines) schedule
    simp only [hfollow, Session.isOver_of_abort, Option.ite_none_right_eq_some, Option.some.injEq,
      Prod.mk.injEq] at h
    obtain ⟨hrest, rfl, rfl⟩ := h
    obtain ⟨hprocessed, huntouched, htally⟩ := hholds.of_isAtRest hkeeps hrest hfresh
    exact processedOnly_of_prepare hready hprocessed huntouched rfl htally

/-- A run under a schedule comes to its end. -/
theorem exists_isSome_runUnder (engine : Engine) (supply : WorkerSupply) (assembly : Assembly)
    (moves : List Move) :
    ∃ turns : List Nat,
      (engine.runUnder supply (moves ++ turns.map .act) assembly).isSome := by
  cases hready : engine.config.prepare supply assembly.slots with
  | error error => exact ⟨[], by rw [runUnder, hready]; rfl⟩
  | ok blob =>
    obtain ⟨turns, hover⟩ :=
      Session.exists_isOver_append (engine.context assembly blob) assembly.routines moves
    refine ⟨turns, ?_⟩
    rw [runUnder, hready]
    simp only [hover, if_true, Option.isSome_some]

end Engine

/-- **Abort is all or nothing.** Wherever a run is stopped, a sequential one or one of workers side
by side in any order, each routine is either processed to its end or left alone, and the report is
the one of processing the former. It is marked as that of a stopped run, and no decoder is said to
be superfluous. Which routines are processed is settled when the abort is requested: those that were
started. A stopped run can always come to its end. -/
theorem abort_all_or_nothing (engine : Engine) (supply : WorkerSupply) (assembly : Assembly) :
    (∀ n, engine.ProcessedOnly supply (Finset.range n) assembly
      (engine.runUntil supply (some n) assembly).assembly
      (engine.runUntil supply (some n) assembly).result) ∧
    ∀ moves, .abort ∈ moves →
      (∃ turns : List Nat,
        (engine.runUnder supply (moves ++ turns.map .act) assembly).isSome) ∧
      ∀ later after result,
        engine.runUnder supply (moves ++ later) assembly = some (after, result) →
          engine.ProcessedOnly supply (startedBefore moves) assembly after result := by
  refine ⟨fun n => engine.processedOnly_runUntil supply n assembly, fun moves habort =>
    ⟨engine.exists_isSome_runUnder supply assembly moves, fun later after result h => ?_⟩⟩
  have honly := Engine.processedOnly_runUnder (List.mem_append_left later habort) h
  rwa [startedBefore_append habort] at honly

namespace Sample

/-- A routine with the first of the two calls. -/
def brief : Routine :=
  { main with
    token := ⟨0x06000003⟩
    name := "Brief"
    body := some [.loadInt 0, .callTo decoder.token] }

/-- The assembly with both callers. -/
def briefAssembly : Assembly :=
  { assembly with routines := [decoder, brief, main] }

/-- The new caller has just started when the abort is requested. -/
def interrupted : List Move :=
  [.act 1, .abort]

/-- Everybody is given turns, until the new caller is done. -/
def afterwards : List Move :=
  (List.replicate 8 [.act 2, .act 0, .act 1]).flatten

/-- The new caller is reported on, the other one is not. -/
def briefReport : Report :=
  { examined := 1
    recovered := 1
    recoveries := [⟨brief.token, 0, 1, 0, decoder.token, .directOffset, "hi"⟩]
    routinesPatched := 1
    aborted := true }

end Sample

/-- The report of a stopped run would call the decoder superfluous, were it not marked. The caller
that was not started still needs it. -/
theorem abort_all_or_nothing_sample :
    .abort ∈ Sample.interrupted ∧ startedBefore Sample.interrupted = {1} ∧
      Sample.decoder.token ∈ { Sample.briefReport with aborted := false }.removable ∧
      Sample.briefReport.removable = [] ∧
      ∃ after, Sample.engine.runUnder Sample.supply (Sample.interrupted ++ Sample.afterwards)
          Sample.briefAssembly = some (after, .ok Sample.briefReport) ∧
        after.routines[2]? = some Sample.main ∧
        Sample.engine.ProcessedOnly Sample.supply {1} Sample.briefAssembly after
          (.ok Sample.briefReport) := by
  have habort : .abort ∈ Sample.interrupted := by decide
  have hstarted : startedBefore Sample.interrupted = {1} := by decide
  obtain ⟨after, hrun⟩ : ∃ after, Sample.engine.runUnder Sample.supply
      (Sample.interrupted ++ Sample.afterwards) Sample.briefAssembly =
        some (after, .ok Sample.briefReport) := ⟨_, rfl⟩
  have honly := ((abort_all_or_nothing Sample.engine Sample.supply Sample.briefAssembly).2 _
    habort).2 _ _ _ hrun
  rw [hstarted] at honly
  exact ⟨habort, hstarted, Report.mem_removable_iff.mpr (by decide), rfl, after, hrun,
    honly.untouched 2 (by decide), honly⟩

end LiteralRecovery
