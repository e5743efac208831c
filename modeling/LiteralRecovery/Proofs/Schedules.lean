import LiteralRecovery.Proofs.Abort
import LiteralRecovery.Proofs.Meaning
import LiteralRecovery.Proofs.Underflow

/-!
# Runs under any schedule

A run under a schedule has workers side by side, and an abort may be requested at any moment. It
comes to its end like any other run. Nobody is in the middle of a routine then: whoever has started
is done and has rewritten the routine, and whoever has not has left it alone. The records are those
of the former. This is all that `Engine.Ends` says, so whatever was derived from it holds of every
schedule: the exact effect of a run, and what is left of depth, underflow and meaning.

## Main results

* `System.rewrites_of_isAtRest`: the routines of workers at rest
* `Engine.ends_runUnder`: the end of a run under a schedule
* `run_changes_only_recoveries`: the effect of a run
* `literals_under_schedule`, `misses_under_schedule`, `depth_under_schedule`,
  `neverUnderflows_under_schedule_iff`, `meaning_under_schedule`
-/

namespace LiteralRecovery

/-! ### Workers at rest -/

/-- **At rest** the routines of the workers that are done are rewritten, and the others are left
alone. -/
theorem System.rewrites_of_isAtRest {context : Context} {routines : List Routine}
    {workers : List Worker} (h : List.Forall₂ Worker.Keeps routines workers)
    (hgoals : workers.map (·.goal context) = routines.map context.rewrite)
    (hrest : ∀ worker ∈ workers, worker.isFresh || worker.isDone) :
    context.Rewrites routines (processedBy routines workers)
      (workers.map (·.patcher.routine)) := by
  induction h with
  | nil => exact .nil
  | @cons routine worker routines workers hkeeps _ ih =>
    obtain ⟨hgoal, hgoals⟩ := List.cons.inj hgoals
    have hothers := ih hgoals fun other hother => hrest other (List.mem_cons_of_mem _ hother)
    by_cases hdone : worker.isDone
    · have hprocessed : processedBy (routine :: routines) (worker :: workers) =
          routine :: processedBy routines workers := by
        simp [processedBy, hdone]
      have hroutine : worker.patcher.routine = context.rewrite routine :=
        (Worker.of_isDone hdone).1.symm.trans hgoal
      rw [hprocessed, List.map_cons, hroutine]
      exact hothers.rewritten routine
    · have hfresh : worker.isFresh := by
        simpa [hdone] using hrest worker (List.mem_cons_self ..)
      have hprocessed : processedBy (routine :: routines) (worker :: workers) =
          processedBy routines workers := by
        simp [processedBy, hdone]
      rw [hprocessed, List.map_cons, hkeeps hfresh]
      exact hothers.kept routine

namespace Session

/-- **A session** is a system under some schedule. Without a request to abort it is over when all
workers are done, and with one when nobody is in the middle of a routine. -/
theorem exists_system_eq (context : Context) (routines : List Routine) (moves : List Move) :
    ∃ schedule, ((start routines).follow context moves).system =
        (System.start routines).follow context schedule ∧
      (((start routines).follow context moves).isOver →
        ((System.start routines).follow context schedule).isAtRest) := by
  by_cases habort : .abort ∈ moves
  · obtain ⟨schedule, hfollow, -⟩ := exists_schedule context routines habort
    refine ⟨schedule, congrArg Session.system hfollow, fun hover => ?_⟩
    rwa [hfollow, isOver_of_abort] at hover
  · have hfollow : (start routines).follow context moves = _ :=
      follow_of_not_mem (System.start routines) habort
    refine ⟨moves.filterMap Move.index?, congrArg Session.system hfollow, fun hover => ?_⟩
    rw [hfollow, isOver] at hover
    refine List.all_eq_true.mpr fun worker hworker => ?_
    have hdone := List.all_eq_true.mp hover worker hworker
    simp only [Bool.false_and, Bool.or_false] at hdone
    rw [hdone, Bool.or_true]

/-- **When a session is over**, some routines are rewritten and the records are those of these
routines. -/
theorem exists_rewrites {context : Context} {routines : List Routine} {moves : List Move}
    (h : ((start routines).follow context moves).isOver) :
    ∃ chosen, context.Rewrites routines chosen
        ((start routines).follow context moves).system.routines ∧
      ((start routines).follow context moves).report.tally =
        (context.reportOf chosen).tally := by
  obtain ⟨schedule, hsystem, hrest⟩ := exists_system_eq context routines moves
  have hholds := (System.holds_start context routines).follow schedule
  have hkeeps : List.Forall₂ Worker.Keeps routines
      ((System.start routines).follow context schedule).workers :=
    System.keeps_follow (System.keeps_start routines) schedule
  have htally : ((start routines).follow context moves).report.tally =
      ((start routines).follow context moves).system.shared.report.tally := by
    rw [report]
    split <;> rfl
  rw [htally, hsystem]
  exact ⟨_, System.rewrites_of_isAtRest hkeeps hholds.goals (List.all_eq_true.mp (hrest h)),
    hholds.tally_processed hkeeps (hrest h)⟩

end Session

/-! ### The end of a run under a schedule -/

namespace Engine

variable {engine : Engine} {supply : WorkerSupply} {assembly after : Assembly}
  {moves : List Move} {result : Except Error Report}

/-- **The end of a run under a schedule.** -/
theorem ends_runUnder (h : engine.runUnder supply moves assembly = some (after, result)) :
    engine.Ends supply assembly after result := by
  rw [runUnder] at h
  split at h
  next error hready =>
    cases h
    exact .refused hready
  next blob hready =>
    obtain ⟨hover, heq⟩ := Option.ite_none_right_eq_some.mp h
    obtain ⟨chosen, hrewrites, htally⟩ := Session.exists_rewrites hover
    obtain ⟨rfl, rfl⟩ := Prod.mk.inj (Option.some.inj heq)
    exact .processed hready hrewrites htally

end Engine

/-! ### The effect of a run -/

/-- **The exact effect of a run.** A run that fails, for want of a blob or of workers, leaves the
assembly as it is. Any other run changes it by the recoveries of its report. This holds of the
sequential run, whether or not it is stopped before its end, and of workers side by side, in
whatever order they take their turns and whenever an abort is requested. Such a run can always come
to its end. -/
theorem run_changes_only_recoveries (engine : Engine) (supply : WorkerSupply) (assembly : Assembly)
    (hdistinct : (assembly.routines.map Routine.token).Nodup) :
    (∀ stop,
      (∀ error, (engine.runUntil supply stop assembly).result = .error error →
        (engine.runUntil supply stop assembly).assembly = assembly) ∧
      ∀ report, (engine.runUntil supply stop assembly).result = .ok report →
        assembly.ChangedBy report (engine.runUntil supply stop assembly).assembly) ∧
    ∀ moves,
      (∃ turns : List Nat,
        (engine.runUnder supply (moves ++ turns.map .act) assembly).isSome) ∧
      (∀ after error, engine.runUnder supply moves assembly = some (after, .error error) →
        after = assembly) ∧
      ∀ after report, engine.runUnder supply moves assembly = some (after, .ok report) →
        assembly.ChangedBy report after := by
  constructor
  · intro stop
    refine ⟨fun error herror => ?_, fun report hreport => ?_⟩
    · exact (Engine.ends_runUntil herror).eq_of_error
    · exact (Engine.ends_runUntil hreport).changedBy hdistinct
  · intro moves
    refine ⟨engine.exists_isSome_runUnder supply assembly moves, ?_, ?_⟩
    · intro after error h
      exact (Engine.ends_runUnder h).eq_of_error
    · intro after report h
      exact (Engine.ends_runUnder h).changedBy hdistinct

namespace Sample

/-- An engine that asks for a limited number of workers. -/
def limitedEngine : Engine :=
  .ofConfig { blobSlot := some "data", maxThreads := some 4 }

/-- An environment that has no workers to give. -/
def exhausted : WorkerSupply :=
  fun _ => .error "out of threads"

end Sample

/-- A sequential run, a stopped run of workers side by side, and a run that gets no workers. -/
theorem run_changes_only_recoveries_sample :
    Sample.assembly.ChangedBy Sample.report
        (Sample.engine.runUntil Sample.supply none Sample.assembly).assembly ∧
      (∃ after, Sample.engine.runUnder Sample.supply (Sample.interrupted ++ Sample.afterwards)
          Sample.briefAssembly = some (after, .ok Sample.briefReport) ∧
        Sample.briefAssembly.ChangedBy Sample.briefReport after) ∧
      (Sample.limitedEngine.runUntil Sample.exhausted none Sample.assembly).result =
        .error (.workerPool "out of threads") ∧
      (Sample.limitedEngine.runUntil Sample.exhausted none Sample.assembly).assembly =
        Sample.assembly := by
  obtain ⟨hsequential, -⟩ :=
    run_changes_only_recoveries Sample.engine Sample.supply Sample.assembly (by decide)
  obtain ⟨-, hworkers⟩ :=
    run_changes_only_recoveries Sample.engine Sample.supply Sample.briefAssembly (by decide)
  obtain ⟨hlimited, -⟩ :=
    run_changes_only_recoveries Sample.limitedEngine Sample.exhausted Sample.assembly (by decide)
  obtain ⟨after, hrun⟩ : ∃ after, Sample.engine.runUnder Sample.supply
      (Sample.interrupted ++ Sample.afterwards) Sample.briefAssembly =
        some (after, .ok Sample.briefReport) := ⟨_, rfl⟩
  exact ⟨(hsequential none).2 _ rfl, ⟨after, hrun, (hworkers _).2.2 _ _ hrun⟩, rfl,
    (hlimited none).1 _ rfl⟩

/-! ### Literals, misses, depth, underflow and meaning -/

section Schedule

variable {engine : Engine} {supply : WorkerSupply} {assembly after : Assembly}
  {moves : List Move} {result : Except Error Report}

/-- Whoever did the work, what the report lists for a routine can be read in its body. -/
theorem literals_under_schedule {report : Report}
    (h : engine.runUnder supply moves assembly = some (after, .ok report))
    (hdistinct : (assembly.routines.map Routine.token).Nodup)
    {k : Nat} {before : Routine} (hk : assembly.routines[k]? = some before) :
    ∃ new, after.routines[k]? = some new ∧
      ∀ entry ∈ report.stringsOf before.token,
        new.instrs[entry.1]?.bind Instr.literal? = some entry.2 :=
  ((Engine.ends_runUnder h).changedBy hdistinct).exists_literals hk

/-- Under a schedule, too, every failure for want of a literal is one of decoding. -/
theorem misses_under_schedule {report : Report} {blob : Blob}
    (h : engine.runUnder supply moves assembly = some (after, .ok report))
    (hblob : Blob.resolve engine.config assembly.slots = .ok blob) :
    ∀ failure ∈ report.failures, failure.reason = .decodeMiss →
      ∃ decoder, failure.site.target = some decoder ∧
        decode? engine.config blob.bytes ((Pool.ofAssembly engine.config assembly).find? decoder)
          failure.site.population failure.site.constant = none :=
  fun _ hmem hreason => (Engine.ends_runUnder h).exists_decode?_eq_none hblob hmem hreason

/-- Under a schedule the depth changes as in the sequential run, by the recoveries of its report. -/
theorem depth_under_schedule (h : engine.runUnder supply moves assembly = some (after, result))
    (hdistinct : (assembly.routines.map Routine.token).Nodup) {effect : Instr → Int}
    (heffect : assembly.NetEffect effect)
    (hknown : ∀ recovery ∈ recoveriesIn result, (assembly.signature? recovery.decoder).isSome)
    {k : Nat} {before : Routine} (hk : assembly.routines[k]? = some before) :
    ∃ new, after.routines[k]? = some new ∧
      ∀ p, height effect new.instrs p = height effect before.instrs p -
        if ∃ recovery ∈ recoveriesIn result,
          recovery.routine = before.token ∧ recovery.load < p ∧ p ≤ recovery.call
        then 1 else 0 :=
  (Engine.ends_runUnder h).exists_height_eq hdistinct heffect hknown hk

/-- Under a schedule the same condition, on the recoveries of its report, decides whether a body is
kept from taking too much. -/
theorem neverUnderflows_under_schedule_iff
    (h : engine.runUnder supply moves assembly = some (after, result))
    (hdistinct : (assembly.routines.map Routine.token).Nodup) (hcalls : assembly.CallsKnown)
    {k : Nat} {before : Routine} (hk : assembly.routines[k]? = some before)
    (hbefore : assembly.NeverUnderflows before.instrs) :
    ∃ new, after.routines[k]? = some new ∧
      (after.NeverUnderflows new.instrs ↔
        ∀ recovery ∈ recoveriesIn result,
          recovery.routine = before.token → recovery.Spares assembly before.instrs) :=
  (Engine.ends_runUnder h).exists_neverUnderflows_iff hdistinct hcalls hk hbefore

/-- Under a schedule bodies do what they did, if the window is one instruction. -/
theorem meaning_under_schedule {blob : Blob}
    (h : engine.runUnder supply moves assembly = some (after, result))
    (hlookback : engine.config.lookback = 1)
    (hblob : Blob.resolve engine.config assembly.slots = .ok blob) {k : Nat} {before : Routine}
    (hk : assembly.routines[k]? = some before) :
    ∃ new, after.routines[k]? = some new ∧
      ∀ (α : Type u) (β : Type v) (other : Instr → Machine α β → Option (Machine α β))
        (machine : Machine α β),
        (engine.context assembly blob).execute other new.instrs machine =
          (engine.context assembly blob).execute other before.instrs machine :=
  (Engine.ends_runUnder h).exists_execute_eq hlookback hblob hk

end Schedule
end LiteralRecovery
