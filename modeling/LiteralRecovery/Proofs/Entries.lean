import LiteralRecovery.Proofs.Interleaving

/-!
# Every site has one entry

A report counts the sites that were examined and keeps two logs, one of recoveries and one of
failures. The three are written at different places of a loop that changes the body it works on.
Here they are put together again: the entries of both logs are, one for one, the sites that the scan
finds in the bodies as they were before the run, each with what becomes of it.

A run may end early, and its routines may have been processed in any order. What is said is
therefore said about the routines that were processed. In a sequential run these are the first so
many. Among workers side by side they are the routines of the workers that are done, as long as
nobody is in the middle of a routine; whoever was not started when the run was stopped has recorded
nothing.

## Main definitions

* `Entry`, `Report.entries`: the entries of both logs
* `Context.entryOf`: the entry of a site
* `Report.entriesOf`: the entries of a routine, in the order of their calls
* `Report.AccountsFor`: the report is about the sites of the given routines, and nothing else
* `System.isAtRest`, `System.processed`: nobody is in the middle of a routine, and who is done

## Main results

* `Context.logs_reportOf`: the logs of a sequential run, entry by entry
* `Context.merged_of_perm`: the entries of a routine are its sites, in order
* `System.Holds.tally_processed`: what workers have recorded when they are at rest
* `sites_accounted_for`
-/

namespace LiteralRecovery

/-! ### Entries -/

/-- Where a site is, what it loads and what it calls. -/
structure Place where
  routine : Token
  load : Nat
  call : Nat
  constant : Int32
  target : Option Token
deriving DecidableEq, Repr

/-- The place of a site. Its population is left out, as recoveries do not record it. -/
def Site.place (site : Site) : Place :=
  ⟨site.routine, site.load, site.call, site.constant, site.target⟩

/-- An entry of one of the two logs of a report. -/
inductive Entry where
  | recovered (recovery : Recovery)
  | failed (failure : Failure)
deriving DecidableEq, Repr

namespace Entry

/-- The place that the entry is about. -/
def place : Entry → Place
  | recovered recovery =>
    ⟨recovery.routine, recovery.load, recovery.call, recovery.constant, some recovery.decoder⟩
  | failed failure => failure.site.place

/-- The entry, if it is one of the log of recoveries. -/
def recovery? : Entry → Option Recovery
  | recovered recovery => some recovery
  | failed _ => none

/-- The entry, if it is one of the log of failures. -/
def failure? : Entry → Option Failure
  | recovered _ => none
  | failed failure => some failure

end Entry

namespace Report

/-- The entries of both logs. -/
def entries (report : Report) : List Entry :=
  report.recoveries.map .recovered ++ report.failures.map .failed

/-- The entries of both logs that are about a routine, in the order of their calls. -/
def entriesOf (report : Report) (routine : Token) : List Entry :=
  (report.entries.filter (·.place.routine = routine)).mergeSort fun a b =>
    a.place.call ≤ b.place.call

/-- The report has the given entries, in this order, each in its log and each counted once. -/
structure Logs (entries : List Entry) (report : Report) : Prop where
  examined : report.examined = entries.length
  recoveries : report.recoveries = entries.filterMap Entry.recovery?
  failures : report.failures = entries.filterMap Entry.failure?

theorem Logs.perm {entries : List Entry} {report : Report} (h : report.Logs entries) :
    report.entries.Perm entries := by
  rw [Report.entries, h.recoveries, h.failures]
  clear h
  induction entries with
  | nil => exact .nil
  | cons entry rest ih =>
    cases entry with
    | recovered recovery => exact ih.cons _
    | failed failure => exact List.perm_middle.trans (ih.cons _)

end Report

namespace Context

/-- The entry of a site. Without a target it fails; with one it fails if decoding finds nothing, and
otherwise it is recovered with what decoding finds. -/
def entryOf (context : Context) (site : Site) : Entry :=
  match site.target with
  | none => .failed ⟨site, .ambiguousTarget⟩
  | some decoder =>
    match context.decode? decoder site with
    | none => .failed ⟨site, .decodeMiss⟩
    | some candidate =>
      .recovered ⟨site.routine, site.load, site.call, site.constant, decoder, candidate.strategy,
        candidate.value⟩

variable (context : Context) (site : Site)

/-- The entry of a site is made of the judgement on it. -/
theorem entryOf_eq :
    context.entryOf site =
      match context.judge site with
      | .ok (decoder, candidate) => .recovered (site.recovery decoder candidate)
      | .error reason => .failed ⟨site, reason⟩ := by
  unfold entryOf judge
  cases site.target with
  | none => rfl
  | some decoder =>
    dsimp only
    cases context.decode? decoder site <;> rfl

/-- An entry has the routine, the positions, the constant and the target of its site. -/
@[simp] theorem place_entryOf : (context.entryOf site).place = site.place := by
  rw [entryOf_eq]
  cases hjudge : context.judge site with
  | error reason => rfl
  | ok found =>
    have htarget := (judge_eq_ok_iff.mp hjudge).1
    simp [Entry.place, Site.place, Site.recovery, htarget]

theorem recovery?_entryOf : (context.entryOf site).recovery? = context.recovery? site := by
  rw [entryOf_eq, recovery?]
  cases context.judge site <;> rfl

theorem failure?_entryOf : (context.entryOf site).failure? = context.failure? site := by
  rw [entryOf_eq, failure?]
  cases context.judge site <;> rfl

/-- **The logs of routines**, one after the other: every site has its entry. -/
theorem logs_reportOf (routines : List Routine) :
    (context.reportOf routines).Logs ((context.sitesOf routines).map context.entryOf) := by
  refine ⟨?_, ?_, ?_⟩
  · rw [examined_reportOf, List.length_map]
  · rw [recoveries_eq_filterMap, List.filterMap_map]
    simp only [Function.comp_def, recovery?_entryOf]
  · rw [failures_eq_filterMap, List.filterMap_map]
    simp only [Function.comp_def, failure?_entryOf]

end Context

/-! ### The entries of one routine -/

namespace Context

variable {context : Context} {routine : Routine} {routines : List Routine}

theorem routine_of_mem_sites {site : Site}
    (h : site ∈ context.pool.sites context.config routine) : site.routine = routine.token := by
  obtain ⟨instr, -, -, -, -, -, howner, -⟩ := Pool.mem_sites_iff.mp h
  exact howner

/-- Where tokens are distinct, the sites with the token of a routine are its sites. -/
theorem filter_sitesOf (hdistinct : (routines.map Routine.token).Nodup) (h : routine ∈ routines) :
    (context.sitesOf routines).filter (·.routine = routine.token) =
      context.pool.sites context.config routine :=
  Routine.filter_flatMap_of_mem (fun _ _ => routine_of_mem_sites) hdistinct h

/-- **The entries of a routine, in the order of their calls, are its sites.** The order of the logs
is of no account: the calls of a routine tell its sites apart. -/
theorem merged_of_perm {report : Report}
    (hperm : report.entries.Perm ((context.sitesOf routines).map context.entryOf))
    (hdistinct : (routines.map Routine.token).Nodup) (h : routine ∈ routines) :
    report.entriesOf routine.token =
      (context.pool.sites context.config routine).map context.entryOf := by
  have hown : (report.entries.filter (·.place.routine = routine.token)).Perm
      ((context.pool.sites context.config routine).map context.entryOf) := by
    rw [← filter_sitesOf hdistinct h]
    refine (hperm.filter _).trans ?_
    rw [List.filter_map]
    simp only [Function.comp_def, place_entryOf]
    exact .refl _
  have hsorted : (report.entriesOf routine.token).Pairwise fun a b =>
      a.place.call ≤ b.place.call := by
    refine (List.pairwise_mergeSort ?_ ?_ _).imp fun h => of_decide_eq_true h
    · simp only [decide_eq_true_eq]
      exact fun a b c => Nat.le_trans
    · simp only [Bool.or_eq_true, decide_eq_true_eq]
      exact fun a b => Nat.le_total _ _
  have hsites : ((context.pool.sites context.config routine).map context.entryOf).Pairwise
      fun a b => a.place.call ≤ b.place.call := by
    rw [List.pairwise_map]
    refine (Pool.pairwise_call_sites context.pool context.config routine).imp fun hlt => ?_
    rw [place_entryOf, place_entryOf]
    exact Nat.le_of_lt hlt
  have hall : (report.entriesOf routine.token).Perm
      ((context.pool.sites context.config routine).map context.entryOf) :=
    (List.mergeSort_perm _ _).trans hown
  refine hall.eq_of_pairwise (fun a b ha hb hab hba => ?_) hsorted hsites
  obtain ⟨first, hfirst, rfl⟩ := List.mem_map.mp (hall.mem_iff.mp ha)
  obtain ⟨second, hsecond, rfl⟩ := List.mem_map.mp hb
  rw [place_entryOf, place_entryOf] at hab hba
  rw [Pool.eq_of_call_eq hfirst hsecond (Nat.le_antisymm hab hba)]

end Context

/-- The report is about the sites that the scan finds in the given routines, and about nothing
else. -/
structure Report.AccountsFor (context : Context) (routines : List Routine) (report : Report) :
    Prop where
  /-- Every site is counted. -/
  examined : report.examined = (context.sitesOf routines).length
  /-- Every site has its entry, and there are no other entries. -/
  entries : report.entries.Perm ((context.sitesOf routines).map context.entryOf)
  /-- Nothing is counted that has no entry. -/
  total : report.examined = report.recovered + report.failed
  /-- Where tokens tell routines apart, the entries of a routine are its sites, in order. -/
  merged : (routines.map Routine.token).Nodup → ∀ routine ∈ routines,
    report.entriesOf routine.token =
      (context.pool.sites context.config routine).map context.entryOf

theorem Context.accountsFor_of_perm {context : Context} {routines : List Routine} {report : Report}
    (hexamined : report.examined = (context.sitesOf routines).length)
    (hrecovered : report.recovered = report.recoveries.length)
    (hentries : report.entries.Perm ((context.sitesOf routines).map context.entryOf)) :
    report.AccountsFor context routines where
  examined := hexamined
  entries := hentries
  total := by
    have hlength := hentries.length_eq
    rw [Report.entries, List.length_append, List.length_map, List.length_map, List.length_map,
      ← hexamined, ← hrecovered] at hlength
    exact hlength.symm
  merged := fun hdistinct _ h => merged_of_perm hentries hdistinct h

/-! ### Workers at rest -/

namespace Worker

/-- Whether the worker has not started its routine. -/
def isFresh (worker : Worker) : Bool :=
  match worker.stage with
  | .fresh => true
  | _ => false

/-- A worker that has not started is as it was when it was given the routine. -/
def Keeps (routine : Routine) (worker : Worker) : Prop :=
  worker.isFresh → worker = start routine

end Worker

/-- Whoever takes a step has started. -/
theorem Context.isFresh_step (context : Context) (shared : Shared) (worker : Worker) :
    (context.step shared worker).2.isFresh = false := by
  obtain ⟨patcher, stage⟩ := worker
  cases stage with
  | fresh => simp only [step]; split <;> rfl
  | between sites => cases sites <;> rfl
  | asking site rest =>
    simp only [step]
    split
    · rfl
    · split <;> rfl
  | decoding site decoder rest => rfl
  | storing site decoder answer rest => rfl
  | placing site decoder answer rest =>
    cases answer with
    | none => rfl
    | some candidate => simp only [step]; split <;> rfl
  | counting calls => cases calls <;> rfl
  | done => rfl

namespace System

/-- Whether no worker is in the middle of its routine. -/
def isAtRest (system : System) : Bool :=
  system.workers.all fun worker => worker.isFresh || worker.isDone

/-- Of the routines that were given to workers, those whose workers are done. -/
def processedBy (routines : List Routine) (workers : List Worker) : List Routine :=
  ((routines.zip workers).filter (·.2.isDone)).map Prod.fst

/-- The routines of the workers that are done. -/
def processed (routines : List Routine) (system : System) : List Routine :=
  processedBy routines system.workers

variable {context : Context} {routines : List Routine} {system : System}

theorem keeps_set {workers : List Worker} (h : List.Forall₂ Worker.Keeps routines workers)
    {worker : Worker} (hstarted : worker.isFresh = false) (index : Nat) :
    List.Forall₂ Worker.Keeps routines (workers.set index worker) := by
  induction h generalizing index with
  | nil => exact .nil
  | cons hhead htail ih =>
    cases index with
    | zero => exact .cons (fun hfresh => by simp [hstarted] at hfresh) htail
    | succ index => exact .cons hhead (ih index)

/-- **One step** leaves the workers that have not started as they are. -/
theorem keeps_step (h : List.Forall₂ Worker.Keeps routines system.workers) (index : Nat) :
    List.Forall₂ Worker.Keeps routines (system.step context index).workers := by
  unfold step
  split
  · exact h
  · exact keeps_set h (context.isFresh_step _ _) index

/-- **A schedule** leaves the workers that have not started as they are. -/
theorem keeps_follow (h : List.Forall₂ Worker.Keeps routines system.workers)
    (schedule : List Nat) :
    List.Forall₂ Worker.Keeps routines (system.follow context schedule).workers := by
  induction schedule generalizing system with
  | nil => exact h
  | cons index rest ih => exact ih (keeps_step h index)

theorem keeps_start (routines : List Routine) :
    List.Forall₂ Worker.Keeps routines (start routines).workers := by
  rw [start, List.forall₂_map_right_iff, List.forall₂_same]
  exact fun routine _ _ => rfl

/-- At rest, what is due is what would be recorded of the routines that were not processed. -/
theorem sum_due_of_atRest (context : Context) {workers : List Worker}
    (h : List.Forall₂ Worker.Keeps routines workers)
    (hrest : ∀ worker ∈ workers, worker.isFresh || worker.isDone) :
    (workers.map fun worker => (worker.due context).tally).sum +
        (context.reportOf (processedBy routines workers)).tally =
      (context.reportOf routines).tally := by
  induction h with
  | nil => rfl
  | @cons routine worker routines workers hkeeps _ ih =>
    have hworkers := ih fun other hother => hrest other (List.mem_cons_of_mem _ hother)
    rw [List.map_cons, List.sum_cons, Context.reportOf_cons, Report.tally_append, ← hworkers]
    by_cases hdone : worker.isDone
    · -- nothing is due, and the routine is among those processed
      have hprocessed : processedBy (routine :: routines) (worker :: workers) =
          routine :: processedBy routines workers := by
        simp [processedBy, hdone]
      rw [hprocessed, (Worker.of_isDone hdone).2, Report.tally_empty, zero_add,
        Context.reportOf_cons, Report.tally_append, add_left_comm]
    · have hfresh : worker.isFresh := by
        simpa [hdone] using hrest worker (List.mem_cons_self ..)
      have hprocessed : processedBy (routine :: routines) (worker :: workers) =
          processedBy routines workers := by
        simp [processedBy, hdone]
      rw [hprocessed, hkeeps hfresh, add_assoc]
      rfl

/-- **What workers at rest have recorded** is the report on the routines that were processed. -/
theorem Holds.tally_processed (h : system.Holds context routines)
    (hkeeps : List.Forall₂ Worker.Keeps routines system.workers) (hrest : system.isAtRest) :
    system.shared.report.tally = (context.reportOf (system.processed routines)).tally := by
  have hdue := sum_due_of_atRest context hkeeps (List.all_eq_true.mp hrest)
  rw [← h.tally, add_comm] at hdue
  exact (add_right_cancel hdue).symm

end System

/-! ### The sites of a run -/

/-- **Every site is accounted for exactly once.** A run that finds its blob returns a report, and
the report is about the routines that were processed. These are the first ones if it is sequential
and stopped at some point, and all of them if it is not stopped. Among workers side by side they are
the routines of those who are done, at any time when nobody is in the middle of a routine. -/
theorem sites_accounted_for {engine : Engine} {supply : WorkerSupply} {assembly : Assembly}
    {blob : Blob} (hready : engine.config.prepare supply assembly.slots = .ok blob) :
    let context := engine.context assembly blob
    let follow := (System.start assembly.routines).follow context
    (∀ stop, ∃ report, (engine.runUntil supply stop assembly).result = .ok report ∧
      report.AccountsFor context (started stop assembly.routines)) ∧
    ∀ schedule, (follow schedule).isAtRest →
      (follow schedule).shared.report.AccountsFor context
        ((follow schedule).processed assembly.routines) := by
  intro context follow
  constructor
  · intro stop
    have hlogs := context.logs_reportOf (started stop assembly.routines)
    refine ⟨_, (Engine.runUntil_of_prepare stop hready).2, Context.accountsFor_of_perm ?_ ?_ ?_⟩
    · exact context.examined_reportOf _
    · exact context.recovered_reportOf _
    · exact hlogs.perm
  · intro schedule hrest
    have hholds := (System.holds_start context assembly.routines).follow schedule
    have hkeeps : List.Forall₂ Worker.Keeps assembly.routines (follow schedule).workers :=
      System.keeps_follow (System.keeps_start assembly.routines) schedule
    have hlogs := context.logs_reportOf ((follow schedule).processed assembly.routines)
    obtain ⟨hexamined, hrecovered, hrecoveries, hfailures, -⟩ :=
      Report.tally_eq_iff.mp (hholds.tally_processed hkeeps hrest)
    refine Context.accountsFor_of_perm (hexamined.trans (context.examined_reportOf _)) ?_ ?_
    · rw [hrecovered, context.recovered_reportOf, hrecoveries.length_eq]
    · exact ((hrecoveries.map _).append (hfailures.map _)).trans hlogs.perm

namespace Sample

/-- Only the second caller is processed. -/
def soloSchedule : List Nat :=
  List.replicate 14 2

/-- The entries of a caller of the small assembly. -/
def entriesOf (caller : Token) : List Entry :=
  [.recovered ⟨caller, 0, 1, 0, decoder.token, .directOffset, "hi"⟩,
    .failed ⟨⟨caller, 2, 4, 7, some decoder.token, .full⟩, .decodeMiss⟩]

end Sample

/-- A sequential run that is stopped before the second caller has the entries of the first one, and
workers of whom only the second caller's is done have the entries of that one. -/
theorem sites_accounted_for_sample :
    let follow := (System.start Sample.twinAssembly.routines).follow
      (Sample.engine.context Sample.twinAssembly Sample.blob)
    (∃ report,
      (Sample.engine.runUntil Sample.supply (some 2) Sample.twinAssembly).result = .ok report ∧
      report.examined = 2 ∧
      report.entriesOf Sample.main.token = Sample.entriesOf Sample.main.token) ∧
    (follow Sample.soloSchedule).isAtRest ∧
      (follow Sample.soloSchedule).processed Sample.twinAssembly.routines = [Sample.twin] ∧
      (follow Sample.soloSchedule).shared.report.entriesOf Sample.twin.token =
        Sample.entriesOf Sample.twin.token := by
  intro follow
  have hready : Sample.engine.config.prepare Sample.supply Sample.twinAssembly.slots =
      .ok Sample.blob := rfl
  have hrest : (follow Sample.soloSchedule).isAtRest := by decide
  have hprocessed : (follow Sample.soloSchedule).processed Sample.twinAssembly.routines =
      [Sample.twin] := by decide
  obtain ⟨hsequential, hworkers⟩ := sites_accounted_for hready
  obtain ⟨report, hresult, haccounts⟩ := hsequential (some 2)
  refine ⟨⟨report, hresult, haccounts.examined, ?_⟩, hrest, hprocessed, ?_⟩
  · exact haccounts.merged (by decide) Sample.main (by decide)
  · have hsolo := hworkers Sample.soloSchedule hrest
    exact hsolo.merged (hprocessed ▸ by decide) Sample.twin (hprocessed ▸ by decide)

end LiteralRecovery
