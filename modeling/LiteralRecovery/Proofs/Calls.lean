import LiteralRecovery.Proofs.Edits

/-!
# Decoder calls before and after a run

A decoder can be taken out of an assembly once nothing calls it any more. The report of a run names
the decoders for which this is so, and it judges by its own records: what was recovered, what
failed, and the calls that were counted when a routine was finished. The question here is what the
instructions of the assembly say.

Calls are conserved: every call of a decoder that the assembly had before the run is a recovery of
the report or still there afterwards, whether it was never paired with a constant, had no literal,
or stands in the body of a decoder. The failures are then of no account, since a site that failed
has kept its call.

## Main definitions

* `Assembly.callsOf`: the calls of a routine in all bodies

## Main results

* `Recovery.count_edit`, `Recovery.count_editAll`: the calls that edits take away
* `Context.count_calls`: the calls of a decoder in routines, before and after
* `calls_conserved`: calls, recoveries and removable decoders of a run
-/

namespace LiteralRecovery

/-- How many instructions of the assembly call the routine with the token. -/
def Assembly.callsOf (assembly : Assembly) (token : Token) : Nat :=
  (assembly.routines.flatMap Routine.instrs).count (Instr.callTo token)

/-! ### The calls of one body -/

/-- Putting one instruction in the place of another. -/
theorem count_set_of_getElem? {body : Body} {i : Nat} {old : Instr}
    (h : body[i]? = some old) (new instr : Instr) :
    (body.set i new).count instr + (if old = instr then 1 else 0) =
      body.count instr + (if new = instr then 1 else 0) := by
  obtain ⟨hlt, rfl⟩ := List.getElem?_eq_some_iff.mp h
  have hset : body.set i new = body.take i ++ new :: body.drop (i + 1) := by
    rw [List.set_eq_take_append_cons_drop, if_pos hlt]
  have hbody : body.count instr = (body.take i ++ body[i] :: body.drop (i + 1)).count instr := by
    rw [List.getElem_cons_drop, List.take_append_drop]
  rw [hset, hbody]
  simp only [List.count_append, List.count_cons, beq_iff_eq]
  omega

namespace Recovery

variable {recovery : Recovery} {body : Body} {edits : List Recovery}

/-- **One edit** takes away one call, and that is a call of the recovery's decoder. -/
theorem count_edit (h : recovery.FoundIn body) (token : Token) :
    (recovery.edit body).count (Instr.callTo token) +
        (if recovery.decoder = token then 1 else 0) =
      body.count (Instr.callTo token) := by
  have hnop := count_set_of_getElem? h.load Instr.nop (Instr.callTo token)
  have hstring :=
    count_set_of_getElem? h.call_set (Instr.loadString recovery.value) (Instr.callTo token)
  simp only [Instr.loadInt, Instr.nop, Instr.loadString, Instr.callTo, Instr.mk.injEq,
    Operand.member.injEq, reduceCtorEq, false_and, true_and, if_false] at hnop hstring
  simp only [edit, Instr.nop, Instr.loadString, Instr.callTo]
  omega

/-- **All edits** take away one call each. -/
theorem count_editAll (h : AllFoundIn edits body) (token : Token) :
    (editAll edits body).count (Instr.callTo token) + edits.countP (·.decoder = token) =
      body.count (Instr.callTo token) := by
  refine AllFoundIn.induct (motive := fun edits body =>
    (editAll edits body).count (Instr.callTo token) + edits.countP (·.decoder = token) =
      body.count (Instr.callTo token)) ?_ ?_ (fun _ _ => trivial) h
  · intro body
    simp
  · intro recovery rest body _ hfound ih
    have hedit := count_edit hfound token
    rw [editAll_cons, List.countP_cons, ← hedit, ← ih]
    simp only [decide_eq_true_eq]
    omega

end Recovery

/-! ### The calls of routines -/

theorem Routine.count_callees (routine : Routine) (token : Token) :
    routine.callees.count token = routine.instrs.count (Instr.callTo token) := by
  rw [callees, List.count_filterMap, List.count]
  refine List.countP_congr fun instr _ => ?_
  simp [Instr.callee?_eq_some_iff]

namespace Context

variable {context : Context} {token : Token}

/-- The calls that are counted when a routine is finished are those in its body. -/
theorem liveCallsOf_reportOf (context : Context) (hpool : context.pool.contains token)
    (routines : List Routine) :
    (context.reportOf routines).liveCallsOf token =
      ((routines.map context.rewrite).flatMap Routine.instrs).count (Instr.callTo token) := by
  have hroutine : ∀ routine : Routine, (context.decoderCalls routine).count token =
      routine.instrs.count (Instr.callTo token) := by
    intro routine
    rw [decoderCalls, List.count_filter hpool, routine.count_callees]
  rw [Report.liveCallsOf, liveCalls_reportOf, List.flatMap_map, List.count_flatMap,
    List.count_flatMap]
  refine congrArg List.sum (List.map_congr_left fun routine _ => ?_)
  exact hroutine (context.rewrite routine)

/-- **The calls of a decoder in routines**: those that became literals, and those still there. -/
theorem count_calls (context : Context) (routines : List Routine) (token : Token) :
    (routines.flatMap Routine.instrs).count (Instr.callTo token) =
      (context.reportOf routines).recoveries.countP (·.decoder = token) +
        ((routines.map context.rewrite).flatMap Routine.instrs).count (Instr.callTo token) := by
  rw [recoveries_reportOf]
  induction routines with
  | nil => rfl
  | cons routine rest ih =>
    have hroutine := Recovery.count_editAll (context.allFoundIn_recoveriesOf routine) token
    rw [← instrs_rewrite] at hroutine
    simp only [List.flatMap_cons, List.map_cons, List.count_append, List.countP_append, ih]
    rw [← hroutine, recoveriesOf]
    omega

/-- A site that failed has kept its call. -/
theorem mem_instrs_rewrite_of_failure {routine : Routine} {site : Site} {failure : Failure}
    (hsite : site ∈ context.pool.sites context.config routine)
    (hfailure : context.failure? site = some failure) (htarget : site.target = some token) :
    Instr.callTo token ∈ (context.rewrite routine).instrs := by
  have hjudge := (failure?_eq_some_iff.mp hfailure).1
  refine List.mem_of_getElem? (i := site.call) ?_
  rw [(context.edited_rewrite routine).kept, Pool.getElem?_call hsite htarget]
  intro edit hedit
  obtain ⟨other, hother, hrecovery⟩ := List.mem_filterMap.mp hedit
  obtain ⟨decoder, candidate, hok, rfl⟩ := recovery?_eq_some_iff.mp hrecovery
  have hne : site ≠ other := by
    rintro rfl
    cases hjudge.symm.trans hok
  have hapart := Pool.apart_of_ne hsite hother hne
  exact ⟨hapart.call_load, hapart.call_call⟩

theorem count_pos_of_failure {routines : List Routine} {failure : Failure}
    (h : failure ∈ (context.reportOf routines).failures)
    (htarget : failure.site.target = some token) :
    0 < ((routines.map context.rewrite).flatMap Routine.instrs).count (Instr.callTo token) := by
  obtain ⟨routine, hroutine, site, hsite, hfailure⟩ := mem_failures_iff.mp h
  rw [(failure?_eq_some_iff.mp hfailure).2] at htarget
  have hcall := mem_instrs_rewrite_of_failure hsite hfailure htarget
  rw [List.count_pos_iff]
  exact List.mem_flatMap.mpr ⟨_, List.mem_map_of_mem hroutine, hcall⟩

/-- **What may be removed**, read off the bodies and not off the records: a decoder from which
something was recovered and which nothing calls. -/
theorem mem_removable_reportOf_iff (context : Context) (routines : List Routine) (token : Token) :
    token ∈ (context.reportOf routines).removable ↔
      context.pool.contains token ∧
        (∃ recovery ∈ (context.reportOf routines).recoveries, recovery.decoder = token) ∧
        ((routines.map context.rewrite).flatMap Routine.instrs).count (Instr.callTo token) = 0 := by
  rw [Report.mem_removable_iff]
  constructor
  · rintro ⟨-, ⟨recovery, hrecovery, rfl⟩, -, hnone⟩
    obtain ⟨routine, -, hmem⟩ := exists_routine_of_recovery hrecovery
    have hpool := contains_of_mem_recoveriesOf hmem
    refine ⟨hpool, ⟨recovery, hrecovery, rfl⟩, ?_⟩
    rw [← context.liveCallsOf_reportOf hpool]
    exact List.count_eq_zero.mpr hnone
  · rintro ⟨hpool, hrecovery, hzero⟩
    refine ⟨context.aborted_reportOf routines, hrecovery, ?_, ?_⟩
    · intro failure hfailure htarget
      have hpos := count_pos_of_failure hfailure htarget
      exact hpos.ne hzero.symm
    · rw [← context.liveCallsOf_reportOf hpool] at hzero
      exact List.count_eq_zero.mp hzero

end Context

/-! ### The calls of an assembly -/

/-- **Calls are conserved, and what may be removed is not called any more.** For a decoder of the
pool, the calls in all bodies before a run are the literals recovered from it and the calls that the
report counts as left, and these are the calls in all bodies afterwards. The removable decoders, in
strictly ascending order, are exactly those of the pool from which something was recovered and to
which no call remains. -/
theorem calls_conserved {engine : Engine} {supply : WorkerSupply} {assembly : Assembly}
    {report : Report} (hreport : (engine.run supply assembly).result = .ok report) :
    (∀ token, (Pool.ofAssembly engine.config assembly).contains token →
      assembly.callsOf token =
          report.recoveries.countP (·.decoder = token) + report.liveCallsOf token ∧
        report.liveCallsOf token = (engine.run supply assembly).assembly.callsOf token) ∧
      report.removable.Pairwise (fun a b => a.value < b.value) ∧
      ∀ token, token ∈ report.removable ↔
        (Pool.ofAssembly engine.config assembly).contains token ∧
          (∃ recovery ∈ report.recoveries, recovery.decoder = token) ∧
          (engine.run supply assembly).assembly.callsOf token = 0 := by
  obtain ⟨blob, hready, rfl⟩ := Engine.exists_prepare_of_run hreport
  rw [(Engine.run_of_prepare hready).1]
  refine ⟨?_, Report.pairwise_lt_removable _, fun token => ?_⟩
  · intro token hpool
    have hlive := (engine.context assembly blob).liveCallsOf_reportOf hpool assembly.routines
    have hcount := (engine.context assembly blob).count_calls assembly.routines token
    rw [← hlive] at hcount
    exact ⟨hcount, hlive⟩
  · exact (engine.context assembly blob).mem_removable_reportOf_iff assembly.routines token

namespace Sample

/-- The assembly without the call that is not recovered. -/
def clearedAssembly : Assembly :=
  withBody [.loadInt 0, .callTo decoder.token]

/-- What a run reports then. -/
def clearedReport : Report :=
  { report with examined := 1, failures := [], liveCalls := [] }

end Sample

/-- Of two calls one is recovered and one is left, so the decoder stays. Where the first is the only
one the decoder may go. -/
theorem calls_conserved_sample :
    Sample.assembly.callsOf Sample.decoder.token = 2 ∧
      Sample.report.recoveries.countP (·.decoder = Sample.decoder.token) = 1 ∧
      (Sample.engine.run Sample.supply Sample.assembly).assembly.callsOf Sample.decoder.token = 1 ∧
      Sample.decoder.token ∉ Sample.report.removable ∧
      Sample.decoder.token ∈ Sample.clearedReport.removable := by
  have hreport : (Sample.engine.run Sample.supply Sample.assembly).result =
      .ok Sample.report := rfl
  have hcleared : (Sample.engine.run Sample.supply Sample.clearedAssembly).result =
      .ok Sample.clearedReport := rfl
  obtain ⟨hcalls, -, hremovable⟩ := calls_conserved hreport
  obtain ⟨hcount, hlive⟩ := hcalls Sample.decoder.token (by decide)
  have hleft : Sample.report.liveCallsOf Sample.decoder.token = 1 := by decide
  have hrecovered : Sample.report.recoveries.countP (·.decoder = Sample.decoder.token) = 1 := by
    decide
  rw [hrecovered, hleft] at hcount
  rw [hleft] at hlive
  refine ⟨hcount, hrecovered, hlive.symm, ?_, ?_⟩
  · rw [hremovable, ← hlive]
    simp
  · exact ((calls_conserved hcleared).2.2 _).mpr ⟨by decide, by decide, by decide⟩

end LiteralRecovery
