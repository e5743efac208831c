import LiteralRecovery.Proofs.Account
import Mathlib.Data.List.Forall2

/-!
# What a run changes

A run is refused, and then the assembly is as it was, or some routines are rewritten and reported on
and the others are left alone. Which ones, and in which order they are worked on, differs from run
to run. `Engine.Ends` says no more than this, and what follows from it holds of all runs.

Two results about the assembly that a run hands back are prepared here. The first is that scanning
and patching agree. All sites of a routine are computed before the first of them is patched, and yet
no patch is ever refused, so a failure for want of a literal always means that decoding found none.

The second is the exact effect of a run: the report lists every edit of the assembly, and nothing
else is edited. Reports tell routines apart by token, so tokens have to be distinct for this.

## Main definitions

* `Context.Rewrites`: some routines are rewritten and the others are left alone
* `Engine.Ends`: the end of a run
* `Routine.Edited`: one routine is another after the given recoveries
* `Assembly.ChangedBy`: one assembly is another after the recoveries of a report

## Main results

* `Engine.ends_runUntil`: the end of a sequential run
* `sites_never_stale`: no site of a scan is refused, in whatever order sites are patched
* `Engine.Ends.changedBy`: the effect of a run
-/

namespace LiteralRecovery

/-! ### Judgements, read backwards -/

namespace Context

variable {context : Context} {site : Site}

theorem judge_eq_ok_iff {decoder : Token} {candidate : Candidate} :
    context.judge site = .ok (decoder, candidate) ↔
      site.target = some decoder ∧ context.decode? decoder site = some candidate := by
  unfold judge
  constructor
  · intro h
    split at h
    next => cases h
    next target htarget =>
      split at h
      next => cases h
      next found hdecode =>
        cases h
        exact ⟨htarget, hdecode⟩
  · rintro ⟨htarget, hdecode⟩
    simp [htarget, hdecode]

theorem judge_eq_decodeMiss_iff :
    context.judge site = .error .decodeMiss ↔
      ∃ decoder, site.target = some decoder ∧ context.decode? decoder site = none := by
  unfold judge
  constructor
  · intro h
    split at h
    next => cases h
    next target htarget =>
      split at h
      next hdecode => exact ⟨target, htarget, hdecode⟩
      next => cases h
  · rintro ⟨decoder, htarget, hdecode⟩
    simp [htarget, hdecode]

theorem recovery?_eq_some_iff {recovery : Recovery} :
    context.recovery? site = some recovery ↔
      ∃ decoder candidate, context.judge site = .ok (decoder, candidate) ∧
        site.recovery decoder candidate = recovery := by
  unfold recovery?
  rcases context.judge site with reason | ⟨decoder, candidate⟩ <;> simp

theorem failure?_eq_some_iff {failure : Failure} :
    context.failure? site = some failure ↔
      context.judge site = .error failure.reason ∧ failure.site = site := by
  obtain ⟨failed, reason⟩ := failure
  unfold failure?
  rcases context.judge site with found | found <;> simp [and_comm, eq_comm]

theorem mem_recoveries_iff {routines : List Routine} {recovery : Recovery} :
    recovery ∈ (context.reportOf routines).recoveries ↔
      ∃ routine ∈ routines, ∃ site ∈ context.pool.sites context.config routine,
        context.recovery? site = some recovery := by
  simp [recoveries_reportOf]

theorem mem_failures_iff {routines : List Routine} {failure : Failure} :
    failure ∈ (context.reportOf routines).failures ↔
      ∃ routine ∈ routines, ∃ site ∈ context.pool.sites context.config routine,
        context.failure? site = some failure := by
  simp [failures_reportOf]

/-- A routine has a recovery exactly if it gets a literal. -/
theorem placements_isEmpty (context : Context) (routine : Routine) :
    (context.placements routine).isEmpty =
      ((context.pool.sites context.config routine).filterMap context.recovery?).isEmpty := by
  rw [Bool.eq_iff_iff, List.isEmpty_iff, List.isEmpty_iff, placements,
    List.filterMap_eq_nil_iff, List.filterMap_eq_nil_iff]
  refine forall₂_congr fun site _ => ?_
  cases hjudge : context.judge site <;> simp [placement?, recovery?, hjudge]

end Context

/-! ### A small assembly

One decoder, one routine that calls it twice, and a blob with a single record. The first call is
recovered; for the second nothing is found. -/

namespace Sample

/-- The decoder. -/
def decoder : Routine :=
  ⟨⟨0x06000001⟩, "a", some Signature.decoder, some [⟨.ret, .none⟩], Flags.static⟩

/-- The routine with the two calls. -/
def main : Routine :=
  ⟨⟨0x06000002⟩, "Main", none,
    some [.loadInt 0, .callTo decoder.token, .loadInt 7, ⟨.other, .none⟩, .callTo decoder.token],
    Flags.static⟩

/-- The blob with its record. -/
def blob : Blob :=
  ⟨⟨0x04000001⟩, "data", #[2, 0, 0, 0, 104, 105]⟩

/-- Blob, decoder and caller together. -/
def assembly : Assembly :=
  ⟨[⟨blob.slot, blob.name, none, some blob.bytes⟩], [decoder, main], []⟩

/-- The same with another body for the caller. -/
def withBody (body : Body) : Assembly :=
  { assembly with routines := [decoder, { main with body := some body }] }

/-- An engine that knows the name of the slot. -/
def engine : Engine :=
  .ofConfig { blobSlot := some "data" }

/-- An environment that has workers enough. -/
def supply : WorkerSupply :=
  fun _ => .ok ()

/-- The second call. -/
def failure : Failure :=
  ⟨⟨main.token, 2, 4, 7, some decoder.token, .full⟩, .decodeMiss⟩

/-- What a run reports. -/
def report : Report :=
  { examined := 2
    recovered := 1
    recoveries := [⟨main.token, 0, 1, 0, decoder.token, .directOffset, "hi"⟩]
    failures := [failure]
    routinesPatched := 1
    liveCalls := [decoder.token] }

end Sample

/-! ### What a run leaves -/

theorem exists_getElem?_of_forall₂ {α β : Type} {related : α → β → Prop} {olds : List α}
    {news : List β} (h : List.Forall₂ related olds news) {k : Nat} {old : α}
    (hk : olds[k]? = some old) : ∃ new, news[k]? = some new ∧ related old new := by
  obtain ⟨hlt, rfl⟩ := List.getElem?_eq_some_iff.mp hk
  have hlt' : k < news.length := h.length_eq ▸ hlt
  exact ⟨_, List.getElem?_eq_getElem hlt', (List.forall₂_iff_get.mp h).2 k hlt hlt'⟩

namespace Context

/-- Of routines, the chosen ones are rewritten and the others are left alone. -/
inductive Rewrites (context : Context) : (routines chosen after : List Routine) → Prop where
  | nil : Rewrites context [] [] []
  | rewritten {routines chosen after : List Routine} (routine : Routine)
      (rest : Rewrites context routines chosen after) :
      Rewrites context (routine :: routines) (routine :: chosen) (context.rewrite routine :: after)
  | kept {routines chosen after : List Routine} (routine : Routine)
      (rest : Rewrites context routines chosen after) :
      Rewrites context (routine :: routines) chosen (routine :: after)

namespace Rewrites

variable {context : Context} {routines chosen after : List Routine}

theorem refl (context : Context) (routines : List Routine) :
    context.Rewrites routines [] routines := by
  induction routines with
  | nil => exact .nil
  | cons routine rest ih => exact ih.kept routine

/-- The routines in front are rewritten. -/
theorem append (context : Context) (first second : List Routine) :
    context.Rewrites (first ++ second) first (first.map context.rewrite ++ second) := by
  induction first with
  | nil => exact .refl context second
  | cons routine rest ih => exact ih.rewritten routine

theorem sublist (h : context.Rewrites routines chosen after) : chosen.Sublist routines := by
  induction h with
  | nil => exact .slnil
  | rewritten routine _ ih => exact ih.cons_cons routine
  | kept routine _ ih => exact ih.cons routine

theorem forall₂ (h : context.Rewrites routines chosen after) :
    List.Forall₂ (fun old new => new = context.rewrite old ∨ new = old) routines after := by
  induction h with
  | nil => exact .nil
  | rewritten routine _ ih => exact .cons (.inl rfl) ih
  | kept routine _ ih => exact .cons (.inr rfl) ih

/-- Where tokens are distinct, they tell which routines were chosen. -/
theorem forall₂_of_nodup (h : context.Rewrites routines chosen after)
    (hdistinct : (routines.map Routine.token).Nodup) :
    List.Forall₂ (fun old new => old ∈ chosen ∧ new = context.rewrite old ∨
      old.token ∉ chosen.map Routine.token ∧ new = old) routines after := by
  induction h with
  | nil => exact .nil
  | @rewritten routines chosen after routine rest ih =>
    obtain ⟨hother, hrest⟩ := List.nodup_cons.mp hdistinct
    refine .cons (.inl ⟨List.mem_cons_self, rfl⟩) ?_
    refine List.Forall₂.imp ?_ ((List.forall₂_and_left _ _).mpr ⟨fun _ => id, ih hrest⟩)
    rintro old new ⟨hmem, ⟨hchosen, rfl⟩ | ⟨hforeign, rfl⟩⟩
    · exact .inl ⟨List.mem_cons_of_mem _ hchosen, rfl⟩
    · refine .inr ⟨?_, rfl⟩
      rw [List.map_cons, List.mem_cons, not_or]
      exact ⟨fun heq => hother (heq ▸ List.mem_map_of_mem hmem), hforeign⟩
  | kept routine rest ih =>
    obtain ⟨hother, hrest⟩ := List.nodup_cons.mp hdistinct
    exact .cons (.inr ⟨fun hmem => hother ((rest.sublist.map _).subset hmem), rfl⟩) (ih hrest)

/-- What can be said of the chosen routines only is counted over all routines as over these. -/
theorem countP_eq (h : context.Rewrites routines chosen after)
    (hdistinct : (routines.map Routine.token).Nodup) {p : Routine → Bool}
    (hp : ∀ routine ∈ routines, p routine → routine.token ∈ chosen.map Routine.token) :
    routines.countP p = chosen.countP p := by
  induction h with
  | nil => rfl
  | @rewritten routines chosen after routine rest ih =>
    obtain ⟨hother, hrest⟩ := List.nodup_cons.mp hdistinct
    have htail : ∀ old ∈ routines, p old → old.token ∈ chosen.map Routine.token := by
      intro old hold hpold
      have hne : old.token ≠ routine.token := fun heq => hother (heq ▸ List.mem_map_of_mem hold)
      exact (List.mem_cons.mp (hp old (List.mem_cons_of_mem _ hold) hpold)).resolve_left hne
    rw [List.countP_cons, List.countP_cons, ih hrest htail]
  | kept routine rest ih =>
    obtain ⟨hother, hrest⟩ := List.nodup_cons.mp hdistinct
    have hnot : ¬ p routine := fun hpold =>
      hother ((rest.sublist.map _).subset (hp routine List.mem_cons_self hpold))
    rw [List.countP_cons_of_neg hnot]
    exact ih hrest fun old hold => hp old (List.mem_cons_of_mem _ hold)

end Rewrites
end Context

namespace Engine

/-- **The end of a run**, whoever does the work and wherever it is stopped. Either the run is
refused and the assembly is as it was, or some routines are rewritten and the records are those of
these routines, in some order. -/
inductive Ends (engine : Engine) (supply : WorkerSupply) (assembly : Assembly) :
    (after : Assembly) → (result : Except Error Report) → Prop where
  | refused {error : Error} (failed : engine.config.prepare supply assembly.slots = .error error) :
      Ends engine supply assembly assembly (.error error)
  | processed {blob : Blob} {chosen routines : List Routine} {report : Report}
      (ready : engine.config.prepare supply assembly.slots = .ok blob)
      (rewrites : (engine.context assembly blob).Rewrites assembly.routines chosen routines)
      (tally : report.tally = ((engine.context assembly blob).reportOf chosen).tally) :
      Ends engine supply assembly { assembly with routines := routines } (.ok report)

variable {engine : Engine} {supply : WorkerSupply} {assembly after : Assembly} {blob : Blob}
  {report : Report} {stop : Option Nat} {result : Except Error Report}

/-- **The end of a sequential run.** -/
theorem ends_runUntil (h : (engine.runUntil supply stop assembly).result = result) :
    engine.Ends supply assembly (engine.runUntil supply stop assembly).assembly result := by
  subst h
  cases hready : engine.config.prepare supply assembly.slots with
  | error error =>
    obtain ⟨hassembly, hresult⟩ := runUntil_of_prepare_error stop hready
    rw [hassembly, hresult]
    exact .refused hready
  | ok blob =>
    obtain ⟨hassembly, hresult⟩ := runUntil_of_prepare stop hready
    have hrewrites := Context.Rewrites.append (engine.context assembly blob)
      (started stop assembly.routines) (leftOver stop assembly.routines)
    rw [started_append_leftOver] at hrewrites
    rw [hassembly, hresult]
    exact .processed hready hrewrites rfl

/-- An error leaves the assembly as it was. -/
theorem Ends.eq_of_error {error : Error} (h : engine.Ends supply assembly after (.error error)) :
    after = assembly := by
  cases h
  rfl

/-- A failure for want of a literal is one of decoding. -/
theorem Ends.exists_decode?_eq_none (h : engine.Ends supply assembly after (.ok report))
    (hblob : Blob.resolve engine.config assembly.slots = .ok blob) {failure : Failure}
    (hmem : failure ∈ report.failures) (hreason : failure.reason = .decodeMiss) :
    ∃ decoder, failure.site.target = some decoder ∧
      decode? engine.config blob.bytes ((Pool.ofAssembly engine.config assembly).find? decoder)
        failure.site.population failure.site.constant = none := by
  cases h with
  | processed ready rewrites tally =>
    obtain rfl := Except.ok.inj ((Config.prepare_eq_ok_iff.mp ready).1.symm.trans hblob)
    obtain ⟨-, -, -, hfailures, -⟩ := Report.tally_eq_iff.mp tally
    obtain ⟨routine, -, site, -, hfailure⟩ :=
      Context.mem_failures_iff.mp (hfailures.mem_iff.mp hmem)
    obtain ⟨hjudge, rfl⟩ := Context.failure?_eq_some_iff.mp hfailure
    rw [hreason] at hjudge
    exact Context.judge_eq_decodeMiss_iff.mp hjudge

end Engine

/-! ### No site is stale -/

theorem Blob.resolve_ne_staleSite {config : Config} {slots : List Slot} {error : Error}
    (h : Blob.resolve config slots = .error error) (token : Token) (index : Nat)
    (detail : String) : error ≠ .staleSite token index detail := by
  unfold Blob.resolve at h
  split at h <;> split at h <;> cases h <;> simp

/-- **Scanning and patching agree.** The sites of a routine are disjoint intervals of its body, in
order. Whichever of them are chosen, in whatever order and with whatever literals, patching them one
after the other succeeds. Hence no run ever meets a site that its routine no longer has, and every
failure for want of a literal is one of decoding. -/
theorem sites_never_stale :
    (∀ (pool : Pool) (config : Config) (routine : Routine),
      (∀ site ∈ pool.sites config routine,
        site.load < site.call ∧ site.call < routine.instrs.length) ∧
      (pool.sites config routine).Pairwise (fun a b => a.call < b.load) ∧
      ∀ chosen : List (Site × String), (chosen.map Prod.fst).Nodup →
        (∀ site ∈ chosen.map Prod.fst, site ∈ pool.sites config routine) →
          ∃ patcher, (Patcher.start routine).patchAll chosen = .ok patcher ∧
            patcher.patched = chosen.length) ∧
    (∀ (engine : Engine) (supply : WorkerSupply) (stop : Option Nat) (assembly : Assembly),
      (∀ token index detail,
        .refused (.staleSite token index detail) ∉ (engine.runUntil supply stop assembly).log) ∧
      ∀ blob report, Blob.resolve engine.config assembly.slots = .ok blob →
        (engine.runUntil supply stop assembly).result = .ok report →
          ∀ failure ∈ report.failures, failure.reason = .decodeMiss →
            ∃ decoder, failure.site.target = some decoder ∧
              decode? engine.config blob.bytes
                ((Pool.ofAssembly engine.config assembly).find? decoder)
                failure.site.population failure.site.constant = none) := by
  refine ⟨fun pool config routine => ⟨fun site h => ?_, ?_, fun chosen hnodup h => ?_⟩,
    fun engine supply stop assembly => ⟨fun token index detail hmem => ?_,
      fun blob report hblob hreport failure hmem hreason => ?_⟩⟩
  · exact ⟨Pool.load_lt_call h, Pool.call_lt_length h⟩
  · exact Pool.pairwise_sites pool config routine
  · refine ⟨_, Patcher.patchAll_eq_ok (Pool.accepts_of_nodup hnodup h), ?_⟩
    exact Nat.zero_add _
  · cases hblob : Blob.resolve engine.config assembly.slots with
    | error error =>
      -- A run that finds no blob tells of its own error only, which is never that of a site.
      rw [Engine.runUntil, hblob] at hmem
      have herror := Blob.resolve_ne_staleSite hblob token index detail
      simp_all
    | ok blob => exact Engine.ne_refused_of_mem_log hblob hmem _ rfl
  · exact (Engine.ends_runUntil hreport).exists_decode?_eq_none hblob hmem hreason

/-- Both sites of the small assembly, patched from the last to the first, and the one that fails in
a run. -/
theorem sites_never_stale_sample :
    (∃ patcher, (Patcher.start Sample.main).patchAll
        (((Pool.ofAssembly Sample.engine.config Sample.assembly).sites Sample.engine.config
          Sample.main).reverse.map (·, "text")) = .ok patcher ∧ patcher.patched = 2) ∧
      ∃ decoder, Sample.failure.site.target = some decoder ∧
        decode? Sample.engine.config Sample.blob.bytes
          ((Pool.ofAssembly Sample.engine.config Sample.assembly).find? decoder)
          Sample.failure.site.population Sample.failure.site.constant = none :=
  ⟨(sites_never_stale.1 (Pool.ofAssembly Sample.engine.config Sample.assembly) Sample.engine.config
      Sample.main).2.2 _ (by decide) (by decide),
    (sites_never_stale.2 Sample.engine Sample.supply none Sample.assembly).2 Sample.blob
      Sample.report rfl rfl Sample.failure (by decide) rfl⟩

/-! ### The edits of one routine -/

namespace Flags

theorem isDirty_markDirty (flags : Flags) : flags.markDirty.isDirty := by
  refine decide_eq_true (UInt32.toBitVec_inj.mp ?_)
  ext i hi
  simp [markDirty, Bool.and_or_distrib_right]

theorem markDirty_and_not_dirtyBit (flags : Flags) :
    flags.markDirty.bits &&& ~~~dirtyBit = flags.bits &&& ~~~dirtyBit := by
  refine UInt32.toBitVec_inj.mp ?_
  ext i hi
  simp [markDirty, Bool.and_or_distrib_right]

end Flags

/-- `after` is `before` with exactly the given edits: the load of each becomes an operation without
effect, the call becomes the literal, and the dirty bit is set if there is any edit at all. -/
structure Routine.Edited (edits : List Recovery) (before after : Routine) : Prop where
  token : after.token = before.token
  name : after.name = before.name
  signature : after.signature = before.signature
  hasBody : after.hasBody = before.hasBody
  length : after.instrs.length = before.instrs.length
  /-- What stood at the positions of an edit. -/
  held : ∀ edit ∈ edits, before.instrs[edit.load]? = some (Instr.loadInt edit.constant) ∧
    before.instrs[edit.call]? = some (Instr.callTo edit.decoder)
  /-- What stands there now. -/
  written : ∀ edit ∈ edits, after.instrs[edit.load]? = some Instr.nop ∧
    after.instrs[edit.call]? = some (Instr.loadString edit.value)
  /-- Every other position is as it was. -/
  kept : ∀ i, (∀ edit ∈ edits, i ≠ edit.load ∧ i ≠ edit.call) →
    after.instrs[i]? = before.instrs[i]?
  dirty : after.isDirty = (before.isDirty || !edits.isEmpty)
  /-- Every flag bit but the dirty one is as it was. -/
  flags : after.flags.bits &&& ~~~Flags.dirtyBit = before.flags.bits &&& ~~~Flags.dirtyBit

theorem Routine.Edited.refl (routine : Routine) : routine.Edited [] routine where
  token := rfl
  name := rfl
  signature := rfl
  hasBody := rfl
  length := rfl
  held := by simp
  written := by simp
  kept := fun _ _ => rfl
  dirty := by simp
  flags := rfl

/-- The order of the edits does not matter. -/
theorem Routine.Edited.of_perm {edits other : List Recovery} {before after : Routine}
    (h : before.Edited edits after) (hperm : edits.Perm other) : before.Edited other after where
  token := h.token
  name := h.name
  signature := h.signature
  hasBody := h.hasBody
  length := h.length
  held := fun edit hedit => h.held edit (hperm.mem_iff.mpr hedit)
  written := fun edit hedit => h.written edit (hperm.mem_iff.mpr hedit)
  kept := fun i hi => h.kept i fun edit hedit => hi edit (hperm.mem_iff.mp hedit)
  dirty := by rw [h.dirty, hperm.isEmpty_eq]
  flags := h.flags

namespace Patcher

/-- All that finishing leaves alone. -/
theorem finish_frame (patcher : Patcher) :
    patcher.finish.1.token = patcher.routine.token ∧
      patcher.finish.1.name = patcher.routine.name ∧
      patcher.finish.1.signature = patcher.routine.signature ∧
      patcher.finish.1.hasBody = patcher.routine.hasBody ∧
      patcher.finish.1.instrs = patcher.routine.instrs := by
  simp only [finish]
  split <;> exact ⟨rfl, rfl, rfl, rfl, rfl⟩

theorem isDirty_finish (patcher : Patcher) :
    patcher.finish.1.isDirty = (patcher.routine.isDirty || decide (0 < patcher.patched)) := by
  simp only [finish]
  split
  next h => simp [Routine.isDirty, Routine.markDirty, Flags.isDirty_markDirty, h]
  next h => simp [h]

theorem flags_finish (patcher : Patcher) :
    patcher.finish.1.flags.bits &&& ~~~Flags.dirtyBit =
      patcher.routine.flags.bits &&& ~~~Flags.dirtyBit := by
  simp only [finish]
  split
  · exact Flags.markDirty_and_not_dirtyBit _
  · rfl

end Patcher

namespace Context

variable {context : Context} {routine : Routine}

/-- Every recovery of a routine is a site of it that got a literal. -/
theorem exists_site_of_recovery {recovery : Recovery}
    (h : recovery ∈ (context.pool.sites context.config routine).filterMap context.recovery?) :
    ∃ site ∈ context.pool.sites context.config routine, ∃ candidate,
      site.target = some recovery.decoder ∧ site.recovery recovery.decoder candidate = recovery ∧
      (site, recovery.value) ∈ context.placements routine := by
  obtain ⟨site, hsite, hrecovery⟩ := List.mem_filterMap.mp h
  obtain ⟨decoder, candidate, hjudge, rfl⟩ := recovery?_eq_some_iff.mp hrecovery
  refine ⟨site, hsite, candidate, (judge_eq_ok_iff.mp hjudge).1, rfl, ?_⟩
  exact List.mem_filterMap.mpr ⟨site, hsite, by simp [placement?, hjudge, Site.recovery]⟩

/-- Every literal of a routine is one of its recoveries. -/
theorem exists_recovery_of_placement {placement : Site × String}
    (h : placement ∈ context.placements routine) :
    ∃ recovery ∈ (context.pool.sites context.config routine).filterMap context.recovery?,
      recovery.load = placement.1.load ∧ recovery.call = placement.1.call := by
  obtain ⟨site, hsite, hplacement⟩ := List.mem_filterMap.mp h
  cases hjudge : context.judge site with
  | error reason => simp [placement?, hjudge] at hplacement
  | ok found =>
    simp only [placement?, hjudge, Option.some.injEq] at hplacement
    refine ⟨site.recovery found.1 found.2,
      List.mem_filterMap.mpr ⟨site, hsite, by simp [recovery?, hjudge]⟩, ?_⟩
    rw [← hplacement]
    exact ⟨rfl, rfl⟩

/-- **The edits of one routine** are its recoveries. -/
theorem edited_rewrite (context : Context) (routine : Routine) :
    routine.Edited ((context.pool.sites context.config routine).filterMap context.recovery?)
      (context.rewrite routine) := by
  obtain ⟨htoken, hname, hsignature, hbody, hinstrs⟩ := (context.patcherOf routine).finish_frame
  obtain ⟨htoken', hname', hsignature', hflags', hbody', hlength'⟩ :=
    routine.putLiterals_frame (context.placements routine)
  refine ⟨htoken.trans htoken', hname.trans hname', hsignature.trans hsignature',
    hbody.trans hbody', (congrArg List.length hinstrs).trans hlength', fun edit h => ?_,
    fun edit h => ?_, fun i h => ?_, ?_, ?_⟩
  · obtain ⟨site, hsite, candidate, htarget, hrecovery, -⟩ := exists_site_of_recovery h
    rw [← hrecovery]
    exact ⟨Pool.getElem?_load hsite, Pool.getElem?_call hsite htarget⟩
  · obtain ⟨site, -, candidate, -, hrecovery, hplacement⟩ := exists_site_of_recovery h
    have hwritten :=
      Routine.instrs_putLiterals_of_mem (context.accepts_placements routine) hplacement
    rw [rewrite, hinstrs]
    rw [← hrecovery] at hwritten ⊢
    exact hwritten
  · rw [rewrite, hinstrs]
    refine Routine.instrs_putLiterals_of_ne fun placement hplacement => ?_
    obtain ⟨recovery, hrecovery, hload, hcall⟩ := exists_recovery_of_placement hplacement
    rw [← hload, ← hcall]
    exact h recovery hrecovery
  · have hdirty : (context.patcherOf routine).routine.isDirty = routine.isDirty :=
      congrArg Flags.isDirty hflags'
    rw [rewrite, Patcher.isDirty_finish, hdirty, ← placements_isEmpty]
    simp only [context.patched_pos_iff, Bool.decide_eq_true]
  · rw [rewrite, Patcher.flags_finish]
    exact congrArg (·.bits &&& ~~~Flags.dirtyBit) hflags'

/-! ### The edits of a run -/

theorem routine_of_recovery? {site : Site} {recovery : Recovery}
    (hsite : site ∈ context.pool.sites context.config routine)
    (h : context.recovery? site = some recovery) : recovery.routine = routine.token := by
  obtain ⟨instr, -, -, -, -, -, howner, -⟩ := Pool.mem_sites_iff.mp hsite
  obtain ⟨decoder, candidate, -, rfl⟩ := recovery?_eq_some_iff.mp h
  exact howner

theorem routine_of_mem_recoveries {recovery : Recovery} (h : recovery ∈
      (context.pool.sites context.config routine).filterMap context.recovery?) :
    recovery.routine = routine.token := by
  obtain ⟨site, hsite, hfound⟩ := List.mem_filterMap.mp h
  exact routine_of_recovery? hsite hfound

/-- A token that no routine has is that of no recovery. -/
theorem filter_recoveries_of_not_mem {routines : List Routine} {token : Token}
    (h : token ∉ routines.map Routine.token) :
    (context.reportOf routines).recoveries.filter (·.routine = token) = [] := by
  rw [recoveries_reportOf]
  exact Routine.filter_flatMap_of_not_mem (fun _ _ => routine_of_mem_recoveries) h

/-- Where tokens are distinct, the recoveries with the token of a routine are those of its
sites. -/
theorem filter_recoveries_of_mem {routines : List Routine}
    (hdistinct : (routines.map Routine.token).Nodup) (h : routine ∈ routines) :
    (context.reportOf routines).recoveries.filter (·.routine = routine.token) =
      (context.pool.sites context.config routine).filterMap context.recovery? := by
  rw [recoveries_reportOf]
  exact Routine.filter_flatMap_of_mem (fun _ _ => routine_of_mem_recoveries) hdistinct h

/-- Where tokens are distinct, a routine that was rewritten has the recoveries of its sites, and one
that was left alone has none. -/
theorem Rewrites.forall₂_recoveries {routines chosen after : List Routine}
    (h : context.Rewrites routines chosen after)
    (hdistinct : (routines.map Routine.token).Nodup) :
    List.Forall₂ (fun old new =>
      new = context.rewrite old ∧
        (context.reportOf chosen).recoveries.filter (·.routine = old.token) =
          (context.pool.sites context.config old).filterMap context.recovery? ∨
      new = old ∧
        (context.reportOf chosen).recoveries.filter (·.routine = old.token) = [])
      routines after := by
  have hchosen : (chosen.map Routine.token).Nodup := hdistinct.sublist (h.sublist.map _)
  refine (h.forall₂_of_nodup hdistinct).imp ?_
  rintro old new (⟨hmem, rfl⟩ | ⟨hforeign, rfl⟩)
  · exact .inl ⟨rfl, filter_recoveries_of_mem hchosen hmem⟩
  · exact .inr ⟨rfl, filter_recoveries_of_not_mem hforeign⟩

end Context

/-- `after` is `before` with exactly the edits that the report tells of. -/
structure Assembly.ChangedBy (report : Report) (before after : Assembly) : Prop where
  slots : after.slots = before.slots
  externals : after.externals = before.externals
  /-- Each routine has the edits of the recoveries with its token. -/
  routines : List.Forall₂
    (fun old new => old.Edited (report.recoveries.filter (·.routine = old.token)) new)
    before.routines after.routines
  /-- There is no recovery but of a routine of the assembly. -/
  owners : ∀ recovery ∈ report.recoveries, ∃ routine ∈ before.routines,
    routine.token = recovery.routine
  /-- The routines with a recovery are counted. -/
  patched : report.routinesPatched =
    before.routines.countP fun routine => report.recoveries.any (·.routine = routine.token)

/-- Every routine is still there, and the literals that the report lists for it can be read in its
body. -/
theorem Assembly.ChangedBy.exists_literals {report : Report} {before after : Assembly}
    (h : before.ChangedBy report after) {k : Nat} {old : Routine}
    (hk : before.routines[k]? = some old) :
    ∃ new, after.routines[k]? = some new ∧
      ∀ entry ∈ report.stringsOf old.token,
        new.instrs[entry.1]?.bind Instr.literal? = some entry.2 := by
  obtain ⟨new, hnew, hedited⟩ := exists_getElem?_of_forall₂ h.routines hk
  refine ⟨new, hnew, fun entry hentry => ?_⟩
  obtain ⟨recovery, hrecovery, rfl⟩ :=
    List.mem_map.mp ((report.stringsOf_perm old.token).mem_iff.mp hentry)
  rw [(hedited.written recovery hrecovery).2]
  rfl

/-- **The exact effect of a run.** Where tokens are distinct, a run that ends with a report changes
the assembly by the recoveries of the report. -/
theorem Engine.Ends.changedBy {engine : Engine} {supply : WorkerSupply} {assembly after : Assembly}
    {report : Report} (h : engine.Ends supply assembly after (.ok report))
    (hdistinct : (assembly.routines.map Routine.token).Nodup) :
    assembly.ChangedBy report after := by
  cases h with
  | @processed blob chosen routines report ready rewrites tally =>
    have hchosen : (chosen.map Routine.token).Nodup :=
      hdistinct.sublist (rewrites.sublist.map _)
    obtain ⟨-, -, hrecoveries, -, hpatched, -⟩ := Report.tally_eq_iff.mp tally
    refine ⟨rfl, rfl, ?_, fun recovery hrecovery => ?_, ?_⟩
    · refine (rewrites.forall₂_recoveries hdistinct).imp ?_
      intro old new hnew
      have hedits := hrecoveries.filter (·.routine = old.token)
      rcases hnew with ⟨rfl, hsites⟩ | ⟨rfl, hnone⟩
      · rw [hsites] at hedits
        exact (Context.edited_rewrite _ old).of_perm hedits.symm
      · rw [hnone] at hedits
        rw [hedits.eq_nil]
        exact .refl new
    · obtain ⟨routine, hroutine, site, hsite, hfound⟩ :=
        Context.mem_recoveries_iff.mp (hrecoveries.mem_iff.mp hrecovery)
      exact ⟨routine, rewrites.sublist.subset hroutine,
        (Context.routine_of_recovery? hsite hfound).symm⟩
    · -- Counting by token and counting by literals agree on the routines that were chosen.
      have hany : ∀ routine : Routine, report.recoveries.any (·.routine = routine.token) =
          !(((engine.context assembly blob).reportOf chosen).recoveries.filter
            (·.routine = routine.token)).isEmpty := by
        intro routine
        rw [← (hrecoveries.filter _).isEmpty_eq, Bool.eq_iff_iff]
        simp
      rw [hpatched, Context.routinesPatched_reportOf, rewrites.countP_eq hdistinct]
      · refine List.countP_congr fun routine hroutine => ?_
        rw [hany, Context.filter_recoveries_of_mem hchosen hroutine, Context.placements_isEmpty]
      · intro routine _ hrecovered
        by_contra hforeign
        rw [hany, Context.filter_recoveries_of_not_mem hforeign] at hrecovered
        cases hrecovered

end LiteralRecovery
