import LiteralRecovery.Proofs.Effect

/-!
# Rewriting as a sequence of edits

`Routine.Edited` describes a rewritten body position by position. To count its instructions, to add
up what they do to the stack or to execute it, another form is of more use: the recoveries of the
routine, applied to its body one after the other. Every one of them finds the pair of instructions
that it replaces. The pairs stand one behind the other, so an edit never reaches into the next one.

## Main definitions

* `Recovery.edit`, `Recovery.editAll`: a body with the literals of recoveries in their places
* `Recovery.FoundIn`, `Recovery.AllFoundIn`: the body has the pairs that are replaced
* `Context.recoveriesOf`: the recoveries of a routine
* `recoveriesIn`, `Outcome.recoveries`: the recoveries of a run

## Main results

* `Recovery.AllFoundIn.edit`: what one edit preserves
* `Recovery.AllFoundIn.induct`: the induction over the edits of a body
* `Context.instrs_rewrite`: the body of a routine that was processed
* `Engine.Ends.exists_edits`: the bodies that a run hands back
-/

namespace LiteralRecovery

/-! ### Edits of a body -/

namespace Recovery

/-- The body with the literal of the recovery in its place. -/
def edit (recovery : Recovery) (body : Body) : Body :=
  (body.set recovery.load Instr.nop).set recovery.call (Instr.loadString recovery.value)

/-- The body with the literals of recoveries in their places, one after the other. -/
def editAll (edits : List Recovery) (body : Body) : Body :=
  edits.foldl (fun body recovery => recovery.edit body) body

@[simp] theorem editAll_nil (body : Body) : editAll [] body = body :=
  rfl

@[simp] theorem editAll_cons (recovery : Recovery) (rest : List Recovery) (body : Body) :
    editAll (recovery :: rest) body = editAll rest (recovery.edit body) :=
  rfl

variable {recovery other : Recovery} {body : Body} {edits rest : List Recovery}

theorem getElem?_edit_of_ne {i : Nat} (hload : i ≠ recovery.load) (hcall : i ≠ recovery.call) :
    (recovery.edit body)[i]? = body[i]? := by
  rw [edit, List.getElem?_set_ne hcall.symm, List.getElem?_set_ne hload.symm]

/-- The body has the pair of instructions that the recovery replaces, and between them nothing that
the search for the constant does not pass over. -/
structure FoundIn (recovery : Recovery) (body : Body) : Prop where
  load_lt_call : recovery.load < recovery.call
  load : body[recovery.load]? = some (Instr.loadInt recovery.constant)
  call : body[recovery.call]? = some (Instr.callTo recovery.decoder)
  between : ∀ i, recovery.load < i → i < recovery.call →
    ∃ instr, body[i]? = some instr ∧ instr.isPassed

theorem FoundIn.call_lt_length (h : recovery.FoundIn body) : recovery.call < body.length :=
  (List.getElem?_eq_some_iff.mp h.call).1

theorem FoundIn.load_lt_length (h : recovery.FoundIn body) : recovery.load < body.length :=
  h.load_lt_call.trans h.call_lt_length

/-- The first half of an edit leaves the call for the second one. -/
theorem FoundIn.call_set (h : recovery.FoundIn body) :
    (body.set recovery.load Instr.nop)[recovery.call]? =
      some (Instr.callTo recovery.decoder) := by
  rw [List.getElem?_set_ne h.load_lt_call.ne, h.call]

/-- What an edit writes. -/
theorem FoundIn.getElem?_edit (h : recovery.FoundIn body) :
    (recovery.edit body)[recovery.load]? = some Instr.nop ∧
      (recovery.edit body)[recovery.call]? = some (Instr.loadString recovery.value) := by
  have hcall : recovery.call < (body.set recovery.load Instr.nop).length := by
    simpa using h.call_lt_length
  rw [Recovery.edit, List.getElem?_set_ne h.load_lt_call.ne',
    List.getElem?_set_self h.load_lt_length, List.getElem?_set_self hcall]
  exact ⟨rfl, rfl⟩

/-- An edit does not reach a pair behind it. -/
theorem FoundIn.edit_of_lt (h : recovery.FoundIn body) (hother : other.FoundIn body)
    (hlt : recovery.call < other.load) : other.FoundIn (recovery.edit body) := by
  have hkept : ∀ i, other.load ≤ i → (recovery.edit body)[i]? = body[i]? := by
    intro i hi
    have hload := h.load_lt_call
    exact getElem?_edit_of_ne (by omega) (by omega)
  refine ⟨hother.load_lt_call, ?_, ?_, fun i hload hcall => ?_⟩
  · rw [hkept _ le_rfl]
    exact hother.load
  · rw [hkept _ hother.load_lt_call.le]
    exact hother.call
  · rw [hkept i hload.le]
    exact hother.between i hload hcall

/-- The body has the pairs of all recoveries, and they stand one behind the other. -/
structure AllFoundIn (edits : List Recovery) (body : Body) : Prop where
  found : ∀ recovery ∈ edits, recovery.FoundIn body
  ordered : edits.Pairwise fun a b => a.call < b.load

theorem allFoundIn_nil (body : Body) : AllFoundIn [] body :=
  ⟨by simp, .nil⟩

theorem AllFoundIn.head (h : AllFoundIn (recovery :: rest) body) : recovery.FoundIn body :=
  h.found recovery (List.mem_cons_self ..)

/-- **One edit.** The pairs that are still to be replaced are there as before. -/
theorem AllFoundIn.edit (h : AllFoundIn (recovery :: rest) body) :
    AllFoundIn rest (recovery.edit body) := by
  obtain ⟨hbehind, hrest⟩ := List.pairwise_cons.mp h.ordered
  refine ⟨fun other hother => ?_, hrest⟩
  exact h.head.edit_of_lt (h.found other (List.mem_cons_of_mem _ hother)) (hbehind other hother)

/-- **Edit by edit.** What holds without edits, and follows from what holds after the first one,
holds of a body and its edits. Something may be known of each edit by itself. -/
theorem AllFoundIn.induct {P : Recovery → Prop} {motive : List Recovery → Body → Prop}
    (nil : ∀ body, motive [] body)
    (cons : ∀ recovery rest body, P recovery → recovery.FoundIn body →
      motive rest (recovery.edit body) → motive (recovery :: rest) body)
    (hP : ∀ recovery ∈ edits, P recovery) (h : AllFoundIn edits body) : motive edits body := by
  induction edits generalizing body with
  | nil => exact nil body
  | cons recovery rest ih =>
    have hrest := ih (fun other hother => hP other (List.mem_cons_of_mem _ hother)) h.edit
    exact cons recovery rest body (hP recovery (List.mem_cons_self ..)) h.head hrest

/-- A position of no pair keeps its instruction. -/
theorem getElem?_editAll_of_ne {i : Nat}
    (h : ∀ recovery ∈ edits, i ≠ recovery.load ∧ i ≠ recovery.call) :
    (editAll edits body)[i]? = body[i]? := by
  induction edits generalizing body with
  | nil => rfl
  | cons recovery rest ih =>
    obtain ⟨hload, hcall⟩ := h recovery (List.mem_cons_self ..)
    rw [editAll_cons, ih fun other hother => h other (List.mem_cons_of_mem _ hother),
      getElem?_edit_of_ne hload hcall]

/-- The positions of a pair have the instructions of the literal. -/
theorem AllFoundIn.getElem?_editAll (h : AllFoundIn edits body) (hmem : recovery ∈ edits) :
    (editAll edits body)[recovery.load]? = some Instr.nop ∧
      (editAll edits body)[recovery.call]? = some (Instr.loadString recovery.value) := by
  induction edits generalizing body with
  | nil => cases hmem
  | cons first rest ih =>
    rcases List.mem_cons.mp hmem with rfl | hrest
    · -- the pairs that follow stand behind this one
      have hbehind : ∀ other ∈ rest, recovery.call < other.load ∧ other.load < other.call :=
        fun other hother => ⟨List.rel_of_pairwise_cons h.ordered hother,
          (h.found other (List.mem_cons_of_mem _ hother)).load_lt_call⟩
      have hlt := h.head.load_lt_call
      rw [editAll_cons,
        getElem?_editAll_of_ne fun other hother => by have := hbehind other hother; omega,
        getElem?_editAll_of_ne fun other hother => by have := hbehind other hother; omega]
      exact h.head.getElem?_edit
    · exact ih h.edit hrest

end Recovery

/-! ### The edits of a routine -/

namespace Context

variable {context : Context} {routine : Routine} {recovery : Recovery}

/-- The recoveries of a routine, in the order of its sites. -/
def recoveriesOf (context : Context) (routine : Routine) : List Recovery :=
  (context.pool.sites context.config routine).filterMap context.recovery?

theorem mem_recoveriesOf_iff :
    recovery ∈ context.recoveriesOf routine ↔
      ∃ site ∈ context.pool.sites context.config routine, ∃ decoder candidate,
        site.target = some decoder ∧ context.decode? decoder site = some candidate ∧
          site.recovery decoder candidate = recovery := by
  simp only [recoveriesOf, List.mem_filterMap, recovery?_eq_some_iff, judge_eq_ok_iff, and_assoc]

theorem instrs_putLiterals_placements (sites : List Site) (routine : Routine) :
    (routine.putLiterals (sites.filterMap context.placement?)).instrs =
      Recovery.editAll (sites.filterMap context.recovery?) routine.instrs := by
  induction sites generalizing routine with
  | nil => rfl
  | cons site rest ih =>
    cases hjudge : context.judge site with
    | error reason =>
      have hplacement : context.placement? site = none := by simp [placement?, hjudge]
      have hrecovery : context.recovery? site = none := by simp [recovery?, hjudge]
      rw [List.filterMap_cons_none hplacement, List.filterMap_cons_none hrecovery, ih]
    | ok found =>
      have hplacement : context.placement? site = some (site, found.2.value) := by
        simp [placement?, hjudge]
      have hrecovery : context.recovery? site = some (site.recovery found.1 found.2) := by
        simp [recovery?, hjudge]
      rw [List.filterMap_cons_some hplacement, List.filterMap_cons_some hrecovery,
        Routine.putLiterals_cons, Recovery.editAll_cons, ih, Routine.instrs_putLiteral]
      rfl

/-- **The body of a routine that was processed** is the old one after the edits of its
recoveries. -/
theorem instrs_rewrite (context : Context) (routine : Routine) :
    (context.rewrite routine).instrs =
      Recovery.editAll (context.recoveriesOf routine) routine.instrs := by
  obtain ⟨-, -, -, -, hinstrs⟩ := (context.patcherOf routine).finish_frame
  rw [rewrite, hinstrs]
  exact instrs_putLiterals_placements _ routine

theorem allFoundIn_recoveriesOf (context : Context) (routine : Routine) :
    Recovery.AllFoundIn (context.recoveriesOf routine) routine.instrs := by
  refine ⟨fun recovery h => ?_, ?_⟩
  · obtain ⟨site, hsite, decoder, candidate, htarget, -, rfl⟩ := mem_recoveriesOf_iff.mp h
    exact ⟨Pool.load_lt_call hsite, Pool.getElem?_load hsite, Pool.getElem?_call hsite htarget,
      Pool.isPassed_of_between hsite⟩
  · refine List.Pairwise.filterMap _ ?_ (Pool.pairwise_sites context.pool context.config routine)
    intro a b hlt first hfirst second hsecond
    obtain ⟨_, _, -, rfl⟩ := recovery?_eq_some_iff.mp hfirst
    obtain ⟨_, _, -, rfl⟩ := recovery?_eq_some_iff.mp hsecond
    exact hlt

theorem exists_routine_of_recovery {routines : List Routine}
    (h : recovery ∈ (context.reportOf routines).recoveries) :
    ∃ routine ∈ routines, recovery ∈ context.recoveriesOf routine := by
  rw [recoveries_reportOf] at h
  exact List.mem_flatMap.mp h

/-- Literals are recovered from decoders of the pool only. -/
theorem contains_of_mem_recoveriesOf (h : recovery ∈ context.recoveriesOf routine) :
    context.pool.contains recovery.decoder := by
  obtain ⟨site, hsite, decoder, candidate, htarget, -, rfl⟩ := mem_recoveriesOf_iff.mp h
  obtain ⟨instr, -, -, hcallee, hadmits, -⟩ := Pool.mem_sites_iff.mp hsite
  rw [← hcallee, htarget] at hadmits
  exact hadmits

end Context

/-! ### The edits of a run -/

/-- The recoveries in a result, none in an error. -/
def recoveriesIn : Except Error Report → List Recovery
  | .ok report => report.recoveries
  | .error _ => []

/-- The recoveries that a run reports, none if it fails. -/
def Outcome.recoveries (outcome : Outcome) : List Recovery :=
  recoveriesIn outcome.result

namespace Engine

variable {engine : Engine} {supply : WorkerSupply} {assembly after : Assembly}
  {result : Except Error Report}

/-- **The bodies that a run hands back.** Where tokens are distinct, the body of a routine is the
old one after the edits of the recoveries that are reported with its token. -/
theorem Ends.exists_edits (h : engine.Ends supply assembly after result)
    (hdistinct : (assembly.routines.map Routine.token).Nodup) {k : Nat} {before : Routine}
    (hk : assembly.routines[k]? = some before) :
    ∃ new edits, after.routines[k]? = some new ∧
      edits.Perm ((recoveriesIn result).filter (·.routine = before.token)) ∧
      new.instrs = Recovery.editAll edits before.instrs ∧
      Recovery.AllFoundIn edits before.instrs := by
  cases h with
  | refused => exact ⟨before, [], hk, .refl _, rfl, Recovery.allFoundIn_nil _⟩
  | @processed blob chosen routines report ready rewrites tally =>
    obtain ⟨-, -, hrecoveries, -⟩ := Report.tally_eq_iff.mp tally
    have hedits := (hrecoveries.filter (·.routine = before.token)).symm
    obtain ⟨new, hnew, ⟨rfl, hsites⟩ | ⟨rfl, hnone⟩⟩ :=
      exists_getElem?_of_forall₂ (rewrites.forall₂_recoveries hdistinct) hk
    · rw [hsites] at hedits
      exact ⟨_, _, hnew, hedits, Context.instrs_rewrite .., Context.allFoundIn_recoveriesOf ..⟩
    · rw [hnone] at hedits
      exact ⟨new, [], hnew, hedits, rfl, Recovery.allFoundIn_nil _⟩

end Engine
end LiteralRecovery
