import LiteralRecovery.Proofs.Calls
import LiteralRecovery.Proofs.Decoders
import LiteralRecovery.Proofs.Entries

/-!
# What a second run looks at

A run changes the bodies that the next one scans, and among them the bodies of decoders, from which
the next pool is formed. Still a second run with the same configuration has no surprises as to where
it looks: its sites are those that failed in the first run, in the same order.

Two things have to be seen. An edit puts a string load in the place of a call, and both end the
search for a constant; what an edit takes away is a constant that only its own call could have
found. So every call that is left finds what it found before. And of a decoder nothing but the shape
is read off its body, so the pool keeps its tokens and which of them are exact.

## Main definitions

* `Recovery.Untouched`: no edit writes at the position
* `Decoder.Reclassified`, `Pool.Reclassified`: the same up to the shapes of rewritten routines
* `Context.Precedes`: the contexts of two runs in a row

## Main results

* `Recovery.AllFoundIn.constantBefore?_editAll`: a call that is left finds the same constant
* `Context.sites_rewrite`: the sites of a rewritten routine
* `Pool.reclassified_ofAssembly`: the pool of a rewritten assembly
* `Context.getElem?_rewrite_rewrite`: what a run writes stays
* `Engine.exists_precedes`: the contexts and the outcomes of two runs in a row
* `second_run_examines_failures`
-/

namespace LiteralRecovery

/-! ### The search in an edited body -/

namespace Recovery

/-- No edit writes at the position. -/
def Untouched (edits : List Recovery) (i : Nat) : Prop :=
  ∀ recovery ∈ edits, i ≠ recovery.load ∧ i ≠ recovery.call

variable {edits : List Recovery} {body : Body}

theorem untouched_or_mem (edits : List Recovery) (i : Nat) :
    Untouched edits i ∨ ∃ recovery ∈ edits, i = recovery.load ∨ i = recovery.call := by
  by_cases h : Untouched edits i
  · exact .inl h
  · right
    simpa [Untouched, or_iff_not_imp_left] using h

theorem Untouched.getElem?_editAll {i : Nat} (h : Untouched edits i) :
    (editAll edits body)[i]? = body[i]? :=
  getElem?_editAll_of_ne h

/-- A call in the edited body was not written by an edit. -/
theorem AllFoundIn.untouched_of_isCall (h : AllFoundIn edits body) {i : Nat} {instr : Instr}
    (hinstr : (editAll edits body)[i]? = some instr) (hcall : instr.isCall) :
    Untouched edits i := by
  rcases untouched_or_mem edits i with huntouched | ⟨recovery, hmem, rfl | rfl⟩
  · exact huntouched
  · rw [(h.getElem?_editAll hmem).1, Option.some.injEq] at hinstr
    rw [← hinstr] at hcall
    cases hcall
  · rw [(h.getElem?_editAll hmem).2, Option.some.injEq] at hinstr
    rw [← hinstr] at hcall
    cases hcall

/-- The search from a call that is left, at a position that it has reached. The positions that it
came past are untouched, which is what the induction carries. -/
theorem AllFoundIn.constantBefore?_editAll_of_le (h : AllFoundIn edits body) {index : Nat}
    {instr : Instr} (hinstr : body[index]? = some instr) (hcall : instr.isCall)
    (hindex : Untouched edits index) (window : Nat) {reached : Nat} (hle : reached ≤ index)
    (hpast : ∀ i, reached ≤ i → i < index → Untouched edits i) :
    constantBefore? (editAll edits body).toArray window reached =
      constantBefore? body.toArray window reached := by
  induction window generalizing reached with
  | zero => simp [constantBefore?]
  | succ window ih =>
    cases reached with
    | zero => simp [constantBefore?]
    | succ position =>
      rw [constantBefore?, constantBefore?, List.getElem?_toArray, List.getElem?_toArray]
      rcases untouched_or_mem edits position with huntouched | ⟨recovery, hmem, rfl | rfl⟩
      · have hrest := ih (Nat.le_of_succ_le hle) fun i hi hlt => by
          rcases Nat.eq_or_lt_of_le hi with rfl | hi
          · exact huntouched
          · exact hpast i hi hlt
        rw [huntouched.getElem?_editAll, hrest]
      · -- The call of this edit is behind the index, and the index would be passed over.
        have hfound := h.found recovery hmem
        have hpassed : index < recovery.call := by
          rcases Nat.lt_trichotomy recovery.call index with hlt | heq | hgt
          · exact absurd rfl (hpast recovery.call hfound.load_lt_call hlt recovery hmem).2
          · exact absurd heq.symm (hindex recovery hmem).2
          · exact hgt
        obtain ⟨other, hother, hpasses⟩ := hfound.between index hle hpassed
        rw [hinstr, Option.some.injEq] at hother
        rw [← hother, Instr.isPassed_eq_false_of_isCall hcall] at hpasses
        cases hpasses
      · -- A call and a string load end the search alike.
        rw [(h.getElem?_editAll hmem).2, (h.found recovery hmem).call]
        rfl

/-- **A call that is left finds the same constant.** -/
theorem AllFoundIn.constantBefore?_editAll (h : AllFoundIn edits body) {index : Nat}
    {instr : Instr} (hinstr : body[index]? = some instr) (hcall : instr.isCall)
    (hindex : Untouched edits index) (window : Nat) :
    constantBefore? (editAll edits body).toArray window index =
      constantBefore? body.toArray window index :=
  h.constantBefore?_editAll_of_le hinstr hcall hindex window (Nat.le_refl _) fun _ hi hlt =>
    absurd hlt (Nat.not_lt.mpr hi)

end Recovery

/-! ### The sites of a rewritten routine -/

/-- Pools that agree on which tokens are decoders, and which of them are exact, find the same
sites. -/
theorem Pool.sites_congr {pool other : Pool} (hcontains : pool.contains = other.contains)
    (hexact : pool.isExact = other.isExact) (config : Config) (routine : Routine) :
    pool.sites config routine = other.sites config routine := by
  have hadmits : pool.admits = other.admits := by
    funext target
    rw [admits, admits, hcontains]
  have hpopulation : pool.population = other.population := by
    funext config target constant
    rw [population, population, hexact]
  have hsiteAt : pool.siteAt? = other.siteAt? := by
    funext config token code instr index
    rw [siteAt?, siteAt?, hadmits, hpopulation]
  rw [sites, sites, hsiteAt]

/-- Lists of sites in the order of their calls are determined by their members. -/
theorem Site.eq_of_pairwise_call {first second : List Site}
    (hfirst : first.Pairwise fun a b => a.call < b.call)
    (hsecond : second.Pairwise fun a b => a.call < b.call)
    (h : ∀ site, site ∈ first ↔ site ∈ second) : first = second := by
  have hnodup : ∀ {sites : List Site}, sites.Pairwise (fun a b => a.call < b.call) →
      sites.Nodup := by
    intro sites hsites
    refine hsites.imp fun {a b} hlt heq => ?_
    rw [heq] at hlt
    exact Nat.lt_irrefl _ hlt
  have hperm : first.Perm second :=
    (List.perm_ext_iff_of_nodup (hnodup hfirst) (hnodup hsecond)).mpr h
  exact hperm.eq_of_pairwise (fun a b _ _ hab hba => absurd hab (Nat.lt_asymm hba)) hfirst hsecond

namespace Context

variable {context : Context} {routine : Routine} {site : Site}

/-- A site fails exactly if no edit writes at its call. -/
theorem untouched_call_iff (h : site ∈ context.pool.sites context.config routine) :
    Recovery.Untouched (context.recoveriesOf routine) site.call ↔
      (context.failure? site).isSome := by
  constructor
  · intro huntouched
    cases hjudge : context.judge site with
    | error reason => simp [failure?, hjudge]
    | ok found =>
      have hmem : site.recovery found.1 found.2 ∈ context.recoveriesOf routine :=
        List.mem_filterMap.mpr ⟨site, h, by simp [recovery?, hjudge]⟩
      exact absurd rfl (huntouched _ hmem).2
  · intro hfails recovery hmem
    obtain ⟨other, hother, hrecovery⟩ := List.mem_filterMap.mp hmem
    obtain ⟨decoder, candidate, hjudge, rfl⟩ := recovery?_eq_some_iff.mp hrecovery
    have hne : site ≠ other := by
      rintro rfl
      simp [failure?, hjudge] at hfails
    have hapart := Pool.apart_of_ne h hother hne
    exact ⟨hapart.call_load, hapart.call_call⟩

theorem token_rewrite (context : Context) (routine : Routine) :
    (context.rewrite routine).token = routine.token :=
  (context.edited_rewrite routine).token

/-- **The sites of a rewritten routine** are those of the routine that failed. -/
theorem sites_rewrite (context : Context) (routine : Routine) :
    context.pool.sites context.config (context.rewrite routine) =
      (context.pool.sites context.config routine).filter fun site =>
        (context.failure? site).isSome := by
  have hfound := context.allFoundIn_recoveriesOf routine
  refine Site.eq_of_pairwise_call (Pool.pairwise_call_sites ..)
    ((Pool.pairwise_call_sites ..).filter _) fun site => ?_
  rw [List.mem_filter, Pool.mem_sites_iff, instrs_rewrite, token_rewrite]
  constructor
  · rintro ⟨instr, hinstr, hcall, htarget, hadmits, hconstant, howner, hpopulation⟩
    have huntouched := hfound.untouched_of_isCall hinstr hcall
    rw [huntouched.getElem?_editAll] at hinstr
    rw [hfound.constantBefore?_editAll hinstr hcall huntouched] at hconstant
    have hsite : site ∈ context.pool.sites context.config routine := Pool.mem_sites_iff.mpr
      ⟨instr, hinstr, hcall, htarget, hadmits, hconstant, howner, hpopulation⟩
    exact ⟨hsite, (untouched_call_iff hsite).mp huntouched⟩
  · rintro ⟨hsite, hfails⟩
    have huntouched := (untouched_call_iff hsite).mpr hfails
    obtain ⟨instr, hinstr, hcall, htarget, hadmits, hconstant, howner, hpopulation⟩ :=
      Pool.mem_sites_iff.mp hsite
    rw [← hfound.constantBefore?_editAll hinstr hcall huntouched] at hconstant
    rw [← huntouched.getElem?_editAll] at hinstr
    exact ⟨instr, hinstr, hcall, htarget, hadmits, hconstant, howner, hpopulation⟩

/-- The same for routines, next to the log of failures. -/
theorem sitesOf_map_rewrite (context : Context) (routines : List Routine) :
    context.sitesOf (routines.map context.rewrite) =
      (context.reportOf routines).failures.map (·.site) := by
  have hsite : ∀ {site failure}, context.failure? site = some failure → failure.site = site :=
    fun h => (failure?_eq_some_iff.mp h).2
  rw [failures_reportOf, sitesOf, List.flatMap_map, List.map_flatMap]
  simp only [sites_rewrite, map_filterMap_eq_filter hsite]

end Context

/-! ### The pool of a rewritten assembly -/

theorem Flags.isStatic_of_and_not_dirtyBit {flags other : Flags}
    (h : flags.bits &&& ~~~dirtyBit = other.bits &&& ~~~dirtyBit) :
    flags.isStatic = other.isStatic := by
  have hstatic : ∀ bits : UInt32, bits &&& ~~~dirtyBit &&& staticBit = bits &&& staticBit := by
    intro bits
    rw [UInt32.and_assoc]
    rfl
  rw [isStatic, isStatic, ← hstatic flags.bits, h, hstatic]

theorem Routine.Edited.isStatic {edits : List Recovery} {before after : Routine}
    (h : before.Edited edits after) : after.isStatic = before.isStatic :=
  Flags.isStatic_of_and_not_dirtyBit h.flags

theorem Shape.transform?_classify (config : Config) (assembly : Assembly) (routine : Routine) :
    (classify config assembly routine).transform? = Transform.ofBody? routine.instrs := by
  rw [classify]
  cases Transform.ofBody? routine.instrs with
  | some transform => rfl
  | none =>
    dsimp only
    cases tableSlot? config assembly routine.instrs <;> rfl

namespace Decoder

/-- The same decoder before and after routines are rewritten. Only the shape may differ: what
arithmetic it has is read off the body once more. -/
structure Reclassified (context : Context) (routines : List Routine) (before after : Decoder) :
    Prop where
  routine : after.routine = before.routine
  name : after.name = before.name
  exact : after.exact = before.exact
  transform : after.transform? = before.transform? ∨
    ∃ routine ∈ routines, routine.token = before.routine ∧
      before.transform? = Transform.ofBody? routine.instrs ∧
      after.transform? = Transform.ofBody? (context.rewrite routine).instrs

variable {context : Context} {routines : List Routine} {routine : Routine}

theorem reclassified_ofRoutine? (config : Config) (before after : Assembly)
    (h : routine ∈ routines) :
    Option.Rel (Reclassified context routines) (ofRoutine? config before routine)
      (ofRoutine? config after (context.rewrite routine)) := by
  have hedited := context.edited_rewrite routine
  rw [ofRoutine?, ofRoutine?, hedited.signature, hedited.isStatic]
  cases routine.signature with
  | none => exact .none
  | some signature =>
    dsimp only
    split
    · refine .some ⟨hedited.token, hedited.name, rfl, .inr ⟨routine, h, rfl, ?_, ?_⟩⟩
      · exact Shape.transform?_classify ..
      · exact Shape.transform?_classify ..
    · exact .none

theorem reclassified_standIn? (context : Context) (routines : List Routine) (routine : Routine) :
    Option.Rel (Reclassified context routines) (standIn? routine)
      (standIn? (context.rewrite routine)) := by
  have hedited := context.edited_rewrite routine
  have hstands : standsIn (context.rewrite routine) = standsIn routine := by
    rw [standsIn, standsIn, hedited.signature, hedited.isStatic]
  rw [standIn?, standIn?, hstands]
  split
  · exact .some ⟨hedited.token, hedited.name, rfl, .inl rfl⟩
  · exact .none

end Decoder

namespace Pool

/-- Pools of the same decoders in the same order, before and after routines are rewritten. -/
structure Reclassified (context : Context) (routines : List Routine) (before after : Pool) :
    Prop where
  fallback : after.fallback = before.fallback
  decoders : List.Forall₂ (Decoder.Reclassified context routines) before.decoders after.decoders

variable {context : Context} {routines : List Routine} {before after : Pool}

theorem Reclassified.insert {decoder other : Decoder}
    (h : before.Reclassified context routines after)
    (hdecoder : decoder.Reclassified context routines other) :
    (before.insert decoder).Reclassified context routines (after.insert other) := by
  refine ⟨h.fallback, List.rel_append (List.rel_filter ?_ h.decoders) (.cons hdecoder .nil)⟩
  intro held heldAfter hheld
  simp only [hheld.routine, hdecoder.routine]

/-- **Insertion by insertion** the pools stay alike. -/
theorem Reclassified.insertAll {decoders others : List Decoder}
    (h : before.Reclassified context routines after)
    (hdecoders : List.Forall₂ (Decoder.Reclassified context routines) decoders others) :
    (before.insertAll decoders).Reclassified context routines (after.insertAll others) := by
  refine List.rel_foldl ?_ h hdecoders
  intro pool other hpools decoder otherDecoder hdecoder
  exact hpools.insert hdecoder

theorem Reclassified.find? (h : before.Reclassified context routines after) (token : Token) :
    Option.Rel (Decoder.Reclassified context routines) (before.find? token)
      (after.find? token) := by
  have hdecoders := h.decoders
  rw [Pool.find?, Pool.find?]
  generalize before.decoders = decoders, after.decoders = others at hdecoders
  induction hdecoders with
  | nil => exact .none
  | @cons decoder other _ _ hdecoder _ ih =>
    by_cases htoken : decoder.routine = token
    · rw [List.find?_cons_of_pos (by simpa using htoken),
        List.find?_cons_of_pos (by simpa [hdecoder.routine] using htoken)]
      exact .some hdecoder
    · rw [List.find?_cons_of_neg (by simpa using htoken),
        List.find?_cons_of_neg (by simpa [hdecoder.routine] using htoken)]
      exact ih

theorem Reclassified.contains (h : before.Reclassified context routines after) :
    after.contains = before.contains := by
  funext token
  have hfind := h.find? token
  rw [Pool.contains, Pool.contains]
  generalize before.find? token = found, after.find? token = foundAfter at hfind
  cases hfind <;> rfl

theorem Reclassified.isExact (h : before.Reclassified context routines after) :
    after.isExact = before.isExact := by
  funext token
  have hfind := h.find? token
  rw [Pool.isExact, Pool.isExact]
  generalize before.find? token = found, after.find? token = foundAfter at hfind
  cases hfind with
  | none => rfl
  | some hdecoder => exact hdecoder.exact

theorem Reclassified.map_decoders (h : before.Reclassified context routines after) :
    after.decoders.map (fun decoder => (decoder.routine, decoder.name, decoder.exact)) =
      before.decoders.map fun decoder => (decoder.routine, decoder.name, decoder.exact) := by
  have hdecoders := h.decoders
  generalize before.decoders = decoders, after.decoders = others at hdecoders
  induction hdecoders with
  | nil => rfl
  | cons hdecoder _ ih =>
    rw [List.map_cons, List.map_cons, ih, hdecoder.routine, hdecoder.name, hdecoder.exact]

/-- **The pool of a rewritten assembly.** Its decoders are those of the assembly, up to their
shapes. -/
theorem reclassified_ofAssembly (context : Context) (config : Config) (assembly : Assembly) :
    (ofAssembly config assembly).Reclassified context assembly.routines
      (ofAssembly config { assembly with routines := assembly.routines.map context.rewrite }) := by
  have hroutines : List.Forall₂ (fun routine other => routine ∈ assembly.routines ∧
      other = context.rewrite routine) assembly.routines
      (assembly.routines.map context.rewrite) := by
    rw [List.forall₂_map_right_iff, List.forall₂_same]
    exact fun routine h => ⟨h, rfl⟩
  have hcandidates : List.Forall₂ (Decoder.Reclassified context assembly.routines)
      (candidates config assembly)
      (candidates config { assembly with routines := assembly.routines.map context.rewrite }) := by
    refine List.rel_filterMap ?_ hroutines
    rintro routine _ ⟨hmem, rfl⟩
    exact Decoder.reclassified_ofRoutine? config _ _ hmem
  rw [ofAssembly, ofAssembly]
  generalize candidates config assembly = found,
    candidates config { assembly with routines := assembly.routines.map context.rewrite } =
      foundAfter at hcandidates
  cases hcandidates with
  | nil =>
    refine Reclassified.insertAll ⟨rfl, .nil⟩ (List.rel_filterMap ?_ hroutines)
    rintro routine _ ⟨-, rfl⟩
    exact Decoder.reclassified_standIn? context _ routine
  | cons hdecoder hrest => exact Reclassified.insertAll ⟨rfl, .nil⟩ (.cons hdecoder hrest)

end Pool

/-! ### Two runs in a row -/

namespace Context

/-- The second context is that of a run on the routines that the first has rewritten: configuration
and blob are the same, and the decoders are the same up to their shapes. -/
structure Precedes (first : Context) (routines : List Routine) (second : Context) : Prop where
  config : second.config = first.config
  blob : second.blob = first.blob
  pool : first.pool.Reclassified first routines second.pool

/-- The sites of the second context are those that failed in the first, in the same order. -/
theorem Precedes.sitesOf_map_rewrite {first second : Context} {routines : List Routine}
    (h : first.Precedes routines second) :
    second.sitesOf (routines.map first.rewrite) =
      (first.reportOf routines).failures.map (·.site) := by
  have hsites : second.sitesOf = first.sitesOf := by
    funext others
    rw [sitesOf, sitesOf, h.config]
    congr 1
    funext routine
    exact Pool.sites_congr h.pool.contains h.pool.isExact ..
  rw [hsites, Context.sitesOf_map_rewrite]

/-- **What a run writes stays.** A position that one context changes holds no constant and no call
afterwards, so the next one does not write there. -/
theorem getElem?_rewrite_rewrite (first second : Context) (routine : Routine) {i : Nat}
    (h : (first.rewrite routine).instrs[i]? ≠ routine.instrs[i]?) :
    (second.rewrite (first.rewrite routine)).instrs[i]? = (first.rewrite routine).instrs[i]? ∧
      ((first.rewrite routine).instrs[i]? = some Instr.nop ∨
        ∃ value, (first.rewrite routine).instrs[i]? = some (Instr.loadString value)) := by
  have hwritten : (first.rewrite routine).instrs[i]? = some Instr.nop ∨
      ∃ value, (first.rewrite routine).instrs[i]? = some (Instr.loadString value) := by
    have hfirst := first.allFoundIn_recoveriesOf routine
    rw [instrs_rewrite] at h ⊢
    rcases Recovery.untouched_or_mem (first.recoveriesOf routine) i with
      huntouched | ⟨recovery, hmem, rfl | rfl⟩
    · exact absurd huntouched.getElem?_editAll h
    · exact .inl (hfirst.getElem?_editAll hmem).1
    · exact .inr ⟨_, (hfirst.getElem?_editAll hmem).2⟩
  refine ⟨?_, hwritten⟩
  have hsecond := second.allFoundIn_recoveriesOf (first.rewrite routine)
  rw [instrs_rewrite second]
  rcases Recovery.untouched_or_mem (second.recoveriesOf (first.rewrite routine)) i with
    huntouched | ⟨recovery, hmem, rfl | rfl⟩
  · exact huntouched.getElem?_editAll
  · rw [(hsecond.found recovery hmem).load] at hwritten
    simp [Instr.loadInt, Instr.nop, Instr.loadString] at hwritten
  · rw [(hsecond.found recovery hmem).call] at hwritten
    simp [Instr.callTo, Instr.nop, Instr.loadString] at hwritten

end Context

/-- The contexts of a run and of one that follows it with the same configuration and gets its
workers, and what the two runs return. -/
theorem Engine.exists_precedes {engine again : Engine} {supply supply' : WorkerSupply}
    {assembly : Assembly} {report : Report} (hconfig : again.config = engine.config)
    (hreport : (engine.run supply assembly).result = .ok report)
    (hworkers : again.config.obtainWorkers supply' = .ok ()) :
    let patched := (engine.run supply assembly).assembly
    ∃ blob, Blob.resolve again.config patched.slots = .ok blob ∧
      (engine.context assembly blob).Precedes assembly.routines (again.context patched blob) ∧
      report = (engine.context assembly blob).reportOf assembly.routines ∧
      patched.routines = assembly.routines.map (engine.context assembly blob).rewrite ∧
      (again.run supply' patched).result =
        .ok ((again.context patched blob).reportOf patched.routines) ∧
      (again.run supply' patched).assembly =
        { patched with routines := patched.routines.map (again.context patched blob).rewrite } := by
  intro patched
  obtain ⟨blob, hready, hfirst⟩ := exists_prepare_of_run hreport
  have hpatched : patched = { assembly with
    routines := assembly.routines.map (engine.context assembly blob).rewrite } :=
    (run_of_prepare hready).1
  have hagain : Blob.resolve again.config patched.slots = .ok blob := by
    rw [hconfig, hpatched]
    exact (Config.prepare_eq_ok_iff.mp hready).1
  obtain ⟨htwice, hlater⟩ := run_of_prepare (Config.prepare_eq_ok_iff.mpr ⟨hagain, hworkers⟩)
  refine ⟨blob, hagain, ⟨hconfig, rfl, ?_⟩, hfirst, congrArg Assembly.routines hpatched, hlater,
    htwice⟩
  rw [context, context, hconfig, hpatched]
  exact Pool.reclassified_ofAssembly ..

/-- **A second run looks only at what the first left over.** If a run is followed by another one
with the same configuration, which gets its workers too, the second run returns a report as well.
Its pool has the decoders of the first, in the same order and each as exact as before. The sites
that it examines are those in the first run's log of failures, in the same order, and its own logs
have one entry for each. Whatever the first run wrote into a body is there after the second. -/
theorem second_run_examines_failures {engine again : Engine} {supply supply' : WorkerSupply}
    {assembly : Assembly} {report : Report} (hconfig : again.config = engine.config)
    (hreport : (engine.run supply assembly).result = .ok report)
    (hworkers : again.config.obtainWorkers supply' = .ok ()) :
    let patched := (engine.run supply assembly).assembly
    let twice := (again.run supply' patched).assembly
    let left := report.failures.map (·.site)
    ∃ blob later,
      Blob.resolve again.config patched.slots = .ok blob ∧
      (again.run supply' patched).result = .ok later ∧
      (again.context patched blob).pool.fallback = (engine.context assembly blob).pool.fallback ∧
      (again.context patched blob).pool.decoders.map (fun d => (d.routine, d.name, d.exact)) =
        (engine.context assembly blob).pool.decoders.map (fun d => (d.routine, d.name, d.exact)) ∧
      (again.context patched blob).sitesOf patched.routines = left ∧
      later.Logs (left.map (again.context patched blob).entryOf) ∧
      (report.failures = [] → later.examined = 0) ∧
      ∀ (k i : Nat) before after last, assembly.routines[k]? = some before →
        patched.routines[k]? = some after → twice.routines[k]? = some last →
        after.instrs[i]? ≠ before.instrs[i]? →
        last.instrs[i]? = after.instrs[i]? ∧ (after.instrs[i]? = some Instr.nop ∨
          ∃ value, after.instrs[i]? = some (Instr.loadString value)) := by
  intro patched twice left
  obtain ⟨blob, hblob, hprecedes, hfirst, hpatched, hlater, htwice⟩ :=
    Engine.exists_precedes hconfig hreport hworkers
  have hsites : (again.context patched blob).sitesOf patched.routines = left := by
    rw [hpatched, hprecedes.sitesOf_map_rewrite, ← hfirst]
  have hlogs := (again.context patched blob).logs_reportOf patched.routines
  rw [hsites] at hlogs
  refine ⟨blob, _, hblob, hlater, hprecedes.pool.fallback, hprecedes.pool.map_decoders, hsites,
    hlogs, ?_, ?_⟩
  · intro hnone
    have hleft : left = [] := by simp [left, hnone]
    rw [hlogs.examined, hleft]
    rfl
  · intro k i before after last hbefore hafter hlast hchanged
    have htwiceRoutines : twice.routines =
        patched.routines.map (again.context patched blob).rewrite :=
      congrArg Assembly.routines htwice
    rw [htwiceRoutines, List.getElem?_map, hafter] at hlast
    rw [hpatched, List.getElem?_map, hbefore] at hafter
    obtain rfl := Option.some.inj hafter
    obtain rfl := Option.some.inj hlast
    exact Context.getElem?_rewrite_rewrite _ _ before hchanged

namespace Sample

/-- The caller after a run on the small assembly. -/
def patchedMain : Routine :=
  { main with
    body := some [.nop, .loadString "hi", .loadInt 7, ⟨.other, .none⟩, .callTo decoder.token]
    flags := main.flags.markDirty }

end Sample

/-- Of two calls one is recovered and one is left. The second run looks at that one alone and leaves
the literal of the other. Where the first call is the only one it looks at nothing. -/
theorem second_run_examines_failures_sample :
    (Sample.engine.run Sample.supply Sample.assembly).result = .ok Sample.report ∧
      (∃ later, (Sample.engine.abort.run Sample.supply
          (Sample.engine.run Sample.supply Sample.assembly).assembly).result = .ok later ∧
        later.examined = 1 ∧ later.entries.map Entry.place = [Sample.failure.site.place]) ∧
      (∃ last, (Sample.engine.abort.run Sample.supply (Sample.engine.run Sample.supply
          Sample.assembly).assembly).assembly.routines[1]? = some last ∧
        last.instrs[1]? = some (Instr.loadString "hi")) ∧
      ∃ later, (Sample.engine.run Sample.supply
          (Sample.engine.run Sample.supply Sample.clearedAssembly).assembly).result = .ok later ∧
        later.examined = 0 := by
  have hreport : (Sample.engine.run Sample.supply Sample.assembly).result =
      .ok Sample.report := rfl
  have hcleared : (Sample.engine.run Sample.supply Sample.clearedAssembly).result =
      .ok Sample.clearedReport := rfl
  have hconfig : Sample.engine.abort.config = Sample.engine.config := rfl
  obtain ⟨_, later, -, hlater, -, -, -, hlogs, -, hkept⟩ :=
    second_run_examines_failures hconfig hreport rfl
  obtain ⟨_, laterCleared, -, hlaterCleared, -, -, -, -, hnothing, -⟩ :=
    second_run_examines_failures rfl hcleared rfl
  have hplaces : later.entries.map Entry.place = [Sample.failure.site.place] := by
    have hperm := hlogs.perm.map Entry.place
    rw [List.map_map] at hperm
    simpa [Sample.report] using hperm
  have hliteral := (hkept 1 1 Sample.main Sample.patchedMain Sample.patchedMain rfl rfl rfl
    (by decide)).1
  exact ⟨hreport, ⟨later, hlater, hlogs.examined, hplaces⟩,
    ⟨Sample.patchedMain, rfl, hliteral⟩, laterCleared, hlaterCleared, hnothing rfl⟩

end LiteralRecovery
