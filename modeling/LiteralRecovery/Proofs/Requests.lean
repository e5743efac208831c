import LiteralRecovery.Proofs.Effect
import Mathlib.Data.List.Nodup

/-!
# Any sequence of patch requests

The sites of a scan are apart from each other and match their routine, so a run never has a patch
refused. A patcher promises more: whatever sites it is asked to patch, in whatever order and however
often, it either does what was asked or does nothing. Requests may overlap, take the load of one
site for the call of another, or point behind the body, and every patch changes what the checks of
the next one see.

The reason that nothing goes wrong is that a patch destroys what it was checked for. Where a site
was patched there is neither a constant load nor a call any more, so a site that still matches has
no position in common with it, and matched from the start. Requests that were granted are therefore
sites that the untouched routine accepts all together, and what is known of those applies.

A refused patch leaves the patcher alone, and to say so takes a patcher that could be left
half-patched. `Patcher.patchInPlace` is one: it makes one check after the other and then one write
after the other, and what was written stays written.

## Main definitions

* `Patcher.patchInPlace`: a patch as a sequence of checks and writes
* `Patcher.serve`: one request after the other
* `Routine.PatchedBy`: the routine in the end

## Main results

* `Patcher.run_patchInPlace`: a patch is done as a whole or not at all
* `Routine.mismatch?_of_putLiteral`: what a patch leaves to be patched
* `Patcher.serve_spec`: the requests that are granted, and the patcher afterwards
* `patch_requests_safe`
-/

namespace LiteralRecovery

/-! ### Patching in place -/

namespace Patcher

/-- Work on a patcher in place. What was written before an error stays written. -/
abbrev InPlace := EStateM Error Patcher

/-- Goes on only if the routine, as it now is, has the property. -/
def require (site : Site) (mismatch : Mismatch) (holds : Routine → Bool) : InPlace Unit := do
  let routine := (← get).routine
  unless holds routine do throw (mismatch.error routine.token site)

/-- Overwrites one instruction of the body. -/
def write (index : Nat) (instr : Instr) : InPlace Unit :=
  modify fun patcher =>
    { patcher with
      routine := { patcher.routine with body := patcher.routine.body.map (·.set index instr) } }

/-- Adds one to the count of patches. -/
def countPatch : InPlace Unit :=
  modify fun patcher => { patcher with patched := patcher.patched + 1 }

/-- A patch as a sequence of checks and writes. -/
def patchInPlace (site : Site) (value : String) : InPlace Unit := do
  require site (.otherRoutine site.routine) fun routine => site.routine = routine.token
  require site .loadNotFirst fun _ => site.load < site.call
  require site .noBody Routine.hasBody
  require site (.noConstant site.constant) fun routine =>
    routine.instrs[site.load]?.bind Instr.constant? = some site.constant
  require site .noCall fun routine => routine.instrs[site.call]?.any Instr.isCall
  write site.load .nop
  write site.call (.loadString value)
  countPatch

theorem run_require_bind (site : Site) (mismatch : Mismatch) (holds : Routine → Bool)
    (next : InPlace Unit) (patcher : Patcher) :
    (do require site mismatch holds; next).run patcher =
      if holds patcher.routine then next.run patcher
      else .error (mismatch.error patcher.routine.token site) patcher := by
  cases h : holds patcher.routine with
  | true => simp [require, h]
  | false => simp [require, h]

theorem run_writes (site : Site) (value : String) (patcher : Patcher) :
    (do write site.load .nop; write site.call (.loadString value); countPatch).run patcher =
      .ok () ⟨patcher.routine.putLiteral site value, patcher.patched + 1⟩ := by
  obtain ⟨⟨token, name, signature, body, flags⟩, patched⟩ := patcher
  cases body <;> rfl

/-- **A patch is done as a whole or not at all.** Check by check and write by write it gives what
`Patcher.patch` gives, and after an error the patcher is as it was. -/
theorem run_patchInPlace (site : Site) (value : String) (patcher : Patcher) :
    (patchInPlace site value).run patcher =
      match patcher.patch site value with
      | .ok next => .ok () next
      | .error error => .error error patcher := by
  simp only [patchInPlace, run_require_bind, run_writes, decide_eq_true_eq]
  -- the checks in their order, each with those in front of it passed
  by_cases howner : site.routine = patcher.routine.token
  case neg => simp [patch, Routine.mismatch?, howner]
  by_cases horder : site.load < site.call
  case neg => simp [patch, Routine.mismatch?, howner, Nat.not_lt.mp horder, horder]
  have hahead : ¬ site.call ≤ site.load := Nat.not_le.mpr horder
  cases hbody : patcher.routine.body with
  | none => simp [patch, Routine.mismatch?, Routine.hasBody, howner, horder, hahead, hbody]
  | some body =>
    by_cases hload : body[site.load]?.bind Instr.constant? = some site.constant <;>
      by_cases hcall : body[site.call]?.any Instr.isCall <;>
      simp [patch, Routine.mismatch?, Routine.hasBody, Routine.instrs, howner, horder, hahead,
        hbody, hload, hcall]

theorem run_patchInPlace_eq_ok_iff {site : Site} {value : String} {patcher after : Patcher} :
    (patchInPlace site value).run patcher = .ok () after ↔
      patcher.patch site value = .ok after := by
  rw [run_patchInPlace]
  cases patcher.patch site value <;> simp

theorem run_patchInPlace_eq_error_iff {site : Site} {value : String} {patcher after : Patcher}
    {error : Error} :
    (patchInPlace site value).run patcher = .error error after ↔
      patcher.patch site value = .error error ∧ after = patcher := by
  rw [run_patchInPlace]
  cases patcher.patch site value <;> simp [eq_comm]

/-- One request after the other: those that are granted, and the patcher in the end. -/
def serve (patcher : Patcher) : List (Site × String) → List (Site × String) × Patcher
  | [] => ([], patcher)
  | request :: rest =>
    match (patchInPlace request.1 request.2).run patcher with
    | .ok _ next => (request :: (next.serve rest).1, (next.serve rest).2)
    | .error _ next => next.serve rest

end Patcher

/-! ### What a patch leaves to be patched -/

namespace Routine

variable {routine : Routine} {site other : Site} {value : String}

/-- **A patch destroys what it was checked for.** A site that matches after the patch of another is
apart from it, and matched before. -/
theorem mismatch?_of_putLiteral (hother : routine.mismatch? other = none)
    (h : (routine.putLiteral other value).mismatch? site = none) :
    other.Apart site ∧ routine.mismatch? site = none := by
  obtain ⟨howner, hlt, hbody, hload, hcall⟩ := mismatch?_eq_none_iff.mp h
  have hnop : (routine.putLiteral other value).instrs[other.load]? = some Instr.nop :=
    getElem?_putLiteral_load hother
  have hstring : (routine.putLiteral other value).instrs[other.call]? =
      some (Instr.loadString value) := getElem?_putLiteral_call hother
  -- a position in common would hold what the patch wrote, and the check found something else there
  have hapart : other.Apart site := by
    constructor
    · intro heq
      rw [← heq, hnop] at hload
      cases hload
    · intro heq
      rw [← heq, hnop] at hcall
      cases hcall
    · intro heq
      rw [← heq, hstring] at hload
      cases hload
    · intro heq
      rw [← heq, hstring] at hcall
      cases hcall
  refine ⟨hapart, mismatch?_eq_none_iff.mpr ⟨howner, hlt, by simpa using hbody, ?_, ?_⟩⟩
  · rwa [getElem?_putLiteral_of_ne hapart.load_load.symm hapart.call_load.symm] at hload
  · rwa [getElem?_putLiteral_of_ne hapart.load_call.symm hapart.call_call.symm] at hcall

/-- A site and those that are accepted after its patch are accepted together. -/
theorem Accepts.cons {sites : List Site} (hsite : routine.mismatch? site = none)
    (h : (routine.putLiteral site value).Accepts sites) : routine.Accepts (site :: sites) := by
  have hrest : ∀ other ∈ sites, site.Apart other ∧ routine.mismatch? other = none :=
    fun other hmem => mismatch?_of_putLiteral hsite (h.matching other hmem)
  constructor
  · exact List.forall_mem_cons.mpr ⟨hsite, fun other hmem => (hrest other hmem).2⟩
  · exact List.pairwise_cons.mpr ⟨fun other hmem => (hrest other hmem).1, h.apart⟩

/-- Sites that are accepted together use every position once at most. -/
theorem Accepts.nodup_positions {sites : List Site} (h : routine.Accepts sites) :
    (sites.flatMap fun site => [site.load, site.call]).Nodup := by
  refine List.nodup_flatMap.mpr ⟨fun site hsite => ?_, h.apart.imp fun {a b} hapart => ?_⟩
  · have hlt := load_lt_call_of_mismatch? (h.matching site hsite)
    simp [hlt.ne]
  · obtain ⟨h₁, h₂, h₃, h₄⟩ := hapart
    simp [Function.onFun, h₁.symm, h₂.symm, h₃.symm, h₄.symm]

/-- The routine in the end: `after` is `before` with the given literals in the places of their
sites. -/
structure PatchedBy (before after : Routine) (granted : List (Site × String)) : Prop where
  token : after.token = before.token
  name : after.name = before.name
  signature : after.signature = before.signature
  hasBody : after.hasBody = before.hasBody
  length : after.instrs.length = before.instrs.length
  /-- Every site has its literal. -/
  written : ∀ site value, (site, value) ∈ granted →
    after.instrs[site.load]? = some .nop ∧ after.instrs[site.call]? = some (.loadString value)
  /-- Every other position is as it was. -/
  kept : ∀ i, (∀ request ∈ granted, i ≠ request.1.load ∧ i ≠ request.1.call) →
    after.instrs[i]? = before.instrs[i]?
  /-- The dirty bit is added if there is a literal, and no other bit is touched. -/
  flags : after.flags = if 0 < granted.length then before.flags.markDirty else before.flags

end Routine

/-! ### One request after the other -/

namespace Patcher

variable {patcher : Patcher}

theorem serve_cons_of_ok {site : Site} {value : String} (rest : List (Site × String))
    (h : patcher.routine.mismatch? site = none) :
    patcher.serve ((site, value) :: rest) =
      ((site, value) :: ((patcher.put [(site, value)]).serve rest).1,
        ((patcher.put [(site, value)]).serve rest).2) := by
  rw [serve, run_patchInPlace, patch_eq_ok value h]
  rfl

theorem serve_cons_of_error {site : Site} {value : String} {mismatch : Mismatch}
    (rest : List (Site × String)) (h : patcher.routine.mismatch? site = some mismatch) :
    patcher.serve ((site, value) :: rest) = patcher.serve rest := by
  rw [serve, run_patchInPlace, patch, h]

/-- **Requests one after the other.** Those that are granted are accepted together by the routine
that was there before the first, and in the end their literals are in place and counted. -/
theorem serve_spec (patcher : Patcher) (requests : List (Site × String)) :
    patcher.routine.Accepts ((patcher.serve requests).1.map Prod.fst) ∧
      (patcher.serve requests).2 = patcher.put (patcher.serve requests).1 := by
  induction requests generalizing patcher with
  | nil => exact ⟨.nil _, rfl⟩
  | cons request rest ih =>
    obtain ⟨site, value⟩ := request
    cases hmismatch : patcher.routine.mismatch? site with
    | some mismatch =>
      rw [serve_cons_of_error rest hmismatch]
      exact ih patcher
    | none =>
      -- the others are known to be accepted only after this patch, and so they were before it
      obtain ⟨haccepts, hlast⟩ := ih (patcher.put [(site, value)])
      rw [serve_cons_of_ok rest hmismatch]
      refine ⟨.cons hmismatch haccepts, ?_⟩
      rw [hlast, ← put_append]
      rfl

/-- One more request at the end. -/
theorem serve_concat (patcher : Patcher) (requests : List (Site × String)) (site : Site)
    (value : String) :
    patcher.serve (requests ++ [(site, value)]) =
      match (patcher.serve requests).2.patch site value with
      | .ok after => ((patcher.serve requests).1 ++ [(site, value)], after)
      | .error _ => patcher.serve requests := by
  induction requests generalizing patcher with
  | nil =>
    show patcher.serve [(site, value)] = match patcher.patch site value with
      | .ok after => ([(site, value)], after)
      | .error _ => ([], patcher)
    rw [serve, run_patchInPlace]
    cases patcher.patch site value <;> rfl
  | cons request rest ih =>
    obtain ⟨site', value'⟩ := request
    rw [List.cons_append]
    cases hmismatch : patcher.routine.mismatch? site' with
    | some mismatch => rw [serve_cons_of_error _ hmismatch, serve_cons_of_error _ hmismatch, ih]
    | none =>
      rw [serve_cons_of_ok _ hmismatch, serve_cons_of_ok _ hmismatch, ih]
      cases ((patcher.put [(site', value')]).serve rest).2.patch site value <;> rfl

/-- The routine in the end, from the literals that were put in place. -/
theorem patchedBy_finish_put {routine : Routine} {granted : List (Site × String)}
    (h : routine.Accepts (granted.map Prod.fst)) :
    routine.PatchedBy ((start routine).put granted).finish.1 granted := by
  obtain ⟨htoken, hname, hsignature, hbody, hinstrs⟩ := ((start routine).put granted).finish_frame
  obtain ⟨htoken', hname', hsignature', hflags', hbody', hlength'⟩ :=
    routine.putLiterals_frame granted
  constructor
  case token => exact htoken.trans htoken'
  case name => exact hname.trans hname'
  case signature => exact hsignature.trans hsignature'
  case hasBody => exact hbody.trans hbody'
  case length => rw [hinstrs]; exact hlength'
  case written =>
    intro site value hmem
    rw [hinstrs]
    exact Routine.instrs_putLiterals_of_mem h hmem
  case kept =>
    intro i hi
    rw [hinstrs]
    exact Routine.instrs_putLiterals_of_ne hi
  case flags =>
    have hcount : ((start routine).put granted).patched = granted.length := Nat.zero_add _
    simp only [finish, hcount]
    split
    · exact congrArg Flags.markDirty hflags'
    · exact hflags'

/-- When a patch is granted, in terms of the instructions that are there at the time. -/
theorem exists_patch_eq_ok_iff {site : Site} {value : String} :
    (∃ after, patcher.patch site value = .ok after) ↔
      site.routine = patcher.routine.token ∧ site.load < site.call ∧ patcher.routine.hasBody ∧
        patcher.routine.instrs[site.load]? = some (.loadInt site.constant) ∧
        ∃ operand, patcher.routine.instrs[site.call]? = some ⟨.call, operand⟩ := by
  have hgranted : (∃ after, patcher.patch site value = .ok after) ↔
      patcher.routine.mismatch? site = none := by
    unfold patch
    split
    next mismatch h => simp [h]
    next h => simp [h]
  have hload : patcher.routine.instrs[site.load]?.bind Instr.constant? = some site.constant ↔
      patcher.routine.instrs[site.load]? = some (.loadInt site.constant) := by
    simp only [Option.bind_eq_some_iff, Instr.constant?_eq_some_iff, exists_eq_right]
  have hcall : patcher.routine.instrs[site.call]?.any Instr.isCall ↔
      ∃ operand, patcher.routine.instrs[site.call]? = some ⟨.call, operand⟩ := by
    rw [Option.any_eq_true]
    constructor
    · rintro ⟨⟨opcode, operand⟩, hinstr, hopcode⟩
      obtain rfl : opcode = .call := of_decide_eq_true hopcode
      exact ⟨operand, hinstr⟩
    · rintro ⟨operand, hinstr⟩
      exact ⟨_, hinstr, rfl⟩
  rw [hgranted, Routine.mismatch?_eq_none_iff, hload, hcall]

end Patcher

/-- **Any sequence of patch requests is safe.** Whatever requests were made of a routine, the next
one is either refused, and then routine and count stay exactly as they were, or granted, and this
exactly if the site is one of the routine, its load comes before its call, there is a body, and the
two positions now hold the load of the recorded constant and a call. The positions of all granted
requests are different from each other. In the end the number that is kept and the number that is
handed back are that of the granted requests, and the routine is the one that was given except for
their positions, and for the dirty bit if there are any. -/
theorem patch_requests_safe (routine : Routine) (requests : List (Site × String)) :
    let granted := ((Patcher.start routine).serve requests).1
    let last := ((Patcher.start routine).serve requests).2
    (∀ site value,
      (∀ error after, (Patcher.patchInPlace site value).run last = .error error after →
        after = last ∧ last.patch site value = .error error ∧
          (Patcher.start routine).serve (requests ++ [(site, value)]) = (granted, last)) ∧
      (∀ after, (Patcher.patchInPlace site value).run last = .ok () after →
        last.patch site value = .ok after ∧
          (Patcher.start routine).serve (requests ++ [(site, value)]) =
            (granted ++ [(site, value)], after)) ∧
      ((∃ after, (Patcher.patchInPlace site value).run last = .ok () after) ↔
        site.routine = routine.token ∧ site.load < site.call ∧ routine.hasBody ∧
          last.routine.instrs[site.load]? = some (.loadInt site.constant) ∧
          ∃ operand, last.routine.instrs[site.call]? = some ⟨.call, operand⟩)) ∧
      (granted.flatMap fun request => [request.1.load, request.1.call]).Nodup ∧
      last.patched = granted.length ∧ last.finish.2 = granted.length ∧
      routine.PatchedBy last.finish.1 granted := by
  intro granted last
  obtain ⟨haccepts, hlast⟩ : routine.Accepts (granted.map Prod.fst) ∧
      last = (Patcher.start routine).put granted := (Patcher.start routine).serve_spec requests
  have hcount : last.patched = granted.length := by
    rw [hlast]
    exact Nat.zero_add _
  refine ⟨fun site value => ⟨fun error after hrun => ?_, fun after hrun => ?_, ?_⟩, ?_, hcount,
    hcount, ?_⟩
  · obtain ⟨hpatch, rfl⟩ := Patcher.run_patchInPlace_eq_error_iff.mp hrun
    refine ⟨rfl, hpatch, ?_⟩
    rw [Patcher.serve_concat, hpatch]
  · have hpatch := Patcher.run_patchInPlace_eq_ok_iff.mp hrun
    refine ⟨hpatch, ?_⟩
    rw [Patcher.serve_concat, hpatch]
  · obtain ⟨htoken, -, -, -, hbody, -⟩ := routine.putLiterals_frame granted
    have hroutine : last.routine = routine.putLiterals granted := congrArg Patcher.routine hlast
    simp only [Patcher.run_patchInPlace_eq_ok_iff]
    rw [Patcher.exists_patch_eq_ok_iff, hroutine, htoken, hbody]
  · have hnodup := haccepts.nodup_positions
    rwa [List.flatMap_map] at hnodup
  · rw [hlast]
    exact Patcher.patchedBy_finish_put haccepts

namespace Sample

/-- Three requests of the caller. The first is as the body has it. The second takes the call of the
first for its own, and the third its load. -/
def requests : List (Site × String) :=
  [(⟨main.token, 2, 4, 7, none, .full⟩, "text"), (⟨main.token, 0, 4, 0, none, .full⟩, "late"),
    (⟨main.token, 2, 4, 7, none, .full⟩, "again")]

end Sample

/-- Of the three requests the first is granted. Another one for the call that is left is granted
too, and a request for the same call with its load behind the body is not. -/
theorem patch_requests_safe_sample :
    let last := ((Patcher.start Sample.main).serve Sample.requests).2
    last.patched = 1 ∧ last.finish.2 = 1 ∧
      (∃ after, (Patcher.patchInPlace ⟨Sample.main.token, 0, 1, 0, none, .full⟩ "hi").run last =
        .ok () after) ∧
      ∃ error, (Patcher.patchInPlace ⟨Sample.main.token, 9, 10, 0, none, .full⟩ "hi").run last =
        .error error last := by
  intro last
  obtain ⟨hnext, -, hpatched, hcount, -⟩ := patch_requests_safe Sample.main Sample.requests
  refine ⟨hpatched, hcount, (hnext _ _).2.2.mpr ⟨rfl, by decide, rfl, by decide, _, rfl⟩, ?_⟩
  have hrun : ∃ error after,
      (Patcher.patchInPlace ⟨Sample.main.token, 9, 10, 0, none, .full⟩ "hi").run last =
        .error error after := ⟨_, _, rfl⟩
  obtain ⟨error, after, hrun⟩ := hrun
  obtain ⟨rfl, -⟩ := (hnext _ _).1 error after hrun
  exact ⟨error, hrun⟩

end LiteralRecovery
