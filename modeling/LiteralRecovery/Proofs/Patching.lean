import LiteralRecovery.Proofs.Sites

/-!
# Patching several sites

A patch rewrites two instructions of the body that the remaining sites were scanned on. It does no
harm to a site that has no position in common with it: the load and the call of that site are still
where they were recorded. So sites that are apart from each other can be patched in any order, and
the body in the end is the old one except at their positions.

## Main definitions

* `Site.Apart`: no position in common
* `Routine.Accepts`: the sites of a list match the routine and are apart from each other
* `Routine.putLiterals`, `Patcher.patchAll`: several patches, without and with the checks

## Main results

* `Routine.Accepts.putLiteral`: what one patch preserves
* `Patcher.patchAll_eq_ok`: sites that are accepted together are patched in whatever order
* `Pool.accepts_of_nodup`: so are the sites of a scan, all of them or some
* `Routine.instrs_putLiterals_of_mem`, `Routine.instrs_putLiterals_of_ne`: the body in the end
-/

namespace LiteralRecovery

/-! ### Sites apart from each other -/

namespace Site

/-- The two sites have no position in common. -/
structure Apart (a b : Site) : Prop where
  /-- The loads are different. -/
  load_load : a.load ≠ b.load
  /-- The load of the first is not the call of the second. -/
  load_call : a.load ≠ b.call
  /-- The call of the first is not the load of the second. -/
  call_load : a.call ≠ b.load
  /-- The calls are different. -/
  call_call : a.call ≠ b.call

theorem Apart.symm {a b : Site} (h : a.Apart b) : b.Apart a :=
  ⟨h.load_load.symm, h.call_load.symm, h.load_call.symm, h.call_call.symm⟩

end Site

theorem Pool.apart_of_call_lt {pool : Pool} {config : Config} {routine : Routine} {a b : Site}
    (ha : a ∈ pool.sites config routine) (hb : b ∈ pool.sites config routine)
    (hlt : a.call < b.call) : a.Apart b := by
  have hfirst := load_lt_call ha
  have hsecond := load_lt_call hb
  have hgap := call_lt_load ha hb hlt
  exact ⟨by omega, by omega, by omega, by omega⟩

/-! ### One patch -/

namespace Routine

variable {routine : Routine} {site other : Site} {value : String}

@[simp] theorem name_putLiteral (routine : Routine) (site : Site) (value : String) :
    (routine.putLiteral site value).name = routine.name :=
  rfl

@[simp] theorem signature_putLiteral (routine : Routine) (site : Site) (value : String) :
    (routine.putLiteral site value).signature = routine.signature :=
  rfl

@[simp] theorem flags_putLiteral (routine : Routine) (site : Site) (value : String) :
    (routine.putLiteral site value).flags = routine.flags :=
  rfl

@[simp] theorem length_instrs_putLiteral (routine : Routine) (site : Site) (value : String) :
    (routine.putLiteral site value).instrs.length = routine.instrs.length := by
  simp

theorem instrs_of_not_hasBody (h : ¬ routine.hasBody) : routine.instrs = [] := by
  cases hbody : routine.body with
  | none => simp [instrs, hbody]
  | some body => simp [hasBody, hbody] at h

/-- A patch leaves every other position alone. -/
theorem getElem?_putLiteral_of_ne {i : Nat} (hload : i ≠ site.load) (hcall : i ≠ site.call) :
    (routine.putLiteral site value).instrs[i]? = routine.instrs[i]? := by
  rw [instrs_putLiteral, List.getElem?_set_ne hcall.symm, List.getElem?_set_ne hload.symm]

theorem load_lt_call_of_mismatch? (h : routine.mismatch? site = none) : site.load < site.call :=
  (mismatch?_eq_none_iff.mp h).2.1

theorem call_lt_length_of_mismatch? (h : routine.mismatch? site = none) :
    site.call < routine.instrs.length := by
  obtain ⟨-, -, -, -, hcall⟩ := mismatch?_eq_none_iff.mp h
  rcases Nat.lt_or_ge site.call routine.instrs.length with hlt | hge
  · exact hlt
  · rw [List.getElem?_eq_none hge] at hcall
    cases hcall

/-- Where the site matches, the patch writes what it should. -/
theorem getElem?_putLiteral_load (h : routine.mismatch? site = none) :
    (routine.putLiteral site value).instrs[site.load]? = some Instr.nop := by
  have hlt := load_lt_call_of_mismatch? h
  have hlen := call_lt_length_of_mismatch? h
  rw [instrs_putLiteral, List.getElem?_set_ne (by omega), List.getElem?_set_self (by omega)]

theorem getElem?_putLiteral_call (h : routine.mismatch? site = none) :
    (routine.putLiteral site value).instrs[site.call]? = some (Instr.loadString value) := by
  have hlen := call_lt_length_of_mismatch? h
  rw [instrs_putLiteral, List.getElem?_set_self (by simpa using hlen)]

/-- Whether a site matches depends on its own two positions only. -/
theorem mismatch?_putLiteral (h : routine.mismatch? site = none) (hapart : other.Apart site) :
    (routine.putLiteral other value).mismatch? site = none := by
  obtain ⟨howner, hlt, hbody, hload, hcall⟩ := mismatch?_eq_none_iff.mp h
  refine mismatch?_eq_none_iff.mpr ⟨howner, hlt, by simpa using hbody, ?_, ?_⟩
  · rwa [getElem?_putLiteral_of_ne hapart.load_load.symm hapart.call_load.symm]
  · rwa [getElem?_putLiteral_of_ne hapart.load_call.symm hapart.call_call.symm]

/-! ### Several patches -/

/-- The sites match the routine, each by itself, and are apart from each other. -/
structure Accepts (routine : Routine) (sites : List Site) : Prop where
  /-- Every site is as the routine has it. -/
  matching : ∀ site ∈ sites, routine.mismatch? site = none
  /-- No two sites have a position in common. -/
  apart : sites.Pairwise Site.Apart

theorem Accepts.nil (routine : Routine) : routine.Accepts [] :=
  ⟨by simp, .nil⟩

theorem Accepts.head {sites : List Site} (h : routine.Accepts (site :: sites)) :
    routine.mismatch? site = none :=
  h.matching site (List.mem_cons_self ..)

theorem Accepts.tail {sites : List Site} (h : routine.Accepts (site :: sites)) :
    routine.Accepts sites :=
  ⟨fun s hs => h.matching s (List.mem_cons_of_mem _ hs), (List.pairwise_cons.mp h.apart).2⟩

/-- **One patch.** The sites that remain are accepted by the patched routine too. -/
theorem Accepts.putLiteral {sites : List Site} (h : routine.Accepts (site :: sites))
    (value : String) : (routine.putLiteral site value).Accepts sites := by
  obtain ⟨hhead, htail⟩ := List.pairwise_cons.mp h.apart
  exact ⟨fun s hs => mismatch?_putLiteral (h.tail.matching s hs) (hhead s hs), htail⟩

/-- The routine with each literal in the place of its site. -/
def putLiterals (routine : Routine) (placements : List (Site × String)) : Routine :=
  placements.foldl (fun routine placement => routine.putLiteral placement.1 placement.2) routine

@[simp] theorem putLiterals_nil (routine : Routine) : routine.putLiterals [] = routine :=
  rfl

@[simp] theorem putLiterals_cons (routine : Routine) (placement : Site × String)
    (rest : List (Site × String)) :
    routine.putLiterals (placement :: rest) =
      (routine.putLiteral placement.1 placement.2).putLiterals rest :=
  rfl

theorem putLiterals_append (routine : Routine) (first second : List (Site × String)) :
    routine.putLiterals (first ++ second) = (routine.putLiterals first).putLiterals second :=
  List.foldl_append ..

/-- All that a patch leaves alone apart from instructions. -/
theorem putLiterals_frame (routine : Routine) (placements : List (Site × String)) :
    (routine.putLiterals placements).token = routine.token ∧
      (routine.putLiterals placements).name = routine.name ∧
      (routine.putLiterals placements).signature = routine.signature ∧
      (routine.putLiterals placements).flags = routine.flags ∧
      (routine.putLiterals placements).hasBody = routine.hasBody ∧
      (routine.putLiterals placements).instrs.length = routine.instrs.length := by
  induction placements generalizing routine with
  | nil => simp
  | cons placement rest ih => simpa using ih (routine.putLiteral placement.1 placement.2)

/-- A position of no site keeps its instruction. -/
theorem instrs_putLiterals_of_ne {i : Nat} {placements : List (Site × String)}
    (h : ∀ placement ∈ placements, i ≠ placement.1.load ∧ i ≠ placement.1.call) :
    (routine.putLiterals placements).instrs[i]? = routine.instrs[i]? := by
  induction placements generalizing routine with
  | nil => rfl
  | cons placement rest ih =>
    obtain ⟨hload, hcall⟩ := h placement (List.mem_cons_self ..)
    rw [putLiterals_cons, ih fun p hp => h p (List.mem_cons_of_mem _ hp),
      getElem?_putLiteral_of_ne hload hcall]

/-- The two positions of a site in the end. -/
theorem instrs_putLiterals_of_mem {placements : List (Site × String)}
    (haccepts : routine.Accepts (placements.map Prod.fst)) (h : (site, value) ∈ placements) :
    (routine.putLiterals placements).instrs[site.load]? = some Instr.nop ∧
      (routine.putLiterals placements).instrs[site.call]? = some (Instr.loadString value) := by
  induction placements generalizing routine with
  | nil => cases h
  | cons placement rest ih =>
    rw [putLiterals_cons]
    rcases List.mem_cons.mp h with rfl | hrest
    · -- What comes after the patch of this site does not come back to it.
      have hapart : ∀ p ∈ rest, site.Apart p.1 := fun p hp =>
        (List.pairwise_cons.mp haccepts.apart).1 p.1 (List.mem_map_of_mem hp)
      rw [instrs_putLiterals_of_ne fun p hp => ⟨(hapart p hp).load_load, (hapart p hp).load_call⟩,
        instrs_putLiterals_of_ne fun p hp => ⟨(hapart p hp).call_load, (hapart p hp).call_call⟩]
      exact ⟨getElem?_putLiteral_load haccepts.head, getElem?_putLiteral_call haccepts.head⟩
    · exact ih (haccepts.putLiteral placement.2) hrest

end Routine

/-! ### Patching with the checks -/

namespace Patcher

/-- Puts one literal after another in the place of its site, up to the first that is refused. -/
def patchAll (patcher : Patcher) (placements : List (Site × String)) : Except Error Patcher :=
  placements.foldlM (fun patcher placement => patcher.patch placement.1 placement.2) patcher

theorem patch_eq_ok {patcher : Patcher} {site : Site} (value : String)
    (h : patcher.routine.mismatch? site = none) :
    patcher.patch site value =
      .ok ⟨patcher.routine.putLiteral site value, patcher.patched + 1⟩ := by
  rw [patch, h]

/-- **Patching never gets in its own way.** Sites that are accepted together are all patched. -/
theorem patchAll_eq_ok {patcher : Patcher} {placements : List (Site × String)}
    (h : patcher.routine.Accepts (placements.map Prod.fst)) :
    patcher.patchAll placements =
      .ok ⟨patcher.routine.putLiterals placements, patcher.patched + placements.length⟩ := by
  induction placements generalizing patcher with
  | nil => rfl
  | cons placement rest ih =>
    have hrest := h.putLiteral placement.2
    calc patcher.patchAll (placement :: rest)
        = patcher.patch placement.1 placement.2 >>= fun next => next.patchAll rest :=
          List.foldlM_cons ..
      _ = patchAll ⟨patcher.routine.putLiteral placement.1 placement.2, patcher.patched + 1⟩
            rest := by rw [patch_eq_ok _ h.head]; rfl
      _ = _ := by
          rw [ih hrest, Routine.putLiterals_cons, List.length_cons, Nat.add_right_comm,
            Nat.add_assoc]

end Patcher

/-! ### The sites of a scan -/

namespace Pool

variable {pool : Pool} {config : Config} {routine : Routine} {site : Site}

theorem mismatch?_eq_none_of_mem (h : site ∈ pool.sites config routine) :
    routine.mismatch? site = none := by
  obtain ⟨instr, hinstr, hcall, -, -, -, howner, -⟩ := mem_sites_iff.mp h
  have hlen := call_lt_length h
  refine Routine.mismatch?_eq_none_iff.mpr ⟨howner, load_lt_call h, ?_, ?_, ?_⟩
  · -- A routine without a body has no instructions, so no site either.
    by_cases hbody : routine.hasBody
    · exact hbody
    · rw [Routine.instrs_of_not_hasBody hbody] at hlen
      cases hlen
  · rw [getElem?_load h]
    rfl
  · rw [hinstr]
    exact hcall

/-- Different sites of a scan are apart. -/
theorem apart_of_ne {other : Site} (h : site ∈ pool.sites config routine)
    (hother : other ∈ pool.sites config routine) (hne : site ≠ other) : site.Apart other := by
  rcases Nat.lt_trichotomy site.call other.call with hlt | heq | hgt
  · exact apart_of_call_lt h hother hlt
  · exact absurd (eq_of_call_eq h hother heq) hne
  · exact (apart_of_call_lt hother h hgt).symm

/-- The routine that was scanned accepts its sites, any of them and in any order. -/
theorem accepts_of_nodup {chosen : List Site} (hnodup : chosen.Nodup)
    (h : ∀ site ∈ chosen, site ∈ pool.sites config routine) : routine.Accepts chosen := by
  refine ⟨fun site hsite => mismatch?_eq_none_of_mem (h site hsite), ?_⟩
  exact hnodup.imp_of_mem fun {a b} ha hb hne => apart_of_ne (h a ha) (h b hb) hne

theorem accepts_sites (pool : Pool) (config : Config) (routine : Routine) :
    routine.Accepts (pool.sites config routine) :=
  accepts_of_nodup (nodup_sites pool config routine) fun _ h => h

end Pool
end LiteralRecovery
