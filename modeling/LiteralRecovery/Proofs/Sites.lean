import LiteralRecovery.Patch

/-!
# Call sites do not overlap

The scan goes forward over the calls of a body, and for each call the search for its constant goes
backward. Sites are therefore intervals, from the load to the call, and the question is whether two
of them can share an instruction. They cannot: the search ends at any call, so it never reaches the
call of an earlier site, let alone its load.

Nothing is assumed of a body. Opcodes may carry operands that do not fit them, and a constant load
without an integer neither feeds a call nor ends a search.

## Main results

* `constantBefore?_eq_some_iff`: what the backward search finds
* `Pool.mem_sites_iff`: what a call site is
* `Pool.pairwise_sites`: the intervals of the sites, in order and disjoint
-/

namespace LiteralRecovery

/-! ### The instructions a search meets -/

namespace Instr

theorem constant?_eq_some_iff {instr : Instr} {constant : Int32} :
    instr.constant? = some constant ↔ instr = loadInt constant := by
  obtain ⟨opcode, operand⟩ := instr
  cases opcode <;> cases operand <;> simp [constant?, loadInt]

theorem callee?_eq_some_iff {instr : Instr} {target : Token} :
    instr.callee? = some target ↔ instr = callTo target := by
  obtain ⟨opcode, operand⟩ := instr
  cases opcode <;> cases operand <;> simp [callee?, callTo]

theorem endsSearch_of_isCall {instr : Instr} (h : instr.isCall) : instr.endsSearch := by
  simp_all [isCall, endsSearch]

/-- The search passes over the instruction: it neither loads a constant nor ends the search. -/
def isPassed (instr : Instr) : Bool :=
  instr.constant?.isNone && !instr.endsSearch

theorem isPassed_eq_false_of_isCall {instr : Instr} (h : instr.isCall) :
    instr.isPassed = false := by
  simp [isPassed, endsSearch_of_isCall h]

end Instr

/-! ### The backward search -/

/-- One step of the search: the instruction in front gives the constant, or is passed over. -/
theorem constantBefore?_succ {code : Array Instr} {window index load : Nat} {constant : Int32} :
    constantBefore? code (window + 1) (index + 1) = some (load, constant) ↔
      (load = index ∧ code[index]? = some (Instr.loadInt constant)) ∨
        ((∃ instr, code[index]? = some instr ∧ instr.isPassed) ∧
          constantBefore? code window index = some (load, constant)) := by
  rw [constantBefore?]
  cases hcode : code[index]? with
  | none => simp
  | some instr =>
    cases hconstant : instr.constant? with
    | some found =>
      have hpassed : instr.isPassed = false := by simp [Instr.isPassed, hconstant]
      simp only [Option.some.injEq, Prod.mk.injEq, ← Instr.constant?_eq_some_iff, hconstant,
        exists_eq_left', hpassed, Bool.false_eq_true, false_and, or_false, eq_comm (a := load)]
    | none =>
      have hne : instr ≠ Instr.loadInt constant := fun h => by
        rw [Instr.constant?_eq_some_iff.mpr h] at hconstant
        cases hconstant
      by_cases hends : instr.endsSearch <;> simp [Instr.isPassed, hconstant, hends, hne]

/-- **What the search finds.** The load stands in the window in front of the index, and everything
between the two is passed over. In particular the load is the last one in the window. -/
theorem constantBefore?_eq_some_iff {code : Array Instr} {window index load : Nat}
    {constant : Int32} :
    constantBefore? code window index = some (load, constant) ↔
      load < index ∧ index ≤ load + window ∧ code[load]? = some (Instr.loadInt constant) ∧
        ∀ i, load < i → i < index → ∃ instr, code[i]? = some instr ∧ instr.isPassed := by
  induction window generalizing index with
  | zero =>
    simp only [constantBefore?, reduceCtorEq, false_iff]
    omega
  | succ window ih =>
    cases index with
    | zero => simp [constantBefore?]
    | succ index =>
      rw [constantBefore?_succ, ih]
      constructor
      · rintro (⟨rfl, hload⟩ | ⟨hpassed, hlt, hwindow, hload, hbetween⟩)
        · exact ⟨Nat.lt_succ_self _, by omega, hload, fun i h₁ h₂ => by omega⟩
        · refine ⟨by omega, by omega, hload, fun i h₁ h₂ => ?_⟩
          rcases Nat.lt_succ_iff_lt_or_eq.mp h₂ with h | rfl
          · exact hbetween i h₁ h
          · exact hpassed
      · rintro ⟨hlt, hwindow, hload, hbetween⟩
        rcases Nat.lt_succ_iff_lt_or_eq.mp hlt with h | rfl
        · exact .inr ⟨hbetween index h (Nat.lt_succ_self _), h, by omega, hload,
            fun i h₁ h₂ => hbetween i h₁ (by omega)⟩
        · exact .inl ⟨rfl, hload⟩

/-- The constant of a call that comes right after its load. Any window that is not empty will do. -/
theorem constantBefore?_of_adjacent {code : Array Instr} {window load : Nat} {constant : Int32}
    (hwindow : 1 ≤ window) (hload : code[load]? = some (Instr.loadInt constant)) :
    constantBefore? code window (load + 1) = some (load, constant) :=
  constantBefore?_eq_some_iff.mpr
    ⟨Nat.lt_succ_self _, by omega, hload, fun i h₁ h₂ => by omega⟩

/-! ### The forward scan -/

namespace Pool

variable {pool : Pool} {config : Config} {routine : Routine} {site : Site}

theorem siteAt?_eq_some_iff {token : Token} {code : Array Instr} {instr : Instr} {index : Nat} :
    pool.siteAt? config token code instr index = some site ↔
      instr.isCall ∧ pool.admits instr.callee? ∧
        constantBefore? code config.lookback index = some (site.load, site.constant) ∧
        site.routine = token ∧ site.call = index ∧ site.target = instr.callee? ∧
        site.population = pool.population config instr.callee? site.constant := by
  obtain ⟨owner, load, call, constant, target, population⟩ := site
  simp only [siteAt?, Option.ite_none_right_eq_some, Bool.and_eq_true, Option.map_eq_some_iff,
    Prod.exists, Site.mk.injEq]
  constructor
  · rintro ⟨⟨hcall, hadmits⟩, load', constant', hfound, rfl, rfl, rfl, rfl, rfl, rfl⟩
    exact ⟨hcall, hadmits, hfound, rfl, rfl, rfl, rfl⟩
  · rintro ⟨hcall, hadmits, hfound, rfl, rfl, rfl, rfl⟩
    exact ⟨⟨hcall, hadmits⟩, load, constant, hfound, rfl, rfl, rfl, rfl, rfl, rfl⟩

/-- **What a call site is.** A call that the pool admits, with the constant that the search from
it finds. -/
theorem mem_sites_iff :
    site ∈ pool.sites config routine ↔
      ∃ instr, routine.instrs[site.call]? = some instr ∧ instr.isCall ∧
        site.target = instr.callee? ∧ pool.admits instr.callee? ∧
        constantBefore? routine.instrs.toArray config.lookback site.call =
          some (site.load, site.constant) ∧
        site.routine = routine.token ∧
        site.population = pool.population config instr.callee? site.constant := by
  simp only [sites, List.mem_filterMap, Prod.exists, siteAt?_eq_some_iff]
  constructor
  · rintro ⟨instr, index, hmem, hcall, hadmits, hfound, howner, rfl, htarget, hpopulation⟩
    have hinstr := List.mem_zipIdx_iff_getElem?.mp hmem
    exact ⟨instr, hinstr, hcall, htarget, hadmits, hfound, howner, hpopulation⟩
  · rintro ⟨instr, hinstr, hcall, htarget, hadmits, hfound, howner, hpopulation⟩
    exact ⟨instr, site.call, List.mem_zipIdx_iff_getElem?.mpr hinstr, hcall, hadmits, hfound,
      howner, rfl, htarget, hpopulation⟩

theorem pairwise_zipIdx_lt (body : Body) : body.zipIdx.Pairwise fun a b => a.2 < b.2 := by
  rw [← List.pairwise_map (f := Prod.snd) (R := (· < ·)), List.zipIdx_map_snd]
  exact List.pairwise_lt_range'

theorem pairwise_call_sites (pool : Pool) (config : Config) (routine : Routine) :
    (pool.sites config routine).Pairwise fun a b => a.call < b.call := by
  refine List.Pairwise.filterMap _ ?_ (pairwise_zipIdx_lt routine.instrs)
  intro a b hlt first hfirst second hsecond
  rw [(siteAt?_eq_some_iff.mp hfirst).2.2.2.2.1, (siteAt?_eq_some_iff.mp hsecond).2.2.2.2.1]
  exact hlt

theorem nodup_sites (pool : Pool) (config : Config) (routine : Routine) :
    (pool.sites config routine).Nodup := by
  refine (pairwise_call_sites pool config routine).imp fun {a b} hlt heq => ?_
  rw [heq] at hlt
  exact Nat.lt_irrefl _ hlt

/-- A site is an interval of the body. -/
theorem load_lt_call (h : site ∈ pool.sites config routine) : site.load < site.call := by
  obtain ⟨instr, -, -, -, -, hfound, -⟩ := mem_sites_iff.mp h
  exact (constantBefore?_eq_some_iff.mp hfound).1

theorem call_le_load_add (h : site ∈ pool.sites config routine) :
    site.call ≤ site.load + config.lookback := by
  obtain ⟨instr, -, -, -, -, hfound, -⟩ := mem_sites_iff.mp h
  exact (constantBefore?_eq_some_iff.mp hfound).2.1

theorem call_lt_length (h : site ∈ pool.sites config routine) :
    site.call < routine.instrs.length := by
  obtain ⟨instr, hinstr, -⟩ := mem_sites_iff.mp h
  exact (List.getElem?_eq_some_iff.mp hinstr).1

/-- The load of a site is the constant load that it records. -/
theorem getElem?_load (h : site ∈ pool.sites config routine) :
    routine.instrs[site.load]? = some (Instr.loadInt site.constant) := by
  obtain ⟨instr, -, -, -, -, hfound, -⟩ := mem_sites_iff.mp h
  simpa using (constantBefore?_eq_some_iff.mp hfound).2.2.1

/-- Where the target of a site is known, its call is a call of that target. -/
theorem getElem?_call {target : Token} (h : site ∈ pool.sites config routine)
    (htarget : site.target = some target) :
    routine.instrs[site.call]? = some (Instr.callTo target) := by
  obtain ⟨instr, hinstr, -, hcallee, -⟩ := mem_sites_iff.mp h
  rw [hinstr, ← Instr.callee?_eq_some_iff.mp (hcallee.symm.trans htarget)]

/-- Between the load and the call of a site stands nothing that ends a search. -/
theorem isPassed_of_between (h : site ∈ pool.sites config routine) (i : Nat)
    (hload : site.load < i) (hcall : i < site.call) :
    ∃ instr, routine.instrs[i]? = some instr ∧ instr.isPassed := by
  obtain ⟨-, -, -, -, -, hfound, -⟩ := mem_sites_iff.mp h
  simpa using (constantBefore?_eq_some_iff.mp hfound).2.2.2 i hload hcall

/-- Of two sites the one with the later call loads its constant after the other's call. -/
theorem call_lt_load {other : Site} (h : site ∈ pool.sites config routine)
    (hother : other ∈ pool.sites config routine) (hlt : site.call < other.call) :
    site.call < other.load := by
  obtain ⟨instr, hinstr, hcall, -⟩ := mem_sites_iff.mp h
  obtain ⟨-, -, -, -, -, hfound, -⟩ := mem_sites_iff.mp hother
  obtain ⟨-, -, hload, hbetween⟩ := constantBefore?_eq_some_iff.mp hfound
  simp only [List.getElem?_toArray] at hload hbetween
  rcases Nat.lt_trichotomy other.load site.call with h | h | h
  · -- The search would have gone past the call of the earlier site.
    obtain ⟨instr', hinstr', hpassed⟩ := hbetween _ h hlt
    obtain rfl : instr = instr' := Option.some.inj (hinstr.symm.trans hinstr')
    rw [Instr.isPassed_eq_false_of_isCall hcall] at hpassed
    cases hpassed
  · rw [h, hinstr, Option.some.injEq] at hload
    rw [hload] at hcall
    cases hcall
  · exact h

/-- A call has at most one site. -/
theorem eq_of_call_eq {other : Site} (h : site ∈ pool.sites config routine)
    (hother : other ∈ pool.sites config routine) (heq : site.call = other.call) :
    site = other := by
  obtain ⟨instr, hinstr, -, htarget, -, hfound, howner, hpopulation⟩ := mem_sites_iff.mp h
  obtain ⟨instr', hinstr', -, htarget', -, hfound', howner', hpopulation'⟩ :=
    mem_sites_iff.mp hother
  rw [← heq] at hinstr' hfound'
  obtain rfl : instr = instr' := Option.some.inj (hinstr.symm.trans hinstr')
  obtain ⟨hload, hconstant⟩ := Prod.mk.inj (Option.some.inj (hfound.symm.trans hfound'))
  cases site
  cases other
  simp_all

/-- **Sites are disjoint intervals, in order.** -/
theorem pairwise_sites (pool : Pool) (config : Config) (routine : Routine) :
    (pool.sites config routine).Pairwise fun a b => a.call < b.load :=
  (pairwise_call_sites pool config routine).imp_of_mem fun ha hb hlt => call_lt_load ha hb hlt

end Pool
end LiteralRecovery
