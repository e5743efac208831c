import LiteralRecovery.Proofs.Chains
import LiteralRecovery.Proofs.Depth
import LiteralRecovery.Proofs.Probes
import LiteralRecovery.Proofs.SecondRun

/-!
# When a second run finds more

A second run examines what the first has missed. Blob and constants are the same, so one would
expect that it misses them again. What may have changed are the decoders: they are routines too, the
calls in their bodies are recovered like any other, and the next pool is formed from what is left.
Without such a call the rest of a body may be a chain of arithmetic, and under the chain a constant
may become an offset at last.

Nothing else can make a difference. In a chain every constant has its operation, and an edit takes a
constant away but no operation. So an edited body may have gained a chain or lost it, but it never
has one chain in the place of another. And a decoder that has lost its chain only makes for fewer
places to look at.

## Main definitions

* `surplus`: how many more constants than operations a body has
* `Pool.chain?`: the chain of arithmetic of a decoder
* `Recovery.IsLate`: the recovery is due to a chain that was gained
* `Engine.runs`: run after run

## Main results

* `Transform.surplus_of_ofBody?`, `Recovery.surplus_editAll`: chains are balanced, and edits are not
* `decode?_eq_none_of_chain`: without a new chain a miss stays a miss
* `Context.Precedes.isLate`: what the second of two contexts recovers
* `Engine.exists_settled`: repeated runs come to rest
* `second_run_recovers_late`
-/

namespace LiteralRecovery

/-! ### Chains of arithmetic

In a body that is a chain of arithmetic, every constant has its operation. An edit takes a constant
away and no operation, so of two such bodies one cannot be an edited version of the other. -/

/-- One for a load of a constant, and minus one for an operation. -/
def Instr.balance (instr : Instr) : Int :=
  match instr.opcode with
  | .loadInt => 1
  | .arith _ => -1
  | _ => 0

/-- How many more constants than operations the body has. -/
def surplus (body : Body) : Int :=
  (body.map Instr.balance).sum

theorem surplus_cons (instr : Instr) (rest : Body) :
    surplus (instr :: rest) = instr.balance + surplus rest :=
  List.sum_cons

theorem surplus_append (front back : Body) :
    surplus (front ++ back) = surplus front + surplus back := by
  rw [surplus, List.map_append, List.sum_append]
  rfl

theorem surplus_set {body : Body} {i : Nat} {old : Instr} (h : body[i]? = some old) (new : Instr) :
    surplus (body.set i new) = surplus body + (new.balance - old.balance) := by
  have hlt : i < body.length := (List.getElem?_eq_some_iff.mp h).1
  have hheight : ∀ code : Body, surplus code = height Instr.balance code code.length := by
    intro code
    rw [height, List.take_length, surplus]
  rw [hheight, hheight, List.length_set, height_set h, if_pos hlt]

namespace Transform

theorem surplus_filter_nop (body : Body) :
    surplus (body.filter (·.opcode ≠ .nop)) = surplus body := by
  induction body with
  | nil => rfl
  | cons instr rest ih =>
    by_cases hnop : instr.opcode = .nop
    · have hbalance : instr.balance = 0 := by rw [Instr.balance, hnop]
      rw [List.filter_cons_of_neg (by simpa using hnop), surplus_cons, hbalance, ih, Int.zero_add]
    · rw [List.filter_cons_of_pos (by simpa using hnop), surplus_cons, surplus_cons, ih]

/-- The first step is an argument, a constant and an operation. -/
theorem Opens.surplus_eq {step : Step} {code : Body} (h : Opens step code) : surplus code = 0 := by
  cases h <;> rfl

/-- Every further step is a constant and an operation. -/
theorem Continues.surplus_eq {steps : List Step} {code : Body} (h : Continues steps code) :
    surplus code = 0 := by
  induction h with
  | nil => rfl
  | cons op constant operand h ih =>
    rw [surplus_cons, surplus_cons, ih]
    rfl

theorem surplus_of_isPlain {code : Body} (h : isPlain code) : surplus code = 0 := by
  refine List.sum_eq_zero fun balance hbalance => ?_
  obtain ⟨instr, hinstr, rfl⟩ := List.mem_map.mp hbalance
  obtain ⟨hload, harith⟩ := opcode_ne_of_isPlain h hinstr
  obtain ⟨opcode, operand⟩ := instr
  cases opcode <;> simp_all [Instr.balance]

/-- **A chain of arithmetic** has as many constants as operations. -/
theorem surplus_of_ofBody? {body : Body} {transform : Transform}
    (h : ofBody? body = some transform) : surplus body = 0 := by
  obtain ⟨first, more, head, tail, plain, -, hsplit, hopens, hcontinues, hplain⟩ :=
    exists_split_of_ofBody? h
  rw [← surplus_filter_nop, hsplit, surplus_append, surplus_append, hopens.surplus_eq,
    hcontinues.surplus_eq, surplus_of_isPlain hplain]
  rfl

end Transform

namespace Recovery

variable {recovery : Recovery} {body : Body} {edits : List Recovery}

/-- **One edit** takes away a constant. -/
theorem surplus_edit (h : recovery.FoundIn body) :
    surplus (recovery.edit body) = surplus body - 1 := by
  rw [edit, surplus_set h.call_set, surplus_set h.load]
  show surplus body + (0 - 1) + (0 - 0) = surplus body - 1
  omega

/-- **All edits** take away a constant each. -/
theorem surplus_editAll (h : AllFoundIn edits body) :
    surplus (editAll edits body) = surplus body - edits.length := by
  refine AllFoundIn.induct (motive := fun edits body =>
    surplus (editAll edits body) = surplus body - edits.length) ?_ ?_ (fun _ _ => trivial) h
  · intro body
    simp
  · intro recovery rest body _ hfound ih
    rw [editAll_cons, ih, surplus_edit hfound, List.length_cons]
    omega

/-- A chain of arithmetic that is still one after edits was not edited. -/
theorem AllFoundIn.eq_nil_of_ofBody? (h : AllFoundIn edits body) {before after : Transform}
    (hbefore : Transform.ofBody? body = some before)
    (hafter : Transform.ofBody? (editAll edits body) = some after) : edits = [] := by
  have hsurplus := surplus_editAll h
  rw [Transform.surplus_of_ofBody? hbefore, Transform.surplus_of_ofBody? hafter] at hsurplus
  exact List.length_eq_zero_iff.mp (by omega)

end Recovery

/-! ### Decoding with and without a chain -/

namespace Request

/-- A request fails if nothing stands at any of its probes. -/
theorem first?_eq_none_iff {request : Request} {strategies : List Strategy} :
    request.first? strategies = none ↔
      ∀ strategy ∈ strategies, ∀ probe ∈ request.probes strategy, request.read? probe = none := by
  simp [first?, attempt?_eq_findSome?]

variable {request : Request} {other : Option Decoder}

/-- Two strategies depend on the decoder. -/
theorem probes_eq_of_ne (request : Request) (other : Option Decoder) {strategy : Strategy}
    (hlinear : strategy ≠ .linearTransform) (hterminated : strategy ≠ .nullTerminated) :
    ({ request with decoder := other } : Request).probes strategy = request.probes strategy := by
  cases strategy with
  | linearTransform => exact absurd rfl hlinear
  | nullTerminated => exact absurd rfl hterminated
  | _ => rfl

theorem flatMap_baseOffsets_subset (size : Nat) {first second : List Int32} (h : first ⊆ second) :
    first.flatMap (baseOffsets size) ⊆ second.flatMap (baseOffsets size) := by
  intro offset hoffset
  obtain ⟨constant, hconstant, hbase⟩ := List.mem_flatMap.mp hoffset
  exact List.mem_flatMap.mpr ⟨constant, h hconstant, hbase⟩

/-- Fewer transformed constants give fewer probes. -/
theorem probes_subset (h : ({ request with decoder := other } : Request).transformed ⊆
      request.transformed) (strategy : Strategy) :
    ({ request with decoder := other } : Request).probes strategy ⊆ request.probes strategy := by
  by_cases hlinear : strategy = .linearTransform
  · subst hlinear
    exact List.map_subset _ (flatMap_baseOffsets_subset _ h)
  by_cases hterminated : strategy = .nullTerminated
  · subst hterminated
    rw [probes, probes]
    split
    · refine List.map_subset _ fun offset hoffset => ?_
      rw [probedOffsets, List.mem_eraseDups] at hoffset ⊢
      refine flatMap_baseOffsets_subset _ (List.cons_subset_cons _ ?_) hoffset
      exact List.append_subset.mpr
        ⟨List.Subset.trans h (List.subset_append_left _ _), List.subset_append_right _ _⟩
    · exact List.Subset.refl _
  · rw [probes_eq_of_ne request other hlinear hterminated]
    exact List.Subset.refl _

end Request

section Decode

variable {config : Config} {blob : Bytes} {decoder other : Option Decoder}
  {population : Population} {constant : Int32}

/-- A constant that is missed with one decoder is missed with any other that has no chain of
arithmetic or the same. -/
theorem decode?_eq_none_of_chain (h : decode? config blob decoder population constant = none)
    (hchain : other.bind Decoder.transform? = none ∨
      other.bind Decoder.transform? = decoder.bind Decoder.transform?) :
    decode? config blob other population constant = none := by
  have hsubset : (population.request config blob other constant).transformed ⊆
      (population.request config blob decoder constant).transformed := by
    rw [Request.transformed, Request.transformed]
    simp only [Population.request]
    rcases hchain with hnone | hsame
    · rw [hnone]
      exact List.nil_subset _
    · rw [hsame]
      exact List.Subset.refl _
  rw [decode?, Request.first?_eq_none_iff] at h ⊢
  intro strategy hstrategy probe hprobe
  exact h strategy hstrategy probe (Request.probes_subset hsubset strategy hprobe)

/-- If one decoder finds what another misses, it is by a strategy that depends on the decoder. -/
theorem strategy_of_decode? {candidate : Candidate}
    (h : decode? config blob decoder population constant = none)
    (hfound : decode? config blob other population constant = some candidate) :
    candidate.strategy = .linearTransform ∨ candidate.strategy = .nullTerminated := by
  obtain ⟨strategy, hstrategy, hattempt⟩ := List.exists_of_findSome?_eq_some hfound
  obtain ⟨finding, hfinding, rfl⟩ := Option.map_eq_some_iff.mp hattempt
  rw [Request.attempt?_eq_findSome?] at hfinding
  obtain ⟨probe, hprobe, hread⟩ := List.exists_of_findSome?_eq_some hfinding
  by_contra hneither
  rw [not_or] at hneither
  have hsame := Request.probes_eq_of_ne (population.request config blob decoder constant) other
    hneither.1 hneither.2
  have hmissed : (population.request config blob decoder constant).read? probe = none :=
    Request.first?_eq_none_iff.mp h strategy hstrategy probe (hsame ▸ hprobe)
  exact absurd (hmissed.symm.trans hread) (by simp)

end Decode

/-! ### Decoders whose own body was edited -/

/-- The chain of arithmetic of the decoder with the token. -/
def Pool.chain? (pool : Pool) (token : Token) : Option Transform :=
  (pool.find? token).bind Decoder.transform?

theorem Pool.exists_mem_of_chain? {pool : Pool} {token : Token} (h : (pool.chain? token).isSome) :
    ∃ decoder ∈ pool.decoders, decoder.routine = token ∧ decoder.transform?.isSome := by
  rw [Pool.chain?] at h
  cases hfind : pool.find? token with
  | none =>
    rw [hfind] at h
    cases h
  | some decoder =>
    rw [hfind] at h
    exact ⟨decoder, List.mem_of_find?_eq_some hfind, by simpa using List.find?_some hfind, h⟩

/-- A decoder has another chain than before only if it had none and its routine was edited. -/
theorem Decoder.Reclassified.of_ne {context : Context} {routines : List Routine}
    {before after : Decoder} (h : before.Reclassified context routines after)
    (hne : after.transform? ≠ before.transform?) (hsome : after.transform? ≠ none) :
    before.transform? = none ∧
      ∃ routine ∈ routines, routine.token = before.routine ∧
        context.recoveriesOf routine ≠ [] := by
  rcases h.transform with hsame | ⟨routine, hmem, htoken, hbefore, hafter⟩
  · exact absurd hsame hne
  have hedited : context.recoveriesOf routine ≠ [] := by
    intro hnil
    rw [hafter, hbefore, Context.instrs_rewrite, hnil] at hne
    exact hne rfl
  refine ⟨?_, routine, hmem, htoken, hedited⟩
  cases hchain : before.transform? with
  | none => rfl
  | some chain =>
    -- Both bodies would be chains, and then there was no edit.
    obtain ⟨newChain, hnew⟩ := Option.ne_none_iff_exists'.mp hsome
    rw [hbefore] at hchain
    rw [hafter, Context.instrs_rewrite] at hnew
    exact absurd ((context.allFoundIn_recoveriesOf routine).eq_nil_of_ofBody? hchain hnew) hedited

theorem Pool.Reclassified.chain?_of_ne {context : Context} {routines : List Routine}
    {before after : Pool} (h : before.Reclassified context routines after) {token : Token}
    (hne : after.chain? token ≠ before.chain? token) (hsome : after.chain? token ≠ none) :
    before.contains token ∧ before.chain? token = none ∧
      ∃ routine ∈ routines, routine.token = token ∧ context.recoveriesOf routine ≠ [] := by
  have hfind := h.find? token
  have htoken : ∀ decoder, before.find? token = some decoder → decoder.routine = token := by
    intro decoder hdecoder
    simpa using List.find?_some hdecoder
  rw [Pool.chain?, Pool.chain?] at hne
  rw [Pool.chain?] at hsome
  rw [Pool.contains, Pool.chain?]
  generalize before.find? token = found, after.find? token = foundAfter at hfind htoken hne hsome
  cases hfind with
  | none => exact absurd rfl hsome
  | @some decoder other hdecoder =>
    obtain ⟨hnone, routine, hmem, howner, hedited⟩ := hdecoder.of_ne hne hsome
    exact ⟨rfl, hnone, routine, hmem, howner.trans (htoken decoder rfl), hedited⟩

/-- The recovery is of a site that was missed before, by a decoder whose own body has become a chain
of arithmetic when it was edited. -/
structure Recovery.IsLate (recovery : Recovery) (report : Report) (before after : Pool) : Prop where
  missed : ∃ failure ∈ report.failures, failure.reason = .decodeMiss ∧
    failure.site.place = (Entry.recovered recovery).place
  contains : before.contains recovery.decoder
  unchained : before.chain? recovery.decoder = none
  chained : (after.chain? recovery.decoder).isSome
  edited : ∃ edit ∈ report.recoveries, edit.routine = recovery.decoder
  strategy : recovery.strategy = .linearTransform ∨ recovery.strategy = .nullTerminated

namespace Context

variable {first second context : Context} {routines : List Routine} {routine : Routine}

theorem mem_recoveries_of_mem_recoveriesOf {recovery : Recovery} (hmem : routine ∈ routines)
    (h : recovery ∈ context.recoveriesOf routine) :
    recovery ∈ (context.reportOf routines).recoveries := by
  rw [recoveries_reportOf]
  exact List.mem_flatMap.mpr ⟨routine, hmem, h⟩

/-- A site with a target fails because nothing was decoded. -/
theorem decodeMiss_of_failure? {site : Site} {failure : Failure} {decoder : Token}
    (h : context.failure? site = some failure) (htarget : site.target = some decoder) :
    context.decode? decoder site = none ∧ failure.reason = .decodeMiss := by
  obtain ⟨hreason, -⟩ := failure?_eq_some_iff.mp h
  cases hdecode : context.decode? decoder site with
  | none =>
    have hmiss := judge_eq_decodeMiss_iff.mpr ⟨decoder, htarget, hdecode⟩
    exact ⟨rfl, Except.error.inj (hreason.symm.trans hmiss)⟩
  | some candidate =>
    rw [judge_eq_ok_iff.mpr ⟨htarget, hdecode⟩] at hreason
    cases hreason

/-- **What the second context recovers.** -/
theorem Precedes.isLate (h : first.Precedes routines second) {recovery : Recovery}
    (hmem : recovery ∈ (second.reportOf (routines.map first.rewrite)).recoveries) :
    recovery.IsLate (first.reportOf routines) first.pool second.pool := by
  obtain ⟨routine, hroutine, site, hsite, hrecovery⟩ := mem_recoveries_iff.mp hmem
  obtain ⟨decoder, candidate, hjudge, rfl⟩ := recovery?_eq_some_iff.mp hrecovery
  obtain ⟨htarget, hfound⟩ := judge_eq_ok_iff.mp hjudge
  have hsites : site ∈ second.sitesOf (routines.map first.rewrite) :=
    List.mem_flatMap.mpr ⟨routine, hroutine, hsite⟩
  rw [h.sitesOf_map_rewrite] at hsites
  obtain ⟨failure, hfailure, rfl⟩ := List.mem_map.mp hsites
  -- The site failed in the first context, and not for want of a target.
  obtain ⟨_, _, origin, _, hfails⟩ := mem_failures_iff.mp hfailure
  obtain rfl := (failure?_eq_some_iff.mp hfails).2
  obtain ⟨hmissed, hreason⟩ := decodeMiss_of_failure? hfails htarget
  have hagain : LiteralRecovery.decode? first.config first.blob (second.pool.find? decoder)
      failure.site.population failure.site.constant = some candidate := by
    rw [← h.config, ← h.blob]
    exact hfound
  -- Blob and constant are the same, so the decoder must have another chain.
  have hnew : ¬(second.pool.chain? decoder = none ∨
      second.pool.chain? decoder = first.pool.chain? decoder) := by
    intro hchain
    rw [decode?_eq_none_of_chain hmissed hchain] at hagain
    cases hagain
  rw [not_or] at hnew
  obtain ⟨hcontains, hunchained, edited, hedited, htoken, hedits⟩ :=
    h.pool.chain?_of_ne hnew.2 hnew.1
  obtain ⟨edit, hedit⟩ := List.exists_mem_of_ne_nil _ hedits
  exact
    { missed := ⟨failure, hfailure, hreason, by
        rw [Site.place, htarget]
        rfl⟩
      contains := hcontains
      unchained := hunchained
      chained := Option.isSome_iff_ne_none.mpr hnew.1
      edited := ⟨edit, mem_recoveries_of_mem_recoveriesOf hedited hedit,
        (routine_of_mem_recoveries hedit).trans htoken⟩
      strategy := strategy_of_decode? hmissed hagain }

/-- What failed in the first context is recovered in the second or fails once more. -/
theorem Precedes.recovered_add_failed (h : first.Precedes routines second) :
    (second.reportOf (routines.map first.rewrite)).recovered +
        (second.reportOf (routines.map first.rewrite)).failed =
      (first.reportOf routines).failed := by
  have haccounts : (second.reportOf (routines.map first.rewrite)).AccountsFor second
      (routines.map first.rewrite) :=
    accountsFor_of_perm (second.examined_reportOf _) (second.recovered_reportOf _)
      (second.logs_reportOf _).perm
  rw [← haccounts.total, haccounts.examined, h.sitesOf_map_rewrite, List.length_map, Report.failed]

/-! ### Runs without recoveries -/

theorem rewrite_of_recoveriesOf_eq_nil (h : context.recoveriesOf routine = []) :
    context.rewrite routine = routine := by
  have hplacements : context.placements routine = [] := by
    rw [← List.isEmpty_iff, placements_isEmpty, List.isEmpty_iff]
    exact h
  rw [rewrite, patcherOf, hplacements]
  rfl

/-- A routine of which nothing is recovered is left as it is. -/
theorem rewrite_of_not_mem (hmem : routine ∈ routines)
    (h : ∀ recovery ∈ (context.reportOf routines).recoveries, recovery.routine ≠ routine.token) :
    context.rewrite routine = routine := by
  refine rewrite_of_recoveriesOf_eq_nil (List.eq_nil_iff_forall_not_mem.mpr ?_)
  intro recovery hrecovery
  exact h recovery (mem_recoveries_of_mem_recoveriesOf hmem hrecovery)
    (routine_of_mem_recoveries hrecovery)

theorem map_rewrite_of_recoveries_eq_nil (h : (context.reportOf routines).recoveries = []) :
    routines.map context.rewrite = routines := by
  have hkept : routines.map context.rewrite = routines.map id := by
    refine List.map_congr_left fun routine hmem => rewrite_of_not_mem hmem ?_
    rw [h]
    exact nofun
  rw [hkept, List.map_id]

end Context

/-! ### Repeated runs -/

namespace Engine

/-- The assembly after so many runs. -/
def runs (engine : Engine) (supply : WorkerSupply) : Nat → Assembly → Assembly
  | 0, assembly => assembly
  | n + 1, assembly => engine.runs supply n (engine.run supply assembly).assembly

/-- A run that recovers nothing leaves the assembly as it is. -/
theorem run_of_recoveries_eq_nil {engine : Engine} {supply : WorkerSupply} {assembly : Assembly}
    {report : Report} (h : (engine.run supply assembly).result = .ok report)
    (hnone : report.recoveries = []) : (engine.run supply assembly).assembly = assembly := by
  obtain ⟨blob, hready, rfl⟩ := exists_prepare_of_run h
  rw [(run_of_prepare hready).1, Context.map_rewrite_of_recoveries_eq_nil hnone]

/-- **Repeated runs come to rest**, after at most as many more runs as there were failures in the
first one: a run that recovers anything leaves fewer of them to the next. -/
theorem exists_settled {engine again : Engine} {supply supply' : WorkerSupply}
    {assembly : Assembly} {report : Report} (hconfig : again.config = engine.config)
    (hreport : (engine.run supply assembly).result = .ok report)
    (hworkers : again.config.obtainWorkers supply' = .ok ()) :
    ∃ n ≤ report.failed,
      (again.run supply' (again.runs supply' n (engine.run supply assembly).assembly)).assembly =
        again.runs supply' n (engine.run supply assembly).assembly := by
  -- By induction on the number of failures; the second run takes the part of the first.
  induction hcount : report.failed using Nat.strong_induction_on
    generalizing engine supply assembly report with
  | _ count ih =>
    obtain ⟨blob, -, hprecedes, hfirst, hpatched, hlater, -⟩ :=
      exists_precedes hconfig hreport hworkers
    have htotal := hprecedes.recovered_add_failed
    rw [Context.recovered_reportOf, ← hpatched, ← hfirst, hcount] at htotal
    generalize (again.context (engine.run supply assembly).assembly blob).reportOf
      (engine.run supply assembly).assembly.routines = later at hlater htotal
    by_cases hnone : later.recoveries = []
    · exact ⟨0, Nat.zero_le _, run_of_recoveries_eq_nil hlater hnone⟩
    · have hpositive : 0 < later.recoveries.length := List.length_pos_iff.mpr hnone
      obtain ⟨n, hn, hsettled⟩ := ih later.failed (by omega) rfl hlater rfl
      exact ⟨n + 1, by omega, hsettled⟩

end Engine

/-- **What a second run finds.** It recovers a literal only at a site that the first run has missed,
and only from a decoder that had no chain of arithmetic when the first run began and has one since
the first run edited the decoder's own body. All other routines are as the first run left them. So
where no decoder has gained a chain the first run is a fixed point: the second recovers nothing and
leaves the assembly as it is. In any case repeated runs come to rest, after at most as many more
runs as the first one had failures. -/
theorem second_run_recovers_late {engine again : Engine} {supply supply' : WorkerSupply}
    {assembly : Assembly} {report : Report} (hconfig : again.config = engine.config)
    (hreport : (engine.run supply assembly).result = .ok report)
    (hworkers : again.config.obtainWorkers supply' = .ok ()) :
    let patched := (engine.run supply assembly).assembly
    let twice := (again.run supply' patched).assembly
    let before := Pool.ofAssembly engine.config assembly
    let after := Pool.ofAssembly again.config patched
    ∃ later, (again.run supply' patched).result = .ok later ∧
      (∀ recovery ∈ later.recoveries, recovery.IsLate report before after) ∧
      (∀ (k : Nat) old new, patched.routines[k]? = some old → twice.routines[k]? = some new →
        (∀ recovery ∈ later.recoveries, recovery.routine ≠ old.token) → new = old) ∧
      ((∀ decoder ∈ after.decoders, decoder.transform?.isSome →
          (before.chain? decoder.routine).isSome) →
        later.recoveries = [] ∧ twice = patched) ∧
      ∃ n ≤ report.failed, (again.run supply' (again.runs supply' n patched)).assembly =
        again.runs supply' n patched := by
  intro patched twice before after
  obtain ⟨blob, -, hprecedes, hfirst, hpatched, hlater, htwice⟩ :=
    Engine.exists_precedes hconfig hreport hworkers
  have hlate : ∀ recovery ∈ ((again.context patched blob).reportOf patched.routines).recoveries,
      recovery.IsLate report before after := by
    intro recovery hmem
    rw [hpatched] at hmem
    rw [hfirst]
    exact hprecedes.isLate hmem
  refine ⟨_, hlater, hlate, ?_, ?_, Engine.exists_settled hconfig hreport hworkers⟩
  · intro k old new hold hnew hforeign
    have hroutines : twice.routines = patched.routines.map (again.context patched blob).rewrite :=
      congrArg Assembly.routines htwice
    rw [hroutines, List.getElem?_map, hold] at hnew
    obtain rfl := Option.some.inj hnew
    exact Context.rewrite_of_not_mem (List.mem_of_getElem? hold) hforeign
  · intro hgained
    have hnone : ((again.context patched blob).reportOf patched.routines).recoveries = [] := by
      refine List.eq_nil_iff_forall_not_mem.mpr fun recovery hmem => ?_
      have hrecovery := hlate recovery hmem
      obtain ⟨decoder, hdecoder, hroutine, hchain⟩ := Pool.exists_mem_of_chain? hrecovery.chained
      have hbefore := hgained decoder hdecoder hchain
      rw [hroutine, hrecovery.unchained] at hbefore
      cases hbefore
    exact ⟨hnone, Engine.run_of_recoveries_eq_nil hlater hnone⟩

namespace Sample

/-- A decoder that adds to its argument, and that has a call of itself in its body. -/
def recursive : Routine :=
  { decoder with
    body := some [⟨.loadArg, .arg 0⟩, .loadInt 7, ⟨.arith .add, .none⟩, .loadInt 0,
      .callTo decoder.token, ⟨.ret, .none⟩] }

/-- The small assembly with that decoder. The constant of the caller is an offset only if seven is
added to it. -/
def recursiveAssembly : Assembly :=
  { assembly with
    routines := [recursive, { main with body := some [.loadInt (-7), .callTo decoder.token] }] }

/-- The decoder after the first run. -/
def editedDecoder : Routine :=
  { recursive with
    body := some [⟨.loadArg, .arg 0⟩, .loadInt 7, ⟨.arith .add, .none⟩, .nop, .loadString "hi",
      ⟨.ret, .none⟩]
    flags := recursive.flags.markDirty }

/-- What the first run reports. -/
def recursiveReport : Report :=
  { examined := 2
    recovered := 1
    recoveries := [⟨decoder.token, 3, 4, 0, decoder.token, .directOffset, "hi"⟩]
    failures := [⟨⟨main.token, 0, 1, -7, some decoder.token, .full⟩, .decodeMiss⟩]
    routinesPatched := 1
    liveCalls := [decoder.token] }

/-- What the second run reports. -/
def laterReport : Report :=
  { examined := 1
    recovered := 1
    recoveries := [⟨main.token, 0, 1, -7, decoder.token, .linearTransform, "hi"⟩]
    routinesPatched := 1 }

end Sample

/-- **A run need not be a fixed point.** The first run recovers the call in the decoder's own body.
What is left of that body is a chain of arithmetic, and with it the second run recovers the call
that was missed. -/
theorem second_run_recovers_more :
    let first := Sample.engine.run Sample.supply Sample.recursiveAssembly
    let second := Sample.engine.run Sample.supply first.assembly
    first.result = .ok Sample.recursiveReport ∧
      Sample.recursiveReport.aborted = false ∧
      second.result = .ok Sample.laterReport ∧
      Sample.laterReport.recoveries ≠ [] ∧
      second.assembly.routines.map (fun routine => (routine.instrs, routine.flags)) ≠
        first.assembly.routines.map (fun routine => (routine.instrs, routine.flags)) := by
  decide +kernel

/-- The literal that the second run recovers comes late, and the decoder is left as it was. With the
small assembly nothing comes late, and the first run is a fixed point. -/
theorem second_run_recovers_late_sample :
    let first := Sample.engine.run Sample.supply Sample.recursiveAssembly
    let small := Sample.engine.run Sample.supply Sample.assembly
    (∀ recovery ∈ Sample.laterReport.recoveries, recovery.IsLate Sample.recursiveReport
        (Pool.ofAssembly Sample.engine.config Sample.recursiveAssembly)
        (Pool.ofAssembly Sample.engine.config first.assembly)) ∧
      (Sample.engine.run Sample.supply first.assembly).assembly.routines[0]? =
        some Sample.editedDecoder ∧
      (Sample.engine.run Sample.supply small.assembly).assembly = small.assembly := by
  intro first small
  have hreport : first.result = .ok Sample.recursiveReport := by
    decide +kernel
  have hsecond : (Sample.engine.run Sample.supply first.assembly).result =
      .ok Sample.laterReport := by
    decide +kernel
  have hdecoder : first.assembly.routines[0]? = some Sample.editedDecoder := by
    decide +kernel
  obtain ⟨later, hlater, hlate, hkept, -, -⟩ :=
    @second_run_recovers_late Sample.engine Sample.engine Sample.supply Sample.supply _ _ rfl
      hreport rfl
  obtain rfl := Except.ok.inj (hlater.symm.trans hsecond)
  have hsample : small.result = .ok Sample.report := rfl
  obtain ⟨_, -, -, -, hfixed, -⟩ :=
    @second_run_recovers_late Sample.engine Sample.engine Sample.supply Sample.supply _ _ rfl
      hsample rfl
  refine ⟨hlate, ?_, (hfixed (by decide)).2⟩
  have hsome : (Sample.engine.run Sample.supply first.assembly).assembly.routines[0]?.isSome := by
    decide +kernel
  obtain ⟨left, hleft⟩ := Option.isSome_iff_exists.mp hsome
  rw [hleft, hkept 0 Sample.editedDecoder left hdecoder hleft (by decide)]

end LiteralRecovery
