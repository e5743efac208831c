import LiteralRecovery.Proofs.Decoders
import LiteralRecovery.Proofs.Edits
import Mathlib.Algebra.BigOperators.Group.List.Basic
import Mathlib.Algebra.Ring.Int.Defs

/-!
# Stack depth

A call of a decoder takes its constant from the stack and leaves a value there. The literal that
replaces the call leaves a value and takes nothing, and the load of the constant is gone. So the
depth of the stack is the same everywhere but between the two, where the constant is missing.

Depth is taken along the instructions of a body, as the sum of what each of them adds. All that has
to be known about these numbers is what a recovery takes away and puts in; the other instructions
may add or take whatever they like.

## Main definitions

* `Assembly.signature?`: the signature behind a token
* `Assembly.demand`, `Assembly.netEffect`: what instructions take from the stack and leave on it
* `Assembly.NetEffect`: any other such numbers, as far as they are known
* `height`: the sum of the effects of the first instructions

## Main results

* `Recovery.height_edit`, `Recovery.height_editAll`: what edits do to the depth
* `depth_after_run`: the depth at every instruction after a run
-/

namespace LiteralRecovery

/-! ### Signatures -/

namespace Assembly

variable {assembly : Assembly} {routine : Routine}

/-- The signature of the first routine with the token, if it is known. -/
def signature? (assembly : Assembly) (token : Token) : Option Signature :=
  (assembly.routine? token).bind Routine.signature

/-- Where tokens are distinct, a routine is the one that its token stands for. -/
theorem routine?_eq_some_of_mem (hdistinct : (assembly.routines.map Routine.token).Nodup)
    (h : routine ∈ assembly.routines) : assembly.routine? routine.token = some routine := by
  cases hfind : assembly.routine? routine.token with
  | none =>
    rw [routine?, List.find?_eq_none] at hfind
    exact absurd (decide_eq_true rfl) (hfind routine h)
  | some found =>
    have htoken : found.token = routine.token := by
      simpa using List.find?_some hfind
    have hfound : found ∈ assembly.routines := List.mem_of_find?_eq_some hfind
    rw [List.inj_on_of_nodup_map hdistinct hfound h htoken]

end Assembly

/-- The decoders of a pool take one value and leave one. For the signature behind a token to be that
of the decoder, tokens have to be distinct. -/
theorem Pool.effect_of_contains {config : Config} {assembly : Assembly} {token : Token}
    {signature : Signature} (hdistinct : (assembly.routines.map Routine.token).Nodup)
    (h : (ofAssembly config assembly).contains token)
    (hsignature : assembly.signature? token = some signature) :
    signature.effect.pops = 1 ∧ signature.effect.pushes = 1 := by
  obtain ⟨routine, hroutine, rfl, hstands⟩ := standsIn_of_contains h
  rw [Assembly.signature?, Assembly.routine?_eq_some_of_mem hdistinct hroutine] at hsignature
  have hknown : routine.signature = some signature := hsignature
  rw [Decoder.standsIn, hknown] at hstands
  simpa using (Bool.and_eq_true_iff.mp hstands).2

/-! ### Effects on the stack -/

namespace Assembly

/-- How many values an instruction takes from the stack and how many it leaves there. Nothing is
known of a call without a signature. -/
def demand (assembly : Assembly) (instr : Instr) : Nat × Nat :=
  match instr.opcode with
  | .loadInt | .loadString | .loadArg | .loadField => (0, 1)
  | .nop | .ret | .other => (0, 0)
  | .arith _ => (2, 1)
  | .call =>
    match instr.callee?.bind assembly.signature? with
    | some signature => (signature.effect.pops, signature.effect.pushes)
    | none => (0, 0)

/-- What an instruction adds to the depth of the stack. -/
def netEffect (assembly : Assembly) (instr : Instr) : Int :=
  (assembly.demand instr).2 - (assembly.demand instr).1

/-- The numbers are net effects of instructions, as far as these are known: those of the
instructions that a run reads and writes, and those of calls with a signature. -/
structure NetEffect (assembly : Assembly) (effect : Instr → Int) : Prop where
  loadInt : ∀ constant, effect (Instr.loadInt constant) = 1
  loadString : ∀ value, effect (Instr.loadString value) = 1
  nop : effect Instr.nop = 0
  call : ∀ token signature, assembly.signature? token = some signature →
    effect (Instr.callTo token) = signature.effect.pushes - signature.effect.pops

theorem demand_callTo {assembly : Assembly} {token : Token} {signature : Signature}
    (h : assembly.signature? token = some signature) :
    assembly.demand (Instr.callTo token) = (signature.effect.pops, signature.effect.pushes) := by
  simp [demand, Instr.callTo, Instr.callee?, h]

theorem netEffect_spec (assembly : Assembly) : assembly.NetEffect assembly.netEffect where
  loadInt _ := rfl
  loadString _ := rfl
  nop := rfl
  call token signature h := by rw [netEffect, demand_callTo h]

end Assembly

/-! ### Depth -/

/-- The sum of the effects of the first `p` instructions. -/
def height (effect : Instr → Int) (body : Body) (p : Nat) : Int :=
  ((body.take p).map effect).sum

theorem height_succ {effect : Instr → Int} {body : Body} {i : Nat} {instr : Instr}
    (h : body[i]? = some instr) :
    height effect body (i + 1) = height effect body i + effect instr := by
  simp [height, List.take_add_one, h]

/-- Putting one instruction in the place of another. -/
theorem height_set {body : Body} {i : Nat} {old : Instr} (h : body[i]? = some old)
    (effect : Instr → Int) (new : Instr) (p : Nat) :
    height effect (body.set i new) p =
      height effect body p + if i < p then effect new - effect old else 0 := by
  obtain ⟨hlt, rfl⟩ := List.getElem?_eq_some_iff.mp h
  rw [height, height, List.take_set, List.map_set, List.sum_set']
  by_cases hp : i < p
  · have hentry : -effect body[i] + effect new = effect new - effect body[i] := by omega
    simpa [hp, hlt] using hentry
  · simp [hp]

namespace Recovery

/-- Whether the first `p` instructions end between the load and the call. -/
def spans (recovery : Recovery) (p : Nat) : Bool :=
  recovery.load < p && p ≤ recovery.call

variable {effect : Instr → Int} {recovery : Recovery} {body : Body} {edits : List Recovery}

/-- **One edit.** From the load up to the call there is one value less on the stack. -/
theorem height_edit {assembly : Assembly} (heffect : assembly.NetEffect effect)
    (hneutral : effect (Instr.callTo recovery.decoder) = 0) (h : recovery.FoundIn body) (p : Nat) :
    height effect (recovery.edit body) p =
      height effect body p - if recovery.spans p then 1 else 0 := by
  have hlt := h.load_lt_call
  rw [edit, height_set h.call_set, height_set h.load, heffect.loadInt, heffect.loadString,
    heffect.nop, hneutral]
  simp only [spans, Bool.and_eq_true, decide_eq_true_eq]
  split <;> split <;> split <;> omega

/-- **All edits.** -/
theorem height_editAll {assembly : Assembly} (heffect : assembly.NetEffect effect)
    (hneutral : ∀ recovery ∈ edits, effect (Instr.callTo recovery.decoder) = 0)
    (h : AllFoundIn edits body) (p : Nat) :
    height effect (editAll edits body) p =
      height effect body p - edits.countP (·.spans p) := by
  refine AllFoundIn.induct (motive := fun edits body => height effect (editAll edits body) p =
    height effect body p - edits.countP (·.spans p)) ?_ ?_ hneutral h
  · intro body
    simp
  · intro recovery rest body hrecovery hfound ih
    have hedit := height_edit heffect hrecovery hfound p
    rw [editAll_cons, ih, hedit, List.countP_cons]
    split <;> omega

/-- The pairs stand one behind the other, so no two of them enclose the same place. -/
theorem AllFoundIn.countP_spans (h : AllFoundIn edits body) (p : Nat) :
    edits.countP (·.spans p) = if ∃ recovery ∈ edits, recovery.spans p then 1 else 0 := by
  obtain ⟨-, hordered⟩ := h
  induction edits with
  | nil => simp
  | cons recovery rest ih =>
    obtain ⟨hbehind, hrest⟩ := List.pairwise_cons.mp hordered
    rw [List.countP_cons, ih hrest]
    by_cases hspans : recovery.spans p
    · have hnone : ¬ ∃ other ∈ rest, other.spans p := by
        rintro ⟨other, hother, hlater⟩
        have hlt := hbehind other hother
        simp only [spans, Bool.and_eq_true, decide_eq_true_eq] at hspans hlater
        omega
      rw [if_neg hnone, if_pos hspans, if_pos ⟨recovery, List.mem_cons_self .., hspans⟩]
    · simp [hspans]

end Recovery

/-! ### The depth after a run -/

namespace Engine.Ends

variable {engine : Engine} {supply : WorkerSupply} {assembly after : Assembly}
  {result : Except Error Report} {recovery : Recovery}

/-- Literals of a run are recovered from decoders of the pool only. -/
theorem contains_of_mem_recoveries (hends : engine.Ends supply assembly after result)
    (h : recovery ∈ recoveriesIn result) :
    (Pool.ofAssembly engine.config assembly).contains recovery.decoder := by
  cases hends with
  | refused => cases h
  | processed ready rewrites tally =>
    obtain ⟨-, -, hrecoveries, -⟩ := Report.tally_eq_iff.mp tally
    obtain ⟨routine, -, hmem⟩ := Context.exists_routine_of_recovery (hrecoveries.mem_iff.mp h)
    exact Context.contains_of_mem_recoveriesOf hmem

/-- A decoder that something was recovered from takes one value and leaves one, if its signature is
known. -/
theorem exists_signature (hends : engine.Ends supply assembly after result)
    (hdistinct : (assembly.routines.map Routine.token).Nodup) (h : recovery ∈ recoveriesIn result)
    (hknown : (assembly.signature? recovery.decoder).isSome) :
    ∃ signature, assembly.signature? recovery.decoder = some signature ∧
      signature.effect.pops = 1 ∧ signature.effect.pushes = 1 := by
  obtain ⟨signature, hsignature⟩ := Option.isSome_iff_exists.mp hknown
  exact ⟨signature, hsignature,
    Pool.effect_of_contains hdistinct (hends.contains_of_mem_recoveries h) hsignature⟩

/-- **The depth at the end of a run**, in whatever way the run came to it. -/
theorem exists_height_eq (hends : engine.Ends supply assembly after result)
    (hdistinct : (assembly.routines.map Routine.token).Nodup) {effect : Instr → Int}
    (heffect : assembly.NetEffect effect)
    (hknown : ∀ recovery ∈ recoveriesIn result, (assembly.signature? recovery.decoder).isSome)
    {k : Nat} {before : Routine} (hk : assembly.routines[k]? = some before) :
    ∃ new, after.routines[k]? = some new ∧
      ∀ p, height effect new.instrs p = height effect before.instrs p -
        if ∃ recovery ∈ recoveriesIn result,
          recovery.routine = before.token ∧ recovery.load < p ∧ p ≤ recovery.call
        then 1 else 0 := by
  obtain ⟨new, edits, hnew, hedits, hinstrs, hfound⟩ := hends.exists_edits hdistinct hk
  refine ⟨new, hnew, fun p => ?_⟩
  have hneutral : ∀ recovery ∈ edits, effect (Instr.callTo recovery.decoder) = 0 := by
    intro recovery h
    have hmem := (List.mem_filter.mp (hedits.mem_iff.mp h)).1
    obtain ⟨signature, hsignature, hpops, hpushes⟩ :=
      hends.exists_signature hdistinct hmem (hknown recovery hmem)
    rw [heffect.call _ _ hsignature, hpops, hpushes]
    rfl
  rw [hinstrs, Recovery.height_editAll heffect hneutral hfound, hfound.countP_spans]
  simp only [hedits.mem_iff, List.mem_filter, decide_eq_true_eq, Recovery.spans, Bool.and_eq_true,
    and_assoc]
  split <;> rfl

end Engine.Ends

/-- **The depth after a run** is at every instruction what it was before, except between the load
and the call of a site that was recovered, up to the call itself. There it is less by one. This
holds for every way of counting in which the loads, the operation without effect and the calls with
a signature count as they should, if the decoders that something was recovered from have one. -/
theorem depth_after_run (engine : Engine) (supply : WorkerSupply) (stop : Option Nat)
    (assembly : Assembly) (hdistinct : (assembly.routines.map Routine.token).Nodup)
    (effect : Instr → Int) (heffect : assembly.NetEffect effect)
    (hknown : ∀ recovery ∈ (engine.runUntil supply stop assembly).recoveries,
      (assembly.signature? recovery.decoder).isSome)
    (k : Nat) (before : Routine) (hk : assembly.routines[k]? = some before) :
    ∃ after, (engine.runUntil supply stop assembly).assembly.routines[k]? = some after ∧
      ∀ p, height effect after.instrs p = height effect before.instrs p -
        if ∃ recovery ∈ (engine.runUntil supply stop assembly).recoveries,
          recovery.routine = before.token ∧ recovery.load < p ∧ p ≤ recovery.call
        then 1 else 0 :=
  (Engine.ends_runUntil rfl).exists_height_eq hdistinct heffect hknown hk

/-- In the small assembly the stack lacks the constant between the two instructions of the first
pair, and nothing in front of the call that is left. -/
theorem depth_after_run_sample :
    ∃ after, (Sample.engine.runUntil Sample.supply none Sample.assembly).assembly.routines[1]? =
        some after ∧
      height Sample.assembly.netEffect after.instrs 1 =
        height Sample.assembly.netEffect Sample.main.instrs 1 - 1 ∧
      height Sample.assembly.netEffect after.instrs 4 =
        height Sample.assembly.netEffect Sample.main.instrs 4 := by
  obtain ⟨after, hafter, hdepth⟩ :=
    depth_after_run Sample.engine Sample.supply none Sample.assembly (by decide)
      Sample.assembly.netEffect Sample.assembly.netEffect_spec (by decide) 1 Sample.main rfl
  refine ⟨after, hafter, ?_, ?_⟩
  · rw [hdepth 1, if_pos (by decide)]
  · rw [hdepth 4, if_neg (by decide), sub_zero]

end LiteralRecovery
