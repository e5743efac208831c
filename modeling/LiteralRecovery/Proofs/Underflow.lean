import LiteralRecovery.Proofs.Depth

/-!
# When a rewritten body takes more than the stack holds

Between the load of a constant and the call that gets it there may be other instructions. They run
after the rewriting as before, on a stack without the constant. The search for the constant passes
over arithmetic, which takes two values, and if one of the two was the constant then the value is
missing: `ldarg; ldc; add; call` is a body that never takes more than there is, and `ldarg; nop;
add; ldstr` is not.

Nothing else can go wrong. A body that never took more than there was keeps this property exactly
if all arithmetic between load and call of its recoveries had a third value below its two.

## Main definitions

* `depth?`: the depth of the stack after instructions, none if one of them takes too much
* `Assembly.NeverUnderflows`: no instruction of a body takes more than there is

## Main results

* `isSome_depth?_iff`: the same said with the depth in front of every instruction
* `Recovery.one_le_height`: what is on the stack between load and call
* `Recovery.neverUnderflows_editAll_iff`: the bodies that stay as they should
* `neverUnderflows_run_iff`: the same for a run
* `arithmetic_underflows`: a body that does not stay so
-/

namespace LiteralRecovery

/-! ### Execution as far as the stack is concerned -/

/-- The depth after the instructions of a body, starting from the given one. An instruction that
takes more values than there are ends the execution. -/
def depth? (demand : Instr → Nat × Nat) : (depth : Nat) → Body → Option Nat
  | depth, [] => some depth
  | depth, instr :: rest =>
    if (demand instr).1 ≤ depth then
      depth? demand (depth - (demand instr).1 + (demand instr).2) rest
    else none

/-- No instruction of the body takes more values than there are on the stack, which is empty at
first. -/
def Assembly.NeverUnderflows (assembly : Assembly) (body : Body) : Prop :=
  (depth? assembly.demand 0 body).isSome

instance (assembly : Assembly) (body : Body) : Decidable (assembly.NeverUnderflows body) :=
  inferInstanceAs (Decidable ((depth? assembly.demand 0 body).isSome = true))

/-- An execution goes through exactly if the depth in front of every instruction suffices for it. -/
theorem isSome_depth?_iff (assembly : Assembly) (depth : Nat) (body : Body) :
    (depth? assembly.demand depth body).isSome ↔
      ∀ i instr, body[i]? = some instr →
        ((assembly.demand instr).1 : Int) ≤ depth + height assembly.netEffect body i := by
  induction body generalizing depth with
  | nil => simp [depth?]
  | cons instr rest ih =>
    rw [depth?]
    by_cases htakes : (assembly.demand instr).1 ≤ depth
    · have hnext : ((depth - (assembly.demand instr).1 + (assembly.demand instr).2 : Nat) : Int) =
          depth + assembly.netEffect instr := by
        rw [Assembly.netEffect]
        omega
      have hheight : ∀ i, height assembly.netEffect (instr :: rest) (i + 1) =
          assembly.netEffect instr + height assembly.netEffect rest i := by
        intro i
        simp [height]
      rw [if_pos htakes, ih, hnext]
      constructor
      · intro h i other hi
        cases i with
        | zero =>
          obtain rfl : instr = other := Option.some.inj hi
          simpa [height] using htakes
        | succ i =>
          rw [hheight, ← add_assoc]
          exact h i other hi
      · intro h i other hi
        have hlater := h (i + 1) other hi
        rwa [hheight, ← add_assoc] at hlater
    · rw [if_neg htakes]
      simp only [Option.isSome_none, Bool.false_eq_true, false_iff]
      intro h
      have hfirst := h 0 instr rfl
      simp only [height, List.take_zero, List.map_nil, List.sum_nil, add_zero] at hfirst
      omega

theorem Assembly.neverUnderflows_iff {assembly : Assembly} {body : Body} :
    assembly.NeverUnderflows body ↔
      ∀ i instr, body[i]? = some instr →
        ((assembly.demand instr).1 : Int) ≤ height assembly.netEffect body i := by
  rw [NeverUnderflows, isSome_depth?_iff]
  simp

/-! ### Between load and call -/

/-- Of the instructions that a search passes over only arithmetic takes anything. -/
theorem Assembly.demand_of_isPassed (assembly : Assembly) {instr : Instr} (h : instr.isPassed) :
    (∃ op operand, instr = ⟨.arith op, operand⟩) ∨ (assembly.demand instr).1 = 0 := by
  obtain ⟨opcode, operand⟩ := instr
  cases opcode with
  | arith op => exact .inl ⟨op, operand, rfl⟩
  | call => simp [Instr.isPassed, Instr.endsSearch] at h
  | _ => exact .inr rfl

namespace Recovery

variable {assembly : Assembly} {recovery : Recovery} {body : Body} {edits : List Recovery}

/-- The arithmetic between load and call has a value to spare: three where it takes two. -/
def Spares (assembly : Assembly) (body : Body) (recovery : Recovery) : Prop :=
  ∀ i op operand, recovery.load < i → i < recovery.call →
    body[i]? = some ⟨.arith op, operand⟩ → 3 ≤ height assembly.netEffect body i

/-- Then the stack is never empty between load and call. -/
theorem one_le_height (hbody : assembly.NeverUnderflows body) (h : recovery.FoundIn body)
    (hspares : recovery.Spares assembly body) {i : Nat} (hload : recovery.load < i)
    (hcall : i ≤ recovery.call) : 1 ≤ height assembly.netEffect body i := by
  rw [Assembly.neverUnderflows_iff] at hbody
  induction i, hload using Nat.le_induction with
  | base =>
    have hfirst := hbody _ _ h.load
    rw [height_succ h.load, assembly.netEffect_spec.loadInt]
    omega
  | succ i hi ih =>
    have hbefore := ih (by omega)
    obtain ⟨instr, hinstr, hpassed⟩ := h.between i hi hcall
    rw [height_succ hinstr]
    rcases assembly.demand_of_isPassed hpassed with ⟨op, operand, rfl⟩ | hnothing
    · have hthree := hspares i op operand hi hcall hinstr
      have hnet : assembly.netEffect ⟨.arith op, operand⟩ = -1 := rfl
      omega
    · rw [Assembly.netEffect, hnothing]
      omega

/-- An instruction between load and call does without the constant. -/
theorem lt_height_of_between (hbody : assembly.NeverUnderflows body) (h : recovery.FoundIn body)
    (hspares : recovery.Spares assembly body) {i : Nat} {instr : Instr}
    (hload : recovery.load < i) (hcall : i < recovery.call) (hinstr : body[i]? = some instr) :
    ((assembly.demand instr).1 : Int) < height assembly.netEffect body i := by
  obtain ⟨found, hfound, hpassed⟩ := h.between i hload hcall
  obtain rfl : found = instr := Option.some.inj (hfound.symm.trans hinstr)
  rcases assembly.demand_of_isPassed hpassed with ⟨op, operand, rfl⟩ | hnothing
  · have htwo : ((assembly.demand ⟨.arith op, operand⟩).1 : Int) = 2 := rfl
    have hthree := hspares i op operand hload hcall hinstr
    omega
  · have hone := one_le_height hbody h hspares hload hcall.le
    omega

/-- The calls of the pairs take one value and leave one. -/
def Neutral (assembly : Assembly) (recovery : Recovery) : Prop :=
  assembly.demand (Instr.callTo recovery.decoder) = (1, 1)

theorem height_editAll_of_neutral (hneutral : ∀ recovery ∈ edits, recovery.Neutral assembly)
    (h : AllFoundIn edits body) (p : Nat) :
    height assembly.netEffect (editAll edits body) p = height assembly.netEffect body p -
      if ∃ recovery ∈ edits, recovery.spans p then 1 else 0 := by
  rw [height_editAll assembly.netEffect_spec (fun recovery hmem => ?_) h, h.countP_spans]
  · split <;> rfl
  · rw [Assembly.netEffect, hneutral recovery hmem]
    rfl

/-- Arithmetic between load and call is where it was, on a stack with one value less. -/
theorem spares_of_neverUnderflows (hneutral : ∀ recovery ∈ edits, recovery.Neutral assembly)
    (h : AllFoundIn edits body) (hafter : assembly.NeverUnderflows (editAll edits body))
    (hmem : recovery ∈ edits) : recovery.Spares assembly body := by
  intro i op operand hload hcall hinstr
  have hkept : (editAll edits body)[i]? = body[i]? := by
    refine getElem?_editAll_of_ne fun other hother => ⟨?_, ?_⟩
    · rintro rfl
      cases hinstr.symm.trans (h.found other hother).load
    · rintro rfl
      cases hinstr.symm.trans (h.found other hother).call
  have hspans : ∃ recovery ∈ edits, recovery.spans i :=
    ⟨recovery, hmem, by simp [spans, hload, hcall.le]⟩
  have htwo := Assembly.neverUnderflows_iff.mp hafter i _ (hkept.trans hinstr)
  rw [height_editAll_of_neutral hneutral h, if_pos hspans] at htwo
  have hdemand : ((assembly.demand ⟨.arith op, operand⟩).1 : Int) = 2 := rfl
  omega

/-- No pair encloses the load of another one. -/
theorem AllFoundIn.not_spans_load (h : AllFoundIn edits body) (hmem : recovery ∈ edits) :
    ¬ ∃ other ∈ edits, other.spans recovery.load := by
  rintro ⟨other, hother, hspans⟩
  simp only [spans, Bool.and_eq_true, decide_eq_true_eq] at hspans
  obtain ⟨hload, hcall⟩ := hspans
  have hown := (h.found recovery hmem).load
  rcases hcall.lt_or_eq with hlt | heq
  · obtain ⟨instr, hinstr, hpassed⟩ := (h.found other hother).between _ hload hlt
    rw [hown, Option.some.injEq] at hinstr
    rw [← hinstr] at hpassed
    cases hpassed
  · rw [heq, (h.found other hother).call] at hown
    cases hown

/-- **The bodies that stay as they should.** -/
theorem neverUnderflows_editAll_iff (hneutral : ∀ recovery ∈ edits, recovery.Neutral assembly)
    (h : AllFoundIn edits body) (hbody : assembly.NeverUnderflows body) :
    assembly.NeverUnderflows (editAll edits body) ↔
      ∀ recovery ∈ edits, recovery.Spares assembly body := by
  constructor
  · intro hafter recovery hmem
    exact spares_of_neverUnderflows hneutral h hafter hmem
  · intro hspares
    have hdepth := Assembly.neverUnderflows_iff.mp hbody
    rw [Assembly.neverUnderflows_iff]
    intro i instr hinstr
    rw [height_editAll_of_neutral hneutral h]
    by_cases hposition : ∃ recovery ∈ edits, i = recovery.load ∨ i = recovery.call
    · obtain ⟨recovery, hmem, rfl | rfl⟩ := hposition
      · -- the constant is not loaded, and nothing else is missing
        rw [(h.getElem?_editAll hmem).1] at hinstr
        obtain rfl := Option.some.inj hinstr
        have hload := hdepth _ _ (h.found recovery hmem).load
        rw [if_neg (h.not_spans_load hmem), sub_zero]
        exact hload
      · -- the literal takes nothing, and the call took the constant
        rw [(h.getElem?_editAll hmem).2] at hinstr
        obtain rfl := Option.some.inj hinstr
        have hcall := hdepth _ _ (h.found recovery hmem).call
        rw [hneutral recovery hmem] at hcall
        have hnothing : ((assembly.demand (Instr.loadString recovery.value)).1 : Int) = 0 := rfl
        split <;> omega
    · push Not at hposition
      rw [getElem?_editAll_of_ne hposition] at hinstr
      by_cases hspans : ∃ recovery ∈ edits, recovery.spans i
      · obtain ⟨recovery, hmem, hwithin⟩ := hspans
        simp only [spans, Bool.and_eq_true, decide_eq_true_eq] at hwithin
        have hcall := hwithin.2.lt_of_ne (hposition recovery hmem).2
        have hlt := lt_height_of_between hbody (h.found recovery hmem) (hspares recovery hmem)
          hwithin.1 hcall hinstr
        split <;> omega
      · rw [if_neg hspans, sub_zero]
        exact hdepth i instr hinstr

end Recovery

/-! ### A run -/

/-- Every call goes to a routine of the assembly that has a signature. -/
def Assembly.CallsKnown (assembly : Assembly) : Prop :=
  ∀ routine ∈ assembly.routines, ∀ instr ∈ routine.instrs, instr.isCall →
    (instr.callee?.bind assembly.signature?).isSome

instance (assembly : Assembly) : Decidable assembly.CallsKnown :=
  inferInstanceAs (Decidable (∀ routine ∈ assembly.routines, ∀ instr ∈ routine.instrs,
    instr.isCall → (instr.callee?.bind assembly.signature?).isSome))

theorem Context.signature_rewrite (context : Context) (routine : Routine) :
    (context.rewrite routine).token = routine.token ∧
      (context.rewrite routine).signature = routine.signature :=
  ⟨(context.edited_rewrite routine).token, (context.edited_rewrite routine).signature⟩

/-- Routines that have kept their tokens and signatures are found with the same signatures. -/
theorem Assembly.signature?_eq_of_forall₂ {a b : Assembly}
    (h : List.Forall₂ (fun old new : Routine => new.token = old.token ∧
      new.signature = old.signature) a.routines b.routines) : b.signature? = a.signature? := by
  funext token
  rw [signature?, signature?, routine?, routine?]
  generalize a.routines = olds at h ⊢
  generalize b.routines = news at h ⊢
  induction h with
  | nil => rfl
  | @cons old new olds news hkeeps _ ih =>
    rw [List.find?_cons, List.find?_cons, hkeeps.1]
    split
    · exact hkeeps.2
    · exact ih

theorem Assembly.demand_eq_of_signature? {a b : Assembly} (h : a.signature? = b.signature?) :
    a.demand = b.demand := by
  funext instr
  rw [demand, demand, h]

namespace Engine.Ends

variable {engine : Engine} {supply : WorkerSupply} {assembly after : Assembly}
  {result : Except Error Report}

/-- A run leaves signatures alone. -/
theorem signature?_eq (h : engine.Ends supply assembly after result) :
    after.signature? = assembly.signature? := by
  cases h with
  | refused => rfl
  | processed ready rewrites tally =>
    refine Assembly.signature?_eq_of_forall₂ (rewrites.forall₂.imp ?_)
    rintro old new (rfl | rfl)
    · exact Context.signature_rewrite ..
    · exact ⟨rfl, rfl⟩

/-- **When a run keeps a body from taking too much**, in whatever way it came to its end. -/
theorem exists_neverUnderflows_iff (hends : engine.Ends supply assembly after result)
    (hdistinct : (assembly.routines.map Routine.token).Nodup) (hcalls : assembly.CallsKnown)
    {k : Nat} {before : Routine} (hk : assembly.routines[k]? = some before)
    (hbefore : assembly.NeverUnderflows before.instrs) :
    ∃ new, after.routines[k]? = some new ∧
      (after.NeverUnderflows new.instrs ↔
        ∀ recovery ∈ recoveriesIn result,
          recovery.routine = before.token → recovery.Spares assembly before.instrs) := by
  obtain ⟨new, edits, hnew, hedits, hinstrs, hfound⟩ := hends.exists_edits hdistinct hk
  refine ⟨new, hnew, ?_⟩
  have hneutral : ∀ recovery ∈ edits, recovery.Neutral assembly := by
    intro recovery h
    have hcall := List.mem_of_getElem? (hfound.found recovery h).call
    have hknown := hcalls before (List.mem_of_getElem? hk) _ hcall rfl
    obtain ⟨signature, hsignature, hpops, hpushes⟩ :=
      hends.exists_signature hdistinct (List.mem_filter.mp (hedits.mem_iff.mp h)).1 hknown
    rw [Recovery.Neutral, Assembly.demand_callTo hsignature, hpops, hpushes]
  rw [Assembly.NeverUnderflows, Assembly.demand_eq_of_signature? hends.signature?_eq, hinstrs]
  refine (Recovery.neverUnderflows_editAll_iff hneutral hfound hbefore).trans ?_
  simp only [hedits.mem_iff, List.mem_filter, decide_eq_true_eq, and_imp]

end Engine.Ends

/-- **Exactly when a run keeps a body from taking too much.** Let every call of the assembly go to a
routine with a known signature. If no instruction of a body took more values than there were, then
the same holds after the run if and only if the arithmetic between load and call of its recoveries
had a third value to spare. -/
theorem neverUnderflows_run_iff (engine : Engine) (supply : WorkerSupply) (stop : Option Nat)
    (assembly : Assembly) (hdistinct : (assembly.routines.map Routine.token).Nodup)
    (hcalls : assembly.CallsKnown) (k : Nat) (before : Routine)
    (hk : assembly.routines[k]? = some before)
    (hbefore : assembly.NeverUnderflows before.instrs) :
    ∃ after, (engine.runUntil supply stop assembly).assembly.routines[k]? = some after ∧
      ((engine.runUntil supply stop assembly).assembly.NeverUnderflows after.instrs ↔
        ∀ recovery ∈ (engine.runUntil supply stop assembly).recoveries,
          recovery.routine = before.token → recovery.Spares assembly before.instrs) :=
  (Engine.ends_runUntil rfl).exists_neverUnderflows_iff hdistinct hcalls hk hbefore

namespace Sample

/-- Arithmetic takes the constant and the argument, and the call gets their sum. -/
def sumAssembly : Assembly :=
  withBody [⟨.loadArg, .arg 0⟩, .loadInt 0, ⟨.arith .add, .none⟩, .callTo decoder.token]

/-- The same with a third value on the stack. -/
def sparedAssembly : Assembly :=
  withBody [⟨.loadArg, .arg 1⟩, ⟨.loadArg, .arg 0⟩, .loadInt 0, ⟨.arith .add, .none⟩,
    .callTo decoder.token]

end Sample

/-- With a third value on the stack the body stays as it should. -/
theorem neverUnderflows_run_iff_sample :
    ∃ after,
      (Sample.engine.runUntil Sample.supply none Sample.sparedAssembly).assembly.routines[1]? =
        some after ∧
      after.instrs[4]? = some (Instr.loadString "hi") ∧
      (Sample.engine.runUntil Sample.supply none Sample.sparedAssembly).assembly.NeverUnderflows
        after.instrs := by
  obtain ⟨after, hafter, hiff⟩ :=
    neverUnderflows_run_iff Sample.engine Sample.supply none Sample.sparedAssembly (by decide)
      (by decide) 1 _ rfl (by decide)
  refine ⟨after, hafter, ?_, hiff.mpr ?_⟩
  · obtain rfl := Option.some.inj hafter
    rfl
  · intro recovery h _ i op operand hload hcall _
    obtain rfl := List.mem_singleton.mp h
    obtain rfl : i = 3 := by
      simp only at hload hcall
      omega
    decide

/-- **A run can make a body take too much.** Tokens are distinct, every call goes to a routine with
a known signature, and the body never takes more than there is; after the run the addition finds one
value instead of two. -/
theorem arithmetic_underflows :
    (Sample.sumAssembly.routines.map Routine.token).Nodup ∧
      Sample.sumAssembly.CallsKnown ∧
      ∃ before after, Sample.sumAssembly.routines[1]? = some before ∧
        (Sample.engine.run Sample.supply Sample.sumAssembly).assembly.routines[1]? = some after ∧
        Sample.sumAssembly.NeverUnderflows before.instrs ∧
        ¬ (Sample.engine.run Sample.supply Sample.sumAssembly).assembly.NeverUnderflows
          after.instrs :=
  ⟨by decide, by decide, _, _, rfl, rfl, by decide, by decide⟩

end LiteralRecovery
