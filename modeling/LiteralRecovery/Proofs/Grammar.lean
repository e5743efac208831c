import LiteralRecovery.Proofs.Chains

/-!
# Which bodies have a chain

Reading a chain off a body is greedy: it takes a first step, then steps as long as there are any,
and only in the end looks at what is left. So a body could conceivably have a chain that is missed,
because too much was taken for steps. This does not happen. What may come after a chain has no
constant load in it, so the steps end where they have to, and a body is the code of at most one
chain.

The greedy reader takes its code apart as a list and has no positions. Another one is defined here
that keeps the whole code and a position in it, and that fails if it ever looks at the code from a
position behind the end. It never does, and gives the same answer.

## Main definitions

* `Transform.Spells`: the code of a chain, with what may follow
* `Transform.ofBodyByPosition`: reading by position, with every position checked

## Main results

* `Transform.Opens.firstStep?_append`, `Transform.Continues.moreSteps_append`: code of steps is read
* `Transform.ofBody?_eq_some_iff`: a chain is read exactly where it is spelled
* `Transform.Spells.unique`: code spells at most one chain
* `Transform.ofBodyByPosition_eq`: no position is behind the end
* `chain_read_iff_spelled`
-/

namespace LiteralRecovery

theorem Instr.constant?_eq_none_of_opcode_ne {instr : Instr} (h : instr.opcode ≠ .loadInt) :
    instr.constant? = none := by
  obtain ⟨opcode, operand⟩ := instr
  cases opcode with
  | loadInt => exact absurd rfl h
  | _ => rfl

namespace Transform

/-! ### The code of a whole chain -/

/-- The code of a chain: that of its first step, that of the further ones, and then whatever neither
loads a constant nor computes. -/
inductive Spells : List Step → Body → Prop
  | intro {first : Step} {more : List Step} {head tail rest : Body} (hfirst : Opens first head)
      (hmore : Continues more tail)
      (hrest : ∀ instr ∈ rest, instr.opcode ≠ .loadInt ∧ ∀ op, instr.opcode ≠ .arith op) :
      Spells (first :: more) (head ++ (tail ++ rest))

theorem isPlain_iff {code : Body} :
    isPlain code ↔ ∀ instr ∈ code, instr.opcode ≠ .loadInt ∧ ∀ op, instr.opcode ≠ .arith op := by
  constructor
  · intro h instr hinstr
    exact opcode_ne_of_isPlain h hinstr
  · intro h
    refine List.all_eq_true.mpr fun instr hinstr => ?_
    obtain ⟨hload, harith⟩ := h instr hinstr
    obtain ⟨opcode, operand⟩ := instr
    cases opcode <;> simp_all [Instr.isLoadInt, Instr.arithOp?]

/-- The code of a first step is read as that step, whatever follows. -/
theorem Opens.firstStep?_append {step : Step} {head : Body} (h : Opens step head) (rest : Body) :
    firstStep? (head ++ rest) = some (step, rest) := by
  cases h with
  | inOrder op constant operand => rfl
  | swapped op constant operand hsub =>
    show (if op = .sub then none else some ((op, constant), rest)) = some ((op, constant), rest)
    rw [if_neg hsub]

/-- A constant and an operation are one more step. -/
theorem moreSteps_cons_cons {a b : Instr} {constant : Int32} {op : ArithOp} (rest : Body)
    (ha : a.constant? = some constant) (hb : b.arithOp? = some op) :
    moreSteps (a :: b :: rest) = ((op, constant) :: (moreSteps rest).1, (moreSteps rest).2) := by
  rw [moreSteps, ha, hb]

/-- Code without constants has no steps in front. -/
theorem moreSteps_of_forall_constant?_eq_none {rest : Body}
    (h : ∀ instr ∈ rest, instr.constant? = none) : moreSteps rest = ([], rest) := by
  rcases rest with _ | ⟨a, _ | ⟨b, rest⟩⟩
  · rfl
  · rfl
  · rw [moreSteps, h a (List.mem_cons_self ..)]

/-- The code of steps is read as those steps, if there is no constant behind it that could be taken
for one more. -/
theorem Continues.moreSteps_append {steps : List Step} {tail rest : Body}
    (h : Continues steps tail) (hrest : ∀ instr ∈ rest, instr.constant? = none) :
    moreSteps (tail ++ rest) = (steps, rest) := by
  induction h with
  | nil => exact moreSteps_of_forall_constant?_eq_none hrest
  | cons op constant operand h ih =>
    rw [List.cons_append, List.cons_append, moreSteps_cons_cons _ rfl rfl, ih]

/-! ### A chain is read exactly where it is spelled -/

/-- What the two parts of the reader give on the code of a chain. -/
theorem Spells.exists_rest {steps : List Step} {code : Body} (h : Spells steps code) :
    ∃ first more behind plain, steps = first :: more ∧ firstStep? code = some (first, behind) ∧
      moreSteps behind = (more, plain) ∧ isPlain plain := by
  obtain ⟨hfirst, hmore, hrest⟩ := h
  refine ⟨_, _, _, _, rfl, hfirst.firstStep?_append _, hmore.moreSteps_append ?_,
    isPlain_iff.mpr hrest⟩
  intro instr hinstr
  exact Instr.constant?_eq_none_of_opcode_ne (hrest instr hinstr).1

/-- **A chain is read exactly where it is spelled.** -/
theorem ofBody?_eq_some_iff {body : Body} {steps : List Step} :
    ofBody? body = some ⟨steps⟩ ↔ Spells steps (body.filter (·.opcode ≠ .nop)) := by
  constructor
  · intro h
    obtain ⟨first, more, head, tail, plain, hsteps, hcode, hfirst, hmore, hplain⟩ :=
      exists_split_of_ofBody? h
    obtain rfl : steps = first :: more := congrArg Transform.steps hsteps
    rw [hcode, List.append_assoc]
    exact .intro hfirst hmore (isPlain_iff.mp hplain)
  · intro h
    obtain ⟨first, more, behind, plain, rfl, hfirst, hmore, hplain⟩ := h.exists_rest
    simp only [ofBody?, hfirst, hmore, hplain, if_true]

/-- **Code spells at most one chain.** -/
theorem Spells.unique {steps steps' : List Step} {code : Body} (h : Spells steps code)
    (h' : Spells steps' code) : steps = steps' := by
  obtain ⟨first, more, behind, plain, rfl, hfirst, hmore, -⟩ := h.exists_rest
  obtain ⟨first', more', behind', plain', rfl, hfirst', hmore', -⟩ := h'.exists_rest
  obtain ⟨rfl, rfl⟩ := Prod.mk.inj (Option.some.inj (hfirst.symm.trans hfirst'))
  obtain ⟨rfl, -⟩ := Prod.mk.inj (hmore.symm.trans hmore')
  rfl

/-! ### Reading by position -/

/-- The code from a position on. A position behind the end is an error. -/
def codeFrom (code : Body) (position : Nat) : Except Nat Body :=
  if position ≤ code.length then .ok (code.drop position) else .error position

theorem codeFrom_eq_ok_iff {code rest : Body} {position : Nat} :
    codeFrom code position = .ok rest ↔ position ≤ code.length ∧ rest = code.drop position := by
  unfold codeFrom
  split
  next h => simp [h, eq_comm]
  next h => simp [h]

/-- Where there are two more instructions, the position behind them is within the code. -/
theorem codeFrom_add_two {code behind : Body} {a b : Instr} {position : Nat}
    (h : codeFrom code position = .ok (a :: b :: behind)) :
    codeFrom code (position + 2) = .ok behind := by
  obtain ⟨-, hdrop⟩ := codeFrom_eq_ok_iff.mp h
  have hlength := congrArg List.length hdrop
  rw [List.length_drop, List.length_cons, List.length_cons] at hlength
  refine codeFrom_eq_ok_iff.mpr ⟨by omega, ?_⟩
  rw [← List.drop_drop, ← hdrop]
  rfl

/-- The given steps and those that are read from a position on, with the position behind the last.
The next two instructions are looked up in the code from the position on. -/
def moreStepsFrom (code : Body) (steps : List Step) (position : Nat) :
    Except Nat (List Step × Nat) :=
  match h : codeFrom code position with
  | .error behind => .error behind
  | .ok (a :: b :: _) =>
    match a.constant?, b.arithOp? with
    | some constant, some op =>
      have : position ≤ code.length := (codeFrom_eq_ok_iff.mp h).1
      moreStepsFrom code (steps ++ [(op, constant)]) (position + 2)
    | _, _ => .ok (steps, position)
  | .ok _ => .ok (steps, position)
termination_by code.length + 2 - position

/-- The chain of a body, read by position: three instructions for the first step, two for each
further one, and the rest from the position behind them. -/
def ofBodyByPosition (body : Body) : Except Nat (Option Transform) := do
  let code := body.filter (·.opcode ≠ .nop)
  match firstStep? code with
  | none => return none
  | some (first, _) =>
    let (steps, position) ← moreStepsFrom code [first] 3
    let rest ← codeFrom code position
    return if isPlain rest then some ⟨steps⟩ else none

/-- The steps read by position are those read off the list, and they end within the code. -/
theorem exists_moreStepsFrom_eq {code rest : Body} {position : Nat} (steps : List Step)
    (h : codeFrom code position = .ok rest) :
    ∃ last, moreStepsFrom code steps position = .ok (steps ++ (moreSteps rest).1, last) ∧
      codeFrom code last = .ok (moreSteps rest).2 := by
  -- along the reader by position; the list that the other one has left is the code from there on
  fun_induction moreStepsFrom code steps position generalizing rest with
  | case1 steps position behind hbehind =>
    rw [hbehind] at h
    cases h
  | case2 steps position a b behind hcode constant op harith hconstant hbound ih =>
    obtain rfl := Except.ok.inj (h.symm.trans hcode)
    obtain ⟨last, hlast, hrest⟩ := ih (codeFrom_add_two hcode)
    rw [moreSteps_cons_cons behind hconstant harith]
    refine ⟨last, ?_, hrest⟩
    rw [hlast, List.append_assoc]
    rfl
  | case3 steps position a b behind hcode hnone =>
    obtain rfl := Except.ok.inj (h.symm.trans hcode)
    have hstop : moreSteps (a :: b :: behind) = ([], a :: b :: behind) := by
      rw [moreSteps]
      split
      next constant op hconstant harith => exact absurd harith (hnone constant op hconstant)
      next => rfl
    refine ⟨position, ?_, ?_⟩
    · rw [hstop, List.append_nil]
    · rw [hstop, hcode]
  | case4 steps position behind hshort hcode =>
    obtain rfl := Except.ok.inj (h.symm.trans hcode)
    have hstop : moreSteps rest = ([], rest) := by
      rcases rest with _ | ⟨a, _ | ⟨b, tail⟩⟩
      · rfl
      · rfl
      · exact absurd rfl (hshort a b tail)
    refine ⟨position, ?_, ?_⟩
    · rw [hstop, List.append_nil]
    · rw [hstop, hcode]

/-- **No position is behind the end**, and reading by position gives what reading the list gives. -/
theorem ofBodyByPosition_eq (body : Body) : ofBodyByPosition body = .ok (ofBody? body) := by
  cases hfirst : firstStep? (body.filter (·.opcode ≠ .nop)) with
  | none =>
    simp only [ofBodyByPosition, ofBody?, hfirst]
    rfl
  | some found =>
    obtain ⟨first, rest⟩ := found
    obtain ⟨head, hhead, hopens⟩ := exists_opens_of_firstStep? hfirst
    have hthree : codeFrom (body.filter (·.opcode ≠ .nop)) 3 = .ok rest := by
      rw [hhead, ← hopens.length_eq]
      exact codeFrom_eq_ok_iff.mpr ⟨by simp, List.drop_left.symm⟩
    obtain ⟨last, hmore, hrest⟩ := exists_moreStepsFrom_eq [first] hthree
    simp only [ofBodyByPosition, ofBody?, hfirst, hmore]
    show (codeFrom _ last >>= _) = _
    rw [hrest]
    rfl

end Transform

/-- **A chain is read exactly where the grammar has one.** With the operations without effect left
out, a chain is read off a body if and only if the code is that of its steps with something plain
behind it, and code is that of one chain at most. Reading by position never leaves the code and
gives the same answer. -/
theorem chain_read_iff_spelled (body : Body) :
    let code := body.filter (·.opcode ≠ .nop)
    (∀ steps, Transform.ofBody? body = some ⟨steps⟩ ↔ Transform.Spells steps code) ∧
      (∀ steps steps', Transform.Spells steps code → Transform.Spells steps' code →
        steps = steps') ∧
      Transform.ofBodyByPosition body = .ok (Transform.ofBody? body) := by
  intro code
  refine ⟨fun steps => Transform.ofBody?_eq_some_iff, ?_, Transform.ofBodyByPosition_eq body⟩
  intro steps steps' h h'
  exact h.unique h'

/-- The code of the sample body spells its chain and no other. -/
theorem chain_read_iff_spelled_sample :
    let code := Sample.chainBody.filter (·.opcode ≠ .nop)
    Transform.Spells [(.mul, 5), (.sub, 3)] code ∧
      (∀ steps, Transform.Spells steps code → steps = [(.mul, 5), (.sub, 3)]) ∧
      Transform.ofBodyByPosition Sample.chainBody = .ok (some ⟨[(.mul, 5), (.sub, 3)]⟩) := by
  intro code
  have hchain : Transform.ofBody? Sample.chainBody = some ⟨[(.mul, 5), (.sub, 3)]⟩ := by decide
  obtain ⟨hread, hunique, hposition⟩ := chain_read_iff_spelled Sample.chainBody
  have hspelled := (hread _).mp hchain
  refine ⟨hspelled, fun steps h => hunique steps _ h hspelled, ?_⟩
  rw [hposition, hchain]

end LiteralRecovery
