import LiteralRecovery.Proofs.Sites

/-!
# What a chain of arithmetic computes

The arithmetic of a decoder is read off its body: the argument and a constant with an operation, and
then one more constant and operation after the other. Here the same code is executed, on a stack of
integers that starts out empty. It leaves one integer behind, the value of the chain at the
argument.

Reading and execution go by different rules. Reading pairs an operation with the constant in front
of it and takes the value so far for the left operand. Execution takes the right operand from the
top of the stack and knows nothing of steps. The two agree because a constant that was just loaded
is on top. They would not if the first step began with its constant, since the argument is on top
then, but such a step is read only for an operation whose operands may be exchanged.

## Main definitions

* `Instr.compute?`, `compute?`: one instruction on a stack, and code
* `Transform.Opens`, `Transform.Continues`: the code of the first step, and of the steps after it

## Main results

* `Transform.exists_split_of_ofBody?`: what a body with a chain looks like
* `Transform.Opens.compute?_append`, `Transform.Continues.compute?_eq`: what its parts do
* `chain_computes_transform`
-/

namespace LiteralRecovery

/-! ### Execution -/

/-- An instruction on a stack of integers, the top of which is in front. The routine was called with
the given argument. Arithmetic finds its right operand on top and the left one below. There is no
result if the stack is too short, or if the instruction neither loads an integer or the argument nor
computes. -/
def Instr.compute? (argument : Int32) : Instr → List Int32 → Option (List Int32)
  | ⟨.loadArg, .arg 0⟩, stack => some (argument :: stack)
  | ⟨.loadInt, .int constant⟩, stack => some (constant :: stack)
  | ⟨.arith op, _⟩, rhs :: lhs :: stack => some (op.apply lhs rhs :: stack)
  | _, _ => none

/-- Instructions on a stack, one after the other. -/
def compute? (argument : Int32) (code : Body) (stack : List Int32) : Option (List Int32) :=
  code.foldlM (fun stack instr => instr.compute? argument stack) stack

theorem compute?_cons (argument : Int32) (instr : Instr) (rest : Body) (stack : List Int32) :
    compute? argument (instr :: rest) stack =
      (instr.compute? argument stack).bind (compute? argument rest) :=
  List.foldlM_cons

namespace Instr

/-- A load of the routine's first argument. -/
def firstArg : Instr :=
  ⟨.loadArg, .arg 0⟩

variable {argument : Int32} {stack : List Int32}

@[simp] theorem compute?_firstArg : firstArg.compute? argument stack = some (argument :: stack) :=
  rfl

@[simp] theorem compute?_loadInt {constant : Int32} :
    (loadInt constant).compute? argument stack = some (constant :: stack) :=
  rfl

@[simp] theorem compute?_arith {op : ArithOp} {operand : Operand} {lhs rhs : Int32} :
    compute? argument ⟨.arith op, operand⟩ (rhs :: lhs :: stack) =
      some (op.apply lhs rhs :: stack) :=
  rfl

theorem isFirstArg_iff {instr : Instr} : instr.isFirstArg ↔ instr = firstArg := by
  obtain ⟨opcode, operand⟩ := instr
  simp [isFirstArg, firstArg]

theorem arithOp?_eq_some_iff {instr : Instr} {op : ArithOp} :
    instr.arithOp? = some op ↔ ∃ operand, instr = ⟨.arith op, operand⟩ := by
  obtain ⟨opcode, operand⟩ := instr
  cases opcode <;> simp [arithOp?]

end Instr

/-- Operations other than subtraction do not depend on the order of their operands. -/
theorem ArithOp.apply_comm {op : ArithOp} (h : op ≠ .sub) (x y : Int32) :
    op.apply x y = op.apply y x := by
  cases op with
  | xor => exact Int32.xor_comm x y
  | add => exact Int32.add_comm x y
  | sub => exact absurd rfl h
  | mul => exact Int32.mul_comm x y

namespace Transform

/-! ### The code of a chain -/

/-- The code of a first step: the argument, the constant and the operation. If the operation is not
subtraction, the constant may also come first. -/
inductive Opens : Step → Body → Prop
  | inOrder (op : ArithOp) (constant : Int32) (operand : Operand) :
      Opens (op, constant) [.firstArg, .loadInt constant, ⟨.arith op, operand⟩]
  | swapped (op : ArithOp) (constant : Int32) (operand : Operand) (h : op ≠ .sub) :
      Opens (op, constant) [.loadInt constant, .firstArg, ⟨.arith op, operand⟩]

/-- The code of further steps: the constant and the operation of each. -/
inductive Continues : List Step → Body → Prop
  | nil : Continues [] []
  | cons (op : ArithOp) (constant : Int32) (operand : Operand) {steps : List Step} {code : Body}
      (h : Continues steps code) :
      Continues ((op, constant) :: steps) (.loadInt constant :: ⟨.arith op, operand⟩ :: code)

theorem Opens.length_eq {step : Step} {code : Body} (h : Opens step code) : code.length = 3 := by
  cases h <;> rfl

theorem Continues.length_eq {steps : List Step} {code : Body} (h : Continues steps code) :
    code.length = 2 * steps.length := by
  induction h with
  | nil => rfl
  | cons op constant operand h ih =>
    rw [List.length_cons, List.length_cons, List.length_cons, ih]
    omega

theorem exists_opens_of_firstStep? {code rest : Body} {step : Step} :
    firstStep? code = some (step, rest) → ∃ head, code = head ++ rest ∧ Opens step head := by
  fun_cases firstStep? code with
  | case1 a b c tail hfirst op constant hconstant harith =>
    intro h
    obtain ⟨rfl, rfl⟩ := Prod.mk.inj (Option.some.inj h)
    obtain rfl := Instr.isFirstArg_iff.mp (Bool.and_eq_true_iff.mp hfirst).1
    obtain rfl := Instr.constant?_eq_some_iff.mp hconstant
    obtain ⟨operand, rfl⟩ := Instr.arithOp?_eq_some_iff.mp harith
    exact ⟨_, rfl, .inOrder op constant operand⟩
  | case4 a b c tail _ hsecond op constant hconstant harith hsub =>
    intro h
    obtain ⟨rfl, rfl⟩ := Prod.mk.inj (Option.some.inj h)
    obtain rfl := Instr.isFirstArg_iff.mp (Bool.and_eq_true_iff.mp hsecond).2
    obtain rfl := Instr.constant?_eq_some_iff.mp hconstant
    obtain ⟨operand, rfl⟩ := Instr.arithOp?_eq_some_iff.mp harith
    exact ⟨_, rfl, .swapped op constant operand hsub⟩
  | case2 | case3 | case5 | case6 | case7 => exact nofun

theorem exists_continues_moreSteps (code : Body) :
    ∃ tail, code = tail ++ (moreSteps code).2 ∧ Continues (moreSteps code).1 tail := by
  fun_induction moreSteps code with
  | case1 a b rest constant op harith hconstant steps plain hmore ih =>
    rw [hmore] at ih
    obtain ⟨tail, hrest, hcontinues⟩ := ih
    obtain rfl := Instr.constant?_eq_some_iff.mp hconstant
    obtain ⟨operand, rfl⟩ := Instr.arithOp?_eq_some_iff.mp harith
    refine ⟨_, ?_, .cons op constant operand hcontinues⟩
    rw [hrest]
    rfl
  | case2 => exact ⟨[], rfl, .nil⟩
  | case3 => exact ⟨[], rfl, .nil⟩

/-- **A body with a chain** is, apart from operations without effect, the code of its steps, and
then code that neither loads a constant nor computes. -/
theorem exists_split_of_ofBody? {body : Body} {transform : Transform}
    (h : ofBody? body = some transform) :
    ∃ first more head tail plain, transform = ⟨first :: more⟩ ∧
      body.filter (·.opcode ≠ .nop) = (head ++ tail) ++ plain ∧
      Opens first head ∧ Continues more tail ∧ isPlain plain := by
  rw [ofBody?] at h
  split at h
  next => cases h
  next first rest hfirst =>
    obtain ⟨head, hhead, hopens⟩ := exists_opens_of_firstStep? hfirst
    obtain ⟨tail, htail, hcontinues⟩ := exists_continues_moreSteps rest
    obtain ⟨hplain, htransform⟩ := Option.ite_none_right_eq_some.mp h
    refine ⟨first, _, head, tail, _, (Option.some.inj htransform).symm, ?_, hopens, hcontinues,
      hplain⟩
    rw [hhead, List.append_assoc, ← htail]

/-! ### What the code does -/

variable {argument : Int32}

/-- **The first step** puts its value on the stack. If the constant was loaded first, its operand is
the left one, and the operation gives the same. -/
theorem Opens.compute?_append {step : Step} {head : Body} (h : Opens step head) (rest : Body)
    (stack : List Int32) :
    compute? argument (head ++ rest) stack =
      compute? argument rest (step.1.apply argument step.2 :: stack) := by
  cases h with
  | inOrder op constant operand =>
    simp only [List.cons_append, List.nil_append, compute?_cons, Instr.compute?_firstArg,
      Instr.compute?_loadInt, Instr.compute?_arith, Option.bind_some]
  | swapped op constant operand hsub =>
    simp only [List.cons_append, List.nil_append, compute?_cons, Instr.compute?_firstArg,
      Instr.compute?_loadInt, Instr.compute?_arith, Option.bind_some]
    rw [ArithOp.apply_comm hsub]

/-- **Further steps** take the value on top of the stack to the value of the chain. -/
theorem Continues.compute?_eq {steps : List Step} {tail : Body} (h : Continues steps tail)
    (value : Int32) (stack : List Int32) :
    compute? argument tail (value :: stack) =
      some ((Transform.mk steps).apply value :: stack) := by
  -- the value so far changes with every step, the stack below it stays
  induction h generalizing value with
  | nil => rfl
  | cons op constant operand h ih =>
    simp only [compute?_cons, Instr.compute?_loadInt, Instr.compute?_arith, Option.bind_some,
      apply_cons, ih]

theorem opcode_ne_of_isPlain {code : Body} (h : isPlain code) {instr : Instr}
    (hinstr : instr ∈ code) : instr.opcode ≠ .loadInt ∧ ∀ op, instr.opcode ≠ .arith op := by
  have hplain := Bool.and_eq_true_iff.mp (List.all_eq_true.mp h instr hinstr)
  obtain ⟨opcode, operand⟩ := instr
  cases opcode <;> simp_all [Instr.isLoadInt, Instr.arithOp?]

end Transform

/-- **A chain of arithmetic computes what the body computes.** If a chain of `n` steps is read off a
body, the first `1 + 2 * n` instructions that have an effect take the empty stack to the value of
the chain at the argument, and to nothing else on the stack, for every argument. No instruction
after these loads a constant or computes. -/
theorem chain_computes_transform {body : Body} {transform : Transform}
    (h : Transform.ofBody? body = some transform) (argument : Int32) :
    let code := body.filter (·.opcode ≠ .nop)
    let size := 1 + 2 * transform.steps.length
    size ≤ code.length ∧
      compute? argument (code.take size) [] = some [transform.apply argument] ∧
      ∀ instr ∈ code.drop size, instr.opcode ≠ .loadInt ∧ ∀ op, instr.opcode ≠ .arith op := by
  intro code size
  obtain ⟨first, more, head, tail, plain, rfl, hsplit, hopens, hcontinues, hplain⟩ :=
    Transform.exists_split_of_ofBody? h
  have hcode : code = (head ++ tail) ++ plain := hsplit
  have hsize : size = (head ++ tail).length := by
    rw [List.length_append, hopens.length_eq, hcontinues.length_eq]
    show 1 + 2 * (more.length + 1) = 3 + 2 * more.length
    omega
  rw [hsize, hcode, List.take_left, List.drop_left]
  refine ⟨?_, ?_, fun instr hinstr => Transform.opcode_ne_of_isPlain hplain hinstr⟩
  · exact (List.prefix_append (head ++ tail) plain).length_le
  · rw [hopens.compute?_append, hcontinues.compute?_eq, Transform.apply_cons]

namespace Sample

/-- A body that multiplies its argument by five and takes three away, with the first constant in
front of the argument and operations without effect in between. -/
def chainBody : Body :=
  [.nop, .loadInt 5, ⟨.nop, .int 9⟩, .firstArg, ⟨.arith .mul, .none⟩, .loadInt 3, .nop,
    ⟨.arith .sub, .none⟩, .callTo ⟨0x06000002⟩, ⟨.ret, .none⟩]

end Sample

/-- The chain of the sample body, and the five instructions that compute it. -/
theorem chain_computes_transform_sample :
    Transform.ofBody? Sample.chainBody = some ⟨[(.mul, 5), (.sub, 3)]⟩ ∧
      compute? 4 ((Sample.chainBody.filter (·.opcode ≠ .nop)).take 5) [] = some [17] := by
  have hchain : Transform.ofBody? Sample.chainBody = some ⟨[(.mul, 5), (.sub, 3)]⟩ := by decide
  exact ⟨hchain, (chain_computes_transform hchain 4).2.1⟩

end LiteralRecovery
