/-!
# Linear transforms of call-site constants

A decoder may change its argument before it looks a string up. The change is a chain of arithmetic
steps with constant right operands, in 32-bit signed arithmetic with wraparound.
-/

namespace LiteralRecovery

/-- A binary operation on 32-bit signed integers. -/
inductive ArithOp where
  | xor
  | add
  | sub
  | mul
deriving DecidableEq, Repr

namespace ArithOp

/-- The operation's value, with wraparound. -/
def apply : ArithOp → Int32 → Int32 → Int32
  | xor, lhs, rhs => lhs ^^^ rhs
  | add, lhs, rhs => lhs + rhs
  | sub, lhs, rhs => lhs - rhs
  | mul, lhs, rhs => lhs * rhs

/-- The instruction's name. -/
def mnemonic : ArithOp → String
  | xor => "xor"
  | add => "add"
  | sub => "sub"
  | mul => "mul"

/-- The operation's name where a transform is described. -/
def title : ArithOp → String
  | xor => "Xor"
  | add => "Add"
  | sub => "Sub"
  | mul => "Mul"

end ArithOp

/-- One step: the value so far is the left operand, the constant the right one. -/
abbrev Step := ArithOp × Int32

/-- A chain of arithmetic steps, the first to be applied in front. -/
structure Transform where
  steps : List Step
deriving DecidableEq, Repr

namespace Transform

/-- The value of the chain at `x`. -/
def apply (transform : Transform) (x : Int32) : Int32 :=
  transform.steps.foldl (fun value step => step.1.apply value step.2) x

/-- The values after each step of a chain that starts at `x`. -/
def traceFrom (x : Int32) : List Step → List Int32
  | [] => []
  | (op, constant) :: rest =>
    let value := op.apply x constant
    value :: traceFrom value rest

/-- The values after each step, the last of which is the value of the chain. -/
def trace (transform : Transform) (x : Int32) : List Int32 :=
  traceFrom x transform.steps

@[simp] theorem apply_nil (x : Int32) : (Transform.mk []).apply x = x :=
  rfl

@[simp] theorem apply_cons (step : Step) (steps : List Step) (x : Int32) :
    (Transform.mk (step :: steps)).apply x = (Transform.mk steps).apply (step.1.apply x step.2) :=
  rfl

/-- The trace ends in the value of the chain. -/
theorem getLastD_trace (transform : Transform) (x : Int32) :
    (transform.trace x).getLastD x = transform.apply x := by
  obtain ⟨steps⟩ := transform
  induction steps generalizing x with
  | nil => rfl
  | cons step steps ih =>
    simp only [trace, traceFrom, apply_cons, ← ih]
    cases traceFrom (step.1.apply x step.2) steps <;> rfl

/-- A step as a pair. -/
def describeStep (step : Step) : String :=
  "(" ++ step.1.title ++ ", " ++ toString step.2.toInt ++ ")"

/-- The chain with its steps spelled out. -/
def describe (transform : Transform) : String :=
  "LinearTransform \x7b steps: [" ++ String.intercalate ", " (transform.steps.map describeStep)
    ++ "] \x7d"

end Transform
end LiteralRecovery
