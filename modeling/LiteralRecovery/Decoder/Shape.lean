import LiteralRecovery.Assembly
import LiteralRecovery.Config

/-!
# The shape of a decoder

What the body of a decoder says about how it finds a string: it may run its argument through a
chain of arithmetic, or read a data slot and call something whose name speaks of decoding.

## Main definitions

* `Transform.ofBody?`: the arithmetic at the front of a body, if the body has no other.
* `Shape.classify`: the shape of a routine, arithmetic first.
-/

namespace LiteralRecovery

/-- How a decoder finds a string. -/
inductive Shape where
  /-- The argument goes through a chain of arithmetic. -/
  | linear (transform : Transform)
  /-- A data slot is read and a decoding member is called. -/
  | table (slot : Token)
  /-- Nothing is known. -/
  | unknown
deriving DecidableEq, Repr

namespace Transform

/-- The first step and the code after it: the argument and a constant, in this order or, for an
operation other than subtraction, in the other one. -/
def firstStep? : Body → Option (Step × Body)
  | a :: b :: c :: rest =>
    if a.isFirstArg && b.isLoadInt then
      match c.arithOp?, b.constant? with
      | some op, some constant => some ((op, constant), rest)
      | _, _ => none
    else if a.isLoadInt && b.isFirstArg then
      match c.arithOp?, a.constant? with
      | some op, some constant => if op = .sub then none else some ((op, constant), rest)
      | _, _ => none
    else none
  | _ => none

/-- The longest run of constant loads followed by an operation each, and the code after it. -/
def moreSteps : Body → List Step × Body
  | a :: b :: rest =>
    match a.constant?, b.arithOp? with
    | some constant, some op =>
      let (steps, plain) := moreSteps rest
      ((op, constant) :: steps, plain)
    | _, _ => ([], a :: b :: rest)
  | rest => ([], rest)

/-- Code that neither loads a constant nor computes. -/
def isPlain (code : Body) : Bool :=
  code.all fun instr => !instr.isLoadInt && instr.arithOp?.isNone

/-- The chain of arithmetic that a body applies to its argument. Operations without effect are
passed over, and after the chain the body must be plain. -/
def ofBody? (body : Body) : Option Transform :=
  match firstStep? (body.filter (·.opcode ≠ .nop)) with
  | none => none
  | some (first, rest) =>
    let (steps, plain) := moreSteps rest
    if isPlain plain then some ⟨first :: steps⟩ else none

end Transform

namespace Shape

/-- The first static field that the body loads and that is a data slot of the assembly. -/
def firstSlot? (assembly : Assembly) (body : Body) : Option Token :=
  (body.filterMap Instr.field?).find? assembly.hasSlot

/-- Whether the body calls a member whose name marks it as a decoding one. -/
def callsDecoding (config : Config) (assembly : Assembly) (body : Body) : Bool :=
  (body.filterMap Instr.callee?).any fun target =>
    (assembly.memberName? target).any config.isDecodeName

/-- The data slot of a decoder that looks its strings up. -/
def tableSlot? (config : Config) (assembly : Assembly) (body : Body) : Option Token :=
  if callsDecoding config assembly body then firstSlot? assembly body else none

/-- The shape of a routine. -/
def classify (config : Config) (assembly : Assembly) (routine : Routine) : Shape :=
  match Transform.ofBody? routine.instrs with
  | some transform => .linear transform
  | none =>
    match tableSlot? config assembly routine.instrs with
    | some slot => .table slot
    | none => .unknown

/-- The chain of arithmetic of a linear shape. -/
def transform? : Shape → Option Transform
  | .linear transform => some transform
  | _ => none

/-- The shape in words. -/
def describe : Shape → String
  | .linear transform => "Linear(" ++ transform.describe ++ ")"
  | .table slot => "Table \x7b slot: " ++ slot.describe ++ " \x7d"
  | .unknown => "Unknown"

end Shape
end LiteralRecovery
