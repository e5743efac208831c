import LiteralRecovery.Instr

/-!
# Routines

A routine has a token, a name, a signature if one is known, a body if it has code, and flag bits.
Two of the bits matter here, whether the routine is static and whether its body was changed; all
others are carried along.
-/

namespace LiteralRecovery

/-- The kind of a parameter or of a returned value. -/
inductive ValueKind where
  | void
  | int32
  | string
  | char
  | object
  | other
deriving DecidableEq, Repr

/-- What a call takes from the stack and leaves on it. -/
structure StackEffect where
  pops : Nat
  pushes : Nat
  net : Int
deriving DecidableEq, Repr

/-- Parameter kinds and the kind returned. -/
structure Signature where
  params : List ValueKind
  returns : ValueKind
deriving DecidableEq, Repr

namespace Signature

/-- The signature of a string decoder: one integer to a string. -/
def decoder : Signature :=
  ⟨[.int32], .string⟩

/-- One parameter, an integer. -/
def takesSingleInt (signature : Signature) : Bool :=
  signature.params = [.int32]

/-- Something is left on the stack. -/
def returnsValue (signature : Signature) : Bool :=
  signature.returns ≠ .void

/-- Exactly the signature of a string decoder. -/
def isExact (signature : Signature) : Bool :=
  signature.takesSingleInt && signature.returns = .string

/-- The stack effect of a call. The counts are bytes and saturate: 255 pops are the most that is
counted, 127 the most that enters the net effect. -/
def effect (signature : Signature) : StackEffect :=
  let pops := min signature.params.length 255
  let pushes := if signature.returnsValue then 1 else 0
  ⟨pops, pushes, (pushes : Int) - (min pops 127 : Nat)⟩

end Signature

/-- The flag bits of a routine. -/
structure Flags where
  bits : UInt32
deriving DecidableEq, Repr

namespace Flags

/-- The bit of static routines. -/
def staticBit : UInt32 := 0x10

/-- The bit of routines whose body was changed. -/
def dirtyBit : UInt32 := 0x1000

/-- No bit but the static one: the flags of a new routine. -/
def static : Flags := ⟨staticBit⟩

/-- Whether the static bit is set. -/
def isStatic (flags : Flags) : Bool :=
  flags.bits &&& staticBit = staticBit

/-- Whether the dirty bit is set. -/
def isDirty (flags : Flags) : Bool :=
  flags.bits &&& dirtyBit = dirtyBit

/-- The flags with the dirty bit set and every other bit as it was. -/
def markDirty (flags : Flags) : Flags :=
  ⟨flags.bits ||| dirtyBit⟩

end Flags

/-- A routine. A body that is absent differs from an empty one. -/
structure Routine where
  token : Token
  name : String
  signature : Option Signature
  body : Option Body
  flags : Flags
deriving DecidableEq, Repr

namespace Routine

/-- The instructions, none if there is no body. -/
def instrs (routine : Routine) : Body :=
  routine.body.getD []

/-- Whether the routine has a body, be it empty. -/
def hasBody (routine : Routine) : Bool :=
  routine.body.isSome

/-- Whether calls take no receiver. -/
def isStatic (routine : Routine) : Bool :=
  routine.flags.isStatic

/-- Whether the body was changed. -/
def isDirty (routine : Routine) : Bool :=
  routine.flags.isDirty

/-- The routine with its body marked as changed. -/
def markDirty (routine : Routine) : Routine :=
  { routine with flags := routine.flags.markDirty }

/-- The routines called by token, once for each call. -/
def callees (routine : Routine) : List Token :=
  routine.instrs.filterMap Instr.callee?

end Routine
end LiteralRecovery
