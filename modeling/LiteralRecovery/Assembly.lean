import LiteralRecovery.Bytes
import LiteralRecovery.Routine

/-!
# Assemblies

An assembly is what a run works on: static data slots, routines, and the names of members that are
defined elsewhere. Tokens need not be distinct; a lookup takes the first routine that matches.
-/

namespace LiteralRecovery

/-- A static data field, with its initial bytes if it has any. Without an owning type it is
global. -/
structure Slot where
  token : Token
  name : String
  owner : Option Token
  data : Option Bytes
deriving DecidableEq, Repr

namespace Slot

/-- Whether no type owns the slot. -/
def isGlobal (slot : Slot) : Bool :=
  slot.owner.isNone

/-- The initial bytes, none if the slot is uninitialised. -/
def bytes (slot : Slot) : Bytes :=
  slot.data.getD #[]

/-- The number of initial bytes. -/
def size (slot : Slot) : Nat :=
  slot.bytes.size

end Slot

/-- Data slots, routines, and the names of external members. -/
structure Assembly where
  slots : List Slot
  routines : List Routine
  externals : List (Token × String)
deriving DecidableEq, Repr

namespace Assembly

/-- The first routine with the token. -/
def routine? (assembly : Assembly) (token : Token) : Option Routine :=
  assembly.routines.find? (·.token = token)

/-- The name given last to an external member. -/
def external? (assembly : Assembly) (token : Token) : Option String :=
  (assembly.externals.reverse.find? (·.1 = token)).map (·.2)

/-- The name of a call target: that of the assembly's own routine, else the external one. -/
def memberName? (assembly : Assembly) (token : Token) : Option String :=
  match assembly.routine? token with
  | some routine => some routine.name
  | none => assembly.external? token

/-- Whether some data slot has the token. -/
def hasSlot (assembly : Assembly) (token : Token) : Bool :=
  assembly.slots.any (·.token = token)

end Assembly
end LiteralRecovery
