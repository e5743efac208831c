import LiteralRecovery.Text.Quoted
import LiteralRecovery.Token
import LiteralRecovery.Transform

/-!
# Instructions

The instructions of a routine body, as far as string recovery tells them apart. Opcode and operand
vary independently: a body may hold a call without a member token, or a constant load without an
integer, and the queries below give nothing for such an instruction.
-/

namespace LiteralRecovery

/-- What an instruction does. -/
inductive Opcode where
  | loadInt
  | call
  | nop
  | loadString
  | loadArg
  | arith (op : ArithOp)
  | loadField
  | ret
  | other
deriving DecidableEq, Repr

/-- The opcode's name in a listing. -/
def Opcode.mnemonic : Opcode → String
  | loadInt => "ldc.i4"
  | call => "call"
  | nop => "nop"
  | loadString => "ldstr"
  | loadArg => "ldarg"
  | arith op => op.mnemonic
  | loadField => "ldsfld"
  | ret => "ret"
  | other => "<other>"

/-- What an instruction acts on. -/
inductive Operand where
  | none
  | int (value : Int32)
  | member (token : Token)
  | arg (index : UInt16)
  | text (value : String)
deriving DecidableEq, Repr

/-- The operand in a listing, with the blank that sets it off from the mnemonic. -/
def Operand.render : Operand → String
  | none => ""
  | int value => " " ++ Text.hexConstant value
  | member token => " " ++ token.render
  | arg index => " A_" ++ toString index.toNat
  | text value => " " ++ Text.quoted value

/-- An instruction of a routine body. -/
structure Instr where
  opcode : Opcode
  operand : Operand
deriving DecidableEq, Repr

/-- The instructions of a routine, in order. -/
abbrev Body := List Instr

namespace Instr

/-! ### The instructions that recovery reads and writes -/

/-- A load of the constant `value`. -/
def loadInt (value : Int32) : Instr :=
  ⟨.loadInt, .int value⟩

/-- A call of the routine `target`. -/
def callTo (target : Token) : Instr :=
  ⟨.call, .member target⟩

/-- No operation. -/
def nop : Instr :=
  ⟨.nop, .none⟩

/-- A load of the literal `value`. -/
def loadString (value : String) : Instr :=
  ⟨.loadString, .text value⟩

/-! ### Queries -/

/-- A constant load, with whatever operand. -/
def isLoadInt (instr : Instr) : Bool :=
  instr.opcode = .loadInt

/-- A call, with whatever operand. -/
def isCall (instr : Instr) : Bool :=
  instr.opcode = .call

/-- The constant that the instruction loads. -/
def constant? : Instr → Option Int32
  | ⟨.loadInt, .int value⟩ => some value
  | _ => none

/-- The routine that the instruction calls by token. -/
def callee? : Instr → Option Token
  | ⟨.call, .member token⟩ => some token
  | _ => none

/-- The literal that the instruction loads. -/
def literal? : Instr → Option String
  | ⟨.loadString, .text value⟩ => some value
  | _ => none

/-- The static field that the instruction loads. -/
def field? : Instr → Option Token
  | ⟨.loadField, .member token⟩ => some token
  | _ => none

/-- The arithmetic operation that the instruction performs. -/
def arithOp? : Instr → Option ArithOp
  | ⟨.arith op, _⟩ => some op
  | _ => none

/-- A load of the routine's first argument. -/
def isFirstArg (instr : Instr) : Bool :=
  instr.opcode = .loadArg && instr.operand = .arg 0

/-- The instruction as a line of a listing. -/
def render (instr : Instr) : String :=
  instr.opcode.mnemonic ++ instr.operand.render

end Instr
end LiteralRecovery
