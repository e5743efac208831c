import LiteralRecovery.Decoder.Pool
import LiteralRecovery.Strategy

/-!
# Call sites

A call site is a call of a decoder, or one whose target is not known, together with the constant
load that feeds it. The load is searched for backwards from the call, through a bounded number of
instructions and not past another call or a string load.
-/

namespace LiteralRecovery

/-- A call and the constant load in front of it. -/
structure Site where
  routine : Token
  load : Nat
  call : Nat
  constant : Int32
  target : Option Token
  population : Population
deriving DecidableEq, Repr

namespace Site

/-- Whether the target of the call is not known. -/
def isAmbiguous (site : Site) : Bool :=
  site.target.isNone

/-- The site in words. -/
def render (site : Site) : String :=
  site.routine.render ++ "@" ++ toString site.load ++ ".." ++ toString site.call ++ " ldc "
    ++ Text.hexConstant site.constant ++ " -> "
    ++ match site.target with
      | some token => token.render
      | none => "<indirect>"

end Site

/-- An instruction that ends the search for a constant load. -/
def Instr.endsSearch (instr : Instr) : Bool :=
  instr.opcode = .call || instr.opcode = .loadString

/-- The last constant load among the `window` instructions in front of `index`, with the constant,
unless an instruction that ends the search comes after it. -/
def constantBefore? (code : Array Instr) : (window index : Nat) → Option (Nat × Int32)
  | 0, _ => none
  | _, 0 => none
  | window + 1, index + 1 =>
    match code[index]? with
    | none => none
    | some instr =>
      match instr.constant? with
      | some constant => some (index, constant)
      | none => if instr.endsSearch then none else constantBefore? code window index

namespace Pool

/-- Whether a call with the target, if it is known, may be a call site. -/
def admits (pool : Pool) (target : Option Token) : Bool :=
  target.all pool.contains

/-- Short for a short constant that no exact decoder gets, full for any other. -/
def population (pool : Pool) (config : Config) (target : Option Token) (constant : Int32) :
    Population :=
  if !target.any pool.isExact && config.isShort constant then .short else .full

/-- The call site of a routine whose call is the instruction at the index of its code. -/
def siteAt? (pool : Pool) (config : Config) (routine : Token) (code : Array Instr) (instr : Instr)
    (index : Nat) : Option Site :=
  if instr.isCall && pool.admits instr.callee? then
    (constantBefore? code config.lookback index).map fun (load, constant) =>
      { routine := routine, load := load, call := index, constant := constant,
        target := instr.callee?, population := pool.population config instr.callee? constant }
  else none

/-- The call sites of a routine, in the order of their calls. -/
def sites (pool : Pool) (config : Config) (routine : Routine) : List Site :=
  let code := routine.instrs.toArray
  routine.instrs.zipIdx.filterMap fun (instr, index) =>
    pool.siteAt? config routine.token code instr index

end Pool
end LiteralRecovery
