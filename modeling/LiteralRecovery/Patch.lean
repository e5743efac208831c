import LiteralRecovery.Error
import LiteralRecovery.Site

/-!
# Patching call sites

A patch puts a literal in the place of a call site: the constant load becomes an operation without
effect and the call becomes a string load, so every other instruction keeps its position. A site
whose instructions are no longer the recorded ones is refused.
-/

namespace LiteralRecovery

/-- How a routine differs from what a call site recorded. -/
inductive Mismatch where
  /-- The site is one of another routine. -/
  | otherRoutine (token : Token)
  /-- The load does not come before the call. -/
  | loadNotFirst
  /-- The routine has no body. -/
  | noBody
  /-- The constant is not loaded where it should be. -/
  | noConstant (constant : Int32)
  /-- Nothing is called where a call should be. -/
  | noCall
deriving DecidableEq, Repr

namespace Mismatch

/-- The mismatch in words. -/
def detail : Mismatch → String
  | otherRoutine token => "call site belongs to " ++ token.render
  | loadNotFirst => "constant load does not precede the call"
  | noBody => "routine has no body"
  | noConstant constant => "expected ldc.i4 " ++ Text.hexConstant constant
  | noCall => "expected call"

/-- The position that the mismatch is about. -/
def index (site : Site) : Mismatch → Nat
  | otherRoutine _ => site.call
  | loadNotFirst => site.load
  | noBody => site.call
  | noConstant _ => site.load
  | noCall => site.call

/-- The mismatch as an error of the routine with the token. -/
def error (mismatch : Mismatch) (routine : Token) (site : Site) : Error :=
  .staleSite routine (mismatch.index site) mismatch.detail

end Mismatch

namespace Routine

/-- The first mismatch between a routine and a call site. -/
def mismatch? (routine : Routine) (site : Site) : Option Mismatch :=
  if site.routine ≠ routine.token then some (.otherRoutine site.routine)
  else if site.call ≤ site.load then some .loadNotFirst
  else
    match routine.body with
    | none => some .noBody
    | some body =>
      if body[site.load]?.bind Instr.constant? ≠ some site.constant then
        some (.noConstant site.constant)
      else if !body[site.call]?.any Instr.isCall then some .noCall
      else none

/-- The routine with the literal in the place of the call site. -/
def putLiteral (routine : Routine) (site : Site) (value : String) : Routine :=
  { routine with
    body := routine.body.map fun body =>
      (body.set site.load Instr.nop).set site.call (Instr.loadString value) }

/-- A site matches exactly if it is one of the routine, its load comes before its call, and the
body has its constant load and a call at the recorded positions. -/
theorem mismatch?_eq_none_iff {routine : Routine} {site : Site} :
    routine.mismatch? site = none ↔
      site.routine = routine.token ∧ site.load < site.call ∧ routine.hasBody ∧
        routine.instrs[site.load]?.bind Instr.constant? = some site.constant ∧
        routine.instrs[site.call]?.any Instr.isCall := by
  by_cases owner : site.routine = routine.token
  case neg => simp [mismatch?, owner]
  by_cases order : site.call ≤ site.load
  case pos => simp [mismatch?, owner, order, Nat.not_lt.mpr order]
  cases hbody : routine.body with
  | none => simp [mismatch?, hasBody, hbody, owner, order]
  | some body =>
    by_cases load : body[site.load]?.bind Instr.constant? = some site.constant <;>
      by_cases call : body[site.call]?.any Instr.isCall <;>
      simp [mismatch?, hasBody, instrs, hbody, owner, order, load, call, Nat.not_le.mp order]

@[simp] theorem token_putLiteral (routine : Routine) (site : Site) (value : String) :
    (routine.putLiteral site value).token = routine.token :=
  rfl

@[simp] theorem hasBody_putLiteral (routine : Routine) (site : Site) (value : String) :
    (routine.putLiteral site value).hasBody = routine.hasBody := by
  simp [putLiteral, hasBody]

@[simp] theorem instrs_putLiteral (routine : Routine) (site : Site) (value : String) :
    (routine.putLiteral site value).instrs =
      (routine.instrs.set site.load Instr.nop).set site.call (Instr.loadString value) := by
  cases h : routine.body <;> simp [putLiteral, instrs, h]

end Routine

/-- A routine under patching, and how many sites were patched. -/
structure Patcher where
  routine : Routine
  patched : Nat
deriving DecidableEq, Repr

namespace Patcher

/-- Nothing patched yet. -/
def start (routine : Routine) : Patcher :=
  ⟨routine, 0⟩

/-- Puts a literal in the place of a call site, or says why that is refused. -/
def patch (patcher : Patcher) (site : Site) (value : String) : Except Error Patcher :=
  match patcher.routine.mismatch? site with
  | some mismatch => .error (mismatch.error patcher.routine.token site)
  | none => .ok ⟨patcher.routine.putLiteral site value, patcher.patched + 1⟩

/-- The routine in the end, marked as changed if a site was patched, and how many sites were. -/
def finish (patcher : Patcher) : Routine × Nat :=
  (if 0 < patcher.patched then patcher.routine.markDirty else patcher.routine, patcher.patched)

@[simp] theorem finish_snd (patcher : Patcher) : patcher.finish.2 = patcher.patched :=
  rfl

end Patcher
end LiteralRecovery
