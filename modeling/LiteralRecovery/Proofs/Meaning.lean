import LiteralRecovery.Proofs.Edits

/-!
# What bodies do

A body is executed here as a straight line of instructions on a machine with a stack. Of the
instructions only those are fixed that a run reads or writes: loads of integers and strings put
these on the stack, an operation without effect has none, and a call of a decoder replaces an
integer by the string that decoding finds for it. What any other instruction does is left open, and
so is what a decoder does to an integer that decoding finds nothing for, or to something that is not
an integer. It may read and change the whole machine, and it may get stuck.

With a window of one instruction a constant is found right in front of its call or not at all. Then
nothing stands between the two that could see the difference, and a run does not change what bodies
do.

## Main definitions

* `Machine`: a stack of values, and whatever else there is
* `Context.answer?`: the string that a decoder gives for an integer
* `Context.perform`, `Context.execute`: one instruction, and a body

## Main results

* `Context.execute_edit`, `Context.execute_editAll`: edits of adjacent pairs are of no effect
* `meaning_after_run`: what bodies do after a run
-/

namespace LiteralRecovery

universe u v

/-! ### Machines -/

/-- A value on the stack. -/
inductive Value (α : Type u) where
  | int (value : Int32)
  | text (value : String)
  | other (value : α)

/-- A stack, with its top first, and whatever else instructions may act on. -/
structure Machine (α : Type u) (β : Type v) where
  stack : List (Value α)
  rest : β

/-- The machine with one more value on its stack. -/
def Machine.push {α : Type u} {β : Type v} (machine : Machine α β) (value : Value α) :
    Machine α β :=
  { machine with stack := value :: machine.stack }

namespace Context

variable {α : Type u} {β : Type v}

/-- The string that a decoder of the pool gives for an integer, as far as decoding finds it. -/
def answer? (context : Context) (decoder : Token) (constant : Int32) : Option String :=
  if context.pool.contains decoder then
    (LiteralRecovery.decode? context.config context.blob (context.pool.find? decoder)
      (context.pool.population context.config (some decoder) constant) constant).map (·.value)
  else none

/-- One instruction, if it does not get stuck. All that is not fixed is done by `other`. -/
def perform (context : Context) (other : Instr → Machine α β → Option (Machine α β))
    (instr : Instr) (machine : Machine α β) : Option (Machine α β) :=
  match instr, machine.stack with
  | ⟨.loadInt, .int constant⟩, _ => some (machine.push (.int constant))
  | ⟨.loadString, .text value⟩, _ => some (machine.push (.text value))
  | ⟨.nop, _⟩, _ => some machine
  | ⟨.call, .member decoder⟩, .int constant :: stack =>
    match context.answer? decoder constant with
    | some value => some { machine with stack := .text value :: stack }
    | none => other instr machine
  | _, _ => other instr machine

/-- The instructions of a body, one after the other. -/
def execute (context : Context) (other : Instr → Machine α β → Option (Machine α β))
    (body : Body) (machine : Machine α β) : Option (Machine α β) :=
  body.foldlM (fun machine instr => context.perform other instr machine) machine

variable {context : Context} {other : Instr → Machine α β → Option (Machine α β)}

theorem execute_append (front back : Body) (machine : Machine α β) :
    context.execute other (front ++ back) machine =
      (context.execute other front machine).bind (context.execute other back) :=
  List.foldlM_append

theorem execute_cons (instr : Instr) (rest : Body) (machine : Machine α β) :
    context.execute other (instr :: rest) machine =
      (context.perform other instr machine).bind (context.execute other rest) :=
  List.foldlM_cons

/-! ### Edits -/

/-- A pair and the literal in its place leave the same machine behind. -/
theorem execute_pair {decoder : Token} {constant : Int32} {value : String}
    (hanswer : context.answer? decoder constant = some value) (back : Body)
    (machine : Machine α β) :
    context.execute other (Instr.loadInt constant :: Instr.callTo decoder :: back) machine =
      context.execute other (Instr.nop :: Instr.loadString value :: back) machine := by
  have hload : context.perform other (Instr.loadInt constant) machine =
      some (machine.push (.int constant)) := rfl
  have hcall : context.perform other (Instr.callTo decoder) (machine.push (.int constant)) =
      some (machine.push (.text value)) := by
    simp only [perform, Instr.callTo, Machine.push, hanswer]
  have hnop : context.perform other Instr.nop machine = some machine := rfl
  have hstring : context.perform other (Instr.loadString value) machine =
      some (machine.push (.text value)) := rfl
  simp only [execute_cons, hload, hcall, hnop, hstring, Option.bind_some]

end Context

/-- Where load and call are next to each other, an edit replaces one pair by another. -/
theorem Recovery.FoundIn.exists_split {recovery : Recovery} {body : Body}
    (h : recovery.FoundIn body) (hadjacent : recovery.call = recovery.load + 1) :
    ∃ front back,
      body = front ++ Instr.loadInt recovery.constant :: Instr.callTo recovery.decoder :: back ∧
      recovery.edit body = front ++ Instr.nop :: Instr.loadString recovery.value :: back := by
  obtain ⟨hloadlt, hload⟩ := List.getElem?_eq_some_iff.mp h.load
  have hcall := h.call
  rw [hadjacent] at hcall
  obtain ⟨hcalllt, hcall⟩ := List.getElem?_eq_some_iff.mp hcall
  have hsplit : body = body.take recovery.load ++ Instr.loadInt recovery.constant ::
      Instr.callTo recovery.decoder :: body.drop (recovery.load + 2) := by
    rw [← hload, ← hcall, List.getElem_cons_drop, List.getElem_cons_drop, List.take_append_drop]
  have hfront : (body.take recovery.load).length = recovery.load := by
    rw [List.length_take, Nat.min_eq_left hloadlt.le]
  refine ⟨_, _, hsplit, ?_⟩
  generalize body.take recovery.load = front at hsplit hfront ⊢
  generalize body.drop (recovery.load + 2) = back at hsplit ⊢
  rw [hsplit, Recovery.edit, hadjacent, ← hfront]
  simp

namespace Context

variable {α : Type u} {β : Type v} {context : Context} {routine : Routine} {recovery : Recovery}
  {other : Instr → Machine α β → Option (Machine α β)}

/-- The recovery replaces an adjacent pair by what its decoder gives for its constant. -/
structure Exact (context : Context) (recovery : Recovery) : Prop where
  adjacent : recovery.call = recovery.load + 1
  answer : context.answer? recovery.decoder recovery.constant = some recovery.value

/-- **One edit** is of no effect on what a body does. -/
theorem execute_edit {body : Body} (hexact : context.Exact recovery) (h : recovery.FoundIn body)
    (machine : Machine α β) :
    context.execute other (recovery.edit body) machine = context.execute other body machine := by
  obtain ⟨front, back, hbody, hedit⟩ := h.exists_split hexact.adjacent
  rw [hedit, hbody, execute_append, execute_append]
  refine congrArg _ (funext fun next => ?_)
  exact (execute_pair hexact.answer back next).symm

/-- **All edits** together are of no effect. -/
theorem execute_editAll {edits : List Recovery} {body : Body}
    (hexact : ∀ recovery ∈ edits, context.Exact recovery) (h : Recovery.AllFoundIn edits body)
    (machine : Machine α β) :
    context.execute other (Recovery.editAll edits body) machine =
      context.execute other body machine := by
  refine Recovery.AllFoundIn.induct (motive := fun edits body =>
    context.execute other (Recovery.editAll edits body) machine =
      context.execute other body machine) ?_ ?_ hexact h
  · intro body
    rfl
  · intro recovery rest body hrecovery hfound ih
    rw [Recovery.editAll_cons, ih]
    exact execute_edit hrecovery hfound machine

/-! ### A run -/

/-- What is recovered is what the decoder gives, wherever the answer came from: the cache and the
strategies have no say in it, and the population is that of the decoder and the constant. -/
theorem answer?_of_mem_recoveriesOf (h : recovery ∈ context.recoveriesOf routine) :
    context.answer? recovery.decoder recovery.constant = some recovery.value := by
  have hpool := contains_of_mem_recoveriesOf h
  obtain ⟨site, hsite, decoder, candidate, htarget, hdecode, rfl⟩ := mem_recoveriesOf_iff.mp h
  rw [decode?_eq_of_routes (routes_of_mem_sites hsite) htarget] at hdecode
  rw [answer?, if_pos hpool]
  exact congrArg (Option.map (·.value)) hdecode

theorem exact_of_mem_recoveriesOf (hlookback : context.config.lookback = 1)
    (h : recovery ∈ context.recoveriesOf routine) : context.Exact recovery := by
  refine ⟨?_, answer?_of_mem_recoveriesOf h⟩
  obtain ⟨site, hsite, decoder, candidate, -, -, rfl⟩ := mem_recoveriesOf_iff.mp h
  have hlt := Pool.load_lt_call hsite
  have hle := Pool.call_le_load_add hsite
  rw [hlookback] at hle
  exact Nat.le_antisymm hle hlt

/-- With a window of one instruction a routine does after processing what it did before. -/
theorem execute_rewrite (hlookback : context.config.lookback = 1) (routine : Routine)
    (machine : Machine α β) :
    context.execute other (context.rewrite routine).instrs machine =
      context.execute other routine.instrs machine := by
  rw [instrs_rewrite]
  exact execute_editAll (fun recovery h => exact_of_mem_recoveriesOf hlookback h)
    (context.allFoundIn_recoveriesOf routine) machine

end Context

/-- With a window of one instruction, every routine does at the end of a run what it did before, in
whatever way the run came to its end. -/
theorem Engine.Ends.exists_execute_eq {engine : Engine} {supply : WorkerSupply}
    {assembly after : Assembly} {result : Except Error Report} {blob : Blob}
    (h : engine.Ends supply assembly after result) (hlookback : engine.config.lookback = 1)
    (hblob : Blob.resolve engine.config assembly.slots = .ok blob) {k : Nat} {before : Routine}
    (hk : assembly.routines[k]? = some before) :
    ∃ new, after.routines[k]? = some new ∧
      ∀ (α : Type u) (β : Type v) (other : Instr → Machine α β → Option (Machine α β))
        (machine : Machine α β),
        (engine.context assembly blob).execute other new.instrs machine =
          (engine.context assembly blob).execute other before.instrs machine := by
  cases h with
  | refused => exact ⟨before, hk, fun _ _ _ _ => rfl⟩
  | processed ready rewrites tally =>
    obtain rfl := Except.ok.inj ((Config.prepare_eq_ok_iff.mp ready).1.symm.trans hblob)
    obtain ⟨new, hnew, rfl | rfl⟩ := exists_getElem?_of_forall₂ rewrites.forall₂ hk
    · exact ⟨_, hnew, fun α β other => Context.execute_rewrite hlookback before⟩
    · exact ⟨new, hnew, fun _ _ _ _ => rfl⟩

/-- **What bodies do after a run.** With a window of one instruction, every routine takes every
machine to the same one as before, or gets stuck as before, whatever the instructions do that a run
neither reads nor writes. A run that fails leaves all routines as they are. -/
theorem meaning_after_run (engine : Engine) (supply : WorkerSupply) (stop : Option Nat)
    (assembly : Assembly) (hlookback : engine.config.lookback = 1) :
    (∀ error, (engine.runUntil supply stop assembly).result = .error error →
      (engine.runUntil supply stop assembly).assembly = assembly) ∧
    ∀ blob, Blob.resolve engine.config assembly.slots = .ok blob →
      ∀ (k : Nat) (before : Routine), assembly.routines[k]? = some before →
        ∃ after, (engine.runUntil supply stop assembly).assembly.routines[k]? = some after ∧
          ∀ (α : Type u) (β : Type v) (other : Instr → Machine α β → Option (Machine α β))
            (machine : Machine α β),
            (engine.context assembly blob).execute other after.instrs machine =
              (engine.context assembly blob).execute other before.instrs machine := by
  refine ⟨fun error herror => ?_, fun blob hblob k before hk => ?_⟩
  · exact (Engine.ends_runUntil herror).eq_of_error
  · exact (Engine.ends_runUntil rfl).exists_execute_eq hlookback hblob hk

namespace Sample

/-- An engine with a window of one instruction. -/
def adjacentEngine : Engine :=
  .ofConfig { blobSlot := some "data", lookback := 1 }

/-- A machine that passes over what is not fixed, and counts how often. -/
def passOver (_ : Instr) (machine : Machine Empty Nat) : Option (Machine Empty Nat) :=
  some { machine with rest := machine.rest + 1 }

end Sample

/-- The first pair of the small assembly becomes a literal. The second one is not adjacent and
stays: its call is executed, and decoding has no string for the integer. -/
theorem meaning_after_run_sample :
    ∃ after,
      (Sample.adjacentEngine.runUntil Sample.supply none Sample.assembly).assembly.routines[1]? =
        some after ∧
      after.instrs[1]? = some (Instr.loadString "hi") ∧
      (Sample.adjacentEngine.context Sample.assembly Sample.blob).execute Sample.passOver
        after.instrs ⟨[], 0⟩ = some ⟨[.int 7, .text "hi"], 2⟩ := by
  obtain ⟨after, hafter, hmeaning⟩ :=
    (meaning_after_run Sample.adjacentEngine Sample.supply none Sample.assembly rfl).2 Sample.blob
      rfl 1 Sample.main rfl
  refine ⟨after, hafter, ?_, ?_⟩
  · obtain rfl := Option.some.inj hafter
    rfl
  · rw [hmeaning]
    rfl

end LiteralRecovery
