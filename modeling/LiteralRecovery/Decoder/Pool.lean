import LiteralRecovery.Decoder.Shape

/-!
# The pool of decoders

The routines that call sites are looked for. A static routine from one integer to a value is a
decoder candidate, and an exact one if the value is a string. If the assembly has none, every
static routine that could stand in is taken instead.
-/

namespace LiteralRecovery

/-- A routine that may decode strings. -/
structure Decoder where
  routine : Token
  name : String
  exact : Bool
  shape : Shape
deriving DecidableEq, Repr

namespace Decoder

/-- The chain of arithmetic that the decoder applies to its argument. -/
def transform? (decoder : Decoder) : Option Transform :=
  decoder.shape.transform?

/-- A static routine from one integer to a value, as a decoder. Routines that are not static also
take their receiver from the stack. -/
def ofRoutine? (config : Config) (assembly : Assembly) (routine : Routine) : Option Decoder :=
  match routine.signature with
  | none => none
  | some signature =>
    if routine.isStatic && signature.takesSingleInt && signature.returnsValue then
      some ⟨routine.token, routine.name, signature.isExact,
        Shape.classify config assembly routine⟩
    else none

/-- A call of it would replace one value on the stack by another, as far as is known. -/
def standsIn (routine : Routine) : Bool :=
  routine.isStatic &&
    match routine.signature with
    | none => true
    | some signature => signature.effect.pops = 1 && signature.effect.pushes = 1

/-- A routine that can stand in for a decoder, with nothing known about it. -/
def standIn? (routine : Routine) : Option Decoder :=
  if standsIn routine then some ⟨routine.token, routine.name, false, .unknown⟩ else none

end Decoder

/-- Decoders with distinct tokens, and whether they are only stand-ins. -/
structure Pool where
  decoders : List Decoder
  fallback : Bool
deriving DecidableEq, Repr

namespace Pool

/-- No decoders. -/
def empty : Pool :=
  ⟨[], false⟩

/-- The pool with a decoder added; one of the same token is replaced. -/
def insert (pool : Pool) (decoder : Decoder) : Pool :=
  { pool with decoders := pool.decoders.filter (·.routine ≠ decoder.routine) ++ [decoder] }

/-- The pool with decoders added in order. -/
def insertAll (pool : Pool) (decoders : List Decoder) : Pool :=
  decoders.foldl insert pool

/-- The decoder with the token. -/
def find? (pool : Pool) (token : Token) : Option Decoder :=
  pool.decoders.find? (·.routine = token)

/-- The decoder inserted last is the one that is found. -/
theorem find?_insert (pool : Pool) (decoder : Decoder) (token : Token) :
    (pool.insert decoder).find? token =
      if decoder.routine = token then some decoder else pool.find? token := by
  unfold insert find?
  rw [List.find?_append]
  split
  next h =>
    have gone : (pool.decoders.filter (·.routine ≠ decoder.routine)).find? (·.routine = token) =
        none := by
      rw [List.find?_eq_none]
      simp [h]
    rw [gone, Option.none_or, List.find?_cons_of_pos (by simpa using h)]
  next h =>
    have kept : (pool.decoders.filter (·.routine ≠ decoder.routine)).find? (·.routine = token) =
        pool.decoders.find? (·.routine = token) := by
      rw [List.find?_filter]
      congr 1
      funext held
      by_cases ht : held.routine = token <;> simp [ht, Ne.symm h]
    rw [kept, List.find?_cons_of_neg (by simpa using h), List.find?_nil, Option.or_none]

/-- Whether some decoder has the token. -/
def contains (pool : Pool) (token : Token) : Bool :=
  (pool.find? token).isSome

/-- Whether the token is that of an exact decoder. -/
def isExact (pool : Pool) (token : Token) : Bool :=
  (pool.find? token).any (·.exact)

/-- The number of decoders. -/
def size (pool : Pool) : Nat :=
  pool.decoders.length

/-- The decoders in token order. -/
def sorted (pool : Pool) : List Decoder :=
  pool.decoders.mergeSort fun a b => a.routine.le b.routine

/-- The decoder candidates of an assembly, in order and with repetitions. -/
def candidates (config : Config) (assembly : Assembly) : List Decoder :=
  assembly.routines.filterMap (Decoder.ofRoutine? config assembly)

/-- The pool of an assembly: its candidates, or the stand-ins if there are none. -/
def ofAssembly (config : Config) (assembly : Assembly) : Pool :=
  match candidates config assembly with
  | [] => insertAll ⟨[], true⟩ (assembly.routines.filterMap Decoder.standIn?)
  | found => insertAll empty found

end Pool
end LiteralRecovery
