import LiteralRecovery.Decoder.Pool

/-!
# Which decoders a pool has

A pool is filled decoder by decoder, from routines that may share a token, and is asked by token.
What is found goes back to a routine of the assembly: a candidate, or a stand-in if there is no
candidate. Either way a call of it takes one value from the stack and leaves one, as far as is
known.

## Main definitions

* `IsFirstIn`, `IsLastIn`: the first and the last member of a list with a property

## Main results

* `Pool.find?_insertAll`: which decoder of a token a pool has
* `Pool.standsIn_of_contains`: decoders take one value and leave one
* `Pool.isExact_ofAssembly`: routines from an integer to a string are exact decoders
-/

namespace LiteralRecovery

/-! ### The first and the last of a list -/

section FirstLast

variable {α : Type}

/-- The first member with the property. -/
def IsFirstIn (p : α → Prop) (members : List α) (member : α) : Prop :=
  ∃ before after, members = before ++ member :: after ∧ p member ∧ ∀ other ∈ before, ¬ p other

/-- The last member with the property. -/
def IsLastIn (p : α → Prop) (members : List α) (member : α) : Prop :=
  ∃ before after, members = before ++ member :: after ∧ p member ∧ ∀ other ∈ after, ¬ p other

variable {members : List α} {member : α}

theorem IsLastIn.prop {p : α → Prop} (h : IsLastIn p members member) : p member := by
  obtain ⟨-, -, -, hmember, -⟩ := h
  exact hmember

theorem find?_eq_some_iff_isFirstIn {p : α → Bool} :
    members.find? p = some member ↔ IsFirstIn (fun other => p other) members member := by
  rw [List.find?_eq_some_iff_append, IsFirstIn]
  simp only [Bool.not_eq_true', Bool.not_eq_true]
  constructor
  · rintro ⟨hmember, before, after, hsplit, hbefore⟩
    exact ⟨before, after, hsplit, hmember, hbefore⟩
  · rintro ⟨before, after, hsplit, hmember, hbefore⟩
    exact ⟨hmember, before, after, hsplit, hbefore⟩

/-- From the end the last member comes first. -/
theorem isFirstIn_reverse_iff {p : α → Prop} :
    IsFirstIn p members.reverse member ↔ IsLastIn p members member := by
  constructor
  · rintro ⟨before, after, hsplit, hmember, hbefore⟩
    refine ⟨after.reverse, before.reverse, ?_, hmember, by simpa using hbefore⟩
    rw [List.reverse_eq_append_iff] at hsplit
    simpa using hsplit
  · rintro ⟨before, after, rfl, hmember, hafter⟩
    exact ⟨after.reverse, before.reverse, by simp, hmember, by simpa using hafter⟩

theorem find?_reverse_eq_some_iff {p : α → Bool} :
    members.reverse.find? p = some member ↔ IsLastIn (fun other => p other) members member := by
  rw [find?_eq_some_iff_isFirstIn, isFirstIn_reverse_iff]

/-- There is a last member with a property if there is one at all. -/
theorem exists_isLastIn_iff {p : α → Prop} :
    (∃ member, IsLastIn p members member) ↔ ∃ member ∈ members, p member := by
  classical
  have hfind : ∀ member, IsLastIn p members member ↔
      members.reverse.find? (fun other => p other) = some member := by
    intro member
    rw [find?_reverse_eq_some_iff]
    simp only [decide_eq_true_eq]
  simp only [hfind, ← Option.isSome_iff_exists, List.find?_isSome, List.mem_reverse,
    decide_eq_true_eq]

end FirstLast

/-! ### Decoders and their routines -/

theorem Signature.effect_of_candidate {signature : Signature} (hint : signature.takesSingleInt)
    (hvalue : signature.returnsValue) :
    signature.effect.pops = 1 ∧ signature.effect.pushes = 1 := by
  have hparams : signature.params = [.int32] := of_decide_eq_true hint
  simp [effect, hparams, hvalue]

namespace Decoder

theorem routine_of_ofRoutine? {config : Config} {assembly : Assembly} {routine : Routine}
    {decoder : Decoder} (h : ofRoutine? config assembly routine = some decoder) :
    decoder.routine = routine.token := by
  unfold ofRoutine? at h
  split at h
  · cases h
  · split at h
    · rw [← Option.some.inj h]
    · cases h

/-- A candidate could stand in, too. -/
theorem standsIn_of_ofRoutine? {config : Config} {assembly : Assembly} {routine : Routine}
    {decoder : Decoder} (h : ofRoutine? config assembly routine = some decoder) :
    standsIn routine := by
  unfold ofRoutine? at h
  split at h
  next => cases h
  next signature hsignature =>
    rw [Option.ite_none_right_eq_some, Bool.and_eq_true, Bool.and_eq_true] at h
    obtain ⟨⟨⟨hstatic, hint⟩, hvalue⟩, -⟩ := h
    obtain ⟨hpops, hpushes⟩ := Signature.effect_of_candidate hint hvalue
    simp [standsIn, hstatic, hsignature, hpops, hpushes]

theorem standIn?_eq_some_iff {routine : Routine} {decoder : Decoder} :
    standIn? routine = some decoder ↔
      standsIn routine ∧ ⟨routine.token, routine.name, false, .unknown⟩ = decoder := by
  rw [standIn?, Option.ite_none_right_eq_some, Option.some.injEq]

end Decoder

/-! ### Pools -/

namespace Pool

/-- Of the decoders with a token the one inserted last is found. -/
theorem find?_insertAll (pool : Pool) (decoders : List Decoder) (token : Token) :
    (pool.insertAll decoders).find? token =
      (decoders.reverse.find? (·.routine = token)).or (pool.find? token) := by
  induction decoders generalizing pool with
  | nil => simp [insertAll]
  | cons decoder rest ih =>
    have hstep : pool.insertAll (decoder :: rest) = (pool.insert decoder).insertAll rest := rfl
    rw [hstep, ih, find?_insert, List.reverse_cons, List.find?_append, Option.or_assoc]
    congr 1
    by_cases h : decoder.routine = token <;> simp [h]

theorem exists_mem_of_contains_insertAll {fallback : Bool} {decoders : List Decoder}
    {token : Token} (h : (insertAll ⟨[], fallback⟩ decoders).contains token) :
    ∃ decoder ∈ decoders, decoder.routine = token := by
  obtain ⟨decoder, hfind⟩ := Option.isSome_iff_exists.mp h
  have hnone : find? ⟨[], fallback⟩ token = none := rfl
  rw [find?_insertAll, hnone, Option.or_none] at hfind
  exact ⟨decoder, List.mem_reverse.mp (List.mem_of_find?_eq_some hfind),
    by simpa using List.find?_some hfind⟩

/-- **Decoders take one value and leave one**, as far as is known: the candidates of an assembly as
well as the stand-ins. -/
theorem standsIn_of_contains {config : Config} {assembly : Assembly} {token : Token}
    (h : (ofAssembly config assembly).contains token) :
    ∃ routine ∈ assembly.routines, routine.token = token ∧ Decoder.standsIn routine := by
  unfold ofAssembly at h
  split at h
  next =>
    obtain ⟨decoder, hdecoder, rfl⟩ := exists_mem_of_contains_insertAll h
    obtain ⟨routine, hroutine, hstandIn⟩ := List.mem_filterMap.mp hdecoder
    obtain ⟨hstands, rfl⟩ := Decoder.standIn?_eq_some_iff.mp hstandIn
    exact ⟨routine, hroutine, rfl, hstands⟩
  next =>
    obtain ⟨decoder, hdecoder, rfl⟩ := exists_mem_of_contains_insertAll h
    obtain ⟨routine, hroutine, hcandidate⟩ := List.mem_filterMap.mp hdecoder
    exact ⟨routine, hroutine, (Decoder.routine_of_ofRoutine? hcandidate).symm,
      Decoder.standsIn_of_ofRoutine? hcandidate⟩

/-- If there are candidates, they are the pool. -/
theorem ofAssembly_of_candidates {config : Config} {assembly : Assembly}
    (h : candidates config assembly ≠ []) :
    ofAssembly config assembly = insertAll empty (candidates config assembly) := by
  unfold ofAssembly
  split
  next hnone => exact absurd hnone h
  next => rfl

/-- If there are none, the stand-ins are. -/
theorem ofAssembly_of_no_candidates {config : Config} {assembly : Assembly}
    (h : candidates config assembly = []) :
    ofAssembly config assembly =
      insertAll ⟨[], true⟩ (assembly.routines.filterMap Decoder.standIn?) := by
  unfold ofAssembly
  rw [h]

/-- A static routine from an integer to a string is an exact decoder of its assembly's pool, unless
another routine has its token. -/
theorem isExact_ofAssembly {config : Config} {assembly : Assembly} {routine : Routine}
    (hmem : routine ∈ assembly.routines)
    (halone : ∀ other ∈ assembly.routines, other.token = routine.token → other = routine)
    (hstatic : routine.isStatic) (hsignature : routine.signature = some Signature.decoder) :
    (ofAssembly config assembly).isExact routine.token := by
  have hself : Decoder.ofRoutine? config assembly routine =
      some ⟨routine.token, routine.name, true, Shape.classify config assembly routine⟩ := by
    simp [Decoder.ofRoutine?, hsignature, hstatic, Signature.decoder, Signature.takesSingleInt,
      Signature.returnsValue, Signature.isExact]
  have hcandidate : ⟨routine.token, routine.name, true, Shape.classify config assembly routine⟩ ∈
      candidates config assembly := List.mem_filterMap.mpr ⟨routine, hmem, hself⟩
  have hpool := ofAssembly_of_candidates (List.ne_nil_of_mem hcandidate)
  have hsome : ((candidates config assembly).reverse.find? (·.routine = routine.token)).isSome :=
    List.find?_isSome.mpr ⟨_, List.mem_reverse.mpr hcandidate, by simp⟩
  obtain ⟨found, hfound⟩ := Option.isSome_iff_exists.mp hsome
  obtain ⟨origin, horigin, horiginates⟩ := List.mem_filterMap.mp
    (List.mem_reverse.mp (List.mem_of_find?_eq_some hfound))
  have htoken : origin.token = routine.token := by
    rw [← Decoder.routine_of_ofRoutine? horiginates]
    simpa using List.find?_some hfound
  rw [halone origin horigin htoken, hself] at horiginates
  rw [isExact, hpool, find?_insertAll, hfound, ← Option.some.inj horiginates]
  rfl

theorem contains_of_isExact {pool : Pool} {token : Token} (h : pool.isExact token) :
    pool.contains token := by
  unfold isExact at h
  unfold contains
  cases hfind : pool.find? token with
  | none => simp [hfind] at h
  | some decoder => rfl

end Pool
end LiteralRecovery
