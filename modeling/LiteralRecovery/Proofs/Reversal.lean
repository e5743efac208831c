import LiteralRecovery.Proofs.Provenance
import Mathlib.Algebra.Ring.Int.Parity
import Mathlib.Data.FinEnum
import Mathlib.RingTheory.Coprime.Lemmas

/-!
# Which chains of arithmetic can be undone

A decoder may run its argument through a chain of arithmetic. Every call site then names its record
by a number that the chain takes to the offset. Whether a record has such a number at all, and
whether it has only one, depends on the chain, and here only on its multiplications: a chain is a
bijection of the 32-bit integers exactly if every factor in it is odd.

An exclusive or, an addition and a subtraction can be undone whatever the constant. An odd factor
has no divisor in common with `2 ^ 32`, so a product modulo `2 ^ 32` determines the other factor. An
even factor takes zero and `-2 ^ 31` to the same value. No later step repairs such a collision, and
no earlier one avoids it: there are only finitely many integers, so the steps in front of the factor
reach both numbers, or they have a collision of their own (`Transform.bijective_cons_iff`).

## Main definitions

* `Transform.HasOddFactors`: every factor of the chain is odd

## Main results

* `ArithOp.bijective_apply_iff`: one step
* `Transform.bijective_cons_iff`: a chain is reversible if all of its steps are
* `chain_reversible_iff_factors_odd`
-/

namespace LiteralRecovery

open Function

/-! ### One step -/

namespace ArithOp

/-- A product with an odd factor determines the other factor. -/
theorem injective_mul_of_odd {factor : Int32} (hodd : Odd factor.toInt) :
    Injective (ArithOp.mul.apply · factor) := by
  have hcoprime : IsCoprime ((2 : Int) ^ 32) factor.toInt := by
    obtain ⟨half, hhalf⟩ := hodd
    exact IsCoprime.pow_left ⟨-half, 1, by rw [hhalf]; ring⟩
  intro first second hproducts
  have hwrapped : (first.toInt * factor.toInt).bmod (2 ^ 32) =
      (second.toInt * factor.toInt).bmod (2 ^ 32) := by
    rw [← Int32.toInt_mul, ← Int32.toInt_mul]
    exact congrArg Int32.toInt hproducts
  have hdvd : ((2 : Int) ^ 32) ∣ (first.toInt - second.toInt) * factor.toInt := by
    rw [sub_mul]
    exact_mod_cast Int.dvd_of_bmod_eq_zero (Int.bmod_eq_bmod_iff_bmod_sub_eq_zero.mp hwrapped)
  have hclose := hcoprime.dvd_of_dvd_mul_right hdvd
  have := first.toInt_lt
  have := first.le_toInt
  have := second.toInt_lt
  have := second.le_toInt
  rw [← Int32.toInt_inj]
  omega

/-- An even factor takes the least number to zero, like zero itself. -/
theorem mul_minValue_of_even {factor : Int32} (heven : Even factor.toInt) :
    ArithOp.mul.apply Int32.minValue factor = ArithOp.mul.apply 0 factor := by
  obtain ⟨half, hhalf⟩ := heven
  have hdvd : (((2 ^ 32 : Nat) : Int)) ∣ Int32.minValue.toInt * factor.toInt :=
    ⟨-half, by rw [hhalf, Int32.toInt_minValue]; ring⟩
  rw [← Int32.toInt_inj]
  simp only [apply, Int32.toInt_mul, Int.bmod_eq_zero_of_dvd hdvd]
  simp

/-- **One step** is reversible, unless it multiplies by an even number. -/
theorem bijective_apply_iff (op : ArithOp) (constant : Int32) :
    Bijective (op.apply · constant) ↔ (op = .mul → Odd constant.toInt) := by
  rw [← Finite.injective_iff_bijective]
  cases op with
  | xor => exact iff_of_true (fun _ _ => (Int32.xor_left_inj constant).mp) (by simp)
  | add => exact iff_of_true (fun _ _ => (Int32.add_left_inj constant).mp) (by simp)
  | sub => exact iff_of_true (fun _ _ => (Int32.sub_left_inj constant).mp) (by simp)
  | mul =>
    refine ⟨fun hinjective _ => ?_, fun hodd => injective_mul_of_odd (hodd rfl)⟩
    rw [← Int.not_even_iff_odd]
    intro heven
    exact absurd (hinjective (mul_minValue_of_even heven)) (by decide)

end ArithOp

/-! ### Chains -/

namespace Transform

/-- Every number that the chain multiplies by is odd. -/
def HasOddFactors (transform : Transform) : Prop :=
  ∀ factor, (ArithOp.mul, factor) ∈ transform.steps → Odd factor.toInt

/-- A chain is reversible if its first step and the rest of it are. -/
theorem bijective_cons_iff (step : Step) (steps : List Step) :
    Bijective (mk (step :: steps)).apply ↔
      Bijective (step.1.apply · step.2) ∧ Bijective (mk steps).apply := by
  have hcomp : (mk (step :: steps)).apply = (mk steps).apply ∘ (step.1.apply · step.2) := rfl
  rw [hcomp]
  constructor
  · intro hchain
    -- what the first step identifies stays identified
    have hfirst := Finite.injective_iff_bijective.mp hchain.injective.of_comp
    exact ⟨hfirst, (Bijective.of_comp_iff _ hfirst).mp hchain⟩
  · rintro ⟨hfirst, hrest⟩
    exact hrest.comp hfirst

theorem hasOddFactors_cons_iff (step : Step) (steps : List Step) :
    (mk (step :: steps)).HasOddFactors ↔
      (step.1 = .mul → Odd step.2.toInt) ∧ (mk steps).HasOddFactors := by
  obtain ⟨op, constant⟩ := step
  simp only [HasOddFactors, List.mem_cons, Prod.mk.injEq, or_imp, forall_and]
  refine and_congr_left fun _ => ⟨?_, ?_⟩
  · rintro h rfl
    exact h constant ⟨rfl, rfl⟩
  · rintro h factor ⟨rfl, rfl⟩
    exact h rfl

/-- **A chain is reversible exactly if its factors are odd.** -/
theorem bijective_apply_iff (transform : Transform) :
    Bijective transform.apply ↔ transform.HasOddFactors := by
  obtain ⟨steps⟩ := transform
  induction steps with
  | nil => exact iff_of_true bijective_id (by simp [HasOddFactors])
  | cons step steps ih =>
    rw [bijective_cons_iff, hasOddFactors_cons_iff, ArithOp.bijective_apply_iff, ih]

end Transform

/-- **A chain of arithmetic is reversible exactly if all of its factors are odd.** Then every offset
that a 32-bit integer can give is that of exactly one call-site constant. With an even factor, on
the other hand, two different call-site constants have the same value. -/
theorem chain_reversible_iff_factors_odd (transform : Transform) :
    (Bijective transform.apply ↔ transform.HasOddFactors) ∧
    (transform.HasOddFactors → ∀ size offset, offset < size → offset < 2 ^ 31 →
      ∃! constant, directOffset? size (transform.apply constant) = some offset) ∧
    ∀ factor, (ArithOp.mul, factor) ∈ transform.steps → Even factor.toInt →
      ∃ first second, first ≠ second ∧ transform.apply first = transform.apply second := by
  have hiff := transform.bijective_apply_iff
  refine ⟨hiff, fun hodd size offset hsize hoffset => ?_, fun factor hfactor heven => ?_⟩
  · have hvalue : ∀ number : Int32,
        directOffset? size number = some offset ↔ number = Int32.ofNat offset := by
      intro number
      rw [directOffset?_eq_some_iff, ← Int32.toInt_inj, Int32.toInt_ofNat_of_lt hoffset]
      omega
    simp only [hvalue]
    exact (hiff.mpr hodd).existsUnique (Int32.ofNat offset)
  · have hnot : ¬ Injective transform.apply := by
      rw [Finite.injective_iff_bijective, hiff]
      intro hodd
      exact Int.not_even_iff_odd.mpr (hodd factor hfactor) heven
    obtain ⟨first, second, hsame, hne⟩ := not_injective_iff.mp hnot
    exact ⟨first, second, hne, hsame⟩

namespace Sample

/-- Three times the number, under a mask, less seven. -/
def oddChain : Transform :=
  ⟨[(.mul, 3), (.xor, 0x55), (.sub, 7)]⟩

/-- The same with six for three. -/
def evenChain : Transform :=
  ⟨[(.mul, 6), (.xor, 0x55), (.sub, 7)]⟩

end Sample

/-- One constant leads to the record at offset 8, and with an even factor two constants have the
same value. -/
theorem chain_reversible_iff_factors_odd_sample :
    Bijective Sample.oddChain.apply ∧
    (∃! constant, directOffset? 14 (Sample.oddChain.apply constant) = some 8) ∧
    ∃ first second, first ≠ second ∧
      Sample.evenChain.apply first = Sample.evenChain.apply second := by
  obtain ⟨hiff, hreached, -⟩ := chain_reversible_iff_factors_odd Sample.oddChain
  have hodd : Sample.oddChain.HasOddFactors := by
    intro factor hfactor
    obtain rfl : factor = 3 := by simpa [Sample.oddChain] using hfactor
    decide
  refine ⟨hiff.mpr hodd, hreached hodd 14 8 (by decide) (by decide), ?_⟩
  exact (chain_reversible_iff_factors_odd Sample.evenChain).2.2 6 (by decide) (by decide)

end LiteralRecovery
