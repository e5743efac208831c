import LiteralRecovery.Proofs.Addressing
import Mathlib.Data.Set.Card

/-!
# What the search under every byte finds

The last strategy gives up on the low byte of a constant: it takes the constant under each of the
256 keys of a single byte. These numbers are the *block* of the constant, all those with the same
upper three bytes, whether the constant is negative or not. So the search does not depend on where
in its block the constant lies, and it fails only if no number of the block addresses a record that
is accepted.

A number addresses a record if one of its offsets does, counted from the start, from the end or in
words of four bytes. The product for the last one wraps around, so numbers of one block may lead to
places that are far apart. Nothing is assumed about that: each number of the block is tried in all
its readings.

## Main definitions

* `SameBlock`: two numbers agree on their upper 24 bits
* `Addresses`: an offset of a number holds an accepted record, described by what stands in the blob

## Main results

* `sameBlock_iff_exists_key`: a block is what the keys of a single byte make of one of its numbers
* `Request.leadsNowhere_iff`
* `Request.attempt?_exhaustiveXor_eq_none_iff`
* `byte_search_complete`
-/

namespace LiteralRecovery

/-! ### Blocks of numbers -/

/-- The numbers agree on their upper 24 bits. -/
def SameBlock (first second : Int32) : Prop :=
  first.toBitVec.extractLsb 31 8 = second.toBitVec.extractLsb 31 8

instance (first second : Int32) : Decidable (SameBlock first second) :=
  inferInstanceAs (Decidable (_ = _))

section Blocks

variable {first second : Int32}

theorem sameBlock_iff_getLsbD :
    SameBlock first second ↔
      ∀ i, 8 ≤ i → first.toBitVec.getLsbD i = second.toBitVec.getLsbD i := by
  constructor
  · intro h i hi
    by_cases hlast : i < 32
    · have hbit := congrArg (BitVec.getLsbD · (i - 8)) h
      simpa only [BitVec.getLsbD_extractLsb, Nat.add_sub_cancel' hi,
        decide_eq_true (show i - 8 < 31 - 8 + 1 by omega), Bool.true_and] using hbit
    · rw [BitVec.getLsbD_of_ge _ _ (by omega), BitVec.getLsbD_of_ge _ _ (by omega)]
  · intro h
    refine BitVec.eq_of_getLsbD_eq fun i _ => ?_
    rw [BitVec.getLsbD_extractLsb, BitVec.getLsbD_extractLsb, h (8 + i) (by omega)]

/-- A number below 256 has no bits above the lowest eight, and only such a number. -/
theorem toNat_lt_iff_getLsbD (bits : BitVec 32) :
    bits.toNat < 256 ↔ ∀ i, 8 ≤ i → bits.getLsbD i = false := by
  constructor
  · intro h i hi
    have hpow : 2 ^ 8 ≤ 2 ^ i := Nat.pow_le_pow_right (by decide) hi
    rw [← BitVec.testBit_toNat]
    exact Nat.testBit_lt_two_pow (by omega)
  · intro h
    refine Nat.lt_pow_two_of_testBit (n := 8) _ fun i hi => ?_
    rw [BitVec.testBit_toNat, h i hi]

/-- **A block is what the keys of a single byte make of one of its numbers.** -/
theorem sameBlock_iff_exists_key :
    SameBlock first second ↔ ∃ key < 256, second = first ^^^ Int32.ofNat key := by
  have hbits : SameBlock first second ↔ (first ^^^ second).toBitVec.toNat < 256 := by
    simp only [sameBlock_iff_getLsbD, toNat_lt_iff_getLsbD, Int32.toBitVec_xor,
      BitVec.getLsbD_xor, bne_eq_false_iff_eq]
  rw [hbits]
  constructor
  · intro hkey
    refine ⟨_, hkey, ?_⟩
    rw [Int32.ofNat_bitVecToNat, Int32.ofBitVec_toBitVec, ← Int32.xor_assoc, Int32.xor_self,
      Int32.zero_xor]
  · rintro ⟨key, hkey, rfl⟩
    rw [← Int32.xor_assoc, Int32.xor_self, Int32.zero_xor, Int32.toBitVec_ofNat',
      BitVec.toNat_ofNat]
    omega

/-- A block has 256 numbers. -/
theorem ncard_block (number : Int32) : {other | SameBlock number other}.ncard = 256 := by
  have hblock : {other | SameBlock number other} =
      (fun key => number ^^^ Int32.ofNat key) '' (Finset.range 256 : Set Nat) := by
    ext other
    simp [sameBlock_iff_exists_key, eq_comm]
  rw [hblock, Set.InjOn.ncard_image, Set.ncard_coe_finset, Finset.card_range]
  intro key hkey key' hkey' h
  have hkeys := congrArg Int32.toInt ((Int32.xor_right_inj number).mp h)
  simp only [Finset.coe_range, Set.mem_Iio] at hkey hkey'
  rw [Int32.toInt_ofNat_of_lt (by omega), Int32.toInt_ofNat_of_lt (by omega)] at hkeys
  omega

end Blocks

/-! ### Accepted records -/

/-- The number addresses an accepted record: at an offset that it denotes, directly or in words of
four bytes, there is a record, and its payload spells a text. -/
def Addresses (config : Config) (blob : Bytes) (number : Int32) : Prop :=
  ∃ offset length text, DenotesBase blob.size number offset ∧
    Blob.HoldsRecord blob config.maxLength offset length ∧
    config.Spells (blob.slice (offset + 4) length) text

namespace Request

variable {request : Request}

/-- A payload gives the text that it spells. -/
theorem payloadText?_of_spells {payload : List UInt8} {text : String}
    (hrule : request.acceptance = .text) (h : request.config.Spells payload text) :
    request.payloadText? payload = some text := by
  rw [payloadText?, hrule]
  rcases h with hutf8 | ⟨hnone, hutf16, -, chars, hchars, haccept⟩
  · rw [hutf8]
  · rw [Acceptance.accept, String.toList_ofList] at haccept
    rw [hnone, hchars]
    exact (if_pos hutf16).trans haccept

/-- What stands at an offset as a record: a text that the payload of a record spells. -/
theorem read?_record_eq_none_iff {offset : Nat} (hrule : request.acceptance = .text) :
    request.read? (.record offset) = none ↔
      ¬ ∃ length text, Blob.HoldsRecord request.blob request.config.maxLength offset length ∧
        request.config.Spells (request.blob.slice (offset + 4) length) text := by
  rw [read?, Option.map_eq_none_iff, Option.bind_eq_none_iff]
  constructor
  · rintro h ⟨length, text, hrecord, hspells⟩
    have hnone := h _ (Blob.recordAt?_eq_some_iff.mpr ⟨length, hrecord, rfl⟩)
    rw [payloadText?_of_spells hrule hspells] at hnone
    cases hnone
  · intro h payload hpayload
    obtain ⟨length, hrecord, rfl⟩ := Blob.recordAt?_eq_some_iff.mp hpayload
    rw [Option.eq_none_iff_forall_ne_some]
    intro text htext
    exact h ⟨length, text, hrecord, spells_of_payloadText? hrule htext⟩

/-- **A number leads nowhere** exactly if it does not address a record that is accepted. -/
theorem leadsNowhere_iff {number : Int32} (hrule : request.acceptance = .text) :
    request.LeadsNowhere number ↔ ¬ Addresses request.config request.blob number := by
  simp only [LeadsNowhere, mem_baseOffsets_iff, read?_record_eq_none_iff hrule]
  constructor
  · rintro h ⟨offset, length, text, hdenotes, hrecord, hspells⟩
    have hlt : offset < request.blob.size := by have := hrecord.fits; omega
    exact h offset ⟨hdenotes, hlt⟩ ⟨length, text, hrecord, hspells⟩
  · rintro h offset ⟨hdenotes, -⟩ ⟨length, text, hrecord, hspells⟩
    exact h ⟨offset, length, text, hdenotes, hrecord, hspells⟩

/-! ### The search -/

theorem recordFor?_eq_none_iff {number : Int32} :
    request.recordFor? number = none ↔ request.LeadsNowhere number :=
  List.findSome?_eq_none_iff

/-- The constant under the keys of a single byte is each number of its block. -/
theorem mem_masked_byteKeys_iff {number : Int32} :
    number ∈ request.masked byteKeys ↔ SameBlock request.constant number := by
  simp only [masked, byteKeys, List.map_map, List.mem_map, List.mem_range, Function.comp_apply,
    sameBlock_iff_exists_key, eq_comm]

/-- **The search under every byte** fails exactly if no number of the constant's block addresses a
record that is accepted. -/
theorem attempt?_exhaustiveXor_eq_none_iff (hrule : request.acceptance = .text)
    (hconfig : request.config.exhaustiveXor) :
    request.attempt? .exhaustiveXor = none ↔
      ∀ number, SameBlock request.constant number →
        ¬ Addresses request.config request.blob number := by
  rw [attempt?, if_pos hconfig, List.findSome?_eq_none_iff]
  simp only [recordFor?_eq_none_iff, mem_masked_byteKeys_iff, leadsNowhere_iff hrule]

end Request

/-- If decoding finds nothing, no strategy does. -/
theorem attempt?_eq_none_of_decode? {config : Config} {blob : Bytes} {decoder : Option Decoder}
    {population : Population} {constant : Int32} {strategy : Strategy}
    (hstrategy : strategy ∈ population.strategies)
    (h : decode? config blob decoder population constant = none) :
    (population.request config blob decoder constant).attempt? strategy = none :=
  Option.map_eq_none_iff.mp (List.findSome?_eq_none_iff.mp h strategy hstrategy)

/-- **The search under every byte is complete on the block of its constant.** Where it is
configured, it fails exactly if no number with the same upper 24 bits addresses an accepted record.
So it succeeds for all of the 256 numbers of a block or for none, whatever the decoder, and a
constant is decoded as soon as some number of its block addresses an accepted record. -/
theorem byte_search_complete {config : Config} (hconfig : config.exhaustiveXor) (blob : Bytes)
    (decoder : Option Decoder) (constant : Int32) :
    let search := fun decoder constant =>
      (Population.full.request config blob decoder constant).attempt? .exhaustiveXor
    (search decoder constant = none ↔
      ∀ other, SameBlock constant other → ¬ Addresses config blob other) ∧
    {other | SameBlock constant other}.ncard = 256 ∧
    (∀ decoder' other, SameBlock constant other →
      (search decoder' other).isSome = (search decoder constant).isSome) ∧
    ∀ other, SameBlock constant other → Addresses config blob other →
      ∃ candidate, decode? config blob decoder .full constant = some candidate := by
  intro search
  have hsearch : ∀ decoder constant, search decoder constant = none ↔
      ∀ other, SameBlock constant other → ¬ Addresses config blob other :=
    fun decoder constant => Request.attempt?_exhaustiveXor_eq_none_iff rfl hconfig
  refine ⟨hsearch decoder constant, ncard_block constant, fun decoder' other hother => ?_,
    fun other hother haddresses => ?_⟩
  · have hblock : ∀ number, SameBlock other number ↔ SameBlock constant number :=
      fun number => ⟨hother.trans, hother.symm.trans⟩
    have hnone : search decoder' other = none ↔ search decoder constant = none := by
      rw [hsearch, hsearch]
      simp only [hblock]
    rw [Bool.eq_iff_iff, Option.isSome_iff_ne_none, Option.isSome_iff_ne_none]
    exact not_congr hnone
  · rw [← Option.isSome_iff_exists, Option.isSome_iff_ne_none]
    intro hmiss
    have hnone : search decoder constant = none :=
      attempt?_eq_none_of_decode? (by decide) hmiss
    exact (hsearch decoder constant).mp hnone other hother haddresses

/-- A record six bytes from the end is found from every negative number of one byte. In the block of
1000 no number leads anywhere. -/
theorem byte_search_complete_sample :
    let config : Config := { exhaustiveXor := true }
    let search := fun constant =>
      (Population.full.request config Sample.namedBlob none constant).attempt? .exhaustiveXor
    (SameBlock (-200) (-6) ∧ Addresses config Sample.namedBlob (-6) ∧
      ∃ candidate, decode? config Sample.namedBlob none .full (-200) = some candidate) ∧
    (search (-1)).isSome = (search (-200)).isSome ∧
    (search 1000 = none ∧
      ∀ other, SameBlock 1000 other → ¬ Addresses config Sample.namedBlob other) := by
  intro config search
  have haddresses : Addresses config Sample.namedBlob (-6) :=
    ⟨8, 2, "hi", .inl (.inr (by decide)), ⟨by decide, by decide, by decide, by decide, by decide⟩,
      .inl (by decide)⟩
  have hconfig : config.exhaustiveXor := rfl
  have hmiss : search 1000 = none := by decide +kernel
  obtain ⟨-, -, hsame, hhit⟩ := byte_search_complete hconfig Sample.namedBlob none (-200)
  obtain ⟨hnone, -⟩ := byte_search_complete hconfig Sample.namedBlob none 1000
  exact ⟨⟨by decide, haddresses, hhit (-6) (by decide) haddresses⟩, hsame none (-1) (by decide),
    hmiss, hnone.mp hmiss⟩

end LiteralRecovery
