import LiteralRecovery.Proofs.Encoding
import LiteralRecovery.Proofs.Probes

/-!
# Where a decoded text comes from

Decoding guesses: a constant may lead to several hundred offsets, and at each of them a length is
taken from bytes that nobody vouches for. Here is what a result guarantees all the same. Its offset
lies in the blob, the bytes there are a record or a terminated string within the configured bounds,
the text is what those bytes say, and the offset comes from the constant by the arithmetic that the
strategy names.

Both readers are described completely, by what stands in the blob and not by how it is searched
(`Blob.recordAt?_eq_some_iff`, `Blob.terminatedAt?_eq_some_iff`), and so are the offsets of a
number. The result about decoding then only goes through the flat list of probes.

## Main definitions

* `Blob.HoldsRecord`, `Blob.HoldsTerminated`: what has to stand at an offset
* `Config.Spells`: a payload spells a text
* `Denotes`, `DenotesBase`: the offset that a number denotes, and those that are tried for it
* `ReachedBy`: an offset comes from a constant as a strategy says

## Main results

* `Blob.recordAt?_eq_some_iff`, `Blob.terminatedAt?_eq_some_iff`
* `mem_baseOffsets_iff`
* `reachedBy_of_mem_flatProbes`
* `decoded_text_stands_in_blob`
-/

namespace LiteralRecovery

/-! ### Records -/

theorem Bytes.length_slice {bytes : Bytes} {offset length : Nat}
    (h : offset + length ≤ bytes.size) : (bytes.slice offset length).length = length := by
  rw [slice_eq, List.length_take, List.length_drop, Array.length_toList]
  omega

namespace Blob

/-- Writing what was read gives the bytes back. -/
theorem writeLittleEndian_littleEndian (bytes : List UInt8) :
    writeLittleEndian bytes.length (littleEndian bytes) = bytes := by
  induction bytes with
  | nil => rfl
  | cons byte rest ih =>
    have hbyte := byte.toNat_lt
    have hlow : UInt8.ofNat (byte.toNat + 0x100 * littleEndian rest) = byte := by
      rw [← UInt8.toNat_inj, UInt8.toNat_ofNat']
      omega
    have hhigh : (byte.toNat + 0x100 * littleEndian rest) / 0x100 = littleEndian rest := by
      omega
    rw [littleEndian, List.length_cons, writeLittleEndian, hlow, hhigh, ih]

/-- The bytes at the offset are a record with a payload of the given length: the length in four
bytes, and at least so many bytes after them. -/
structure HoldsRecord (bytes : Bytes) (maxLength offset length : Nat) : Prop where
  header : bytes.slice offset 4 = writeLittleEndian 4 length
  positive : 0 < length
  allowed : length ≤ maxLength
  signed : length < 2 ^ 31
  fits : offset + 4 + length ≤ bytes.size

variable {bytes : Bytes} {offset maxLength : Nat} {payload : List UInt8}

/-- **A record is read exactly where one stands.** -/
theorem recordAt?_eq_some_iff :
    recordAt? bytes offset maxLength = some payload ↔
      ∃ length, HoldsRecord bytes maxLength offset length ∧
        bytes.slice (offset + 4) length = payload := by
  rw [recordAt?]
  constructor
  · intro h
    obtain ⟨⟨hpositive, hallowed, hsigned, hfits⟩, hpayload⟩ := Option.ite_none_right_eq_some.mp h
    have hfour : (bytes.slice offset 4).length = 4 := Bytes.length_slice (by omega)
    have hheader := writeLittleEndian_littleEndian (bytes.slice offset 4)
    rw [hfour] at hheader
    exact ⟨_, ⟨hheader.symm, hpositive, hallowed, hsigned, hfits⟩, Option.some.inj hpayload⟩
  · rintro ⟨length, ⟨hheader, hpositive, hallowed, hsigned, hfits⟩, rfl⟩
    have hlength : littleEndian (bytes.slice offset 4) = length := by
      rw [hheader, littleEndian_writeLittleEndian (by omega)]
    rw [hlength]
    exact if_pos ⟨hpositive, hallowed, hsigned, hfits⟩

theorem recordAt?_eq_none_iff :
    recordAt? bytes offset maxLength = none ↔
      ∀ length, ¬ HoldsRecord bytes maxLength offset length := by
  rw [Option.eq_none_iff_forall_ne_some]
  constructor
  · intro h length hrecord
    exact h _ (recordAt?_eq_some_iff.mpr ⟨length, hrecord, rfl⟩)
  · intro h payload hpayload
    obtain ⟨length, hrecord, -⟩ := recordAt?_eq_some_iff.mp hpayload
    exact h length hrecord

/-! ### Terminated strings -/

/-- The first zero byte is in the window, and the bytes from the index up to it are other ones. -/
theorem firstZero?_eq_some_iff {window index stop : Nat} :
    firstZero? bytes window index = some stop ↔
      index ≤ stop ∧ stop < index + window ∧ bytes[stop]? = some 0 ∧
        ∀ i, index ≤ i → i < stop → ∃ byte, bytes[i]? = some byte ∧ byte ≠ 0 := by
  induction window generalizing index with
  | zero =>
    simp only [firstZero?, reduceCtorEq, false_iff]
    omega
  | succ window ih =>
    rw [firstZero?]
    cases hbyte : bytes[index]? with
    | none =>
      -- behind the end there is no zero byte either
      simp only [reduceCtorEq, false_iff]
      rintro ⟨hle, -, hstop, -⟩
      have hend : bytes.size ≤ index := Array.getElem?_eq_none_iff.mp hbyte
      rw [Array.getElem?_eq_none (by omega)] at hstop
      cases hstop
    | some byte =>
      dsimp only
      split
      next hzero =>
        subst hzero
        constructor
        · intro h
          obtain rfl := Option.some.inj h
          exact ⟨Nat.le_refl _, by omega, hbyte, fun i hi hlt => absurd hi (by omega)⟩
        · rintro ⟨hle, -, -, hbefore⟩
          rcases Nat.eq_or_lt_of_le hle with rfl | hlt
          · rfl
          · obtain ⟨byte, hother, hne⟩ := hbefore index (Nat.le_refl _) hlt
            rw [hbyte] at hother
            exact absurd (Option.some.inj hother).symm hne
      next hne =>
        rw [ih]
        constructor
        · rintro ⟨hle, hlt, hstop, hbefore⟩
          refine ⟨by omega, by omega, hstop, fun i hi hi' => ?_⟩
          rcases Nat.eq_or_lt_of_le hi with rfl | hi
          · exact ⟨byte, hbyte, hne⟩
          · exact hbefore i hi hi'
        · rintro ⟨hle, hlt, hstop, hbefore⟩
          have hpassed : index ≠ stop := by
            rintro rfl
            rw [hbyte] at hstop
            exact hne (Option.some.inj hstop)
          exact ⟨by omega, by omega, hstop, fun i hi hi' => hbefore i (by omega) hi'⟩

/-- The bytes at the offset are a string of the given length with a zero byte behind it. -/
structure HoldsTerminated (bytes : Bytes) (maxLength offset length : Nat) : Prop where
  positive : 0 < length
  allowed : length ≤ maxLength
  nonzero : ∀ i < length, ∃ byte, bytes[offset + i]? = some byte ∧ byte ≠ 0
  terminator : bytes[offset + length]? = some 0

/-- **A terminated string is read exactly where one stands.** -/
theorem terminatedAt?_eq_some_iff :
    terminatedAt? bytes offset maxLength = some payload ↔
      ∃ length, HoldsTerminated bytes maxLength offset length ∧
        bytes.slice offset length = payload := by
  constructor
  · intro h
    rw [terminatedAt?] at h
    split at h
    next => cases h
    next stop hstop =>
      obtain ⟨hle, hwindow, hzero, hbefore⟩ := firstZero?_eq_some_iff.mp hstop
      obtain ⟨hlt, hpayload⟩ := Option.ite_none_right_eq_some.mp h
      refine ⟨stop - offset, ⟨by omega, by omega, fun i hi => ?_, ?_⟩, Option.some.inj hpayload⟩
      · exact hbefore (offset + i) (by omega) (by omega)
      · rwa [Nat.add_sub_cancel' hle]
  · rintro ⟨length, ⟨hpositive, hallowed, hnonzero, hterminator⟩, rfl⟩
    have hend : offset + length < bytes.size :=
      (Array.getElem?_eq_some_iff.mp hterminator).1
    have hstop : firstZero? bytes (min (maxLength + 1) (bytes.size - offset)) offset =
        some (offset + length) := by
      refine firstZero?_eq_some_iff.mpr ⟨by omega, by omega, hterminator, fun i hi hlt => ?_⟩
      have hnext := hnonzero (i - offset) (by omega)
      rwa [Nat.add_sub_cancel' hi] at hnext
    rw [terminatedAt?, hstop]
    simp only [Nat.add_sub_cancel_left]
    exact if_pos (by omega)

end Blob

/-! ### Texts -/

/-- Bytes that can be read as 16-bit units are even in number. -/
theorem Utf16.even_length_of_decode? {bytes : List UInt8} {chars : List Char}
    (h : decode? bytes = some chars) : bytes.length % 2 = 0 := by
  obtain ⟨units, hunits, -⟩ := Option.bind_eq_some_iff.mp h
  have hread : ∀ (bytes : List UInt8) (read : List Nat), unitsOnto read bytes = some units →
      bytes.length % 2 = 0 := by
    intro bytes read
    fun_induction unitsOnto read bytes with
    | case1 read => simp
    | case2 read byte => simp
    | case3 read low high rest ih =>
      intro hrest
      have := ih hrest
      simp only [List.length_cons]
      omega
  exact hread bytes [] hunits

/-- The payload of a record spells the text: it is what is accepted of the bytes as UTF-8 or, where
nothing is, they are even in number and that is configured, as UTF-16. -/
def Config.Spells (config : Config) (payload : List UInt8) (text : String) : Prop :=
  Acceptance.text.acceptUtf8 payload = some text ∨
    Acceptance.text.acceptUtf8 payload = none ∧ config.utf16 ∧ payload.length % 2 = 0 ∧
      ∃ chars, Utf16.decode? payload = some chars ∧
        Acceptance.text.accept (String.ofList chars) = some text

theorem Request.spells_of_payloadText? {request : Request} {payload : List UInt8} {text : String}
    (hrule : request.acceptance = .text) (h : request.payloadText? payload = some text) :
    request.config.Spells payload text := by
  rw [payloadText?, hrule] at h
  split at h
  next found hfound => exact .inl (hfound.trans h)
  next hnone =>
    obtain ⟨hutf16, hread⟩ := Option.ite_none_right_eq_some.mp h
    obtain ⟨accepted, haccepted, htext⟩ := Option.map_eq_some_iff.mp hread
    obtain ⟨chars, hchars, hrest⟩ := Option.bind_eq_some_iff.mp haccepted
    refine .inr ⟨hnone, hutf16, Utf16.even_length_of_decode? hchars, chars, hchars, ?_⟩
    rw [Acceptance.accept, String.toList_ofList, hrest, ← htext]
    rfl

/-! ### Offsets -/

/-- The offset that a number denotes: counted from the start if it is not negative, and otherwise
from the end. -/
def Denotes (size : Nat) (number : Int32) (offset : Nat) : Prop :=
  0 ≤ number.toInt ∧ (offset : Int) = number.toInt ∨
    number.toInt < 0 ∧ (offset : Int) = size + number.toInt

/-- The offsets that are tried for a number: the one it denotes, and the one that four times the
number denotes. The product wraps around. -/
def DenotesBase (size : Nat) (number : Int32) (offset : Nat) : Prop :=
  Denotes size number offset ∨ Denotes size (number * 4) offset

section Offsets

variable {size offset : Nat} {constant : Int32}

theorem directOffset?_eq_some_iff :
    directOffset? size constant = some offset ↔
      0 ≤ constant.toInt ∧ (offset : Int) = constant.toInt ∧ offset < size := by
  rw [directOffset?, Option.ite_none_right_eq_some, Option.some.injEq]
  omega

theorem endOffset?_eq_some_iff :
    endOffset? size constant = some offset ↔
      constant.toInt < 0 ∧ (offset : Int) = size + constant.toInt := by
  rw [endOffset?, Option.ite_none_right_eq_some, Option.some.injEq]
  omega

theorem scaledOffset?_eq_some_iff :
    scaledOffset? size constant = some offset ↔
      Denotes size (constant * 4) offset ∧ offset < size := by
  rw [scaledOffset?, Denotes]
  split
  · rw [directOffset?_eq_some_iff]
    omega
  · rw [endOffset?_eq_some_iff]
    omega

/-- **The offsets of a number** are those that it denotes, as far as they lie in the bytes. -/
theorem mem_baseOffsets_iff :
    offset ∈ baseOffsets size constant ↔ DenotesBase size constant offset ∧ offset < size := by
  simp only [baseOffsets, List.mem_append, Option.mem_toList, directOffset?_eq_some_iff,
    endOffset?_eq_some_iff, scaledOffset?_eq_some_iff, DenotesBase, Denotes]
  omega

end Offsets

/-- The offset comes from the constant in the way that the strategy says. -/
def ReachedBy (config : Config) (size : Nat) (decoder : Option Decoder) (constant : Int32)
    (offset : Nat) : Strategy → Prop
  | .directOffset => 0 ≤ constant.toInt ∧ (offset : Int) = constant.toInt
  | .endRelativeOffset => constant.toInt < 0 ∧ (offset : Int) = size + constant.toInt
  | .scaledOffset => Denotes size (constant * 4) offset
  | .linearTransform => ∃ held transform, decoder = some held ∧ held.shape = .linear transform ∧
      DenotesBase size (transform.apply constant) offset
  | .keyedXor => ∃ key ∈ config.xorKeys, DenotesBase size (constant ^^^ key) offset
  | .nullTerminated => config.nullTerminated ∧
      (DenotesBase size constant offset ∨
        (∃ held transform, decoder = some held ∧ held.shape = .linear transform ∧
          DenotesBase size (transform.apply constant) offset) ∨
        ∃ key ∈ config.xorKeys, DenotesBase size (constant ^^^ key) offset)
  | .exhaustiveXor => config.exhaustiveXor ∧
      ∃ key < 256, DenotesBase size (constant ^^^ Int32.ofNat key) offset
  | .shortXorChar => False

/-! ### Decoding -/

section Decoding

variable {config : Config} {blob : Bytes} {decoder : Option Decoder} {constant : Int32}

theorem exists_shape_of_mem {transform : Transform}
    (h : transform ∈ (decoder.bind Decoder.transform?).toList) :
    ∃ held, decoder = some held ∧ held.shape = .linear transform := by
  obtain ⟨held, hheld, htransform⟩ := Option.bind_eq_some_iff.mp (Option.mem_toList.mp h)
  refine ⟨held, hheld, ?_⟩
  rw [Decoder.transform?] at htransform
  cases hshape : held.shape with
  | linear found =>
    rw [hshape] at htransform
    exact congrArg Shape.linear (Option.some.inj htransform)
  | table slot =>
    rw [hshape] at htransform
    cases htransform
  | unknown =>
    rw [hshape] at htransform
    cases htransform

/-- The offsets that come first lie in the blob and are reached as their strategies say. What is
reached in one of these ways may also be the place of a terminated string. -/
theorem reachedBy_of_mem_recordOffsets {tagged : Strategy × Nat}
    (h : tagged ∈ recordOffsets config blob decoder constant) :
    tagged.2 < blob.size ∧ tagged.1 ≠ .nullTerminated ∧
      ReachedBy config blob.size decoder constant tagged.2 tagged.1 ∧
      (config.nullTerminated →
        ReachedBy config blob.size decoder constant tagged.2 .nullTerminated) := by
  simp only [recordOffsets, List.mem_append, List.mem_map, List.mem_flatMap, Option.mem_toList] at h
  rcases h with (((⟨offset, hoffset, rfl⟩ | ⟨offset, hoffset, rfl⟩) | ⟨offset, hoffset, rfl⟩) |
    ⟨transform, htransform, offset, hoffset, rfl⟩) | ⟨key, hkey, offset, hoffset, rfl⟩
  · obtain ⟨hsign, heq, hlt⟩ := directOffset?_eq_some_iff.mp hoffset
    exact ⟨hlt, by simp, ⟨hsign, heq⟩, fun h => ⟨h, .inl (.inl (.inl ⟨hsign, heq⟩))⟩⟩
  · obtain ⟨hsign, heq⟩ := endOffset?_eq_some_iff.mp hoffset
    exact ⟨by omega, by simp, ⟨hsign, heq⟩, fun h => ⟨h, .inl (.inl (.inr ⟨hsign, heq⟩))⟩⟩
  · obtain ⟨hdenotes, hlt⟩ := scaledOffset?_eq_some_iff.mp hoffset
    exact ⟨hlt, by simp, hdenotes, fun h => ⟨h, .inl (.inr hdenotes)⟩⟩
  · obtain ⟨hbase, hlt⟩ := mem_baseOffsets_iff.mp hoffset
    obtain ⟨held, hheld, hshape⟩ := exists_shape_of_mem (Option.mem_toList.mpr htransform)
    have hreached : ∃ held transform, decoder = some held ∧ held.shape = .linear transform ∧
        DenotesBase blob.size (transform.apply constant) offset :=
      ⟨held, transform, hheld, hshape, hbase⟩
    exact ⟨hlt, by simp, hreached, fun h => ⟨h, .inr (.inl hreached)⟩⟩
  · obtain ⟨hbase, hlt⟩ := mem_baseOffsets_iff.mp hoffset
    exact ⟨hlt, by simp, ⟨key, hkey, hbase⟩, fun h => ⟨h, .inr (.inr ⟨key, hkey, hbase⟩)⟩⟩

/-- **Every probe** looks at an offset in the blob that its strategy reaches, for a terminated
string if the strategy is the one of these and for a record otherwise. -/
theorem reachedBy_of_mem_flatProbes {tagged : Tagged}
    (h : tagged ∈ flatProbes config blob decoder constant) :
    ∃ offset < blob.size, ReachedBy config blob.size decoder constant offset tagged.1 ∧
      (tagged.1 ≠ .nullTerminated ∧ tagged.2 = .record offset ∨
        tagged.1 = .nullTerminated ∧ tagged.2 = .terminated offset) := by
  rw [flatProbes, List.mem_append, List.mem_append] at h
  rcases h with (hrecord | hterminated) | hexhaustive
  · obtain ⟨⟨strategy, offset⟩, hmem, rfl⟩ := List.mem_map.mp hrecord
    obtain ⟨hlt, hne, hreached, -⟩ := reachedBy_of_mem_recordOffsets hmem
    exact ⟨offset, hlt, hreached, .inl ⟨hne, rfl⟩⟩
  · split at hterminated
    next hconfig =>
      obtain ⟨offset, hoffset, rfl⟩ := List.mem_map.mp hterminated
      obtain ⟨⟨strategy, _⟩, hmem, rfl⟩ := List.mem_map.mp (List.mem_filter.mp hoffset).1
      obtain ⟨hlt, -, -, hreached⟩ := reachedBy_of_mem_recordOffsets hmem
      exact ⟨_, hlt, hreached hconfig, .inr ⟨rfl, rfl⟩⟩
    next => cases hterminated
  · split at hexhaustive
    next hconfig =>
      obtain ⟨offset, hoffset, rfl⟩ := List.mem_map.mp hexhaustive
      obtain ⟨key, hkey, hbase⟩ := List.mem_flatMap.mp hoffset
      obtain ⟨hbase, hlt⟩ := mem_baseOffsets_iff.mp hbase
      exact ⟨offset, hlt, ⟨hconfig, key, List.mem_range.mp hkey, hbase⟩, .inl ⟨by simp, rfl⟩⟩
    next => cases hexhaustive

/-- **A decoded text is in the blob, at the offset that the result gives, and was reached in the way
that its strategy says.** Unless the strategy is the one for terminated strings, a record stands
there and its payload spells the text. For that strategy a terminated string stands there, the text
is what is accepted of its bytes, and no record stands at the same place. -/
theorem decoded_text_stands_in_blob {candidate : Candidate}
    (h : decode? config blob decoder .full constant = some candidate) :
    ∃ offset, candidate.offset = some offset ∧ offset < blob.size ∧
      ReachedBy config blob.size decoder constant offset candidate.strategy ∧
      (candidate.strategy ≠ .nullTerminated →
        ∃ length, Blob.HoldsRecord blob config.maxLength offset length ∧
          config.Spells (blob.slice (offset + 4) length) candidate.value) ∧
      (candidate.strategy = .nullTerminated →
        (∃ length, Blob.HoldsTerminated blob config.maxLength offset length ∧
          Acceptance.text.acceptUtf8 (blob.slice offset length) = some candidate.value) ∧
        ∀ length, ¬ Blob.HoldsRecord blob config.maxLength offset length) := by
  rw [decode?_full_eq_findSome?] at h
  obtain ⟨⟨strategy, probe⟩, hmem, hread⟩ := List.exists_of_findSome?_eq_some h
  obtain ⟨finding, hfinding, rfl⟩ := Option.map_eq_some_iff.mp hread
  obtain ⟨offset, hlt, hreached, ⟨hne, hprobe⟩ | ⟨heq, hprobe⟩⟩ := reachedBy_of_mem_flatProbes hmem
  · dsimp only at hfinding hne hprobe
    subst hprobe
    obtain ⟨value, hvalue, rfl⟩ := Option.map_eq_some_iff.mp hfinding
    obtain ⟨payload, hpayload, htext⟩ := Option.bind_eq_some_iff.mp hvalue
    obtain ⟨length, hrecord, rfl⟩ := Blob.recordAt?_eq_some_iff.mp hpayload
    exact ⟨offset, rfl, hlt, hreached,
      fun _ => ⟨length, hrecord, Request.spells_of_payloadText? rfl htext⟩,
      fun heq => absurd heq hne⟩
  · dsimp only at hfinding heq hprobe
    subst hprobe
    obtain ⟨hnone, hfound⟩ := Option.ite_none_left_eq_some.mp hfinding
    obtain ⟨value, hvalue, rfl⟩ := Option.map_eq_some_iff.mp hfound
    obtain ⟨payload, hpayload, htext⟩ := Option.bind_eq_some_iff.mp hvalue
    obtain ⟨length, hterminated, rfl⟩ := Blob.terminatedAt?_eq_some_iff.mp hpayload
    refine ⟨offset, rfl, hlt, hreached, fun hne => absurd heq hne, fun _ => ⟨⟨length, hterminated,
      htext⟩, ?_⟩⟩
    exact Blob.recordAt?_eq_none_iff.mp (Option.not_isSome_iff_eq_none.mp hnone)

end Decoding

namespace Sample

/-- A terminated string at offset 1. Read as a record there, its length would be far too large. -/
def terminatedBlob : Bytes :=
  #[0xee, 104, 105, 0, 7]

/-- A record at offset 5 that is a text as UTF-16 only, with bytes in front of it. -/
def wideBlob : Bytes :=
  #[0xee, 0xee, 0xee, 0xee, 0xee, 4, 0, 0, 0, 104, 0, 105, 0]

/-- A decoder that adds eight to its argument. -/
def adder : Decoder :=
  ⟨⟨0x06000001⟩, "a", true, .linear ⟨[(.add, 8)]⟩⟩

end Sample

/-- A terminated string, and a record in UTF-16 that a decoder's arithmetic leads to. -/
theorem decoded_text_stands_in_blob_sample :
    (decode? {} Sample.terminatedBlob none .full 1 = some ⟨"hi", .nullTerminated, some 1⟩ ∧
      (∃ length, Blob.HoldsTerminated Sample.terminatedBlob 10000 1 length ∧
        Acceptance.text.acceptUtf8 (Sample.terminatedBlob.slice 1 length) = some "hi") ∧
      ∀ length, ¬ Blob.HoldsRecord Sample.terminatedBlob 10000 1 length) ∧
    decode? .aggressive Sample.wideBlob (some Sample.adder) .full (-3) =
        some ⟨"hi", .linearTransform, some 5⟩ ∧
      ∃ length, Blob.HoldsRecord Sample.wideBlob 10000 5 length ∧
        Config.aggressive.Spells (Sample.wideBlob.slice 9 length) "hi" := by
  have hterminated : decode? {} Sample.terminatedBlob none .full 1 =
      some ⟨"hi", .nullTerminated, some 1⟩ := by decide
  have hwide : decode? .aggressive Sample.wideBlob (some Sample.adder) .full (-3) =
      some ⟨"hi", .linearTransform, some 5⟩ := by decide
  refine ⟨⟨hterminated, ?_⟩, hwide, ?_⟩
  · obtain ⟨offset, hoffset, -, -, -, hstands⟩ := decoded_text_stands_in_blob hterminated
    obtain rfl := Option.some.inj hoffset
    exact hstands rfl
  · obtain ⟨offset, hoffset, -, -, hstands, -⟩ := decoded_text_stands_in_blob hwide
    obtain rfl := Option.some.inj hoffset
    exact hstands (by decide)

end LiteralRecovery
