import LiteralRecovery.Proofs.Provenance

/-!
# The two formats, to the last byte and the last offset

A reader is handed an offset that was guessed and a length that nobody vouches for, so what matters
is what it does at the edges: at the last bytes of a blob, and at offsets and lengths near the
largest that a machine word holds. Here both formats are stated on the list of the bytes. A record
is read where the list, from the offset on, begins with the record of the payload, and a terminated
string where it begins with the payload and a zero byte. No byte more or less would do.

The readers count in natural numbers, in which nothing overflows. Another pair is defined that keeps
offsets and lengths in words of 64 bits, takes a length for the signed number that it is, and looks
at bytes through slices that check their range. It gives the same answers, so no sum that wraps
around is ever used, and a slice whose range is taken for granted is within the bytes.

## Main definitions

* `Word.add?`, `Word.addCapped`: sums that notice when they do not fit
* `Bytes.range?`, `Bytes.behind?`, `Bytes.front`: slices that check their range
* `Blob.recordAtWord?`, `Blob.terminatedAtWord`: the readers on words

## Main results

* `Blob.recordAt?_eq_some_iff_isPrefix`, `Blob.terminatedAt?_eq_some_iff_isPrefix`
* `Blob.recordAtWord?_eq`, `Blob.terminatedAtWord_eq`
* `readers_accept_formats`
-/

namespace LiteralRecovery

/-! ### The formats on the list of the bytes -/

namespace Bytes

variable {bytes : Bytes}

theorem slice_append (offset a b : Nat) :
    bytes.slice offset a ++ bytes.slice (offset + a) b = bytes.slice offset (a + b) := by
  rw [slice_eq, slice_eq, slice_eq, List.take_add, List.drop_drop]

theorem slice_isPrefix (offset length : Nat) :
    bytes.slice offset length <+: bytes.toList.drop offset := by
  rw [slice_eq]
  exact List.take_prefix ..

theorem getElem?_drop (offset i : Nat) : (bytes.toList.drop offset)[i]? = bytes[offset + i]? := by
  rw [List.getElem?_drop, Array.getElem?_toList]

theorem getElem?_slice {offset length i : Nat} (h : i < length) :
    (bytes.slice offset length)[i]? = bytes[offset + i]? := by
  rw [slice_eq, List.getElem?_take_of_lt h, getElem?_drop]

theorem slice_one {offset : Nat} {byte : UInt8} (h : bytes[offset]? = some byte) :
    bytes.slice offset 1 = [byte] := by
  rw [slice_eq, List.take_one, List.head?_drop, Array.getElem?_toList, h, Option.toList_some]

/-- Where bytes begin that are not empty, the offset is within them. -/
theorem exists_append_of_isPrefix {part : List UInt8} {offset : Nat} (hpart : part ≠ [])
    (h : part <+: bytes.toList.drop offset) :
    ∃ before after, before.length = offset ∧ bytes.toList = before ++ (part ++ after) := by
  obtain ⟨after, hafter⟩ := h
  refine ⟨bytes.toList.take offset, after, ?_, ?_⟩
  · have hlength := congrArg List.length hafter
    have hpositive := List.length_pos_iff.mpr hpart
    rw [List.length_append, List.length_drop] at hlength
    rw [List.length_take]
    omega
  · rw [hafter, List.take_append_drop]

end Bytes

namespace Blob

variable {bytes : Bytes} {offset maxLength : Nat} {payload : List UInt8}

/-- **A record is read exactly where the bytes begin with it.** -/
theorem recordAt?_eq_some_iff_isPrefix :
    recordAt? bytes offset maxLength = some payload ↔
      0 < payload.length ∧ payload.length ≤ maxLength ∧ payload.length < 2 ^ 31 ∧
        record payload <+: bytes.toList.drop offset := by
  constructor
  · intro h
    obtain ⟨length, ⟨hheader, hpositive, hallowed, hsigned, hfits⟩, rfl⟩ :=
      recordAt?_eq_some_iff.mp h
    have hlength : (bytes.slice (offset + 4) length).length = length := Bytes.length_slice hfits
    rw [record, hlength, ← hheader, Bytes.slice_append]
    exact ⟨hpositive, hallowed, hsigned, Bytes.slice_isPrefix ..⟩
  · rintro ⟨hpositive, hallowed, hsigned, hprefix⟩
    have hne : record payload ≠ [] := List.length_pos_iff.mp (by rw [length_record]; omega)
    obtain ⟨before, after, rfl, hbytes⟩ := Bytes.exists_append_of_isPrefix hne hprefix
    exact recordAt?_record hbytes hsigned (List.length_pos_iff.mp hpositive) hallowed

/-- Where the header gives an allowed length, there is a record if and only if it ends within the
bytes. -/
theorem isSome_recordAt?_iff {length : Nat} (hpositive : 0 < length) (hallowed : length ≤ maxLength)
    (hsigned : length < 2 ^ 31) (hheader : bytes.slice offset 4 = writeLittleEndian 4 length) :
    (recordAt? bytes offset maxLength).isSome ↔ offset + 4 + length ≤ bytes.size := by
  rw [Option.isSome_iff_exists]
  constructor
  · rintro ⟨payload, hpayload⟩
    obtain ⟨other, ⟨hother, -, -, hsmall, hfits⟩, -⟩ := recordAt?_eq_some_iff.mp hpayload
    have hsame : length = other := by
      have hread := congrArg littleEndian (hheader.symm.trans hother)
      rwa [littleEndian_writeLittleEndian (by omega), littleEndian_writeLittleEndian (by omega)]
        at hread
    rwa [hsame]
  · intro hfits
    exact ⟨_, recordAt?_eq_some_iff.mpr
      ⟨length, ⟨hheader, hpositive, hallowed, hsigned, hfits⟩, rfl⟩⟩

/-- **A terminated string is read exactly where the bytes begin with it and a zero byte.** -/
theorem terminatedAt?_eq_some_iff_isPrefix :
    terminatedAt? bytes offset maxLength = some payload ↔
      payload ≠ [] ∧ 0 ∉ payload ∧ payload.length ≤ maxLength ∧
        payload ++ [0] <+: bytes.toList.drop offset := by
  rw [terminatedAt?_eq_some_iff]
  constructor
  · rintro ⟨length, ⟨hpositive, hallowed, hnonzero, hterminator⟩, rfl⟩
    have hend : offset + length < bytes.size := (Array.getElem?_eq_some_iff.mp hterminator).1
    have hlength : (bytes.slice offset length).length = length := Bytes.length_slice (by omega)
    refine ⟨List.length_pos_iff.mp (by omega), fun hzero => ?_, by omega, ?_⟩
    · obtain ⟨i, hi, hbyte⟩ := List.mem_iff_getElem.mp hzero
      obtain ⟨byte, hat, hne⟩ := hnonzero i (by omega)
      rw [← Bytes.getElem?_slice (by omega : i < length), List.getElem?_eq_getElem hi, hbyte] at hat
      exact hne (Option.some.inj hat).symm
    · rw [← Bytes.slice_one hterminator, Bytes.slice_append]
      exact Bytes.slice_isPrefix ..
  · rintro ⟨hne, hzero, hallowed, after, hafter⟩
    have hat (i : Nat) : bytes[offset + i]? = (payload ++ ([0] ++ after))[i]? := by
      rw [← Bytes.getElem?_drop, ← hafter, List.append_assoc]
    refine ⟨payload.length, ⟨List.length_pos_iff.mpr hne, hallowed, fun i hi => ?_, ?_⟩, ?_⟩
    · refine ⟨payload[i], ?_, fun h => hzero (h ▸ List.getElem_mem hi)⟩
      rw [hat, List.getElem?_append_left hi, List.getElem?_eq_getElem hi]
    · rw [hat, List.getElem?_append_right (Nat.le_refl _), Nat.sub_self]
      rfl
    · rw [Bytes.slice_eq, ← hafter, List.append_assoc, List.take_left]

end Blob

/-! ### Words and checked slices -/

/-- A machine word, for offsets and lengths. -/
abbrev Word := UInt64

namespace Word

/-- The sum, if it fits. One that does not wraps around, and is then below what was added to. -/
def add? (a b : Word) : Option Word :=
  if a + b < a then none else some (a + b)

/-- The sum, or the largest word if it does not fit. -/
def addCapped (a b : Word) : Word :=
  (a.add? b).getD 0xffffffffffffffff

variable {a b sum : Word}

theorem exists_toNat_eq {n : Nat} (h : n < 2 ^ 64) : ∃ word : Word, word.toNat = n :=
  ⟨UInt64.ofNat n, UInt64.toNat_ofNat_of_lt h⟩

theorem add?_eq_some_iff : a.add? b = some sum ↔ sum.toNat = a.toNat + b.toNat := by
  have ha := a.toNat_lt
  have hb := b.toNat_lt
  have hsum := sum.toNat_lt
  rw [add?, Option.ite_none_left_eq_some, Option.some.injEq, ← UInt64.toNat_inj,
    UInt64.lt_iff_toNat_lt, UInt64.toNat_add]
  omega

theorem add?_eq_none_iff : a.add? b = none ↔ 2 ^ 64 ≤ a.toNat + b.toNat := by
  have ha := a.toNat_lt
  have hb := b.toNat_lt
  rw [add?, ite_eq_left_iff, UInt64.lt_iff_toNat_lt, UInt64.toNat_add]
  simp only [reduceCtorEq, imp_false]
  omega

theorem toNat_addCapped (a b : Word) :
    (a.addCapped b).toNat = min (a.toNat + b.toNat) (2 ^ 64 - 1) := by
  rw [addCapped]
  cases h : a.add? b with
  | none =>
    rw [add?_eq_none_iff] at h
    rw [Nat.min_eq_right (by omega)]
    rfl
  | some sum =>
    have hsum := sum.toNat_lt
    rw [add?_eq_some_iff] at h
    rw [Option.getD_some, h, Nat.min_eq_left (by omega)]

end Word

namespace Bytes

/-- The bytes from one position up to another, if there are such positions in this order. -/
def range? (bytes : Bytes) (start stop : Word) : Option (List UInt8) :=
  if start ≤ stop ∧ stop.toNat ≤ bytes.size then
    some (bytes.slice start.toNat (stop.toNat - start.toNat))
  else none

/-- The bytes from a position on, if there is such a position. -/
def behind? (bytes : Bytes) (start : Word) : Option (List UInt8) :=
  if start.toNat ≤ bytes.size then some (bytes.toList.drop start.toNat) else none

/-- The first bytes of some, which must be that many. -/
def front (part : List UInt8) (count : Nat) : Except Nat (List UInt8) :=
  if count ≤ part.length then .ok (part.take count) else .error count

/-- The bytes of a window in front of its first zero byte, if there is one and there are any. -/
def beforeZero (window : List UInt8) : Except Nat (Option (List UInt8)) :=
  match window.idxOf? 0 with
  | none => .ok none
  | some stop => if 0 < stop then (front window stop).map some else .ok none

theorem range?_eq_some_iff {bytes : Bytes} {start stop : Word} {part : List UInt8} :
    bytes.range? start stop = some part ↔ start.toNat ≤ stop.toNat ∧ stop.toNat ≤ bytes.size ∧
      bytes.slice start.toNat (stop.toNat - start.toNat) = part := by
  rw [range?, Option.ite_none_right_eq_some, Option.some.injEq, and_assoc, UInt64.le_iff_toNat_le]

theorem front_of_le {part : List UInt8} {count : Nat} (h : count ≤ part.length) :
    front part count = .ok (part.take count) :=
  if_pos h

theorem beforeZero_eq (window : List UInt8) :
    beforeZero window = .ok (((window.idxOf? 0).filter (0 < ·)).map window.take) := by
  rw [beforeZero]
  cases hzero : window.idxOf? 0 with
  | none => rfl
  | some stop =>
    obtain ⟨hstop, -⟩ := List.idxOf?_eq_some_iff.mp hzero
    dsimp only
    rw [front_of_le (Nat.le_of_lt hstop), Option.filter_some]
    by_cases hpositive : 0 < stop
    · rw [if_pos hpositive, if_pos (decide_eq_true hpositive)]
      rfl
    · rw [if_neg hpositive, if_neg (mt of_decide_eq_true hpositive)]
      rfl

end Bytes

/-! ### The readers on words -/

namespace Blob

/-- The length that a header gives. It is a signed number of 32 bits, and has to be positive and not
above what is allowed. -/
def headerLength? (header : List UInt8) (maxLength : Word) : Option Word :=
  let number := Int32.ofNat (littleEndian header)
  let length := UInt64.ofNat number.toInt.toNat
  if 0 ≤ number ∧ 0 < length ∧ length ≤ maxLength then some length else none

/-- The payload of the record at `offset`, found with words and checked slices. -/
def recordAtWord? (bytes : Bytes) (offset maxLength : Word) : Option (List UInt8) := do
  let start ← offset.add? 4
  let header ← bytes.range? offset start
  let length ← headerLength? header maxLength
  let stop ← start.add? length
  bytes.range? start stop

/-- The bytes at `offset` in front of the next zero byte, found with words and checked slices. The
search is in a window that has room for the longest string and the zero byte behind it. -/
def terminatedAtWord (bytes : Bytes) (offset maxLength : Word) :
    Except Nat (Option (List UInt8)) :=
  match bytes.behind? offset with
  | none => .ok none
  | some behind => do
    let window ← Bytes.front behind (min behind.length (maxLength.addCapped 1).toNat)
    Bytes.beforeZero window

theorem littleEndian_lt (bytes : List UInt8) : littleEndian bytes < 0x100 ^ bytes.length := by
  induction bytes with
  | nil => exact Nat.one_pos
  | cons byte rest ih =>
    have hbyte := byte.toNat_lt
    rw [littleEndian, List.length_cons, Nat.pow_succ]
    omega

/-- A number of 32 bits is taken for a signed one. -/
theorem toInt_ofNat_signed {n : Nat} (h : n < 2 ^ 32) :
    (Int32.ofNat n).toInt = if n < 2 ^ 31 then (n : Int) else n - 0x100000000 := by
  rw [Int32.toInt_ofNat', Int.bmod_def]
  simp only [Int32.size]
  split <;> split <;> omega

theorem headerLength?_eq_some_iff {header : List UInt8} (hheader : header.length = 4)
    {maxLength length : Word} :
    headerLength? header maxLength = some length ↔ length.toNat = littleEndian header ∧
      0 < length.toNat ∧ length.toNat ≤ maxLength.toNat ∧ length.toNat < 2 ^ 31 := by
  have hbound : littleEndian header < 2 ^ 32 := by
    have := littleEndian_lt header
    rwa [hheader] at this
  have hlength := length.toNat_lt
  have hnumber := toInt_ofNat_signed hbound
  simp only [headerLength?, Option.ite_none_right_eq_some, Option.some.injEq,
    Int32.le_iff_toInt_le, UInt64.lt_iff_toNat_lt, UInt64.le_iff_toNat_le, hnumber,
    ← UInt64.toNat_inj, UInt64.toNat_ofNat', Int32.toInt_zero, UInt64.toNat_zero]
  split <;> omega

variable {bytes : Bytes}

theorem recordAtWord?_eq_some_iff {offset maxLength : Word} {payload : List UInt8} :
    recordAtWord? bytes offset maxLength = some payload ↔
      ∃ start header length stop, offset.add? 4 = some start ∧
        bytes.range? offset start = some header ∧ headerLength? header maxLength = some length ∧
        start.add? length = some stop ∧ bytes.range? start stop = some payload := by
  simp [recordAtWord?, Option.bind_eq_some_iff]

/-- **No record is lost or made up by an overflow.** -/
theorem recordAtWord?_eq (hsize : bytes.size < 2 ^ 64) (offset maxLength : Word) :
    recordAtWord? bytes offset maxLength = recordAt? bytes offset.toNat maxLength.toNat := by
  have hfour : (4 : Word).toNat = 4 := rfl
  refine Option.ext fun payload => ?_
  rw [recordAtWord?_eq_some_iff, recordAt?, Option.ite_none_right_eq_some, Option.some.injEq]
  constructor
  · rintro ⟨start, header, length, stop, hstart, hheader, hlength, hstop, hpayload⟩
    rw [Word.add?_eq_some_iff] at hstart hstop
    rw [hfour] at hstart
    obtain ⟨-, hinside, rfl⟩ := Bytes.range?_eq_some_iff.mp hheader
    obtain ⟨-, hfits, rfl⟩ := Bytes.range?_eq_some_iff.mp hpayload
    rw [hstart, Nat.add_sub_cancel_left] at hlength
    obtain ⟨hvalue, hpositive, hallowed, hsigned⟩ :=
      (headerLength?_eq_some_iff (Bytes.length_slice (by omega))).mp hlength
    rw [← hvalue, hstop, Nat.add_sub_cancel_left, hstart]
    exact ⟨⟨hpositive, hallowed, hsigned, by omega⟩, rfl⟩
  · rintro ⟨⟨hpositive, hallowed, hsigned, hfits⟩, rfl⟩
    -- the record ends within the bytes, so both sums and the length are words
    obtain ⟨start, hstart⟩ := Word.exists_toNat_eq (n := offset.toNat + 4) (by omega)
    obtain ⟨length, hlength⟩ :=
      Word.exists_toNat_eq (n := littleEndian (bytes.slice offset.toNat 4)) (by omega)
    obtain ⟨stop, hstop⟩ := Word.exists_toNat_eq (n := start.toNat + length.toNat) (by omega)
    refine ⟨start, bytes.slice offset.toNat 4, length, stop, Word.add?_eq_some_iff.mpr hstart,
      ?_, ?_, Word.add?_eq_some_iff.mpr hstop, ?_⟩
    · refine Bytes.range?_eq_some_iff.mpr ⟨by omega, by omega, ?_⟩
      rw [hstart, Nat.add_sub_cancel_left]
    · exact (headerLength?_eq_some_iff (Bytes.length_slice (by omega))).mpr
        ⟨hlength, by omega, by omega, by omega⟩
    · refine Bytes.range?_eq_some_iff.mpr ⟨by omega, by omega, ?_⟩
      rw [hstop, Nat.add_sub_cancel_left, hstart, hlength]

/-- The search for a zero byte by position is the search in the list of the bytes. -/
theorem firstZero?_eq (window index : Nat) :
    firstZero? bytes window index =
      (((bytes.toList.drop index).take window).idxOf? 0).map (index + ·) := by
  induction window generalizing index with
  | zero => rfl
  | succ window ih =>
    rw [firstZero?]
    cases hbyte : bytes[index]? with
    | none =>
      have hend : bytes.toList.length ≤ index := Array.getElem?_eq_none_iff.mp hbyte
      rw [List.drop_of_length_le hend]
      rfl
    | some byte =>
      obtain ⟨hindex, hbyte⟩ := Array.getElem?_eq_some_iff.mp hbyte
      have hdrop : bytes.toList.drop index = byte :: bytes.toList.drop (index + 1) := by
        rw [← hbyte, ← Array.getElem_toList]
        exact List.drop_eq_getElem_cons hindex
      rw [hdrop, List.take_succ_cons, List.idxOf?_cons]
      dsimp only
      split
      next hzero => simp [hzero]
      next hne =>
        rw [ih, if_neg (by simpa using hne), Option.map_map]
        congr 1
        funext i
        simp only [Function.comp_apply]
        omega

/-- A terminated string stands in front of the first zero byte of a window. -/
theorem terminatedAt?_eq (offset maxLength : Nat) :
    let window := (bytes.toList.drop offset).take (min (maxLength + 1) (bytes.size - offset))
    terminatedAt? bytes offset maxLength = ((window.idxOf? 0).filter (0 < ·)).map window.take := by
  intro window
  rw [terminatedAt?, firstZero?_eq]
  cases hzero : window.idxOf? 0 with
  | none => rfl
  | some stop =>
    obtain ⟨hstop, -⟩ := List.idxOf?_eq_some_iff.mp hzero
    have htake : window.take stop = bytes.slice offset stop := by
      rw [Bytes.slice_eq, List.take_take, Nat.min_eq_left]
      exact Nat.le_of_lt (Nat.lt_of_lt_of_le hstop (List.length_take_le ..))
    rw [Option.map_some, Option.filter_some]
    dsimp only
    rw [Nat.add_sub_cancel_left, ← htake]
    by_cases hpositive : 0 < stop
    · rw [if_pos (by omega), if_pos (decide_eq_true hpositive), Option.map_some]
    · rw [if_neg (by omega), if_neg (mt of_decide_eq_true hpositive), Option.map_none]

/-- **No slice is out of range**, and the cap of the window makes no difference. -/
theorem terminatedAtWord_eq (hsize : bytes.size < 2 ^ 64) (offset maxLength : Word) :
    terminatedAtWord bytes offset maxLength =
      .ok (terminatedAt? bytes offset.toNat maxLength.toNat) := by
  rw [terminatedAtWord, Bytes.behind?, terminatedAt?_eq]
  by_cases hoffset : offset.toNat ≤ bytes.size
  · have hlength : (bytes.toList.drop offset.toNat).length = bytes.size - offset.toNat := by
      rw [List.length_drop, Array.length_toList]
    have hwindow : min (bytes.toList.drop offset.toNat).length (maxLength.addCapped 1).toNat =
        min (maxLength.toNat + 1) (bytes.size - offset.toNat) := by
      have hone : (1 : Word).toNat = 1 := rfl
      rw [hlength, Word.toNat_addCapped, hone]
      omega
    rw [if_pos hoffset]
    dsimp only
    rw [hwindow, Bytes.front_of_le (by omega)]
    exact Bytes.beforeZero_eq _
  · rw [if_neg hoffset, Nat.sub_eq_zero_of_le (by omega), Nat.min_zero, List.take_zero]
    rfl

end Blob

/-- **Both readers accept exactly their formats.** A record is read if and only if the bytes from
the offset on begin with it, and a terminated string if and only if they begin with it and a zero
byte. A record that ends with the last byte is read, and one that would end a byte later is not. On
bytes that a word can count, for every offset and every greatest length that is a word, the readers
with checked sums and slices never leave the bytes and give the same answers. -/
theorem readers_accept_formats (bytes : Bytes) :
    (∀ offset maxLength payload, Blob.recordAt? bytes offset maxLength = some payload ↔
      0 < payload.length ∧ payload.length ≤ maxLength ∧ payload.length < 2 ^ 31 ∧
        Blob.record payload <+: bytes.toList.drop offset) ∧
    (∀ offset maxLength length, 0 < length → length ≤ maxLength → length < 2 ^ 31 →
      bytes.slice offset 4 = Blob.writeLittleEndian 4 length →
      ((Blob.recordAt? bytes offset maxLength).isSome ↔ offset + 4 + length ≤ bytes.size)) ∧
    (∀ offset maxLength payload, Blob.terminatedAt? bytes offset maxLength = some payload ↔
      payload ≠ [] ∧ 0 ∉ payload ∧ payload.length ≤ maxLength ∧
        payload ++ [0] <+: bytes.toList.drop offset) ∧
    (bytes.size < 2 ^ 64 → ∀ offset maxLength : Word,
      Blob.recordAtWord? bytes offset maxLength =
          Blob.recordAt? bytes offset.toNat maxLength.toNat ∧
        Blob.terminatedAtWord bytes offset maxLength =
          .ok (Blob.terminatedAt? bytes offset.toNat maxLength.toNat)) := by
  refine ⟨fun offset maxLength payload => Blob.recordAt?_eq_some_iff_isPrefix, ?_,
    fun offset maxLength payload => Blob.terminatedAt?_eq_some_iff_isPrefix, ?_⟩
  · intro offset maxLength length hpositive hallowed hsigned hheader
    exact Blob.isSome_recordAt?_iff hpositive hallowed hsigned hheader
  · intro hsize offset maxLength
    exact ⟨Blob.recordAtWord?_eq hsize .., Blob.terminatedAtWord_eq hsize ..⟩

namespace Sample

/-- A record that ends with the last byte. -/
def edgeBlob : Bytes :=
  #[0xee, 2, 0, 0, 0, 104, 105]

/-- The same without the last byte. -/
def cutBlob : Bytes :=
  #[0xee, 2, 0, 0, 0, 104]

end Sample

/-- A record at the end of its bytes and one that is cut short, an offset at the end of the words,
and a string that is read with the largest word for its greatest length. -/
theorem readers_accept_formats_sample :
    Blob.recordAt? Sample.edgeBlob 1 2 = some [104, 105] ∧
      (Sample.cutBlob.slice 1 4 = Blob.writeLittleEndian 4 2 ∧
        ¬ (Blob.recordAt? Sample.cutBlob 1 2).isSome) ∧
      Blob.recordAtWord? Sample.edgeBlob 0xfffffffffffffffe 2 = none ∧
      Blob.terminatedAtWord Sample.terminatedBlob 1 0xffffffffffffffff =
        .ok (some [104, 105]) := by
  obtain ⟨hrecord, -, -, hwords⟩ := readers_accept_formats Sample.edgeBlob
  obtain ⟨-, hedge, -, -⟩ := readers_accept_formats Sample.cutBlob
  obtain ⟨-, -, -, hterminated⟩ := readers_accept_formats Sample.terminatedBlob
  have hheader : Sample.cutBlob.slice 1 4 = Blob.writeLittleEndian 4 2 := by decide
  refine ⟨(hrecord 1 2 [104, 105]).mpr (by decide), ⟨hheader, ?_⟩, ?_, ?_⟩
  · rw [hedge 1 2 2 (by decide) (by decide) (by decide) hheader]
    decide
  · rw [(hwords (by decide) _ _).1]
    decide
  · rw [(hterminated (by decide) _ _).2]
    decide

end LiteralRecovery
