import LiteralRecovery.Proofs.Probes
import Mathlib.Algebra.Ring.Nat

/-!
# Writing the strings that decoding reads

The reading side of a blob is part of the program: a record, strict UTF-8, the rule by which text is
accepted. Here is the writing side, as an obfuscator has it, and that the one undoes the other
whatever bytes stand around the record.

Both directions of UTF-8 are written in the arithmetic of natural numbers, so the round trip comes
down to one lemma for each kind of byte, and `omega` for the digits.

## Main definitions

* `Utf8.encode`: the bytes of a text
* `Blob.record`: a length in four bytes and as many bytes of payload
* `Text.IsPlain`: the text that is accepted as it stands

## Main results

* `Utf8.decode?_encode`
* `Blob.recordAt?_record`
* `Acceptance.acceptChars_eq_some_iff`, `Acceptance.acceptUtf8_encode`
* `Request.read?_record_of_plain`: what a probe finds at the offset of a record
* `decode?_offset_of_record`: the offset of a record stands for its text
-/

namespace LiteralRecovery

/-! ### UTF-8 -/

namespace Utf8

/-- The bytes of a text. -/
def encode (text : String) : List UInt8 :=
  text.toByteArray.data.toList

/-- The bytes of a text are those of its characters, one after the other. -/
theorem encode_eq (text : String) : encode text = text.toList.flatMap String.utf8EncodeChar := by
  rw [encode, ← String.utf8Encode_toList, List.utf8Encode, List.data_toByteArray]

variable {read : List Char} {due bits least n : Nat} {rest : List UInt8}

/-! The readings of one byte: one that stands for itself, one that leads a longer form, one that
continues it, and the last one. -/

theorem decodeOnto_ascii (h : n < 0x80) :
    decodeOnto read 0 bits least (UInt8.ofNat n :: rest) =
      decodeOnto (Char.ofNat n :: read) 0 0 0 rest := by
  have hbyte : (UInt8.ofNat n).toNat = n := by
    rw [UInt8.toNat_ofNat', Nat.mod_eq_of_lt (by omega)]
  simp only [decodeOnto, hbyte, if_pos h, if_true]

theorem decodeOnto_lead_one (h : n < 0x20) :
    decodeOnto read 0 bits least (UInt8.ofNat (n + 0xc0) :: rest) =
      decodeOnto read 1 n 0x80 rest := by
  have hbyte : (UInt8.ofNat (n + 0xc0)).toNat = n + 0xc0 := by
    rw [UInt8.toNat_ofNat', Nat.mod_eq_of_lt (by omega)]
  rw [decodeOnto, hbyte, if_pos rfl, if_neg (by omega), if_neg (by omega), if_pos (by omega),
    Nat.add_sub_cancel]

theorem decodeOnto_lead_two (h : n < 0x10) :
    decodeOnto read 0 bits least (UInt8.ofNat (n + 0xe0) :: rest) =
      decodeOnto read 2 n 0x800 rest := by
  have hbyte : (UInt8.ofNat (n + 0xe0)).toNat = n + 0xe0 := by
    rw [UInt8.toNat_ofNat', Nat.mod_eq_of_lt (by omega)]
  rw [decodeOnto, hbyte, if_pos rfl, if_neg (by omega), if_neg (by omega), if_neg (by omega),
    if_pos (by omega), Nat.add_sub_cancel]

theorem decodeOnto_lead_three (h : n < 0x08) :
    decodeOnto read 0 bits least (UInt8.ofNat (n + 0xf0) :: rest) =
      decodeOnto read 3 n 0x10000 rest := by
  have hbyte : (UInt8.ofNat (n + 0xf0)).toNat = n + 0xf0 := by
    rw [UInt8.toNat_ofNat', Nat.mod_eq_of_lt (by omega)]
  rw [decodeOnto, hbyte, if_pos rfl, if_neg (by omega), if_neg (by omega), if_neg (by omega),
    if_neg (by omega), if_pos (by omega), Nat.add_sub_cancel]

theorem continuation?_ofNat (h : n < 0x40) : continuation? (UInt8.ofNat (n + 0x80)) = some n := by
  have hbyte : (UInt8.ofNat (n + 0x80)).toNat = n + 0x80 := by
    rw [UInt8.toNat_ofNat', Nat.mod_eq_of_lt (by omega)]
  rw [continuation?, hbyte, if_pos (by omega), Nat.add_sub_cancel]

theorem decodeOnto_continuation (h : n < 0x40) :
    decodeOnto read (due + 2) bits least (UInt8.ofNat (n + 0x80) :: rest) =
      decodeOnto read (due + 1) (bits * 0x40 + n) least rest := by
  rw [decodeOnto, if_neg (by omega), continuation?_ofNat h]
  rfl

theorem scalar?_toNat {char : Char} (h : least ≤ char.toNat) :
    scalar? least char.toNat = some char := by
  rw [scalar?, if_pos ⟨h, char.valid⟩, Char.ofNat_toNat]

theorem decodeOnto_last (char : Char) (h : n < 0x40) (hchar : bits * 0x40 + n = char.toNat)
    (hleast : least ≤ char.toNat) :
    decodeOnto read 1 bits least (UInt8.ofNat (n + 0x80) :: rest) =
      decodeOnto (char :: read) 0 0 0 rest := by
  rw [decodeOnto, if_neg (by omega), continuation?_ofNat h]
  simp only [if_true, hchar, scalar?_toNat hleast]

/-- **One character.** Reading its bytes gives the character back, whatever comes after them. -/
theorem decodeOnto_utf8EncodeChar (char : Char) (read : List Char) (rest : List UInt8) :
    decodeOnto read 0 0 0 (String.utf8EncodeChar char ++ rest) =
      decodeOnto (char :: read) 0 0 0 rest := by
  have hvalid : char.toNat < 0x110000 := by
    have := char.valid
    simp only [UInt32.isValidChar, Nat.isValidChar] at this
    simp only [Char.toNat]
    omega
  rw [String.utf8EncodeChar]
  simp only [show char.val.toNat = char.toNat from rfl]
  split
  · rw [List.singleton_append, decodeOnto_ascii (by omega), Char.ofNat_toNat]
  split
  · rw [List.cons_append, List.singleton_append, decodeOnto_lead_one (by omega),
      decodeOnto_last char (by omega) (by omega) (by omega)]
  split
  · rw [List.cons_append, List.cons_append, List.singleton_append, decodeOnto_lead_two (by omega),
      decodeOnto_continuation (by omega),
      decodeOnto_last char (by omega) (by omega) (by omega)]
  · rw [List.cons_append, List.cons_append, List.cons_append, List.singleton_append,
      decodeOnto_lead_three (by omega), decodeOnto_continuation (by omega),
      decodeOnto_continuation (by omega),
      decodeOnto_last char (by omega) (by omega) (by omega)]

/-- **Decoding undoes encoding.** -/
theorem decode?_encode (text : String) : decode? (encode text) = some text.toList := by
  have hchars : ∀ (chars read : List Char),
      decodeOnto read 0 0 0 (chars.flatMap String.utf8EncodeChar) =
        some (read.reverse ++ chars) := by
    intro chars
    induction chars with
    | nil => intro read; simp [decodeOnto]
    | cons char rest ih =>
      intro read
      rw [List.flatMap_cons, decodeOnto_utf8EncodeChar, ih]
      simp
  rw [encode_eq, decode?, hchars]
  rfl

theorem encode_ne_nil {text : String} (h : text.toList ≠ []) : encode text ≠ [] := by
  intro hnil
  have hread := decode?_encode text
  rw [hnil] at hread
  exact h (Option.some.inj hread).symm

end Utf8

/-! ### Records -/

namespace Blob

/-- A number in so many bytes, the lowest first. -/
def writeLittleEndian : (count n : Nat) → List UInt8
  | 0, _ => []
  | count + 1, n => UInt8.ofNat n :: writeLittleEndian count (n / 0x100)

@[simp] theorem length_writeLittleEndian (count n : Nat) :
    (writeLittleEndian count n).length = count := by
  induction count generalizing n with
  | zero => rfl
  | succ count ih => simp [writeLittleEndian, ih]

theorem littleEndian_writeLittleEndian {count n : Nat} (h : n < 0x100 ^ count) :
    littleEndian (writeLittleEndian count n) = n := by
  induction count generalizing n with
  | zero =>
    simp only [Nat.pow_zero] at h
    simp only [writeLittleEndian, littleEndian]
    omega
  | succ count ih =>
    have hrest : n / 0x100 < 0x100 ^ count := by
      rw [Nat.div_lt_iff_lt_mul (by omega), ← Nat.pow_succ]
      exact h
    rw [writeLittleEndian, littleEndian, ih hrest, UInt8.toNat_ofNat']
    omega

/-- A record: the length of the payload in four bytes, and the payload. -/
def record (payload : List UInt8) : List UInt8 :=
  writeLittleEndian 4 payload.length ++ payload

@[simp] theorem length_record (payload : List UInt8) :
    (record payload).length = 4 + payload.length := by
  simp [record]

/-- A record ends before the bytes do. -/
theorem fits_of_record {bytes : Bytes} {before after payload : List UInt8}
    (hbytes : bytes.toList = before ++ (record payload ++ after)) :
    before.length + 4 + payload.length ≤ bytes.size := by
  rw [← Array.length_toList, hbytes, List.length_append, List.length_append, length_record]
  omega

/-- **A record is read back**, up to the end of the bytes and whatever surrounds it. -/
theorem recordAt?_record {bytes : Bytes} {before after payload : List UInt8} {maxLength : Nat}
    (hbytes : bytes.toList = before ++ (record payload ++ after))
    (hsigned : payload.length < 2 ^ 31) (hne : payload ≠ []) (hmax : payload.length ≤ maxLength) :
    recordAt? bytes before.length maxLength = some payload := by
  have hfits := fits_of_record hbytes
  have hpos : 0 < payload.length := List.length_pos_iff.mpr hne
  have hcount : bytes.slice before.length 4 = writeLittleEndian 4 payload.length := by
    rw [Bytes.slice_eq, hbytes, List.drop_left, record, List.append_assoc,
      List.take_left' (length_writeLittleEndian ..)]
  have hpayload : bytes.slice (before.length + 4) payload.length = payload := by
    rw [Bytes.slice_eq, hbytes, ← List.drop_drop, List.drop_left, record, List.append_assoc,
      List.drop_left' (length_writeLittleEndian ..), List.take_left]
  rw [recordAt?, hcount, littleEndian_writeLittleEndian (by omega), hpayload]
  exact if_pos ⟨hpos, hmax, by omega, hfits⟩

end Blob

/-! ### Text that is accepted as it stands -/

namespace Text

/-- Text with something to see in it, and no control characters but line feeds, carriage returns
and tabs. -/
def IsPlain (text : String) : Prop :=
  (∃ char ∈ text.toList, ¬ isBlank char) ∧ ∀ char ∈ text.toList, isControl char → isLayout char

instance (text : String) : Decidable (IsPlain text) :=
  decidable_of_iff
    (((text.toList.any fun char => !isBlank char) &&
      text.toList.all fun char => !isControl char || isLayout char) = true)
    (by simp only [IsPlain, Bool.and_eq_true, List.any_eq_true, List.all_eq_true,
          Bool.or_eq_true, Bool.not_eq_true', Bool.not_eq_true, Classical.or_iff_not_imp_left,
          Bool.not_eq_false])

theorem IsPlain.toList_ne_nil {text : String} (h : IsPlain text) : text.toList ≠ [] := by
  obtain ⟨char, hchar, -⟩ := h.1
  exact List.ne_nil_of_mem hchar

theorem IsPlain.isStrayControl {text : String} (h : IsPlain text) {char : Char}
    (hchar : char ∈ text.toList) : isStrayControl char = false := by
  by_cases hcontrol : isControl char
  · simp [Text.isStrayControl, h.2 char hchar hcontrol]
  · simp [Text.isStrayControl, hcontrol]

theorem isPlain_ofList_iff {chars : List Char} :
    IsPlain (String.ofList chars) ↔ ¬ (chars.all isBlank || chars.any isStrayControl) := by
  simp only [IsPlain, String.toList_ofList, isStrayControl, Bool.or_eq_true, not_or,
    List.all_eq_true, List.any_eq_true, Bool.and_eq_true, Bool.not_eq_true', not_forall, not_exists,
    not_and, Bool.not_eq_false, exists_prop]

end Text

namespace Acceptance

/-- Text that does not begin with a stray control character has no length in front of it. -/
theorem dropLengthMark_of_plain {text : String} (h : Text.IsPlain text) :
    dropLengthMark text.toList = text.toList := by
  cases hchars : text.toList with
  | nil => rfl
  | cons first rest =>
    have hfirst := h.isStrayControl (hchars ▸ List.mem_cons_self ..)
    simp [dropLengthMark, hfirst]

/-- **What is accepted** is the text without a length mark, if that is plain. -/
theorem acceptChars_eq_some_iff {chars accepted : List Char} :
    Acceptance.text.acceptChars chars = some accepted ↔
      dropLengthMark chars = accepted ∧ Text.IsPlain (String.ofList accepted) := by
  rw [acceptChars, Option.ite_none_left_eq_some, Option.some.injEq, and_comm]
  refine and_congr_right fun haccepted => ?_
  rw [Text.isPlain_ofList_iff, haccepted]

theorem acceptChars_of_plain {text : String} (h : Text.IsPlain text) :
    Acceptance.text.acceptChars text.toList = some text.toList := by
  refine acceptChars_eq_some_iff.mpr ⟨dropLengthMark_of_plain h, ?_⟩
  rwa [String.ofList_toList]

/-- **Plain text survives encoding, decoding and the test for acceptance, verbatim.** -/
theorem acceptUtf8_encode {text : String} (h : Text.IsPlain text) :
    Acceptance.text.acceptUtf8 (Utf8.encode text) = some text := by
  rw [acceptUtf8, Utf8.decode?_encode, Option.bind_some, acceptChars_of_plain h, Option.map_some,
    String.ofList_toList]

end Acceptance

/-! ### Where a request succeeds -/

namespace Request

variable {request : Request} {finding : Finding}

/-- A probe of a record finds the text of its payload. -/
theorem read?_of_recordAt? {offset : Nat} {payload : List UInt8} {text : String}
    (hrecord : Blob.recordAt? request.blob offset request.config.maxLength = some payload)
    (htext : request.payloadText? payload = some text) :
    request.read? (.record offset) = some ⟨text, some offset⟩ := by
  rw [read?, hrecord, Option.bind_some, htext, Option.map_some]

/-- A strategy finds what stands at a probe if nothing stands at its probes before. -/
theorem attempt?_of_probes {strategy : Strategy} {probe : Probe} {earlier later : List Probe}
    (hprobes : request.probes strategy = earlier ++ probe :: later)
    (hmiss : ∀ other ∈ earlier, request.read? other = none)
    (hread : request.read? probe = some finding) :
    request.attempt? strategy = some finding := by
  rw [attempt?_eq_findSome?]
  exact List.findSome?_eq_some_iff.mpr ⟨earlier, probe, later, hprobes, hread, hmiss⟩

/-- A strategy that looks at one offset, if it exists, finds the record that stands there. -/
theorem attempt?_of_offset {strategy : Strategy} {offset? : Option Nat} {offset : Nat}
    (hprobes : request.probes strategy = (offset?.map .record).toList)
    (hoffset : offset? = some offset) (hread : request.read? (.record offset) = some finding) :
    request.attempt? strategy = some finding := by
  rw [attempt?_eq_findSome?, hprobes, hoffset, Option.map_some, Option.toList_some,
    List.findSome?_singleton, hread]

/-- A strategy counts if those before it find nothing. -/
theorem first?_of_attempt? {strategy : Strategy} (earlier later : List Strategy)
    (hmiss : ∀ other ∈ earlier, request.attempt? other = none)
    (hattempt : request.attempt? strategy = some finding) :
    request.first? (earlier ++ strategy :: later) =
      some ⟨finding.value, strategy, finding.offset⟩ := by
  refine List.findSome?_eq_some_iff.mpr ⟨earlier, strategy, later, rfl, ?_, fun other hother => ?_⟩
  · rw [hattempt, Option.map_some]
  · rw [hmiss other hother, Option.map_none]

end Request

/-! ### The first strategy -/

theorem directOffset?_ofNat {size offset : Nat} (hoffset : offset < size) (hsize : size < 2 ^ 31) :
    directOffset? size (Int32.ofNat offset) = some offset := by
  have htoInt : (Int32.ofNat offset).toInt = offset := Int32.toInt_ofNat_of_lt (by omega)
  simp [directOffset?, htoInt, hoffset]

section Record

variable {config : Config} {blob : Bytes} {before after : List UInt8} {text : String}

/-- **A probe of a record finds its text.** -/
theorem Request.read?_record_of_plain (decoder : Option Decoder) (constant : Int32)
    (hblob : blob.toList = before ++ (Blob.record (Utf8.encode text) ++ after))
    (hsize : blob.size < 2 ^ 31) (hplain : Text.IsPlain text)
    (hmax : (Utf8.encode text).length ≤ config.maxLength) :
    (Population.full.request config blob decoder constant).read? (.record before.length) =
      some ⟨text, some before.length⟩ := by
  have hfits := Blob.fits_of_record hblob
  have hrecord := Blob.recordAt?_record hblob (by omega) (Utf8.encode_ne_nil hplain.toList_ne_nil)
    hmax
  refine Request.read?_of_recordAt? hrecord ?_
  simp [Request.payloadText?, Population.request, Population.acceptance,
    Acceptance.acceptUtf8_encode hplain]

/-- A record begins before the blob ends. -/
theorem Blob.length_lt_size_of_record {payload : List UInt8}
    (hblob : blob.toList = before ++ (record payload ++ after)) : before.length < blob.size := by
  have hfits := fits_of_record hblob
  omega

/-- **The offset of a record stands for its text.** No other strategy is tried: the offset from the
start comes first. -/
theorem decode?_offset_of_record (decoder : Option Decoder)
    (hblob : blob.toList = before ++ (Blob.record (Utf8.encode text) ++ after))
    (hsize : blob.size < 2 ^ 31) (hplain : Text.IsPlain text)
    (hmax : (Utf8.encode text).length ≤ config.maxLength) :
    decode? config blob decoder .full (Int32.ofNat before.length) =
      some ⟨text, .directOffset, some before.length⟩ := by
  have hoffset := directOffset?_ofNat (Blob.length_lt_size_of_record hblob) hsize
  have hread := Request.read?_record_of_plain decoder (Int32.ofNat before.length) hblob hsize hplain
    hmax
  exact Request.first?_of_attempt? [] _ (List.forall_mem_nil _)
    (Request.attempt?_of_offset rfl hoffset hread)

end Record

end LiteralRecovery
