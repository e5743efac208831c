import LiteralRecovery.Proofs.Provenance

/-!
# Text in 16-bit units

A record may hold its text in UTF-16, low byte first. Nothing in the record says so: its payload is
always tried as UTF-8 first, and only what is not accepted then is read in units of two bytes. Here
is the writing side of these units, that reading undoes it, and that the first attempt does not get
in the way as long as the text has a character below U+0100.

Such a character is written with a zero as its high byte. As UTF-8 a zero byte is a character of its
own, wherever it stands, and no text with that character in it is accepted: it is a stray control
character, and as a length mark it would stand in front of nothing. Text without any such character
is not covered. Its bytes may well be some other text in UTF-8, which then comes first.

The reader of units is strict. It gives a text for exactly those bytes that are the encoding of the
text (`Utf16.decode?_eq_some_iff`), so nothing that holds half of a pair of surrogates is read.

## Main definitions

* `Utf16.unitsOf`: a character as a unit, or as a pair of surrogates
* `Utf16.encode`: the bytes of a text

## Main results

* `Utf16.bytesOf_of_units?`, `Utf16.flatMap_unitsOf_of_charsOnto`: what is read is what was written
* `Utf16.decode?_eq_some_iff`: the reader accepts exactly what the writer produces
* `Utf8.nul_mem_of_decode?`, `Acceptance.acceptChars_eq_none_of_nul`
* `wide_text_recovered`
-/

namespace LiteralRecovery

/-! ### Writing and reading -/

namespace Utf16

/-- The 16-bit units of a character: its number, or, if that is too large, a pair of surrogates with
ten bits each of what exceeds `0x10000`. -/
def unitsOf (char : Char) : List Nat :=
  if char.toNat < 0x10000 then [char.toNat]
  else [0xd800 + (char.toNat - 0x10000) / 0x400, 0xdc00 + (char.toNat - 0x10000) % 0x400]

/-- The bytes of units, the low one first. -/
def bytesOf (units : List Nat) : List UInt8 :=
  units.flatMap (Blob.writeLittleEndian 2)

/-- The bytes of a text. -/
def encode (text : String) : List UInt8 :=
  bytesOf (text.toList.flatMap unitsOf)

@[simp] theorem bytesOf_cons (unit : Nat) (units : List Nat) :
    bytesOf (unit :: units) = Blob.writeLittleEndian 2 unit ++ bytesOf units :=
  rfl

/-! ### Units and bytes -/

theorem units?_cons (low high : UInt8) (rest : List UInt8) :
    units? (low :: high :: rest) = (units? rest).map (Blob.littleEndian [low, high] :: ·) := by
  rw [units?, unitsOnto, unitsOnto_eq]
  rfl

/-- Units are read back from the bytes that write them. -/
theorem units?_bytesOf {units : List Nat} (h : ∀ unit ∈ units, unit < 0x10000) :
    units? (bytesOf units) = some units := by
  induction units with
  | nil => rfl
  | cons unit units ih =>
    have hunit : Blob.littleEndian (Blob.writeLittleEndian 2 unit) = unit :=
      Blob.littleEndian_writeLittleEndian (h unit (List.mem_cons_self ..))
    have hrest := ih fun other hother => h other (List.mem_cons_of_mem _ hother)
    have hbytes : bytesOf (unit :: units) =
        UInt8.ofNat unit :: UInt8.ofNat (unit / 0x100) :: bytesOf units := rfl
    rw [hbytes, units?_cons, hrest, Option.map_some]
    exact congrArg (fun number => some (number :: units)) hunit

/-- What is read as units is what they write. -/
theorem bytesOf_of_units? : ∀ {bytes : List UInt8} {units : List Nat},
    units? bytes = some units → bytesOf units = bytes ∧ ∀ unit ∈ units, unit < 0x10000
  | [], units, h => by
    obtain rfl : [] = units := Option.some.inj h
    exact ⟨rfl, List.forall_mem_nil _⟩
  | [byte], units, h => by cases h
  | low :: high :: rest, units, h => by
    rw [units?_cons] at h
    obtain ⟨others, hothers, rfl⟩ := Option.map_eq_some_iff.mp h
    obtain ⟨hbytes, hbound⟩ := bytesOf_of_units? hothers
    have hpair := Blob.writeLittleEndian_littleEndian [low, high]
    refine ⟨?_, List.forall_mem_cons.mpr ⟨?_, hbound⟩⟩
    · rw [bytesOf_cons, hbytes]
      exact congrArg (· ++ rest) hpair
    · have hlow := low.toNat_lt
      have hhigh := high.toNat_lt
      simp only [Blob.littleEndian]
      omega

/-! ### Characters and units -/

theorem toNat_lt_or (char : Char) :
    char.toNat < 0xd800 ∨ 0xdfff < char.toNat ∧ char.toNat < 0x110000 :=
  char.valid

theorem unitsOf_lt {char : Char} {unit : Nat} (h : unit ∈ unitsOf char) : unit < 0x10000 := by
  have hvalid := toNat_lt_or char
  rw [unitsOf] at h
  split at h <;> simp only [List.mem_cons, List.not_mem_nil, or_false] at h <;> omega

/-- **One character.** Reading its units gives the character back, whatever comes after them. -/
theorem charsOnto_unitsOf (char : Char) (read : List Char) (rest : List Nat) :
    charsOnto read none (unitsOf char ++ rest) = charsOnto (char :: read) none rest := by
  have hvalid := toNat_lt_or char
  rw [unitsOf]
  split
  next hsmall =>
    have hhigh : isHighSurrogate char.toNat = false := by
      simp only [isHighSurrogate, Bool.and_eq_false_iff, decide_eq_false_iff_not]
      omega
    have hlow : isLowSurrogate char.toNat = false := by
      simp only [isLowSurrogate, Bool.and_eq_false_iff, decide_eq_false_iff_not]
      omega
    simp [charsOnto, hhigh, hlow, Char.ofNat_toNat]
  next hlarge =>
    have hhigh : isHighSurrogate (0xd800 + (char.toNat - 0x10000) / 0x400) = true := by
      simp only [isHighSurrogate, Bool.and_eq_true, decide_eq_true_eq]
      omega
    have hlow : isLowSurrogate (0xdc00 + (char.toNat - 0x10000) % 0x400) = true := by
      simp only [isLowSurrogate, Bool.and_eq_true, decide_eq_true_eq]
      omega
    have hpaired : paired (0xd800 + (char.toNat - 0x10000) / 0x400)
        (0xdc00 + (char.toNat - 0x10000) % 0x400) = char := by
      have hnumber : 0x10000 + (0xd800 + (char.toNat - 0x10000) / 0x400 - 0xd800) * 0x400 +
          (0xdc00 + (char.toNat - 0x10000) % 0x400 - 0xdc00) = char.toNat := by omega
      rw [paired, hnumber, Char.ofNat_toNat]
    simp [charsOnto, hhigh, hlow, hpaired]

theorem toNat_charOfNat {number : Nat} (h : number.isValidChar) :
    (Char.ofNat number).toNat = number := by
  rw [Char.ofNat, dif_pos h]
  rfl

/-- A unit that is no surrogate is the character of that number. -/
theorem unitsOf_ofNat {unit : Nat} (hunit : unit < 0x10000) (hhigh : ¬ isHighSurrogate unit)
    (hlow : ¬ isLowSurrogate unit) : unitsOf (Char.ofNat unit) = [unit] := by
  simp only [isHighSurrogate, isLowSurrogate, Bool.and_eq_true, decide_eq_true_eq] at hhigh hlow
  have hvalid : unit.isValidChar := by
    simp only [Nat.isValidChar]
    omega
  rw [unitsOf, toNat_charOfNat hvalid, if_pos hunit]

/-- A pair of surrogates is the character that it writes. -/
theorem unitsOf_paired {high low : Nat} (hhigh : isHighSurrogate high)
    (hlow : isLowSurrogate low) : unitsOf (paired high low) = [high, low] := by
  simp only [isHighSurrogate, isLowSurrogate, Bool.and_eq_true, decide_eq_true_eq] at hhigh hlow
  have hvalid : (0x10000 + (high - 0xd800) * 0x400 + (low - 0xdc00)).isValidChar := by
    simp only [Nat.isValidChar]
    omega
  rw [unitsOf, paired, toNat_charOfNat hvalid, if_neg (by omega)]
  simp only [List.cons.injEq, and_true]
  omega

/-- What is read as characters is what they write, after the characters read before and the first
half that waits for its second. -/
theorem flatMap_unitsOf_of_charsOnto {units : List Nat} (hunits : ∀ unit ∈ units, unit < 0x10000)
    {read chars : List Char} {pending : Option Nat}
    (hpending : ∀ high ∈ pending, isHighSurrogate high)
    (h : charsOnto read pending units = some chars) :
    chars.flatMap unitsOf = read.reverse.flatMap unitsOf ++ pending.toList ++ units := by
  induction units generalizing read pending with
  | nil =>
    cases pending with
    | none => simpa [charsOnto] using (congrArg (List.flatMap unitsOf) (Option.some.inj h)).symm
    | some high => cases h
  | cons unit rest ih =>
    obtain ⟨hunit, hrest⟩ := List.forall_mem_cons.mp hunits
    cases pending with
    | some high =>
      obtain ⟨hlow, hnext⟩ := Option.ite_none_right_eq_some.mp h
      rw [ih hrest (by simp) hnext]
      simp [unitsOf_paired (hpending high rfl) hlow]
    | none =>
      rw [charsOnto] at h
      split at h
      next hhigh =>
        rw [ih hrest (by simpa using hhigh) h]
        simp
      next hhigh =>
        obtain ⟨hlow, hnext⟩ := Option.ite_none_left_eq_some.mp h
        rw [ih hrest (by simp) hnext]
        simp [unitsOf_ofNat hunit hhigh hlow]

/-- **Reading accepts exactly what writing produces.** In particular nothing with an odd byte at the
end or with half of a pair is read. -/
theorem decode?_eq_some_iff {bytes : List UInt8} {text : String} :
    decode? bytes = some text.toList ↔ bytes = encode text := by
  constructor
  · intro h
    obtain ⟨units, hunits, hchars⟩ := Option.bind_eq_some_iff.mp h
    obtain ⟨hbytes, hbound⟩ := bytesOf_of_units? hunits
    rw [encode, flatMap_unitsOf_of_charsOnto hbound (by simp) hchars, ← hbytes]
    simp
  · rintro rfl
    have hchars : ∀ (chars read : List Char),
        charsOnto read none (chars.flatMap unitsOf) = some (read.reverse ++ chars) := by
      intro chars
      induction chars with
      | nil => intro read; simp [charsOnto]
      | cons char rest ih =>
        intro read
        rw [List.flatMap_cons, charsOnto_unitsOf, ih]
        simp
    have hbound : ∀ unit ∈ text.toList.flatMap unitsOf, unit < 0x10000 := by
      intro unit hunit
      obtain ⟨char, -, hchar⟩ := List.mem_flatMap.mp hunit
      exact unitsOf_lt hchar
    rw [decode?, encode, units?_bytesOf hbound, Option.bind_some, chars?, hchars]
    rfl

/-- A character below U+0100 is written with a zero byte. -/
theorem zero_mem_encode {text : String} {char : Char} (hmem : char ∈ text.toList)
    (hnarrow : char.toNat < 0x100) : 0 ∈ encode text := by
  have hunits : unitsOf char = [char.toNat] := if_pos (by omega)
  have hhigh : UInt8.ofNat (char.toNat / 0x100) = 0 := by rw [Nat.div_eq_of_lt hnarrow]; rfl
  rw [encode, bytesOf, List.mem_flatMap]
  refine ⟨char.toNat, List.mem_flatMap.mpr ⟨char, hmem, by simp [hunits]⟩, ?_⟩
  simp [Blob.writeLittleEndian, hhigh]

end Utf16

/-! ### The same bytes as UTF-8 -/

namespace Utf8

/-- What one byte does: it adds characters to those read, and a zero byte adds the character zero.
It begins no longer form and continues none. -/
theorem exists_of_decodeOnto_cons {byte : UInt8} {rest : List UInt8} {read chars : List Char}
    {due bits least : Nat} (h : decodeOnto read due bits least (byte :: rest) = some chars) :
    ∃ added due' bits' least', decodeOnto (added ++ read) due' bits' least' rest = some chars ∧
      (byte = 0 → added = ['\x00']) := by
  have hcontinues : byte = 0 → continuation? byte = none := by
    rintro rfl
    rfl
  rw [decodeOnto] at h
  split at h
  next =>
    split at h
    next => exact ⟨[_], _, _, _, h, by rintro rfl; rfl⟩
    next hlead =>
      have hne : byte ≠ 0 := by
        rintro rfl
        exact hlead (by decide)
      split at h
      · cases h
      split at h
      · exact ⟨[], _, _, _, h, fun hzero => absurd hzero hne⟩
      split at h
      · exact ⟨[], _, _, _, h, fun hzero => absurd hzero hne⟩
      split at h
      · exact ⟨[], _, _, _, h, fun hzero => absurd hzero hne⟩
      · cases h
  next =>
    split at h
    next => cases h
    next low hlow =>
      have hne : byte ≠ 0 := by
        intro hzero
        rw [hcontinues hzero] at hlow
        cases hlow
      split at h
      · split at h
        · cases h
        · exact ⟨[_], _, _, _, h, fun hzero => absurd hzero hne⟩
      · exact ⟨[], _, _, _, h, fun hzero => absurd hzero hne⟩

/-- Characters that were read stay, and a zero byte is one of them. -/
theorem mem_of_decodeOnto {bytes : List UInt8} {read chars : List Char} {due bits least : Nat}
    (h : decodeOnto read due bits least bytes = some chars) :
    (∀ char ∈ read, char ∈ chars) ∧ (0 ∈ bytes → '\x00' ∈ chars) := by
  induction bytes generalizing read due bits least with
  | nil =>
    obtain ⟨-, hread⟩ := Option.ite_none_right_eq_some.mp h
    obtain rfl := Option.some.inj hread
    simp
  | cons byte rest ih =>
    obtain ⟨added, due', bits', least', hrest, hadded⟩ := exists_of_decodeOnto_cons h
    obtain ⟨hstay, hlater⟩ := ih hrest
    refine ⟨fun char hchar => hstay char (List.mem_append_right _ hchar), fun hzero => ?_⟩
    rcases List.mem_cons.mp hzero with hfirst | hzero
    · exact hstay _ (by simp [hadded hfirst.symm])
    · exact hlater hzero

/-- **A zero byte is a character**, wherever it stands. -/
theorem nul_mem_of_decode? {bytes : List UInt8} {chars : List Char} (hzero : 0 ∈ bytes)
    (h : decode? bytes = some chars) : '\x00' ∈ chars :=
  (mem_of_decodeOnto h).2 hzero

end Utf8

namespace Acceptance

/-- Text with the character zero in it is not accepted: it is no plain text, and as a length mark
the character stands in front of nothing. -/
theorem acceptChars_eq_none_of_nul {chars : List Char} (hnul : '\x00' ∈ chars) :
    Acceptance.text.acceptChars chars = none := by
  rw [Option.eq_none_iff_forall_ne_some]
  intro accepted haccepted
  obtain ⟨hdropped, hplain⟩ := acceptChars_eq_some_iff.mp haccepted
  have hclean : '\x00' ∉ accepted := by
    intro hmem
    have hstray := hplain.isStrayControl (by rwa [String.toList_ofList])
    exact absurd hstray (by decide)
  have hvisible : accepted ≠ [] := by
    simpa only [String.toList_ofList] using hplain.toList_ne_nil
  cases chars with
  | nil => cases hnul
  | cons first rest =>
    rw [dropLengthMark] at hdropped
    split at hdropped
    next hmark =>
      subst hdropped
      rcases List.mem_cons.mp hnul with rfl | hrest
      · simp only [Bool.and_eq_true, beq_iff_eq] at hmark
        exact hvisible (List.length_eq_zero_iff.mp hmark.2)
      · exact hclean hrest
    next => exact hclean (hdropped ▸ hnul)

end Acceptance

/-! ### Records -/

section Record

variable {config : Config} {blob : Bytes} {before after : List UInt8} {text : String}

/-- Plain text with a character below U+0100 is not accepted as UTF-8 from its bytes in UTF-16. -/
theorem acceptUtf8_wide (hnarrow : ∃ char ∈ text.toList, char.toNat < 0x100) :
    Acceptance.text.acceptUtf8 (Utf16.encode text) = none := by
  obtain ⟨char, hmem, hchar⟩ := hnarrow
  rw [Acceptance.acceptUtf8, Option.map_eq_none_iff, Option.bind_eq_none_iff]
  intro chars hchars
  exact Acceptance.acceptChars_eq_none_of_nul
    (Utf8.nul_mem_of_decode? (Utf16.zero_mem_encode hmem hchar) hchars)

/-- The payload of a record in UTF-16 gives its text, where that is configured. -/
theorem Request.payloadText?_wide {request : Request} (hrule : request.acceptance = .text)
    (hconfig : request.config.utf16) (hplain : Text.IsPlain text)
    (hnarrow : ∃ char ∈ text.toList, char.toNat < 0x100) :
    request.payloadText? (Utf16.encode text) = some text := by
  have hread : Utf16.decode? (Utf16.encode text) = some text.toList :=
    Utf16.decode?_eq_some_iff.mpr rfl
  rw [payloadText?, hrule, acceptUtf8_wide hnarrow, hread, Option.bind_some,
    Acceptance.acceptChars_of_plain hplain]
  dsimp only
  rw [if_pos hconfig, Option.map_some, String.ofList_toList]

/-- **Text in UTF-16 is recovered**, if its reading is configured and the text has a character below
U+0100. The offset of the record stands for the text, whatever bytes surround the record and
whatever the decoder. -/
theorem wide_text_recovered (hplain : Text.IsPlain text)
    (hnarrow : ∃ char ∈ text.toList, char.toNat < 0x100) (hconfig : config.utf16)
    (hmax : (Utf16.encode text).length ≤ config.maxLength)
    (hsigned : (Utf16.encode text).length < 2 ^ 31) (hoffset : before.length < 2 ^ 31)
    (hblob : blob.toList = before ++ (Blob.record (Utf16.encode text) ++ after))
    (decoder : Option Decoder) :
    decode? config blob decoder .full (Int32.ofNat before.length) =
      some ⟨text, .directOffset, some before.length⟩ := by
  have hne : Utf16.encode text ≠ [] := by
    obtain ⟨char, hmem, hchar⟩ := hnarrow
    exact List.ne_nil_of_mem (Utf16.zero_mem_encode hmem hchar)
  have hdirect : directOffset? blob.size (Int32.ofNat before.length) = some before.length := by
    have hnumber := Int32.toInt_ofNat_of_lt hoffset
    have hinside := Blob.length_lt_size_of_record hblob
    exact directOffset?_eq_some_iff.mpr ⟨by omega, hnumber.symm, hinside⟩
  have hpayload : (Population.full.request config blob decoder
      (Int32.ofNat before.length)).payloadText? (Utf16.encode text) = some text :=
    Request.payloadText?_wide rfl hconfig hplain hnarrow
  have hread := Request.read?_of_recordAt? (Blob.recordAt?_record hblob hsigned hne hmax) hpayload
  exact Request.first?_of_attempt? [] _ (List.forall_mem_nil _)
    (Request.attempt?_of_offset rfl hdirect hread)

end Record

namespace Sample

/-- A text with a letter below U+0100, one above it and one that takes a pair of surrogates, in
UTF-16 between other bytes. -/
def surrogateBlob : Bytes :=
  #[0xee, 0xee, 8, 0, 0, 0, 0xe9, 0, 0x02, 0x30, 0x3d, 0xd8, 0x00, 0xde, 0xee]

end Sample

/-- The record at offset 2 of such a blob. -/
theorem wide_text_recovered_sample :
    Text.IsPlain "é。😀" ∧ (∃ char ∈ "é。😀".toList, char.toNat < 0x100) ∧
      decode? .aggressive Sample.surrogateBlob none .full 2 =
        some ⟨"é。😀", .directOffset, some 2⟩ := by
  have hplain : Text.IsPlain "é。😀" := by decide
  have hnarrow : ∃ char ∈ "é。😀".toList, char.toNat < 0x100 := ⟨'é', by decide, by decide⟩
  have hmax : (Utf16.encode "é。😀").length ≤ Config.aggressive.maxLength := by decide
  have hblob : Sample.surrogateBlob.toList =
      [0xee, 0xee] ++ (Blob.record (Utf16.encode "é。😀") ++ [0xee]) := by decide
  exact ⟨hplain, hnarrow,
    wide_text_recovered hplain hnarrow rfl hmax (by decide) (by decide) hblob none⟩

end LiteralRecovery
