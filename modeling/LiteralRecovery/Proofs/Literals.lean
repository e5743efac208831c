import LiteralRecovery.Proofs.Encoding

/-!
# What becomes a literal

Decoding ends in text that is written into a program, so nothing may get there that nobody would
have written. Accepted text is plain: there is something to see in it, and no control character but
line feeds, carriage returns and tabs. Plain text is also what is accepted as it stands
(`Acceptance.accept_of_plain`), so accepting a second time changes nothing. This holds for every
strategy and for every way to read bytes, because they all end in the same rule.

## Length marks

A text may carry its own length, as a control character in front whose code point is the number of
characters that follow. Such a mark is no part of the literal and is taken off. By this rule a tab
in front of nine characters is a mark, and so are a line feed in front of ten and a carriage return
in front of thirteen. These three are not recognised, because plain text may hold them, and the
literal comes out with its mark as a first character (`leading_tab_kept`).

## Short constants

A short constant stands for one character or for none. The first key counts under which it is the
code of a printable one, and the blob and the decoder have no say.

## Main definitions

* `Text.IsPrintable`: the code of a printable ASCII character
* `SpellsChar`: the character of a short constant
* `letter?`: the character of a code, as decoding gives it

## Main results

* `Acceptance.isPlain_of_bind`, `Acceptance.accept_of_plain`
* `length_mark_removed`, `leading_tab_kept`
* `isPlain_of_decode?`, `decode?_short_eq_some_iff`
* `only_clean_literals`
-/

namespace LiteralRecovery

/-! ### Accepted text -/

namespace Acceptance

/-- Plain text is accepted as it stands. -/
theorem accept_of_plain {text : String} (h : Text.IsPlain text) :
    Acceptance.text.accept text = some text := by
  rw [accept, acceptChars_of_plain h, Option.map_some, String.ofList_toList]

/-- A length mark is one character. -/
theorem dropLengthMark_eq_or (chars : List Char) :
    dropLengthMark chars = chars ∨ ∃ first, chars = first :: dropLengthMark chars := by
  cases chars with
  | nil => exact .inl rfl
  | cons first rest =>
    rw [dropLengthMark]
    split
    · exact .inr ⟨first, rfl⟩
    · exact .inl rfl

/-- Accepted text is the text itself, or the text without its first character. -/
theorem eq_or_of_accept {text accepted : String}
    (h : Acceptance.text.accept text = some accepted) :
    accepted = text ∨ ∃ first, text.toList = first :: accepted.toList := by
  obtain ⟨chars, hchars, rfl⟩ := Option.map_eq_some_iff.mp h
  obtain ⟨rfl, -⟩ := acceptChars_eq_some_iff.mp hchars
  rw [String.toList_ofList]
  refine (dropLengthMark_eq_or text.toList).imp (fun hsame => ?_) id
  rw [hsame, String.ofList_toList]

/-- Accepted text is plain, whatever its characters were decoded from. -/
theorem isPlain_of_bind {chars? : Option (List Char)} {text : String}
    (h : (chars?.bind Acceptance.text.acceptChars).map String.ofList = some text) :
    Text.IsPlain text := by
  obtain ⟨accepted, haccepted, rfl⟩ := Option.map_eq_some_iff.mp h
  obtain ⟨chars, -, hchars⟩ := Option.bind_eq_some_iff.mp haccepted
  exact (acceptChars_eq_some_iff.mp hchars).2

end Acceptance

/-! ### Length marks -/

/-- **Length marks are removed**, unless they are line feeds, carriage returns or tabs. These are
not recognised as marks, and text behind one of them is accepted together with it. -/
theorem length_mark_removed {mark : Char} {text : String} (hmark : Text.isControl mark)
    (hlength : text.length = mark.toNat) (hplain : Text.IsPlain text) :
    (¬ Text.isLayout mark →
      Acceptance.text.accept (String.singleton mark ++ text) = some text) ∧
    (Text.isLayout mark →
      Acceptance.text.accept (String.singleton mark ++ text) =
        some (String.singleton mark ++ text)) := by
  have hchars : (String.singleton mark ++ text).toList = mark :: text.toList := by simp
  constructor
  · intro hstray
    have hdrop : Acceptance.dropLengthMark (mark :: text.toList) = text.toList := by
      simp [Acceptance.dropLengthMark, Text.isStrayControl, hmark, hstray, String.length_toList,
        hlength]
    have haccepted : Acceptance.text.acceptChars (mark :: text.toList) = some text.toList := by
      refine Acceptance.acceptChars_eq_some_iff.mpr ⟨hdrop, ?_⟩
      rwa [String.ofList_toList]
    rw [Acceptance.accept, hchars, haccepted, Option.map_some, String.ofList_toList]
  · intro hlayout
    refine Acceptance.accept_of_plain ⟨?_, ?_⟩
    · obtain ⟨char, hchar, hvisible⟩ := hplain.1
      exact ⟨char, hchars ▸ List.mem_cons_of_mem _ hchar, hvisible⟩
    · rw [hchars]
      rintro char (_ | ⟨_, hchar⟩) hcontrol
      · exact hlayout
      · exact hplain.2 char hchar hcontrol

/-- A tab in front of nine characters is a mark by the rule, since it is a control character and its
code point is the number of the characters behind it. It stays in the literal all the same. -/
theorem leading_tab_kept :
    Text.isControl '\t' ∧ "ninechars".length = '\t'.toNat ∧ Text.IsPlain "ninechars" ∧
      Acceptance.text.accept (String.singleton '\t' ++ "ninechars") = some "\tninechars" ∧
      Acceptance.text.accept (String.singleton '\t' ++ "ninechars") ≠ some "ninechars" := by
  decide

/-- A mark of each kind: the code point 2 in front of two characters goes, and a line feed in front
of ten characters stays. -/
theorem length_mark_removed_sample :
    Acceptance.text.accept (String.singleton '\x02' ++ "hi") = some "hi" ∧
      Acceptance.text.accept (String.singleton '\n' ++ "\tninechars") = some "\n\tninechars" :=
  ⟨(length_mark_removed (by decide) (by decide) (by decide)).1 (by decide),
    (length_mark_removed (by decide) (by decide) (by decide)).2 (by decide)⟩

/-! ### Decoded text -/

namespace Request

variable {request : Request} {finding : Finding}

theorem isPlain_of_payloadText? {payload : List UInt8} {text : String}
    (hrule : request.acceptance = .text) (h : request.payloadText? payload = some text) :
    Text.IsPlain text := by
  rw [payloadText?, hrule] at h
  split at h
  next found hfound => exact Acceptance.isPlain_of_bind (hfound.trans h)
  next => exact Acceptance.isPlain_of_bind (Option.ite_none_right_eq_some.mp h).2

/-- What stands at a probe is plain text, whatever the probe. -/
theorem isPlain_of_read? {probe : Probe} (hrule : request.acceptance = .text)
    (h : request.read? probe = some finding) : Text.IsPlain finding.value := by
  cases probe with
  | record offset =>
    obtain ⟨value, hvalue, rfl⟩ := Option.map_eq_some_iff.mp h
    obtain ⟨payload, -, hpayload⟩ := Option.bind_eq_some_iff.mp hvalue
    exact isPlain_of_payloadText? hrule hpayload
  | terminated offset =>
    obtain ⟨value, hvalue, rfl⟩ := Option.map_eq_some_iff.mp (Option.ite_none_left_eq_some.mp h).2
    obtain ⟨payload, -, hpayload⟩ := Option.bind_eq_some_iff.mp hvalue
    rw [hrule] at hpayload
    exact Acceptance.isPlain_of_bind hpayload
  | letter code =>
    obtain ⟨chars, hchars, rfl⟩ := Option.map_eq_some_iff.mp (Option.ite_none_right_eq_some.mp h).2
    rw [hrule] at hchars
    exact (Acceptance.acceptChars_eq_some_iff.mp hchars).2

end Request

section Decoding

variable {config : Config} {blob : Bytes} {decoder : Option Decoder} {constant : Int32}

/-- **Decoded text is plain.** -/
theorem isPlain_of_decode? {candidate : Candidate}
    (h : decode? config blob decoder .full constant = some candidate) :
    Text.IsPlain candidate.value := by
  obtain ⟨strategy, -, hstrategy⟩ := List.exists_of_findSome?_eq_some h
  obtain ⟨finding, hfinding, rfl⟩ := Option.map_eq_some_iff.mp hstrategy
  rw [Request.attempt?_eq_findSome?] at hfinding
  obtain ⟨probe, -, hprobe⟩ := List.exists_of_findSome?_eq_some hfinding
  exact Request.isPlain_of_read? rfl hprobe

/-! ### Short constants -/

/-- The code of a printable ASCII character, the space included. -/
def Text.IsPrintable (code : Int32) : Prop :=
  0x20 ≤ code.toInt ∧ code.toInt ≤ 0x7e

instance (code : Int32) : Decidable (Text.IsPrintable code) :=
  inferInstanceAs (Decidable (_ ∧ _))

/-- The constant is the code of the character under the first of the keys under which it is the code
of a printable one. -/
def SpellsChar (keys : List Int32) (constant : Int32) (char : Char) : Prop :=
  ∃ earlier key later, keys = earlier ++ key :: later ∧
    (∀ other ∈ earlier, ¬ Text.IsPrintable (constant ^^^ other)) ∧
    Text.IsPrintable (constant ^^^ key) ∧ (char.toNat : Int) = (constant ^^^ key).toInt

/-- The character with a printable code. -/
theorem Text.IsPrintable.toNat_ofNat {code : Int32} (h : IsPrintable code) :
    ((Char.ofNat code.toInt.toNat).toNat : Int) = code.toInt := by
  obtain ⟨hlow, hhigh⟩ := h
  have hvalid : code.toInt.toNat.isValidChar := .inl (by omega)
  rw [Char.ofNat, dif_pos hvalid]
  show (code.toInt.toNat : Int) = code.toInt
  omega

/-- A single printable character is accepted. -/
theorem Text.IsPrintable.acceptChars {code : Int32} (h : IsPrintable code) :
    Acceptance.singleChar.acceptChars [Char.ofNat code.toInt.toNat] =
      some [Char.ofNat code.toInt.toNat] := by
  have htoNat := h.toNat_ofNat
  obtain ⟨hlow, hhigh⟩ := h
  refine if_pos ⟨Char.le_def.mpr (UInt32.le_iff_toNat_le.mpr ?_),
    Char.le_def.mpr (UInt32.le_iff_toNat_le.mpr ?_)⟩
  · show 0x20 ≤ (Char.ofNat code.toInt.toNat).toNat
    omega
  · show (Char.ofNat code.toInt.toNat).toNat ≤ 0x7e
    omega

/-- The character with the given code, as decoding gives it. -/
def letter? (code : Int32) : Option Candidate :=
  if Text.IsPrintable code then
    some ⟨String.singleton (Char.ofNat code.toInt.toNat), .shortXorChar, none⟩
  else none

theorem letter?_eq_some_iff {code : Int32} {candidate : Candidate} :
    letter? code = some candidate ↔ Text.IsPrintable code ∧
      ∃ char : Char, (char.toNat : Int) = code.toInt ∧
        candidate = ⟨String.singleton char, .shortXorChar, none⟩ := by
  rw [letter?, Option.ite_none_right_eq_some, Option.some.injEq]
  refine and_congr_right fun hprintable => ⟨?_, ?_⟩
  · rintro rfl
    exact ⟨_, hprintable.toNat_ofNat, rfl⟩
  · rintro ⟨char, hchar, rfl⟩
    rw [← hchar, Int.toNat_natCast, Char.ofNat_toNat]

theorem letter?_eq_none_iff {code : Int32} : letter? code = none ↔ ¬ Text.IsPrintable code := by
  rw [letter?]
  split <;> simp_all

/-- A probe for a letter finds the character that the code stands for. -/
theorem Request.map_read?_letter (code : Int32) :
    ((Population.short.request config blob decoder constant).read? (.letter code)).map
        (fun finding => ⟨finding.value, .shortXorChar, finding.offset⟩) = letter? code := by
  by_cases hprintable : Text.IsPrintable code
  · have hread : (Population.short.request config blob decoder constant).read? (.letter code) =
        (Acceptance.singleChar.acceptChars [Char.ofNat code.toInt.toNat]).map
          fun chars => ⟨String.ofList chars, none⟩ := if_pos hprintable
    rw [hread, hprintable.acceptChars, letter?, if_pos hprintable, String.singleton_eq_ofList]
    rfl
  · have hread : (Population.short.request config blob decoder constant).read? (.letter code) =
        none := if_neg hprintable
    rw [hread, letter?, if_neg hprintable]
    rfl

/-- **What a short constant stands for**: the first character that a key gives. The blob and the
decoder do not occur. -/
theorem decode?_short_eq :
    decode? config blob decoder .short constant =
      config.shortKeys.findSome? fun key => letter? (constant ^^^ key) := by
  rw [decode?, Request.first?, Population.strategies, Strategy.short, List.findSome?_singleton,
    Request.attempt?, Request.masked, List.findSome?_map, List.map_findSome?]
  refine congrArg (List.findSome? · _) (funext fun key => ?_)
  exact Request.map_read?_letter (constant ^^^ key)

theorem decode?_short_eq_some_iff {candidate : Candidate} :
    decode? config blob decoder .short constant = some candidate ↔
      ∃ char, SpellsChar config.shortKeys constant char ∧
        candidate = ⟨String.singleton char, .shortXorChar, none⟩ := by
  rw [decode?_short_eq, List.findSome?_eq_some_iff]
  constructor
  · rintro ⟨earlier, key, later, hkeys, hkey, hearlier⟩
    obtain ⟨hprintable, char, hchar, hcandidate⟩ := letter?_eq_some_iff.mp hkey
    exact ⟨char, ⟨earlier, key, later, hkeys,
      fun other hother => letter?_eq_none_iff.mp (hearlier other hother), hprintable, hchar⟩,
      hcandidate⟩
  · rintro ⟨char, ⟨earlier, key, later, hkeys, hearlier, hprintable, hchar⟩, hcandidate⟩
    exact ⟨earlier, key, later, hkeys,
      letter?_eq_some_iff.mpr ⟨hprintable, char, hchar, hcandidate⟩,
      fun other hother => letter?_eq_none_iff.mpr (hearlier other hother)⟩

theorem decode?_short_eq_none_iff :
    decode? config blob decoder .short constant = none ↔
      ∀ key ∈ config.shortKeys, ¬ Text.IsPrintable (constant ^^^ key) := by
  simp only [decode?_short_eq, List.findSome?_eq_none_iff, letter?_eq_none_iff]

end Decoding

/-! ### All literals -/

/-- **Only clean literals are produced, and accepting them again changes nothing.** What decoding
finds in the blob is plain text, which is accepted as it stands. What it finds for a short constant
is the printable character that the first suitable key gives, and nothing exactly if there is no
such key, in whatever blob and for whatever decoder. And no more is ever taken off a text than its
first character. -/
theorem only_clean_literals (config : Config) (blob : Bytes) (decoder : Option Decoder)
    (constant : Int32) :
    (∀ candidate, decode? config blob decoder .full constant = some candidate →
      Text.IsPlain candidate.value ∧
        Acceptance.text.accept candidate.value = some candidate.value) ∧
    (∀ candidate, decode? config blob decoder .short constant = some candidate ↔
      ∃ char, SpellsChar config.shortKeys constant char ∧
        candidate = ⟨String.singleton char, .shortXorChar, none⟩) ∧
    (decode? config blob decoder .short constant = none ↔
      ∀ key ∈ config.shortKeys, ¬ Text.IsPrintable (constant ^^^ key)) ∧
    (∀ blob' decoder', decode? config blob' decoder' .short constant =
      decode? config blob decoder .short constant) ∧
    ∀ text accepted, Acceptance.text.accept text = some accepted →
      accepted = text ∨ ∃ first, text.toList = first :: accepted.toList := by
  refine ⟨fun candidate hcandidate => ?_, fun candidate => decode?_short_eq_some_iff,
    decode?_short_eq_none_iff, fun blob' decoder' => ?_,
    fun text accepted => Acceptance.eq_or_of_accept⟩
  · have hplain := isPlain_of_decode? hcandidate
    exact ⟨hplain, Acceptance.accept_of_plain hplain⟩
  · rw [decode?_short_eq, decode?_short_eq]

namespace Sample

/-- A record whose text has a length mark in front of it. -/
def markedBlob : Bytes :=
  #[3, 0, 0, 0, 2, 104, 105]

end Sample

/-- A record from which a length mark is taken off, a short constant for which the second key is the
first to give a printable character, and one for which no key does. -/
theorem only_clean_literals_sample :
    (decode? {} Sample.markedBlob none .full 0 = some ⟨"hi", .directOffset, some 0⟩ ∧
      Text.IsPlain "hi" ∧ Acceptance.text.accept "hi" = some "hi") ∧
    decode? {} Sample.markedBlob none .short 0x3e = some ⟨"A", .shortXorChar, none⟩ ∧
    decode? {} #[] none .short 0x3e = some ⟨"A", .shortXorChar, none⟩ ∧
    (decode? {} Sample.markedBlob none .short 1000 = none ∧
      ∀ key ∈ ({} : Config).shortKeys, ¬ Text.IsPrintable (1000 ^^^ key)) ∧
    ∃ first, "\x02hi".toList = first :: "hi".toList := by
  obtain ⟨hfull, -, -, -, hfirst⟩ := only_clean_literals {} Sample.markedBlob none 0
  obtain ⟨-, hshort, -, hsame, -⟩ := only_clean_literals {} Sample.markedBlob none 0x3e
  obtain ⟨-, -, hnone, -, -⟩ := only_clean_literals {} Sample.markedBlob none 1000
  have hmarked : decode? {} Sample.markedBlob none .full 0 =
      some ⟨"hi", .directOffset, some 0⟩ := by decide
  have hletter : decode? {} Sample.markedBlob none .short 0x3e = some ⟨"A", .shortXorChar, none⟩ :=
    (hshort _).mpr ⟨'A', ⟨[0x2a], 0x7f, _, rfl, List.forall_mem_singleton.mpr (by decide),
      by decide, by decide⟩, by decide⟩
  have hmissed : decode? {} Sample.markedBlob none .short 1000 = none := by decide
  refine ⟨⟨hmarked, hfull _ hmarked⟩, hletter, (hsame #[] none).trans hletter,
    ⟨hmissed, hnone.mp hmissed⟩, ?_⟩
  exact (hfirst "\x02hi" "hi" (by decide)).resolve_left (by decide)

end LiteralRecovery
