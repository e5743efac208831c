import LiteralRecovery.Proofs.Provenance

/-!
# The ways to name a record

What decoding finds does stand in the blob. Here is the other direction: a record of plain text that
stands in the blob is found, whatever bytes surround it, by every constant that names it. A constant
may give the offset from the start or from the end, it may give a quarter of it, it may become the
offset in the decoder's arithmetic or under one of the keys.

These ways are tried in this order. The first two exclude each other, so a constant of either kind
always leads to its record. The others count only if nothing is found before: a constant that is a
quarter of one offset may well be another offset, and under an earlier key it may lead to another
record.

Wherever a number is tried as an offset from the start, from the end and as a quarter, the start
comes first. That is why a number that is not negative leads to its own record if there is one, and
the other two readings of it do no harm (`Request.exists_recordProbes`).

## Main definitions

* `Request.Misses`: some strategies find nothing
* `Request.LeadsNowhere`: no offset of a number holds an accepted record

## Main results

* `Request.attempt?_linearTransform`, `Request.attempt?_keyedXor`
* `record_recovered_by_every_name`
-/

namespace LiteralRecovery

namespace Request

/-- The strategies find nothing. -/
def Misses (request : Request) (strategies : List Strategy) : Prop :=
  ∀ strategy ∈ strategies, request.attempt? strategy = none

instance (request : Request) (strategies : List Strategy) : Decidable (request.Misses strategies) :=
  inferInstanceAs (Decidable (∀ strategy ∈ strategies, request.attempt? strategy = none))

/-- No offset of the number holds a record that is accepted. -/
def LeadsNowhere (request : Request) (number : Int32) : Prop :=
  ∀ offset ∈ baseOffsets request.blob.size number, request.read? (.record offset) = none

instance (request : Request) (number : Int32) : Decidable (request.LeadsNowhere number) :=
  inferInstanceAs
    (Decidable (∀ offset ∈ baseOffsets request.blob.size number,
      request.read? (.record offset) = none))

variable {request : Request} {offset : Nat} {finding : Finding}

/-! ### One strategy -/

/-- A negative number is no offset from the start. -/
theorem misses_directOffset (hnegative : request.constant.toInt < 0) :
    request.Misses [.directOffset] := by
  have hnone : directOffset? request.blob.size request.constant = none := if_neg (by omega)
  intro strategy hstrategy
  rw [List.mem_singleton.mp hstrategy, attempt?, hnone]
  rfl

theorem recordProbes_append (front back : List Int32) :
    request.recordProbes (front ++ back) =
      request.recordProbes front ++ request.recordProbes back := by
  rw [recordProbes, List.flatMap_append, List.map_append]
  rfl

/-- Of the offsets of a number, the number itself is tried first. -/
theorem exists_recordProbes {number : Int32} (rest : List Int32)
    (hoffset : directOffset? request.blob.size number = some offset) :
    ∃ later, request.recordProbes (number :: rest) = .record offset :: later := by
  rw [recordProbes, List.flatMap_cons, baseOffsets, hoffset]
  exact ⟨_, rfl⟩

/-- The decoder's arithmetic leads to the record whose offset it computes. -/
theorem attempt?_linearTransform {held : Decoder} {transform : Transform}
    (hdecoder : request.decoder = some held) (hshape : held.shape = .linear transform)
    (hoffset : directOffset? request.blob.size (transform.apply request.constant) = some offset)
    (hread : request.read? (.record offset) = some finding) :
    request.attempt? .linearTransform = some finding := by
  have htransformed : request.transformed = [transform.apply request.constant] := by
    rw [transformed, hdecoder, Option.bind_some, Decoder.transform?, hshape]
    rfl
  obtain ⟨later, hlater⟩ := exists_recordProbes [] hoffset
  have hprobes : request.probes .linearTransform = [] ++ .record offset :: later := by
    rw [probes, htransformed, hlater]
    rfl
  exact attempt?_of_probes hprobes (List.forall_mem_nil _) hread

/-- A key leads to the record whose offset it gives, if the keys before it lead nowhere. -/
theorem attempt?_keyedXor {earlier later : List Int32} {key : Int32}
    (hkeys : request.config.xorKeys = earlier ++ key :: later)
    (hearlier : ∀ other ∈ earlier, request.LeadsNowhere (request.constant ^^^ other))
    (hoffset : directOffset? request.blob.size (request.constant ^^^ key) = some offset)
    (hread : request.read? (.record offset) = some finding) :
    request.attempt? .keyedXor = some finding := by
  obtain ⟨rest, hrest⟩ := exists_recordProbes (request.masked later) hoffset
  have hmasked : request.masked (key :: later) =
      (request.constant ^^^ key) :: request.masked later := rfl
  have hprobes : request.probes .keyedXor =
      request.recordProbes (request.masked earlier) ++ .record offset :: rest := by
    rw [probes, hkeys, ← hrest, ← hmasked, ← recordProbes_append, masked, masked, masked,
      List.map_append]
  refine attempt?_of_probes hprobes (fun probe hprobe => ?_) hread
  obtain ⟨place, hplace, rfl⟩ := List.mem_map.mp hprobe
  obtain ⟨number, hnumber, hbase⟩ := List.mem_flatMap.mp hplace
  obtain ⟨other, hother, rfl⟩ := List.mem_map.mp hnumber
  exact hearlier other hother place hbase

end Request

/-! ### All strategies -/

section Names

variable {config : Config} {blob : Bytes} {before after : List UInt8} {text : String}

/-- **A record is recovered by every constant that names it.** Its offset from the start and its
distance from the end always lead to it. A quarter of the offset, a constant that the decoder's
arithmetic takes to the offset and the offset under a key lead to it if the strategies in front find
nothing, and the last one if no earlier key leads to a record either. -/
theorem record_recovered_by_every_name
    (hblob : blob.toList = before ++ (Blob.record (Utf8.encode text) ++ after))
    (hsize : blob.size < 2 ^ 31) (hplain : Text.IsPlain text)
    (hmax : (Utf8.encode text).length ≤ config.maxLength) (decoder : Option Decoder)
    (constant : Int32) :
    let request := Population.full.request config blob decoder constant
    let RecoveredBy := fun strategy =>
      decode? config blob decoder .full constant = some ⟨text, strategy, some before.length⟩
    (constant.toInt = before.length → RecoveredBy .directOffset) ∧
    (constant.toInt = before.length - blob.size → RecoveredBy .endRelativeOffset) ∧
    ((constant * 4).toInt = before.length →
      request.Misses [.directOffset, .endRelativeOffset] → RecoveredBy .scaledOffset) ∧
    (∀ held transform, decoder = some held → held.shape = .linear transform →
      (transform.apply constant).toInt = before.length →
      request.Misses [.directOffset, .endRelativeOffset, .scaledOffset] →
      RecoveredBy .linearTransform) ∧
    ∀ earlier key later, config.xorKeys = earlier ++ key :: later →
      constant = Int32.ofNat before.length ^^^ key →
      request.Misses [.directOffset, .endRelativeOffset, .scaledOffset, .linearTransform] →
      (∀ other ∈ earlier, request.LeadsNowhere (constant ^^^ other)) →
      RecoveredBy .keyedXor := by
  intro request RecoveredBy
  have hlt := Blob.length_lt_size_of_record hblob
  have hread := Request.read?_record_of_plain decoder constant hblob hsize hplain hmax
  have hdirect : ∀ number : Int32, number.toInt = before.length →
      directOffset? blob.size number = some before.length := by
    intro number hnumber
    exact directOffset?_eq_some_iff.mpr ⟨by omega, hnumber.symm, hlt⟩
  refine ⟨fun hname => ?_, fun hname => ?_, fun hname hmiss => ?_,
    fun held transform hheld hshape hname hmiss => ?_,
    fun earlier key later hkeys hname hmiss hearlier => ?_⟩
  · have hconstant : constant = Int32.ofNat before.length := by
      rw [← Int32.toInt_inj, hname, Int32.toInt_ofNat_of_lt (by omega)]
    subst hconstant
    exact decode?_offset_of_record decoder hblob hsize hplain hmax
  · have hoffset : endOffset? blob.size constant = some before.length :=
      endOffset?_eq_some_iff.mpr ⟨by omega, by omega⟩
    have hmiss : request.Misses [.directOffset] :=
      Request.misses_directOffset (show constant.toInt < 0 by omega)
    exact Request.first?_of_attempt? [.directOffset] _ hmiss
      (Request.attempt?_of_offset rfl hoffset hread)
  · have hoffset : scaledOffset? blob.size constant = some before.length :=
      scaledOffset?_eq_some_iff.mpr ⟨.inl ⟨by omega, hname.symm⟩, hlt⟩
    exact Request.first?_of_attempt? [.directOffset, .endRelativeOffset] _ hmiss
      (Request.attempt?_of_offset rfl hoffset hread)
  · exact Request.first?_of_attempt? [.directOffset, .endRelativeOffset, .scaledOffset] _ hmiss
      (Request.attempt?_linearTransform hheld hshape (hdirect _ hname) hread)
  · have hunmasked : constant ^^^ key = Int32.ofNat before.length := by
      rw [hname, Int32.xor_assoc, Int32.xor_self, Int32.xor_zero]
    have hoffset := directOffset?_ofNat hlt hsize
    rw [← hunmasked] at hoffset
    exact Request.first?_of_attempt?
      [.directOffset, .endRelativeOffset, .scaledOffset, .linearTransform] _ hmiss
      (Request.attempt?_keyedXor hkeys hearlier hoffset hread)

end Names

namespace Sample

/-- A record at offset 8, right up to the end. -/
def namedBlob : Bytes :=
  #[0xee, 0xee, 0xee, 0xee, 0xee, 0xee, 0xee, 0xee, 2, 0, 0, 0, 104, 105]

end Sample

/-- The same record by all five kinds of names. The key in use is the second one. -/
theorem record_recovered_by_every_name_sample :
    decode? {} Sample.namedBlob none .full 8 = some ⟨"hi", .directOffset, some 8⟩ ∧
    decode? {} Sample.namedBlob none .full (-6) = some ⟨"hi", .endRelativeOffset, some 8⟩ ∧
    decode? {} Sample.namedBlob none .full 2 = some ⟨"hi", .scaledOffset, some 8⟩ ∧
    decode? {} Sample.namedBlob (some Sample.adder) .full 0 =
      some ⟨"hi", .linearTransform, some 8⟩ ∧
    decode? {} Sample.namedBlob none .full 0x77 = some ⟨"hi", .keyedXor, some 8⟩ := by
  have hblob : Sample.namedBlob.toList =
      List.replicate 8 0xee ++ (Blob.record (Utf8.encode "hi") ++ []) := by decide
  have hmax : (Utf8.encode "hi").length ≤ ({} : Config).maxLength := by decide
  have hnames := record_recovered_by_every_name hblob (by decide) (by decide) hmax
  refine ⟨(hnames none 8).1 (by decide), (hnames none (-6)).2.1 (by decide),
    (hnames none 2).2.2.1 (by decide) (by decide), ?_, ?_⟩
  · exact (hnames (some Sample.adder) 0).2.2.2.1 _ _ rfl rfl (by decide) (by decide)
  · exact (hnames none 0x77).2.2.2.2 [0x2a] 0x7f _ rfl (by decide) (by decide)
      (List.forall_mem_singleton.mpr (by decide))

end LiteralRecovery
