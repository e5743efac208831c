import LiteralRecovery.Candidate
import Mathlib.Data.List.Induction

/-!
# Decoding as one flat search

A constant is decoded strategy by strategy. Each strategy derives its numbers and searches their
offsets one number after the other, the one for terminated strings collects the offsets of all
strategies in front of it and drops repetitions, and the first strategy with a hit wins. None of
this nesting matters. Every strategy has its list of probes, and it finds what the first of them
finds that finds anything. There is also one list for the constant as a whole, in which each probe
is under the strategy that it counts for.

The latter is written down here without the strategies: from the offsets of a number, the decoder's
arithmetic and the keys. Repeated offsets stay in it. An offset that fails once fails again, so
leaving repetitions out changes nothing, and neither does asking beforehand whether an offset holds
a record.

## Main definitions

* `Request.probes`: where a strategy looks
* `recordOffsets`: the offsets at which a record is looked for first
* `Tagged`, `flatProbes`: the probes of a constant, under their strategies
* `Request.readTagged?`: what stands at such a probe

## Main results

* `Request.attempt?_eq_findSome?`: a strategy is one search through its probes
* `Request.first?_eq_findSome?`: strategies in order are one search through all their probes
* `Request.findSome?_probedOffsets`: repetitions and records do not matter to terminated strings
* `decode?_full_eq_findSome?`, `decoding_is_first_success`
-/

namespace LiteralRecovery

/-! ### Searches -/

/-- A search through lists, one after the other, is a search through all of them together. -/
theorem findSome?_flatMap {α β γ : Type} (lists : α → List β) (found? : β → Option γ)
    (members : List α) :
    (members.flatMap lists).findSome? found? =
      members.findSome? fun member => (lists member).findSome? found? := by
  induction members with
  | nil => rfl
  | cons member rest ih =>
    rw [List.flatMap_cons, List.findSome?_append, ih, List.findSome?_cons]
    cases (lists member).findSome? found? <;> rfl

/-- Members at which nothing is found can be left out. -/
theorem findSome?_filter_of_none {α β : Type} {keep : α → Bool} {found? : α → Option β}
    {members : List α} (h : ∀ member ∈ members, keep member = false → found? member = none) :
    (members.filter keep).findSome? found? = members.findSome? found? := by
  induction members with
  | nil => rfl
  | cons member rest ih =>
    have hrest := ih fun other hother => h other (List.mem_cons_of_mem _ hother)
    cases hkeep : keep member with
    | true =>
      rw [List.filter_cons_of_pos hkeep, List.findSome?_cons, List.findSome?_cons, hrest]
    | false =>
      rw [List.filter_cons_of_neg (by simp [hkeep]), List.findSome?_cons,
        h member (List.mem_cons_self ..) hkeep, hrest]

/-- So can repetitions: what is not found at a member is not found at it the next time. -/
theorem findSome?_eraseDups {α β : Type} [BEq α] [LawfulBEq α] (found? : α → Option β)
    (members : List α) : members.eraseDups.findSome? found? = members.findSome? found? := by
  induction members using List.reverseRecOn with
  | nil => rfl
  | append_singleton rest member ih =>
    rw [List.eraseDups_append, List.findSome?_append, List.findSome?_append, ih]
    cases hrest : rest.findSome? found? with
    | some found => rfl
    | none =>
      by_cases hmem : member ∈ rest
      · have hagain := List.findSome?_eq_none_iff.mp hrest member hmem
        simp [List.removeAll, hmem, hagain]
      · simp [List.removeAll, hmem, List.eraseDups_cons]

/-! ### The probes of a strategy -/

namespace Request

variable (request : Request)

/-- Records at the offsets of each number, in order. -/
def recordProbes (numbers : List Int32) : List Probe :=
  (numbers.flatMap (baseOffsets request.blob.size)).map .record

/-- Where a strategy looks, in order. -/
def probes : Strategy → List Probe
  | .directOffset => ((directOffset? request.blob.size request.constant).map .record).toList
  | .endRelativeOffset => ((endOffset? request.blob.size request.constant).map .record).toList
  | .scaledOffset => ((scaledOffset? request.blob.size request.constant).map .record).toList
  | .linearTransform => request.recordProbes request.transformed
  | .keyedXor => request.recordProbes (request.masked request.config.xorKeys)
  | .nullTerminated =>
    if request.config.nullTerminated then request.probedOffsets.map .terminated else []
  | .exhaustiveXor =>
    if request.config.exhaustiveXor then request.recordProbes (request.masked byteKeys) else []
  | .shortXorChar => (request.masked request.config.shortKeys).map .letter

/-- One offset is one probe. -/
theorem bind_recordAt? (offset? : Option Nat) :
    offset?.bind request.recordAt? = (offset?.map Probe.record).toList.findSome? request.read? := by
  cases offset? with
  | none => rfl
  | some offset => exact (List.findSome?_singleton ..).symm

/-- Numbers one after the other, and the offsets of each, are one search through all their
offsets. -/
theorem findSome?_recordFor? (numbers : List Int32) :
    numbers.findSome? request.recordFor? =
      (request.recordProbes numbers).findSome? request.read? := by
  rw [recordProbes, List.findSome?_map, findSome?_flatMap]
  rfl

/-- **A strategy is one search** through its probes. -/
theorem attempt?_eq_findSome? (strategy : Strategy) :
    request.attempt? strategy = (request.probes strategy).findSome? request.read? := by
  cases strategy with
  | directOffset => exact request.bind_recordAt? _
  | endRelativeOffset => exact request.bind_recordAt? _
  | scaledOffset => exact request.bind_recordAt? _
  | linearTransform => exact request.findSome?_recordFor? _
  | keyedXor => exact request.findSome?_recordFor? _
  | nullTerminated =>
    rw [attempt?, probes]
    split
    · rw [List.findSome?_map]
      rfl
    · rfl
  | exhaustiveXor =>
    rw [attempt?, probes]
    split
    · exact request.findSome?_recordFor? _
    · rfl
  | shortXorChar =>
    rw [attempt?, probes, List.findSome?_map]
    rfl

end Request

/-! ### The flat list -/

/-- A probe, under the strategy that it counts for. -/
abbrev Tagged := Strategy × Probe

section Flat

variable (config : Config) (blob : Bytes) (decoder : Option Decoder) (constant : Int32)

/-- The offsets at which a record is looked for first, each under its strategy: those of the
constant itself, those of the constant under the decoder's arithmetic, if it has any, and those of
the constant under each of the keys. -/
def recordOffsets : List (Strategy × Nat) :=
  (directOffset? blob.size constant).toList.map (.directOffset, ·) ++
  (endOffset? blob.size constant).toList.map (.endRelativeOffset, ·) ++
  (scaledOffset? blob.size constant).toList.map (.scaledOffset, ·) ++
  ((decoder.bind Decoder.transform?).toList.flatMap fun transform =>
    (baseOffsets blob.size (transform.apply constant)).map (.linearTransform, ·)) ++
  config.xorKeys.flatMap fun key =>
    (baseOffsets blob.size (constant ^^^ key)).map (.keyedXor, ·)

/-- Of these offsets, as often as they occur, the ones that do not hold a record. -/
def terminatedOffsets : List Nat :=
  ((recordOffsets config blob decoder constant).map (·.2)).filter fun offset =>
    (Blob.recordAt? blob offset config.maxLength).isNone

/-- The offsets of the constant under every key of a single byte. -/
def exhaustiveOffsets : List Nat :=
  (List.range 256).flatMap fun key => baseOffsets blob.size (constant ^^^ Int32.ofNat key)

/-- **The probes of a constant**, in the order in which they count: records at the offsets that come
first, terminated strings at the same offsets, and records once more under every key of a single
byte. The last two are there if they are configured. -/
def flatProbes : List Tagged :=
  ((recordOffsets config blob decoder constant).map fun (strategy, offset) =>
    (strategy, .record offset)) ++
  (if config.nullTerminated then
    (terminatedOffsets config blob decoder constant).map (.nullTerminated, .terminated ·)
  else []) ++
  (if config.exhaustiveXor then
    (exhaustiveOffsets blob constant).map (.exhaustiveXor, .record ·)
  else [])

end Flat

namespace Request

variable (request : Request)

/-- What stands at a probe, for the strategy that it counts for. -/
def readTagged? (tagged : Tagged) : Option Candidate :=
  (request.read? tagged.2).map fun finding => ⟨finding.value, tagged.1, finding.offset⟩

/-! ### Strategies in order -/

/-- The probes of one strategy. -/
theorem findSome?_map_tag (strategy : Strategy) (probes : List Probe) :
    (probes.map (strategy, ·)).findSome? request.readTagged? =
      (probes.findSome? request.read?).map fun finding =>
        ⟨finding.value, strategy, finding.offset⟩ := by
  rw [List.findSome?_map, List.map_findSome?]
  rfl

/-- **Strategies in order** are one search through all their probes. -/
theorem first?_eq_findSome? (strategies : List Strategy) :
    request.first? strategies =
      (strategies.flatMap fun strategy => (request.probes strategy).map (strategy, ·)).findSome?
        request.readTagged? := by
  rw [first?, findSome?_flatMap]
  congr 1
  funext strategy
  rw [findSome?_map_tag, attempt?_eq_findSome?]

/-- An offset that holds a record has no terminated string. -/
theorem read?_terminated_of_record {offset : Nat}
    (h : (Blob.recordAt? request.blob offset request.config.maxLength).isNone = false) :
    request.read? (.terminated offset) = none := by
  rw [read?, if_pos]
  simpa [Option.isSome_iff_ne_none] using h

theorem transformed_eq : request.transformed =
    (request.decoder.bind Decoder.transform?).toList.map (·.apply request.constant) := by
  rw [transformed]
  cases request.decoder.bind Decoder.transform? <;> rfl

/-- The strategies that come first look for records at the offsets that come first. -/
theorem flatMap_probes_eq :
    ([.directOffset, .endRelativeOffset, .scaledOffset, .linearTransform, .keyedXor].flatMap
        fun strategy => (request.probes strategy).map (strategy, ·)) =
      (recordOffsets request.config request.blob request.decoder request.constant).map
        fun (strategy, offset) => (strategy, .record offset) := by
  simp only [recordOffsets, List.flatMap_cons, List.flatMap_nil, List.append_nil, probes,
    recordProbes, transformed_eq, masked, Option.toList_map, List.map_append, List.map_map,
    List.map_flatMap, List.flatMap_map, List.append_assoc, Function.comp_def]

/-- The offsets at which terminated strings are looked for are those of the records before. -/
theorem map_recordOffsets_snd :
    (recordOffsets request.config request.blob request.decoder request.constant).map (·.2) =
      (request.constant :: request.transformed ++ request.masked request.config.xorKeys).flatMap
        (baseOffsets request.blob.size) := by
  simp only [recordOffsets, transformed_eq, masked, List.map_append, List.map_map,
    List.map_flatMap, Function.comp_def, List.map_id', List.cons_append, List.flatMap_cons,
    List.flatMap_append, List.flatMap_map, baseOffsets, List.append_assoc]

/-- **Terminated strings.** Whether repetitions are dropped, and whether offsets that hold a record
are dropped beforehand, the first hit is the same. -/
theorem findSome?_probedOffsets :
    (request.probedOffsets.map Probe.terminated).findSome? request.read? =
      ((terminatedOffsets request.config request.blob request.decoder request.constant).map
        Probe.terminated).findSome? request.read? := by
  rw [List.findSome?_map, List.findSome?_map, probedOffsets, findSome?_eraseDups, terminatedOffsets,
    map_recordOffsets_snd, findSome?_filter_of_none]
  intro offset _ hrecord
  exact request.read?_terminated_of_record hrecord

/-- The same where terminated strings are configured, under their strategy. -/
theorem findSome?_nullTerminated :
    ((request.probes .nullTerminated).map (.nullTerminated, ·)).findSome? request.readTagged? =
      (if request.config.nullTerminated then
        (terminatedOffsets request.config request.blob request.decoder request.constant).map
          (.nullTerminated, .terminated ·)
      else []).findSome? request.readTagged? := by
  rw [probes]
  split
  · rw [findSome?_map_tag, findSome?_probedOffsets, ← findSome?_map_tag, List.map_map]
    rfl
  · rfl

/-- The keys of a single byte. -/
theorem tagged_exhaustiveXor :
    (request.probes .exhaustiveXor).map (Strategy.exhaustiveXor, ·) =
      if request.config.exhaustiveXor then
        (exhaustiveOffsets request.blob request.constant).map (Strategy.exhaustiveXor, .record ·)
      else [] := by
  rw [probes]
  split
  · simp only [recordProbes, masked, byteKeys, exhaustiveOffsets, List.map_map, List.flatMap_map,
      Function.comp_def]
  · rfl

end Request

/-! ### Decoding -/

section Decoding

variable (config : Config) (blob : Bytes) (decoder : Option Decoder) (constant : Int32)

/-- **Decoding is one search** through the flat list. -/
theorem decode?_full_eq_findSome? :
    decode? config blob decoder .full constant =
      (flatProbes config blob decoder constant).findSome?
        (Population.full.request config blob decoder constant).readTagged? := by
  have hsplit : Strategy.full = [.directOffset, .endRelativeOffset, .scaledOffset,
      .linearTransform, .keyedXor] ++ [.nullTerminated] ++ [.exhaustiveXor] := rfl
  rw [decode?, Request.first?_eq_findSome?, Population.strategies, hsplit, flatProbes]
  simp only [List.flatMap_append, List.findSome?_append, List.flatMap_singleton,
    Request.flatMap_probes_eq, Request.findSome?_nullTerminated, Request.tagged_exhaustiveXor]
  rfl

/-- **Decoding is the first success of one flat list of probes.** The constant stands for what the
first probe of the list finds, under the strategy of that probe, and for nothing exactly if every
probe of the list fails. -/
theorem decoding_is_first_success :
    let read? := (Population.full.request config blob decoder constant).readTagged?
    decode? config blob decoder .full constant =
        (flatProbes config blob decoder constant).findSome? read? ∧
      (decode? config blob decoder .full constant = none ↔
        ∀ probe ∈ flatProbes config blob decoder constant, read? probe = none) := by
  intro read?
  have hsearch := decode?_full_eq_findSome? config blob decoder constant
  refine ⟨hsearch, ?_⟩
  rw [hsearch]
  exact List.findSome?_eq_none_iff

end Decoding
end LiteralRecovery
