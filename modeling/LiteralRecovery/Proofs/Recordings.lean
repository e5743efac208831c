import LiteralRecovery.Proofs.Reports
import Mathlib.Algebra.BigOperators.Group.List.Lemmas

/-!
# What a report shows of what it was told

A report is told one thing after another, by workers that know nothing of each other, and asked when
all is done. Tokens, positions and whole records may come up more than once, a failure may have no
target, and a call may turn out to be left long before or after the literals of its decoder were
found. Whatever the sequence, each query is an exact view of it.

One recording adds one entry to one of the stores (`Report.record_eq`), so the stores of a report
that started empty are the sequence itself, taken apart by kind (`Report.ofRecordings_eq`). Numbers
could also be kept as the recordings come in, and would be the same (`Report.counters_record`). The
other views are facts about any report. Of the decoders that may be removed there is only one
ascending list, so the order of the sequence cannot be seen in it.

## Main definitions

* `Recording`: one thing that a report is told
* `Report.ofRecordings`: the report after a sequence of them
* `Report.collected`: such a sequence, taken apart by kind
* `Counters`: numbers that are raised by one recording after another
* `Report.Shows`: the queries of a report are exact views of a sequence

## Main results

* `Report.ofRecordings_eq`: a report holds what it was told and nothing else
* `Report.counters_ofRecordings`: counting and keeping count agree
* `Report.sum_strategyCounts`, `Report.length_failuresBy_add`: two ways to split a log by a key
* `Report.pairwise_lt_keys_stringsByRoutine`, `Report.mem_keys_stringsByRoutine_iff`
* `queries_show_recordings`
-/

namespace LiteralRecovery

/-- One thing that a report is told. -/
inductive Recording where
  /-- A call site was looked at. -/
  | examined
  /-- A call site became a literal. -/
  | recovered (recovery : Recovery)
  /-- A call site was left as it was. -/
  | failed (site : Site) (reason : FailureReason)
  /-- A routine was changed. -/
  | patchedRoutine
  /-- A call of a decoder is left. -/
  | liveCall (decoder : Token)
deriving DecidableEq, Repr

namespace Recording

/-- The entry in the log of recoveries. -/
def recovery? : Recording → Option Recovery
  | recovered recovery => some recovery
  | _ => none

/-- The entry in the log of failures. -/
def failure? : Recording → Option Failure
  | failed site reason => some ⟨site, reason⟩
  | _ => none

/-- The decoder of which a call is left. -/
def liveCall? : Recording → Option Token
  | liveCall decoder => some decoder
  | _ => none

variable {recording : Recording} {recordings : List Recording}

theorem recovery?_eq_some_iff {recovery : Recovery} :
    recording.recovery? = some recovery ↔ recording = recovered recovery := by
  cases recording <;> simp [recovery?]

theorem failure?_eq_some_iff {failure : Failure} :
    recording.failure? = some failure ↔ recording = failed failure.site failure.reason := by
  obtain ⟨site, reason⟩ := failure
  cases recording <;> simp [failure?]

theorem liveCall?_eq_some_iff {decoder : Token} :
    recording.liveCall? = some decoder ↔ recording = liveCall decoder := by
  cases recording <;> simp [liveCall?]

theorem mem_filterMap_recovery?_iff {recovery : Recovery} :
    recovery ∈ recordings.filterMap recovery? ↔ recovered recovery ∈ recordings := by
  simp [List.mem_filterMap, recovery?_eq_some_iff]

theorem mem_filterMap_failure?_iff {failure : Failure} :
    failure ∈ recordings.filterMap failure? ↔
      failed failure.site failure.reason ∈ recordings := by
  simp [List.mem_filterMap, failure?_eq_some_iff]

theorem count_filterMap_liveCall? (decoder : Token) :
    (recordings.filterMap liveCall?).count decoder = recordings.count (liveCall decoder) := by
  rw [List.count_filterMap, List.count]
  refine List.countP_congr fun recording _ => ?_
  rw [beq_iff_eq, beq_iff_eq, liveCall?_eq_some_iff]

end Recording

/-- The numbers that are kept while a report is told one thing after another. -/
@[ext] structure Counters where
  examined : Nat := 0
  recovered : Nat := 0
  routinesPatched : Nat := 0
  /-- How many calls are left, by decoder. -/
  liveCalls : Token → Nat := fun _ => 0

/-- A recording raises one of the numbers, unless it is of a failure. -/
def Counters.record (counters : Counters) : Recording → Counters
  | .examined => { counters with examined := counters.examined + 1 }
  | .recovered _ => { counters with recovered := counters.recovered + 1 }
  | .failed _ _ => counters
  | .patchedRoutine => { counters with routinesPatched := counters.routinesPatched + 1 }
  | .liveCall decoder =>
    { counters with
      liveCalls := Function.update counters.liveCalls decoder (counters.liveCalls decoder + 1) }

namespace Strategy

theorem mem_all (strategy : Strategy) : strategy ∈ all := by
  cases strategy <;> decide

theorem nodup_all : all.Nodup := by
  decide

end Strategy

/-! ### The stores after a sequence of recordings -/

namespace Report

/-- Telling a report one thing. -/
def record (report : Report) : Recording → Report
  | .examined => report.addExamined
  | .recovered recovery => report.addRecovery recovery
  | .failed site reason => report.addFailure site reason
  | .patchedRoutine => report.addPatchedRoutine
  | .liveCall decoder => report.addLiveCall decoder

/-- A fresh report, told one thing after another. -/
def ofRecordings (recordings : List Recording) : Report :=
  recordings.foldl record empty

/-- A sequence of recordings, taken apart by kind. -/
def collected (recordings : List Recording) : Report where
  examined := recordings.count .examined
  recovered := (recordings.filterMap Recording.recovery?).length
  recoveries := recordings.filterMap Recording.recovery?
  failures := recordings.filterMap Recording.failure?
  routinesPatched := recordings.count .patchedRoutine
  liveCalls := recordings.filterMap Recording.liveCall?

theorem collected_append (recordings more : List Recording) :
    collected (recordings ++ more) = collected recordings ++ collected more := by
  ext1 <;> simp [collected]

/-- One recording adds one entry to one store. -/
theorem record_eq (report : Report) (recording : Recording) :
    report.record recording = report ++ collected [recording] := by
  cases recording with
  | examined => exact addExamined_eq report
  | recovered recovery => exact addRecovery_eq report recovery
  | failed site reason => exact addFailure_eq report site reason
  | patchedRoutine => exact addPatchedRoutine_eq report
  | liveCall decoder => exact addLiveCall_eq report decoder

theorem foldl_record (report : Report) (recordings : List Recording) :
    recordings.foldl record report = report ++ collected recordings := by
  induction recordings generalizing report with
  | nil => exact (append_empty report).symm
  | cons recording rest ih =>
    rw [List.foldl_cons, ih, record_eq, append_assoc, ← collected_append, List.singleton_append]

/-- **A report holds what it was told and nothing else.** -/
theorem ofRecordings_eq (recordings : List Recording) :
    ofRecordings recordings = collected recordings :=
  (foldl_record ..).trans (empty_append _)

/-- What is told in another order is still what is told. -/
theorem tally_collected_of_perm {recordings other : List Recording} (h : recordings.Perm other) :
    (collected recordings).tally = (collected other).tally :=
  tally_eq_iff.mpr ⟨h.count_eq _, (h.filterMap _).length_eq, h.filterMap _, h.filterMap _,
    h.count_eq _, h.filterMap _⟩

/-! ### Running numbers -/

/-- The numbers that a report shows without looking into its logs. -/
def counters (report : Report) : Counters where
  examined := report.examined
  recovered := report.recovered
  routinesPatched := report.routinesPatched
  liveCalls := report.liveCallsOf

/-- What is counted in the stores is what is raised along with them. -/
theorem counters_record (report : Report) (recording : Recording) :
    (report.record recording).counters = report.counters.record recording := by
  cases recording with
  | examined => rfl
  | recovered recovery => rfl
  | failed site reason => rfl
  | patchedRoutine => rfl
  | liveCall decoder =>
    ext1
    case liveCalls =>
      funext other
      refine List.count_append.trans ?_
      by_cases h : other = decoder
      · subst h
        simp [counters, Counters.record, liveCallsOf]
      · simp [counters, Counters.record, liveCallsOf, h, Ne.symm h]
    all_goals rfl

theorem counters_foldl_record (report : Report) (recordings : List Recording) :
    (recordings.foldl record report).counters =
      recordings.foldl Counters.record report.counters := by
  induction recordings generalizing report with
  | nil => rfl
  | cons recording rest ih => rw [List.foldl_cons, ih, counters_record, List.foldl_cons]

/-- **The numbers that are shown are the numbers that were kept.** -/
theorem counters_ofRecordings (recordings : List Recording) :
    (ofRecordings recordings).counters = recordings.foldl Counters.record {} :=
  counters_foldl_record empty recordings

/-! ### Recoveries by strategy -/

variable (report : Report)

/-- The entries are those of the strategies that found something, each with its number. -/
theorem strategyCounts_eq :
    report.strategyCounts =
      (Strategy.all.filter fun strategy => 0 < report.recoveredBy strategy).map
        fun strategy => (strategy, report.recoveredBy strategy) :=
  List.filter_map ..

theorem keys_strategyCounts :
    report.strategyCounts.map Prod.fst =
      Strategy.all.filter fun strategy => 0 < report.recoveredBy strategy := by
  rw [strategyCounts_eq, List.map_map]
  exact List.map_id _

theorem snd_of_mem_strategyCounts {entry : Strategy × Nat} (h : entry ∈ report.strategyCounts) :
    entry.2 = report.recoveredBy entry.1 := by
  rw [strategyCounts_eq] at h
  obtain ⟨strategy, -, rfl⟩ := List.mem_map.mp h
  rfl

theorem recoveredBy_eq_count (strategy : Strategy) :
    report.recoveredBy strategy = (report.recoveries.map (·.strategy)).count strategy := by
  rw [recoveredBy, List.count, List.countP_map]
  refine List.countP_congr fun recovery _ => ?_
  simp

theorem mem_keys_strategyCounts_iff {strategy : Strategy} :
    strategy ∈ report.strategyCounts.map Prod.fst ↔
      ∃ recovery ∈ report.recoveries, recovery.strategy = strategy := by
  rw [keys_strategyCounts, List.mem_filter, recoveredBy_eq_count, decide_eq_true_eq,
    List.count_pos_iff, List.mem_map]
  exact and_iff_right strategy.mem_all

theorem nodup_keys_strategyCounts : (report.strategyCounts.map Prod.fst).Nodup := by
  rw [keys_strategyCounts]
  exact Strategy.nodup_all.filter _

/-- **Every recovery is counted for one strategy.** -/
theorem sum_strategyCounts :
    (report.strategyCounts.map Prod.snd).sum = report.recoveries.length := by
  let used := report.recoveries.map (·.strategy)
  have hkeys : (report.strategyCounts.map Prod.fst).Perm used.dedup := by
    refine (List.perm_ext_iff_of_nodup report.nodup_keys_strategyCounts used.nodup_dedup).mpr ?_
    intro strategy
    rw [mem_keys_strategyCounts_iff, List.mem_dedup, List.mem_map]
  calc (report.strategyCounts.map Prod.snd).sum
      = ((report.strategyCounts.map Prod.fst).map used.count).sum := by
        rw [keys_strategyCounts, strategyCounts_eq, List.map_map]
        exact congrArg List.sum (List.map_congr_left fun s _ => report.recoveredBy_eq_count s)
    _ = (used.dedup.map used.count).sum := (hkeys.map _).sum_eq
    _ = used.length := List.sum_map_count_dedup_eq_length used
    _ = report.recoveries.length := List.length_map _

/-! ### Failures by reason -/

/-- **Every failure has one of the two reasons.** -/
theorem length_failuresBy_add :
    (report.failuresBy .decodeMiss).length + (report.failuresBy .ambiguousTarget).length =
      report.failed := by
  have hother : report.failuresBy .ambiguousTarget =
      report.failures.filter fun failure => !decide (failure.reason = .decodeMiss) := by
    refine List.filter_congr fun failure _ => ?_
    cases failure.reason <;> rfl
  rw [hother]
  exact (List.length_eq_length_filter_add _).symm

theorem mem_failuresBy_iff {failure : Failure} {reason : FailureReason} :
    failure ∈ report.failuresBy reason ↔ failure ∈ report.failures ∧ failure.reason = reason := by
  rw [failuresBy, List.mem_filter, decide_eq_true_eq]

/-! ### Literals by routine -/

theorem keys_stringsByRoutine :
    report.stringsByRoutine.map Prod.fst =
      Token.sorted (report.recoveries.map (·.routine)).eraseDups := by
  rw [stringsByRoutine, List.map_map]
  exact List.map_id _

theorem mem_keys_stringsByRoutine_iff {routine : Token} :
    routine ∈ report.stringsByRoutine.map Prod.fst ↔
      ∃ recovery ∈ report.recoveries, recovery.routine = routine := by
  rw [keys_stringsByRoutine, (Token.sorted_perm _).mem_iff, List.mem_eraseDups, List.mem_map]

theorem pairwise_lt_keys_stringsByRoutine :
    (report.stringsByRoutine.map Prod.fst).Pairwise fun a b => a.value < b.value := by
  rw [keys_stringsByRoutine]
  exact Token.pairwise_lt_of_nodup (Token.pairwise_sorted _)
    ((Token.sorted_perm _).nodup_iff.mpr (nodup_eraseDups _))

theorem pairwise_stringsOf (routine : Token) :
    (report.stringsOf routine).Pairwise fun a b => a.1 ≤ b.1 := by
  refine (List.pairwise_mergeSort ?_ ?_ _).imp of_decide_eq_true
  · intro a b c hab hbc
    exact decide_eq_true (Nat.le_trans (of_decide_eq_true hab) (of_decide_eq_true hbc))
  · intro a b
    rw [Bool.or_eq_true, decide_eq_true_eq, decide_eq_true_eq]
    exact Nat.le_total ..

theorem snd_of_mem_stringsByRoutine {entry : Token × List (Nat × String)}
    (h : entry ∈ report.stringsByRoutine) : entry.2 = report.stringsOf entry.1 := by
  obtain ⟨routine, -, rfl⟩ := List.mem_map.mp h
  rfl

end Report

/-! ### What queries show -/

/-- The queries of a report are exact views of a sequence of recordings. -/
structure Report.Shows (report : Report) (recordings : List Recording) : Prop where
  /-- What is counted afterwards is what was kept all along. -/
  counters : report.counters = recordings.foldl Counters.record {}
  /-- The log of recoveries has those that were recorded, in order. -/
  recoveries : report.recoveries = recordings.filterMap Recording.recovery?
  /-- Their number is the length of the log. -/
  recovered : report.recovered = report.recoveries.length
  /-- It is also the sum of the numbers by strategy. -/
  recovered_eq_sum : report.recovered = (report.strategyCounts.map Prod.snd).sum
  /-- No strategy is listed twice. -/
  strategies_nodup : (report.strategyCounts.map Prod.fst).Nodup
  /-- The strategies that are listed are those that occur. -/
  mem_strategies : ∀ strategy, strategy ∈ report.strategyCounts.map Prod.fst ↔
    ∃ recovery, .recovered recovery ∈ recordings ∧ recovery.strategy = strategy
  /-- Each has the number of its recoveries. -/
  strategy_count : ∀ entry ∈ report.strategyCounts,
    entry.2 = report.recoveries.countP (·.strategy = entry.1)
  /-- The log of failures has those that were recorded, in order. -/
  failures : report.failures = recordings.filterMap Recording.failure?
  /-- Their number is the sum of the numbers by reason. -/
  failed : report.failed =
    (report.failuresBy .decodeMiss).length + (report.failuresBy .ambiguousTarget).length
  /-- A failure is listed under the reason that was recorded with it. -/
  mem_failuresBy : ∀ reason failure, failure ∈ report.failuresBy reason ↔
    failure.reason = reason ∧ .failed failure.site reason ∈ recordings
  /-- As many calls of a decoder are left as were recorded. -/
  liveCallsOf : ∀ decoder, report.liveCallsOf decoder = recordings.count (.liveCall decoder)
  /-- Literals are listed by routine, in the order of the tokens. -/
  routines_ascend :
    (report.stringsByRoutine.map Prod.fst).Pairwise fun a b => a.value < b.value
  /-- The routines that are listed are those of the recoveries. -/
  mem_routines : ∀ routine, routine ∈ report.stringsByRoutine.map Prod.fst ↔
    ∃ recovery, .recovered recovery ∈ recordings ∧ recovery.routine = routine
  /-- The literals of a routine ascend by position. -/
  positions_ascend : ∀ entry ∈ report.stringsByRoutine, entry.2.Pairwise fun a b => a.1 ≤ b.1
  /-- They are those of its recoveries, as often as they were recorded. -/
  strings : ∀ entry ∈ report.stringsByRoutine,
    entry.2.Perm ((report.recoveries.filter (·.routine = entry.1)).map
      fun recovery => (recovery.call, recovery.value))
  /-- The decoders that may be removed ascend strictly. -/
  removable_ascend : report.removable.Pairwise fun a b => a.value < b.value
  /-- They are those with a recovery, no failure and no call that is left. -/
  mem_removable : ∀ decoder, decoder ∈ report.removable ↔
    (∃ recovery, .recovered recovery ∈ recordings ∧ recovery.decoder = decoder) ∧
      (∀ site reason, .failed site reason ∈ recordings → site.target ≠ some decoder) ∧
      .liveCall decoder ∉ recordings

/-- Facts about the log of recoveries are facts about what was recorded. -/
theorem Report.exists_mem_collected_iff {recordings : List Recording} {p : Recovery → Prop} :
    (∃ recovery ∈ (collected recordings).recoveries, p recovery) ↔
      ∃ recovery, .recovered recovery ∈ recordings ∧ p recovery :=
  exists_congr fun _ => and_congr_left' Recording.mem_filterMap_recovery?_iff

theorem Report.mem_removable_collected_iff {recordings : List Recording} {decoder : Token} :
    decoder ∈ (collected recordings).removable ↔
      (∃ recovery, .recovered recovery ∈ recordings ∧ recovery.decoder = decoder) ∧
        (∀ site reason, .failed site reason ∈ recordings → site.target ≠ some decoder) ∧
        .liveCall decoder ∉ recordings := by
  have hcall : decoder ∉ (collected recordings).liveCalls ↔ .liveCall decoder ∉ recordings := by
    rw [← List.count_eq_zero, ← List.count_eq_zero]
    exact Eq.congr_left (Recording.count_filterMap_liveCall? decoder)
  have hfailures :
      (∀ failure ∈ (collected recordings).failures, failure.site.target ≠ some decoder) ↔
        ∀ site reason, .failed site reason ∈ recordings → site.target ≠ some decoder := by
    constructor
    · intro h site reason hmem
      exact h ⟨site, reason⟩ (Recording.mem_filterMap_failure?_iff.mpr hmem)
    · intro h failure hmem
      exact h _ _ (Recording.mem_filterMap_failure?_iff.mp hmem)
  rw [mem_removable_iff, exists_mem_collected_iff, hfailures, hcall]
  exact and_iff_right rfl

/-- **Queries show exactly what was recorded**, whatever it was and in whatever order it came. The
decoders that may be removed do not depend on the order at all. -/
theorem queries_show_recordings (recordings : List Recording) :
    (Report.ofRecordings recordings).Shows recordings ∧
      ∀ other, recordings.Perm other →
        (Report.ofRecordings other).removable = (Report.ofRecordings recordings).removable := by
  have hcounters := Report.counters_ofRecordings recordings
  simp only [Report.ofRecordings_eq] at hcounters ⊢
  refine ⟨?_, fun other h => ?_⟩
  · exact {
      counters := hcounters
      recoveries := rfl
      recovered := rfl
      recovered_eq_sum := (Report.sum_strategyCounts (Report.collected recordings)).symm
      strategies_nodup := Report.nodup_keys_strategyCounts _
      mem_strategies := fun strategy =>
        (Report.mem_keys_strategyCounts_iff _).trans Report.exists_mem_collected_iff
      strategy_count := fun entry => Report.snd_of_mem_strategyCounts _
      failures := rfl
      failed := (Report.length_failuresBy_add _).symm
      mem_failuresBy := fun reason failure => by
        rw [Report.mem_failuresBy_iff, and_comm]
        refine and_congr_right fun hreason => ?_
        rw [← hreason]
        exact Recording.mem_filterMap_failure?_iff
      liveCallsOf := Recording.count_filterMap_liveCall?
      routines_ascend := Report.pairwise_lt_keys_stringsByRoutine _
      mem_routines := fun routine =>
        (Report.mem_keys_stringsByRoutine_iff _).trans Report.exists_mem_collected_iff
      positions_ascend := fun entry hentry => by
        rw [Report.snd_of_mem_stringsByRoutine _ hentry]
        exact Report.pairwise_stringsOf ..
      strings := fun entry hentry => by
        rw [Report.snd_of_mem_stringsByRoutine _ hentry]
        exact Report.stringsOf_perm ..
      removable_ascend := Report.pairwise_lt_removable _
      mem_removable := fun decoder => Report.mem_removable_collected_iff }
  · exact Report.removable_eq_of_tally_eq (Report.tally_collected_of_perm h.symm) rfl

namespace Sample

/-- Literals of two decoders at two positions of a routine, the later position first and the other
one twice. A call of the second decoder is left, and a call with an unknown target failed. -/
def recordings : List Recording :=
  [.examined, .recovered ⟨⟨0x06000003⟩, 4, 5, 8, ⟨0x06000001⟩, .directOffset, "b"⟩,
    .liveCall ⟨0x06000002⟩, .recovered ⟨⟨0x06000003⟩, 0, 1, 0, ⟨0x06000002⟩, .keyedXor, "a"⟩,
    .examined, .recovered ⟨⟨0x06000003⟩, 0, 1, 0, ⟨0x06000001⟩, .directOffset, "a"⟩,
    .failed ⟨⟨0x06000004⟩, 2, 3, 1, none, .full⟩ .ambiguousTarget, .patchedRoutine]

end Sample

/-- Only the first decoder of the sample may be removed, also when all is told in reverse. -/
theorem queries_show_recordings_sample :
    Sample.recordings.Perm Sample.recordings.reverse ∧
      (Report.ofRecordings Sample.recordings).Shows Sample.recordings ∧
      (Report.ofRecordings Sample.recordings).removable = [⟨0x06000001⟩] ∧
      (Report.ofRecordings Sample.recordings.reverse).removable = [⟨0x06000001⟩] := by
  obtain ⟨hshows, horder⟩ := queries_show_recordings Sample.recordings
  have hperm := (List.reverse_perm Sample.recordings).symm
  have hremovable : (Report.ofRecordings Sample.recordings).removable = [⟨0x06000001⟩] := by
    decide +kernel
  exact ⟨hperm, hshows, hremovable, (horder _ hperm).trans hremovable⟩

end LiteralRecovery
