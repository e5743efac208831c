import LiteralRecovery.Report
import Mathlib.Algebra.Group.Prod
import Mathlib.Algebra.Order.Group.Multiset
import Mathlib.Algebra.Ring.Nat

/-!
# Reports as sums of records

Reports can be added: the records of the one, and then those of the other. Recording anything adds a
report of a single record, so the report of a run is the sum of what its routines add.

Several workers record into one report, and the order of the records is then a matter of chance.
`tally` forgets it. What can be asked of a report without looking at that order depends on its tally
alone, most of all which decoders may be removed.

## Main definitions

* the sum of two reports, `a ++ b`
* `Report.tally`: the records of a report without their order

## Main results

* `Report.mem_removable_iff`: which decoders may be removed
* `Report.removable_eq_of_tally_eq`: that the order of the records has no influence on it
-/

namespace LiteralRecovery

/-! ### Addition -/

namespace Report

/-- The records of one report and then those of another. -/
instance : Append Report where
  append a b :=
    { examined := a.examined + b.examined
      recovered := a.recovered + b.recovered
      recoveries := a.recoveries ++ b.recoveries
      failures := a.failures ++ b.failures
      routinesPatched := a.routinesPatched + b.routinesPatched
      liveCalls := a.liveCalls ++ b.liveCalls
      aborted := a.aborted || b.aborted }

variable (a b c : Report)

@[simp] theorem examined_append : (a ++ b).examined = a.examined + b.examined := rfl

@[simp] theorem recovered_append : (a ++ b).recovered = a.recovered + b.recovered := rfl

@[simp] theorem recoveries_append : (a ++ b).recoveries = a.recoveries ++ b.recoveries := rfl

@[simp] theorem failures_append : (a ++ b).failures = a.failures ++ b.failures := rfl

@[simp] theorem routinesPatched_append :
    (a ++ b).routinesPatched = a.routinesPatched + b.routinesPatched := rfl

@[simp] theorem liveCalls_append : (a ++ b).liveCalls = a.liveCalls ++ b.liveCalls := rfl

@[simp] theorem aborted_append : (a ++ b).aborted = (a.aborted || b.aborted) := rfl

attribute [ext] Report

theorem append_assoc : a ++ b ++ c = a ++ (b ++ c) := by
  ext1 <;> simp [Nat.add_assoc, Bool.or_assoc]

@[simp] theorem append_empty : a ++ ({} : Report) = a := by
  ext1 <;> simp

@[simp] theorem empty_append : ({} : Report) ++ a = a := by
  ext1 <;> simp

/-! Every recording adds a report of one record. -/

theorem addExamined_eq : a.addExamined = a ++ { examined := 1 } := by
  ext1 <;> simp [addExamined]

theorem addRecovery_eq (recovery : Recovery) :
    a.addRecovery recovery = a ++ { recovered := 1, recoveries := [recovery] } := by
  ext1 <;> simp [addRecovery]

theorem addFailure_eq (site : Site) (reason : FailureReason) :
    a.addFailure site reason = a ++ { failures := [⟨site, reason⟩] } := by
  ext1 <;> simp [addFailure]

theorem addPatchedRoutine_eq : a.addPatchedRoutine = a ++ { routinesPatched := 1 } := by
  ext1 <;> simp [addPatchedRoutine]

theorem addLiveCall_eq (decoder : Token) :
    a.addLiveCall decoder = a ++ { liveCalls := [decoder] } := by
  ext1 <;> simp [addLiveCall]

theorem foldl_addLiveCall (calls : List Token) :
    calls.foldl addLiveCall a = a ++ { liveCalls := calls } := by
  induction calls generalizing a with
  | nil => simp
  | cons call rest ih =>
    rw [List.foldl_cons, ih, addLiveCall_eq, append_assoc]
    congr 1

end Report

/-! ### Decoders that may be removed -/

/-- Tokens in ascending order, none of them twice, ascend strictly. -/
theorem Token.pairwise_lt_of_nodup {tokens : List Token}
    (hle : tokens.Pairwise fun a b => a.le b) (hnodup : tokens.Nodup) :
    tokens.Pairwise fun a b => a.value < b.value := by
  refine (hle.and hnodup).imp ?_
  rintro a b ⟨hle, hne⟩
  simp only [Token.le, decide_eq_true_eq] at hle
  exact UInt32.lt_of_le_of_ne hle fun h => hne (congrArg Token.mk h)

namespace Report

/-- A decoder may be removed if something was recovered from it, nothing failed with it, and no call
of it is left. -/
theorem mem_removable_iff {report : Report} {token : Token} :
    token ∈ report.removable ↔
      report.aborted = false ∧ (∃ recovery ∈ report.recoveries, recovery.decoder = token) ∧
        (∀ failure ∈ report.failures, failure.site.target ≠ some token) ∧
        token ∉ report.liveCalls := by
  unfold removable
  split
  next h => simp [h]
  next h =>
    rw [(Token.sorted_perm _).mem_iff, List.mem_filter, List.mem_eraseDups, List.mem_map,
      Bool.and_eq_true]
    simp [h, failsFor, liveCallsOf, List.count_eq_zero]

theorem nodup_eraseDups (tokens : List Token) : tokens.eraseDups.Nodup := by
  induction hlength : tokens.length using Nat.strongRecOn generalizing tokens with
  | _ n ih =>
    cases tokens with
    | nil => simp
    | cons token rest =>
      have hshorter : (rest.filter fun other => !other == token).length < n := by
        have := List.length_filter_le (fun other => !other == token) rest
        simp only [List.length_cons] at hlength
        omega
      rw [List.eraseDups_cons, List.nodup_cons]
      exact ⟨by simp, ih _ hshorter _ rfl⟩

theorem nodup_removable (report : Report) : report.removable.Nodup := by
  unfold removable
  split
  · exact List.nodup_nil
  · exact (Token.sorted_perm _).nodup_iff.mpr ((nodup_eraseDups _).filter _)

theorem pairwise_removable (report : Report) :
    report.removable.Pairwise fun a b => a.le b := by
  unfold removable
  split
  · exact .nil
  · exact Token.pairwise_sorted _

theorem pairwise_lt_removable (report : Report) :
    report.removable.Pairwise fun a b => a.value < b.value :=
  Token.pairwise_lt_of_nodup report.pairwise_removable report.nodup_removable

/-- The list of removable decoders is determined by its members. -/
theorem removable_eq_of_mem_iff {a b : Report}
    (h : ∀ token, token ∈ a.removable ↔ token ∈ b.removable) : a.removable = b.removable := by
  have hperm : a.removable.Perm b.removable :=
    (List.perm_ext_iff_of_nodup a.nodup_removable b.nodup_removable).mpr h
  exact hperm.eq_of_pairwise (fun x y _ _ hxy hyx => Token.le_antisymm hxy hyx)
    a.pairwise_removable b.pairwise_removable

/-! ### Records without their order -/

/-- The records of a report, without their order. -/
def tally (report : Report) :
    ℕ × ℕ × Multiset Recovery × Multiset Failure × ℕ × Multiset Token :=
  (report.examined, report.recovered, ↑report.recoveries, ↑report.failures,
    report.routinesPatched, ↑report.liveCalls)

@[simp] theorem tally_append (a b : Report) : (a ++ b).tally = a.tally + b.tally := by
  simp [tally]

@[simp] theorem tally_empty : ({} : Report).tally = 0 :=
  rfl

/-- Reports with the same tally have the same records, in some order. -/
theorem tally_eq_iff {a b : Report} :
    a.tally = b.tally ↔ a.examined = b.examined ∧ a.recovered = b.recovered ∧
      a.recoveries.Perm b.recoveries ∧ a.failures.Perm b.failures ∧
      a.routinesPatched = b.routinesPatched ∧ a.liveCalls.Perm b.liveCalls := by
  simp [tally]

/-- The list of a routine's literals has those of its recoveries. -/
theorem stringsOf_perm (report : Report) (routine : Token) :
    (report.stringsOf routine).Perm ((report.recoveries.filter (·.routine = routine)).map
      fun recovery => (recovery.call, recovery.value)) :=
  List.mergeSort_perm ..

/-- **Which decoders may be removed** does not depend on the order of the records. -/
theorem removable_eq_of_tally_eq {a b : Report} (htally : a.tally = b.tally)
    (haborted : a.aborted = b.aborted) : a.removable = b.removable := by
  obtain ⟨-, -, hrecoveries, hfailures, -, hcalls⟩ := tally_eq_iff.mp htally
  refine removable_eq_of_mem_iff fun token => ?_
  simp only [mem_removable_iff, haborted, hrecoveries.mem_iff, hfailures.mem_iff, hcalls.mem_iff]

end Report
end LiteralRecovery
