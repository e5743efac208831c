import LiteralRecovery.Proofs.Entries
import LiteralRecovery.Proofs.Probes

/-!
# Options that only add

Two searches cost so much that they are off unless they are asked for: every key of a single byte,
and UTF-16 where UTF-8 is not accepted. Switching them on is safe. Neither has a say in which blob
is taken, which routines are decoders or which sites are examined, so two runs that differ in them
only can be compared site by site.

The search with single-byte keys comes last. It is reached only where everything else has failed,
and so nothing that was recovered before changes. The other option is of a different kind: it lets
all strategies for records accept more, and a strategy that failed before may now succeed in front
of the one that had found the literal. A site that was recovered is then still recovered, by the
same strategy or by one that comes before it.

## Main definitions

* `Config.switched`: both options set, everything else as it is
* `Strategy.Precedes`: the order in which strategies are tried
* `Report.ExtendedBy`, `Report.AdvancedBy`: what the options do to a report

## Main results

* `Request.exists_first?_of_isSome`: more hits can only bring the winner forward
* `decode?_switched_exhaustive`, `exists_decode?_switched_utf16`: the options and one constant
* `options_lose_no_string`
-/

namespace LiteralRecovery

/-- The configuration with both options set. -/
def Config.switched (config : Config) (exhaustive utf16 : Bool) : Config :=
  { config with exhaustiveXor := exhaustive, utf16 := utf16 }

/-- The strategy is tried before the other one. -/
def Strategy.Precedes (strategy other : Strategy) : Prop :=
  [strategy, other].Sublist Strategy.full

instance (strategy other : Strategy) : Decidable (strategy.Precedes other) :=
  inferInstanceAs (Decidable (List.Sublist _ _))

/-! ### One constant -/

namespace Request

/-- The request with both options set. -/
def switched (request : Request) (exhaustive utf16 : Bool) : Request :=
  { request with config := request.config.switched exhaustive utf16 }

variable {request other : Request} {exhaustive utf16 : Bool}

/-- All strategies but the last look where they looked before. -/
theorem probes_switched {strategy : Strategy} (h : strategy ≠ .exhaustiveXor) :
    (request.switched exhaustive utf16).probes strategy = request.probes strategy := by
  cases strategy with
  | exhaustiveXor => exact absurd rfl h
  | _ => rfl

/-- The last one may look at more. -/
theorem probes_subset_switched (request : Request) (exhaustive utf16 : Bool) (strategy : Strategy) :
    request.probes strategy ⊆
      (request.switched (request.config.exhaustiveXor || exhaustive) utf16).probes strategy := by
  by_cases hlast : strategy = .exhaustiveXor
  · subst hlast
    cases hbefore : request.config.exhaustiveXor with
    | false => simp [probes, hbefore]
    | true =>
      intro probe hprobe
      rw [probes, if_pos hbefore] at hprobe
      exact hprobe
  · rw [probes_switched hlast]
    exact List.Subset.refl _

/-- What could be read before can still be read, and is the same. -/
theorem read?_switched_utf16 {probe : Probe} {finding : Finding}
    (h : request.read? probe = some finding) :
    (request.switched exhaustive true).read? probe = some finding := by
  cases probe with
  | record offset =>
    obtain ⟨value, hvalue, rfl⟩ := Option.map_eq_some_iff.mp h
    obtain ⟨payload, hpayload, htext⟩ := Option.bind_eq_some_iff.mp hvalue
    have hstill : (request.switched exhaustive true).payloadText? payload = some value := by
      rw [payloadText?] at htext ⊢
      split at htext
      next text hutf8 =>
        simp only [switched, hutf8]
        exact htext
      next hutf8 =>
        simp only [switched, hutf8, Config.switched, if_true]
        exact (Option.ite_none_right_eq_some.mp htext).2
    rw [read?]
    simp only [switched, Config.switched] at hstill ⊢
    rw [hpayload, Option.bind_some, hstill, Option.map_some]
  | terminated offset => exact h
  | letter code => exact h

/-- A strategy that succeeded still does. -/
theorem isSome_attempt?_switched (exhaustive : Bool) {strategy : Strategy}
    (h : (request.attempt? strategy).isSome) :
    ((request.switched (request.config.exhaustiveXor || exhaustive) true).attempt?
      strategy).isSome := by
  rw [attempt?_eq_findSome?, List.findSome?_isSome_iff] at h ⊢
  obtain ⟨probe, hprobe, hfound⟩ := h
  obtain ⟨finding, hfinding⟩ := Option.isSome_iff_exists.mp hfound
  refine ⟨probe, request.probes_subset_switched exhaustive true strategy hprobe, ?_⟩
  rw [read?_switched_utf16 hfinding]
  rfl

theorem first?_nil (request : Request) : request.first? [] = none :=
  rfl

theorem first?_cons (request : Request) (strategy : Strategy) (rest : List Strategy) :
    request.first? (strategy :: rest) =
      ((request.attempt? strategy).map fun finding =>
        ⟨finding.value, strategy, finding.offset⟩).or (request.first? rest) := by
  rw [first?, first?, List.findSome?_cons]
  cases request.attempt? strategy <;> rfl

/-- **More hits can only bring the winner forward.** If each strategy that succeeds in one request
also succeeds in another, the other request has a winner too, the same one or one in front of it. -/
theorem exists_first?_of_isSome {strategies : List Strategy}
    (hmore : ∀ strategy ∈ strategies, (request.attempt? strategy).isSome →
      (other.attempt? strategy).isSome)
    {candidate : Candidate} (h : request.first? strategies = some candidate) :
    ∃ winner, other.first? strategies = some winner ∧
      (winner.strategy = candidate.strategy ∨
        [winner.strategy, candidate.strategy].Sublist strategies) := by
  induction strategies with
  | nil => cases h
  | cons strategy rest ih =>
    rw [first?_cons] at h ⊢
    cases hother : other.attempt? strategy with
    | some finding =>
      -- this strategy wins, and the candidate was found by it or by one of the rest
      refine ⟨_, rfl, ?_⟩
      cases hattempt : request.attempt? strategy with
      | some first =>
        rw [hattempt, Option.map_some, Option.some_or] at h
        rw [← Option.some.inj h]
        exact .inl rfl
      | none =>
        rw [hattempt, Option.map_none, Option.none_or] at h
        obtain ⟨later, hlater, hfound⟩ := List.exists_of_findSome?_eq_some h
        obtain ⟨_, -, rfl⟩ := Option.map_eq_some_iff.mp hfound
        exact .inr ((List.singleton_sublist.mpr hlater).cons_cons strategy)
    | none =>
      have hattempt : request.attempt? strategy = none := by
        have hnot := mt (hmore strategy (List.mem_cons_self ..))
        rw [hother] at hnot
        simpa using hnot
      rw [hattempt, Option.map_none, Option.none_or] at h
      obtain ⟨winner, hwinner, horder⟩ :=
        ih (fun later hlater => hmore later (List.mem_cons_of_mem _ hlater)) h
      refine ⟨winner, ?_, horder.imp_right fun hbefore => hbefore.cons strategy⟩
      rw [Option.map_none, Option.none_or, hwinner]

/-! The search with single-byte keys is the last one. -/

/-- Without a change of the other option, what can be read is the same. -/
theorem read?_switched_exhaustive (request : Request) (exhaustive : Bool) :
    (request.switched exhaustive request.config.utf16).read? = request.read? := by
  funext probe
  cases probe <;> rfl

theorem first?_congr {strategies : List Strategy}
    (h : ∀ strategy ∈ strategies, other.attempt? strategy = request.attempt? strategy) :
    other.first? strategies = request.first? strategies := by
  induction strategies with
  | nil => rw [first?_nil, first?_nil]
  | cons strategy rest ih =>
    have hrest := ih fun later hlater => h later (List.mem_cons_of_mem _ hlater)
    rw [first?_cons, first?_cons, h strategy (List.mem_cons_self ..), hrest]

theorem first?_append (request : Request) (strategies more : List Strategy) :
    request.first? (strategies ++ more) = (request.first? strategies).or (request.first? more) :=
  List.findSome?_append

/-- **The last search is reached where all others fail.** Switched on, it leaves every answer as it
was and adds its own where there was none. -/
theorem first?_switched_exhaustive (request : Request)
    (hoff : request.config.exhaustiveXor = false) :
    (request.switched true request.config.utf16).first? Strategy.full =
      (request.first? Strategy.full).or
        ((request.switched true request.config.utf16).first? [.exhaustiveXor]) := by
  have hsplit : Strategy.full = [.directOffset, .endRelativeOffset, .scaledOffset,
      .linearTransform, .keyedXor, .nullTerminated] ++ [.exhaustiveXor] := rfl
  have hlast : request.first? [.exhaustiveXor] = none := by
    simp [first?, attempt?, hoff]
  have hothers : ∀ strategy ∈ [.directOffset, .endRelativeOffset, .scaledOffset, .linearTransform,
      .keyedXor, .nullTerminated], (request.switched true request.config.utf16).attempt? strategy =
        request.attempt? strategy := by
    intro strategy hstrategy
    have hne : strategy ≠ .exhaustiveXor := by
      rintro rfl
      exact absurd hstrategy (by decide)
    rw [attempt?_eq_findSome?, attempt?_eq_findSome?, probes_switched hne,
      read?_switched_exhaustive]
  rw [hsplit, first?_append, first?_append, first?_congr hothers, hlast, Option.or_none]

end Request

section Decode

variable {config : Config} {blob : Bytes} {decoder : Option Decoder} {population : Population}
  {constant : Int32} {candidate : Candidate}

/-- **Single-byte keys and one constant.** What was decoded without them is decoded to the same, and
what is decoded in addition is found by the strategy that uses them. -/
theorem decode?_switched_exhaustive :
    (decode? config blob decoder population constant = some candidate →
      decode? (config.switched true config.utf16) blob decoder population constant =
        some candidate) ∧
    (decode? config blob decoder population constant = none →
      decode? (config.switched true config.utf16) blob decoder population constant =
        some candidate → candidate.strategy = .exhaustiveXor) := by
  have hequal : (decode? (config.switched true config.utf16) blob decoder population constant =
      decode? config blob decoder population constant) ∨ population = .full ∧
        config.exhaustiveXor = false := by
    cases population with
    | short => exact .inl rfl
    | full =>
      cases hoff : config.exhaustiveXor with
      | true => exact .inl (congrArg (decode? · blob decoder .full constant) (hoff ▸ rfl))
      | false => exact .inr ⟨rfl, rfl⟩
  rcases hequal with hequal | ⟨rfl, hoff⟩
  · rw [hequal]
    exact ⟨id, fun hnone hsome => absurd (hnone.symm.trans hsome) (by simp)⟩
  · have hdecode : decode? (config.switched true config.utf16) blob decoder .full constant =
        (decode? config blob decoder .full constant).or _ :=
      (Population.full.request config blob decoder constant).first?_switched_exhaustive hoff
    rw [hdecode]
    constructor
    · intro hsome
      rw [hsome, Option.some_or]
    · intro hnone hsome
      rw [hnone, Option.none_or] at hsome
      obtain ⟨strategy, hstrategy, hfound⟩ := List.exists_of_findSome?_eq_some hsome
      obtain ⟨_, -, rfl⟩ := Option.map_eq_some_iff.mp hfound
      exact List.mem_singleton.mp hstrategy

/-- **UTF-16 and one constant.** What was decoded without it is still decoded, by the same strategy
or by one that is tried before it. -/
theorem exists_decode?_switched_utf16 (exhaustive : Bool)
    (h : decode? config blob decoder population constant = some candidate) :
    ∃ winner, decode? (config.switched (config.exhaustiveXor || exhaustive) true) blob decoder
        population constant = some winner ∧
      (winner.strategy = candidate.strategy ∨ winner.strategy.Precedes candidate.strategy) := by
  obtain ⟨winner, hwinner, horder⟩ := Request.exists_first?_of_isSome
    (fun _ _ => Request.isSome_attempt?_switched exhaustive) h
  refine ⟨winner, hwinner, horder.imp_right fun hbefore => ?_⟩
  cases population with
  | full => exact hbefore
  | short => exact absurd hbefore.length_le (by simp [Population.strategies, Strategy.short])

end Decode

/-! ### Two runs, site by site -/

/-- What is recorded of members by one function is matched, in the same order, by what is recorded
of them by another that records at least as much. -/
theorem sublistForall₂_filterMap {α β : Type} {record? other? : α → Option β} {R : β → β → Prop}
    {members : List α}
    (h : ∀ member ∈ members, ∀ record, record? member = some record →
      ∃ other, other? member = some other ∧ R record other) :
    List.SublistForall₂ R (members.filterMap record?) (members.filterMap other?) := by
  induction members with
  | nil => exact .nil
  | cons member rest ih =>
    have hrest := ih fun later hlater => h later (List.mem_cons_of_mem _ hlater)
    cases hrecord : record? member with
    | some record =>
      obtain ⟨other, hother, hrelated⟩ := h member (List.mem_cons_self ..) record hrecord
      rw [List.filterMap_cons_some hrecord, List.filterMap_cons_some hother]
      exact .cons hrelated hrest
    | none =>
      rw [List.filterMap_cons_none hrecord]
      cases hother : other? member with
      | none => rwa [List.filterMap_cons_none hother]
      | some other =>
        rw [List.filterMap_cons_some hother]
        exact .cons_right hrest

theorem sublist_of_sublistForall₂_eq {α : Type} {first second : List α}
    (h : List.SublistForall₂ Eq first second) : first.Sublist second := by
  obtain ⟨_, hequal, hsublist⟩ := List.sublistForall₂_iff.mp h
  rw [List.forall₂_eq_eq_eq] at hequal
  rwa [hequal]

namespace Context

variable {first second : Context} {better : Candidate → Candidate → Prop} {site : Site}

/-- Both contexts have the same sites, and what the first one decodes is decoded by the second one
too, not necessarily to the same. -/
structure ImprovedBy (better : Candidate → Candidate → Prop) (first second : Context) : Prop where
  sites : second.sitesOf = first.sitesOf
  decode : ∀ decoder site candidate, first.decode? decoder site = some candidate →
    ∃ winner, second.decode? decoder site = some winner ∧ better candidate winner

/-- A site that is recovered in the first context is recovered in the second. -/
theorem ImprovedBy.recovery? (h : first.ImprovedBy better second) {recovery : Recovery}
    (hrecovery : first.recovery? site = some recovery) :
    ∃ decoder candidate winner, better candidate winner ∧
      site.recovery decoder candidate = recovery ∧
      second.recovery? site = some (site.recovery decoder winner) := by
  obtain ⟨decoder, candidate, hjudge, heq⟩ := recovery?_eq_some_iff.mp hrecovery
  obtain ⟨htarget, hdecode⟩ := judge_eq_ok_iff.mp hjudge
  obtain ⟨winner, hwinner, hbetter⟩ := h.decode decoder site candidate hdecode
  refine ⟨decoder, candidate, winner, hbetter, heq, ?_⟩
  exact recovery?_eq_some_iff.mpr ⟨decoder, winner, judge_eq_ok_iff.mpr ⟨htarget, hwinner⟩, rfl⟩

/-- A site that fails in the second context fails in the first, for the same reason. -/
theorem ImprovedBy.failure? (h : first.ImprovedBy better second) {failure : Failure}
    (hfailure : second.failure? site = some failure) : first.failure? site = some failure := by
  obtain ⟨hjudge, hsite⟩ := failure?_eq_some_iff.mp hfailure
  refine failure?_eq_some_iff.mpr ⟨?_, hsite⟩
  cases hreason : failure.reason with
  | ambiguousTarget =>
    rw [hreason] at hjudge
    cases htarget : site.target with
    | none => simp [judge, htarget]
    | some decoder =>
      -- with a target the reason would have been another
      rw [judge, htarget] at hjudge
      dsimp only at hjudge
      split at hjudge <;> cases hjudge
  | decodeMiss =>
    rw [hreason] at hjudge
    obtain ⟨decoder, htarget, hnone⟩ := judge_eq_decodeMiss_iff.mp hjudge
    refine judge_eq_decodeMiss_iff.mpr ⟨decoder, htarget, ?_⟩
    cases hdecode : first.decode? decoder site with
    | none => rfl
    | some candidate =>
      obtain ⟨winner, hwinner, -⟩ := h.decode decoder site candidate hdecode
      exact absurd (hnone.symm.trans hwinner) (by simp)

theorem ImprovedBy.failures (h : first.ImprovedBy better second) (routines : List Routine) :
    (second.reportOf routines).failures.Sublist (first.reportOf routines).failures := by
  rw [failures_eq_filterMap, failures_eq_filterMap, h.sites]
  refine sublist_of_sublistForall₂_eq (sublistForall₂_filterMap ?_)
  intro site _ failure hfailure
  exact ⟨failure, h.failure? hfailure, rfl⟩

theorem ImprovedBy.recoveries (h : first.ImprovedBy better second) {R : Recovery → Recovery → Prop}
    (hrelated : ∀ (site : Site) decoder candidate winner, better candidate winner →
      R (site.recovery decoder candidate) (site.recovery decoder winner))
    (routines : List Routine) :
    List.SublistForall₂ R (first.reportOf routines).recoveries
      (second.reportOf routines).recoveries := by
  rw [recoveries_eq_filterMap, recoveries_eq_filterMap, h.sites]
  refine sublistForall₂_filterMap fun site _ recovery hrecovery => ?_
  obtain ⟨decoder, candidate, winner, hbetter, rfl, hwinner⟩ := h.recovery? hrecovery
  exact ⟨_, hwinner, hrelated site decoder candidate winner hbetter⟩

theorem ImprovedBy.examined (h : first.ImprovedBy better second) (routines : List Routine) :
    (second.reportOf routines).examined = (first.reportOf routines).examined := by
  rw [examined_reportOf, examined_reportOf, h.sites]

/-- The entries of both reports are about the same places. -/
theorem ImprovedBy.places (h : first.ImprovedBy better second) (routines : List Routine) :
    ((second.reportOf routines).entries.map Entry.place).Perm
      ((first.reportOf routines).entries.map Entry.place) := by
  have hplaces : ∀ context : Context, ((context.reportOf routines).entries.map Entry.place).Perm
      ((context.sitesOf routines).map Site.place) := by
    intro context
    refine ((context.logs_reportOf routines).perm.map Entry.place).trans ?_
    rw [List.map_map]
    simp only [Function.comp_def, place_entryOf]
    exact .refl _
  have hsecond := hplaces second
  rw [h.sites] at hsecond
  exact hsecond.trans (hplaces first).symm

/-- The context with both options set. -/
def switched (context : Context) (exhaustive utf16 : Bool) : Context :=
  { context with config := context.config.switched exhaustive utf16 }

variable (context : Context)

/-- **Single-byte keys.** Every site that was decoded is decoded to the same. -/
theorem improvedBy_exhaustive :
    context.ImprovedBy Eq (context.switched true context.config.utf16) where
  sites := rfl
  decode := fun _ _ candidate h => ⟨candidate, decode?_switched_exhaustive.1 h, rfl⟩

/-- **UTF-16.** Every site that was decoded is decoded, by the same strategy or an earlier one. -/
theorem improvedBy_utf16 (exhaustive : Bool) :
    context.ImprovedBy (fun candidate winner => winner.strategy = candidate.strategy ∨
        winner.strategy.Precedes candidate.strategy)
      (context.switched (context.config.exhaustiveXor || exhaustive) true) where
  sites := rfl
  decode := fun _ _ _ h => exists_decode?_switched_utf16 exhaustive h

end Context

/-! ### Two reports -/

/-- The other recovery is of the same site, by the same strategy or by one tried before it. -/
structure Recovery.AdvancedBy (recovery other : Recovery) : Prop where
  place : (Entry.recovered other).place = (Entry.recovered recovery).place
  strategy : other.strategy = recovery.strategy ∨ other.strategy.Precedes recovery.strategy

/-- The other report has the same sites and all recoveries of the report as they are. Its other
recoveries are misses of the report, found under a key of a single byte. -/
structure Report.ExtendedBy (report more : Report) : Prop where
  examined : more.examined = report.examined
  places : (more.entries.map Entry.place).Perm (report.entries.map Entry.place)
  recoveries : report.recoveries.Sublist more.recoveries
  failures : more.failures.Sublist report.failures
  gained : ∀ recovery ∈ more.recoveries, recovery ∈ report.recoveries ∨
    recovery.strategy = .exhaustiveXor ∧ ∃ failure ∈ report.failures,
      failure.reason = .decodeMiss ∧ failure.site.place = (Entry.recovered recovery).place

/-- The other report has the same sites, and recovers all that the report recovers by the same
strategies or earlier ones. -/
structure Report.AdvancedBy (report more : Report) : Prop where
  examined : more.examined = report.examined
  places : (more.entries.map Entry.place).Perm (report.entries.map Entry.place)
  recoveries : List.SublistForall₂ Recovery.AdvancedBy report.recoveries more.recoveries
  failures : more.failures.Sublist report.failures

namespace Context

variable (context : Context) (routines : List Routine)

/-- What is recovered in addition under single-byte keys was a miss before. -/
theorem gained_exhaustive {recovery : Recovery} (h : recovery ∈
      ((context.switched true context.config.utf16).reportOf routines).recoveries) :
    recovery ∈ (context.reportOf routines).recoveries ∨
      recovery.strategy = .exhaustiveXor ∧ ∃ failure ∈ (context.reportOf routines).failures,
        failure.reason = .decodeMiss ∧
          failure.site.place = (Entry.recovered recovery).place := by
  rw [recoveries_eq_filterMap, List.mem_filterMap] at h
  obtain ⟨site, hsite, hrecovery⟩ := h
  obtain ⟨decoder, winner, hjudge, rfl⟩ := recovery?_eq_some_iff.mp hrecovery
  obtain ⟨htarget, hwinner⟩ := judge_eq_ok_iff.mp hjudge
  rw [recoveries_eq_filterMap, failures_eq_filterMap]
  cases hdecode : context.decode? decoder site with
  | some candidate =>
    left
    have hsame := decode?_switched_exhaustive.1 hdecode
    obtain rfl := Option.some.inj (hsame.symm.trans hwinner)
    refine List.mem_filterMap.mpr ⟨site, hsite, recovery?_eq_some_iff.mpr ?_⟩
    exact ⟨decoder, candidate, judge_eq_ok_iff.mpr ⟨htarget, hdecode⟩, rfl⟩
  | none =>
    right
    have hmiss : context.judge site = .error .decodeMiss :=
      judge_eq_decodeMiss_iff.mpr ⟨decoder, htarget, hdecode⟩
    refine ⟨decode?_switched_exhaustive.2 hdecode hwinner, ⟨site, .decodeMiss⟩, ?_, rfl, ?_⟩
    · exact List.mem_filterMap.mpr ⟨site, hsite, failure?_eq_some_iff.mpr ⟨hmiss, rfl⟩⟩
    · simp only [Site.place, Entry.place, Site.recovery, htarget]

theorem extendedBy_exhaustive :
    (context.reportOf routines).ExtendedBy
      ((context.switched true context.config.utf16).reportOf routines) where
  examined := context.improvedBy_exhaustive.examined routines
  places := context.improvedBy_exhaustive.places routines
  recoveries := sublist_of_sublistForall₂_eq (context.improvedBy_exhaustive.recoveries
    (fun _ _ _ _ heq => congrArg _ heq) routines)
  failures := context.improvedBy_exhaustive.failures routines
  gained := fun _ h => context.gained_exhaustive routines h

theorem advancedBy_utf16 (exhaustive : Bool) :
    (context.reportOf routines).AdvancedBy
      ((context.switched (context.config.exhaustiveXor || exhaustive) true).reportOf routines) where
  examined := (context.improvedBy_utf16 exhaustive).examined routines
  places := (context.improvedBy_utf16 exhaustive).places routines
  recoveries := (context.improvedBy_utf16 exhaustive).recoveries
    (fun _ _ _ _ hstrategy => ⟨rfl, hstrategy⟩) routines
  failures := (context.improvedBy_utf16 exhaustive).failures routines

end Context

/-! ### Runs -/

/-- The blob, the workers, the pool and the failure to get any of them do not depend on the
options. -/
theorem Engine.run_switched (config : Config) (exhaustive utf16 : Bool) (supply : WorkerSupply)
    (assembly : Assembly) :
    (∀ error, config.prepare supply assembly.slots = .error error →
      ((ofConfig (config.switched exhaustive utf16)).run supply assembly).result =
        .error error) ∧
    ∀ blob, config.prepare supply assembly.slots = .ok blob →
      ((ofConfig (config.switched exhaustive utf16)).run supply assembly).result =
        .ok ((((ofConfig config).context assembly blob).switched exhaustive utf16).reportOf
          assembly.routines) := by
  constructor
  · intro error herror
    exact (runUntil_of_prepare_error none herror).2
  · intro blob hready
    exact (run_of_prepare hready).2

/-- **The options lose no string.** A run that fails, for want of a blob or of workers, fails with
the options in the same way. In any other case, trying every key of a single byte leaves all
recoveries as they are and turns only misses into recoveries. Reading UTF-16, alone or in addition,
examines the same sites and recovers each one that was recovered, by the same strategy or an earlier
one. -/
theorem options_lose_no_string (config : Config) (supply : WorkerSupply) (assembly : Assembly) :
    let result := fun config : Config => ((Engine.ofConfig config).run supply assembly).result
    (∀ error, result config = .error error →
      result { config with exhaustiveXor := true } = .error error ∧
        ∀ exhaustive : Bool, result { config with
          utf16 := true, exhaustiveXor := config.exhaustiveXor || exhaustive } = .error error) ∧
    ∀ report, result config = .ok report →
      (∃ more, result { config with exhaustiveXor := true } = .ok more ∧ report.ExtendedBy more) ∧
        ∀ exhaustive : Bool, ∃ more, result { config with
          utf16 := true, exhaustiveXor := config.exhaustiveXor || exhaustive } = .ok more ∧
            report.AdvancedBy more := by
  intro result
  cases hready : config.prepare supply assembly.slots with
  | error error =>
    have hbefore : result config = .error error :=
      (Engine.runUntil_of_prepare_error none hready).2
    constructor
    · intro other hother
      obtain rfl : error = other := Except.error.inj (hbefore.symm.trans hother)
      exact ⟨(Engine.run_switched config true config.utf16 supply assembly).1 error hready,
        fun exhaustive => (Engine.run_switched config _ true supply assembly).1 error hready⟩
    · intro report hreport
      cases hbefore.symm.trans hreport
  | ok blob =>
    have hbefore := (@Engine.run_of_prepare (.ofConfig config) supply assembly blob hready).2
    constructor
    · intro error herror
      cases hbefore.symm.trans herror
    · intro report hreport
      obtain rfl := Except.ok.inj (hbefore.symm.trans hreport)
      refine ⟨⟨_, (Engine.run_switched config true config.utf16 supply assembly).2 blob hready, ?_⟩,
        fun exhaustive =>
          ⟨_, (Engine.run_switched config _ true supply assembly).2 blob hready, ?_⟩⟩
      · exact Context.extendedBy_exhaustive _ _
      · exact Context.advancedBy_utf16 _ _ exhaustive

namespace Sample

/-- A record at offset 4 that is a text as UTF-16 only, and one at offset 16. -/
def mixedBlob : Bytes :=
  #[0xee, 0xee, 0xee, 0xee, 4, 0, 0, 0, 104, 0, 105, 0,
    0xee, 0xee, 0xee, 0xee, 2, 0, 0, 0, 121, 111]

/-- The small assembly with this blob, and with a caller for the constants 4 and 3. -/
def mixedAssembly : Assembly :=
  { withBody [.loadInt 4, .callTo decoder.token, .loadInt 3, .callTo decoder.token] with
    slots := [⟨blob.slot, blob.name, none, some mixedBlob⟩] }

/-- A recovery of the first call. -/
def firstRecovery (strategy : Strategy) (value : String) : Recovery :=
  ⟨main.token, 0, 1, 4, decoder.token, strategy, value⟩

/-- A failure of the second call. -/
def secondFailure : Failure :=
  ⟨⟨main.token, 2, 3, 3, some decoder.token, .full⟩, .decodeMiss⟩

/-- What is reported if only the first call is recovered. -/
def halfReport (strategy : Strategy) (value : String) : Report :=
  { examined := 2
    recovered := 1
    recoveries := [firstRecovery strategy value]
    failures := [secondFailure]
    routinesPatched := 1
    liveCalls := [decoder.token] }

/-- What is reported if the second call is recovered under a key of a single byte. -/
def wholeReport : Report :=
  { examined := 2
    recovered := 2
    recoveries := [firstRecovery .scaledOffset "yo",
      ⟨main.token, 2, 3, 3, decoder.token, .exhaustiveXor, "yo"⟩]
    routinesPatched := 1 }

end Sample

/-- Single-byte keys turn the miss into a recovery, and with UTF-16 the first call is recovered by
an earlier strategy, to another text. -/
theorem options_lose_no_string_sample :
    let config := Sample.engine.config
    let result := fun config : Config =>
      ((Engine.ofConfig config).run Sample.supply Sample.mixedAssembly).result
    result config = .ok (Sample.halfReport .scaledOffset "yo") ∧
      result { config with exhaustiveXor := true } = .ok Sample.wholeReport ∧
      (Sample.halfReport .scaledOffset "yo").ExtendedBy Sample.wholeReport ∧
      result { config with utf16 := true } = .ok (Sample.halfReport .directOffset "hi") ∧
      (Sample.halfReport .scaledOffset "yo").AdvancedBy (Sample.halfReport .directOffset "hi") ∧
      Strategy.directOffset.Precedes .scaledOffset := by
  intro config result
  have hbefore : result config = .ok (Sample.halfReport .scaledOffset "yo") := by decide +kernel
  have hkeys : result { config with exhaustiveXor := true } = .ok Sample.wholeReport := by
    decide +kernel
  have hwide : result { config with utf16 := true } =
      .ok (Sample.halfReport .directOffset "hi") := by decide +kernel
  obtain ⟨⟨more, hmore, hextended⟩, hutf16⟩ :=
    (options_lose_no_string config Sample.supply Sample.mixedAssembly).2 _ hbefore
  obtain ⟨wide, hresult, hadvanced⟩ := hutf16 false
  obtain rfl := Except.ok.inj (hkeys.symm.trans hmore)
  obtain rfl := Except.ok.inj (hwide.symm.trans hresult)
  exact ⟨hbefore, hkeys, hextended, hwide, hadvanced, by decide⟩

end LiteralRecovery
