import LiteralRecovery.Engine
import LiteralRecovery.Proofs.Patching
import LiteralRecovery.Proofs.Reports

/-!
# A run, accounted for routine by routine

A run threads a cache, a report and a log through all sites of all routines. None of this is needed
to say what it does. What becomes of a site follows from the blob and the pool alone (`judge`), what
becomes of a routine from its sites (`rewrite`, `routineReport`), and the report of a run is that of
its routines one after the other.

The bridge between the two descriptions has two supports. Patching never refuses a scanned site
(`Routine.Accepts`), and a cached answer is the answer: the cache is keyed by decoder and constant,
and the population of a site is a function of these two as long as the pool stays the same
(`Cache.Sound`). Both are invariants of the loop over the sites, and `Gains` carries them together
with what the loop adds to the report.

## Main definitions

* `Context.judge`: what becomes of a site
* `Context.rewrite`, `Context.routineReport`: what becomes of a routine
* `Context.Gains`: one progress continues another, with the given report in addition

## Main results

* `Context.processSite_spec`, `Context.foldl_processSite_spec`: one site, and all sites of a routine
* `Context.processRoutine_spec`, `Context.processRoutines_spec`: one routine, and those of a run
* `Engine.runUntil_of_prepare`: what a run gives back
-/

namespace LiteralRecovery

/-! ### Records

Lists of records are made from the sites of routines. A record says what it was made from, and so
the list can be traced back. -/

/-- The members of a list that have a record, from the list of the records. -/
theorem map_filterMap_eq_filter {α β : Type} {record? : α → Option β} {origin : β → α}
    (h : ∀ {member record}, record? member = some record → origin record = member)
    (members : List α) :
    (members.filterMap record?).map origin =
      members.filter fun member => (record? member).isSome := by
  induction members with
  | nil => rfl
  | cons member rest ih =>
    cases hrecord : record? member with
    | none => simpa [hrecord] using ih
    | some record => simpa [hrecord, h hrecord] using ih

namespace Routine

variable {α : Type} {records : Routine → List α} {owner : α → Token} {routines : List Routine}

/-- A token that no routine has is that of no record. -/
theorem filter_flatMap_of_not_mem
    (howner : ∀ routine, ∀ record ∈ records routine, owner record = routine.token)
    {token : Token} (h : token ∉ routines.map Routine.token) :
    (routines.flatMap records).filter (owner · = token) = [] := by
  refine List.filter_eq_nil_iff.mpr fun record hrecord => ?_
  obtain ⟨routine, hroutine, hmem⟩ := List.mem_flatMap.mp hrecord
  rw [decide_eq_true_iff, howner routine record hmem]
  rintro rfl
  exact h (List.mem_map_of_mem hroutine)

/-- Where tokens are distinct, the records with the token of a routine are its own. -/
theorem filter_flatMap_of_mem
    (howner : ∀ routine, ∀ record ∈ records routine, owner record = routine.token)
    (hdistinct : (routines.map Routine.token).Nodup) {routine : Routine} (h : routine ∈ routines) :
    (routines.flatMap records).filter (owner · = routine.token) = records routine := by
  induction routines with
  | nil => cases h
  | cons head rest ih =>
    obtain ⟨hhead, hrest⟩ := List.nodup_cons.mp hdistinct
    rw [List.flatMap_cons, List.filter_append]
    rcases List.mem_cons.mp h with rfl | hmem
    · rw [filter_flatMap_of_not_mem howner hhead, List.append_nil, List.filter_eq_self]
      exact fun record hrecord => decide_eq_true (howner _ record hrecord)
    · have hforeign : (records head).filter (owner · = routine.token) = [] := by
        refine List.filter_eq_nil_iff.mpr fun record hrecord => ?_
        rw [decide_eq_true_iff, howner head record hrecord]
        exact fun heq => hhead (heq ▸ List.mem_map_of_mem hmem)
      rw [hforeign, List.nil_append, ih hrest hmem]

end Routine

/-! ### What becomes of a site -/

/-- The patcher after the given literals were put in place, whether or not they fit. -/
def Patcher.put (patcher : Patcher) (placements : List (Site × String)) : Patcher :=
  ⟨patcher.routine.putLiterals placements, patcher.patched + placements.length⟩

@[simp] theorem Patcher.put_nil (patcher : Patcher) : patcher.put [] = patcher :=
  rfl

theorem Patcher.put_append (patcher : Patcher) (first second : List (Site × String)) :
    patcher.put (first ++ second) = (patcher.put first).put second := by
  simp [put, Routine.putLiterals_append, Nat.add_assoc]

/-- The record of a site that became the literal of a candidate. -/
def Site.recovery (site : Site) (decoder : Token) (candidate : Candidate) : Recovery :=
  ⟨site.routine, site.load, site.call, site.constant, decoder, candidate.strategy, candidate.value⟩

namespace Context

variable (context : Context)

/-- What becomes of a site: the decoder and the literal, or the reason why there is none. -/
def judge (site : Site) : Except FailureReason (Token × Candidate) :=
  match site.target with
  | none => .error .ambiguousTarget
  | some decoder =>
    match context.decode? decoder site with
    | none => .error .decodeMiss
    | some candidate => .ok (decoder, candidate)

/-- The record of a site, if it is recovered. -/
def recovery? (site : Site) : Option Recovery :=
  match context.judge site with
  | .ok (decoder, candidate) => some (site.recovery decoder candidate)
  | .error _ => none

/-- The record of a site, if it is not recovered. -/
def failure? (site : Site) : Option Failure :=
  match context.judge site with
  | .ok _ => none
  | .error reason => some ⟨site, reason⟩

/-- The site with the literal that takes its place, if it is recovered. -/
def placement? (site : Site) : Option (Site × String) :=
  match context.judge site with
  | .ok (_, candidate) => some (site, candidate.value)
  | .error _ => none

theorem placement?_fst {site : Site} {placement : Site × String}
    (h : context.placement? site = some placement) : placement.1 = site := by
  unfold placement? at h
  split at h
  · rw [← Option.some.inj h]
  · cases h

/-- What a site adds to the report once it was counted as examined. -/
def verdict (site : Site) : Report :=
  { recovered := (context.recovery? site).toList.length
    recoveries := (context.recovery? site).toList
    failures := (context.failure? site).toList }

/-! The three things that may become of a site. -/

theorem verdict_of_ambiguous {site : Site} (htarget : site.target = none) :
    context.placement? site = none ∧
      context.verdict site = { failures := [⟨site, .ambiguousTarget⟩] } := by
  have hjudge : context.judge site = .error .ambiguousTarget := by simp [judge, htarget]
  simp [placement?, verdict, recovery?, failure?, hjudge]

theorem verdict_of_miss {site : Site} {decoder : Token} (htarget : site.target = some decoder)
    (hanswer : none = context.decode? decoder site) :
    context.placement? site = none ∧
      context.verdict site = { failures := [⟨site, .decodeMiss⟩] } := by
  have hjudge : context.judge site = .error .decodeMiss := by simp [judge, htarget, ← hanswer]
  simp [placement?, verdict, recovery?, failure?, hjudge]

theorem verdict_of_candidate {site : Site} {decoder : Token} {candidate : Candidate}
    (htarget : site.target = some decoder)
    (hanswer : some candidate = context.decode? decoder site) :
    context.placement? site = some (site, candidate.value) ∧
      context.verdict site =
        { recovered := 1, recoveries := [site.recovery decoder candidate] } := by
  have hjudge : context.judge site = .ok (decoder, candidate) := by
    simp [judge, htarget, ← hanswer]
  simp [placement?, verdict, recovery?, failure?, hjudge]

/-- What sites add to the report. -/
def summary (sites : List Site) : Report :=
  { examined := sites.length
    recovered := (sites.filterMap context.recovery?).length
    recoveries := sites.filterMap context.recovery?
    failures := sites.filterMap context.failure? }

@[simp] theorem summary_nil : context.summary [] = {} :=
  rfl

theorem summary_cons (site : Site) (rest : List Site) :
    context.summary (site :: rest) =
      { examined := 1 } ++ (context.verdict site ++ context.summary rest) := by
  ext1
  · simp [summary, verdict, Nat.add_comm]
  · cases h : context.recovery? site <;> simp [summary, verdict, h, Nat.add_comm]
  · cases h : context.recovery? site <;> simp [summary, verdict, h]
  · cases h : context.failure? site <;> simp [summary, verdict, h]
  all_goals rfl

/-- The patcher when the sites were examined. -/
def ending (patcher : Patcher) (sites : List Site) : Patcher :=
  patcher.put (sites.filterMap context.placement?)

@[simp] theorem ending_nil (patcher : Patcher) : context.ending patcher [] = patcher :=
  rfl

theorem ending_cons (patcher : Patcher) (site : Site) (rest : List Site) :
    context.ending patcher (site :: rest) =
      context.ending (patcher.put (context.placement? site).toList) rest := by
  rw [ending, ending, ← Patcher.put_append]
  cases h : context.placement? site <;> simp [h]

/-- The sites that remain are accepted, whether or not the first one became a literal. -/
theorem accepts_put_placement {patcher : Patcher} {site : Site} {rest : List Site}
    (h : patcher.routine.Accepts (site :: rest)) :
    (patcher.put (context.placement? site).toList).routine.Accepts rest := by
  cases hplacement : context.placement? site with
  | none => exact h.tail
  | some placement =>
    obtain rfl : placement.1 = site := context.placement?_fst hplacement
    exact h.putLiteral placement.2

end Context

/-! ### The cache -/

/-- The site has the population that the pool assigns to its target and constant. -/
def Context.Routes (context : Context) (site : Site) : Prop :=
  site.population = context.pool.population context.config site.target site.constant

/-- Every answer in the cache is what the decoder's constant stands for. The population is that of
a site with this target and constant, which is why the key can do without it. -/
def Cache.Sound (context : Context) (cache : Cache) : Prop :=
  ∀ decoder constant answer, cache.find? decoder constant = some answer →
    answer = LiteralRecovery.decode? context.config context.blob (context.pool.find? decoder)
      (context.pool.population context.config (some decoder) constant) constant

namespace Context

variable {context : Context} {site : Site} {decoder : Token}

theorem routes_of_mem_sites {routine : Routine}
    (h : site ∈ context.pool.sites context.config routine) : context.Routes site := by
  obtain ⟨instr, -, -, htarget, -, -, -, hpopulation⟩ := Pool.mem_sites_iff.mp h
  rw [Routes, htarget]
  exact hpopulation

theorem decode?_eq_of_routes (hroutes : context.Routes site)
    (htarget : site.target = some decoder) :
    context.decode? decoder site =
      LiteralRecovery.decode? context.config context.blob (context.pool.find? decoder)
        (context.pool.population context.config (some decoder) site.constant) site.constant := by
  rw [decode?, hroutes, htarget]

theorem sound_nil : Cache.Sound context [] := by
  intro decoder constant answer h
  cases h

/-- A hit is the answer. -/
theorem eq_decode?_of_find? {cache : Cache} {answer : Option Candidate}
    (hsound : cache.Sound context) (hroutes : context.Routes site)
    (htarget : site.target = some decoder)
    (hfind : cache.find? decoder site.constant = some answer) :
    answer = context.decode? decoder site := by
  rw [decode?_eq_of_routes hroutes htarget]
  exact hsound _ _ _ hfind

/-- The answer may be stored, also where another one is held already. -/
theorem sound_insert {cache : Cache} (hsound : cache.Sound context) (hroutes : context.Routes site)
    (htarget : site.target = some decoder) :
    (cache.insert decoder site.constant (context.decode? decoder site)).Sound context := by
  intro target constant answer h
  rw [Cache.find?_insert] at h
  split at h
  next hkey =>
    obtain ⟨rfl, rfl⟩ := hkey
    rw [← Option.some.inj h, decode?_eq_of_routes hroutes htarget]
  next => exact hsound _ _ _ h

/-! ### One site, and the sites of a routine -/

/-- `after` continues `before`: the report has `gain` in addition, the cache can be relied upon, and
nothing was refused on the way. -/
structure Gains (context : Context) (before : Progress) (gain : Report) (after : Progress) :
    Prop where
  /-- What is added to the report. -/
  report : after.report = before.report ++ gain
  /-- Every cached answer is the answer. -/
  sound : after.cache.Sound context
  /-- Of the events that are added none is a refusal. -/
  log : ∀ event ∈ after.log, event ∈ before.log ∨ ∀ error, event ≠ .refused error

theorem Gains.refl {progress : Progress} (hsound : progress.cache.Sound context) :
    context.Gains progress {} progress :=
  ⟨by simp, hsound, fun _ h => .inl h⟩

theorem Gains.trans {p q r : Progress} {gain more : Report} (hp : context.Gains p gain q)
    (hq : context.Gains q more r) : context.Gains p (gain ++ more) r := by
  refine ⟨by rw [hq.report, hp.report, Report.append_assoc], hq.sound, fun event h => ?_⟩
  rcases hq.log event h with h | h
  · exact hp.log event h
  · exact .inr h

/-- Recording, without an event. -/
theorem Gains.record {progress : Progress} {change : Report → Report} {gain : Report}
    (hsound : progress.cache.Sound context) (h : change progress.report = progress.report ++ gain) :
    context.Gains progress gain (progress.record change) :=
  ⟨h, hsound, fun _ h => .inl h⟩

/-- Telling, without a record. -/
theorem Gains.tell {progress : Progress} {event : Event} (hsound : progress.cache.Sound context)
    (h : ∀ error, event ≠ .refused error) : context.Gains progress {} (progress.tell event) := by
  refine ⟨by simp [Progress.tell], hsound, fun told htold => ?_⟩
  rcases Array.mem_push.mp htold with hold | rfl
  · exact .inl hold
  · exact .inr h

theorem Gains.fail {progress : Progress} (hsound : progress.cache.Sound context)
    (reason : FailureReason) :
    context.Gains progress { failures := [⟨site, reason⟩] } (progress.fail site reason) := by
  have htell : context.Gains progress {} (progress.tell (.siteFailed site reason)) :=
    .tell hsound (by simp)
  rw [← Report.empty_append { failures := _ }]
  exact htell.trans (.record htell.sound (Report.addFailure_eq _ site reason))

theorem Gains.recover {progress : Progress} (hsound : progress.cache.Sound context)
    (candidate : Candidate) :
    context.Gains progress { recovered := 1, recoveries := [site.recovery decoder candidate] }
      (progress.recover site decoder candidate) := by
  have htell : context.Gains progress {} (progress.tell (.siteRecovered site candidate)) :=
    .tell hsound (by simp)
  rw [← Report.empty_append { recovered := 1, recoveries := _ }]
  exact htell.trans (.record htell.sound (Report.addRecovery_eq _ _))

/-- The cache is of no account: a lookup gives what decoding would give. -/
theorem lookup_spec {progress : Progress} (hsound : progress.cache.Sound context)
    (hroutes : context.Routes site) (htarget : site.target = some decoder) :
    (context.lookup decoder site progress).1 = context.decode? decoder site ∧
      context.Gains progress {} (context.lookup decoder site progress).2 := by
  rw [lookup]
  cases hfind : progress.cache.find? decoder site.constant with
  | some answer => exact ⟨eq_decode?_of_find? hsound hroutes htarget hfind, .refl hsound⟩
  | none =>
    refine ⟨decodeTracing_snd .., by simp, ?_, fun event h => ?_⟩
    · simpa using sound_insert hsound hroutes htarget
    · rw [Array.mem_def, Array.toList_appendList, List.mem_append, ← Array.mem_def] at h
      simp only [missedEvents, List.mem_map] at h
      rcases h with h | ⟨strategy, -, rfl⟩
      · exact .inl h
      · exact .inr (by simp)

/-- **One site.** The patch is never refused, and the site is judged from blob and pool alone. -/
theorem processSite_spec {patcher : Patcher} {progress : Progress}
    (hmatch : patcher.routine.mismatch? site = none) (hroutes : context.Routes site)
    (hsound : progress.cache.Sound context) :
    (context.processSite (patcher, progress) site).1 =
        patcher.put (context.placement? site).toList ∧
      context.Gains progress ({ examined := 1 } ++ context.verdict site)
        (context.processSite (patcher, progress) site).2 := by
  have hexamined : context.Gains progress { examined := 1 } (progress.record Report.addExamined) :=
    .record hsound (Report.addExamined_eq _)
  cases htarget : site.target with
  | none =>
    obtain ⟨hplacement, hverdict⟩ := context.verdict_of_ambiguous htarget
    simp only [processSite, htarget, hplacement, hverdict]
    exact ⟨rfl, hexamined.trans (.fail hexamined.sound _)⟩
  | some decoder =>
    obtain ⟨hanswer, hlookup⟩ := lookup_spec hexamined.sound hroutes htarget
    have hgained := hexamined.trans hlookup
    simp only [Report.append_empty] at hgained
    rcases hresult : context.lookup decoder site (progress.record Report.addExamined) with
      ⟨answer, next⟩
    rw [hresult] at hanswer hgained
    simp only [processSite, htarget, hresult]
    cases answer with
    | none =>
      obtain ⟨hplacement, hverdict⟩ := context.verdict_of_miss htarget hanswer
      rw [hplacement, hverdict]
      exact ⟨rfl, hgained.trans (.fail hgained.sound _)⟩
    | some candidate =>
      obtain ⟨hplacement, hverdict⟩ := context.verdict_of_candidate htarget hanswer
      simp only [hplacement, hverdict, Patcher.patch_eq_ok candidate.value hmatch]
      exact ⟨rfl, hgained.trans (.recover hgained.sound candidate)⟩

/-- **The sites of a routine.** The induction carries that the sites still to come are accepted by
the routine as it has become. -/
theorem foldl_processSite_spec {sites : List Site} (patcher : Patcher) {progress : Progress}
    (haccepts : patcher.routine.Accepts sites) (hroutes : ∀ site ∈ sites, context.Routes site)
    (hsound : progress.cache.Sound context) :
    (sites.foldl context.processSite (patcher, progress)).1 =
        context.ending patcher sites ∧
      context.Gains progress (context.summary sites)
        (sites.foldl context.processSite (patcher, progress)).2 := by
  induction sites generalizing patcher progress with
  | nil => exact ⟨rfl, .refl hsound⟩
  | cons site rest ih =>
    obtain ⟨hpatcher, hgains⟩ :=
      processSite_spec haccepts.head (hroutes site (List.mem_cons_self ..)) hsound
    rw [List.foldl_cons]
    generalize context.processSite (patcher, progress) site = next at hpatcher hgains ⊢
    have hnext : next.1.routine.Accepts rest := by
      rw [hpatcher]
      exact context.accepts_put_placement haccepts
    obtain ⟨hpatcher', hgains'⟩ :=
      ih next.1 hnext (fun s hs => hroutes s (List.mem_cons_of_mem _ hs)) hgains.sound
    refine ⟨?_, ?_⟩
    · rw [hpatcher', hpatcher, ending_cons]
    · rw [summary_cons, ← Report.append_assoc]
      exact hgains.trans hgains'

/-! ### One routine, and the routines of a run -/

variable (context)

/-- The sites of a routine that become literals, with the literals. -/
def placements (routine : Routine) : List (Site × String) :=
  (context.pool.sites context.config routine).filterMap context.placement?

/-- The routine under patching when its last site was examined. -/
def patcherOf (routine : Routine) : Patcher :=
  (Patcher.start routine).put (context.placements routine)

theorem patcherOf_eq (routine : Routine) :
    context.patcherOf routine =
      context.ending (Patcher.start routine) (context.pool.sites context.config routine) :=
  rfl

theorem patched_pos_iff (routine : Routine) :
    0 < (context.patcherOf routine).patched ↔ !(context.placements routine).isEmpty := by
  simp [patcherOf, Patcher.put, Patcher.start, List.length_pos_iff]

/-- The routine when it was processed. -/
def rewrite (routine : Routine) : Routine :=
  (context.patcherOf routine).finish.1

/-- What the end of a routine adds to the report: that it was patched, and the calls it is left
with. -/
def closing (patcher : Patcher) : Report :=
  { routinesPatched := if 0 < patcher.patched then 1 else 0
    liveCalls := context.decoderCalls patcher.finish.1 }

/-- What a routine adds to the report. -/
def routineReport (routine : Routine) : Report :=
  context.summary (context.pool.sites context.config routine) ++
    context.closing (context.patcherOf routine)

/-- What routines add to the report, one after the other. -/
def reportOf (routines : List Routine) : Report :=
  routines.foldr (fun routine report => context.routineReport routine ++ report) {}

@[simp] theorem reportOf_nil : context.reportOf [] = {} :=
  rfl

@[simp] theorem reportOf_cons (routine : Routine) (rest : List Routine) :
    context.reportOf (routine :: rest) = context.routineReport routine ++ context.reportOf rest :=
  rfl

theorem closing_eq (patcher : Patcher) :
    context.closing patcher =
      { routinesPatched := if 0 < patcher.patched then 1 else 0 } ++
        { liveCalls := context.decoderCalls patcher.finish.1 } := by
  ext1 <;> simp [closing]

variable {context}

theorem accepts_placements (context : Context) (routine : Routine) :
    routine.Accepts ((context.placements routine).map Prod.fst) := by
  rw [placements, map_filterMap_eq_filter context.placement?_fst]
  refine Pool.accepts_of_nodup ((Pool.nodup_sites ..).filter _) fun site h =>
    (List.mem_filter.mp h).1

/-- A routine without a body has nothing to process, so the account covers it like any other. -/
theorem routineReport_of_not_hasBody (context : Context) {routine : Routine}
    (h : ¬ routine.hasBody) :
    context.rewrite routine = routine ∧ context.routineReport routine = {} := by
  have hinstrs := Routine.instrs_of_not_hasBody h
  have hsites : context.pool.sites context.config routine = [] := by
    simp [Pool.sites, hinstrs]
  have hpatcher : context.patcherOf routine = Patcher.start routine := by
    simp [patcherOf, placements, hsites]
  refine ⟨by simp [rewrite, hpatcher, Patcher.finish, Patcher.start], ?_⟩
  simp [routineReport, hsites, hpatcher, closing, Patcher.finish, Patcher.start, decoderCalls,
    Routine.callees, hinstrs]

/-- **One routine.** -/
theorem processRoutine_spec (routine : Routine) {progress : Progress}
    (hsound : progress.cache.Sound context) :
    (context.processRoutine routine progress).1 = context.rewrite routine ∧
      context.Gains progress (context.routineReport routine)
        (context.processRoutine routine progress).2 := by
  by_cases hbody : routine.hasBody
  · obtain ⟨hpatcher, hgains⟩ :=
      foldl_processSite_spec (Patcher.start routine)
        (Pool.accepts_sites context.pool context.config routine)
        (fun site h => routes_of_mem_sites h) hsound
    rw [processRoutine, if_pos hbody, processSites]
    generalize (context.pool.sites context.config routine).foldl context.processSite
      (Patcher.start routine, progress) = state at hpatcher hgains ⊢
    obtain ⟨patcher, next⟩ := state
    have hpatched : context.Gains next { routinesPatched := if 0 < patcher.patched then 1 else 0 }
        (if 0 < patcher.patched then next.record Report.addPatchedRoutine else next) := by
      split
      · exact .record hgains.sound (Report.addPatchedRoutine_eq _)
      · exact .refl hgains.sound
    have hcalls : context.Gains _ { liveCalls := context.decoderCalls patcher.finish.1 }
        (Progress.addLiveCalls _ (context.decoderCalls patcher.finish.1)) :=
      .record hpatched.sound (Report.foldl_addLiveCall ..)
    refine ⟨congrArg (·.finish.1) hpatcher, ?_⟩
    rw [routineReport, closing_eq, patcherOf_eq, ← hpatcher]
    exact hgains.trans (hpatched.trans hcalls)
  · obtain ⟨hrewrite, hreport⟩ := context.routineReport_of_not_hasBody hbody
    rw [processRoutine, if_neg hbody, hrewrite, hreport]
    exact ⟨rfl, .refl hsound⟩

end Context

/-- The routines that a run starts, if it is to be stopped after so many. -/
def started : (stop : Option Nat) → List Routine → List Routine
  | none, routines => routines
  | some n, routines => routines.take n

/-- The routines that such a run does not get to. -/
def leftOver : (stop : Option Nat) → List Routine → List Routine
  | none, _ => []
  | some n, routines => routines.drop n

theorem started_append_leftOver (stop : Option Nat) (routines : List Routine) :
    started stop routines ++ leftOver stop routines = routines := by
  cases stop <;> simp [started, leftOver]

theorem started_cons {stop : Option Nat} (h : stop ≠ some 0) (routine : Routine)
    (rest : List Routine) :
    started stop (routine :: rest) = routine :: started (stop.map (· - 1)) rest := by
  rcases stop with - | - | n
  · rfl
  · exact absurd rfl h
  · rfl

theorem leftOver_cons {stop : Option Nat} (h : stop ≠ some 0) (routine : Routine)
    (rest : List Routine) :
    leftOver stop (routine :: rest) = leftOver (stop.map (· - 1)) rest := by
  rcases stop with - | - | n
  · rfl
  · exact absurd rfl h
  · rfl

namespace Context

variable {context : Context}

theorem processRoutines_cons {stop : Option Nat} (h : stop ≠ some 0) (routine : Routine)
    (rest : List Routine) (progress : Progress) :
    context.processRoutines stop (routine :: rest) progress =
      ((context.processRoutine routine progress).1 ::
          (context.processRoutines (stop.map (· - 1)) rest
            (context.processRoutine routine progress).2).1,
        (context.processRoutines (stop.map (· - 1)) rest
          (context.processRoutine routine progress).2).2) := by
  rcases stop with - | - | n
  · rfl
  · exact absurd rfl h
  · rfl

/-- **The routines of a run.** Those started are rewritten, the others stay as they are. -/
theorem processRoutines_spec (context : Context) (stop : Option Nat) (routines : List Routine)
    (progress : Progress) (hsound : progress.cache.Sound context) :
    (context.processRoutines stop routines progress).1 =
        (started stop routines).map context.rewrite ++ leftOver stop routines ∧
      context.Gains progress (context.reportOf (started stop routines))
        (context.processRoutines stop routines progress).2 := by
  induction routines generalizing stop progress with
  | nil => cases stop <;> simpa [processRoutines, started, leftOver] using Gains.refl hsound
  | cons routine rest ih =>
    by_cases hstop : stop = some 0
    · subst hstop
      exact ⟨rfl, .refl hsound⟩
    · obtain ⟨hroutine, hgains⟩ := processRoutine_spec routine hsound
      obtain ⟨hrest, hgains'⟩ := ih (stop.map (· - 1)) _ hgains.sound
      rw [processRoutines_cons hstop, started_cons hstop, leftOver_cons hstop]
      refine ⟨?_, hgains.trans hgains'⟩
      rw [hroutine, hrest]
      rfl

/-! ### The records of a run, by kind -/

variable (context)

/-- The sites of routines, in order. -/
def sitesOf (routines : List Routine) : List Site :=
  routines.flatMap (context.pool.sites context.config)

theorem examined_reportOf (routines : List Routine) :
    (context.reportOf routines).examined = (context.sitesOf routines).length := by
  induction routines with
  | nil => rfl
  | cons routine rest ih => simpa [routineReport, summary, closing, sitesOf] using ih

theorem recoveries_reportOf (routines : List Routine) :
    (context.reportOf routines).recoveries =
      routines.flatMap fun routine =>
        (context.pool.sites context.config routine).filterMap context.recovery? := by
  induction routines with
  | nil => rfl
  | cons routine rest ih => simp [routineReport, summary, closing, ih]

/-- The number that is kept is the length of the log. -/
theorem recovered_reportOf (routines : List Routine) :
    (context.reportOf routines).recovered = (context.reportOf routines).recoveries.length := by
  induction routines with
  | nil => rfl
  | cons routine rest ih => simp [routineReport, summary, closing, ih]

theorem failures_reportOf (routines : List Routine) :
    (context.reportOf routines).failures =
      routines.flatMap fun routine =>
        (context.pool.sites context.config routine).filterMap context.failure? := by
  induction routines with
  | nil => rfl
  | cons routine rest ih => simp [routineReport, summary, closing, ih]

/-! Both logs are what is recorded of the sites, one after the other. -/

theorem recoveries_eq_filterMap (routines : List Routine) :
    (context.reportOf routines).recoveries =
      (context.sitesOf routines).filterMap context.recovery? := by
  rw [recoveries_reportOf, sitesOf, List.filterMap_flatMap]

theorem failures_eq_filterMap (routines : List Routine) :
    (context.reportOf routines).failures =
      (context.sitesOf routines).filterMap context.failure? := by
  rw [failures_reportOf, sitesOf, List.filterMap_flatMap]

theorem liveCalls_reportOf (routines : List Routine) :
    (context.reportOf routines).liveCalls =
      routines.flatMap fun routine => context.decoderCalls (context.rewrite routine) := by
  induction routines with
  | nil => rfl
  | cons routine rest ih => simp [routineReport, summary, closing, rewrite, ih]

theorem routinesPatched_reportOf (routines : List Routine) :
    (context.reportOf routines).routinesPatched =
      routines.countP fun routine => !(context.placements routine).isEmpty := by
  induction routines with
  | nil => rfl
  | cons routine rest ih =>
    rw [List.countP_cons, ← ih]
    simp only [reportOf_cons, Report.routinesPatched_append, routineReport, summary, closing,
      patched_pos_iff]
    omega

theorem aborted_reportOf (routines : List Routine) :
    (context.reportOf routines).aborted = false := by
  induction routines with
  | nil => rfl
  | cons routine rest ih => simp [routineReport, summary, closing, ih]

end Context

/-! ### A run -/

namespace Engine

variable {engine : Engine} {supply : WorkerSupply} {assembly : Assembly} {blob : Blob}

/-- **A run.** Every routine that is started is rewritten and reported on by itself. -/
theorem runUntil_of_prepare (stop : Option Nat)
    (h : engine.config.prepare supply assembly.slots = .ok blob) :
    let context := engine.context assembly blob
    (engine.runUntil supply stop assembly).assembly =
        { assembly with
          routines := (started stop assembly.routines).map context.rewrite ++
            leftOver stop assembly.routines } ∧
      (engine.runUntil supply stop assembly).result =
        .ok { context.reportOf (started stop assembly.routines) with aborted := stop.isSome } := by
  intro context
  obtain ⟨hblob, hworkers⟩ := Config.prepare_eq_ok_iff.mp h
  obtain ⟨hroutines, hgains⟩ :=
    context.processRoutines_spec stop assembly.routines {} Context.sound_nil
  have hreport := hgains.report
  rw [Report.empty_append] at hreport
  rw [runUntil, hblob, hworkers]
  refine ⟨congrArg (Assembly.mk assembly.slots · assembly.externals) hroutines, ?_⟩
  refine congrArg Except.ok ?_
  cases stop with
  | none => exact hreport.trans (Report.ext rfl rfl rfl rfl rfl rfl (context.aborted_reportOf _))
  | some n => exact congrArg Report.markAborted hreport

/-- A run that is not stopped: every routine is rewritten and reported on. -/
theorem run_of_prepare (h : engine.config.prepare supply assembly.slots = .ok blob) :
    let context := engine.context assembly blob
    (engine.run supply assembly).assembly =
        { assembly with routines := assembly.routines.map context.rewrite } ∧
      (engine.run supply assembly).result = .ok (context.reportOf assembly.routines) := by
  intro context
  obtain ⟨hassembly, hresult⟩ := runUntil_of_prepare none h
  have haborted : { context.reportOf assembly.routines with aborted := false } =
      context.reportOf assembly.routines :=
    Report.ext rfl rfl rfl rfl rfl rfl (context.aborted_reportOf _).symm
  refine ⟨?_, hresult.trans (congrArg Except.ok haborted)⟩
  rw [run, hassembly]
  simp only [started, leftOver, List.append_nil]
  rfl

/-- A run that finds no blob, or gets no workers, changes nothing. -/
theorem runUntil_of_prepare_error {error : Error} (stop : Option Nat)
    (h : engine.config.prepare supply assembly.slots = .error error) :
    (engine.runUntil supply stop assembly).assembly = assembly ∧
      (engine.runUntil supply stop assembly).result = .error error := by
  rcases Config.prepare_eq_error_iff.mp h with hblob | ⟨⟨blob, hblob⟩, hworkers⟩
  · rw [runUntil, hblob]
    exact ⟨rfl, rfl⟩
  · rw [runUntil, hblob, hworkers]
    exact ⟨rfl, rfl⟩

/-- A run that returns a report has found its blob and got its workers. -/
theorem exists_prepare_of_run {report : Report}
    (h : (engine.run supply assembly).result = .ok report) :
    ∃ blob, engine.config.prepare supply assembly.slots = .ok blob ∧
      report = (engine.context assembly blob).reportOf assembly.routines := by
  cases hready : engine.config.prepare supply assembly.slots with
  | error error =>
    rw [run, (runUntil_of_prepare_error none hready).2] at h
    cases h
  | ok blob => exact ⟨blob, rfl, Except.ok.inj (h.symm.trans (run_of_prepare hready).2)⟩

/-! Once the blob is found nothing is refused any more. -/

theorem ne_refused_of_mem_resolveEvents {config : Config} {slots : List Slot} {event : Event}
    (h : event ∈ Blob.resolveEvents config slots) (error : Error) : event ≠ .refused error := by
  unfold Blob.resolveEvents Blob.locateEvents at h
  split at h
  · cases h
  · obtain ⟨blob, -, rfl⟩ := Option.map_eq_some_iff.mp (Option.mem_toList.mp h)
    simp

theorem ne_refused_of_mem_poolEvents {config : Config} {event : Event}
    (h : event ∈ Pool.events config assembly) (error : Error) : event ≠ .refused error := by
  unfold Pool.events at h
  split at h
  · rw [List.mem_singleton.mp h]
    simp
  · obtain ⟨decoder, -, rfl⟩ := List.mem_map.mp h
    simp

theorem ne_refused_of_mem_log {stop : Option Nat} {event : Event}
    (h : Blob.resolve engine.config assembly.slots = .ok blob)
    (hevent : event ∈ (engine.runUntil supply stop assembly).log) (error : Error) :
    event ≠ .refused error := by
  rw [runUntil, h] at hevent
  cases hworkers : engine.config.obtainWorkers supply with
  | error reason =>
    simp only [hworkers, List.mem_append] at hevent
    rcases hevent with hresolve | hpool
    · exact ne_refused_of_mem_resolveEvents hresolve error
    · exact ne_refused_of_mem_poolEvents hpool error
  | ok =>
    obtain ⟨-, hgains⟩ := (engine.context assembly blob).processRoutines_spec stop
      assembly.routines {} Context.sound_nil
    simp only [hworkers, List.mem_append, List.mem_singleton, Array.mem_toList_iff] at hevent
    rcases hevent with ((hresolve | hpool) | hwork) | rfl
    · exact ne_refused_of_mem_resolveEvents hresolve error
    · exact ne_refused_of_mem_poolEvents hpool error
    · rcases hgains.log event hwork with hbefore | hne
      · cases hbefore
        contradiction
      · exact hne error
    · simp

end Engine
end LiteralRecovery
