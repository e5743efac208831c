import LiteralRecovery.Proofs.Interleaving

/-!
# The cache is of no account

A run asks its cache before it decodes a constant. The key is the decoder and the constant, while
the answer also depends on the population of the site, which decides about the strategies and about
what is accepted. Two sites with the same key could thus have different answers. They have not: as
long as the pool stays the same, the population is a function of the key.

So the cache is a table of what decoding gives for the keys that came up so far, no more and no
less, and a run gives what it would give without any cache. Nothing is assumed of the engine either:
what an earlier run has left behind is gone before the first question is asked.

## Main definitions

* `Context.processSiteAfresh`, `Context.processRoutinesAfresh`, `Config.runAfresh`: a run that
  decodes the constant of every site
* `Cache.Knows`: the cache has the answers for the keys of the given sites, and no others
* `Context.progressAt`: what a run has gathered in the middle of a routine

## Main results

* `Context.processSite_afresh`, `Context.foldl_processSite_afresh`: one site, and several
* `Context.processRoutines_afresh`: the routines of a run
* `cache_transparent`: runs with and without a cache, and the cache on the way
-/

namespace LiteralRecovery

/-! ### Runs without a cache -/

namespace Context

/-- Examines one call site, and decodes its constant whether or not it was decoded before. -/
def processSiteAfresh (context : Context) (state : Patcher × Report) (site : Site) :
    Patcher × Report :=
  let patcher := state.1
  let report := state.2.addExamined
  match site.target with
  | none => (patcher, report.addFailure site .ambiguousTarget)
  | some decoder =>
    match context.decode? decoder site with
    | none => (patcher, report.addFailure site .decodeMiss)
    | some candidate =>
      match patcher.patch site candidate.value with
      | .error _ => (patcher, report.addFailure site .decodeMiss)
      | .ok patcher => (patcher, report.addRecovery (site.recovery decoder candidate))

/-- Processes one routine, with every constant decoded. -/
def processRoutineAfresh (context : Context) (routine : Routine) (report : Report) :
    Routine × Report :=
  if routine.hasBody then
    let (patcher, report) := (context.pool.sites context.config routine).foldl
      context.processSiteAfresh (Patcher.start routine, report)
    let (routine, patched) := patcher.finish
    let report := if 0 < patched then report.addPatchedRoutine else report
    (routine, (context.decoderCalls routine).foldl Report.addLiveCall report)
  else (routine, report)

/-- Processes routines in order, with every constant decoded. -/
def processRoutinesAfresh (context : Context) :
    (stop : Option Nat) → List Routine → Report → List Routine × Report
  | _, [], report => ([], report)
  | some 0, routines, report => (routines, report)
  | stop, routine :: rest, report =>
    let (routine, report) := context.processRoutineAfresh routine report
    let (rest, report) := context.processRoutinesAfresh (stop.map (· - 1)) rest report
    (routine :: rest, report)

end Context

/-- A run that keeps no cache. It is one of a configuration, since an engine has nothing else to
offer it. -/
def Config.runAfresh (config : Config) (supply : WorkerSupply) (stop : Option Nat)
    (assembly : Assembly) : Assembly × Except Error Report :=
  match config.prepare supply assembly.slots with
  | .error error => (assembly, .error error)
  | .ok blob =>
    let context : Context := ⟨config, blob.bytes, Pool.ofAssembly config assembly⟩
    let (routines, report) := context.processRoutinesAfresh stop assembly.routines {}
    ({ assembly with routines := routines },
      .ok (if stop.isSome then report.markAborted else report))

/-! ### What the cache holds -/

/-- The cache has an answer exactly for the keys of the given sites, and it is what decoding gives
for the key. -/
def Cache.Knows (context : Context) (seen : List Site) (cache : Cache) : Prop :=
  ∀ decoder constant, cache.find? decoder constant =
    if ∃ site ∈ seen, site.target = some decoder ∧ site.constant = constant then
      some (decode? context.config context.blob (context.pool.find? decoder)
        (context.pool.population context.config (some decoder) constant) constant)
    else none

namespace Cache

variable {context : Context} {cache : Cache} {seen : List Site} {site : Site} {decoder : Token}

theorem Knows.sound (h : cache.Knows context seen) : cache.Sound context := by
  intro decoder constant answer hfind
  rw [h, Option.ite_none_right_eq_some] at hfind
  exact (Option.some.inj hfind.2).symm

/-- What a cache holds depends on the keys of the sites only. -/
theorem Knows.congr {other : List Site} (h : cache.Knows context seen)
    (hkeys : ∀ decoder constant,
      (∃ site ∈ other, site.target = some decoder ∧ site.constant = constant) ↔
        ∃ site ∈ seen, site.target = some decoder ∧ site.constant = constant) :
    cache.Knows context other := by
  intro decoder constant
  simp only [h decoder constant, hkeys]

/-- A site without a target has no key. -/
theorem Knows.append_of_ambiguous (h : cache.Knows context seen) (htarget : site.target = none) :
    cache.Knows context (seen ++ [site]) :=
  h.congr fun decoder constant => by simp [htarget]

/-- A site whose key is held already adds nothing. -/
theorem Knows.append_of_find? {answer : Option Candidate} (h : cache.Knows context seen)
    (htarget : site.target = some decoder)
    (hfind : cache.find? decoder site.constant = some answer) :
    cache.Knows context (seen ++ [site]) := by
  rw [h, Option.ite_none_right_eq_some] at hfind
  obtain ⟨earlier, hearlier, htarget', hconstant⟩ := hfind.1
  refine h.congr fun target constant => ⟨?_, ?_⟩
  · rintro ⟨found, hfound, hkey⟩
    rcases List.mem_append.mp hfound with hseen | hlast
    · exact ⟨found, hseen, hkey⟩
    · obtain rfl := List.mem_singleton.mp hlast
      exact ⟨earlier, hearlier, htarget'.trans (htarget.symm.trans hkey.1),
        hconstant.trans hkey.2⟩
  · rintro ⟨found, hfound, hkey⟩
    exact ⟨found, List.mem_append_left _ hfound, hkey⟩

/-- A site whose answer is stored. -/
theorem Knows.insert (h : cache.Knows context seen) (hroutes : context.Routes site)
    (htarget : site.target = some decoder) :
    (cache.insert decoder site.constant (context.decode? decoder site)).Knows context
      (seen ++ [site]) := by
  intro target constant
  rw [find?_insert, h target constant]
  by_cases hkey : decoder = target ∧ site.constant = constant
  · obtain ⟨rfl, rfl⟩ := hkey
    have hseen : ∃ s ∈ seen ++ [site], s.target = some decoder ∧ s.constant = site.constant :=
      ⟨site, by simp, htarget, rfl⟩
    rw [if_pos ⟨rfl, rfl⟩, if_pos hseen, Context.decode?_eq_of_routes hroutes htarget]
  · have hkeys : (∃ s ∈ seen ++ [site], s.target = some target ∧ s.constant = constant) ↔
        ∃ s ∈ seen, s.target = some target ∧ s.constant = constant := by
      constructor
      · rintro ⟨s, hs, hst, hsc⟩
        rcases List.mem_append.mp hs with hseen | hlast
        · exact ⟨s, hseen, hst, hsc⟩
        · obtain rfl := List.mem_singleton.mp hlast
          exact absurd ⟨Option.some.inj (htarget.symm.trans hst), hsc⟩ hkey
      · rintro ⟨s, hs, hsite⟩
        exact ⟨s, List.mem_append_left _ hs, hsite⟩
    simp only [if_neg hkey, hkeys]

/-- For a site that the pool routes, what is held is what decoding gives for the site itself, its
population included. -/
theorem Knows.find?_eq (h : cache.Knows context seen) (hroutes : context.Routes site)
    (htarget : site.target = some decoder) :
    cache.find? decoder site.constant =
      if ∃ earlier ∈ seen, earlier.target = some decoder ∧ earlier.constant = site.constant then
        some (context.decode? decoder site)
      else none := by
  rw [h, Context.decode?_eq_of_routes hroutes htarget]

end Cache

/-! ### Side by side with a run that keeps no cache -/

namespace Context

variable {context : Context} {seen : List Site} {site : Site} {decoder : Token}
  {progress : Progress}

theorem knows_start (context : Context) : ({} : Progress).cache.Knows context [] := by
  intro decoder constant
  simp

/-- Asking the cache gives what decoding gives, and the cache then knows the site as well. -/
theorem lookup_afresh (hknows : progress.cache.Knows context seen) (hroutes : context.Routes site)
    (htarget : site.target = some decoder) :
    (context.lookup decoder site progress).1 = context.decode? decoder site ∧
      (context.lookup decoder site progress).2.report = progress.report ∧
      (context.lookup decoder site progress).2.cache.Knows context (seen ++ [site]) := by
  obtain ⟨hanswer, hgains⟩ := lookup_spec hknows.sound hroutes htarget
  refine ⟨hanswer, by simpa using hgains.report, ?_⟩
  unfold lookup
  cases hfind : progress.cache.find? decoder site.constant with
  | some answer => exact hknows.append_of_find? htarget hfind
  | none => simpa using hknows.insert hroutes htarget

/-- **One site.** Patcher and report become what they become without a cache. -/
theorem processSite_afresh (patcher : Patcher) (hknows : progress.cache.Knows context seen)
    (hroutes : context.Routes site) :
    (context.processSiteAfresh (patcher, progress.report) site =
        ((context.processSite (patcher, progress) site).1,
          (context.processSite (patcher, progress) site).2.report)) ∧
      (context.processSite (patcher, progress) site).2.cache.Knows context (seen ++ [site]) := by
  cases htarget : site.target with
  | none =>
    simp only [processSiteAfresh, processSite, htarget]
    exact ⟨rfl, hknows.append_of_ambiguous htarget⟩
  | some decoder =>
    have hcounted : (progress.record Report.addExamined).cache.Knows context seen := hknows
    obtain ⟨hanswer, hreport, hnext⟩ := lookup_afresh hcounted hroutes htarget
    simp only [processSiteAfresh, processSite, htarget]
    rw [← hanswer]
    generalize context.lookup decoder site (progress.record Report.addExamined) = result
      at hreport hnext ⊢
    obtain ⟨answer, next⟩ := result
    have hexamined : progress.report.addExamined = next.report := hreport.symm
    rw [hexamined]
    cases answer with
    | none => exact ⟨rfl, hnext⟩
    | some candidate =>
      -- a patch that is refused is refused with and without a cache
      dsimp only
      cases patcher.patch site candidate.value with
      | error error => exact ⟨rfl, hnext⟩
      | ok patched => exact ⟨rfl, hnext⟩

/-- **Several sites.** -/
theorem foldl_processSite_afresh {sites : List Site} (patcher : Patcher)
    (hknows : progress.cache.Knows context seen) (hroutes : ∀ site ∈ sites, context.Routes site) :
    (sites.foldl context.processSiteAfresh (patcher, progress.report) =
        ((sites.foldl context.processSite (patcher, progress)).1,
          (sites.foldl context.processSite (patcher, progress)).2.report)) ∧
      (sites.foldl context.processSite (patcher, progress)).2.cache.Knows context
        (seen ++ sites) := by
  induction sites generalizing patcher progress seen with
  | nil => exact ⟨rfl, by simpa using hknows⟩
  | cons site rest ih =>
    obtain ⟨hstep, hnext⟩ :=
      processSite_afresh patcher hknows (hroutes site (List.mem_cons_self ..))
    rw [List.foldl_cons, List.foldl_cons, hstep]
    generalize context.processSite (patcher, progress) site = state at hnext ⊢
    have hrest := ih state.1 hnext fun s hs => hroutes s (List.mem_cons_of_mem _ hs)
    rwa [List.append_assoc, List.singleton_append] at hrest

/-- **One routine.** -/
theorem processRoutine_afresh (routine : Routine) (hknows : progress.cache.Knows context seen) :
    (context.processRoutineAfresh routine progress.report =
        ((context.processRoutine routine progress).1,
          (context.processRoutine routine progress).2.report)) ∧
      (context.processRoutine routine progress).2.cache.Knows context
        (seen ++ context.pool.sites context.config routine) := by
  by_cases hbody : routine.hasBody
  · obtain ⟨hsites, hnext⟩ := foldl_processSite_afresh (Patcher.start routine) hknows
      fun site (h : site ∈ context.pool.sites context.config routine) => routes_of_mem_sites h
    rw [processRoutineAfresh, processRoutine, if_pos hbody, if_pos hbody, processSites, hsites]
    generalize (context.pool.sites context.config routine).foldl context.processSite
      (Patcher.start routine, progress) = state at hnext ⊢
    obtain ⟨patcher, next⟩ := state
    by_cases hpatched : 0 < patcher.finish.2
    · simp only [if_pos hpatched]
      exact ⟨rfl, hnext⟩
    · simp only [if_neg hpatched]
      exact ⟨rfl, hnext⟩
  · have hsites : context.pool.sites context.config routine = [] := by
      simp [Pool.sites, Routine.instrs_of_not_hasBody hbody]
    rw [processRoutineAfresh, processRoutine, if_neg hbody, if_neg hbody, hsites, List.append_nil]
    exact ⟨rfl, hknows⟩

/-- **The routines of a run.** -/
theorem processRoutines_afresh (stop : Option Nat) (routines : List Routine)
    (hknows : progress.cache.Knows context seen) :
    (context.processRoutinesAfresh stop routines progress.report =
        ((context.processRoutines stop routines progress).1,
          (context.processRoutines stop routines progress).2.report)) ∧
      (context.processRoutines stop routines progress).2.cache.Knows context
        (seen ++ context.sitesOf (started stop routines)) := by
  induction routines generalizing stop progress seen with
  | nil =>
    have hstarted : started stop [] = [] := by cases stop <;> simp [started]
    rw [hstarted]
    cases stop <;> exact ⟨rfl, by simpa [processRoutines, sitesOf] using hknows⟩
  | cons routine rest ih =>
    by_cases hstop : stop = some 0
    · subst hstop
      exact ⟨rfl, by simpa [started, sitesOf, processRoutines] using hknows⟩
    · obtain ⟨hroutine, hnext⟩ := processRoutine_afresh routine hknows
      obtain ⟨hrest, hlast⟩ := ih (stop.map (· - 1)) hnext
      have hstep : context.processRoutinesAfresh stop (routine :: rest) progress.report =
          ((context.processRoutineAfresh routine progress.report).1 ::
              (context.processRoutinesAfresh (stop.map (· - 1)) rest
                (context.processRoutineAfresh routine progress.report).2).1,
            (context.processRoutinesAfresh (stop.map (· - 1)) rest
              (context.processRoutineAfresh routine progress.report).2).2) := by
        rcases stop with - | - | n
        · rfl
        · exact absurd rfl hstop
        · rfl
      rw [hstep, processRoutines_cons hstop, started_cons hstop, hroutine, hrest]
      refine ⟨rfl, ?_⟩
      simpa [sitesOf, List.append_assoc] using hlast

/-- What a run has gathered when some routines are processed and some sites of the next one are
seen. -/
def progressAt (context : Context) (processed : List Routine) (routine : Routine)
    (seen : List Site) : Progress :=
  (seen.foldl context.processSite
    (Patcher.start routine, (context.processRoutines none processed {}).2)).2

/-- **The cache on the way.** -/
theorem knows_progressAt (context : Context) {processed : List Routine} {routine : Routine}
    (hseen : ∀ site ∈ seen, context.Routes site) :
    (context.progressAt processed routine seen).cache.Knows context
      (context.sitesOf processed ++ seen) := by
  have hbefore := (processRoutines_afresh none processed (knows_start context)).2
  rw [List.nil_append] at hbefore
  exact (foldl_processSite_afresh (Patcher.start routine) hbefore hseen).2

end Context

/-! ### Runs with a cache -/

/-- A run hands back what is handed back without a cache, whatever the engine holds from before. -/
theorem Engine.runUntil_eq_runAfresh (engine : Engine) (supply : WorkerSupply)
    (stop : Option Nat) (assembly : Assembly) :
    ((engine.runUntil supply stop assembly).assembly,
        (engine.runUntil supply stop assembly).result) =
      engine.config.runAfresh supply stop assembly := by
  cases hready : engine.config.prepare supply assembly.slots with
  | error error =>
    obtain ⟨hassembly, hresult⟩ := runUntil_of_prepare_error stop hready
    rw [hassembly, hresult, Config.runAfresh, hready]
  | ok blob =>
    obtain ⟨hblob, hworkers⟩ := Config.prepare_eq_ok_iff.mp hready
    have hroutines : (engine.context assembly blob).processRoutinesAfresh stop assembly.routines
        {} = _ :=
      (Context.processRoutines_afresh stop assembly.routines (Context.knows_start _)).1
    rw [Config.runAfresh, hready, runUntil, hblob, hworkers]
    simp only [context] at hroutines ⊢
    rw [hroutines]

/-- **The cache is of no account.** Whatever the engine holds from before, a run hands back the
assembly and the result of a run that keeps no cache. Wherever the sequential run stands, the cache
has an answer for a site exactly if a site with its target and constant was seen, and that is what
decoding gives for the site, with its own population. The same goes for workers side by side:
whatever steps they have taken, an answer in the cache is the answer for every site with that key,
and when they are done they have done what is done without a cache. -/
theorem cache_transparent (engine : Engine) (supply : WorkerSupply) (assembly : Assembly) :
    (∀ stop, ((engine.runUntil supply stop assembly).assembly,
        (engine.runUntil supply stop assembly).result) =
      engine.config.runAfresh supply stop assembly) ∧
    ∀ blob, engine.config.prepare supply assembly.slots = .ok blob →
      let context := engine.context assembly blob
      let follow := (System.start assembly.routines).follow context
      (∀ processed routine rest seen later, assembly.routines = processed ++ routine :: rest →
        context.pool.sites context.config routine = seen ++ later →
        ∀ site ∈ context.sitesOf assembly.routines, ∀ decoder, site.target = some decoder →
          (context.progressAt processed routine seen).cache.find? decoder site.constant =
            if ∃ earlier ∈ context.sitesOf processed ++ seen,
              earlier.target = some decoder ∧ earlier.constant = site.constant then
              some (decode? engine.config blob.bytes (context.pool.find? decoder) site.population
                site.constant)
            else none) ∧
      ∀ schedule,
        (∀ site ∈ context.sitesOf assembly.routines, ∀ decoder, site.target = some decoder →
          ∀ answer, (follow schedule).shared.cache.find? decoder site.constant = some answer →
            answer = decode? engine.config blob.bytes (context.pool.find? decoder) site.population
              site.constant) ∧
        ((follow schedule).isDone → ∃ report,
          engine.config.runAfresh supply none assembly =
            ({ assembly with routines := (follow schedule).routines }, .ok report) ∧
          (follow schedule).shared.report.tally = report.tally) := by
  refine ⟨fun stop => engine.runUntil_eq_runAfresh supply stop assembly, fun blob hready => ?_⟩
  intro context follow
  have hroutes : ∀ site ∈ context.sitesOf assembly.routines, context.Routes site := by
    intro site hsite
    obtain ⟨routine, -, hmem⟩ := List.mem_flatMap.mp hsite
    exact Context.routes_of_mem_sites hmem
  refine ⟨?_, fun schedule => ⟨?_, fun hdone => ?_⟩⟩
  · intro processed routine rest seen later hsplit hsites site hsite decoder htarget
    have hseen : ∀ s ∈ seen, context.Routes s := fun s hs =>
      Context.routes_of_mem_sites (hsites ▸ List.mem_append_left later hs)
    exact (context.knows_progressAt hseen).find?_eq (hroutes site hsite) htarget
  · intro site hsite decoder htarget answer hfind
    have hholds := (System.holds_start context assembly.routines).follow schedule
    have hanswer : answer = context.decode? decoder site :=
      Context.eq_decode?_of_find? hholds.sound (hroutes site hsite) htarget hfind
    exact hanswer
  · have hholds := (System.holds_start context assembly.routines).follow schedule
    obtain ⟨hroutines, htally⟩ := hholds.of_isDone hdone
    obtain ⟨hassembly, hresult⟩ := Engine.run_of_prepare hready
    have hrun : engine.config.runAfresh supply none assembly =
        ((engine.run supply assembly).assembly, (engine.run supply assembly).result) :=
      (engine.runUntil_eq_runAfresh supply none assembly).symm
    refine ⟨context.reportOf assembly.routines, ?_, htally⟩
    rw [hrun, hassembly, hresult, hroutines]

namespace Sample

/-- An engine that was stopped, with a wrong answer for a constant of the callers. -/
def staleEngine : Engine :=
  { engine with cache := [((decoder.token, 0), none)], abortRequested := true }

end Sample

/-- The stale answer is not used. When the second caller is reached, the cache has the answers that
the first one needed, the miss included; before the first caller it has none. -/
theorem cache_transparent_sample :
    let context := Sample.staleEngine.context Sample.twinAssembly Sample.blob
    let follow := (System.start Sample.twinAssembly.routines).follow
      (Sample.staleEngine.context Sample.twinAssembly Sample.blob)
    (context.progressAt [Sample.decoder, Sample.main] Sample.twin []).cache.find?
        Sample.decoder.token 0 = some (some ⟨"hi", .directOffset, some 0⟩) ∧
      (context.progressAt [Sample.decoder, Sample.main] Sample.twin []).cache.find?
        Sample.decoder.token 7 = some none ∧
      (context.progressAt [Sample.decoder] Sample.main []).cache.find?
        Sample.decoder.token 7 = none ∧
      ∃ report, Sample.staleEngine.config.runAfresh Sample.supply none Sample.twinAssembly =
          ({ Sample.twinAssembly with routines := (follow Sample.schedule).routines },
            .ok report) ∧
        (follow Sample.schedule).shared.report.tally = report.tally := by
  intro context follow
  have hdone : (follow Sample.schedule).isDone := by decide
  obtain ⟨hpoints, hschedules⟩ :=
    (cache_transparent Sample.staleEngine Sample.supply Sample.twinAssembly).2 Sample.blob rfl
  have hlater := hpoints [Sample.decoder, Sample.main] Sample.twin [] [] _ rfl rfl
  have hearlier := hpoints [Sample.decoder] Sample.main [Sample.twin] [] _ rfl rfl
  obtain ⟨report, hrun, htally⟩ := (hschedules Sample.schedule).2 hdone
  refine ⟨?_, ?_, ?_, report, hrun, htally⟩
  · rw [hlater ⟨Sample.twin.token, 0, 1, 0, some Sample.decoder.token, .full⟩ (by decide) _ rfl]
    decide
  · rw [hlater ⟨Sample.twin.token, 2, 4, 7, some Sample.decoder.token, .full⟩ (by decide) _ rfl]
    decide
  · rw [hearlier ⟨Sample.twin.token, 2, 4, 7, some Sample.decoder.token, .full⟩ (by decide) _ rfl]
    decide

end LiteralRecovery
