import LiteralRecovery.Proofs.Sites

/-!
# Which calls are call sites

A scan is two searches, one inside the other, and the inner one has three reasons to stop: it finds
a constant, it meets an instruction that ends it, or it comes to the edge of the window. Here the
sites are described without any search. A site is a call that may be one of a decoder, with a
constant load in the window in front of it, and between the two there is neither a call nor a string
load nor another constant.

The description leaves open which instructions a body has, and with which operands. A constant load
without an integer is nothing in the way, and a call without a member token may be one of a decoder.

## Main definitions

* `Feeds`: the constant load that belongs to a position of the body
* `Pool.Calls`: a call of a decoder, or one whose target is not known
* `Pool.IsSite`: a call site, described without a search

## Main results

* `Feeds.unique`: at most one load belongs to a position
* `Pool.mem_sites_iff_isSite`: the scan finds the call sites and nothing else
* `call_sites_exact`
-/

namespace LiteralRecovery

/-! ### The load that belongs to a call -/

/-- The constant load at `load` belongs to the position `call`: it stands among the `window`
instructions in front of the position, and no call, string load or further constant comes after
it. -/
structure Feeds (body : Body) (window load call : Nat) (constant : Int32) : Prop where
  /-- The load comes first. -/
  before : load < call
  /-- The load is in the window, which ends at the front of the body. -/
  within : call - window ≤ load
  /-- The constant is an integer. -/
  loads : body[load]? = some ⟨.loadInt, .int constant⟩
  /-- Nothing in between takes the value or puts another one in its place. -/
  clear : ∀ i instr, load < i → i < call → body[i]? = some instr →
    instr.opcode ≠ .call ∧ instr.opcode ≠ .loadString ∧ ∀ value, instr ≠ ⟨.loadInt, .int value⟩

/-- At most one load belongs to a position. -/
theorem Feeds.unique {body : Body} {window load load' call : Nat} {constant constant' : Int32}
    (h : Feeds body window load call constant) (h' : Feeds body window load' call constant') :
    load = load' ∧ constant = constant' := by
  -- of two different loads the earlier one has the later one in its way
  rcases Nat.lt_trichotomy load load' with hlt | rfl | hgt
  · exact absurd rfl ((h.clear load' _ hlt h'.before h'.loads).2.2 constant')
  · have hinstr := Option.some.inj (h.loads.symm.trans h'.loads)
    exact ⟨rfl, Operand.int.inj (congrArg Instr.operand hinstr)⟩
  · exact absurd rfl ((h'.clear load _ hgt h.before h.loads).2.2 constant)

/-- What the search passes over is what may stand between a load and its call. -/
theorem Instr.isPassed_iff {instr : Instr} :
    instr.isPassed ↔ instr.opcode ≠ .call ∧ instr.opcode ≠ .loadString ∧
      ∀ value, instr ≠ ⟨.loadInt, .int value⟩ := by
  have hconstant : instr.constant?.isNone ↔ ∀ value, instr ≠ ⟨.loadInt, .int value⟩ := by
    rw [Option.isNone_iff_eq_none, Option.eq_none_iff_forall_ne_some]
    exact forall_congr' fun value => not_congr constant?_eq_some_iff
  rw [isPassed, Bool.and_eq_true, hconstant]
  simp only [endsSearch, Bool.not_eq_true', Bool.or_eq_false_iff, decide_eq_false_iff_not]
  exact and_comm.trans and_assoc

/-- **The backward search** from a position within the body finds the load that belongs to it. -/
theorem constantBefore?_eq_some_iff_feeds {body : Body} {window load call : Nat}
    {constant : Int32} (hcall : call < body.length) :
    constantBefore? body.toArray window call = some (load, constant) ↔
      Feeds body window load call constant := by
  simp only [constantBefore?_eq_some_iff, List.getElem?_toArray]
  constructor
  · rintro ⟨hbefore, hwithin, hload, hbetween⟩
    refine ⟨hbefore, by omega, hload, fun i instr hi hi' hinstr => ?_⟩
    obtain ⟨instr', hinstr', hpassed⟩ := hbetween i hi hi'
    obtain rfl : instr = instr' := Option.some.inj (hinstr.symm.trans hinstr')
    exact Instr.isPassed_iff.mp hpassed
  · rintro ⟨hbefore, hwithin, hload, hclear⟩
    refine ⟨hbefore, by omega, hload, fun i hi hi' => ?_⟩
    -- the search wants an instruction at every position that it passes
    have hinstr := List.getElem?_eq_getElem (Nat.lt_trans hi' hcall)
    exact ⟨_, hinstr, Instr.isPassed_iff.mpr (hclear i _ hi hi' hinstr)⟩

/-! ### Call sites -/

namespace Pool

variable {pool : Pool} {config : Config} {routine : Routine} {site : Site}

/-- The instruction is a call with the target: of a decoder of the pool by its token, or, without a
member token, of something that is not known. -/
inductive Calls (pool : Pool) : Instr → Option Token → Prop
  | decoder (decoder : Decoder) (h : decoder ∈ pool.decoders) :
      Calls pool ⟨.call, .member decoder.routine⟩ (some decoder.routine)
  | unknown (operand : Operand) (h : ∀ token, operand ≠ .member token) :
      Calls pool ⟨.call, operand⟩ none

theorem contains_iff {token : Token} :
    pool.contains token ↔ ∃ decoder ∈ pool.decoders, decoder.routine = token := by
  simp [contains, find?, List.find?_isSome]

theorem calls_iff {instr : Instr} {target : Option Token} :
    pool.Calls instr target ↔
      instr.isCall ∧ target = instr.callee? ∧ pool.admits instr.callee? := by
  constructor
  · rintro (⟨decoder, h⟩ | ⟨operand, h⟩)
    · exact ⟨rfl, rfl, contains_iff.mpr ⟨decoder, h, rfl⟩⟩
    · cases operand with
      | member token => exact absurd rfl (h token)
      | _ => exact ⟨rfl, rfl, rfl⟩
  · rintro ⟨hcall, rfl, hadmits⟩
    obtain ⟨opcode, operand⟩ := instr
    obtain rfl : opcode = .call := of_decide_eq_true hcall
    cases operand with
    | member token =>
      obtain ⟨decoder, hmem, rfl⟩ := contains_iff.mp hadmits
      exact .decoder decoder hmem
    | _ => exact .unknown _ (by simp)

theorem isExact_iff {token : Token} :
    pool.isExact token ↔ ∃ decoder, pool.find? token = some decoder ∧ decoder.exact := by
  simp [isExact, Option.any_eq_true]

/-- Short are the constants below the threshold, in absolute values, that no exact decoder gets. -/
theorem population_eq_short_iff {target : Option Token} {constant : Int32} :
    pool.population config target constant = .short ↔
      constant.toInt.natAbs < config.shortThreshold.toInt.natAbs ∧
        ¬ ∃ token, target = some token ∧
          ∃ decoder, pool.find? token = some decoder ∧ decoder.exact := by
  simp only [population, ite_eq_left_iff, reduceCtorEq, imp_false, Decidable.not_not,
    Bool.and_eq_true, Bool.not_eq_true', Config.isShort, decide_eq_true_eq, ← isExact_iff]
  rw [and_comm, ← Bool.not_eq_true, Option.any_eq_true]

/-- A call site of a routine. -/
structure IsSite (pool : Pool) (config : Config) (routine : Routine) (site : Site) : Prop where
  /-- The site is one of the routine. -/
  owner : site.routine = routine.token
  /-- The call may be one of a decoder. -/
  calls : ∃ instr, routine.instrs[site.call]? = some instr ∧ pool.Calls instr site.target
  /-- The constant is that of the load that belongs to the call. -/
  feeds : Feeds routine.instrs config.lookback site.load site.call site.constant
  /-- The site is short if its constant is and its target is no exact decoder. -/
  short : site.population = .short ↔
    site.constant.toInt.natAbs < config.shortThreshold.toInt.natAbs ∧
      ¬ ∃ token, site.target = some token ∧
        ∃ decoder, pool.find? token = some decoder ∧ decoder.exact

/-- The two populations are told apart by one of them. -/
theorem population_eq_iff {target : Option Token} {constant : Int32} {population : Population} :
    population = pool.population config target constant ↔
      (population = .short ↔ pool.population config target constant = .short) := by
  cases population <;> cases pool.population config target constant <;> simp

/-- **The scan finds the call sites and nothing else.** -/
theorem mem_sites_iff_isSite :
    site ∈ pool.sites config routine ↔ pool.IsSite config routine site := by
  rw [mem_sites_iff]
  constructor
  · rintro ⟨instr, hinstr, hcall, htarget, hadmits, hfound, howner, hpopulation⟩
    have hlength := (List.getElem?_eq_some_iff.mp hinstr).1
    rw [← htarget, population_eq_iff, population_eq_short_iff] at hpopulation
    exact ⟨howner, ⟨instr, hinstr, calls_iff.mpr ⟨hcall, htarget, hadmits⟩⟩,
      (constantBefore?_eq_some_iff_feeds hlength).mp hfound, hpopulation⟩
  · rintro ⟨howner, ⟨instr, hinstr, hcalls⟩, hfeeds, hshort⟩
    obtain ⟨hcall, htarget, hadmits⟩ := calls_iff.mp hcalls
    have hlength := (List.getElem?_eq_some_iff.mp hinstr).1
    rw [← population_eq_short_iff, ← population_eq_iff, htarget] at hshort
    exact ⟨instr, hinstr, hcall, htarget, hadmits,
      (constantBefore?_eq_some_iff_feeds hlength).mpr hfeeds, howner, hshort⟩

/-- A call with a load that belongs to it has a site. -/
theorem exists_mem_sites {call load : Nat} {instr : Instr} {target : Option Token}
    {constant : Int32} (hinstr : routine.instrs[call]? = some instr)
    (hcalls : pool.Calls instr target)
    (hfeeds : Feeds routine.instrs config.lookback load call constant) :
    ∃ site ∈ pool.sites config routine, site.call = call := by
  refine ⟨⟨routine.token, load, call, constant, target, pool.population config target constant⟩,
    mem_sites_iff_isSite.mpr ?_, rfl⟩
  exact ⟨rfl, ⟨instr, hinstr, hcalls⟩, hfeeds, population_eq_short_iff⟩

end Pool

/-- **The scan finds exactly the call sites.** The sites of a routine come in the order of their
calls, no two with the same call. They are exactly those that `Pool.IsSite` describes. The calls
that have one are exactly those that may be of a decoder and that some constant load belongs to, and
the load is determined by the call. -/
theorem call_sites_exact (pool : Pool) (config : Config) (routine : Routine) :
    (pool.sites config routine).Pairwise (fun a b => a.call < b.call) ∧
      (∀ site, site ∈ pool.sites config routine ↔ pool.IsSite config routine site) ∧
      (∀ call, (∃ site ∈ pool.sites config routine, site.call = call) ↔
        (∃ instr target, routine.instrs[call]? = some instr ∧ pool.Calls instr target) ∧
          ∃ load constant, Feeds routine.instrs config.lookback load call constant) ∧
      ∀ call load load' constant constant',
        Feeds routine.instrs config.lookback load call constant →
        Feeds routine.instrs config.lookback load' call constant' →
          load = load' ∧ constant = constant' := by
  refine ⟨Pool.pairwise_call_sites pool config routine, fun site => Pool.mem_sites_iff_isSite,
    fun call => ⟨?_, ?_⟩, fun call load load' constant constant' h h' => h.unique h'⟩
  · rintro ⟨site, hsite, rfl⟩
    obtain ⟨-, ⟨instr, hinstr, hcalls⟩, hfeeds, -⟩ := Pool.mem_sites_iff_isSite.mp hsite
    exact ⟨⟨instr, site.target, hinstr, hcalls⟩, site.load, site.constant, hfeeds⟩
  · rintro ⟨⟨instr, target, hinstr, hcalls⟩, load, constant, hfeeds⟩
    exact Pool.exists_mem_sites hinstr hcalls hfeeds

namespace Sample

/-- A routine that calls something unknown. Between the constant and the call there is a constant
load without an integer. -/
def indirectCaller : Routine :=
  ⟨⟨0x06000003⟩, "Indirect", none,
    some [.loadInt 1, ⟨.loadInt, .none⟩, .nop, ⟨.call, .none⟩], Flags.static⟩

end Sample

/-- In a window of three instructions the call has a site, and no other load belongs to it. -/
theorem call_sites_exact_sample :
    let config : Config := { lookback := 3 }
    Pool.empty.IsSite config Sample.indirectCaller
        ⟨Sample.indirectCaller.token, 0, 3, 1, none, .short⟩ ∧
      ∀ load constant, Feeds Sample.indirectCaller.instrs 3 load 3 constant →
        load = 0 ∧ constant = 1 := by
  intro config
  obtain ⟨-, hsites, -, hunique⟩ := call_sites_exact Pool.empty config Sample.indirectCaller
  have hsite := (hsites ⟨Sample.indirectCaller.token, 0, 3, 1, none, .short⟩).mp (by decide)
  refine ⟨hsite, fun load constant h => ?_⟩
  exact hunique 3 load 0 constant 1 h hsite.feeds

end LiteralRecovery
