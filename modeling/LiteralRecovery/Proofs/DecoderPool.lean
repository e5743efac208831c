import LiteralRecovery.Proofs.Decoders
import LiteralRecovery.Proofs.Sites
import Mathlib.Data.List.Forall2

/-!
# The documented pool

Which routines are decoders is decided before anything is scanned, and everything after it trusts
the answer. A routine too many and ordinary calls are rewritten, one too few and its strings stay
hidden. Here the pool is described from the routines of the assembly alone. A routine belongs to it
if it is static and goes from one integer to a value. If there is no such routine at all, static
routines that could stand in take their place: those from one value to a value, and those of which
nothing is known.

Routines may share a token, but an entry of the pool belongs to a token. It is that of the last
routine with the token, counting only the routines that belong to the pool: a later routine of the
same token that does not belong leaves the entry as it is.

## Tables

The shape of a decoder is read off its body. It is a table if it is no chain of arithmetic, if it
loads a data slot, and if it calls something whose name speaks of decoding. Each of these is a
search, and each is described here by what stands in the body: the slot is the first that is loaded,
the name is that of the first routine with the token or, if there is none, the last one given to an
external member, and a fragment of it has the letters of a configured one in either case.

## Main definitions

* `Routine.IsPooled`, `Routine.IsNeutral`: the routines of the pool, and those that may stand in
* `Decoder.entryOf`, `Decoder.standInOf`: what the pool says of them
* `Assembly.Names`: the name of a member
* `Text.SameLetter`, `Text.SpeltIn`: letters and fragments in either case
* `Shape.ReadsTable`: a body that looks its strings up

## Main results

* `Pool.find?_insertAll_filterMap`: the last routine with a token counts
* `Decoder.ofRoutine?_eq_some_iff`, `Decoder.standsIn_iff`
* `Text.occursInAnyCase_iff`, `Assembly.memberName?_eq_some_iff`, `Shape.firstSlot?_eq_some_iff`
* `Shape.classify_eq_table_iff`
* `decoder_pool_exact`
-/

namespace LiteralRecovery

/-! ### Filling a pool -/

namespace Pool

variable {pool : Pool} {routines : List Routine} {fallback : Bool}

theorem fallback_insertAll (pool : Pool) (decoders : List Decoder) :
    (pool.insertAll decoders).fallback = pool.fallback := by
  induction decoders generalizing pool with
  | nil => rfl
  | cons decoder rest ih => exact ih (pool.insert decoder)

/-- A pool has one entry for a token. -/
theorem pairwise_insertAll (h : pool.decoders.Pairwise fun a b => a.routine ≠ b.routine)
    (decoders : List Decoder) :
    (pool.insertAll decoders).decoders.Pairwise fun a b => a.routine ≠ b.routine := by
  induction decoders generalizing pool with
  | nil => exact h
  | cons decoder rest ih =>
    refine ih (List.pairwise_append.mpr ⟨h.filter _, List.pairwise_singleton .., ?_⟩)
    intro held hheld other hother
    rw [List.mem_singleton.mp hother]
    simpa using (List.mem_filter.mp hheld).2

variable {decoder? : Routine → Option Decoder} {belongs : Routine → Prop}
  {entry : Routine → Decoder} {token : Token} {decoder : Decoder}

/-- **The last routine with a token counts**, among those that become decoders at all. -/
theorem find?_insertAll_filterMap
    (hdecoder : ∀ {routine decoder}, decoder? routine = some decoder ↔
      belongs routine ∧ entry routine = decoder)
    (htoken : ∀ routine, (entry routine).routine = routine.token) :
    (insertAll ⟨[], fallback⟩ (routines.filterMap decoder?)).find? token = some decoder ↔
      ∃ routine, IsLastIn (fun other => belongs other ∧ other.token = token) routines routine ∧
        entry routine = decoder := by
  have hempty : find? ⟨[], fallback⟩ token = none := rfl
  have hmatch : ∀ other, (decoder? other).any (fun held => held.routine = token) ↔
      belongs other ∧ other.token = token := by
    intro other
    simp only [Option.any_eq_true, hdecoder, decide_eq_true_eq]
    constructor
    · rintro ⟨_, ⟨hbelongs, rfl⟩, hheld⟩
      exact ⟨hbelongs, htoken other ▸ hheld⟩
    · rintro ⟨hbelongs, hother⟩
      exact ⟨entry other, ⟨hbelongs, rfl⟩, (htoken other).trans hother⟩
  rw [find?_insertAll, hempty, Option.or_none, ← List.filterMap_reverse, List.find?_filterMap,
    Option.bind_eq_some_iff]
  simp only [find?_reverse_eq_some_iff, hmatch, hdecoder]
  refine exists_congr fun routine => and_congr_right fun hlast => ?_
  exact and_iff_right hlast.prop.1

/-- A token is in such a pool if some routine with the token becomes a decoder. -/
theorem contains_insertAll_filterMap
    (hdecoder : ∀ {routine decoder}, decoder? routine = some decoder ↔
      belongs routine ∧ entry routine = decoder)
    (htoken : ∀ routine, (entry routine).routine = routine.token) :
    (insertAll ⟨[], fallback⟩ (routines.filterMap decoder?)).contains token ↔
      ∃ routine ∈ routines, belongs routine ∧ routine.token = token := by
  rw [contains, Option.isSome_iff_exists, ← exists_isLastIn_iff]
  simp only [find?_insertAll_filterMap hdecoder htoken]
  constructor
  · rintro ⟨decoder, routine, hlast, -⟩
    exact ⟨routine, hlast⟩
  · rintro ⟨routine, hlast⟩
    exact ⟨entry routine, routine, hlast, rfl⟩

end Pool

/-! ### The routines of the pool -/

namespace Routine

/-- A routine of the pool: static, from one integer to a value. -/
def IsPooled (routine : Routine) : Prop :=
  routine.isStatic ∧ ∃ returns, routine.signature = some ⟨[.int32], returns⟩ ∧ returns ≠ .void

/-- A routine that may stand in: static, and from one value to a value as far as is known. -/
def IsNeutral (routine : Routine) : Prop :=
  routine.isStatic ∧ (routine.signature = none ∨
    ∃ param returns, routine.signature = some ⟨[param], returns⟩ ∧ returns ≠ .void)

end Routine

namespace Decoder

variable {config : Config} {assembly : Assembly} {routine : Routine} {decoder : Decoder}

/-- What the pool says of one of its routines: its token, its name, whether it goes from an integer
to a string, and its shape. -/
def entryOf (config : Config) (assembly : Assembly) (routine : Routine) : Decoder :=
  ⟨routine.token, routine.name, routine.signature = some ⟨[.int32], .string⟩,
    Shape.classify config assembly routine⟩

/-- What the pool says of a routine that stands in. -/
def standInOf (routine : Routine) : Decoder :=
  ⟨routine.token, routine.name, false, .unknown⟩

theorem ofRoutine?_eq_some_iff :
    ofRoutine? config assembly routine = some decoder ↔
      routine.IsPooled ∧ entryOf config assembly routine = decoder := by
  rw [ofRoutine?, Routine.IsPooled, entryOf]
  cases hsignature : routine.signature with
  | none => simp
  | some signature =>
    obtain ⟨params, returns⟩ := signature
    rw [Option.ite_none_right_eq_some, Bool.and_eq_true, Bool.and_eq_true, Option.some.injEq]
    simp [Signature.takesSingleInt, Signature.returnsValue, Signature.isExact, and_assoc,
      Bool.decide_and]

/-- The stack effect of a call counts up to 255 parameters, enough to tell one from more. -/
theorem standsIn_iff : standsIn routine ↔ routine.IsNeutral := by
  rw [standsIn, Routine.IsNeutral, Bool.and_eq_true]
  refine and_congr_right fun _ => ?_
  cases hsignature : routine.signature with
  | none => simp
  | some signature =>
    obtain ⟨params, returns⟩ := signature
    have hone : min params.length 255 = 1 ↔ ∃ param, params = [param] := by
      rw [← List.length_eq_one_iff]
      omega
    simpa [Signature.effect, Signature.returnsValue] using fun _ => hone

theorem standIn?_eq_some_iff_isNeutral :
    standIn? routine = some decoder ↔ routine.IsNeutral ∧ standInOf routine = decoder := by
  rw [standIn?_eq_some_iff, standsIn_iff, standInOf]

end Decoder

/-! ### Names in either case -/

namespace Text

/-- The same character, or one ASCII letter in both cases. -/
def SameLetter (a b : Char) : Prop :=
  a = b ∨ (a.isUpper ∧ b.toNat = a.toNat + 32) ∨ (b.isUpper ∧ a.toNat = b.toNat + 32)

instance (a b : Char) : Decidable (SameLetter a b) :=
  inferInstanceAs (Decidable (_ ∨ _ ∨ _))

/-- The fragment stands somewhere in the text, in one piece and in either case. -/
def SpeltIn (fragment text : String) : Prop :=
  ∃ window, window <:+: text.toList ∧ List.Forall₂ SameLetter fragment.toList window

theorem isUpper_iff {char : Char} : char.isUpper ↔ 65 ≤ char.toNat ∧ char.toNat ≤ 90 :=
  decide_eq_true_iff.trans (and_congr UInt32.le_iff_toNat_le UInt32.le_iff_toNat_le)

theorem toNat_toLower (char : Char) :
    char.toLower.toNat = if char.isUpper then char.toNat + 32 else char.toNat := by
  by_cases h : char.isUpper
  · have hrange := isUpper_iff.mp h
    have hlower : char.toLower = _ := dif_pos (of_decide_eq_true h)
    rw [if_pos h, hlower]
    show (char.val + 32).toNat = char.toNat + 32
    rw [UInt32.toNat_add]
    exact Nat.mod_eq_of_lt (Nat.add_lt_add_right (Nat.lt_of_le_of_lt hrange.2 (by decide)) 32)
  · have hlower : char.toLower = char := dif_neg fun hrange => h (decide_eq_true hrange)
    rw [if_neg h, hlower]

theorem toLower_eq_iff {a b : Char} : a.toLower = b.toLower ↔ SameLetter a b := by
  rw [← Char.toNat_inj, toNat_toLower, toNat_toLower, SameLetter, ← Char.toNat_inj]
  simp only [isUpper_iff]
  split <;> split <;> omega

theorem toList_toLower (text : String) : text.toLower.toList = text.toList.map Char.toLower :=
  String.toList_map

theorem occursInAnyCase_iff {fragment text : String} :
    occursInAnyCase fragment text ↔ SpeltIn fragment text := by
  rw [occursInAnyCase, occursIn_iff, toList_toLower, toList_toLower, List.infix_map_iff]
  refine exists_congr fun window => and_congr_right fun _ => ?_
  rw [← List.forall₂_eq_eq_eq, List.forall₂_map_left_iff, List.forall₂_map_right_iff]
  simp only [toLower_eq_iff]

end Text

namespace Assembly

variable {assembly : Assembly} {token : Token} {name : String}

/-- The name of a member: that of the first routine with the token, or, if there is no such routine,
the one given last to an external member. -/
inductive Names (assembly : Assembly) (token : Token) : String → Prop
  | own (routine : Routine)
      (h : IsFirstIn (fun other => other.token = token) assembly.routines routine) :
      Names assembly token routine.name
  | external (name : String) (hforeign : ∀ routine ∈ assembly.routines, routine.token ≠ token)
      (h : IsLastIn (fun other => other.1 = token) assembly.externals (token, name)) :
      Names assembly token name

theorem external?_eq_some_iff :
    assembly.external? token = some name ↔
      IsLastIn (fun other => other.1 = token) assembly.externals (token, name) := by
  rw [external?, Option.map_eq_some_iff]
  simp only [find?_reverse_eq_some_iff, decide_eq_true_eq]
  constructor
  · rintro ⟨⟨member, found⟩, hlast, rfl⟩
    obtain rfl : member = token := hlast.prop
    exact hlast
  · intro hlast
    exact ⟨(token, name), hlast, rfl⟩

theorem memberName?_eq_some_iff :
    assembly.memberName? token = some name ↔ assembly.Names token name := by
  have hroutine : ∀ routine, assembly.routine? token = some routine ↔
      IsFirstIn (fun other => other.token = token) assembly.routines routine := by
    intro routine
    rw [routine?, find?_eq_some_iff_isFirstIn]
    simp only [decide_eq_true_eq]
  constructor
  · intro h
    unfold memberName? at h
    split at h
    next routine hfound =>
      obtain rfl := Option.some.inj h
      exact .own routine ((hroutine routine).mp hfound)
    next hforeign =>
      rw [routine?, List.find?_eq_none] at hforeign
      exact .external name (by simpa using hforeign) (external?_eq_some_iff.mp h)
  · rintro (⟨routine, hfirst⟩ | ⟨name, hforeign, hlast⟩)
    · rw [memberName?, (hroutine routine).mpr hfirst]
    · have hnone : assembly.routine? token = none := by
        rw [routine?, List.find?_eq_none]
        simpa using hforeign
      rw [memberName?, hnone, external?_eq_some_iff.mpr hlast]

end Assembly

/-! ### Tables -/

theorem Instr.field?_eq_some_iff {instr : Instr} {field : Token} :
    instr.field? = some field ↔ instr = ⟨.loadField, .member field⟩ := by
  obtain ⟨opcode, operand⟩ := instr
  cases opcode <;> cases operand <;> simp [field?]

namespace Shape

variable {config : Config} {assembly : Assembly} {body : Body} {slot : Token}

/-- The instruction loads a data slot of the assembly. -/
def LoadsSlot (assembly : Assembly) (instr : Instr) : Prop :=
  ∃ field, instr = ⟨.loadField, .member field⟩ ∧ ∃ held ∈ assembly.slots, held.token = field

/-- The body calls a member whose name holds one of the configured fragments. -/
def CallsNamed (config : Config) (assembly : Assembly) (body : Body) : Prop :=
  ∃ target name fragment, Instr.callTo target ∈ body ∧ assembly.Names target name ∧
    fragment ∈ config.decodeNames ∧ Text.SpeltIn fragment name

/-- The body looks its strings up in the slot. -/
structure ReadsTable (config : Config) (assembly : Assembly) (body : Body) (slot : Token) :
    Prop where
  /-- The body is no chain of arithmetic. -/
  unchained : Transform.ofBody? body = none
  /-- The slot is the first one that the body loads. -/
  loads : IsFirstIn (LoadsSlot assembly) body ⟨.loadField, .member slot⟩
  /-- Something with a telling name is called. -/
  calls : CallsNamed config assembly body

theorem firstSlot?_eq_some_iff :
    firstSlot? assembly body = some slot ↔
      IsFirstIn (LoadsSlot assembly) body ⟨.loadField, .member slot⟩ := by
  have hloads : ∀ instr : Instr, instr.field?.any assembly.hasSlot ↔ LoadsSlot assembly instr := by
    intro instr
    simp [Option.any_eq_true, Instr.field?_eq_some_iff, LoadsSlot, Assembly.hasSlot]
  rw [firstSlot?, List.find?_filterMap, Option.bind_eq_some_iff]
  simp only [find?_eq_some_iff_isFirstIn, hloads, Instr.field?_eq_some_iff]
  exact ⟨fun ⟨_, hfirst, hinstr⟩ => hinstr ▸ hfirst, fun hfirst => ⟨_, hfirst, rfl⟩⟩

theorem callsDecoding_iff :
    callsDecoding config assembly body ↔ CallsNamed config assembly body := by
  simp only [callsDecoding, List.any_eq_true, List.mem_filterMap, Instr.callee?_eq_some_iff,
    Option.any_eq_true, Assembly.memberName?_eq_some_iff, Config.isDecodeName,
    Text.occursInAnyCase_iff, CallsNamed]
  constructor
  · rintro ⟨target, ⟨instr, hmem, rfl⟩, name, hname, fragment, hfragment, hspelt⟩
    exact ⟨target, name, fragment, hmem, hname, hfragment, hspelt⟩
  · rintro ⟨target, name, fragment, hmem, hname, hfragment, hspelt⟩
    exact ⟨target, ⟨_, hmem, rfl⟩, name, hname, fragment, hfragment, hspelt⟩

/-- **A decoder is a table** exactly if its body looks its strings up. -/
theorem classify_eq_table_iff {routine : Routine} :
    classify config assembly routine = .table slot ↔
      ReadsTable config assembly routine.instrs slot := by
  have htable : tableSlot? config assembly routine.instrs = some slot ↔
      CallsNamed config assembly routine.instrs ∧
        IsFirstIn (LoadsSlot assembly) routine.instrs ⟨.loadField, .member slot⟩ := by
    rw [tableSlot?, Option.ite_none_right_eq_some, callsDecoding_iff, firstSlot?_eq_some_iff]
  rw [classify]
  constructor
  · intro h
    split at h
    next => cases h
    next hchain =>
      split at h
      next found hfound =>
        obtain rfl : found = slot := Shape.table.inj h
        obtain ⟨hcalls, hloads⟩ := htable.mp hfound
        exact ⟨hchain, hloads, hcalls⟩
      next => cases h
  · rintro ⟨hchain, hloads, hcalls⟩
    rw [hchain, htable.mpr ⟨hcalls, hloads⟩]

end Shape

/-! ### The pool -/

namespace Pool

variable {config : Config} {assembly : Assembly}

theorem candidates_ne_nil_iff :
    candidates config assembly ≠ [] ↔ ∃ routine ∈ assembly.routines, routine.IsPooled := by
  constructor
  · intro hne
    obtain ⟨_, hdecoder⟩ := List.exists_mem_of_ne_nil _ hne
    obtain ⟨routine, hmem, hroutine⟩ := List.mem_filterMap.mp hdecoder
    exact ⟨routine, hmem, (Decoder.ofRoutine?_eq_some_iff.mp hroutine).1⟩
  · rintro ⟨routine, hmem, hpooled⟩
    have hroutine : Decoder.ofRoutine? config assembly routine = some _ :=
      Decoder.ofRoutine?_eq_some_iff.mpr ⟨hpooled, rfl⟩
    exact List.ne_nil_of_mem (List.mem_filterMap.mpr ⟨routine, hmem, hroutine⟩)

/-- With routines for the pool, the pool is filled from these. -/
theorem ofAssembly_of_pooled (h : ∃ routine ∈ assembly.routines, routine.IsPooled) :
    ofAssembly config assembly =
      insertAll ⟨[], false⟩ (assembly.routines.filterMap (Decoder.ofRoutine? config assembly)) :=
  ofAssembly_of_candidates (candidates_ne_nil_iff.mpr h)

/-- Without, it is filled from those that may stand in. -/
theorem ofAssembly_of_none_pooled (h : ¬ ∃ routine ∈ assembly.routines, routine.IsPooled) :
    ofAssembly config assembly =
      insertAll ⟨[], true⟩ (assembly.routines.filterMap Decoder.standIn?) :=
  ofAssembly_of_no_candidates (not_not.mp (mt candidates_ne_nil_iff.mp h))

/-- Either way there is one entry for a token. -/
theorem pairwise_ofAssembly (config : Config) (assembly : Assembly) :
    (ofAssembly config assembly).decoders.Pairwise fun a b => a.routine ≠ b.routine := by
  by_cases h : ∃ routine ∈ assembly.routines, routine.IsPooled
  · rw [ofAssembly_of_pooled h]
    exact pairwise_insertAll .nil _
  · rw [ofAssembly_of_none_pooled h]
    exact pairwise_insertAll .nil _

end Pool

/-- **The pool is the documented one.** It has one entry for a token. If the assembly has routines
for the pool, these make up its tokens, and the entry of a token is that of the last of them with
the token. If it has none, the pool falls back to the routines that may stand in. And a routine
counts as a table exactly if its body looks its strings up. -/
theorem decoder_pool_exact (config : Config) (assembly : Assembly) :
    let pool := Pool.ofAssembly config assembly
    (pool.decoders.Pairwise fun a b => a.routine ≠ b.routine) ∧
    ((∃ routine ∈ assembly.routines, routine.IsPooled) →
      pool.fallback = false ∧
      (∀ token, pool.contains token ↔
        ∃ routine ∈ assembly.routines, routine.IsPooled ∧ routine.token = token) ∧
      ∀ token decoder, pool.find? token = some decoder ↔
        ∃ routine, IsLastIn (fun other => other.IsPooled ∧ other.token = token) assembly.routines
          routine ∧ Decoder.entryOf config assembly routine = decoder) ∧
    ((¬ ∃ routine ∈ assembly.routines, routine.IsPooled) →
      pool.fallback = true ∧
      (∀ token, pool.contains token ↔
        ∃ routine ∈ assembly.routines, routine.IsNeutral ∧ routine.token = token) ∧
      ∀ token decoder, pool.find? token = some decoder ↔
        ∃ routine, IsLastIn (fun other => other.IsNeutral ∧ other.token = token) assembly.routines
          routine ∧ Decoder.standInOf routine = decoder) ∧
    ∀ routine slot, Shape.classify config assembly routine = .table slot ↔
      Shape.ReadsTable config assembly routine.instrs slot := by
  intro pool
  refine ⟨Pool.pairwise_ofAssembly config assembly, ?_, ?_, fun _ _ => Shape.classify_eq_table_iff⟩
  · intro hpooled
    have hpool : pool = _ := Pool.ofAssembly_of_pooled hpooled
    rw [hpool]
    refine ⟨Pool.fallback_insertAll .., fun token => ?_, fun token decoder => ?_⟩
    · exact Pool.contains_insertAll_filterMap Decoder.ofRoutine?_eq_some_iff fun _ => rfl
    · exact Pool.find?_insertAll_filterMap Decoder.ofRoutine?_eq_some_iff fun _ => rfl
  · intro hnone
    have hpool : pool = _ := Pool.ofAssembly_of_none_pooled hnone
    rw [hpool]
    refine ⟨Pool.fallback_insertAll .., fun token => ?_, fun token decoder => ?_⟩
    · exact Pool.contains_insertAll_filterMap Decoder.standIn?_eq_some_iff_isNeutral fun _ => rfl
    · exact Pool.find?_insertAll_filterMap Decoder.standIn?_eq_some_iff_isNeutral fun _ => rfl

namespace Sample

/-- A routine that hands the second of two fields it loads to an external member. -/
def lookupRoutine : Routine :=
  ⟨⟨0x06000001⟩, "lookup", some ⟨[.int32], .object⟩,
    some [⟨.loadField, .member ⟨0x04000001⟩⟩, ⟨.loadField, .member ⟨0x04000002⟩⟩,
      .callTo ⟨0x0a000001⟩], .static⟩

/-- Three routines share a token. The first two are routines of the pool, the last is not static. -/
def sharedAssembly : Assembly where
  slots := [⟨⟨0x04000002⟩, "data", none, some #[]⟩]
  routines := [⟨⟨0x06000001⟩, "early", some .decoder, none, .static⟩, lookupRoutine,
    ⟨⟨0x06000001⟩, "late", some .decoder, none, ⟨0⟩⟩]
  externals := [(⟨0x0a000001⟩, "GetString")]

/-- A routine of which nothing is known, and one with too many parameters. -/
def strippedAssembly : Assembly where
  slots := []
  routines := [⟨⟨0x06000001⟩, "bare", none, none, .static⟩,
    ⟨⟨0x06000002⟩, "pair", some ⟨[.int32, .int32], .string⟩, none, .static⟩]
  externals := []

end Sample

/-- Of three routines with a token the second counts, as a table. And a routine without a signature
stands in where there is none for the pool. -/
theorem decoder_pool_exact_sample :
    (Pool.ofAssembly {} Sample.sharedAssembly).find? ⟨0x06000001⟩ =
        some ⟨⟨0x06000001⟩, "lookup", false, .table ⟨0x04000002⟩⟩ ∧
      (Pool.ofAssembly {} Sample.strippedAssembly).find? ⟨0x06000001⟩ =
        some ⟨⟨0x06000001⟩, "bare", false, .unknown⟩ := by
  constructor
  · obtain ⟨-, hpool, -, htable⟩ := decoder_pool_exact {} Sample.sharedAssembly
    have hpooled : Sample.lookupRoutine.IsPooled := ⟨by decide, .object, rfl, by decide⟩
    have hreads : Shape.ReadsTable {} Sample.sharedAssembly Sample.lookupRoutine.instrs
        ⟨0x04000002⟩ := by
      refine ⟨rfl, ⟨[_], [_], rfl, ⟨_, rfl, _, List.mem_singleton_self _, rfl⟩, ?_⟩,
        ⟨0x0a000001⟩, "GetString", "getstring", by decide, ?_, by decide, ?_⟩
      · simp [Shape.LoadsSlot, Sample.sharedAssembly]
      · exact Assembly.memberName?_eq_some_iff.mp (by decide)
      · exact ⟨"GetString".toList, List.infix_rfl, by decide⟩
    obtain ⟨-, -, hfind⟩ := hpool ⟨_, by decide, hpooled⟩
    refine (hfind _ _).mpr ⟨Sample.lookupRoutine, ⟨[_], [_], rfl, ⟨hpooled, rfl⟩, ?_⟩, ?_⟩
    · simp [Routine.IsPooled, Routine.isStatic, Flags.isStatic, Flags.staticBit]
    · rw [Decoder.entryOf, (htable _ _).mpr hreads]
      rfl
  · obtain ⟨-, -, hstandIn, -⟩ := decoder_pool_exact {} Sample.strippedAssembly
    have hnone : ¬ ∃ routine ∈ Sample.strippedAssembly.routines, routine.IsPooled := by
      simp [Sample.strippedAssembly, Routine.IsPooled]
    obtain ⟨-, -, hfind⟩ := hstandIn hnone
    refine (hfind _ _).mpr ⟨_, ⟨[], [_], rfl, ⟨⟨by decide, .inl rfl⟩, rfl⟩, ?_⟩, rfl⟩
    simp

end LiteralRecovery
