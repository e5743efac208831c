import LiteralRecovery.Proofs.Account
import LiteralRecovery.Proofs.Decoders
import Mathlib.Data.List.Induction

/-!
# The policy of blob selection

The blob is looked for in four rounds: by size among the global slots, by size among those that a
type owns, and by content in the same order. A round by size is a fold that keeps the larger of two
slots, and a round by content takes the first that passes. Here the slot that comes out is described
in the list that was given, with the slots of the other group and those without bytes left in it:
for each round by a position, and by what is said of the slots in front of it and behind it.

What the content test makes of bytes is of no account here.

## Main definitions

* `Blob.IsFirst`, `Blob.IsFirstLargest`: the first slot with a property, the earliest of the largest
* `Blob.Finds`: what a round by size should give
* `Blob.Selects`: the policy, one constructor for each round

## Main results

* `Blob.largest?_filter_eq_iff`: what the fold finds
* `Blob.choose?_eq_some_iff`, `Blob.choose?_eq_none_iff`: the choice follows the policy
* `Blob.choose?_congr`: the choice looks at the two groups only
* `blob_selection_policy`
-/

namespace LiteralRecovery

/-- The slot is taken without a look at its content. -/
def Slot.IsLarge (config : Config) (slot : Slot) : Prop :=
  config.minBlobSize < slot.size

/-- The slot has bytes and they pass the content test. -/
def Slot.IsText (config : Config) (slot : Slot) : Prop :=
  0 < slot.size ∧ config.looksTextual slot.bytes

namespace Blob

variable {slots : List Slot} {slot : Slot}

/-! ### The first, and the earliest of the largest -/

/-- The slot is the first one with the property. -/
def IsFirst (p : Slot → Prop) (slots : List Slot) (slot : Slot) : Prop :=
  ∃ before after, slots = before ++ slot :: after ∧ p slot ∧ ∀ other ∈ before, ¬ p other

/-- The slot is the earliest of the largest ones with the property: those in front of it are smaller
and those behind it are not larger. -/
def IsFirstLargest (p : Slot → Prop) (slots : List Slot) (slot : Slot) : Prop :=
  ∃ before after, slots = before ++ slot :: after ∧ p slot ∧
    (∀ other ∈ before, p other → other.size < slot.size) ∧
    ∀ other ∈ after, p other → other.size ≤ slot.size

theorem find?_eq_some_iff_isFirst {p : Slot → Bool} :
    slots.find? p = some slot ↔ IsFirst (fun other => p other) slots slot :=
  find?_eq_some_iff_isFirstIn

namespace IsFirstLargest

variable {p : Slot → Prop}

theorem mem (h : IsFirstLargest p slots slot) : slot ∈ slots := by
  obtain ⟨before, after, rfl, -⟩ := h
  exact List.mem_append_right _ (List.mem_cons_self ..)

theorem prop (h : IsFirstLargest p slots slot) : p slot := by
  obtain ⟨-, -, -, hslot, -⟩ := h
  exact hslot

theorem size_le (h : IsFirstLargest p slots slot) {other : Slot} (hother : other ∈ slots)
    (hp : p other) : other.size ≤ slot.size := by
  obtain ⟨before, after, rfl, -, hbefore, hafter⟩ := h
  rcases List.mem_append.mp hother with hmem | hmem
  · exact (hbefore other hmem hp).le
  · rcases List.mem_cons.mp hmem with rfl | hmem
    · exact le_rfl
    · exact hafter other hmem hp

/-- A slot at the end that does not qualify, or is not larger, changes nothing. -/
theorem concat_of_le {last : Slot} (h : IsFirstLargest p slots slot)
    (hlast : p last → last.size ≤ slot.size) : IsFirstLargest p (slots ++ [last]) slot := by
  obtain ⟨before, after, rfl, hslot, hbefore, hafter⟩ := h
  refine ⟨before, after ++ [last], by simp, hslot, hbefore, ?_⟩
  intro other hother
  rcases List.mem_append.mp hother with hmem | hmem
  · exact hafter other hmem
  · rwa [List.mem_singleton.mp hmem]

/-- A slot at the end that is larger than all others wins. -/
theorem concat_of_lt {last : Slot} (hlast : p last)
    (h : ∀ other ∈ slots, p other → other.size < last.size) :
    IsFirstLargest p (slots ++ [last]) last :=
  ⟨slots, [], rfl, hlast, h, by simp⟩

/-- There is only one: of two, neither can stand in front of the other. -/
theorem unique {slot' : Slot} (h : IsFirstLargest p slots slot)
    (h' : IsFirstLargest p slots slot') : slot = slot' := by
  obtain ⟨before, after, rfl, hslot, hbefore, hafter⟩ := h
  obtain ⟨before', after', hsplit, hslot', hbefore', hafter'⟩ := h'
  rcases List.append_eq_append_iff.mp hsplit with ⟨gap, rfl, hgap⟩ | ⟨gap, rfl, hgap⟩
  · cases gap with
    | nil => exact (List.cons.inj hgap).1
    | cons first gap =>
      obtain ⟨rfl, rfl⟩ := List.cons.inj hgap
      have hlt := hbefore' slot (by simp) hslot
      have hle := hafter slot' (by simp) hslot'
      omega
  · cases gap with
    | nil => exact (List.cons.inj hgap).1.symm
    | cons first gap =>
      obtain ⟨rfl, rfl⟩ := List.cons.inj hgap
      have hlt := hbefore slot' (by simp) hslot'
      have hle := hafter' slot (by simp) hslot
      omega

end IsFirstLargest

/-! ### What the fold finds -/

/-- What a round by size should give: nothing if no slot qualifies, and otherwise the earliest of
the largest that do. -/
def Finds (p : Slot → Prop) (slots : List Slot) : Option Slot → Prop
  | none => ∀ other ∈ slots, ¬ p other
  | some slot => IsFirstLargest p slots slot

section Finds

variable {p : Slot → Prop} {found found' : Option Slot} {last : Slot}

@[simp] theorem finds_none : Finds p slots none ↔ ∀ other ∈ slots, ¬ p other :=
  Iff.rfl

@[simp] theorem finds_some : Finds p slots (some slot) ↔ IsFirstLargest p slots slot :=
  Iff.rfl

theorem Finds.unique (h : Finds p slots found) (h' : Finds p slots found') : found = found' := by
  cases found with
  | none =>
    cases found' with
    | none => rfl
    | some slot' =>
      rw [finds_some] at h'
      exact absurd h'.prop (h slot' h'.mem)
  | some slot =>
    rw [finds_some] at h
    cases found' with
    | none => exact absurd h.prop (h' slot h.mem)
    | some slot' => exact congrArg some (h.unique h')

/-- **One step.** The slot at the end is compared with what was found in front of it. -/
theorem Finds.larger (h : Finds p slots found) (hlast : p last) :
    Finds p (slots ++ [last]) (larger found last) := by
  cases found with
  | none => exact .concat_of_lt hlast fun other hother hp => absurd hp (h other hother)
  | some held =>
    rw [finds_some] at h
    show Finds p (slots ++ [last]) (if held.size < last.size then some last else some held)
    split
    next hlt =>
      exact .concat_of_lt hlast fun other hother hp => (h.size_le hother hp).trans_lt hlt
    next hge => exact h.concat_of_le fun _ => Nat.not_lt.mp hge

/-- A slot at the end that does not qualify is passed over. -/
theorem Finds.concat_of_not (h : Finds p slots found) (hlast : ¬ p last) :
    Finds p (slots ++ [last]) found := by
  cases found with
  | none =>
    intro other hother
    rcases List.mem_append.mp hother with hmem | hmem
    · exact h other hmem
    · rwa [List.mem_singleton.mp hmem]
  | some held =>
    rw [finds_some] at h
    exact h.concat_of_le fun hp => absurd hp hlast

end Finds

/-- **The fold.** Slot by slot it finds what it should among the slots so far. -/
theorem finds_largest? (p : Slot → Bool) (slots : List Slot) :
    Finds (fun other => p other) slots (largest? (slots.filter p)) := by
  -- from the end of the list, where the fold makes its last comparison
  induction slots using List.reverseRecOn with
  | nil => exact List.forall_mem_nil _
  | append_singleton slots last ih =>
    rw [List.filter_append]
    cases hlast : p last with
    | true =>
      have hstep : largest? (slots.filter p ++ [last]) = larger (largest? (slots.filter p)) last :=
        List.foldl_concat ..
      rw [List.filter_singleton, hlast, cond_true, hstep]
      exact ih.larger hlast
    | false =>
      rw [List.filter_singleton, hlast, cond_false, List.append_nil]
      exact ih.concat_of_not (by simp [hlast])

theorem largest?_filter_eq_iff {p : Slot → Bool} {found : Option Slot} :
    largest? (slots.filter p) = found ↔ Finds (fun other => p other) slots found := by
  constructor
  · rintro rfl
    exact finds_largest? p slots
  · exact (finds_largest? p slots).unique

/-! ### The four rounds -/

variable {config : Config} {group : Slot → Bool}

/-- A round by size among the slots of a group that have bytes. -/
theorem bySize?_eq_iff {found : Option Slot} :
    bySize? config ((slots.filter fun slot => 0 < slot.size).filter group) = found ↔
      Finds (fun other => group other ∧ other.IsLarge config) slots found := by
  have hqualify : (fun other => (decide (config.minBlobSize < other.size) && group other &&
      decide (0 < other.size)) = true) = fun other => group other ∧ other.IsLarge config := by
    funext other
    -- that a slot has bytes need not be asked of one above the limit
    have hfilled : config.minBlobSize < other.size → 0 < other.size := Nat.zero_lt_of_lt
    simp only [Bool.and_eq_true, decide_eq_true_eq, Slot.IsLarge, eq_iff_iff]
    tauto
  rw [bySize?, List.filter_filter, List.filter_filter, largest?_filter_eq_iff, hqualify]

/-- A round by content among the slots of a group that have bytes. -/
theorem byContent?_eq_find? :
    byContent? config ((slots.filter fun slot => 0 < slot.size).filter group) =
      slots.find? fun other =>
        group other && (decide (0 < other.size) && config.looksTextual other.bytes) := by
  rw [byContent?, List.filter_filter, List.find?_filter]
  congr 1
  funext other
  simp [Bool.and_assoc]

theorem byContent?_eq_some_iff :
    byContent? config ((slots.filter fun slot => 0 < slot.size).filter group) = some slot ↔
      IsFirst (fun other => group other ∧ other.IsText config) slots slot := by
  rw [byContent?_eq_find?, find?_eq_some_iff_isFirst]
  simp only [Bool.and_eq_true, decide_eq_true_eq, Slot.IsText]

theorem byContent?_eq_none_iff :
    byContent? config ((slots.filter fun slot => 0 < slot.size).filter group) = none ↔
      ∀ other ∈ slots, ¬ (group other ∧ other.IsText config) := by
  rw [byContent?_eq_find?, List.find?_eq_none]
  simp only [Bool.and_eq_true, decide_eq_true_eq, Slot.IsText]

/-- **The policy.** By size among the global slots; if none of them is large, by size among the
others; if no slot at all is large, the first global slot that passes the content test, and if there
is none, the first other one. -/
inductive Selects (config : Config) (slots : List Slot) : Slot → Prop
  | largeGlobal {slot : Slot}
      (h : IsFirstLargest (fun other => other.isGlobal = true ∧ other.IsLarge config) slots slot) :
      Selects config slots slot
  | largeOwned {slot : Slot}
      (hglobal : ∀ other ∈ slots, other.isGlobal = true → ¬ other.IsLarge config)
      (h : IsFirstLargest (fun other => other.isGlobal = false ∧ other.IsLarge config) slots slot) :
      Selects config slots slot
  | textGlobal {slot : Slot} (hsmall : ∀ other ∈ slots, ¬ other.IsLarge config)
      (h : IsFirst (fun other => other.isGlobal = true ∧ other.IsText config) slots slot) :
      Selects config slots slot
  | textOwned {slot : Slot} (hsmall : ∀ other ∈ slots, ¬ other.IsLarge config)
      (hglobal : ∀ other ∈ slots, other.isGlobal = true → ¬ other.IsText config)
      (h : IsFirst (fun other => other.isGlobal = false ∧ other.IsText config) slots slot) :
      Selects config slots slot

/-- What no slot is, no global one is and no other one. -/
theorem forall_group_iff {q : Slot → Prop} :
    (∀ other ∈ slots, ¬ q other) ↔
      (∀ other ∈ slots, ¬ (other.isGlobal = true ∧ q other)) ∧
        ∀ other ∈ slots, ¬ (other.isGlobal = false ∧ q other) := by
  constructor
  · intro h
    exact ⟨fun other hother hq => h other hother hq.2, fun other hother hq => h other hother hq.2⟩
  · rintro ⟨hglobal, howned⟩ other hother hq
    cases hgroup : other.isGlobal with
    | true => exact hglobal other hother ⟨hgroup, hq⟩
    | false => exact howned other hother ⟨hgroup, hq⟩

/-- **The choice follows the policy.** -/
theorem choose?_eq_some_iff : choose? config slots = some slot ↔ Selects config slots slot := by
  simp only [choose?, Option.orElse_eq_orElse, Option.orElse_eq_or, Option.or_eq_some_iff,
    bySize?_eq_iff, byContent?_eq_some_iff, byContent?_eq_none_iff, finds_none, finds_some,
    Bool.not_eq_true']
  constructor
  · rintro (h | ⟨hglobal, h | ⟨howned, h | ⟨htext, h⟩⟩⟩)
    · exact .largeGlobal h
    · exact .largeOwned (fun other hother hg hl => hglobal other hother ⟨hg, hl⟩) h
    · exact .textGlobal (forall_group_iff.mpr ⟨hglobal, howned⟩) h
    · exact .textOwned (forall_group_iff.mpr ⟨hglobal, howned⟩)
        (fun other hother hg ht => htext other hother ⟨hg, ht⟩) h
  · rintro (h | ⟨hglobal, h⟩ | ⟨hsmall, h⟩ | ⟨hsmall, htext, h⟩)
    · exact .inl h
    · exact .inr ⟨fun other hother hq => hglobal other hother hq.1 hq.2, .inl h⟩
    · obtain ⟨hglobal, howned⟩ := forall_group_iff.mp hsmall
      exact .inr ⟨hglobal, .inr ⟨howned, .inl h⟩⟩
    · obtain ⟨hglobal, howned⟩ := forall_group_iff.mp hsmall
      exact .inr ⟨hglobal, .inr ⟨howned, .inr
        ⟨fun other hother hq => htext other hother hq.1 hq.2, h⟩⟩⟩

theorem choose?_eq_none_iff :
    choose? config slots = none ↔
      ∀ other ∈ slots, ¬ other.IsLarge config ∧ ¬ other.IsText config := by
  have hrounds : (∀ other ∈ slots, ¬ other.IsLarge config ∧ ¬ other.IsText config) ↔ _ :=
    forall₂_and.trans (and_congr forall_group_iff forall_group_iff)
  rw [hrounds, and_assoc]
  simp only [choose?, Option.orElse_eq_orElse, Option.orElse_eq_or, Option.or_eq_none_iff,
    bySize?_eq_iff, byContent?_eq_none_iff, finds_none, Bool.not_eq_true']

/-- The choice looks at the slots with bytes only, group by group. -/
theorem choose?_congr {slots' : List Slot}
    (hglobal : (slots.filter fun slot => 0 < slot.size).filter Slot.isGlobal =
      (slots'.filter fun slot => 0 < slot.size).filter Slot.isGlobal)
    (howned : (slots.filter fun slot => 0 < slot.size).filter (fun slot => !slot.isGlobal) =
      (slots'.filter fun slot => 0 < slot.size).filter fun slot => !slot.isGlobal) :
    choose? config slots = choose? config slots' := by
  simp only [choose?, hglobal, howned]

theorem choose?_insert_empty {before after : List Slot} (h : slot.size = 0) :
    choose? config (before ++ slot :: after) = choose? config (before ++ after) := by
  have hfilled : (before ++ slot :: after).filter (fun slot => 0 < slot.size) =
      (before ++ after).filter fun slot => 0 < slot.size := by
    rw [List.filter_append, List.filter_cons_of_neg (by simp [h]), List.filter_append]
  exact choose?_congr (by rw [hfilled]) (by rw [hfilled])

theorem choose?_of_groups {slots' : List Slot}
    (hglobal : slots.filter Slot.isGlobal = slots'.filter Slot.isGlobal)
    (howned : slots.filter (fun slot => !slot.isGlobal) =
      slots'.filter fun slot => !slot.isGlobal) :
    choose? config slots = choose? config slots' := by
  refine choose?_congr ?_ ?_
  · rw [List.filter_comm, hglobal, List.filter_comm]
  · rw [List.filter_comm, howned, List.filter_comm]

/-! ### Locating and resolving -/

theorem locate?_eq_some_iff {blob : Blob} :
    locate? config slots = some blob ↔ ∃ slot, Selects config slots slot ∧ ofSlot slot = blob := by
  rw [locate?, Option.map_eq_some_iff]
  exact exists_congr fun slot => and_congr_left fun _ => choose?_eq_some_iff

theorem locate?_eq_none_iff :
    locate? config slots = none ↔
      ∀ other ∈ slots, 0 < other.size →
        other.size ≤ config.minBlobSize ∧ ¬ config.looksTextual other.bytes := by
  rw [locate?, Option.map_eq_none_iff, choose?_eq_none_iff]
  refine forall₂_congr fun other _ => ?_
  have hfilled : config.minBlobSize < other.size → 0 < other.size := Nat.zero_lt_of_lt
  simp only [Slot.IsLarge, Slot.IsText, not_and, Nat.not_lt]
  constructor
  · intro h hsize
    exact ⟨h.1, h.2 hsize⟩
  · intro h
    exact ⟨by by_contra hlarge; omega, fun hsize => (h hsize).2⟩

theorem named?_eq_some_iff {name : String} {blob : Blob} :
    named? name slots = some blob ↔
      ∃ slot, IsFirst (fun other => other.name = name ∧ 0 < other.size) slots slot ∧
        ofSlot slot = blob := by
  rw [named?, Option.map_eq_some_iff]
  refine exists_congr fun slot => and_congr_left fun _ => ?_
  rw [find?_eq_some_iff_isFirst]
  simp only [Bool.and_eq_true, decide_eq_true_eq]

theorem named?_eq_none_iff {name : String} :
    named? name slots = none ↔ ∀ other ∈ slots, other.name = name → other.size = 0 := by
  rw [named?, Option.map_eq_none_iff, List.find?_eq_none]
  refine forall₂_congr fun other _ => ?_
  simp only [Bool.and_eq_true, decide_eq_true_eq, not_and, Nat.not_lt, Nat.le_zero]

section Resolve

variable {error : Error} {blob : Blob} {name : String}

/-- Without a name the located blob is taken. -/
theorem resolve_eq_ok_iff_of_none (h : config.blobSlot = none) :
    resolve config slots = .ok blob ↔ locate? config slots = some blob := by
  simp only [resolve, h]
  cases locate? config slots <;> simp

theorem resolve_eq_error_iff_of_none (h : config.blobSlot = none) :
    resolve config slots = .error error ↔ error = .blobNotFound ∧ locate? config slots = none := by
  simp only [resolve, h]
  cases locate? config slots <;> simp [eq_comm]

/-- With a name the slot of that name is taken. -/
theorem resolve_eq_ok_iff_of_some (h : config.blobSlot = some name) :
    resolve config slots = .ok blob ↔ named? name slots = some blob := by
  simp only [resolve, h]
  cases named? name slots <;> simp

theorem resolve_eq_error_iff_of_some (h : config.blobSlot = some name) :
    resolve config slots = .error error ↔
      error = .blobSlotMissing name ∧ named? name slots = none := by
  simp only [resolve, h]
  cases named? name slots <;> simp [eq_comm]

end Resolve

end Blob

/-- A run fails exactly where it cannot be prepared, with the same error. -/
theorem Engine.result_run_eq_error_iff {engine : Engine} {supply : WorkerSupply}
    {assembly : Assembly} {error : Error} :
    (engine.run supply assembly).result = .error error ↔
      engine.config.prepare supply assembly.slots = .error error := by
  cases hready : engine.config.prepare supply assembly.slots with
  | ok blob => simp [(run_of_prepare hready).2]
  | error cause => simp [run, (runUntil_of_prepare_error none hready).2]

/-- That there is no blob is not said where only workers are wanting. -/
theorem Config.prepare_eq_blobNotFound_iff {config : Config} {supply : WorkerSupply}
    {slots : List Slot} :
    config.prepare supply slots = .error .blobNotFound ↔
      Blob.resolve config slots = .error .blobNotFound := by
  rw [prepare_eq_error_iff, or_iff_left]
  rintro ⟨-, hworkers⟩
  obtain ⟨-, _, _, -, -, herror⟩ := obtainWorkers_eq_error_iff.mp hworkers
  cases herror

/-- **Blob selection follows its policy.** The blob is located in the slot that the policy selects,
and in none exactly if every slot with bytes is too small and fails the content test. Without a
configured name the located blob is the one of a run, and a run fails for want of a blob exactly if
there is none. With a name it is the first slot of the name that has bytes, and an error that gives
the name exactly if there is none. The choice does not depend on slots without bytes, nor on how the
global slots and the others are mixed. -/
theorem blob_selection_policy (config : Config) (slots : List Slot) :
    (∀ blob, Blob.locate? config slots = some blob ↔
      ∃ slot, Blob.Selects config slots slot ∧ Blob.ofSlot slot = blob) ∧
    (Blob.locate? config slots = none ↔ ∀ slot ∈ slots, 0 < slot.size →
      slot.size ≤ config.minBlobSize ∧ ¬ config.looksTextual slot.bytes) ∧
    (config.blobSlot = none →
      (∀ blob, Blob.resolve config slots = .ok blob ↔ Blob.locate? config slots = some blob) ∧
      ∀ (engine : Engine) (supply : WorkerSupply) (assembly : Assembly),
        engine.config = config → assembly.slots = slots →
          ((engine.run supply assembly).result = .error .blobNotFound ↔
            Blob.locate? config slots = none)) ∧
    (∀ name, config.blobSlot = some name →
      (∀ blob, Blob.resolve config slots = .ok blob ↔
        ∃ slot, Blob.IsFirst (fun other => other.name = name ∧ 0 < other.size) slots slot ∧
          Blob.ofSlot slot = blob) ∧
      ∀ error, Blob.resolve config slots = .error error ↔
        error = .blobSlotMissing name ∧ ∀ slot ∈ slots, slot.name = name → slot.size = 0) ∧
    (∀ before slot after, slots = before ++ slot :: after → slot.size = 0 →
      Blob.locate? config slots = Blob.locate? config (before ++ after)) ∧
    ∀ slots', slots.filter Slot.isGlobal = slots'.filter Slot.isGlobal →
      slots.filter (fun slot => !slot.isGlobal) = slots'.filter (fun slot => !slot.isGlobal) →
        Blob.locate? config slots = Blob.locate? config slots' := by
  refine ⟨fun blob => Blob.locate?_eq_some_iff, Blob.locate?_eq_none_iff, fun hname => ⟨?_, ?_⟩,
    fun name hname => ⟨fun blob => ?_, fun error => ?_⟩, ?_, ?_⟩
  · intro blob
    exact Blob.resolve_eq_ok_iff_of_none hname
  · rintro engine supply assembly rfl rfl
    rw [Engine.result_run_eq_error_iff, Config.prepare_eq_blobNotFound_iff,
      Blob.resolve_eq_error_iff_of_none hname]
    exact and_iff_right rfl
  · rw [Blob.resolve_eq_ok_iff_of_some hname, Blob.named?_eq_some_iff]
  · rw [Blob.resolve_eq_error_iff_of_some hname, Blob.named?_eq_none_iff]
  · rintro before slot after rfl hempty
    exact congrArg (Option.map Blob.ofSlot) (Blob.choose?_insert_empty hempty)
  · intro slots' hglobal howned
    exact congrArg (Option.map Blob.ofSlot) (Blob.choose?_of_groups hglobal howned)

namespace Sample

/-- The largest slot, which a type owns. -/
def ownedSlot : Slot :=
  ⟨⟨0x04000001⟩, "owned", some ⟨0x02000001⟩, some #[1, 2, 3, 4, 5, 6]⟩

/-- A slot without bytes. -/
def bareSlot : Slot :=
  ⟨⟨0x04000002⟩, "bare", none, none⟩

/-- A global slot. -/
def globalSlot : Slot :=
  ⟨⟨0x04000003⟩, "first", none, some #[1, 2, 3, 4]⟩

/-- Another one of the same size. -/
def otherSlot : Slot :=
  ⟨⟨0x04000004⟩, "second", none, some #[5, 6, 7, 8]⟩

end Sample

/-- The first of two global slots is selected before a larger one that a type owns, also if the
latter stands between the two. The slot without bytes is of no use by its name, and alone it makes
a run fail. -/
theorem blob_selection_policy_sample :
    let slots := [Sample.ownedSlot, Sample.bareSlot, Sample.globalSlot, Sample.otherSlot]
    let config : Config := { minBlobSize := 3 }
    (∃ slot, Blob.Selects config slots slot ∧ Blob.ofSlot slot = Blob.ofSlot Sample.globalSlot) ∧
      Blob.locate? config slots = Blob.locate? config
        [Sample.bareSlot, Sample.globalSlot, Sample.ownedSlot, Sample.otherSlot] ∧
      Blob.resolve { config with blobSlot := some "bare" } slots =
        .error (.blobSlotMissing "bare") ∧
      ((Engine.ofConfig config).run (fun _ => .ok ()) ⟨[Sample.bareSlot], [], []⟩).result =
        .error .blobNotFound := by
  intro slots config
  obtain ⟨hlocate, -, -, -, -, hmixed⟩ := blob_selection_policy config slots
  obtain ⟨-, -, -, hnamed, -⟩ := blob_selection_policy { config with blobSlot := some "bare" } slots
  obtain ⟨-, hnone, hunnamed, -⟩ := blob_selection_policy config [Sample.bareSlot]
  refine ⟨(hlocate _).mp (by decide), hmixed _ (by decide) (by decide), ?_, ?_⟩
  · exact ((hnamed "bare" rfl).2 _).mpr ⟨rfl, by decide⟩
  · exact ((hunnamed rfl).2 _ _ _ rfl rfl).mpr (hnone.mpr (by decide))

end LiteralRecovery
