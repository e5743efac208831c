import LiteralRecovery.Proofs.Decoders
import LiteralRecovery.Proofs.Effect
import LiteralRecovery.Proofs.Encoding

/-!
# A run undoes the reference obfuscation

The obfuscation that a run is made for: the strings of an assembly go into one data slot as records,
and each string load becomes a load of the record's offset and a call of a decoder. `Layout` is the
data slot, `Obfuscates` the assembly, and the result is that a run puts every string back.

Only the calls of that one decoder are spoken of. The assembly may have other decoders, calls
without a target and whatever else between the pairs; none of that gets in the way, since sites are
judged one by one and do not overlap.

## Main definitions

* `Layout`: records with bytes around them
* `Hides`: a pair of instructions in the place of a string load
* `Obfuscates`: every call of the decoder is the second half of such a pair

## Main results

* `Layout.exists_split`: every text of a layout stands in a record at its offset
* `run_undoes_obfuscation`
-/

namespace LiteralRecovery

/-! ### Layouts -/

/-- Records, each with the bytes in front of it, and the bytes after the last. -/
structure Layout where
  entries : List (List UInt8 × String)
  tail : List UInt8

namespace Layout

/-- The bytes of records with what is in front of them. -/
def entryBytes (entries : List (List UInt8 × String)) : List UInt8 :=
  entries.flatMap fun (gap, text) => gap ++ Blob.record (Utf8.encode text)

/-- All bytes. -/
def bytes (layout : Layout) : List UInt8 :=
  entryBytes layout.entries ++ layout.tail

/-- The texts with the offsets of their records, if the first bytes stand at `start`. -/
def offsetsFrom (start : Nat) : List (List UInt8 × String) → List (Nat × String)
  | [] => []
  | (gap, text) :: rest =>
    (start + gap.length, text) ::
      offsetsFrom (start + gap.length + (Blob.record (Utf8.encode text)).length) rest

/-- The texts with the offsets of their records. -/
def offsets (layout : Layout) : List (Nat × String) :=
  offsetsFrom 0 layout.entries

theorem mem_entries_of_mem_offsetsFrom {start offset : Nat} {text : String}
    {entries : List (List UInt8 × String)} (h : (offset, text) ∈ offsetsFrom start entries) :
    ∃ gap, (gap, text) ∈ entries := by
  induction entries generalizing start with
  | nil => cases h
  | cons entry rest ih =>
    rcases List.mem_cons.mp h with heq | hrest
    · exact ⟨entry.1, by rw [(Prod.mk.inj heq).2]; exact List.mem_cons_self ..⟩
    · obtain ⟨gap, hgap⟩ := ih hrest
      exact ⟨gap, List.mem_cons_of_mem _ hgap⟩

theorem exists_split_offsetsFrom {offset : Nat} {text : String} {tail : List UInt8}
    {entries : List (List UInt8 × String)} (front : List UInt8)
    (h : (offset, text) ∈ offsetsFrom front.length entries) :
    ∃ before after, front ++ (entryBytes entries ++ tail) =
        before ++ (Blob.record (Utf8.encode text) ++ after) ∧ before.length = offset := by
  induction entries generalizing front with
  | nil => cases h
  | cons entry rest ih =>
    obtain ⟨gap, first⟩ := entry
    rcases List.mem_cons.mp h with heq | hrest
    · obtain ⟨rfl, rfl⟩ := Prod.mk.inj heq
      exact ⟨front ++ gap, entryBytes rest ++ tail, by simp [entryBytes], by simp⟩
    · -- The entry in front joins the bytes that are behind us.
      obtain ⟨before, after, hsplit, hlength⟩ :=
        ih (front ++ (gap ++ Blob.record (Utf8.encode first)))
          (by simpa [Nat.add_assoc] using hrest)
      exact ⟨before, after, by simpa [entryBytes] using hsplit, hlength⟩

/-- **Every text of a layout stands in a record at its offset.** -/
theorem exists_split {layout : Layout} {offset : Nat} {text : String}
    (h : (offset, text) ∈ layout.offsets) :
    ∃ before after, layout.bytes = before ++ (Blob.record (Utf8.encode text) ++ after) ∧
      before.length = offset :=
  exists_split_offsetsFrom [] h

end Layout

/-! ### The obfuscated assembly -/

/-- At `index` the routine loads the offset of a text, and right after that it calls the decoder. -/
structure Hides (layout : Layout) (decoder : Token) (routine : Routine) (index offset : Nat)
    (text : String) : Prop where
  entry : (offset, text) ∈ layout.offsets
  load : routine.instrs[index]? = some (Instr.loadInt (Int32.ofNat offset))
  call : routine.instrs[index + 1]? = some (Instr.callTo decoder)

/-- The assembly has its strings in the layout, and calls the decoder for nothing else. -/
structure Obfuscates (config : Config) (layout : Layout) (decoder : Routine)
    (assembly : Assembly) : Prop where
  member : decoder ∈ assembly.routines
  /-- No other routine has the token of the decoder. -/
  alone : ∀ routine ∈ assembly.routines, routine.token = decoder.token → routine = decoder
  static : decoder.isStatic
  signature : decoder.signature = some Signature.decoder
  plain : ∀ entry ∈ layout.entries, Text.IsPlain entry.2
  length : ∀ entry ∈ layout.entries, (Utf8.encode entry.2).length ≤ config.maxLength
  /-- The layout is in the slot that is resolved. -/
  blob : ∃ blob, Blob.resolve config assembly.slots = .ok blob ∧
    blob.bytes.toList = layout.bytes
  size : layout.bytes.length < 2 ^ 31
  /-- Every call of the decoder, in every routine, stands in the place of a string load. -/
  calls : ∀ routine ∈ assembly.routines, ∀ i,
    routine.instrs[i]? = some (Instr.callTo decoder.token) →
      ∃ index offset text, i = index + 1 ∧
        Hides layout decoder.token routine index offset text

/-- The site of a pair. -/
def pairSite (decoder routine : Token) (index offset : Nat) : Site :=
  ⟨routine, index, index + 1, Int32.ofNat offset, some decoder, .full⟩

namespace Obfuscates

variable {config : Config} {layout : Layout} {decoder routine : Routine} {assembly : Assembly}
variable {blob : Blob} {index offset : Nat} {text : String}

theorem mem_sites (h : Obfuscates config layout decoder assembly) (hlookback : 1 ≤ config.lookback)
    (hhides : Hides layout decoder.token routine index offset text) :
    pairSite decoder.token routine.token index offset ∈
      (Pool.ofAssembly config assembly).sites config routine := by
  have hexact : (Pool.ofAssembly config assembly).isExact decoder.token :=
    Pool.isExact_ofAssembly h.member h.alone h.static h.signature
  refine Pool.mem_sites_iff.mpr ⟨_, hhides.call, rfl, rfl, Pool.contains_of_isExact hexact,
    constantBefore?_of_adjacent hlookback ?_, rfl, ?_⟩
  · rw [List.getElem?_toArray]
    exact hhides.load
  · simp [pairSite, Pool.population, Instr.callee?, Instr.callTo, hexact]

/-- **A pair is judged to be its text.** -/
theorem judge_pairSite (h : Obfuscates config layout decoder assembly)
    (hblob : blob.bytes.toList = layout.bytes) (hentry : (offset, text) ∈ layout.offsets)
    (pool : Pool) (owner : Token) (index : Nat) :
    (Context.mk config blob.bytes pool).judge (pairSite decoder.token owner index offset) =
      .ok (decoder.token, ⟨text, .directOffset, some offset⟩) := by
  obtain ⟨gap, hmem⟩ := Layout.mem_entries_of_mem_offsetsFrom hentry
  obtain ⟨before, after, hsplit, rfl⟩ := Layout.exists_split hentry
  have hsize : blob.bytes.size < 2 ^ 31 := by
    rw [← Array.length_toList, hblob]
    exact h.size
  exact Context.judge_eq_ok_iff.mpr ⟨rfl, decode?_offset_of_record _ (hblob.trans hsplit) hsize
    (h.plain _ hmem) (h.length _ hmem)⟩

/-- Every site with the decoder as its target is that of a pair. -/
theorem exists_hides (h : Obfuscates config layout decoder assembly)
    (hlookback : 1 ≤ config.lookback) (hroutine : routine ∈ assembly.routines) {site : Site}
    (hsite : site ∈ (Pool.ofAssembly config assembly).sites config routine)
    (htarget : site.target = some decoder.token) :
    ∃ index offset text, Hides layout decoder.token routine index offset text ∧
      site = pairSite decoder.token routine.token index offset := by
  obtain ⟨index, offset, text, hindex, hhides⟩ :=
    h.calls routine hroutine site.call (Pool.getElem?_call hsite htarget)
  exact ⟨index, offset, text, hhides,
    Pool.eq_of_call_eq hsite (h.mem_sites hlookback hhides) hindex⟩

/-! ### What a run makes of it -/

variable {engine : Engine}

/-- A pair is logged as recovered from its own record. -/
theorem mem_recoveries (h : Obfuscates engine.config layout decoder assembly)
    (hblob : blob.bytes.toList = layout.bytes) (hlookback : 1 ≤ engine.config.lookback)
    (hhides : Hides layout decoder.token routine index offset text) :
    ⟨routine.token, index, index + 1, Int32.ofNat offset, decoder.token, .directOffset, text⟩ ∈
      ((engine.context assembly blob).pool.sites engine.config routine).filterMap
        (engine.context assembly blob).recovery? := by
  refine List.mem_filterMap.mpr ⟨_, h.mem_sites hlookback hhides, ?_⟩
  have hjudge := h.judge_pairSite hblob hhides.entry
    (Pool.ofAssembly engine.config assembly) routine.token index
  exact Context.recovery?_eq_some_iff.mpr ⟨_, _, hjudge, rfl⟩

/-- No call of the decoder is left in a routine: each was the second half of a pair. -/
theorem not_mem_callees (h : Obfuscates engine.config layout decoder assembly)
    (hblob : blob.bytes.toList = layout.bytes) (hlookback : 1 ≤ engine.config.lookback)
    (hroutine : routine ∈ assembly.routines) :
    decoder.token ∉ ((engine.context assembly blob).rewrite routine).callees := by
  intro hmem
  obtain ⟨instr, hinstr, hcallee⟩ := List.mem_filterMap.mp hmem
  obtain ⟨i, hi⟩ := List.mem_iff_getElem?.mp hinstr
  rw [Instr.callee?_eq_some_iff.mp hcallee] at hi
  have hedited := (engine.context assembly blob).edited_rewrite routine
  by_cases hkept : ∀ edit ∈ ((engine.context assembly blob).pool.sites engine.config
      routine).filterMap (engine.context assembly blob).recovery?, i ≠ edit.load ∧ i ≠ edit.call
  · rw [hedited.kept i hkept] at hi
    obtain ⟨index, offset, text, rfl, hhides⟩ := h.calls routine hroutine i hi
    exact (hkept _ (h.mem_recoveries hblob hlookback hhides)).2 rfl
  · push Not at hkept
    obtain ⟨edit, hedit, hposition⟩ := hkept
    obtain ⟨hload, hcall⟩ := hedited.written edit hedit
    by_cases heq : i = edit.load
    · rw [heq, hload] at hi
      cases hi
    · rw [hposition heq, hcall] at hi
      cases hi

/-- So the report has every pair among its recoveries. -/
theorem mem_recoveries_reportOf (h : Obfuscates engine.config layout decoder assembly)
    (hblob : blob.bytes.toList = layout.bytes) (hlookback : 1 ≤ engine.config.lookback)
    (hroutine : routine ∈ assembly.routines)
    (hhides : Hides layout decoder.token routine index offset text) :
    ⟨routine.token, index, index + 1, Int32.ofNat offset, decoder.token, .directOffset, text⟩ ∈
      ((engine.context assembly blob).reportOf assembly.routines).recoveries := by
  obtain ⟨site, hsite, hrecovery⟩ :=
    List.mem_filterMap.mp (h.mem_recoveries hblob hlookback hhides)
  exact Context.mem_recoveries_iff.mpr ⟨routine, hroutine, site, hsite, hrecovery⟩

/-- Nothing of the decoder fails: its sites are pairs, and pairs are judged to be their texts. -/
theorem target_ne_of_mem_failures (h : Obfuscates engine.config layout decoder assembly)
    (hblob : blob.bytes.toList = layout.bytes) (hlookback : 1 ≤ engine.config.lookback)
    {failure : Failure}
    (hfailure : failure ∈ ((engine.context assembly blob).reportOf assembly.routines).failures) :
    failure.site.target ≠ some decoder.token := by
  intro htarget
  obtain ⟨routine, hroutine, site, hsite, hfound⟩ := Context.mem_failures_iff.mp hfailure
  obtain ⟨hjudge, rfl⟩ := Context.failure?_eq_some_iff.mp hfound
  obtain ⟨index, offset, text, hhides, hpair⟩ := h.exists_hides hlookback hroutine hsite htarget
  have hok := h.judge_pairSite hblob hhides.entry
    (Pool.ofAssembly engine.config assembly) routine.token index
  rw [hpair] at hjudge
  cases hok.symm.trans hjudge

end Obfuscates

/-- **A run undoes the reference obfuscation**, if it gets its workers. Every pair, in every
routine, becomes the string load that it stands for, with the text verbatim, and is logged as
found at its offset. Nothing of the decoder fails, and where there was a pair the decoder may be
removed. -/
theorem run_undoes_obfuscation (engine : Engine) (supply : WorkerSupply) (layout : Layout)
    (decoder : Routine) (assembly : Assembly)
    (h : Obfuscates engine.config layout decoder assembly)
    (hlookback : 1 ≤ engine.config.lookback)
    (hworkers : engine.config.obtainWorkers supply = .ok ()) :
    ∃ report, (engine.run supply assembly).result = .ok report ∧
      (∀ (k : Nat) (routine : Routine), assembly.routines[k]? = some routine →
        ∃ after : Routine, (engine.run supply assembly).assembly.routines[k]? = some after ∧
          ∀ index offset text, Hides layout decoder.token routine index offset text →
            after.instrs[index]? = some Instr.nop ∧
            after.instrs[index + 1]? = some (Instr.loadString text) ∧
            ⟨routine.token, index, index + 1, Int32.ofNat offset, decoder.token, .directOffset,
              text⟩ ∈ report.recoveries) ∧
      (∀ failure ∈ report.failures, failure.site.target ≠ some decoder.token) ∧
      ((∃ routine ∈ assembly.routines, ∃ index offset text,
        Hides layout decoder.token routine index offset text) →
          decoder.token ∈ report.removable) := by
  obtain ⟨blob, hresolve, hblob⟩ := h.blob
  obtain ⟨hassembly, hresult⟩ :=
    Engine.runUntil_of_prepare none (Config.prepare_eq_ok_iff.mpr ⟨hresolve, hworkers⟩)
  refine ⟨_, hresult, fun k routine hk => ?_,
    fun failure => h.target_ne_of_mem_failures hblob hlookback, ?_⟩
  · refine ⟨(engine.context assembly blob).rewrite routine, ?_, fun index offset text hhides => ?_⟩
    · rw [Engine.run, hassembly]
      simp [started, leftOver, hk]
    · obtain ⟨hload, hcall⟩ := ((engine.context assembly blob).edited_rewrite routine).written _
        (h.mem_recoveries hblob hlookback hhides)
      have hlogged :=
        h.mem_recoveries_reportOf hblob hlookback (List.mem_of_getElem? hk) hhides
      exact ⟨hload, hcall, hlogged⟩
  · rintro ⟨routine, hroutine, index, offset, text, hhides⟩
    have hlogged := h.mem_recoveries_reportOf hblob hlookback hroutine hhides
    refine Report.mem_removable_iff.mpr ⟨rfl, ⟨_, hlogged, rfl⟩,
      fun failure => h.target_ne_of_mem_failures hblob hlookback, ?_⟩
    simp only [started, Context.liveCalls_reportOf, List.mem_flatMap, not_exists, not_and]
    intro other hother hmem
    exact h.not_mem_callees hblob hlookback hother (List.mem_filter.mp hmem).1

/-! ### A small obfuscated assembly -/

namespace Sample

/-- Two texts, with a byte in front of the first and one after the second. -/
def layout : Layout :=
  ⟨[([0xff], "hi"), ([], "é\n")], [7]⟩

/-- A decoder that has a string of its own. -/
def hiddenDecoder : Routine :=
  { decoder with body := some [.loadInt 7, .callTo decoder.token, ⟨.ret, .none⟩] }

/-- A routine with both strings. -/
def hiddenMain : Routine :=
  { main with
    body := some [.loadInt 1, .callTo decoder.token, ⟨.other, .none⟩, .loadInt 7,
      .callTo decoder.token] }

/-- Layout, decoder and caller together. -/
def hiddenAssembly : Assembly :=
  ⟨[⟨blob.slot, blob.name, none, some layout.bytes.toArray⟩], [hiddenDecoder, hiddenMain], []⟩

theorem obfuscates_hiddenAssembly :
    Obfuscates engine.config layout hiddenDecoder hiddenAssembly where
  member := by decide
  alone := by decide
  static := by decide
  signature := rfl
  plain := by decide
  length := by decide
  blob := ⟨⟨blob.slot, blob.name, layout.bytes.toArray⟩, rfl, rfl⟩
  size := by decide
  calls := by
    intro routine hroutine i hcall
    rcases List.mem_pair.mp hroutine with rfl | rfl
    · match i, hcall with
      | 0, h => cases h
      | 1, _ => exact ⟨0, 7, "é\n", rfl, by decide, rfl, rfl⟩
      | 2, h => cases h
    · match i, hcall with
      | 0, h => cases h
      | 1, _ => exact ⟨0, 1, "hi", rfl, by decide, rfl, rfl⟩
      | 2, h => cases h
      | 3, h => cases h
      | 4, _ => exact ⟨3, 7, "é\n", rfl, by decide, rfl, rfl⟩

end Sample

/-- The pair in the decoder's own body is undone, and the decoder may be removed. -/
theorem run_undoes_obfuscation_sample :
    ∃ report, (Sample.engine.run Sample.supply Sample.hiddenAssembly).result = .ok report ∧
      (∃ after : Routine,
        (Sample.engine.run Sample.supply Sample.hiddenAssembly).assembly.routines[0]? =
          some after ∧
          after.instrs[0]? = some Instr.nop ∧
          after.instrs[1]? = some (Instr.loadString "é\n")) ∧
      Sample.decoder.token ∈ report.removable := by
  obtain ⟨report, hresult, hroutines, -, hremovable⟩ :=
    run_undoes_obfuscation Sample.engine Sample.supply Sample.layout Sample.hiddenDecoder
      Sample.hiddenAssembly Sample.obfuscates_hiddenAssembly (by decide) rfl
  have hhides : Hides Sample.layout Sample.hiddenDecoder.token Sample.hiddenDecoder 0 7 "é\n" :=
    ⟨by decide, rfl, rfl⟩
  obtain ⟨after, hafter, hpairs⟩ := hroutines 0 Sample.hiddenDecoder rfl
  obtain ⟨hload, hcall, -⟩ := hpairs 0 7 "é\n" hhides
  exact ⟨report, hresult, ⟨after, hafter, hload, hcall⟩,
    hremovable ⟨Sample.hiddenDecoder, by decide, 0, 7, "é\n", hhides⟩⟩

end LiteralRecovery
