import LiteralRecovery.Blob.Record
import LiteralRecovery.Decoder.Pool
import LiteralRecovery.Strategy
import LiteralRecovery.Text.Utf16

/-!
# Decoding a constant

A strategy looks at one place after another, a *probe* each, until one yields an accepted literal.
Most derive numbers from the constant and look for records at all the offsets that a number stands
for. A constant is decoded by the first strategy of its population that succeeds.

## Main definitions

* `baseOffsets`: the offsets that a number stands for.
* `Request.read?`: what stands at a probe.
* `Request.recordFor?`: the record at an offset of a number.
* `Request.attempt?`, `Request.first?`: one strategy, and several in order.
* `Request.search`: the same as `Request.first?`, with the strategies that were tried in vain.
* `decode?`: the literal of a constant.
-/

namespace LiteralRecovery

/-! ### The offsets of a number -/

/-- The number as an offset from the start of `size` bytes. -/
def directOffset? (size : Nat) (constant : Int32) : Option Nat :=
  let offset := constant.toInt
  if 0 ≤ offset ∧ offset < size then some offset.toNat else none

/-- The negative number as an offset from the end of `size` bytes. -/
def endOffset? (size : Nat) (constant : Int32) : Option Nat :=
  let offset := size + constant.toInt
  if constant.toInt < 0 ∧ 0 ≤ offset then some offset.toNat else none

/-- The number as an offset in words of four bytes, from the start or, if four times the number is
negative, from the end. The product wraps around. -/
def scaledOffset? (size : Nat) (constant : Int32) : Option Nat :=
  let scaled := constant * 4
  if 0 ≤ scaled.toInt then directOffset? size scaled else endOffset? size scaled

/-- The offsets that a number stands for, those that exist. -/
def baseOffsets (size : Nat) (constant : Int32) : List Nat :=
  (directOffset? size constant).toList ++ (endOffset? size constant).toList
    ++ (scaledOffset? size constant).toList

/-! ### Requests, probes and what they find -/

/-- What a strategy works on. -/
structure Request where
  constant : Int32
  blob : Bytes
  decoder : Option Decoder
  config : Config
  acceptance : Acceptance

/-- A single place to look at. -/
inductive Probe where
  /-- The record at an offset. -/
  | record (offset : Nat)
  /-- The terminated string at an offset that holds no record. -/
  | terminated (offset : Nat)
  /-- The character with the given code. -/
  | letter (code : Int32)
deriving DecidableEq, Repr

/-- An accepted literal, and the offset it was read at if there is one. -/
structure Finding where
  value : String
  offset : Option Nat
deriving DecidableEq, Repr

/-- An accepted literal with the strategy that found it. -/
structure Candidate where
  value : String
  strategy : Strategy
  offset : Option Nat
deriving DecidableEq, Repr

namespace Request

/-- The literal of a record's payload: as UTF-8, else as UTF-16 if that is configured. -/
def payloadText? (request : Request) (payload : List UInt8) : Option String :=
  match request.acceptance.acceptUtf8 payload with
  | some text => some text
  | none =>
    if request.config.utf16 then
      ((Utf16.decode? payload).bind request.acceptance.acceptChars).map String.ofList
    else none

/-- What stands at a probe. -/
def read? (request : Request) : Probe → Option Finding
  | .record offset =>
    ((Blob.recordAt? request.blob offset request.config.maxLength).bind request.payloadText?).map
      fun value => ⟨value, some offset⟩
  | .terminated offset =>
    if (Blob.recordAt? request.blob offset request.config.maxLength).isSome then none
    else
      ((Blob.terminatedAt? request.blob offset request.config.maxLength).bind
        request.acceptance.acceptUtf8).map fun value => ⟨value, some offset⟩
  | .letter code =>
    if 0x20 ≤ code.toInt ∧ code.toInt ≤ 0x7e then
      (request.acceptance.acceptChars [Char.ofNat code.toInt.toNat]).map
        fun chars => ⟨String.ofList chars, none⟩
    else none

/-- The constant under the decoder's chain of arithmetic, if it has one. -/
def transformed (request : Request) : List Int32 :=
  match request.decoder.bind Decoder.transform? with
  | some transform => [transform.apply request.constant]
  | none => []

/-- The constant under each of the keys. -/
def masked (request : Request) (keys : List Int32) : List Int32 :=
  keys.map (request.constant ^^^ ·)

/-- The keys of a single byte. -/
def byteKeys : List Int32 :=
  (List.range 256).map Int32.ofNat

/-- What the record at an offset holds. -/
def recordAt? (request : Request) (offset : Nat) : Option Finding :=
  request.read? (.record offset)

/-- What the records at the offsets of a number hold, the first of them that is accepted. -/
def recordFor? (request : Request) (number : Int32) : Option Finding :=
  (baseOffsets request.blob.size number).findSome? request.recordAt?

/-- The offsets that the strategies before look at, each once. -/
def probedOffsets (request : Request) : List Nat :=
  let constants := request.constant :: request.transformed ++ request.masked request.config.xorKeys
  (constants.flatMap (baseOffsets request.blob.size)).eraseDups

/-- What a strategy finds. -/
def attempt? (request : Request) : Strategy → Option Finding
  | .directOffset => (directOffset? request.blob.size request.constant).bind request.recordAt?
  | .endRelativeOffset => (endOffset? request.blob.size request.constant).bind request.recordAt?
  | .scaledOffset => (scaledOffset? request.blob.size request.constant).bind request.recordAt?
  | .linearTransform => request.transformed.findSome? request.recordFor?
  | .keyedXor => (request.masked request.config.xorKeys).findSome? request.recordFor?
  | .nullTerminated =>
    if request.config.nullTerminated then
      request.probedOffsets.findSome? fun offset => request.read? (.terminated offset)
    else none
  | .exhaustiveXor =>
    if request.config.exhaustiveXor then (request.masked byteKeys).findSome? request.recordFor?
    else none
  | .shortXorChar =>
    (request.masked request.config.shortKeys).findSome? fun code => request.read? (.letter code)

/-- What the first strategy finds that finds anything. -/
def first? (request : Request) (strategies : List Strategy) : Option Candidate :=
  strategies.findSome? fun strategy =>
    (request.attempt? strategy).map fun finding => ⟨finding.value, strategy, finding.offset⟩

/-- The strategies that find nothing, up to the first that does. -/
def missed (request : Request) (strategies : List Strategy) : List Strategy :=
  strategies.takeWhile fun strategy => (request.attempt? strategy).isNone

/-- What the first strategy finds that finds anything, after the strategies that find nothing. -/
def search (request : Request) : List Strategy → List Strategy × Option Candidate
  | [] => ([], none)
  | strategy :: rest =>
    match request.attempt? strategy with
    | some finding => ([], some ⟨finding.value, strategy, finding.offset⟩)
    | none =>
      let (missed, candidate) := request.search rest
      (strategy :: missed, candidate)

theorem search_eq (request : Request) (strategies : List Strategy) :
    request.search strategies = (request.missed strategies, request.first? strategies) := by
  induction strategies with
  | nil => rfl
  | cons strategy rest ih =>
    cases h : request.attempt? strategy <;> simp_all [search, missed, first?]

end Request

/-- The request for a constant of the given population. -/
def Population.request (population : Population) (config : Config) (blob : Bytes)
    (decoder : Option Decoder) (constant : Int32) : Request :=
  ⟨constant, blob, decoder, config, population.acceptance⟩

/-- The literal that a constant stands for. -/
def decode? (config : Config) (blob : Bytes) (decoder : Option Decoder)
    (population : Population) (constant : Int32) : Option Candidate :=
  (population.request config blob decoder constant).first? population.strategies

/-- The literal that a constant stands for, after the strategies that were tried in vain. -/
def decodeTracing (config : Config) (blob : Bytes) (decoder : Option Decoder)
    (population : Population) (constant : Int32) : List Strategy × Option Candidate :=
  (population.request config blob decoder constant).search population.strategies

@[simp] theorem decodeTracing_snd (config : Config) (blob : Bytes) (decoder : Option Decoder)
    (population : Population) (constant : Int32) :
    (decodeTracing config blob decoder population constant).2 =
      decode? config blob decoder population constant := by
  rw [decodeTracing, Request.search_eq, decode?]

end LiteralRecovery
