import Malachite.Types.Context
import Malachite.Lib.BigEndian
import Malachite.Lib.Except

namespace Malachite.Wal

/-! The codec of write-ahead-log entries, `engine/src/wal/entry.rs`.

An entry is a tag byte and its payload: a consensus message or a proposed
value as a big-endian `u64` length and the bytes the codec makes of it, or a
timeout as a step byte and its round as a big-endian `i64`.  The decoder reads
from the front of a byte string and leaves whatever follows the entry.

Besides an `io::Error` the decoder can panic: `vec![0; len]` panics on a length
above `isize::MAX`, and `Round::from(i64)` asserts that the round fits in a
`u32`.  A call's outcome is an `Except Failure`, whose `panic` stands for the
process aborting. -/

/-- `io::ErrorKind`: the two kinds this codec reports. -/
inductive ErrorKind where
  | unexpectedEof
  | invalidData
deriving DecidableEq, Repr

/-- How a call ends without a value: an `io::Error`, or a panic. -/
inductive Failure where
  | io (kind : ErrorKind) (message : String)
  | panic (message : String)
deriving DecidableEq, Repr

/-- `isize::MAX`, the most elements a vector can hold. -/
def isizeMax : Nat := 2 ^ 63 - 1

/-- `u32::MAX`, as `i64::from(u32::MAX)`. -/
def u32Max : Int := 2 ^ 32 - 1

/-- The bytes a codec returns: a buffer of the source, so at most `isize::MAX`
of them. -/
structure Buffer where
  bytes : List UInt8
  bounded : bytes.length ≤ isizeMax

/-- `Codec<T>`: encoding may fail, and a failed decoding reports its error. -/
structure Codec (α : Type) where
  encode : α → Except String Buffer
  decode : List UInt8 → Except String α

/-- The codec decodes what it encodes. -/
def Codec.RoundTrips {α : Type} (codec : Codec α) : Prop :=
  ∀ value buffer, codec.encode value = .ok buffer → codec.decode buffer.bytes = .ok value

/-- `WalCodec<Ctx>`: a codec of signed consensus messages and of proposed values. -/
structure WalCodec (Msg Value : Type) where
  consensusMsg : Codec Msg
  proposedValue : Codec Value

/-- `WalEntry<Ctx>`, over the types of signed consensus messages and of proposed values. -/
inductive WalEntry (Msg Value : Type) where
  | consensusMsg (msg : Msg)
  | timeout (timeout : Timeout)
  | proposedValue (value : Value)
deriving DecidableEq

def tagConsensus : UInt8 := 0x01

def tagTimeout : UInt8 := 0x02

def tagProposedValue : UInt8 := 0x04

/-- `read_exact` on a slice too short for the buffer. -/
def eof : Failure := .io .unexpectedEof "failed to fill whole buffer"

/-- `Read::read_exact` of `count` bytes: the bytes read and the rest. -/
def readExact (count : Nat) (input : List UInt8) : Except Failure (List UInt8 × List UInt8) :=
  match BigEndian.takeBytes count input with
  | some read => .ok read
  | none => .error eof

def readU8 : List UInt8 → Except Failure (UInt8 × List UInt8)
  | [] => .error eof
  | byte :: rest => .ok (byte, rest)

/-- `read_u64::<BE>`. -/
def readU64 (input : List UInt8) : Except Failure (Nat × List UInt8) := do
  let (bytes, rest) ← readExact 8 input
  pure (BigEndian.decode bytes, rest)

/-- `read_i64::<BE>`. -/
def readI64 (input : List UInt8) : Except Failure (Int × List UInt8) := do
  let (bytes, rest) ← readExact 8 input
  pure (BigEndian.decodeI64 bytes, rest)

/-- `vec![0; len]`: a length above `isize::MAX` is a capacity overflow.  The
allocation itself is taken to succeed. -/
def allocate (len : Nat) : Except Failure Unit :=
  if isizeMax < len then .error (.panic "capacity overflow") else .ok ()

/-- `Round::from(i64)`: the assertion, then a negative value is `Nil`. -/
def roundFromI64 (round : Int) : Except Failure Round :=
  if round ≤ u32Max then
    if round < 0 then .ok .nil else .ok (.some round.toNat)
  else .error (.panic "assertion failed: round <= i64::from(u32::MAX)")

section Codec

variable {Msg Value : Type}

/-- `encode_consensus_msg` and `encode_proposed_value`: the two differ only in
the codec, and both report an encoding error as one of a consensus message. -/
def encodePayload {α : Type} (tag : UInt8) (value : α) (codec : Codec α) :
    Except Failure (List UInt8) := do
  let buffer ← (codec.encode value).mapError fun error =>
    Failure.io .invalidData ("failed to encode consensus message: " ++ error)
  pure ([tag] ++ BigEndian.encode 8 buffer.bytes.length ++ buffer.bytes)

def encodeConsensusMsg (tag : UInt8) (msg : Msg) (codec : WalCodec Msg Value) :
    Except Failure (List UInt8) :=
  encodePayload tag msg codec.consensusMsg

def encodeProposedValue (tag : UInt8) (value : Value) (codec : WalCodec Msg Value) :
    Except Failure (List UInt8) :=
  encodePayload tag value codec.proposedValue

/-- The step code of a timeout kind; the codes 4 to 6 of removed kinds are not
written any more. -/
def timeoutStep : TimeoutKind → UInt8
  | .propose => 1
  | .prevote => 2
  | .precommit => 3
  | .rebroadcast => 7

def encodeTimeout (tag : UInt8) (timeout : Timeout) : List UInt8 :=
  [tag, timeoutStep timeout.kind] ++ BigEndian.encodeI64 timeout.round.asI64

def encodeEntry (entry : WalEntry Msg Value) (codec : WalCodec Msg Value) :
    Except Failure (List UInt8) :=
  match entry with
  | .consensusMsg msg => encodeConsensusMsg tagConsensus msg codec
  | .timeout timeout => .ok (encodeTimeout tagTimeout timeout)
  | .proposedValue value => encodeProposedValue tagProposedValue value codec

/-- `decode_consensus_msg` and `decode_proposed_value`, with the text each puts
before the codec's error. -/
def decodePayload {α : Type} (codec : Codec α) (what : String) (input : List UInt8) :
    Except Failure α := do
  let (len, input) ← readU64 input
  allocate len
  let (bytes, _) ← readExact len input
  (codec.decode bytes).mapError fun error =>
    Failure.io .invalidData ("failed to decode " ++ what ++ ": " ++ error)

def decodeConsensusMsg (codec : WalCodec Msg Value) (input : List UInt8) : Except Failure Msg :=
  decodePayload codec.consensusMsg "consensus msg" input

def decodeProposedValue (codec : WalCodec Msg Value) (input : List UInt8) :
    Except Failure Value :=
  decodePayload codec.proposedValue "proposed value" input

/-- The timeout kind of a step code; the removed kinds are reported, not read. -/
def timeoutKind (step : UInt8) : Except Failure TimeoutKind :=
  if step = 1 then .ok .propose
  else if step = 2 then .ok .prevote
  else if step = 3 then .ok .precommit
  else if step = 4 then
    .error (.io .invalidData "commit timeouts are no longer supported, ignoring")
  else if step = 5 ∨ step = 6 then
    .error (.io .invalidData "prevote/precommit time limit timeouts are no longer supported, ignoring")
  else if step = 7 then .ok .rebroadcast
  else .error (.io .invalidData "invalid timeout step")

def decodeTimeout (input : List UInt8) : Except Failure Timeout := do
  let (step, input) ← readU8 input
  let kind ← timeoutKind step
  let (round, _) ← readI64 input
  let round ← roundFromI64 round
  pure ⟨kind, round⟩

def decodeEntry (codec : WalCodec Msg Value) (input : List UInt8) :
    Except Failure (WalEntry Msg Value) := do
  let (tag, input) ← readU8 input
  if tag = tagConsensus then WalEntry.consensusMsg <$> decodeConsensusMsg codec input
  else if tag = tagTimeout then WalEntry.timeout <$> decodeTimeout input
  else if tag = tagProposedValue then WalEntry.proposedValue <$> decodeProposedValue codec input
  else .error (.io .invalidData "invalid tag")

/-- The rounds of an entry fit the source's `u32`: every `Round` of the source
does, while the model's rounds are unbounded. -/
def WalEntry.roundFits : WalEntry Msg Value → Bool
  | .timeout scheduled => decide (scheduled.round.asI64 ≤ u32Max)
  | _ => true

section RoundTrip

theorem readExact_append {front : List UInt8} {count : Nat} (width : front.length = count)
    (rest : List UInt8) : readExact count (front ++ rest) = .ok (front, rest) := by
  simp [readExact, BigEndian.takeBytes_append width]

theorem readU64_encode {len : Nat} (fits : len < 256 ^ 8) (rest : List UInt8) :
    readU64 (BigEndian.encode 8 len ++ rest) = .ok (len, rest) := by
  simp [readU64, readExact_append (BigEndian.length_encode 8 len),
    BigEndian.decode_encode_of_lt fits, bind, Except.bind, pure, Except.pure]

theorem readI64_encodeI64 {value : Int} (low : -2 ^ 63 ≤ value) (high : value < 2 ^ 63)
    (rest : List UInt8) : readI64 (BigEndian.encodeI64 value ++ rest) = .ok (value, rest) := by
  simp [readI64, readExact_append (BigEndian.length_encodeI64 value),
    BigEndian.decodeI64_encodeI64 low high, bind, Except.bind, pure, Except.pure]

theorem roundFromI64_asI64 {round : Round} (fits : round.asI64 ≤ u32Max) :
    roundFromI64 round.asI64 = .ok round := by
  cases round with
  | nil => rfl
  | some round =>
      have notNegative : ¬((round : Int) < 0) := by omega
      simp only [Round.asI64_some] at fits
      simp [roundFromI64, fits, notNegative]

theorem timeoutKind_timeoutStep (kind : TimeoutKind) : timeoutKind (timeoutStep kind) = .ok kind := by
  cases kind <;> rfl

/-- A payload reads back whole, whatever follows it. -/
theorem decodePayload_encodePayload {α : Type} {codec : Codec α} (roundTrips : codec.RoundTrips)
    {tag : UInt8} {value : α} {bytes : List UInt8} (what : String)
    (encoded : encodePayload tag value codec = .ok bytes) :
    ∃ payload, bytes = tag :: payload ∧
      ∀ rest, decodePayload codec what (payload ++ rest) = .ok value := by
  cases buffered : codec.encode value with
  | error error => simp [encodePayload, buffered, Except.mapError, bind, Except.bind] at encoded
  | ok buffer =>
      simp only [encodePayload, buffered, Except.mapError, bind, Except.bind, pure, Except.pure,
        Except.ok.injEq] at encoded
      subst encoded
      refine ⟨BigEndian.encode 8 buffer.bytes.length ++ buffer.bytes, by simp, fun rest => ?_⟩
      -- the length fits in a `u64` and below `isize::MAX`, so the bytes are read back
      have fits : buffer.bytes.length < 256 ^ 8 := by
        have bounded := buffer.bounded
        unfold isizeMax at bounded
        omega
      have allocated : allocate buffer.bytes.length = .ok () := by
        have bounded := buffer.bounded
        simp [allocate, Nat.not_lt.mpr bounded]
      rw [List.append_assoc]
      simp [decodePayload, readU64_encode fits, allocated, readExact_append rfl,
        roundTrips value buffer buffered, Except.mapError, bind, Except.bind]

theorem decodeTimeout_encodeTimeout {timeout : Timeout} (fits : timeout.round.asI64 ≤ u32Max)
    (rest : List UInt8) :
    decodeTimeout (timeoutStep timeout.kind :: (BigEndian.encodeI64 timeout.round.asI64 ++ rest)) =
      .ok timeout := by
  have low : -2 ^ 63 ≤ timeout.round.asI64 := by
    cases timeout.round with
    | nil => decide
    | some round => simp only [Round.asI64_some]; omega
  have high : timeout.round.asI64 < 2 ^ 63 := by
    unfold u32Max at fits
    omega
  simp [decodeTimeout, readU8, timeoutKind_timeoutStep, readI64_encodeI64 low high,
    roundFromI64_asI64 fits, bind, Except.bind, pure, Except.pure]

/-- Decoding an encoded entry gives the entry back, whatever follows it in the
log, for any codec that decodes what it encodes. -/
theorem decodeEntry_encodeEntry {codec : WalCodec Msg Value}
    (messages : codec.consensusMsg.RoundTrips) (values : codec.proposedValue.RoundTrips)
    {entry : WalEntry Msg Value} (fits : entry.roundFits) {bytes : List UInt8}
    (encoded : encodeEntry entry codec = .ok bytes) (rest : List UInt8) :
    decodeEntry codec (bytes ++ rest) = .ok entry := by
  cases entry with
  | consensusMsg msg =>
      obtain ⟨payload, rfl, decoded⟩ :=
        decodePayload_encodePayload messages "consensus msg" encoded
      simp [decodeEntry, readU8, decodeConsensusMsg, decoded, bind, Except.bind,
        Functor.map, Except.map]
  | timeout timeout =>
      simp only [encodeEntry, Except.ok.injEq] at encoded
      subst encoded
      have fitsRound : timeout.round.asI64 ≤ u32Max := by simpa [WalEntry.roundFits] using fits
      have laid : encodeTimeout tagTimeout timeout ++ rest =
          tagTimeout :: timeoutStep timeout.kind :: (BigEndian.encodeI64 timeout.round.asI64 ++ rest) :=
        rfl
      rw [laid]
      simp [decodeEntry, readU8, decodeTimeout_encodeTimeout fitsRound, tagTimeout, tagConsensus,
        bind, Except.bind, Functor.map, Except.map]
  | proposedValue value =>
      obtain ⟨payload, rfl, decoded⟩ :=
        decodePayload_encodePayload values "proposed value" encoded
      simp [decodeEntry, readU8, decodeProposedValue, decoded, tagProposedValue, tagConsensus,
        tagTimeout, bind, Except.bind, Functor.map, Except.map]

/-- A codec of the unit value, writing no bytes. -/
def unitCodec : Codec Unit := ⟨fun _ => .ok ⟨[], Nat.zero_le _⟩, fun _ => .ok ()⟩

/-- A consensus message of the unit codec, followed by the first byte of the next entry. -/
theorem decodeEntry_encodeEntry_unit :
    decodeEntry (⟨unitCodec, unitCodec⟩ : WalCodec Unit Unit)
      ([tagConsensus] ++ BigEndian.encode 8 0 ++ [] ++ [7]) = .ok (.consensusMsg ()) :=
  decodeEntry_encodeEntry (fun _ _ _ => rfl) (fun _ _ _ => rfl) rfl rfl [7]

end RoundTrip

section Panics

theorem readExact_error {count : Nat} {input : List UInt8} {failure : Failure}
    (failed : readExact count input = .error failure) : failure = eof := by
  unfold readExact at failed
  split at failed
  · cases failed
  · exact (Except.error.inj failed).symm

/-- A read that returns has split its bytes off the front. -/
theorem readExact_ok {input front rest : List UInt8} {count : Nat}
    (read : readExact count input = .ok (front, rest)) :
    input = front ++ rest ∧ front.length = count := by
  unfold readExact at read
  split at read
  · next taken =>
      rw [Except.ok.inj read] at taken
      exact BigEndian.takeBytes_eq_some taken
  · cases read

theorem readU8_error {input : List UInt8} {failure : Failure}
    (failed : readU8 input = .error failure) : failure = eof := by
  cases input with
  | nil => exact (Except.error.inj failed).symm
  | cons byte rest => cases failed

theorem readU64_error {input : List UInt8} {failure : Failure}
    (failed : readU64 input = .error failure) : failure = eof := by
  unfold readU64 at failed
  rcases Except.bind_eq_error failed with short | ⟨read, -, returned⟩
  · exact readExact_error short
  · cases returned

theorem readU64_ok {input rest : List UInt8} {len : Nat}
    (read : readU64 input = .ok (len, rest)) :
    ∃ lengthBytes, input = lengthBytes ++ rest ∧ lengthBytes.length = 8 ∧
      len = BigEndian.decode lengthBytes := by
  unfold readU64 at read
  obtain ⟨⟨lengthBytes, after⟩, taken, returned⟩ := Except.bind_eq_ok read
  obtain ⟨rfl, rfl⟩ := Prod.mk.inj (Except.ok.inj returned)
  obtain ⟨split, eight⟩ := readExact_ok taken
  exact ⟨lengthBytes, split, eight, rfl⟩

theorem readI64_error {input : List UInt8} {failure : Failure}
    (failed : readI64 input = .error failure) : failure = eof := by
  unfold readI64 at failed
  rcases Except.bind_eq_error failed with short | ⟨read, -, returned⟩
  · exact readExact_error short
  · cases returned

theorem readI64_ok {input rest : List UInt8} {round : Int}
    (read : readI64 input = .ok (round, rest)) :
    ∃ roundBytes, input = roundBytes ++ rest ∧ roundBytes.length = 8 ∧
      round = BigEndian.decodeI64 roundBytes := by
  unfold readI64 at read
  obtain ⟨⟨roundBytes, after⟩, taken, returned⟩ := Except.bind_eq_ok read
  obtain ⟨rfl, rfl⟩ := Prod.mk.inj (Except.ok.inj returned)
  obtain ⟨split, eight⟩ := readExact_ok taken
  exact ⟨roundBytes, split, eight, rfl⟩

theorem allocate_panic {len : Nat} {failure : Failure} (failed : allocate len = .error failure) :
    isizeMax < len := by
  unfold allocate at failed
  split at failed
  · assumption
  · cases failed

theorem roundFromI64_panic {round : Int} {failure : Failure}
    (failed : roundFromI64 round = .error failure) : u32Max < round := by
  unfold roundFromI64 at failed
  split at failed
  · split at failed <;> cases failed
  · omega

theorem timeoutKind_not_panic {step : UInt8} {message : String} :
    timeoutKind step ≠ .error (.panic message) := by
  unfold timeoutKind
  split_ifs <;> simp

theorem mapError_not_panic {α : Type} (result : Except String α) (text : String → String)
    (message : String) :
    result.mapError (fun error => Failure.io .invalidData (text error)) ≠ .error (.panic message) := by
  cases result <;> simp [Except.mapError]

/-- A payload panics only on a length above `isize::MAX`. -/
theorem decodePayload_panic {α : Type} {codec : Codec α} {what : String} {input : List UInt8}
    {message : String} (panicked : decodePayload codec what input = .error (.panic message)) :
    ∃ lengthBytes rest, input = lengthBytes ++ rest ∧ lengthBytes.length = 8 ∧
      isizeMax < BigEndian.decode lengthBytes := by
  unfold decodePayload at panicked
  rcases Except.bind_eq_error panicked with short | ⟨⟨len, afterLength⟩, lengthRead, allocatedThen⟩
  · cases readU64_error short
  obtain ⟨lengthBytes, split, eight, rfl⟩ := readU64_ok lengthRead
  refine ⟨lengthBytes, afterLength, split, eight, ?_⟩
  rcases Except.bind_eq_error allocatedThen with overflow | ⟨-, -, readThen⟩
  · exact allocate_panic overflow
  -- past the allocation only reads and the codec can fail, and neither panics
  rcases Except.bind_eq_error readThen with short | ⟨⟨bytes, after⟩, -, decoded⟩
  · cases readExact_error short
  · exact absurd decoded (mapError_not_panic _ _ message)

/-- A timeout panics only on a round above `u32::MAX`, after a known step. -/
theorem decodeTimeout_panic {input : List UInt8} {message : String}
    (panicked : decodeTimeout input = .error (.panic message)) :
    ∃ step roundBytes rest, input = step :: (roundBytes ++ rest) ∧ roundBytes.length = 8 ∧
      u32Max < BigEndian.decodeI64 roundBytes := by
  unfold decodeTimeout at panicked
  rcases Except.bind_eq_error panicked with short | ⟨⟨step, afterStep⟩, stepRead, kindThen⟩
  · cases readU8_error short
  have split : input = step :: afterStep := by
    cases input with
    | nil => cases stepRead
    | cons byte rest =>
        obtain ⟨rfl, rfl⟩ := Prod.mk.inj (Except.ok.inj stepRead)
        rfl
  rcases Except.bind_eq_error kindThen with unknown | ⟨kind, -, roundThen⟩
  · exact absurd unknown timeoutKind_not_panic
  rcases Except.bind_eq_error roundThen with short | ⟨⟨round, after⟩, roundRead, convertThen⟩
  · cases readI64_error short
  obtain ⟨roundBytes, splitRound, eight, rfl⟩ := readI64_ok roundRead
  refine ⟨step, roundBytes, after, by rw [split, splitRound], eight, ?_⟩
  dsimp only at convertThen
  rcases Except.bind_eq_error convertThen with overflow | ⟨converted, -, returned⟩
  · exact roundFromI64_panic overflow
  · cases returned

/-- `decode_entry` panics exactly where a timeout's round is above `u32::MAX`
or a payload's length above `isize::MAX`. -/
theorem decodeEntry_panic {codec : WalCodec Msg Value} {input : List UInt8} {message : String}
    (panicked : decodeEntry codec input = .error (.panic message)) :
    (∃ step roundBytes rest, input = tagTimeout :: step :: (roundBytes ++ rest) ∧
        roundBytes.length = 8 ∧ u32Max < BigEndian.decodeI64 roundBytes) ∨
      ∃ tag lengthBytes rest, (tag = tagConsensus ∨ tag = tagProposedValue) ∧
        input = tag :: (lengthBytes ++ rest) ∧ lengthBytes.length = 8 ∧
        isizeMax < BigEndian.decode lengthBytes := by
  cases input with
  | nil => cases panicked
  | cons tag payload =>
      simp only [decodeEntry, readU8, bind, Except.bind] at panicked
      split_ifs at panicked with consensus timeout proposed
      · obtain ⟨lengthBytes, rest, split, eight, overflow⟩ :=
          decodePayload_panic (Except.map_eq_error panicked)
        exact Or.inr ⟨tag, lengthBytes, rest, Or.inl consensus, by rw [split], eight, overflow⟩
      · obtain ⟨step, roundBytes, rest, split, eight, overflow⟩ :=
          decodeTimeout_panic (Except.map_eq_error panicked)
        exact Or.inl ⟨step, roundBytes, rest, by rw [timeout, split], eight, overflow⟩
      · obtain ⟨lengthBytes, rest, split, eight, overflow⟩ :=
          decodePayload_panic (Except.map_eq_error panicked)
        exact Or.inr ⟨tag, lengthBytes, rest, Or.inr proposed, by rw [split], eight, overflow⟩
      · cases panicked

/-- Both panics are reached from ten and nine bytes, whatever the codecs: a
timeout whose round is 2^32, and a consensus message whose length is 2^64 - 1. -/
theorem crafted_entries_panic (codec : WalCodec Msg Value) :
    decodeEntry codec [tagTimeout, 0x01, 0x00, 0x00, 0x00, 0x01, 0x00, 0x00, 0x00, 0x00] =
        .error (.panic "assertion failed: round <= i64::from(u32::MAX)") ∧
      decodeEntry codec (tagConsensus :: List.replicate 8 0xFF) =
        .error (.panic "capacity overflow") := by
  have readRound : readI64 [0x00, 0x00, 0x00, 0x01, 0x00, 0x00, 0x00, 0x00] = .ok (2 ^ 32, []) := by
    simp [readI64, readExact, BigEndian.takeBytes, bind, Except.bind, pure, Except.pure]
    decide
  have readLength :
      readU64 [0xFF, 0xFF, 0xFF, 0xFF, 0xFF, 0xFF, 0xFF, 0xFF] = .ok (2 ^ 64 - 1, []) := by
    simp [readU64, readExact, BigEndian.takeBytes, bind, Except.bind, pure, Except.pure]
    decide
  constructor
  · simp [decodeEntry, decodeTimeout, readU8, timeoutKind, readRound, roundFromI64, u32Max,
      bind, Except.bind, tagTimeout, tagConsensus]
  · simp [decodeEntry, decodeConsensusMsg, decodePayload, readU8, List.replicate, readLength,
      allocate, isizeMax, bind, Except.bind, tagConsensus]

end Panics

end Codec

end Malachite.Wal
