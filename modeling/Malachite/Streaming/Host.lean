import Malachite.Streaming.Message
import Malachite.Lib.KeyMap

/-! The reassembler of the Starknet host (`starknet/host/src/streaming.rs`): parts are handed
on as soon as they connect to what was handed on before.  Each stream's state holds the
messages that do not connect yet in a heap, and the next sequence to hand on; a message that
fills the gap lets `emit_eligible_messages` pop every message that now connects.

The stream's entry is removed once every message, `Fin` included, has been emitted.  A copy
of a message that arrives after that finds no entry and starts the stream again: a copy of
the first message hands the init part on a second time, and the new entry stays.  A first
message that carries no init part stops the reassembler at the `unwrap` of `insert_first`. -/

namespace Malachite.Streaming.Host

open Sync (Panic u64Bound)

variable {Init τ : Type}

/-- `StreamState` of the host. -/
structure StreamState (Init τ : Type) where
  buffer : List (StreamMessage τ)
  initInfo : Option Init
  seenSequences : List Nat
  nextSequence : Nat
  totalMessages : Nat
  finReceived : Bool
  emittedMessages : Nat

namespace StreamState

/-- `StreamState::default`. -/
def default : StreamState Init τ := ⟨[], none, [], 0, 0, false, 0⟩

/-- `StreamState::has_emitted_all_messages`. -/
def hasEmittedAllMessages (state : StreamState Init τ) : Bool :=
  state.finReceived && state.emittedMessages == state.totalMessages

/-- `StreamState::emit`: hand the message's data on, and move past its sequence.  The
sequence and the count grow by one per message emitted, in order from 0, so neither reaches
`u64::MAX` and the model counts on `Nat`. -/
def emit (state : StreamState Init τ) (msg : StreamMessage τ) (toEmit : List τ) :
    StreamState Init τ × List τ :=
  ({ state with nextSequence := msg.sequence + 1, emittedMessages := state.emittedMessages + 1 },
    toEmit ++ msg.content.asData.toList)

/-- The loop of `emit_eligible_messages` over the heap, least sequence first: pop and emit
while the least sequence is the next one; what is left is the heap. -/
def emitEligible :
    List (StreamMessage τ) → StreamState Init τ → List τ → StreamState Init τ × List τ
  | [], state, toEmit => ({ state with buffer := [] }, toEmit)
  | msg :: rest, state, toEmit =>
      if msg.sequence = state.nextSequence then
        let (state, toEmit) := emit state msg toEmit
        emitEligible rest state toEmit
      else ({ state with buffer := msg :: rest }, toEmit)

/-- `StreamState::emit_eligible_messages`. -/
def emitEligibleMessages (state : StreamState Init τ) (toEmit : List τ) :
    StreamState Init τ × List τ :=
  emitEligible state.buffer state toEmit

section Emit

variable {streamId : StreamId}

/-- How far the sequences seen run on from `start`, one after the other, within the stream
of `parts` from `start`: the messages `emit_eligible_messages` emits in a row. -/
def reach (seen : Nat → Bool) (start : Nat) : List τ → Nat
  | [] => if seen start then 1 else 0
  | _ :: rest => if seen start then reach seen (start + 1) rest + 1 else 0

theorem reach_le (seen : Nat → Bool) (start : Nat) (parts : List τ) :
    reach seen start parts ≤ parts.length + 1 := by
  induction parts generalizing start with
  | nil => simp only [reach]; split <;> simp
  | cons part rest ih =>
      have := ih (start + 1)
      simp only [reach, List.length_cons]
      split <;> omega

theorem seen_of_lt_reach {seen : Nat → Bool} {start i : Nat} {parts : List τ}
    (below : i < reach seen start parts) : seen (start + i) = true := by
  induction parts generalizing start i with
  | nil =>
      simp only [reach] at below
      split at below
      · next seenStart => rw [show i = 0 by omega, Nat.add_zero]; exact seenStart
      · omega
  | cons part rest ih =>
      simp only [reach] at below
      split at below
      · next seenStart =>
          cases i with
          | zero => exact seenStart
          | succ i =>
              rw [show start + (i + 1) = start + 1 + i by omega]
              exact ih (by omega)
      · omega

/-- The run stops at a sequence not seen, unless it took the whole stream. -/
theorem reach_gap {seen : Nat → Bool} {start : Nat} {parts : List τ}
    (short : reach seen start parts ≤ parts.length) :
    seen (start + reach seen start parts) = false := by
  induction parts generalizing start with
  | nil =>
      cases seenStart : seen start with
      | false => simp [reach, seenStart]
      | true => simp [reach, seenStart] at short
  | cons part rest ih =>
      simp only [reach, List.length_cons] at short ⊢
      split
      · next seenStart =>
          rw [if_pos seenStart] at short
          rw [show start + (reach seen (start + 1) rest + 1) =
            start + 1 + reach seen (start + 1) rest by omega]
          exact ih (by omega)
      · next unseen => simpa using unseen

/-- Where every sequence of the first `k` was seen, the run goes through them. -/
theorem reach_eq_add {seen : Nat → Bool} {start k : Nat} {parts : List τ}
    (seenBelow : ∀ i < k, seen (start + i) = true) (within : k ≤ parts.length) :
    reach seen start parts = k + reach seen (start + k) (parts.drop k) := by
  induction k generalizing start parts with
  | zero => simp
  | succ k ih =>
      cases parts with
      | nil => simp at within
      | cons part rest =>
          have first : seen start = true := by simpa using seenBelow 0 (by omega)
          have later := @ih (start + 1) rest
            (fun i below => by
              rw [show start + 1 + i = start + (i + 1) by omega]
              exact seenBelow _ (by omega))
            (by simpa using within)
          simp only [reach, first, if_true, List.drop_succ_cons, later]
          rw [show start + 1 + k = start + (k + 1) by omega]
          omega

/-- The heap's messages past the emitted run are those of the stream from its end. -/
theorem filter_streamFrom_from {seen : Nat → Bool} {start k : Nat} {parts : List τ}
    (within : k ≤ parts.length) :
    ((streamFrom streamId start parts).filter fun msg =>
        seen msg.sequence && decide (start + k ≤ msg.sequence)) =
      (streamFrom streamId (start + k) (parts.drop k)).filter fun msg => seen msg.sequence := by
  rw [← filter_streamFrom_le within, List.filter_filter]

theorem reach_of_unseen {seen : Nat → Bool} {start : Nat} (unseen : seen start = false)
    (parts : List τ) : reach seen start parts = 0 := by
  cases parts <;> simp [reach, unseen]

/-- The parts handed on so far, and those handed on next, join up. -/
theorem drop_take_append {l : List τ} {a b c : Nat} (ab : a ≤ b) (bc : b ≤ c) :
    (l.take b).drop a ++ (l.take c).drop b = (l.take c).drop a := by
  have front : l.take b = (l.take c).take b := by rw [List.take_take, Nat.min_eq_left bc]
  calc (l.take b).drop a ++ (l.take c).drop b
      = ((l.take c).drop a).take (b - a) ++ ((l.take c).drop a).drop (b - a) := by
        rw [front, List.drop_take, List.drop_drop, Nat.add_sub_cancel' ab]
    _ = (l.take c).drop a := List.take_append_drop _ _

@[simp] theorem reach_seenIn_nil (parts : List τ) :
    reach (seenIn ([] : List (StreamMessage τ))) 0 parts = 0 :=
  reach_of_unseen (by simp [seenIn]) parts

/-- Seeing more sequences runs at least as far. -/
theorem reach_mono {seen more : Nat → Bool}
    (grows : ∀ sequence, seen sequence → more sequence) (start : Nat) (parts : List τ) :
    reach seen start parts ≤ reach more start parts := by
  induction parts generalizing start with
  | nil =>
      simp only [reach]
      cases seenStart : seen start
      · simp
      · simp [grows start seenStart]
  | cons part rest ih =>
      simp only [reach]
      cases seenStart : seen start
      · simp
      · have := ih (start + 1)
        simp only [grows start seenStart, if_true]
        omega

@[simp] theorem initInfo_emitEligible (heap : List (StreamMessage τ)) (state : StreamState Init τ)
    (toEmit : List τ) : (emitEligible heap state toEmit).1.initInfo = state.initInfo := by
  induction heap generalizing state toEmit with
  | nil => rfl
  | cons msg rest ih =>
      simp only [emitEligible]
      split
      · exact ih _ _
      · rfl

theorem emitEligible_stop {heap : List (StreamMessage τ)} {state : StreamState Init τ}
    (toEmit : List τ) (stop : ∀ msg ∈ heap.head?, msg.sequence ≠ state.nextSequence) :
    emitEligible heap state toEmit = ({ state with buffer := heap }, toEmit) := by
  cases heap with
  | nil => rfl
  | cons msg rest => simp [emitEligible, stop msg rfl]

/-- `emit_eligible_messages` on a heap that holds the messages seen of the stream from the
next sequence on: it emits the run of sequences seen from there, and keeps the rest. -/
theorem emitEligible_streamFrom (seen : Nat → Bool) (start : Nat) (parts : List τ)
    (state : StreamState Init τ) (toEmit : List τ) (atStart : state.nextSequence = start) :
    emitEligible ((streamFrom streamId start parts).filter fun msg => seen msg.sequence) state
        toEmit =
      ({ state with
          buffer := (streamFrom streamId start parts).filter fun msg =>
            seen msg.sequence && decide (start + reach seen start parts ≤ msg.sequence)
          nextSequence := start + reach seen start parts
          emittedMessages := state.emittedMessages + reach seen start parts },
        toEmit ++ parts.take (reach seen start parts)) := by
  -- induction on the stream, the heap losing its least message at each emission
  induction parts generalizing start state toEmit with
  | nil =>
      cases seenStart : seen start
      · rw [streamFrom, List.filter_singleton, seenStart, cond_false,
          emitEligible_stop _ (by simp)]
        subst atStart
        simp [reach, seenStart]
      · simp [streamFrom, seenStart, emitEligible, emit, atStart, reach, StreamContent.asData]
  | cons part rest ih =>
      cases seenStart : seen start
      · have later : ∀ msg ∈ ((streamFrom streamId (start + 1) rest).filter fun msg =>
            seen msg.sequence).head?, msg.sequence ≠ state.nextSequence := by
          intro msg member
          have := (sequence_of_mem_streamFrom
            (List.mem_of_mem_filter (List.mem_of_mem_head? member))).1
          omega
        rw [streamFrom, List.filter_cons, seenStart, if_neg (by simp), emitEligible_stop _ later]
        simp only [reach, seenStart, Bool.false_eq_true, if_false, Nat.add_zero, List.take_zero,
          List.append_nil, List.filter_cons]
        -- nothing is emitted, and the heap keeps every message seen: all are from `start + 1` on
        have kept : ((streamFrom streamId (start + 1) rest).filter fun msg =>
            seen msg.sequence && decide (start ≤ msg.sequence)) =
            (streamFrom streamId (start + 1) rest).filter fun msg => seen msg.sequence := by
          refine List.filter_congr fun msg member => ?_
          have := (sequence_of_mem_streamFrom member).1
          simp [show start ≤ msg.sequence by omega]
        simp only [Bool.false_and, Bool.false_eq_true, if_false, kept, atStart]
      · rw [streamFrom, List.filter_cons, seenStart, if_pos rfl]
        simp only [emitEligible, atStart, if_true, emit]
        rw [ih (start + 1) _ _ rfl]
        simp only [reach, seenStart, if_true, List.filter_cons, List.take_succ_cons,
          StreamContent.asData, Option.toList_some, List.append_assoc, List.singleton_append]
        -- the message at `start` is emitted, and the rest of the run follows it
        have past : ¬start + (reach seen (start + 1) rest + 1) ≤ start := by omega
        rw [show start + 1 + reach seen (start + 1) rest =
            start + (reach seen (start + 1) rest + 1) by omega,
          show state.emittedMessages + 1 + reach seen (start + 1) rest =
            state.emittedMessages + (reach seen (start + 1) rest + 1) by omega]
        simp only [past, decide_false, Bool.and_false, Bool.false_eq_true, if_false]

end Emit

end StreamState

open StreamState

/-- `PartStreamsMap::insert_first`: the first message is emitted at once, with whatever
connects to it, and the init part is unwrapped. -/
def insertFirst (asInit : τ → Option Init) (state : StreamState Init τ)
    (msg : StreamMessage τ) :
    StreamState Init τ × Except Panic (Option (ProposalParts Init τ)) :=
  let state := { state with initInfo := msg.content.asData.bind asInit }
  let (state, toEmit) := emit state msg []
  let (state, toEmit) := emitEligibleMessages state toEmit
  match state.initInfo with
  | none => (state, .error .unwrapNone)
  | some init => (state, .ok (some ⟨init, toEmit⟩))

/-- `PartStreamsMap::insert_other`: the message goes to the heap, and whatever connects is
handed on.  The length the `Fin` message announces, `msg.sequence as usize + 1`, overflows at
`u64::MAX`. -/
def insertOther (state : StreamState Init τ) (msg : StreamMessage τ) :
    StreamState Init τ × Except Panic (Option (ProposalParts Init τ)) :=
  if msg.isFin && decide (u64Bound ≤ msg.sequence + 1) then
    ({ state with finReceived := true }, .error .overflow)
  else
    let state :=
      if msg.isFin then { state with finReceived := true, totalMessages := msg.sequence + 1 }
      else state
    let state := { state with buffer := push state.buffer msg }
    let (state, toEmit) := emitEligibleMessages state []
    if toEmit.isEmpty then (state, .ok none)
    else
      match state.initInfo with
      | none => (state, .error .unwrapNone)
      | some init => (state, .ok (some ⟨init, toEmit⟩))

/-- The state once `insert_other` has recorded a message that does not overflow and pushed
it, before it emits what connects. -/
def filed (state : StreamState Init τ) (msg : StreamMessage τ) : StreamState Init τ :=
  { state with
    buffer := push state.buffer msg
    totalMessages := if msg.isFin then msg.sequence + 1 else state.totalMessages
    finReceived := msg.isFin || state.finReceived }

theorem insertOther_eq {state : StreamState Init τ} {msg : StreamMessage τ}
    (fits : (msg.isFin && decide (u64Bound ≤ msg.sequence + 1)) = false) :
    insertOther state msg =
      match emitEligibleMessages (filed state msg) [] with
      | (state, toEmit) =>
          if toEmit.isEmpty then (state, .ok none)
          else
            match state.initInfo with
            | none => (state, .error .unwrapNone)
            | some init => (state, .ok (some ⟨init, toEmit⟩)) := by
  simp only [insertOther, fits, Bool.false_eq_true, if_false]
  unfold filed
  cases msg.isFin <;> rfl

variable {Peer : Type} [DecidableEq Peer]

/-- `PartStreamsMap`: the state of each stream, by sender and stream id. -/
abbrev PartStreamsMap (Peer Init τ : Type) := List ((Peer × StreamId) × StreamState Init τ)

/-- `PartStreamsMap::insert`.  The entry is created by `or_default` before the sequence is
checked, and removed once every message of the stream has been emitted. -/
def insert (asInit : τ → Option Init) (streams : PartStreamsMap Peer Init τ) (peerId : Peer)
    (msg : StreamMessage τ) :
    PartStreamsMap Peer Init τ × Except Panic (Option (ProposalParts Init τ)) :=
  let key := (peerId, msg.streamId)
  let state := (KeyMap.get? streams key).getD .default
  if msg.sequence ∈ state.seenSequences then (KeyMap.insert streams key state, .ok none)
  else
    let state := { state with seenSequences := msg.sequence :: state.seenSequences }
    match if msg.isFirst then insertFirst asInit state msg else insertOther state msg with
    | (state, .error panic) => (KeyMap.insert streams key state, .error panic)
    | (state, .ok result) =>
        if state.hasEmittedAllMessages then (KeyMap.retain streams (· != key), .ok result)
        else (KeyMap.insert streams key state, .ok result)

/-- The messages of one sender inserted in turn: the final map and what each call returned. -/
def run (asInit : τ → Option Init) (streams : PartStreamsMap Peer Init τ) (peerId : Peer) :
    List (StreamMessage τ) →
      PartStreamsMap Peer Init τ × List (Except Panic (Option (ProposalParts Init τ)))
  | [] => (streams, [])
  | msg :: rest =>
      let inserted := insert asInit streams peerId msg
      let after := run asInit inserted.1 peerId rest
      (after.1, inserted.2 :: after.2)

/-- What a call returns when the parts `handed` connect: nothing when there are none. -/
def handedOn (init : Init) (handed : List τ) : Option (ProposalParts Init τ) :=
  if handed = [] then none else some ⟨init, handed⟩

/-- The parts a call handed on. -/
def handedParts : Except Panic (Option (ProposalParts Init τ)) → List τ
  | .ok (some proposal) => proposal.parts
  | _ => []

/-! ### What the entry of a stream holds -/

section Tracking

variable (asInit : τ → Option Init) (streamId : StreamId) (parts : List τ)

/-- The state of a stream's entry after the messages `delivered` of the stream: the sequences
seen are those delivered, every message up to the first gap was emitted, the heap holds the
delivered messages past it, the init part is set once sequence 0 arrived, and the length is
known once the `Fin` message arrived. -/
structure Tracks (delivered : List (StreamMessage τ)) (state : StreamState Init τ) : Prop where
  seen : ∀ sequence, sequence ∈ state.seenSequences ↔ seenIn delivered sequence = true
  nextSequence : state.nextSequence = reach (seenIn delivered) 0 parts
  emittedMessages : state.emittedMessages = state.nextSequence
  buffer : ¬Covers streamId parts delivered →
    state.buffer = (streamFrom streamId state.nextSequence (parts.drop state.nextSequence)).filter
      fun msg => seenIn delivered msg.sequence
  initInfo : state.initInfo = if seenIn delivered 0 then parts.head?.bind asInit else none
  finReceived : state.finReceived = seenIn delivered parts.length
  totalMessages : state.finReceived = true → state.totalMessages = parts.length + 1

theorem tracks_default : Tracks asInit streamId parts [] (.default : StreamState Init τ) := by
  have nothing : seenIn ([] : List (StreamMessage τ)) = fun _ => false := by
    funext sequence
    simp [seenIn]
  refine ⟨?_, ?_, rfl, fun _ => ?_, ?_, ?_, ?_⟩ <;> cases parts <;>
    simp [StreamState.default, nothing, reach]

variable {asInit streamId parts}

/-- The run of sequences seen from 0 takes the whole stream exactly when it is covered. -/
theorem reach_eq_length_iff {delivered : List (StreamMessage τ)} :
    reach (seenIn delivered) 0 parts = parts.length + 1 ↔ Covers streamId parts delivered := by
  rw [covers_iff]
  constructor
  · intro whole sequence atMost
    have seen := seen_of_lt_reach (show sequence < reach (seenIn delivered) 0 parts by omega)
    rw [Nat.zero_add] at seen
    exact seenIn_iff.mp seen
  · intro every
    by_contra incomplete
    have short : reach (seenIn delivered) 0 parts ≤ parts.length := by
      have := reach_le (seenIn delivered) 0 parts
      omega
    have gap := reach_gap short
    rw [Nat.zero_add, seenIn_iff.mpr (every _ short)] at gap
    cases gap

/-- The entry is done with exactly when the stream is covered. -/
theorem Tracks.hasEmittedAllMessages_iff {delivered : List (StreamMessage τ)}
    {state : StreamState Init τ} (tracks : Tracks asInit streamId parts delivered state) :
    state.hasEmittedAllMessages = true ↔ Covers streamId parts delivered := by
  rw [← reach_eq_length_iff, hasEmittedAllMessages, Bool.and_eq_true, beq_iff_eq,
    tracks.emittedMessages, tracks.nextSequence]
  constructor
  · rintro ⟨received, emitted⟩
    rw [emitted, tracks.totalMessages received]
  · intro whole
    have received : state.finReceived = true := by
      rw [tracks.finReceived]
      have := seen_of_lt_reach (show parts.length < reach (seenIn delivered) 0 parts by omega)
      rwa [Nat.zero_add] at this
    exact ⟨received, by rw [whole, tracks.totalMessages received]⟩

/-- The parts of the sequences delivered one after the other from 0. -/
def connected (parts : List τ) (delivered : List (StreamMessage τ)) : List τ :=
  parts.take (reach (seenIn delivered) 0 parts)

variable (asInit streamId parts) in
/-- A state about to emit what connects, after the messages `delivered`: as `Tracks` says,
but with the heap holding every delivered message from the next sequence on, which need not
be a gap yet. -/
structure Ready (delivered : List (StreamMessage τ)) (state : StreamState Init τ) : Prop where
  seen : ∀ sequence, sequence ∈ state.seenSequences ↔ seenIn delivered sequence = true
  below : ∀ i < state.nextSequence, seenIn delivered i = true
  bound : state.nextSequence ≤ parts.length
  emittedMessages : state.emittedMessages = state.nextSequence
  buffer : state.buffer =
    (streamFrom streamId state.nextSequence (parts.drop state.nextSequence)).filter
      fun msg => seenIn delivered msg.sequence
  initInfo : state.initInfo = if seenIn delivered 0 then parts.head?.bind asInit else none
  finReceived : state.finReceived = seenIn delivered parts.length
  totalMessages : state.finReceived = true → state.totalMessages = parts.length + 1

/-- `emit_eligible_messages` from a ready state emits the connected parts past the next
sequence, and leaves a state that tracks the delivery. -/
theorem Ready.emitEligibleMessages {delivered : List (StreamMessage τ)}
    {state : StreamState Init τ} (ready : Ready asInit streamId parts delivered state)
    (toEmit : List τ) :
    Tracks asInit streamId parts delivered (emitEligibleMessages state toEmit).1 ∧
      (emitEligibleMessages state toEmit).2 =
        toEmit ++ (connected parts delivered).drop state.nextSequence ∧
      (emitEligibleMessages state toEmit).1.initInfo = state.initInfo := by
  have reached : reach (seenIn delivered) 0 parts = state.nextSequence +
      reach (seenIn delivered) state.nextSequence (parts.drop state.nextSequence) := by
    have split : reach (seenIn delivered) 0 parts = state.nextSequence +
        reach (seenIn delivered) (0 + state.nextSequence) (parts.drop state.nextSequence) :=
      reach_eq_add (fun i before => by rw [Nat.zero_add]; exact ready.below i before) ready.bound
    rwa [Nat.zero_add] at split
  rw [StreamState.emitEligibleMessages, ready.buffer,
    emitEligible_streamFrom _ state.nextSequence _ state toEmit rfl]
  refine ⟨⟨ready.seen, reached.symm, by dsimp only; rw [ready.emittedMessages],
    fun incomplete => ?_, ready.initInfo, ready.finReceived, ready.totalMessages⟩,
    by rw [connected, reached, List.take_drop], rfl⟩
  -- the run stops before the end of the stream, at the first sequence not delivered
  have short : reach (seenIn delivered) state.nextSequence (parts.drop state.nextSequence) ≤
      (parts.drop state.nextSequence).length := by
    have := reach_le (seenIn delivered) 0 parts
    have := mt reach_eq_length_iff.mp incomplete
    rw [List.length_drop]
    omega
  dsimp only
  rw [filter_streamFrom_from short, List.drop_drop]

section Step

variable {delivered : List (StreamMessage τ)} {state : StreamState Init τ}
  {msg : StreamMessage τ} {init : Init} (tracks : Tracks asInit streamId parts delivered state)
  (pending : ¬Covers streamId parts delivered) (member : msg ∈ streamOf streamId parts)
  (fresh : seenIn delivered msg.sequence = false) (first : parts.head?.bind asInit = some init)
include tracks pending member fresh first

/-- `insert_first` on the message of sequence 0: it emits the init part and every part that
connects to it. -/
theorem Tracks.insertFirst (isFirst : msg.sequence = 0) :
    (insertFirst asInit { state with seenSequences := msg.sequence :: state.seenSequences } msg).2 =
        .ok (some ⟨init, connected parts (delivered ++ [msg])⟩) ∧
      Tracks asInit streamId parts (delivered ++ [msg])
        (insertFirst asInit
          { state with seenSequences := msg.sequence :: state.seenSequences } msg).1 := by
  obtain ⟨part, rest, rfl⟩ := List.exists_cons_of_ne_nil (show parts ≠ [] by
    rintro rfl
    simp at first)
  have unseenFirst : seenIn delivered 0 = false := isFirst ▸ fresh
  have next0 : state.nextSequence = 0 := by
    rw [tracks.nextSequence]
    simp [reach, unseenFirst]
  have seenFirst : seenIn (delivered ++ [msg]) 0 = true := by simp [seenIn_append_single, isFirst]
  have sameLater : ∀ sequence, 0 < sequence →
      seenIn (delivered ++ [msg]) sequence = seenIn delivered sequence := by
    intro sequence later
    simp [seenIn_append_single, isFirst, Nat.ne_of_lt later]
  -- the heap holds the messages delivered past the first
  have heap : state.buffer = (streamFrom streamId 1 rest).filter fun other =>
      seenIn (delivered ++ [msg]) other.sequence := by
    rw [tracks.buffer pending, next0]
    simp only [List.drop_zero, streamFrom, List.filter_cons, unseenFirst, Bool.false_eq_true,
      if_false, Nat.zero_add]
    refine List.filter_congr fun other later => ?_
    exact (sameLater _ (sequence_of_mem_streamFrom later).1).symm
  have initialised : msg.content.asData.bind asInit = some init := by
    rw [asData_of_sequence_zero member isFirst]
    exact first
  have firstPart : msg.content.asData.toList = [part] := by
    rw [asData_of_sequence_zero member isFirst]
    rfl
  -- once the first message is emitted, the state is ready to emit what connects to it
  have ready : Ready asInit streamId (part :: rest) (delivered ++ [msg])
      { state with
        seenSequences := msg.sequence :: state.seenSequences
        initInfo := msg.content.asData.bind asInit
        nextSequence := msg.sequence + 1
        emittedMessages := state.emittedMessages + 1 } := by
    refine ⟨seen_cons_iff tracks.seen, fun i before => ?_, by simp [isFirst], ?_, ?_, ?_, ?_,
      tracks.totalMessages⟩ <;> try dsimp only
    · have zero : i = 0 := by
        dsimp only at before
        omega
      rw [zero]
      exact seenFirst
    · rw [tracks.emittedMessages, next0, isFirst]
    · rw [heap, isFirst]
      rfl
    · rw [seenFirst, if_pos rfl, initialised, first]
    · rw [tracks.finReceived, sameLater _ (by simp)]
  obtain ⟨tracked, handed, initKept⟩ :=
    ready.emitEligibleMessages ([] ++ msg.content.asData.toList)
  have reached : connected (part :: rest) (delivered ++ [msg]) =
      part :: rest.take (reach (seenIn (delivered ++ [msg])) 1 rest) := by
    simp [connected, reach, seenFirst]
  simp only [insertFirst, emit]
  rw [initKept]
  split
  next noInit => simp [initialised] at noInit
  next found initFound =>
    have same : found = init := by
      simp only [initialised, Option.some.injEq] at initFound
      exact initFound.symm
    refine ⟨?_, tracked⟩
    rw [handed, firstPart, reached, isFirst, same]
    rfl

/-- `insert_other` on a message past sequence 0: it pushes the message and emits whatever now
connects to the parts emitted before. -/
theorem Tracks.insertOther (notFirst : msg.sequence ≠ 0) (short : parts.length + 1 < u64Bound) :
    (insertOther { state with seenSequences := msg.sequence :: state.seenSequences } msg).2 =
        .ok (handedOn init ((connected parts (delivered ++ [msg])).drop state.nextSequence)) ∧
      Tracks asInit streamId parts (delivered ++ [msg])
        (insertOther
          { state with seenSequences := msg.sequence :: state.seenSequences } msg).1 := by
  have bound : state.nextSequence ≤ parts.length := by
    have := reach_le (seenIn delivered) 0 parts
    have := mt reach_eq_length_iff.mp pending
    rw [tracks.nextSequence]
    omega
  have below : ∀ i < state.nextSequence, seenIn delivered i = true := fun i before => by
    have seen := seen_of_lt_reach (show i < reach (seenIn delivered) 0 parts by
      rw [← tracks.nextSequence]
      exact before)
    rwa [Nat.zero_add] at seen
  have sameFirst : seenIn (delivered ++ [msg]) 0 = seenIn delivered 0 := by
    simp [seenIn_append_single, notFirst]
  -- every sequence before the next one was delivered, so the message comes at it or later
  have after : state.nextSequence ≤ msg.sequence := by
    by_contra earlier
    have := below msg.sequence (by omega)
    rw [fresh] at this
    cases this
  have suffix : msg ∈ streamFrom streamId state.nextSequence (parts.drop state.nextSequence) := by
    have later :
        (streamOf streamId parts).filter (fun other => 0 + state.nextSequence ≤ other.sequence) =
          streamFrom streamId (0 + state.nextSequence) (parts.drop state.nextSequence) :=
      filter_streamFrom_le bound
    rw [Nat.zero_add] at later
    rw [← later]
    exact List.mem_filter.mpr ⟨member, by simpa using after⟩
  -- once the message is pushed, the state is ready to emit what connects
  have ready : Ready asInit streamId parts (delivered ++ [msg])
      (filed { state with seenSequences := msg.sequence :: state.seenSequences } msg) := by
    refine ⟨seen_cons_iff tracks.seen, fun i before => ?_, bound, tracks.emittedMessages, ?_, ?_,
      ?_, fun received => ?_⟩ <;> dsimp only [filed] at *
    · rw [seenIn_append_single, below i before, Bool.true_or]
    · rw [tracks.buffer pending]
      simp only [seenIn_append_single]
      exact push_filter (streamFrom_increasing _ _) suffix fresh
    · rw [tracks.initInfo, sameFirst]
    · rw [tracks.finReceived, seenIn_append_single, isFin_eq member, Bool.or_comm]
    · cases fin : msg.isFin
      · simp only [fin, Bool.false_or] at received
        simpa [fin] using tracks.totalMessages received
      · simp [(isFin_iff_of_mem member).mp fin]
  obtain ⟨tracked, handed, initKept⟩ := ready.emitEligibleMessages []
  rw [insertOther_eq (fits_of_mem member short)]
  simp only [handed, List.nil_append]
  rw [initKept]
  dsimp only [filed]
  by_cases nothing : (connected parts (delivered ++ [msg])).drop state.nextSequence = []
  · simp only [nothing, List.isEmpty_nil, if_true, handedOn]
    exact ⟨trivial, tracked⟩
  · -- parts are emitted only once the message fills the gap, which is past sequence 0
    have gap : seenIn delivered state.nextSequence = false := by
      have unseen := reach_gap (show reach (seenIn delivered) 0 parts ≤ parts.length by
        rw [← tracks.nextSequence]
        exact bound)
      rwa [Nat.zero_add, ← tracks.nextSequence] at unseen
    have longer : state.nextSequence < reach (seenIn (delivered ++ [msg])) 0 parts := by
      by_contra atMost
      apply nothing
      rw [List.drop_eq_nil_iff, connected, List.length_take]
      omega
    have filled := seen_of_lt_reach longer
    rw [Nat.zero_add, seenIn_append_single, gap, Bool.false_or, beq_iff_eq] at filled
    have initialised : state.initInfo = some init := by
      rw [tracks.initInfo, if_pos (below 0 (by omega)), first]
    simp only [List.isEmpty_iff, nothing, if_false, handedOn]
    split
    next noInit =>
      rw [initialised] at noInit
      cases noInit
    next found initFound =>
      rw [initialised, Option.some.injEq] at initFound
      subst initFound
      exact ⟨rfl, tracked⟩

/-- A message whose sequence is new goes to `insert_first` or `insert_other`, which hand on
the parts that now connect, past those handed on before, and leave a state that tracks the
delivery. -/
theorem Tracks.insertUnseen (short : parts.length + 1 < u64Bound) :
    ∃ after,
      (if msg.isFirst then
        Host.insertFirst asInit
          { state with seenSequences := msg.sequence :: state.seenSequences } msg
      else Host.insertOther
          { state with seenSequences := msg.sequence :: state.seenSequences } msg) =
        (after,
          .ok (handedOn init ((connected parts (delivered ++ [msg])).drop state.nextSequence))) ∧
      Tracks asInit streamId parts (delivered ++ [msg]) after := by
  by_cases isFirst : msg.sequence = 0
  · obtain ⟨returned, tracked⟩ := tracks.insertFirst pending member fresh first isFirst
    have next0 : state.nextSequence = 0 := by
      rw [tracks.nextSequence]
      exact reach_of_unseen (isFirst ▸ fresh) parts
    -- the init part itself is handed on, so the call returns parts
    have nonempty : connected parts (delivered ++ [msg]) ≠ [] := by
      obtain ⟨part, rest, rfl⟩ := List.exists_cons_of_ne_nil (show parts ≠ [] by
        rintro rfl
        simp at first)
      simp [connected, reach, seenIn_append_single, isFirst]
    refine ⟨_, ?_, tracked⟩
    rw [if_pos (by simp [StreamMessage.isFirst, isFirst])]
    refine Prod.ext rfl ?_
    rw [returned, next0, List.drop_zero, handedOn, if_neg nonempty]
  · obtain ⟨returned, tracked⟩ := tracks.insertOther pending member fresh first isFirst short
    refine ⟨_, ?_, tracked⟩
    rw [if_neg (by simp [StreamMessage.isFirst, isFirst])]
    exact Prod.ext rfl returned

end Step

/-- The state tracks a delivery through the sequences it saw. -/
theorem Tracks.of_seenIn_eq {delivered other : List (StreamMessage τ)}
    {state : StreamState Init τ} (tracks : Tracks asInit streamId parts delivered state)
    (same : seenIn other = seenIn delivered) :
    Tracks asInit streamId parts other state := by
  have covers : Covers streamId parts other ↔ Covers streamId parts delivered := by
    simp only [Covers, same]
  obtain ⟨seen, nextSequence, emittedMessages, buffer, initInfo, finReceived, totalMessages⟩ :=
    tracks
  rw [← covers] at buffer
  rw [← same] at seen nextSequence buffer initInfo finReceived
  exact ⟨seen, nextSequence, emittedMessages, buffer, initInfo, finReceived, totalMessages⟩

end Tracking

section Map

variable {Peer : Type} [DecidableEq Peer]

theorem insert_of_seen (asInit : τ → Option Init) (streams : PartStreamsMap Peer Init τ)
    (peerId : Peer) {msg : StreamMessage τ}
    (seen : msg.sequence ∈
      ((KeyMap.get? streams (peerId, msg.streamId)).getD .default).seenSequences) :
    insert asInit streams peerId msg =
      (KeyMap.insert streams (peerId, msg.streamId)
        ((KeyMap.get? streams (peerId, msg.streamId)).getD .default), .ok none) := by
  simp only [insert]
  rw [if_pos seen]

theorem insert_of_unseen (asInit : τ → Option Init) (streams : PartStreamsMap Peer Init τ)
    (peerId : Peer) {msg : StreamMessage τ}
    (unseen : msg.sequence ∉
      ((KeyMap.get? streams (peerId, msg.streamId)).getD .default).seenSequences)
    {state : StreamState Init τ} {result : Option (ProposalParts Init τ)}
    (inserted : (let recorded := (KeyMap.get? streams (peerId, msg.streamId)).getD .default
      if msg.isFirst then
        insertFirst asInit
          { recorded with seenSequences := msg.sequence :: recorded.seenSequences } msg
      else insertOther
          { recorded with seenSequences := msg.sequence :: recorded.seenSequences } msg) =
      (state, .ok result)) :
    insert asInit streams peerId msg =
      if state.hasEmittedAllMessages then
        (KeyMap.retain streams (· != (peerId, msg.streamId)), .ok result)
      else (KeyMap.insert streams (peerId, msg.streamId) state, .ok result) := by
  simp only at inserted
  simp only [insert]
  rw [if_neg unseen, inserted]

theorem run_append (asInit : τ → Option Init) (streams : PartStreamsMap Peer Init τ)
    (peerId : Peer) (first second : List (StreamMessage τ)) :
    run asInit streams peerId (first ++ second) =
      ((run asInit (run asInit streams peerId first).1 peerId second).1,
        (run asInit streams peerId first).2 ++
          (run asInit (run asInit streams peerId first).1 peerId second).2) := by
  induction first generalizing streams with
  | nil => rfl
  | cons msg rest ih => simp [run, ih]

theorem run_append_single (asInit : τ → Option Init) (streams : PartStreamsMap Peer Init τ)
    (peerId : Peer) (earlier : List (StreamMessage τ)) (msg : StreamMessage τ) :
    run asInit streams peerId (earlier ++ [msg]) =
      ((insert asInit (run asInit streams peerId earlier).1 peerId msg).1,
        (run asInit streams peerId earlier).2 ++
          [(insert asInit (run asInit streams peerId earlier).1 peerId msg).2]) := by
  rw [run_append]
  rfl

/-- What a call hands on: the parts that now connect, past those handed on before. -/
theorem handedParts_ok (init : Init) (handed : List τ) :
    handedParts (.ok (handedOn init handed) : Except Panic (Option (ProposalParts Init τ))) =
      handed := by
  by_cases nothing : handed = []
  · simp [nothing, handedOn, handedParts]
  · simp [nothing, handedOn, handedParts]

/-- A map without the stream's entry reads as the default state, which tracks no delivery. -/
theorem tracks_of_absent {asInit : τ → Option Init} {streamId : StreamId} {parts : List τ}
    {streams : PartStreamsMap Peer Init τ} {peerId : Peer}
    (absent : KeyMap.get? streams (peerId, streamId) = none) :
    Tracks asInit streamId parts [] ((KeyMap.get? streams (peerId, streamId)).getD .default) := by
  rw [absent]
  exact tracks_default asInit streamId parts

section Step

variable {asInit : τ → Option Init} {streamId : StreamId} {parts : List τ}
  {delivered : List (StreamMessage τ)} {msg : StreamMessage τ} {init : Init}
  {streams : PartStreamsMap Peer Init τ} {peerId : Peer}
  (first : parts.head?.bind asInit = some init) (short : parts.length + 1 < u64Bound)
include first short

/-- One call of `PartStreamsMap::insert` with a message of a stream that is not complete yet:
it hands on the parts that now connect, and the entry is removed exactly when the message
completes the stream. -/
theorem Tracks.insert
    (tracks : Tracks asInit streamId parts delivered
      ((KeyMap.get? streams (peerId, streamId)).getD .default))
    (pending : ¬Covers streamId parts delivered)
    (within : ∀ other ∈ delivered, other ∈ streamOf streamId parts)
    (member : msg ∈ streamOf streamId parts) :
    (insert asInit streams peerId msg).2 =
        .ok (handedOn init
          ((connected parts (delivered ++ [msg])).drop (reach (seenIn delivered) 0 parts))) ∧
      (Covers streamId parts (delivered ++ [msg]) →
        KeyMap.get? (insert asInit streams peerId msg).1 (peerId, streamId) = none) ∧
      (¬Covers streamId parts (delivered ++ [msg]) →
        Tracks asInit streamId parts (delivered ++ [msg])
          ((KeyMap.get? (insert asInit streams peerId msg).1 (peerId, streamId)).getD .default) ∧
        KeyMap.get? (insert asInit streams peerId msg).1 (peerId, streamId) ≠ none) := by
  have sameStream : msg.streamId = streamId := streamId_of_mem_streamFrom member
  subst sameStream
  by_cases seen : seenIn delivered msg.sequence = true
  · -- a sequence seen before: nothing new connects, and the entry is stored back as it was
    have same := seenIn_append_of_mem (mem_of_seenIn within member seen)
    have covers : Covers msg.streamId parts (delivered ++ [msg]) ↔
        Covers msg.streamId parts delivered := by
      simp only [Covers, same]
    have nothing :
        (connected parts (delivered ++ [msg])).drop (reach (seenIn delivered) 0 parts) = [] := by
      rw [connected, same, List.drop_eq_nil_iff, List.length_take]
      omega
    rw [insert_of_seen asInit streams peerId ((tracks.seen _).mpr seen), nothing, handedOn,
      if_pos rfl]
    refine ⟨rfl, fun covered => absurd (covers.mp covered) pending, fun _ => ⟨?_, by simp⟩⟩
    rw [KeyMap.get?_insert_self, Option.getD_some]
    exact tracks.of_seenIn_eq same
  · obtain ⟨after, inserted, tracked⟩ :=
      tracks.insertUnseen pending member (Bool.eq_false_iff.mpr seen) first short
    rw [insert_of_unseen asInit streams peerId (fun recorded => seen ((tracks.seen _).mp recorded))
      inserted]
    by_cases covered : Covers msg.streamId parts (delivered ++ [msg])
    · -- every message is emitted: the entry goes
      rw [if_pos (tracked.hasEmittedAllMessages_iff.mpr covered)]
      refine ⟨by rw [tracks.nextSequence], fun _ => ?_,
        fun notCovered => absurd covered notCovered⟩
      rw [KeyMap.get?_retain]
      simp
    · rw [if_neg (mt tracked.hasEmittedAllMessages_iff.mp covered)]
      refine ⟨by rw [tracks.nextSequence], fun notCovered => absurd notCovered covered,
        fun _ => ⟨?_, by simp⟩⟩
      rw [KeyMap.get?_insert_self, Option.getD_some]
      exact tracked

/-- Along messages of the stream that leave it incomplete, the entry tracks what was
delivered, no call panics, and the calls hand on, in order, the parts that connect. -/
theorem Tracks.run
    (tracks : Tracks asInit streamId parts delivered
      ((KeyMap.get? streams (peerId, streamId)).getD .default))
    (within : ∀ other ∈ delivered, other ∈ streamOf streamId parts)
    (more : List (StreamMessage τ))
    (moreWithin : ∀ other ∈ more, other ∈ streamOf streamId parts)
    (incomplete : ¬Covers streamId parts (delivered ++ more)) :
    Tracks asInit streamId parts (delivered ++ more)
        ((KeyMap.get? (run asInit streams peerId more).1 (peerId, streamId)).getD .default) ∧
      (run asInit streams peerId more).2.flatMap handedParts =
        (connected parts (delivered ++ more)).drop (reach (seenIn delivered) 0 parts) ∧
      ∀ out ∈ (run asInit streams peerId more).2, ∃ result, out = .ok result := by
  -- induction on the messages still to come, the delivered prefix growing by one each time
  induction more generalizing streams delivered with
  | nil =>
      refine ⟨by simpa [run] using tracks, ?_, by simp [run]⟩
      rw [List.append_nil, connected, List.drop_eq_nil_iff.mpr (by simp)]
      rfl
  | cons msg rest ih =>
      have member := moreWithin msg List.mem_cons_self
      have pending : ¬Covers streamId parts delivered := fun covered =>
        incomplete (covered.append _)
      have stillIncomplete : ¬Covers streamId parts (delivered ++ [msg] ++ rest) := by
        simpa using incomplete
      obtain ⟨returned, -, kept⟩ := tracks.insert first short pending within member
      obtain ⟨tracked, -⟩ := kept fun covered => stillIncomplete (covered.append rest)
      have grown : ∀ other ∈ delivered ++ [msg], other ∈ streamOf streamId parts :=
        List.forall_mem_append.mpr ⟨within, List.forall_mem_singleton.mpr member⟩
      obtain ⟨tracksAfter, handedAfter, okAfter⟩ :=
        ih tracked grown (fun other later => moreWithin other (List.mem_cons_of_mem _ later))
          stillIncomplete
      simp only [List.append_assoc, List.singleton_append] at tracksAfter handedAfter
      refine ⟨by simpa [run] using tracksAfter, ?_, ?_⟩
      · -- the parts of this call and of the later ones join up
        simp only [run, List.flatMap_cons, returned, handedParts_ok, handedAfter]
        exact drop_take_append
          (reach_mono (fun _ seen => seenIn_append_left [msg] seen) 0 parts)
          (reach_mono (fun _ seen => by simpa using seenIn_append_left rest seen) 0 parts)
      · intro out produced
        simp only [run, List.mem_cons] at produced
        rcases produced with rfl | later
        · exact ⟨_, returned⟩
        · exact okAfter out later

/-- From a map without the stream's entry, up to the message that completes the stream: no
call panics, the calls hand on all the parts in order, and the entry is removed. -/
theorem run_completes (absent : KeyMap.get? streams (peerId, streamId) = none)
    {before : List (StreamMessage τ)}
    (delivered : ∀ other ∈ before ++ [msg], other ∈ streamOf streamId parts)
    (pending : ¬Covers streamId parts before) (covered : Covers streamId parts (before ++ [msg])) :
    (run asInit streams peerId (before ++ [msg])).2.flatMap handedParts = parts ∧
      (∀ out ∈ (run asInit streams peerId (before ++ [msg])).2,
        ∃ result, out = .ok result) ∧
      KeyMap.get? (run asInit streams peerId (before ++ [msg])).1 (peerId, streamId) = none := by
  have within : ∀ other ∈ before, other ∈ streamOf streamId parts :=
    (List.forall_mem_append.mp delivered).1
  have start : Tracks asInit streamId parts []
      ((KeyMap.get? streams (peerId, streamId)).getD .default) := tracks_of_absent absent
  obtain ⟨tracks, handedBefore, okBefore⟩ := start.run first short (by simp) before within
    (by simpa using pending)
  simp only [List.nil_append] at tracks handedBefore
  obtain ⟨returned, removed, -⟩ :=
    tracks.insert first short pending within (delivered msg (by simp))
  have whole : connected parts (before ++ [msg]) = parts := by
    rw [connected, reach_eq_length_iff.mpr covered]
    exact List.take_of_length_le (by omega)
  rw [run_append_single]
  refine ⟨?_, fun out produced => ?_, removed covered⟩
  · -- what the run handed on before, and the rest of the parts now
    rw [List.flatMap_append, handedBefore, List.flatMap_singleton, returned, handedParts_ok, whole,
      reach_seenIn_nil, List.drop_zero, connected]
    exact List.take_append_drop _ _
  · rw [List.mem_append, List.mem_singleton] at produced
    rcases produced with earlier | rfl
    · exact okBefore out earlier
    · exact ⟨_, returned⟩

/-- A message of sequence 0 in a map without the stream's entry starts the stream: it hands
on the first part, and leaves an entry. -/
theorem insert_copy_of_absent (absent : KeyMap.get? streams (peerId, streamId) = none)
    (member : msg ∈ streamOf streamId parts) (firstCopy : msg.sequence = 0) :
    handedParts (insert asInit streams peerId msg).2 = parts.take 1 ∧
      KeyMap.get? (insert asInit streams peerId msg).1 (peerId, streamId) ≠ none := by
  have start : Tracks asInit streamId parts []
      ((KeyMap.get? streams (peerId, streamId)).getD .default) := tracks_of_absent absent
  obtain ⟨part, rest, rfl⟩ := List.exists_cons_of_ne_nil (show parts ≠ [] by
    rintro rfl
    simp at first)
  have onlyFirst : reach (seenIn ([] ++ [msg])) 0 (part :: rest) = 1 := by
    have seenFirst : seenIn ([] ++ [msg]) 0 = true := by simp [seenIn, firstCopy]
    have unseenNext : seenIn ([] ++ [msg]) 1 = false := by simp [seenIn, firstCopy]
    simp only [reach, seenFirst, if_true, Nat.zero_add, reach_of_unseen unseenNext]
  -- the `Fin` message of a stream of parts is past sequence 0
  have notAll : ¬Covers streamId (part :: rest) ([] ++ [msg]) := fun covered => by
    obtain ⟨other, mine, last⟩ := covers_iff.mp covered (part :: rest).length le_rfl
    simp only [List.nil_append, List.mem_singleton] at mine
    rw [mine, firstCopy] at last
    simp at last
  obtain ⟨returned, -, kept⟩ := start.insert first short not_covers_nil (by simp) member
  refine ⟨?_, (kept notAll).2⟩
  rw [returned, handedParts_ok, reach_seenIn_nil, List.drop_zero, connected, onlyFirst]

end Step

/-- `insert_first` unwraps the init part it did not find: a first message that carries no
init part, in a map without its stream's entry, panics. -/
theorem insert_without_init (asInit : τ → Option Init) (streams : PartStreamsMap Peer Init τ)
    (peerId : Peer) {msg : StreamMessage τ}
    (absent : KeyMap.get? streams (peerId, msg.streamId) = none)
    (isFirst : msg.sequence = 0) (noInit : msg.content.asData.bind asInit = none) :
    (insert asInit streams peerId msg).2 = .error .unwrapNone := by
  have unseen : msg.sequence ∉
      ((KeyMap.get? streams (peerId, msg.streamId)).getD .default).seenSequences := by
    rw [absent]
    simp [StreamState.default]
  have opens : msg.isFirst = true := by simp [StreamMessage.isFirst, isFirst]
  simp only [insert, if_neg unseen, opens, if_true, insertFirst, emit, emitEligibleMessages,
    initInfo_emitEligible, noInit]

end Map

/-- The Starknet host's reassembler, from a map without the stream's entry, along any delivery
of the stream's messages in any order and with any duplicates up to the message that completes
it: no call panics, the calls hand on the parts in order, each once, and the entry is removed.
A copy of the first message after that is taken for a new stream: its part is handed on a
second time and the entry is back.  And a first message that carries no init part panics. -/
theorem host_parts_handed_on_again (asInit : τ → Option Init)
    (streams : PartStreamsMap Peer Init τ) (peerId : Peer) (streamId : StreamId)
    (parts : List τ) (init : Init) (first : parts.head?.bind asInit = some init)
    (short : parts.length + 1 < u64Bound)
    (absent : KeyMap.get? streams (peerId, streamId) = none)
    (before : List (StreamMessage τ)) (msg : StreamMessage τ)
    (delivered : ∀ other ∈ before ++ [msg], other ∈ streamOf streamId parts)
    (incomplete : ¬∀ sequence ≤ parts.length, ∃ other ∈ before, other.sequence = sequence)
    (complete :
      ∀ sequence ≤ parts.length, ∃ other ∈ before ++ [msg], other.sequence = sequence) :
    (run asInit streams peerId (before ++ [msg])).2.flatMap handedParts = parts ∧
      (∀ out ∈ (run asInit streams peerId (before ++ [msg])).2,
        ∃ result, out = .ok result) ∧
      KeyMap.get? (run asInit streams peerId (before ++ [msg])).1 (peerId, streamId) = none ∧
      (∀ copy ∈ before ++ [msg], copy.sequence = 0 →
        (run asInit streams peerId (before ++ [msg, copy])).2.flatMap handedParts =
            parts ++ parts.take 1 ∧
          KeyMap.get? (run asInit streams peerId (before ++ [msg, copy])).1 (peerId, streamId) ≠
            none) ∧
      ∀ (other : PartStreamsMap Peer Init τ) (opening : StreamMessage τ),
        KeyMap.get? other (peerId, opening.streamId) = none → opening.sequence = 0 →
          opening.content.asData.bind asInit = none →
          (insert asInit other peerId opening).2 = .error .unwrapNone := by
  obtain ⟨handedOnce, okOnce, gone⟩ := run_completes first short absent delivered
    (fun covered => incomplete (covers_iff.mp covered)) (covers_iff.mpr complete)
  refine ⟨handedOnce, okOnce, gone, fun copy copied firstCopy => ?_,
    fun other opening => insert_without_init asInit other peerId⟩
  -- the entry is gone, so the copy starts the stream again
  obtain ⟨again, back⟩ :=
    insert_copy_of_absent first short gone (delivered copy copied) firstCopy
  rw [show before ++ [msg, copy] = before ++ [msg] ++ [copy] by simp, run_append_single,
    List.flatMap_append, handedOnce, List.flatMap_singleton, again]
  exact ⟨rfl, back⟩

/-- Parts `[7, 8]`: part 8, the `Fin` message and part 8 again arrive before the init part 7.
The parts are handed on once the init part arrives and the entry goes; a copy of the init
part then hands 7 on again and leaves an entry behind.  A `Fin` message at sequence 0 stops
the reassembler. -/
theorem host_first_part_handed_twice :
    let m0 : StreamMessage Nat := ⟨⟨[]⟩, 0, .data 7⟩
    let m1 : StreamMessage Nat := ⟨⟨[]⟩, 1, .data 8⟩
    let fin : StreamMessage Nat := ⟨⟨[]⟩, 2, .fin⟩
    (run (some : Nat → Option Nat) ([] : PartStreamsMap Nat Nat Nat) 0
        [m1, fin, m1, m0]).2.flatMap handedParts = [7, 8] ∧
      KeyMap.get? (run (some : Nat → Option Nat) ([] : PartStreamsMap Nat Nat Nat) 0
        [m1, fin, m1, m0]).1 (0, ⟨[]⟩) = none ∧
      (run (some : Nat → Option Nat) ([] : PartStreamsMap Nat Nat Nat) 0
        [m1, fin, m1, m0, m0]).2.flatMap handedParts = [7, 8, 7] ∧
      KeyMap.get? (run (some : Nat → Option Nat) ([] : PartStreamsMap Nat Nat Nat) 0
        [m1, fin, m1, m0, m0]).1 (0, ⟨[]⟩) ≠ none ∧
      (insert (some : Nat → Option Nat) ([] : PartStreamsMap Nat Nat Nat) 0
        ⟨⟨[]⟩, 0, .fin⟩).2 = .error .unwrapNone := by
  intro m0 m1 fin
  obtain ⟨handed, -, gone, again, opening⟩ :=
    host_parts_handed_on_again some [] 0 ⟨[]⟩ [7, 8] 7 rfl (by decide) rfl [m1, fin, m1] m0
      (by decide) (by decide) (by decide)
  obtain ⟨twice, back⟩ := again m0 (by simp) rfl
  exact ⟨handed, gone, twice, back, opening [] ⟨⟨[]⟩, 0, .fin⟩ rfl rfl rfl⟩

end Malachite.Streaming.Host
