import Malachite.Streaming.Message
import Malachite.Lib.KeyMap

/-! The reassembler of the test application (`test/app/src/streaming.rs`): each stream's
messages are kept in a heap until the init part, the `Fin` message and every message
between them are there, and then handed on at once.

`StreamState::insert` takes the init part out of the state (`init_info.take()`) before it
hands the parts on, so `is_done` no longer holds when `PartStreamsMap::insert` asks it
afterwards, and the finished stream's entry is never removed from the map.  Along any
delivery of a stream's messages, in any order and with duplicates, the state of its entry
is the one `Tracks` describes; from it, `insert` hands the parts on exactly at the message
that completes the stream, and the entry is there after every call. -/

namespace Malachite.Streaming.TestApp

open Sync (Panic u64Bound)

variable {Init τ : Type}

/-- `StreamState`: the messages held, the init part once sequence 0 arrived, the sequences
seen, and the length the `Fin` message announced. -/
structure StreamState (Init τ : Type) where
  buffer : List (StreamMessage τ)
  initInfo : Option Init
  seenSequences : List Nat
  totalMessages : Nat
  finReceived : Bool

namespace StreamState

/-- `StreamState::default`. -/
def default : StreamState Init τ := ⟨[], none, [], 0, false⟩

/-- `StreamState::is_done`. -/
def isDone (state : StreamState Init τ) : Bool :=
  state.initInfo.isSome && state.finReceived && state.buffer.length == state.totalMessages

/-- `StreamState::insert`, with `as_init` of the part as a parameter.  The length the `Fin`
message announces, `msg.sequence as usize + 1`, overflows at `u64::MAX`. -/
def insert (asInit : τ → Option Init) (state : StreamState Init τ) (msg : StreamMessage τ) :
    StreamState Init τ × Except Panic (Option (ProposalParts Init τ)) :=
  let state := if msg.isFirst then { state with initInfo := msg.content.asData.bind asInit }
    else state
  if msg.isFin && decide (u64Bound ≤ msg.sequence + 1) then
    ({ state with finReceived := true }, .error .overflow)
  else
    let state := if msg.isFin then { state with finReceived := true, totalMessages := msg.sequence + 1 }
      else state
    let state := { state with buffer := push state.buffer msg }
    if state.isDone then
      match state.initInfo with
      | none => (state, .ok none)
      | some init =>
          ({ state with initInfo := none, buffer := [] }, .ok (some ⟨init, drain state.buffer⟩))
    else (state, .ok none)

/-- The state once `insert` has recorded a message and pushed it, before it asks whether
the stream is done. -/
def stored (asInit : τ → Option Init) (state : StreamState Init τ) (msg : StreamMessage τ) :
    StreamState Init τ :=
  { buffer := push state.buffer msg
    initInfo := if msg.isFirst then msg.content.asData.bind asInit else state.initInfo
    seenSequences := state.seenSequences
    totalMessages := if msg.isFin then msg.sequence + 1 else state.totalMessages
    finReceived := msg.isFin || state.finReceived }

section Insert

variable {asInit : τ → Option Init} {state : StreamState Init τ} {msg : StreamMessage τ}

/-- Without overflow, `insert` stores the message and then hands the parts on if the
stream is done. -/
theorem insert_eq_stored (fits : (msg.isFin && decide (u64Bound ≤ msg.sequence + 1)) = false) :
    insert asInit state msg =
      if (stored asInit state msg).isDone then
        match (stored asInit state msg).initInfo with
        | none => (stored asInit state msg, .ok none)
        | some init => ({ stored asInit state msg with initInfo := none, buffer := [] },
            .ok (some ⟨init, drain (stored asInit state msg).buffer⟩))
      else (stored asInit state msg, .ok none) := by
  simp only [insert, fits, Bool.false_eq_true, if_false]
  unfold stored
  cases msg.isFirst <;> cases msg.isFin <;> rfl

theorem insert_of_done (fits : (msg.isFin && decide (u64Bound ≤ msg.sequence + 1)) = false)
    (done : (stored asInit state msg).isDone = true) {init : Init}
    (initialised : (stored asInit state msg).initInfo = some init) :
    insert asInit state msg =
      ({ stored asInit state msg with initInfo := none, buffer := [] },
        .ok (some ⟨init, drain (stored asInit state msg).buffer⟩)) := by
  rw [insert_eq_stored fits, if_pos done]
  split
  next noInit => rw [initialised] at noInit; cases noInit
  next stored initStored => rw [initialised] at initStored; cases initStored; rfl

theorem insert_of_not_done (fits : (msg.isFin && decide (u64Bound ≤ msg.sequence + 1)) = false)
    (pending : (stored asInit state msg).isDone = false) :
    insert asInit state msg = (stored asInit state msg, .ok none) := by
  rw [insert_eq_stored fits, pending]
  rfl

end Insert

end StreamState

variable {Peer : Type} [DecidableEq Peer]

/-- `PartStreamsMap`: the state of each stream, by sender and stream id. -/
abbrev PartStreamsMap (Peer Init τ : Type) := List ((Peer × StreamId) × StreamState Init τ)

/-- `PartStreamsMap::insert`.  The entry is created by `or_default` before the sequence is
checked, and removed when the state reports it is done after the insertion. -/
def insert (asInit : τ → Option Init) (streams : PartStreamsMap Peer Init τ) (peerId : Peer)
    (msg : StreamMessage τ) : PartStreamsMap Peer Init τ × Except Panic (Option (ProposalParts Init τ)) :=
  let key := (peerId, msg.streamId)
  let state := (KeyMap.get? streams key).getD .default
  if msg.sequence ∈ state.seenSequences then (KeyMap.insert streams key state, .ok none)
  else
    match StreamState.insert asInit { state with seenSequences := msg.sequence :: state.seenSequences } msg with
    | (state, .error panic) => (KeyMap.insert streams key state, .error panic)
    | (state, .ok result) =>
        if state.isDone then (KeyMap.retain streams (· != key), .ok result)
        else (KeyMap.insert streams key state, .ok result)

/-- The messages of one sender inserted in turn: the final map and what each call returned. -/
def run (asInit : τ → Option Init) (streams : PartStreamsMap Peer Init τ) (peerId : Peer) :
    List (StreamMessage τ) →
      PartStreamsMap Peer Init τ × List (Except Panic (Option (ProposalParts Init τ)))
  | [] => (streams, [])
  | msg :: rest =>
      let inserted := insert asInit streams peerId msg
      let after := run asInit inserted.1 peerId rest
      (after.1, inserted.2 :: after.2)

theorem insert_of_seen (asInit : τ → Option Init) (streams : PartStreamsMap Peer Init τ)
    (peerId : Peer) {msg : StreamMessage τ}
    (seen : msg.sequence ∈ ((KeyMap.get? streams (peerId, msg.streamId)).getD .default).seenSequences) :
    insert asInit streams peerId msg =
      (KeyMap.insert streams (peerId, msg.streamId) ((KeyMap.get? streams (peerId, msg.streamId)).getD .default),
        .ok none) := by
  simp only [insert]
  rw [if_pos seen]

theorem insert_of_unseen (asInit : τ → Option Init) (streams : PartStreamsMap Peer Init τ)
    (peerId : Peer) {msg : StreamMessage τ}
    (unseen : msg.sequence ∉ ((KeyMap.get? streams (peerId, msg.streamId)).getD .default).seenSequences)
    {state : StreamState Init τ} {result : Option (ProposalParts Init τ)}
    (inserted : StreamState.insert asInit
      { (KeyMap.get? streams (peerId, msg.streamId)).getD .default with
        seenSequences := msg.sequence ::
          ((KeyMap.get? streams (peerId, msg.streamId)).getD .default).seenSequences } msg =
      (state, .ok result)) :
    insert asInit streams peerId msg =
      if state.isDone then (KeyMap.retain streams (· != (peerId, msg.streamId)), .ok result)
      else (KeyMap.insert streams (peerId, msg.streamId) state, .ok result) := by
  simp only [insert]
  rw [if_neg unseen, inserted]

/-! ### What the entry of a stream holds -/

section Tracking

variable (asInit : τ → Option Init) (streamId : StreamId) (parts : List τ)

/-- The state of a stream's entry after the messages `delivered` of the stream: the
sequences seen are those delivered, and until every message is there the heap holds the
delivered messages in sequence order, the init part is set once sequence 0 arrived, and the
length is known once the `Fin` message arrived. -/
structure Tracks (delivered : List (StreamMessage τ)) (state : StreamState Init τ) : Prop where
  seen : ∀ sequence, sequence ∈ state.seenSequences ↔ seenIn delivered sequence = true
  buffer : ¬Covers streamId parts delivered →
    state.buffer = (streamOf streamId parts).filter fun msg => seenIn delivered msg.sequence
  initInfo : ¬Covers streamId parts delivered →
    state.initInfo = if seenIn delivered 0 then parts.head?.bind asInit else none
  finReceived : ¬Covers streamId parts delivered →
    state.finReceived = seenIn delivered parts.length
  totalMessages : ¬Covers streamId parts delivered → state.finReceived = true →
    state.totalMessages = parts.length + 1

theorem tracks_default : Tracks asInit streamId parts [] (.default : StreamState Init τ) := by
  constructor <;> simp [StreamState.default, seenIn]

variable {asInit streamId parts}

/-- Once every message is there, only the sequences seen are tracked. -/
theorem tracks_of_covers {delivered : List (StreamMessage τ)} {state : StreamState Init τ}
    (covered : Covers streamId parts delivered)
    (seen : ∀ sequence, sequence ∈ state.seenSequences ↔ seenIn delivered sequence = true) :
    Tracks asInit streamId parts delivered state :=
  ⟨seen, fun pending => absurd covered pending, fun pending => absurd covered pending,
    fun pending => absurd covered pending, fun pending => absurd covered pending⟩

/-- The state tracks a delivery through the sequences it saw. -/
theorem Tracks.of_seenIn_eq {delivered other : List (StreamMessage τ)}
    {state : StreamState Init τ} (tracks : Tracks asInit streamId parts delivered state)
    (same : seenIn other = seenIn delivered) :
    Tracks asInit streamId parts other state := by
  have covers : Covers streamId parts other ↔ Covers streamId parts delivered := by
    simp only [Covers, same]
  obtain ⟨seen, buffer, initInfo, finReceived, totalMessages⟩ := tracks
  rw [← covers] at buffer initInfo finReceived totalMessages
  rw [← same] at seen buffer initInfo finReceived
  exact ⟨seen, buffer, initInfo, finReceived, totalMessages⟩

section Stored

/-! What `stored` holds when the state tracks a delivery that misses the message, whatever
sequences it has recorded meanwhile. -/

variable {delivered : List (StreamMessage τ)} {state : StreamState Init τ} {msg : StreamMessage τ}

variable (recorded : List Nat) (tracks : Tracks asInit streamId parts delivered state)
  (pending : ¬Covers streamId parts delivered) (member : msg ∈ streamOf streamId parts)
include tracks pending member

theorem initInfo_stored :
    (StreamState.stored asInit { state with seenSequences := recorded } msg).initInfo =
      if seenIn (delivered ++ [msg]) 0 then parts.head?.bind asInit else none := by
  simp only [StreamState.stored, tracks.initInfo pending, seenIn_append_single]
  by_cases zero : msg.sequence = 0
  · -- the message at sequence 0 carries the first part
    simp [StreamMessage.isFirst, zero, asData_of_sequence_zero member zero]
  · simp [StreamMessage.isFirst, zero]

theorem finReceived_stored :
    (StreamState.stored asInit { state with seenSequences := recorded } msg).finReceived =
      seenIn (delivered ++ [msg]) parts.length := by
  simp only [StreamState.stored, tracks.finReceived pending, seenIn_append_single, isFin_eq member,
    Bool.or_comm]

theorem totalMessages_stored (received :
      (StreamState.stored asInit { state with seenSequences := recorded } msg).finReceived) :
    (StreamState.stored asInit { state with seenSequences := recorded } msg).totalMessages =
      parts.length + 1 := by
  simp only [StreamState.stored] at received ⊢
  cases fin : msg.isFin
  · simp only [fin, Bool.false_or, Bool.false_eq_true, if_false] at received ⊢
    exact tracks.totalMessages pending received
  · have last := (isFin_iff_of_mem member).mp fin
    simp [last]

theorem buffer_stored (fresh : seenIn delivered msg.sequence = false) :
    (StreamState.stored asInit { state with seenSequences := recorded } msg).buffer =
      (streamOf streamId parts).filter fun other => seenIn (delivered ++ [msg]) other.sequence := by
  simp only [StreamState.stored, tracks.buffer pending, seenIn_append_single]
  exact push_filter (streamFrom_increasing 0 parts) member fresh

/-- The stream is done exactly when the message completes it. -/
theorem isDone_stored_iff (fresh : seenIn delivered msg.sequence = false) {init : Init}
    (first : parts.head?.bind asInit = some init) :
    (StreamState.stored asInit { state with seenSequences := recorded } msg).isDone = true ↔
      Covers streamId parts (delivered ++ [msg]) := by
  have streamLength : (streamOf streamId parts).length = parts.length + 1 :=
    length_streamFrom 0 parts
  -- the heap holds the delivered messages, so it is full exactly when all are delivered
  have filled : Covers streamId parts (delivered ++ [msg]) ↔
      (StreamState.stored asInit { state with seenSequences := recorded } msg).buffer.length =
        parts.length + 1 := by
    rw [buffer_stored recorded tracks pending member fresh, ← streamLength]
    exact List.length_filter_eq_length_iff.symm
  simp only [StreamState.isDone, Bool.and_eq_true, beq_iff_eq]
  constructor
  · rintro ⟨⟨-, received⟩, sameLength⟩
    rw [filled, sameLength, totalMessages_stored recorded tracks pending member received]
  · intro covered
    have seenAll := covers_iff.mp covered
    have received :
        (StreamState.stored asInit { state with seenSequences := recorded } msg).finReceived := by
      rw [finReceived_stored recorded tracks pending member]
      exact seenIn_iff.mpr (seenAll _ le_rfl)
    refine ⟨⟨?_, received⟩, ?_⟩
    · rw [initInfo_stored recorded tracks pending member,
        if_pos (seenIn_iff.mpr (seenAll 0 (Nat.zero_le _))), first]
      rfl
    · rw [filled.mp covered, totalMessages_stored recorded tracks pending member received]

end Stored

section Step

variable {delivered : List (StreamMessage τ)} {msg : StreamMessage τ} {init : Init}
  (first : parts.head?.bind asInit = some init) (short : parts.length + 1 < u64Bound)
include first short

/-- A message whose sequence is new hands the parts on exactly when it completes the stream,
and leaves a state that tracks the delivery and is not done: the init part is gone once the
parts are handed on. -/
theorem Tracks.insert_unseen {state : StreamState Init τ}
    (tracks : Tracks asInit streamId parts delivered state)
    (member : msg ∈ streamOf streamId parts) (fresh : seenIn delivered msg.sequence = false) :
    (StreamState.insert asInit
        { state with seenSequences := msg.sequence :: state.seenSequences } msg).2 =
        .ok (if Covers streamId parts (delivered ++ [msg]) then some ⟨init, parts⟩
          else none) ∧
      Tracks asInit streamId parts (delivered ++ [msg]) (StreamState.insert asInit
        { state with seenSequences := msg.sequence :: state.seenSequences } msg).1 ∧
      (StreamState.insert asInit
        { state with seenSequences := msg.sequence :: state.seenSequences } msg).1.isDone =
          false := by
  have pending := not_covers_of_unseen member fresh
  have fits := fits_of_mem member short
  have seen : ∀ sequence, sequence ∈ msg.sequence :: state.seenSequences ↔
      seenIn (delivered ++ [msg]) sequence = true :=
    seen_cons_iff tracks.seen
  have doneIff := isDone_stored_iff (msg.sequence :: state.seenSequences) tracks pending member
    fresh first
  by_cases covered : Covers streamId parts (delivered ++ [msg])
  · have seenFirst := seenIn_iff.mpr ((covers_iff.mp covered) 0 (Nat.zero_le _))
    rw [StreamState.insert_of_done fits (doneIff.mpr covered)
      (by rw [initInfo_stored _ tracks pending member, if_pos seenFirst, first])]
    refine ⟨?_, tracks_of_covers covered seen, rfl⟩
    -- the heap holds the whole stream, whose data are the parts
    rw [if_pos covered, buffer_stored _ tracks pending member fresh,
      List.filter_eq_self.mpr covered, streamOf, drain_streamFrom]
  · have notDone := Bool.eq_false_iff.mpr (mt doneIff.mp covered)
    rw [StreamState.insert_of_not_done fits notDone]
    refine ⟨by rw [if_neg covered],
      ⟨seen, fun _ => ?_, fun _ => ?_, fun _ => ?_, fun _ => ?_⟩, notDone⟩
    · exact buffer_stored _ tracks pending member fresh
    · exact initInfo_stored _ tracks pending member
    · exact finReceived_stored _ tracks pending member
    · exact totalMessages_stored _ tracks pending member

/-- One call of `PartStreamsMap::insert` with a message of the stream: it hands the parts on
exactly when the message completes the stream, and the stream's entry is in the map after
it, done or not. -/
theorem Tracks.insert {streams : PartStreamsMap Peer Init τ} {peerId : Peer}
    (tracks : Tracks asInit streamId parts delivered
      ((KeyMap.get? streams (peerId, streamId)).getD .default))
    (within : ∀ other ∈ delivered, other ∈ streamOf streamId parts)
    (member : msg ∈ streamOf streamId parts) :
    (insert asInit streams peerId msg).2 =
        .ok (if Covers streamId parts (delivered ++ [msg]) ∧ ¬Covers streamId parts delivered
          then some ⟨init, parts⟩ else none) ∧
      Tracks asInit streamId parts (delivered ++ [msg])
        ((KeyMap.get? (insert asInit streams peerId msg).1 (peerId, streamId)).getD .default) ∧
      KeyMap.get? (insert asInit streams peerId msg).1 (peerId, streamId) ≠ none := by
  have sameStream : msg.streamId = streamId := streamId_of_mem_streamFrom member
  subst sameStream
  by_cases seen : seenIn delivered msg.sequence = true
  · -- a sequence seen before: the entry is stored back as it was
    have same := seenIn_append_of_mem (mem_of_seenIn within member seen)
    have covers : Covers msg.streamId parts (delivered ++ [msg]) ↔
        Covers msg.streamId parts delivered := by
      simp only [Covers, same]
    rw [insert_of_seen asInit streams peerId ((tracks.seen _).mpr seen)]
    refine ⟨by rw [if_neg fun both => both.2 (covers.mp both.1)], ?_, by simp⟩
    rw [KeyMap.get?_insert_self, Option.getD_some]
    exact tracks.of_seenIn_eq same
  · have fresh : seenIn delivered msg.sequence = false := Bool.eq_false_iff.mpr seen
    have pending := not_covers_of_unseen member fresh
    obtain ⟨returned, tracked, notDone⟩ := tracks.insert_unseen first short member fresh
    rw [insert_of_unseen asInit streams peerId (fun recorded => seen ((tracks.seen _).mp recorded))
      (Prod.ext rfl returned)]
    simp only [notDone, Bool.false_eq_true, if_false, KeyMap.get?_insert_self, Option.getD_some]
    exact ⟨by simp only [pending, not_false_eq_true, and_true], tracked, by simp⟩

/-- Along the messages of a sender, all of the stream, the entry tracks what was delivered. -/
theorem Tracks.run {streams : PartStreamsMap Peer Init τ} {peerId : Peer}
    (tracks : Tracks asInit streamId parts delivered
      ((KeyMap.get? streams (peerId, streamId)).getD .default))
    (within : ∀ other ∈ delivered, other ∈ streamOf streamId parts)
    (more : List (StreamMessage τ))
    (moreWithin : ∀ other ∈ more, other ∈ streamOf streamId parts) :
    Tracks asInit streamId parts (delivered ++ more)
      ((KeyMap.get? (run asInit streams peerId more).1 (peerId, streamId)).getD .default) := by
  -- induction on the messages still to come, the delivered prefix growing by one each time
  induction more generalizing streams delivered with
  | nil => simpa [run] using tracks
  | cons msg rest ih =>
      have member := moreWithin msg List.mem_cons_self
      obtain ⟨-, tracked, -⟩ := tracks.insert first short within member
      have grown : ∀ other ∈ delivered ++ [msg], other ∈ streamOf streamId parts :=
        List.forall_mem_append.mpr ⟨within, List.forall_mem_singleton.mpr member⟩
      simpa [run] using
        ih tracked grown fun other later => moreWithin other (List.mem_cons_of_mem _ later)

end Step

end Tracking

/-- The test application's reassembler, from a map without the stream's entry, along any
delivery of the stream's messages in any order and with any duplicates: each call hands the
parts on, with the init part, exactly when its message is the last missing sequence of
`0` to `n`, and the stream's entry is still in the map after every call, the one that
handed the parts on included. -/
theorem test_app_parts_entry_kept (asInit : τ → Option Init)
    (streams : PartStreamsMap Peer Init τ) (peerId : Peer) (streamId : StreamId) (parts : List τ) (init : Init)
    (first : parts.head?.bind asInit = some init) (short : parts.length + 1 < u64Bound)
    (absent : KeyMap.get? streams (peerId, streamId) = none)
    (before : List (StreamMessage τ)) (msg : StreamMessage τ)
    (delivered : ∀ other ∈ before ++ [msg], other ∈ streamOf streamId parts) :
    (insert asInit (run asInit streams peerId before).1 peerId msg).2 =
        .ok (if (∀ sequence ≤ parts.length,
                  ∃ other ∈ before ++ [msg], other.sequence = sequence) ∧
              ¬∀ sequence ≤ parts.length, ∃ other ∈ before, other.sequence = sequence
          then some ⟨init, parts⟩ else none) ∧
      KeyMap.get? (insert asInit (run asInit streams peerId before).1 peerId msg).1
        (peerId, streamId) ≠ none := by
  have within : ∀ other ∈ before, other ∈ streamOf streamId parts :=
    (List.forall_mem_append.mp delivered).1
  have start : Tracks asInit streamId parts []
      ((KeyMap.get? streams (peerId, streamId)).getD .default) := by
    rw [absent]
    exact tracks_default asInit streamId parts
  have tracks := start.run first short (by simp) before within
  obtain ⟨returned, -, kept⟩ := tracks.insert first short within (delivered msg (by simp))
  simp only [List.nil_append, covers_iff] at returned
  exact ⟨returned, kept⟩

/-- Parts `[7]`: the `Fin` message at sequence 1 arrives first, then the init part at
sequence 0.  The second call hands the parts on, and the entry stays. -/
theorem test_app_parts_entry_kept_reversed :
    (insert (some : Nat → Option Nat) (run some ([] : PartStreamsMap Nat Nat Nat) 0
        [⟨⟨[]⟩, 1, .fin⟩]).1 0 ⟨⟨[]⟩, 0, .data 7⟩).2 = .ok (some ⟨7, [7]⟩) ∧
      KeyMap.get? (insert (some : Nat → Option Nat) (run some ([] : PartStreamsMap Nat Nat Nat) 0
        [⟨⟨[]⟩, 1, .fin⟩]).1 0 ⟨⟨[]⟩, 0, .data 7⟩).1 (0, ⟨[]⟩) ≠ none := by
  obtain ⟨returned, kept⟩ :=
    test_app_parts_entry_kept some [] 0 ⟨[]⟩ [7] 7 rfl (by decide) rfl
      [⟨⟨[]⟩, 1, .fin⟩] ⟨⟨[]⟩, 0, .data 7⟩ (by decide)
  rw [if_pos (by decide)] at returned
  exact ⟨returned, kept⟩

end Malachite.Streaming.TestApp
