import Malachite.Sync.Overflow

namespace Malachite.Streaming

/-! Streams of proposal parts (`engine/src/util/streaming.rs`), and what the two
reassemblers of such streams share (`starknet/host/src/streaming.rs` and
`test/app/src/streaming.rs`): a `MinHeap` of messages ordered by sequence, which gives back
the message of least sequence first.  The heap is a list kept sorted by sequence: `push` is
an ordered insertion and popping takes the head.  Both reassemblers refuse a sequence they
have seen, so no two messages of one heap share a sequence and the order among equal
sequences, which `BinaryHeap` leaves open, never matters.

A well-formed stream of `n` parts is the messages `0` to `n - 1` carrying the parts, and
`Fin` at `n` (`streamOf`).  Its messages are ordered by sequence and each is named by its
sequence (`eq_of_sequence`). -/

/-- `StreamId`: the bytes a sender names a stream by. -/
structure StreamId where
  bytes : List UInt8
deriving DecidableEq, Repr

inductive StreamContent (τ : Type) where
  | data (value : τ)
  | fin
deriving DecidableEq, Repr

/-- `as_data` and `into_data`. -/
def StreamContent.asData {τ : Type} : StreamContent τ → Option τ
  | .data value => some value
  | .fin => none

structure StreamMessage (τ : Type) where
  streamId : StreamId
  sequence : Nat
  content : StreamContent τ
deriving DecidableEq, Repr

variable {τ : Type}

namespace StreamMessage

/-- `is_first`. -/
def isFirst (msg : StreamMessage τ) : Bool := decide (msg.sequence = 0)

/-- `is_fin`. -/
def isFin (msg : StreamMessage τ) : Bool :=
  match msg.content with
  | .fin => true
  | .data _ => false

end StreamMessage

/-- What a reassembler hands on: the stream's init part, and the data parts in sequence
order.  The source copies the height, round and proposer of the init part; the model keeps
the init part whole. -/
structure ProposalParts (Init τ : Type) where
  init : Init
  parts : List τ
deriving DecidableEq, Repr

/-! ### The heap -/

/-- The order of `MinSeq`: by sequence, least first. -/
def SequenceLe (first second : StreamMessage τ) : Prop := first.sequence ≤ second.sequence

instance : DecidableRel (SequenceLe (τ := τ)) :=
  fun first second => inferInstanceAs (Decidable (first.sequence ≤ second.sequence))

instance : Std.Total (SequenceLe (τ := τ)) := ⟨fun _ _ => Nat.le_total _ _⟩

instance : IsTrans (StreamMessage τ) SequenceLe := ⟨fun _ _ _ => Nat.le_trans⟩

/-- `MinHeap::push`. -/
def push (heap : List (StreamMessage τ)) (msg : StreamMessage τ) : List (StreamMessage τ) :=
  heap.orderedInsert SequenceLe msg

/-- `MinHeap::drain` of the test app: pop every message and keep the data. -/
def drain (heap : List (StreamMessage τ)) : List τ := heap.filterMap (·.content.asData)

@[simp] theorem length_push (heap : List (StreamMessage τ)) (msg : StreamMessage τ) :
    (push heap msg).length = heap.length + 1 :=
  List.orderedInsert_length SequenceLe heap msg

/-! ### Well-formed streams -/

/-- The messages of a stream from sequence `start` on: the parts, then `Fin`. -/
def streamFrom (streamId : StreamId) (start : Nat) : List τ → List (StreamMessage τ)
  | [] => [⟨streamId, start, .fin⟩]
  | part :: rest => ⟨streamId, start, .data part⟩ :: streamFrom streamId (start + 1) rest

/-- The messages of a stream of parts: the parts at sequences `0` to `n - 1`, `Fin` at `n`. -/
def streamOf (streamId : StreamId) (parts : List τ) : List (StreamMessage τ) :=
  streamFrom streamId 0 parts

section Stream

variable {streamId : StreamId}

theorem sequence_of_mem_streamFrom {start : Nat} {parts : List τ} {msg : StreamMessage τ}
    (member : msg ∈ streamFrom streamId start parts) :
    start ≤ msg.sequence ∧ msg.sequence ≤ start + parts.length := by
  induction parts generalizing start with
  | nil =>
      simp only [streamFrom, List.mem_singleton] at member
      subst member
      simp
  | cons part rest ih =>
      simp only [streamFrom, List.mem_cons] at member
      rcases member with rfl | later
      · simp
      · have := ih later
        simp only [List.length_cons]
        omega

theorem streamId_of_mem_streamFrom {start : Nat} {parts : List τ} {msg : StreamMessage τ}
    (member : msg ∈ streamFrom streamId start parts) : msg.streamId = streamId := by
  induction parts generalizing start with
  | nil =>
      simp only [streamFrom, List.mem_singleton] at member
      rw [member]
  | cons part rest ih =>
      simp only [streamFrom, List.mem_cons] at member
      rcases member with rfl | later
      · rfl
      · exact ih later

/-- The sequences of a stream increase from message to message. -/
theorem streamFrom_increasing (start : Nat) (parts : List τ) :
    (streamFrom streamId start parts).Pairwise fun first second =>
      first.sequence < second.sequence := by
  induction parts generalizing start with
  | nil => simp [streamFrom]
  | cons part rest ih =>
      refine List.Pairwise.cons (fun later member => ?_) (ih (start + 1))
      have := sequence_of_mem_streamFrom member
      simp only
      omega

/-- Two messages of a stream with the same sequence are the same message. -/
theorem eq_of_sequence {parts : List τ} {first second : StreamMessage τ}
    (firstMember : first ∈ streamOf streamId parts) (secondMember : second ∈ streamOf streamId parts)
    (same : first.sequence = second.sequence) : first = second := by
  have increasing : ∀ i j, i < j → ((streamOf streamId parts).get i).sequence <
      ((streamOf streamId parts).get j).sequence :=
    List.pairwise_iff_get.mp (streamFrom_increasing 0 parts)
  obtain ⟨i, rfl⟩ := List.get_of_mem firstMember
  obtain ⟨j, rfl⟩ := List.get_of_mem secondMember
  rcases lt_trichotomy i j with before | rfl | after
  · exact absurd same (Nat.ne_of_lt (increasing i j before))
  · rfl
  · exact absurd same.symm (Nat.ne_of_lt (increasing j i after))

/-- The data of a stream's messages is its parts, in order. -/
theorem drain_streamFrom (start : Nat) (parts : List τ) :
    drain (streamFrom streamId start parts) = parts := by
  induction parts generalizing start with
  | nil => rfl
  | cons part rest ih =>
      simp only [streamFrom, drain, List.filterMap_cons, StreamContent.asData] at ih ⊢
      rw [ih]

theorem length_streamFrom (start : Nat) (parts : List τ) :
    (streamFrom streamId start parts).length = parts.length + 1 := by
  induction parts generalizing start with
  | nil => rfl
  | cons part rest ih => simp [streamFrom, ih]

theorem mem_streamFrom_fin (start : Nat) (parts : List τ) :
    (⟨streamId, start + parts.length, .fin⟩ : StreamMessage τ) ∈ streamFrom streamId start parts := by
  induction parts generalizing start with
  | nil => simp [streamFrom]
  | cons part rest ih =>
      have later := ih (start + 1)
      simp only [List.length_cons, streamFrom, List.mem_cons]
      exact .inr (by rw [show start + (rest.length + 1) = start + 1 + rest.length by omega]; exact later)

/-- Every sequence from `start` to the end has its message. -/
theorem exists_mem_streamFrom {start sequence : Nat} {parts : List τ} (atLeast : start ≤ sequence)
    (atMost : sequence ≤ start + parts.length) :
    ∃ msg ∈ streamFrom streamId start parts, msg.sequence = sequence := by
  induction parts generalizing start with
  | nil =>
      simp only [List.length_nil, Nat.add_zero] at atMost
      exact ⟨_, List.mem_singleton_self _, show start = sequence by omega⟩
  | cons part rest ih =>
      by_cases here : sequence = start
      · exact ⟨_, List.mem_cons_self, here.symm⟩
      · obtain ⟨msg, member, same⟩ := @ih (start + 1) (by omega)
          (by simp only [List.length_cons] at atMost; omega)
        exact ⟨msg, List.mem_cons_of_mem _ member, same⟩

/-- The message of a stream that ends it is `Fin`, and no other is. -/
theorem isFin_iff_of_mem {start : Nat} {parts : List τ} {msg : StreamMessage τ}
    (member : msg ∈ streamFrom streamId start parts) :
    msg.isFin = true ↔ msg.sequence = start + parts.length := by
  induction parts generalizing start with
  | nil =>
      simp only [streamFrom, List.mem_singleton] at member
      subst member
      simp [StreamMessage.isFin]
  | cons part rest ih =>
      simp only [streamFrom, List.mem_cons] at member
      rcases member with rfl | later
      · simp [StreamMessage.isFin]
      · rw [ih later]
        simp only [List.length_cons]
        omega

/-- The message at sequence 0 carries the first part, if any. -/
theorem asData_of_sequence_zero {parts : List τ} {msg : StreamMessage τ}
    (member : msg ∈ streamOf streamId parts) (first : msg.sequence = 0) :
    msg.content.asData = parts.head? := by
  cases parts with
  | nil =>
      simp only [streamOf, streamFrom, List.mem_singleton] at member
      subst member
      rfl
  | cons part rest =>
      simp only [streamOf, streamFrom, List.mem_cons] at member
      rcases member with rfl | later
      · rfl
      · have := (sequence_of_mem_streamFrom later).1
        omega

/-- Putting a message of a stream into a heap that holds the stream's messages of some
sequences gives the messages of those sequences and of the message's own. -/
theorem push_filter {stream : List (StreamMessage τ)}
    (increasing : stream.Pairwise fun first second => first.sequence < second.sequence)
    {kept : StreamMessage τ → Bool} {msg : StreamMessage τ} (member : msg ∈ stream)
    (fresh : kept msg = false) :
    push (stream.filter kept) msg =
      stream.filter fun other => kept other || msg.sequence == other.sequence := by
  induction stream with
  | nil => cases member
  | cons head rest ih =>
      obtain ⟨above, restIncreasing⟩ := List.pairwise_cons.mp increasing
      rcases List.mem_cons.mp member with rfl | later
      · -- the message goes first, and no later message shares its sequence
        have others : (rest.filter fun other => kept other || msg.sequence == other.sequence) =
            rest.filter kept := by
          refine List.filter_congr fun other otherMember => ?_
          have := above other otherMember
          simp only [Bool.or_eq_left_iff_imp, beq_iff_eq]
          omega
        have first : push (rest.filter kept) msg = msg :: rest.filter kept := by
          cases filtered : rest.filter kept with
          | nil => rfl
          | cons next more =>
              have nextMember : next ∈ rest := by
                have := List.mem_filter.mp (filtered ▸ List.mem_cons_self : next ∈ rest.filter kept)
                exact this.1
              exact List.orderedInsert_cons_of_le SequenceLe more
                (Nat.le_of_lt (above next nextMember))
        simp [fresh, others, first]
      · have before : head.sequence < msg.sequence := above msg later
        have notSame : (msg.sequence == head.sequence) = false := by
          simp only [beq_eq_false_iff_ne, ne_eq]
          omega
        cases headKept : kept head
        · simp [headKept, notSame, ih restIncreasing later]
        · have notFirst : ¬SequenceLe msg head := by
            simp only [SequenceLe]
            omega
          simp only [List.filter_cons, headKept, if_true, notSame, Bool.or_false]
          rw [push, List.orderedInsert_of_not_le SequenceLe _ notFirst, ← push, ih restIncreasing later]

/-- The messages of a stream from sequence `start + k` on are those of its parts after the
first `k`. -/
theorem filter_streamFrom_le {start k : Nat} {parts : List τ} (within : k ≤ parts.length) :
    (streamFrom streamId start parts).filter (fun msg => start + k ≤ msg.sequence) =
      streamFrom streamId (start + k) (parts.drop k) := by
  induction k generalizing start parts with
  | zero =>
      refine List.filter_eq_self.mpr fun msg member => ?_
      simpa using (sequence_of_mem_streamFrom member).1
  | succ k ih =>
      cases parts with
      | nil => simp at within
      | cons part rest =>
          have later := @ih (start + 1) rest (by simpa using within)
          simp only [streamFrom, List.filter_cons, List.drop_succ_cons]
          rw [if_neg (by simp), show start + (k + 1) = start + 1 + k by omega]
          exact later

end Stream

/-! ### Deliveries -/

/-- Whether a message of the sequence was delivered. -/
def seenIn (delivered : List (StreamMessage τ)) (sequence : Nat) : Bool :=
  delivered.any fun msg => msg.sequence == sequence

/-- Every message of the stream was delivered. -/
def Covers (streamId : StreamId) (parts : List τ) (delivered : List (StreamMessage τ)) : Prop :=
  ∀ msg ∈ streamOf streamId parts, seenIn delivered msg.sequence = true

instance {streamId : StreamId} {parts : List τ} {delivered : List (StreamMessage τ)} :
    Decidable (Covers streamId parts delivered) :=
  inferInstanceAs (Decidable (∀ msg ∈ streamOf streamId parts, seenIn delivered msg.sequence = true))

theorem seenIn_iff {delivered : List (StreamMessage τ)} {sequence : Nat} :
    seenIn delivered sequence = true ↔ ∃ msg ∈ delivered, msg.sequence = sequence := by
  simp [seenIn]

theorem seenIn_append_single (delivered : List (StreamMessage τ)) (msg : StreamMessage τ)
    (sequence : Nat) :
    seenIn (delivered ++ [msg]) sequence = (seenIn delivered sequence || msg.sequence == sequence) := by
  simp [seenIn]

/-- The stream is covered when every sequence from 0 to its `Fin` was delivered. -/
theorem covers_iff {streamId : StreamId} {parts : List τ} {delivered : List (StreamMessage τ)} :
    Covers streamId parts delivered ↔
      ∀ sequence ≤ parts.length, ∃ msg ∈ delivered, msg.sequence = sequence := by
  constructor
  · intro covers sequence atMost
    obtain ⟨msg, member, same⟩ : ∃ msg ∈ streamOf streamId parts, msg.sequence = sequence :=
      exists_mem_streamFrom (Nat.zero_le sequence) (by simpa using atMost)
    exact same ▸ seenIn_iff.mp (covers msg member)
  · intro every msg member
    have := (sequence_of_mem_streamFrom member).2
    exact seenIn_iff.mpr (every msg.sequence (by simpa using this))

section Delivered

variable {streamId : StreamId} {parts : List τ} {delivered : List (StreamMessage τ)}
  {msg : StreamMessage τ}

/-- A message of the stream whose sequence was delivered was itself delivered. -/
theorem mem_of_seenIn (within : ∀ other ∈ delivered, other ∈ streamOf streamId parts)
    (member : msg ∈ streamOf streamId parts) (seen : seenIn delivered msg.sequence = true) :
    msg ∈ delivered := by
  obtain ⟨other, otherMember, same⟩ := seenIn_iff.mp seen
  rw [← eq_of_sequence (within other otherMember) member same]
  exact otherMember

theorem seenIn_append_of_mem (member : msg ∈ delivered) :
    seenIn (delivered ++ [msg]) = seenIn delivered := by
  funext sequence
  rw [seenIn_append_single]
  by_cases same : msg.sequence = sequence
  · have seen : seenIn delivered sequence = true := seenIn_iff.mpr ⟨msg, member, same⟩
    simp [seen]
  · simp [same]

theorem isFin_eq (member : msg ∈ streamOf streamId parts) :
    msg.isFin = (msg.sequence == parts.length) := by
  rw [Bool.eq_iff_iff, beq_iff_eq, isFin_iff_of_mem member, Nat.zero_add]

/-- A delivery of messages of the stream that misses one is not complete. -/
theorem not_covers_of_unseen (member : msg ∈ streamOf streamId parts)
    (fresh : seenIn delivered msg.sequence = false) : ¬Covers streamId parts delivered :=
  fun covered => by
    rw [covered msg member] at fresh
    cases fresh

theorem seenIn_append_left (more : List (StreamMessage τ)) {sequence : Nat}
    (seen : seenIn delivered sequence = true) : seenIn (delivered ++ more) sequence = true := by
  simp only [seenIn] at seen ⊢
  simp only [List.any_append, seen, Bool.true_or]

/-- No message covers no stream: each has its `Fin`. -/
theorem not_covers_nil : ¬Covers streamId parts ([] : List (StreamMessage τ)) := fun covered => by
  have := covered ⟨streamId, 0 + parts.length, .fin⟩ (mem_streamFrom_fin 0 parts)
  simp [seenIn] at this

/-- Only a `Fin` message at `u64::MAX` makes `msg.sequence + 1` overflow, and a stream's `Fin`
message is at its length. -/
theorem fits_of_mem (member : msg ∈ streamOf streamId parts)
    (short : parts.length + 1 < Sync.u64Bound) :
    (msg.isFin && decide (Sync.u64Bound ≤ msg.sequence + 1)) = false := by
  rw [isFin_eq member]
  by_cases last : msg.sequence = parts.length
  · simp only [last, BEq.rfl, Bool.true_and, decide_eq_false_iff_not, Nat.not_le]
    exact short
  · simp [last]

/-- Recording the message's sequence records the delivery one longer. -/
theorem seen_cons_iff {seen : List Nat}
    (tracked : ∀ sequence, sequence ∈ seen ↔ seenIn delivered sequence = true) (sequence : Nat) :
    sequence ∈ msg.sequence :: seen ↔ seenIn (delivered ++ [msg]) sequence = true := by
  rw [List.mem_cons, tracked, seenIn_append_single, Bool.or_eq_true, beq_iff_eq]
  exact Or.comm.trans (or_congr_right eq_comm)

/-- More messages cover at least as much. -/
theorem Covers.append (covered : Covers streamId parts delivered) (more : List (StreamMessage τ)) :
    Covers streamId parts (delivered ++ more) := fun msg member =>
  seenIn_append_left more (covered msg member)

end Delivered

end Malachite.Streaming
