import Malachite.Wal.Log

/-! What survives a crash of the write-ahead log.

A log starts from a header (a file `Log::open` creates, or one `restart` resets) and
takes a sequence of writes, each of which succeeds or fails because the storage ran
out of room.  A failed write leaves the file as it was, so the file is the header
followed by the records of the successful writes.  A crash then cuts the file anywhere
after the header.  Reopening it finds exactly the records that lie whole before the
cut, cuts the rest away, and reads back their data in order
(`reopened_after_crash`), provided every entry is at most `MAX_ENTRY_SIZE` bytes:
`write_entry` stores larger entries, which `read_to_next` then refuses
(`oversized_entry_unreadable`). -/

namespace Malachite.Wal

/-- The header of a log with version 1 and the given sequence number. -/
def header (sequence : Nat) : List UInt8 :=
  BigEndian.encode 4 Version.v1.toU32 ++ BigEndian.encode 8 sequence

/-- The log of a new file, or of one `restart` reset, with no entries yet. -/
def fresh (sequence : Nat) : Log := ⟨header sequence, .v1, sequence, 0⟩

inductive CallKind where
  | append
  | writeRaw
  | writeCompressed
deriving DecidableEq, Repr

/-- A write, and the room the storage has for it. -/
structure Call where
  kind : CallKind
  data : List UInt8
  room : Option Nat

/-- The entry `write_compressed` makes of the data. -/
def compressedEntry (build : Build) (data : List UInt8) : WriteEntry :=
  let compressed := build.lz4.compressPrependSize data
  if compressed.length < data.length then .compressed compressed data else .raw data

/-- The entry a call writes. -/
def Call.entry (build : Build) (call : Call) : WriteEntry :=
  match call.kind with
  | .append => if build.forceCompression then compressedEntry build call.data else .raw call.data
  | .writeRaw => .raw call.data
  | .writeCompressed => compressedEntry build call.data

/-- The bytes of an entry's record. -/
def WriteEntry.record (computeCrc : List UInt8 → UInt32) (entry : WriteEntry) : List UInt8 :=
  (entry.chunks computeCrc).flatten

def Call.record (build : Build) (call : Call) : List UInt8 :=
  (call.entry build).record build.computeCrc

def Log.perform (log : Log) (build : Build) (call : Call) : Log × Except IoError Unit :=
  match call.kind with
  | .append => log.append build call.data call.room
  | .writeRaw => log.writeRaw build call.data call.room
  | .writeCompressed => log.writeCompressed build call.data call.room

/-- The calls in order, with their results. -/
def Log.performAll (log : Log) (build : Build) : List Call → Log × List (Except IoError Unit)
  | [] => (log, [])
  | call :: calls =>
      let first := log.perform build call
      let rest := first.1.performAll build calls
      (rest.1, first.2 :: rest.2)

/-- The calls that returned `Ok`. -/
def succeeded : List Call → List (Except IoError Unit) → List Call
  | call :: calls, .ok () :: results => call :: succeeded calls results
  | _ :: calls, .error _ :: results => succeeded calls results
  | _, _ => []

/-- How many of the records lie whole within `room` bytes. -/
def wholeRecords : Nat → List (List UInt8) → Nat
  | _, [] => 0
  | room, record :: rest =>
      if record.length ≤ room then wholeRecords (room - record.length) rest + 1 else 0

/-- The calls on a fresh log that succeeded and whose records lie whole before a cut of the
file at `cut` bytes. -/
def survivingCalls (build : Build) (sequence : Nat) (calls : List Call) (cut : Nat) : List Call :=
  let written := succeeded calls ((fresh sequence).performAll build calls).2
  written.take (wholeRecords (cut - headerSize) (written.map (·.record build)))

/-! ### Writing -/

theorem overwrite_end (file buffer : List UInt8) :
    overwrite file file.length buffer = file ++ buffer := by
  simp [overwrite]

/-- Writing at the end of the file appends what fits in the storage's room. -/
theorem writeChunks_end (file : List UInt8) (room : Option Nat) (chunks : List (List UInt8)) :
    writeChunks file file.length room chunks =
      if room.all (chunks.flatten.length ≤ ·) then (file ++ chunks.flatten, .ok ())
      else (file ++ chunks.flatten.take (room.getD 0), .error .storage) := by
  induction chunks generalizing file room with
  | nil => cases room <;> simp [writeChunks]
  | cons chunk rest ih =>
      have grown : (file ++ chunk).length = file.length + chunk.length := List.length_append
      cases room with
      | none =>
          simp only [writeChunks, overwrite_end, ← grown, ih]
          simp
      | some left =>
          simp only [writeChunks, overwrite_end]
          split
          · -- the first buffer does not fit
            next short =>
            have tooLong : ¬(chunk ++ rest.flatten).length ≤ left := by
              rw [List.length_append]; omega
            rw [List.flatten_cons, Option.all_some, decide_eq_false tooLong]
            simp [List.take_append_of_le_length short.le]
          · next fits =>
            rw [← grown, ih, List.flatten_cons]
            by_cases restFits : rest.flatten.length ≤ left - chunk.length
            · have allFit : (chunk ++ rest.flatten).length ≤ left := by
                rw [List.length_append]; omega
              simp only [Option.all_some, decide_eq_true restFits, decide_eq_true allFit]
              simp
            · have tooLong : ¬(chunk ++ rest.flatten).length ≤ left := by
                rw [List.length_append]; omega
              simp only [Option.all_some, decide_eq_false restFits, decide_eq_false tooLong]
              simp [List.take_append, Nat.le_of_not_lt fits]

/-- `write_entry` appends the whole record, or fails and leaves the log as it was. -/
theorem writeEntry_eq (log : Log) (computeCrc : List UInt8 → UInt32) (entry : WriteEntry)
    (room : Option Nat) :
    log.writeEntry computeCrc entry room =
      if room.all ((entry.record computeCrc).length ≤ ·) then
        ({ log with file := log.file ++ entry.record computeCrc, len := log.len + 1 }, .ok ())
      else (log, .error .storage) := by
  rw [Log.writeEntry, writeChunks_end]
  by_cases fits : room.all ((entry.chunks computeCrc).flatten.length ≤ ·) = true
  · rw [WriteEntry.record, if_pos fits, if_pos fits]
  · rw [WriteEntry.record, if_neg fits, if_neg fits]
    simp

theorem perform_eq (log : Log) (build : Build) (call : Call) :
    log.perform build call = log.writeEntry build.computeCrc (call.entry build) call.room := by
  cases kind : call.kind <;>
    simp [Log.perform, Call.entry, kind, Log.append, Log.writeRaw, Log.writeCompressed,
      compressedEntry]
  split <;> rfl

/-- After the calls the file is the old one followed by the records of those that
succeeded, and the sequence number stays. -/
theorem performAll_file (log : Log) (build : Build) (calls : List Call) :
    (log.performAll build calls).1.file =
        log.file ++ ((succeeded calls (log.performAll build calls).2).map (·.record build)).flatten ∧
      (log.performAll build calls).1.sequence = log.sequence := by
  induction calls generalizing log with
  | nil => simp [Log.performAll, succeeded]
  | cons call calls ih =>
      simp only [Log.performAll, perform_eq, writeEntry_eq]
      split
      · obtain ⟨file, sequence⟩ :=
          ih { log with file := log.file ++ call.record build, len := log.len + 1 }
        refine ⟨?_, sequence⟩
        simp only [succeeded, List.map_cons, List.flatten_cons, Call.record] at file ⊢
        rw [file, List.append_assoc]
      · obtain ⟨file, sequence⟩ := ih log
        exact ⟨by simpa only [succeeded] using file, sequence⟩

/-! ### Scanning at open -/

namespace WriteEntry

/-- The data an entry stands for. -/
def uncompressed : WriteEntry → List UInt8
  | .raw data => data
  | .compressed _ uncompressed => uncompressed

theorem record_eq (computeCrc : List UInt8 → UInt32) (entry : WriteEntry) :
    entry.record computeCrc =
      (if entry.isCompressed then 1 else 0) ::
        (BigEndian.encode 8 entry.len ++
          (BigEndian.encode 4 (entry.uncompressedCrc computeCrc).toNat ++ entry.data)) := by
  simp [record, chunks]

theorem length_record (computeCrc : List UInt8 → UInt32) (entry : WriteEntry) :
    (entry.record computeCrc).length = entryHeaderSize + entry.len := by
  simp [record_eq, len, entryHeaderSize, entryCompressionFlagSize, entryLengthSize, entryCrcSize]
  omega

theorem uncompressedCrc_eq (computeCrc : List UInt8 → UInt32) (entry : WriteEntry) :
    entry.uncompressedCrc computeCrc = computeCrc entry.uncompressed := by
  cases entry <;> rfl

end WriteEntry

theorem slice_length_field (flag : UInt8) (field rest : List UInt8) (width : field.length = 8) :
    slice (flag :: (field ++ rest)) 1 8 = field := by
  simp [slice, ← width]

/-- The sizes the scan computes for a record whose payload can be sought over. -/
theorem entrySizes {length : Nat} (seekable : length + entryCrcSize ≤ i64Max) :
    checkedAdd length entryHeaderSize = some (length + 13) ∧
      checkedAdd length entryCrcSize = some (length + 4) ∧ length + 4 ≤ i64Max ∧
      length < 256 ^ 8 := by
  have bounded : length ≤ 9223372036854775803 := by
    simp only [entryCrcSize, i64Max] at seekable
    norm_num at seekable
    omega
  refine ⟨?_, ?_, seekable, by norm_num; omega⟩
  · rw [checkedAdd, if_pos (by norm_num [entryHeaderSize, entryCompressionFlagSize,
      entryLengthSize, entryCrcSize]; omega)]
    rfl
  · rw [checkedAdd, if_pos (by norm_num [entryCrcSize]; omega)]
    rfl

/-- A whole record is skipped over by the open-time scan. -/
theorem scanEntries_whole (computeCrc : List UInt8 → UInt32) (entry : WriteEntry)
    (rest : List UInt8) (pos len : Nat) (seekable : entry.len + entryCrcSize ≤ i64Max) :
    scanEntries (entry.record computeCrc ++ rest) pos len =
      scanEntries rest (pos + (entry.record computeCrc).length) (len + 1) := by
  have whole : (entry.record computeCrc).length = 13 + entry.len := entry.length_record computeCrc
  obtain ⟨fullSize, payloadSize, belowMax, fits⟩ := entrySizes seekable
  have lengthRead : BigEndian.decode (slice (entry.record computeCrc ++ rest) 1 8) = entry.len := by
    rw [entry.record_eq computeCrc, List.cons_append, List.append_assoc,
      slice_length_field _ _ _ (BigEndian.length_encode 8 _)]
    exact BigEndian.decode_encode_of_lt fits
  rw [scanEntries]
  simp only [entryCompressionFlagSize, entryLengthSize, List.length_append, lengthRead]
  rw [if_pos (by omega), fullSize]
  dsimp only
  rw [if_neg (by omega), payloadSize]
  dsimp only
  rw [if_neg (by omega), List.drop_append_of_le_length (by omega),
    List.drop_of_length_le (by omega), List.nil_append]
  congr 1
  omega

theorem slice_take (bytes : List UInt8) {offset count room : Nat} (within : offset + count ≤ room) :
    slice (bytes.take room) offset count = slice bytes offset count := by
  rw [slice, slice, List.drop_take, List.take_take, Nat.min_eq_left (by omega)]

/-- A record cut short ends the scan before it. -/
theorem scanEntries_partial (computeCrc : List UInt8 → UInt32) (entry : WriteEntry)
    {room : Nat} (pos len : Nat) (short : room < (entry.record computeCrc).length)
    (seekable : entry.len + entryCrcSize ≤ i64Max) :
    scanEntries ((entry.record computeCrc).take room) pos len = .ok (pos, len) := by
  have whole : (entry.record computeCrc).length = 13 + entry.len := entry.length_record computeCrc
  obtain ⟨fullSize, -, -, fits⟩ := entrySizes seekable
  have cut : ((entry.record computeCrc).take room).length = room := List.length_take_of_le short.le
  rw [scanEntries]
  simp only [entryCompressionFlagSize, entryLengthSize, cut]
  by_cases nine : 1 + 8 ≤ room
  · have lengthRead :
        BigEndian.decode (slice ((entry.record computeCrc).take room) 1 8) = entry.len := by
      rw [slice_take _ nine, entry.record_eq computeCrc,
        slice_length_field _ _ _ (BigEndian.length_encode 8 _)]
      exact BigEndian.decode_encode_of_lt fits
    rw [if_pos nine, lengthRead, fullSize]
    dsimp only
    rw [if_pos (by omega)]
  · rw [if_neg nine]

/-- The open-time scan over the records that survived a cut: it counts the whole ones and
stops after them. -/
theorem scanEntries_records (computeCrc : List UInt8 → UInt32) (entries : List WriteEntry)
    (seekable : ∀ entry ∈ entries, entry.len + entryCrcSize ≤ i64Max) (room pos len : Nat) :
    scanEntries ((entries.map (·.record computeCrc)).flatten.take room) pos len =
      .ok (pos + ((entries.map (·.record computeCrc)).take
          (wholeRecords room (entries.map (·.record computeCrc)))).flatten.length,
        len + wholeRecords room (entries.map (·.record computeCrc))) := by
  induction entries generalizing room pos len with
  | nil =>
      rw [List.map_nil, List.flatten_nil, List.take_nil, scanEntries,
        if_neg (by simp [entryCompressionFlagSize, entryLengthSize])]
      simp [wholeRecords]
  | cons entry entries ih =>
      have entrySeekable := seekable entry List.mem_cons_self
      have restSeekable := fun other member => seekable other (List.mem_cons_of_mem entry member)
      simp only [List.map_cons, List.flatten_cons]
      by_cases fits : (entry.record computeCrc).length ≤ room
      · -- the record is whole: skip it and scan the rest of the cut
        rw [List.take_append, List.take_of_length_le fits,
          scanEntries_whole computeCrc entry _ pos len entrySeekable, ih restSeekable]
        simp only [wholeRecords, if_pos fits, List.take_succ_cons, List.flatten_cons,
          List.length_append]
        congr 2
        · omega
        · omega
      · rw [List.take_append_of_le_length (by omega),
          scanEntries_partial computeCrc entry pos len (by omega) entrySeekable]
        simp [wholeRecords, fits]

/-! ### Reading back -/

/-- An entry `read_to_next` gives back: within `MAX_ENTRY_SIZE`, and, when compressed,
decompressing to the data it stands for. -/
structure Readable (build : Build) (entry : WriteEntry) : Prop where
  bounded : entry.len ≤ maxEntrySize
  decompresses : entry.isCompressed = true →
    build.lz4.decompressSizePrepended entry.data = .ok entry.uncompressed

theorem Call.entry_uncompressed (build : Build) (call : Call) :
    (call.entry build).uncompressed = call.data := by
  simp only [Call.entry, compressedEntry]
  split <;> (try split) <;> (try split) <;> rfl

theorem Call.readable_entry (build : Build) {call : Call} (small : call.data.length ≤ maxEntrySize) :
    Readable build (call.entry build) := by
  have compressedReadable : Readable build (compressedEntry build call.data) := by
    simp only [compressedEntry]
    split
    · next shorter =>
      exact ⟨by simp only [WriteEntry.len, WriteEntry.data]; omega,
        fun _ => build.lz4.roundTrips call.data⟩
    · exact ⟨small, fun raw => by cases raw⟩
  have rawReadable : Readable build (.raw call.data) := ⟨small, fun raw => by cases raw⟩
  simp only [Call.entry]
  split
  · split
    · exact compressedReadable
    · exact rawReadable
  · exact rawReadable
  · exact compressedReadable

/-- Bytes read inside one part of a file are read from that part. -/
theorem slice_append_middle (front middle rest : List UInt8) {offset count : Nat}
    (inside : offset + count ≤ middle.length) :
    slice (front ++ middle ++ rest) (front.length + offset) count = slice middle offset count := by
  rw [slice, slice, List.append_assoc, List.drop_append, List.drop_eq_nil_of_le (by omega),
    List.nil_append, Nat.add_sub_cancel_left, List.drop_append_of_le_length (by omega),
    List.take_append_of_le_length (by simp; omega)]

theorem record_slices (computeCrc : List UInt8 → UInt32) (entry : WriteEntry) :
    slice (entry.record computeCrc) 0 1 = [if entry.isCompressed then 1 else 0] ∧
      slice (entry.record computeCrc) 1 8 = BigEndian.encode 8 entry.len ∧
      slice (entry.record computeCrc) 9 4 =
        BigEndian.encode 4 (entry.uncompressedCrc computeCrc).toNat ∧
      slice (entry.record computeCrc) entryHeaderSize entry.len = entry.data := by
  rw [entry.record_eq computeCrc]
  refine ⟨rfl, ?_, ?_, ?_⟩
  · simp [slice]
  · simp [slice]
  · rw [slice, show entryHeaderSize = 12 + 1 from rfl, List.drop_succ_cons, ← List.append_assoc,
      List.drop_left' (by simp), WriteEntry.len, List.take_length]

/-- What `read_to_next` reads of a record in a file: its flag, length, CRC and data. -/
theorem record_fields (computeCrc : List UInt8 → UInt32) (front rest : List UInt8)
    {entry : WriteEntry} (fits : entry.len < 256 ^ 8) :
    ((slice (front ++ entry.record computeCrc ++ rest) front.length 1).headD 0 != 0) =
        entry.isCompressed ∧
      BigEndian.decode (slice (front ++ entry.record computeCrc ++ rest) (front.length + 1) 8) =
        entry.len ∧
      BigEndian.decode (slice (front ++ entry.record computeCrc ++ rest) (front.length + 9) 4) =
        (computeCrc entry.uncompressed).toNat ∧
      slice (front ++ entry.record computeCrc ++ rest) (front.length + 13) entry.len = entry.data := by
  have whole : (entry.record computeCrc).length = 13 + entry.len := entry.length_record computeCrc
  obtain ⟨flagField, lengthField, crcField, dataField⟩ := record_slices computeCrc entry
  refine ⟨?_, ?_, ?_, ?_⟩
  · rw [← Nat.add_zero front.length, slice_append_middle _ _ _ (by omega), flagField]
    cases entry.isCompressed <;> rfl
  · rw [slice_append_middle _ _ _ (by omega), lengthField, BigEndian.decode_encode_of_lt fits]
  · rw [slice_append_middle _ _ _ (by omega), crcField,
      BigEndian.decode_encode_of_lt (by simpa using UInt32.toNat_lt _), entry.uncompressedCrc_eq]
  · rw [slice_append_middle _ _ _ (by omega), show 13 = entryHeaderSize from rfl, dataField]

theorem length_record_file (computeCrc : List UInt8 → UInt32) (front rest : List UInt8)
    (entry : WriteEntry) :
    (front ++ entry.record computeCrc ++ rest).length = front.length + 13 + entry.len + rest.length := by
  simp only [List.length_append, entry.length_record computeCrc]
  rw [show entryHeaderSize = 13 from rfl]
  omega

/-- `read_to_next` on a record of the file: it gives back the entry's data, and goes on
to the next record if the file does. -/
theorem readEntries_record (build : Build) (front rest : List UInt8) {entry : WriteEntry}
    (readable : Readable build entry) :
    readEntries build (front ++ entry.record build.computeCrc ++ rest) front.length =
      .ok entry.uncompressed ::
        if rest = [] then []
        else readEntries build (front ++ entry.record build.computeCrc ++ rest)
          (front.length + (entry.record build.computeCrc).length) := by
  have fits : entry.len < 256 ^ 8 := by
    have := readable.bounded
    simp only [maxEntrySize] at this
    omega
  obtain ⟨flagRead, lengthRead, crcRead, stored⟩ := record_fields build.computeCrc front rest fits
  have length := length_record_file build.computeCrc front rest entry
  have decoded : (if entry.isCompressed = true then build.lz4.decompressSizePrepended entry.data
      else .ok entry.data) = .ok entry.uncompressed := by
    cases compressed : entry.isCompressed with
    | false =>
        cases entry with
        | raw data => rfl
        | compressed _ _ => cases compressed
    | true => exact readable.decompresses compressed
  rw [readEntries]
  simp only [entryLengthSize, entryCrcSize, show entryHeaderSize = 13 from rfl, flagRead,
    lengthRead, crcRead, stored]
  rw [if_pos (by omega), if_neg (not_lt.mpr readable.bounded), if_neg (by omega), decoded]
  dsimp only
  rw [if_neg (not_not.mpr rfl)]
  by_cases ended : rest = []
  · rw [if_neg (by rw [length, ended, List.length_nil]; omega), if_pos ended]
  · have more : 0 < rest.length := List.length_pos_iff.mpr ended
    rw [if_pos (by omega), if_neg ended, entry.length_record, Nat.add_assoc]
    rfl

/-- `read_to_next` refuses a record longer than `MAX_ENTRY_SIZE`, whatever follows it. -/
theorem readEntries_oversized (build : Build) (front rest : List UInt8) {entry : WriteEntry}
    (oversized : maxEntrySize < entry.len) (fits : entry.len < 256 ^ 8) :
    readEntries build (front ++ entry.record build.computeCrc ++ rest) front.length =
      [.error (.io .invalidData s!"Entry size {entry.len} exceeds maximum of {maxEntrySize}")] := by
  obtain ⟨-, lengthRead, -, -⟩ := record_fields build.computeCrc front rest fits
  have length := length_record_file build.computeCrc front rest entry
  rw [readEntries]
  simp only [entryLengthSize, lengthRead]
  rw [if_pos (by simp only [entryHeaderSize, entryCompressionFlagSize, entryLengthSize,
    entryCrcSize]; omega), if_pos oversized]

theorem record_ne_nil (computeCrc : List UInt8 → UInt32) (entry : WriteEntry) :
    entry.record computeCrc ≠ [] := by
  rw [entry.record_eq computeCrc]
  exact List.cons_ne_nil _ _

/-- The reader over a file of records from `front` on gives back every entry's data. -/
theorem readEntries_records (build : Build) (front : List UInt8) {entries : List WriteEntry}
    (nonempty : entries ≠ []) (readable : ∀ entry ∈ entries, Readable build entry) :
    readEntries build (front ++ (entries.map (·.record build.computeCrc)).flatten) front.length =
      entries.map fun entry => .ok entry.uncompressed := by
  induction entries generalizing front with
  | nil => contradiction
  | cons entry entries ih =>
      have laterReadable := fun other member => readable other (List.mem_cons_of_mem entry member)
      simp only [List.map_cons, List.flatten_cons, ← List.append_assoc]
      rw [readEntries_record build front _ (readable entry List.mem_cons_self)]
      cases entries with
      | nil => simp
      | cons next later =>
          have more : ((next :: later).map (·.record build.computeCrc)).flatten ≠ [] := by
            simp [record_ne_nil]
          rw [if_neg more, ← List.length_append,
            ih (front ++ entry.record build.computeCrc) (List.cons_ne_nil _ _) laterReadable]

/-! ### Reopening after a crash -/

theorem wholeRecords_le_length (room : Nat) (records : List (List UInt8)) :
    wholeRecords room records ≤ records.length := by
  induction records generalizing room with
  | nil => simp [wholeRecords]
  | cons record rest ih =>
      simp only [wholeRecords, List.length_cons]
      split
      · exact Nat.succ_le_succ (ih _)
      · exact Nat.zero_le _

/-- Records that all fit are all whole. -/
theorem wholeRecords_of_length_le {room : Nat} {records : List (List UInt8)}
    (fits : records.flatten.length ≤ room) : wholeRecords room records = records.length := by
  induction records generalizing room with
  | nil => rfl
  | cons record rest ih =>
      simp only [List.flatten_cons, List.length_append] at fits
      simp only [wholeRecords, List.length_cons, if_pos (show record.length ≤ room by omega)]
      rw [ih (by omega)]

/-- The whole records lie within the room they were counted in. -/
theorem length_wholeRecords_le (room : Nat) (records : List (List UInt8)) :
    (records.take (wholeRecords room records)).flatten.length ≤ room := by
  induction records generalizing room with
  | nil => simp [wholeRecords]
  | cons record rest ih =>
      simp only [wholeRecords]
      split
      · next fits =>
        have := ih (room - record.length)
        simp only [List.take_succ_cons, List.flatten_cons, List.length_append]
        omega
      · simp

/-- The whole records are what a cut keeps of them, cut again where they end. -/
theorem take_flatten_wholeRecords (room : Nat) (records : List (List UInt8)) :
    (records.flatten.take room).take (records.take (wholeRecords room records)).flatten.length =
      (records.take (wholeRecords room records)).flatten := by
  have split := congrArg List.flatten (List.take_append_drop (wholeRecords room records) records)
  rw [List.take_take, Nat.min_eq_left (length_wholeRecords_le room records), ← split,
    List.flatten_append, List.take_left' rfl]

theorem slice_header (sequence : Nat) (rest : List UInt8) :
    slice (header sequence ++ rest) 0 4 = BigEndian.encode 4 1 ∧
      slice (header sequence ++ rest) sequenceOffset 8 = BigEndian.encode 8 sequence := by
  constructor
  · simp [slice, header, Version.toU32, List.append_assoc]
  · simp [slice, header, sequenceOffset, versionSize, List.append_assoc]

/-- `Log::open` of a log cut after its header: the header is read back, and the scan
keeps the whole records. -/
theorem openWith_cut (computeCrc : List UInt8 → UInt32) {sequence : Nat} (fitsU64 : sequence < 2 ^ 64)
    {entries : List WriteEntry} (seekable : ∀ entry ∈ entries, entry.len + entryCrcSize ≤ i64Max)
    {cut : Nat} (afterHeader : headerSize ≤ cut) (room : Option Nat) :
    openWith ((header sequence ++ (entries.map (·.record computeCrc)).flatten).take cut) room =
      .ok ⟨header sequence ++ ((entries.map (·.record computeCrc)).take
          (wholeRecords (cut - headerSize) (entries.map (·.record computeCrc)))).flatten,
        .v1, sequence, wholeRecords (cut - headerSize) (entries.map (·.record computeCrc))⟩ := by
  have headerLength : (header sequence).length = 12 := by simp [header]
  have twelve : headerSize = 12 := rfl
  obtain ⟨versionBytes, sequenceBytes⟩ := slice_header sequence
    ((entries.map (·.record computeCrc)).flatten.take (cut - headerSize))
  rw [List.take_append, List.take_of_length_le (by omega), headerLength, ← twelve]
  have longer : 12 ≤ (header sequence ++ (entries.map (·.record computeCrc)).flatten.take
      (cut - headerSize)).length := by simp [headerLength]
  have readVersion : readU32At (header sequence ++ (entries.map (·.record computeCrc)).flatten.take
      (cut - headerSize)) 0 = .ok 1 := by
    rw [readU32At, if_pos (by omega), versionBytes, BigEndian.decode_encode_of_lt (by norm_num)]
  have readSequence : readU64At (header sequence ++ (entries.map (·.record computeCrc)).flatten.take
      (cut - headerSize)) sequenceOffset = .ok sequence := by
    rw [readU64At, if_pos (by simp only [sequenceOffset, versionSize]; omega), sequenceBytes,
      BigEndian.decode_encode_of_lt (by norm_num; omega)]
  rw [openWith, if_pos (by omega), readVersion]
  dsimp only
  rw [show Version.tryFrom 1 = some .v1 from rfl]
  dsimp only
  rw [readSequence]
  dsimp only
  rw [firstEntryOffset, twelve, List.drop_left' headerLength,
    scanEntries_records computeCrc entries seekable]
  dsimp only
  rw [List.take_append, List.take_of_length_le (by omega), headerLength, Nat.add_sub_cancel_left,
    take_flatten_wholeRecords, Nat.zero_add]

/-- `Log::iter` over a log of whole records gives back the data of each. -/
theorem iter_records (build : Build) (sequence : Nat) {entries : List WriteEntry}
    (readable : ∀ entry ∈ entries, Readable build entry) :
    (⟨header sequence ++ (entries.map (·.record build.computeCrc)).flatten, .v1, sequence,
        entries.length⟩ : Log).iter build =
      .ok (entries.map fun entry => .ok entry.uncompressed) := by
  have headerLength : (header sequence).length = firstEntryOffset := by
    simp [header, firstEntryOffset, headerSize, versionSize, sequenceSize]
  rw [Log.iter, if_neg (by simp [headerLength, firstEntryOffset, headerSize, versionSize])]
  cases entries with
  | nil => simp
  | cons entry entries =>
      rw [if_neg (by simp), ← headerLength,
        readEntries_records build (header sequence) (List.cons_ne_nil _ _) readable]

theorem succeeded_sublist (calls : List Call) (results : List (Except IoError Unit)) :
    (succeeded calls results).Sublist calls := by
  induction calls generalizing results with
  | nil => simp [succeeded]
  | cons call calls ih =>
      cases results with
      | nil => simp [succeeded]
      | cons result results =>
          cases result with
          | ok _ => exact (ih results).cons_cons call
          | error _ => exact (ih results).cons call

/-- A build with no compression and a zero checksum. -/
def plainBuild : Build := ⟨⟨id, .ok, fun _ => rfl⟩, false, fun _ => 0⟩

/-- Durability of the log within `MAX_ENTRY_SIZE`: after any calls on a log with a fresh
header and a crash that keeps at least the header, `Log::open` finds the sequence number and
the calls that succeeded whose records survived whole, cuts the file after them, and `iter`
reads their data back in order.  What survives is a prefix of the calls that succeeded, and
all of them when the crash cut nothing. -/
theorem reopened_after_crash (build : Build) (sequence : Nat) (calls : List Call) (cut : Nat)
    (room : Option Nat) (fitsU64 : sequence < 2 ^ 64) (afterHeader : headerSize ≤ cut)
    (small : ∀ call ∈ calls, call.data.length ≤ maxEntrySize) :
    (∃ opened, openWith (((fresh sequence).performAll build calls).1.file.take cut) room =
        .ok opened ∧
      opened.sequence = sequence ∧ opened.len = (survivingCalls build sequence calls cut).length ∧
      opened.iter build =
        .ok ((survivingCalls build sequence calls cut).map fun call => .ok call.data) ∧
      opened.file =
        header sequence ++ ((survivingCalls build sequence calls cut).map (·.record build)).flatten) ∧
    survivingCalls build sequence calls cut <+:
      succeeded calls ((fresh sequence).performAll build calls).2 ∧
    (((fresh sequence).performAll build calls).1.file.length ≤ cut →
      survivingCalls build sequence calls cut =
        succeeded calls ((fresh sequence).performAll build calls).2) := by
  set after := (fresh sequence).performAll build calls
  set written := succeeded calls after.2
  set survived := wholeRecords (cut - headerSize) (written.map (·.record build))
  have surviving : survivingCalls build sequence calls cut = written.take survived := rfl
  have records : written.map (·.record build) =
      (written.map (·.entry build)).map (·.record build.computeCrc) := by
    simp [Call.record, Function.comp_def]
  have readable : ∀ entry ∈ written.map (·.entry build), Readable build entry := by
    intro entry member
    obtain ⟨call, written, rfl⟩ := List.mem_map.mp member
    exact Call.readable_entry build
      (small call ((succeeded_sublist calls after.2).subset written))
  have seekable : ∀ entry ∈ written.map (·.entry build), entry.len + entryCrcSize ≤ i64Max := by
    intro entry member
    have := (readable entry member).bounded
    simp only [maxEntrySize, entryCrcSize, i64Max] at this ⊢
    omega
  have survivedLe : survived ≤ written.length := by
    simpa using wholeRecords_le_length (cut - headerSize) (written.map (·.record build))
  obtain ⟨file, -⟩ := performAll_file (fresh sequence) build calls
  rw [surviving]
  refine ⟨⟨⟨header sequence ++ ((written.take survived).map (·.record build)).flatten, .v1,
    sequence, survived⟩, ?_, rfl, by simp [survivedLe], ?_, rfl⟩, List.take_prefix _ _,
    fun uncut => ?_⟩
  · have survivedEq : survived = wholeRecords (cut - headerSize)
        ((written.map (·.entry build)).map (·.record build.computeCrc)) := by
      rw [← records]
    rw [file, List.map_take, records, survivedEq]
    exact openWith_cut build.computeCrc fitsU64 seekable afterHeader room
  · have entriesLength : ((written.take survived).map (·.entry build)).length = survived := by
      simp only [List.length_map, List.length_take]
      omega
    have taken := @iter_records build sequence ((written.take survived).map (·.entry build))
      fun entry member => readable entry (by
        rw [List.map_take] at member
        exact List.mem_of_mem_take member)
    rw [entriesLength] at taken
    simp only [List.map_map, Function.comp_def, Call.entry_uncompressed] at taken
    exact taken
  · -- without a cut every record is whole
    have headerLength : (fresh sequence).file.length = headerSize := by
      simp [fresh, header, headerSize, versionSize, sequenceSize]
    rw [file, List.length_append, headerLength] at uncut
    change headerSize + (written.map (·.record build)).flatten.length ≤ cut at uncut
    have whole : survived = written.length := by
      simpa using wholeRecords_of_length_le (show (written.map (·.record build)).flatten.length ≤
        cut - headerSize by omega)
    rw [whole, List.take_length]

/-- One append of three bytes, and a crash that keeps the header and 8 of the 16 bytes of
its record: nothing survives, and reopening finds no entry. -/
theorem reopened_after_partial_record :
    let calls : List Call := [⟨.append, [1, 2, 3], none⟩]
    (survivingCalls plainBuild 0 calls 20).length = 0 ∧
      (∃ opened, openWith (((fresh 0).performAll plainBuild calls).1.file.take 20) none =
          .ok opened ∧
        opened.sequence = 0 ∧ opened.len = (survivingCalls plainBuild 0 calls 20).length ∧
        opened.iter plainBuild =
          .ok ((survivingCalls plainBuild 0 calls 20).map fun call => .ok call.data) ∧
        opened.file = header 0 ++
          ((survivingCalls plainBuild 0 calls 20).map (·.record plainBuild)).flatten) ∧
      survivingCalls plainBuild 0 calls 20 <+:
        succeeded calls ((fresh 0).performAll plainBuild calls).2 ∧
      (((fresh 0).performAll plainBuild calls).1.file.length ≤ 20 →
        survivingCalls plainBuild 0 calls 20 =
          succeeded calls ((fresh 0).performAll plainBuild calls).2) := by
  intro calls
  have small : ∀ call ∈ calls, call.data.length ≤ maxEntrySize := by
    simp [calls, maxEntrySize]
  exact ⟨by decide, reopened_after_crash plainBuild 0 calls 20 none (by decide) (by decide) small⟩

/-! ### Where the log starts -/

/-- `Log::open` of an empty file writes the header with sequence zero. -/
theorem openWith_new (room : Option Nat) (enough : room.all (headerSize ≤ ·)) :
    openWith [] room = .ok (fresh 0) := by
  have written := writeChunks_end [] room
    [BigEndian.encode 4 Version.v1.toU32, BigEndian.encode 8 0]
  have twelve : [BigEndian.encode 4 Version.v1.toU32, BigEndian.encode 8 0].flatten.length =
      headerSize := by simp [headerSize, versionSize, sequenceSize]
  rw [List.length_nil, twelve, if_pos enough] at written
  rw [openWith, if_neg (by simp), written]
  simp [fresh, header, List.take_of_length_le, headerSize, versionSize, sequenceSize]

/-- `write_raw` takes an entry longer than `MAX_ENTRY_SIZE` and returns `Ok`, and `Log::open`
counts it, but `read_to_next` refuses it: the entry is written and never read back. -/
theorem oversized_entry_unreadable (build : Build) (sequence : Nat) (data : List UInt8)
    (fitsU64 : sequence < 2 ^ 64) (oversized : maxEntrySize < data.length)
    (seekable : data.length + entryCrcSize ≤ i64Max) :
    let written := (fresh sequence).writeRaw build data none
    written.2 = .ok () ∧
      ∃ opened, openWith written.1.file none = .ok opened ∧ opened.len = 1 ∧
        opened.iter build =
          .ok [.error (.io .invalidData
            s!"Entry size {data.length} exceeds maximum of {maxEntrySize}")] := by
  intro written
  have appended : written =
      ({ fresh sequence with
          file := header sequence ++ (WriteEntry.raw data).record build.computeCrc, len := 1 },
        .ok ()) := by
    simp only [written, Log.writeRaw, writeEntry_eq, Option.all_none, if_true]
    rfl
  have fits : (WriteEntry.raw data).len < 256 ^ 8 := (entrySizes seekable).2.2.2
  have opened := @openWith_cut build.computeCrc sequence fitsU64 [.raw data]
    (by simpa [WriteEntry.len, WriteEntry.data] using seekable)
    (header sequence ++ (WriteEntry.raw data).record build.computeCrc).length
    (by simp [header, headerSize, versionSize, sequenceSize]; omega) none
  have whole : wholeRecords ((header sequence ++ (WriteEntry.raw data).record build.computeCrc).length -
      headerSize) [(WriteEntry.raw data).record build.computeCrc] = 1 := by
    simp only [wholeRecords, List.length_append, header, BigEndian.length_encode, headerSize,
      versionSize, sequenceSize]
    rw [if_pos (by omega)]
  simp only [List.map_cons, List.map_nil, List.flatten_cons, List.flatten_nil, List.append_nil,
    List.take_length, whole, List.take_one, List.head?_cons, Option.toList_some] at opened
  refine ⟨by rw [appended], _, by rw [appended]; exact opened, rfl, ?_⟩
  have headerLength : (header sequence).length = firstEntryOffset := by
    simp [header, firstEntryOffset, headerSize, versionSize, sequenceSize]
  have refused := @readEntries_oversized build (header sequence) [] (.raw data) oversized fits
  rw [List.append_nil, headerLength] at refused
  rw [Log.iter, if_neg (by simp [header]), if_neg (by simp), refused]
  rfl

theorem oversized_entry_unreadable_at_limit :
    (0 < 2 ^ 64 ∧ maxEntrySize < (List.replicate (maxEntrySize + 1) (0 : UInt8)).length ∧
      (List.replicate (maxEntrySize + 1) (0 : UInt8)).length + entryCrcSize ≤ i64Max) ∧
    let written := (fresh 0).writeRaw plainBuild (List.replicate (maxEntrySize + 1) 0) none
    written.2 = .ok () ∧
      ∃ opened, openWith written.1.file none = .ok opened ∧ opened.len = 1 ∧
        opened.iter plainBuild = .ok [.error (.io .invalidData
          s!"Entry size {maxEntrySize + 1} exceeds maximum of {maxEntrySize}")] :=
  have fitsU64 : 0 < 2 ^ 64 := by norm_num
  have oversized : maxEntrySize < (List.replicate (maxEntrySize + 1) (0 : UInt8)).length := by
    rw [List.length_replicate]
    exact Nat.lt_succ_self _
  have seekable : (List.replicate (maxEntrySize + 1) (0 : UInt8)).length + entryCrcSize ≤ i64Max := by
    rw [List.length_replicate]
    norm_num [maxEntrySize, entryCrcSize, i64Max]
  have refused := oversized_entry_unreadable plainBuild 0 (List.replicate (maxEntrySize + 1) 0)
    fitsU64 oversized seekable
  ⟨⟨fitsU64, oversized, seekable⟩, by rwa [List.length_replicate] at refused⟩

end Malachite.Wal
