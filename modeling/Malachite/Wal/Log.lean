import Malachite.Lib.BigEndian

/-! The write-ahead log file of the `wal` crate (`wal/src/log.rs`).

The file is a header, a big-endian `u32` version and `u64` sequence number, followed by
records: a compression flag byte, the big-endian `u64` length of the stored bytes, the
big-endian `u32` CRC of the uncompressed data, then the stored bytes.  Every operation
of the log names the offset it reads or writes, so the file is its list of bytes and
the cursor is not kept.

A storage write can fail: the storage takes `room` more bytes (`none`: no limit) and
fails on the write that would go past them, having written what fitted.  Seeking,
truncating and syncing succeed.  LZ4 and the CRC are parameters: LZ4 with its promise
that decompressing gives back what was compressed. -/

namespace Malachite.Wal

/-- `MAX_ENTRY_SIZE`, 1 GiB. -/
def maxEntrySize : Nat := 1024 * 1024 * 1024

def versionSize : Nat := 4

def sequenceSize : Nat := 8

def headerSize : Nat := versionSize + sequenceSize

def sequenceOffset : Nat := versionSize

def firstEntryOffset : Nat := headerSize

def entryLengthSize : Nat := 8

def entryCrcSize : Nat := 4

def entryCompressionFlagSize : Nat := 1

def entryHeaderSize : Nat := entryCompressionFlagSize + entryLengthSize + entryCrcSize

/-- `u64::checked_add`. -/
def checkedAdd (first second : Nat) : Option Nat :=
  if first + second < 2 ^ 64 then some (first + second) else none

/-- `i64::MAX`, the furthest `SeekFrom::Current` reaches. -/
def i64Max : Nat := 2 ^ 63 - 1

inductive IoErrorKind where
  | unexpectedEof
  | invalidData
  | notFound
deriving DecidableEq, Repr

/-- An `io::Error`: one the log reports, or one the storage reports on a write. -/
inductive IoError where
  | io (kind : IoErrorKind) (message : String)
  | storage
deriving DecidableEq, Repr

/-- `read_exact` past the end of the file. -/
def eofError : IoError := .io .unexpectedEof "failed to fill whole buffer"

inductive Version where
  | v1
deriving DecidableEq, Repr

/-- `Version::try_from(u32)`. -/
def Version.tryFrom : Nat → Option Version
  | 1 => some .v1
  | _ => none

/-- `version as u32`. -/
def Version.toU32 : Version → Nat
  | .v1 => 1

/-- `lz4_flex`'s size-prepended block format. -/
structure Lz4 where
  compressPrependSize : List UInt8 → List UInt8
  decompressSizePrepended : List UInt8 → Except String (List UInt8)
  roundTrips : ∀ data, decompressSizePrepended (compressPrependSize data) = .ok data

/-- How the crate is built, with its `compression` feature: its compressor, whether
`force-compression` is on, and `compute_crc`.  Without the feature (the engine's own
dependency) there is no `write_compressed`, and `read_to_next` refuses a record flagged
compressed with "Entry is compressed but compression is disabled"; that build is not
modelled. -/
structure Build where
  lz4 : Lz4
  forceCompression : Bool
  computeCrc : List UInt8 → UInt32

/-- The `count` bytes from `offset` on, as far as the file goes. -/
def slice (bytes : List UInt8) (offset count : Nat) : List UInt8 :=
  (bytes.drop offset).take count

/-- Write `buffer` at `offset`, over what is there and past the end. -/
def overwrite (file : List UInt8) (offset : Nat) (buffer : List UInt8) : List UInt8 :=
  file.take offset ++ buffer ++ file.drop (offset + buffer.length)

/-- `write_all` of each buffer in turn from `offset`, while the storage has room. -/
def writeChunks (file : List UInt8) (offset : Nat) (room : Option Nat) :
    List (List UInt8) → List UInt8 × Except IoError Unit
  | [] => (file, .ok ())
  | chunk :: rest =>
      match room with
      | none => writeChunks (overwrite file offset chunk) (offset + chunk.length) none rest
      | some left =>
          if left < chunk.length then (overwrite file offset (chunk.take left), .error .storage)
          else
            writeChunks (overwrite file offset chunk) (offset + chunk.length)
              (some (left - chunk.length)) rest

/-- `read_u32` at an offset. -/
def readU32At (file : List UInt8) (offset : Nat) : Except IoError Nat :=
  if offset + 4 ≤ file.length then .ok (BigEndian.decode (slice file offset 4)) else .error eofError

/-- `read_u64` at an offset. -/
def readU64At (file : List UInt8) (offset : Nat) : Except IoError Nat :=
  if offset + 8 ≤ file.length then .ok (BigEndian.decode (slice file offset 8)) else .error eofError

/-- `Log<S>`, with the storage as its file. -/
structure Log where
  file : List UInt8
  version : Version
  sequence : Nat
  len : Nat

/-- The open-time scan from `pos` on, over `rest`, the bytes of the file from `pos`:
count the whole records and stop at the first partial one.  The two reads cannot fail,
since at least the nine bytes of a flag and a length remain. -/
def scanEntries (rest : List UInt8) (pos len : Nat) : Except IoError (Nat × Nat) :=
  if entryCompressionFlagSize + entryLengthSize ≤ rest.length then
    let dataLength := BigEndian.decode (slice rest entryCompressionFlagSize entryLengthSize)
    match checkedAdd dataLength entryHeaderSize with
    | none => .ok (pos, len)
    | some fullEntrySize =>
        if rest.length < fullEntrySize then .ok (pos, len)
        else
          match checkedAdd dataLength entryCrcSize with
          | none => .ok (pos, len)
          | some payloadSize =>
              if i64Max < payloadSize then
                .error (.io .invalidData "Entry length too large for seeking")
              else
                let skipped := entryCompressionFlagSize + entryLengthSize + payloadSize
                scanEntries (rest.drop skipped) (pos + skipped) (len + 1)
  else .ok (pos, len)
termination_by rest.length
decreasing_by
  simp only [entryCompressionFlagSize, entryLengthSize, List.length_drop] at *
  omega

/-- `Log::open_with`: an existing file is checked and cut after its last whole record;
a new one gets a header with sequence zero. -/
def openWith (file : List UInt8) (room : Option Nat) : Except IoError Log :=
  if 0 < file.length then
    match readU32At file 0 with
    | .error error => .error error
    | .ok version =>
        match Version.tryFrom version with
        | none => .error (.io .invalidData "Invalid WAL version")
        | some version =>
            match readU64At file sequenceOffset with
            | .error _ => .error (.io .unexpectedEof "Failed to read sequence number")
            | .ok sequence =>
                match scanEntries (file.drop firstEntryOffset) firstEntryOffset 0 with
                | .error error => .error error
                | .ok (pos, len) => .ok ⟨file.take pos, version, sequence, len⟩
  else
    match writeChunks file 0 room
        [BigEndian.encode 4 Version.v1.toU32, BigEndian.encode 8 0] with
    | (_, .error error) => .error error
    | (file, .ok ()) => .ok ⟨file.take headerSize, .v1, 0, 0⟩

/-- `WriteEntry`: the bytes to store, and for a compressed entry the data they stand for. -/
inductive WriteEntry where
  | raw (data : List UInt8)
  | compressed (compressed uncompressed : List UInt8)

namespace WriteEntry

def data : WriteEntry → List UInt8
  | .raw data => data
  | .compressed stored _ => stored

def len (entry : WriteEntry) : Nat := entry.data.length

def uncompressedCrc (computeCrc : List UInt8 → UInt32) : WriteEntry → UInt32
  | .raw data => computeCrc data
  | .compressed _ uncompressed => computeCrc uncompressed

def isCompressed : WriteEntry → Bool
  | .raw _ => false
  | .compressed _ _ => true

/-- The four buffers `write_entry` writes. -/
def chunks (computeCrc : List UInt8 → UInt32) (entry : WriteEntry) : List (List UInt8) :=
  [[if entry.isCompressed then 1 else 0], BigEndian.encode 8 entry.len,
    BigEndian.encode 4 (entry.uncompressedCrc computeCrc).toNat, entry.data]

end WriteEntry

namespace Log

/-- `write_entry`: append the record; on a failed write cut the file back to where the
record began. -/
def writeEntry (log : Log) (computeCrc : List UInt8 → UInt32) (entry : WriteEntry)
    (room : Option Nat) : Log × Except IoError Unit :=
  let pos := log.file.length
  match writeChunks log.file pos room (entry.chunks computeCrc) with
  | (file, .ok ()) => ({ log with file, len := log.len + 1 }, .ok ())
  | (file, .error error) => ({ log with file := file.take pos }, .error error)

def writeRaw (log : Log) (build : Build) (data : List UInt8) (room : Option Nat) :
    Log × Except IoError Unit :=
  log.writeEntry build.computeCrc (.raw data) room

/-- `write_compressed`: compression is used only where it makes the entry smaller. -/
def writeCompressed (log : Log) (build : Build) (data : List UInt8) (room : Option Nat) :
    Log × Except IoError Unit :=
  let compressed := build.lz4.compressPrependSize data
  let entry := if compressed.length < data.length then .compressed compressed data else .raw data
  log.writeEntry build.computeCrc entry room

def append (log : Log) (build : Build) (data : List UInt8) (room : Option Nat) :
    Log × Except IoError Unit :=
  if build.forceCompression then log.writeCompressed build data room
  else log.writeRaw build data room

/-- `restart`: the sequence number and the count change before the header is written. -/
def restart (log : Log) (sequence : Nat) (room : Option Nat) : Log × Except IoError Unit :=
  let log := { log with sequence, len := 0 }
  match writeChunks log.file sequenceOffset room [BigEndian.encode 8 sequence] with
  | (file, .error error) => ({ log with file }, .error error)
  | (file, .ok ()) => ({ log with file := file.take headerSize }, .ok ())

end Log

/-- `read_to_next` from `pos` onwards, then the entries after it while the file goes on.
The three header reads fail alike when the file ends in the record's header. -/
def readEntries (build : Build) (file : List UInt8) (pos : Nat) :
    List (Except IoError (List UInt8)) :=
  if pos + entryHeaderSize ≤ file.length then
    let isCompressed := (slice file pos 1).headD 0 != 0
    let length := BigEndian.decode (slice file (pos + 1) entryLengthSize)
    let expectedCrc := BigEndian.decode (slice file (pos + 9) entryCrcSize)
    if maxEntrySize < length then
      [.error (.io .invalidData s!"Entry size {length} exceeds maximum of {maxEntrySize}")]
    else if file.length < pos + entryHeaderSize + length then [.error eofError]
    else
      let stored := slice file (pos + entryHeaderSize) length
      let next := pos + entryHeaderSize + length
      let data := if isCompressed then build.lz4.decompressSizePrepended stored else .ok stored
      match data with
      | .error message =>
          [.error (.io .invalidData s!"Failed to decompress entry: {message}")]
      | .ok data =>
          if expectedCrc ≠ (build.computeCrc data).toNat then
            [.error (.io .invalidData "CRC mismatch")]
          else if next < file.length then .ok data :: readEntries build file next
          else [.ok data]
  else [.error eofError]
termination_by file.length - pos
decreasing_by
  simp only [entryHeaderSize, entryCompressionFlagSize, entryLengthSize, entryCrcSize] at *
  omega

/-- `Log::iter`, collected: `first_entry` and then the entries until the last or the first
failure. -/
def Log.iter (log : Log) (build : Build) : Except IoError (List (Except IoError (List UInt8))) :=
  if log.file.length = 0 then .error (.io .notFound "Empty WAL")
  else if log.len = 0 then .ok []
  else .ok (readEntries build log.file firstEntryOffset)

end Malachite.Wal
