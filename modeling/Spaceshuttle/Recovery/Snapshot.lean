import Spaceshuttle.Lib.LittleEndian
import Spaceshuttle.Lib.Utf8
import Spaceshuttle.Raid.Block

/-!
# Snapshot files

The writer and the header reader of `crates/trust-kernel/src/snapshot.rs`. A `usize` has 64 bits, and its
arithmetic wraps as in a release build: a debug build panics at the sum `TZA_HEADER_SIZE +
compressed_size` from `2 ^ 64 - 157` on. The clock is an argument of the writer. The simulated hash is
computed as in `Raid`.
-/

namespace Spaceshuttle.Recovery

/-- `TZA_MAGIC` (`snapshot.rs:39`). -/
def tzaMagic : List UInt8 := [0x54, 0x42, 0x5A]

/-- `TZA_VERSION` (`snapshot.rs:42`). -/
def tzaVersion : UInt8 := 1

/-- `BLOCK_SNAPSHOT` (`snapshot.rs:47`). -/
def blockSnapshot : UInt8 := 2

/-- `TZA_HEADER_SIZE` (`snapshot.rs:50`). -/
def tzaHeaderSize : UInt64 := 157

/-- `isize::MAX`, the largest capacity of a vector of bytes. -/
def isizeMax : UInt64 := 0x7FFFFFFFFFFFFFFF

/-- The fields of `Snapshot` (`snapshot.rs:60-93`) that are written to a file or indexed. -/
structure Snapshot where
  id : String
  intent : String
  busSeq : UInt64
  rawSize : UInt64
  compressedSize : UInt64
  compressedHash : String
  ed25519Seal : String
  compressedData : List UInt8
  deriving DecidableEq, Repr

/-- `TzaHeader` (`snapshot.rs:540-549`). -/
structure TzaHeader where
  version : UInt8
  blockType : UInt8
  intentHash : String
  timestamp : UInt64
  rawSize : UInt64
  compressedSize : UInt64
  dataOffset : UInt64
  deriving DecidableEq, Repr

/-- `as_bytes` of a string. -/
def asBytes (text : String) : List UInt8 := Text.encode text.toList

/-! ## The writer -/

/-- `Vec::resize` with zeros. -/
def resize (bytes : List UInt8) (len : Nat) : List UInt8 :=
  bytes.take len ++ List.replicate (len - bytes.length) 0

/-- How the writer appends a field of fixed width: at most `width` bytes, then zeros for the rest. -/
def pushField (blob : List UInt8) (width : Nat) (bytes : List UInt8) : List UInt8 :=
  let blob := blob ++ bytes.take (min width bytes.length)
  resize blob (blob.length + (width - min width bytes.length))

/-- `build_tza_blob` (`snapshot.rs:383-425`). It reserves the room that the snapshot says it needs; more
than `isize::MAX` bytes are a panic. -/
def buildTzaBlob (snapshot : Snapshot) (ts : UInt64) : Option (List UInt8) :=
  if tzaHeaderSize + snapshot.compressedSize > isizeMax then none
  else
    let blob := tzaMagic
    let blob := blob ++ [tzaVersion]
    let blob := blob ++ [blockSnapshot]
    let intentHash := Raid.simulateSha256 (asBytes snapshot.intent)
    let blob := pushField blob 32 (asBytes intentHash)
    let blob := blob ++ LittleEndian.encode 8 ts.toNat
    let blob := blob ++ LittleEndian.encode 8 snapshot.rawSize.toNat
    let blob := blob ++ LittleEndian.encode 8 snapshot.compressedSize.toNat
    let blob := pushField blob 64 (asBytes snapshot.ed25519Seal)
    let blob := pushField blob 32 (asBytes snapshot.compressedHash)
    some (blob ++ snapshot.compressedData)

/-! ## The reader -/

/-- `&blob[start..end]`. -/
def slice (blob : List UInt8) (start stop : Nat) : List UInt8 := (blob.drop start).take (stop - start)

/-- `u64::from_le_bytes` of a slice. -/
def wordAt (blob : List UInt8) (start stop : Nat) : UInt64 :=
  UInt64.ofNat (LittleEndian.decode (slice blob start stop))

/-- `parse_tza_header` (`snapshot.rs:429-467`). All slices lie in the header, so none is out of range. -/
def parseTzaHeader (blob : List UInt8) : Except String TzaHeader :=
  if blob.length < tzaHeaderSize.toNat then
    .error s!"Blob too small: {blob.length} < {tzaHeaderSize} bytes"
  else if slice blob 0 3 ≠ tzaMagic then
    .error s!"Invalid magic: {(slice blob 0 3).map UInt8.toNat} (expected TBZ)"
  else
    let version := blob.getD 3 0
    if version ≠ tzaVersion then
      .error s!"Unsupported version: {version} (expected {tzaVersion})"
    else
      .ok
        { version
          blockType := blob.getD 4 0
          intentHash := String.ofList (Text.fromUtf8Lossy (slice blob 5 37))
          timestamp := wordAt blob 37 45
          rawSize := wordAt blob 45 53
          compressedSize := wordAt blob 53 61
          dataOffset := tzaHeaderSize }

end Spaceshuttle.Recovery
