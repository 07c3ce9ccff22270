import Spaceshuttle.Cluster.MuxWire
import Spaceshuttle.Lib.Filling

/-!
# Payload reads in place

The four chunk loops of `crates/trust-kernel/src/cluster_mux.rs:154-303` and
`crates/trust-kernel/src/quic_mux.rs:182-245` as they are written: a buffer of zeros is allocated
and then filled by slices of 64 KiB. The allocation panics above `isize::MAX` bytes; below, memory is
taken to suffice. The two copies over QUIC differ in the kind of error a failed read becomes. Up to
`isize::MAX` all of them refine the reads of `MuxWire`.
-/

namespace Spaceshuttle.Cluster

open ByteStream

/-- How a read ends without its bytes: the stream is open and the task waits, it fails with an error
of a kind (`std::io::ErrorKind`), or it panics. -/
inductive ReadError where
  | waiting
  | unexpectedEof
  | invalidData
  | other
  /-- The panic "capacity overflow" of a vector. -/
  | capacityOverflow
  deriving DecidableEq, Repr

/-- `isize::MAX`, the size of the largest buffer that `vec![0u8; n]` allocates. -/
def maxBuffer : Nat := 2 ^ 63 - 1

/-- The error of `AsyncReadExt::read_exact`. -/
def tcpError : Stop → ReadError
  | .pending => .waiting
  | .eof => .unexpectedEof
  | .invalid _ => .invalidData

/-- The error of `RecvStream::read_exact` after `map_err`: `ErrorKind::Other` whatever it was. -/
def quicError : Stop → ReadError
  | .pending => .waiting
  | _ => .other

/-- `VerifyResult` (`cluster_mux.rs:194-201`). -/
inductive VerifyResult where
  | fullVerify (hash : String) (durationUs : UInt64)
  | cacheHit (hash : String) (savedUs : UInt64)
  | skipped
  deriving DecidableEq, Repr

/-- `sha256_hex` (`cluster_transport.rs:784-789`). -/
def sha256Hex (sha256 : Digest) (data : List UInt8) : String :=
  let hasher := sha256.new
  let hasher := sha256.update hasher data
  sha256.finalize hasher

namespace InPlace

section Shared

variable (libs : MuxLibs) (wrap : Stop → ReadError)

/-- A loop over a new buffer, with `hasher.update` or nothing for `absorb`. -/
def readChunks {τ : Type} (payloadSize : Nat) (absorb : τ → List UInt8 → τ) (acc : τ) :
    EStateM ReadError Inbound (List UInt8 × τ) :=
  if payloadSize ≤ maxBuffer then
    fillPieces wrap (Nat.succ_pos 65535) payloadSize absorb 0 (List.replicate payloadSize 0) acc
  else
    throw .capacityOverflow

/-- The body of both streaming reads. -/
def readStreaming (payloadSize : Nat) : EStateM ReadError Inbound (List UInt8 × String) := do
  let (data, hasher) ← readChunks wrap payloadSize libs.sha256.update libs.sha256.new
  pure (data, libs.sha256.finalize hasher)

/-- The body of both cached reads. On a miss, hashing took `durationUs`. -/
def readCached (payloadSize : Nat) (serverHash : String) (blockIndex : Nat) (cache : HashCache)
    (durationUs : UInt64) :
    EStateM ReadError Inbound ((List UInt8 × String × VerifyResult) × HashCache) := do
  if cache.isVerified blockIndex serverHash then
    let (data, _) ← readChunks wrap payloadSize (fun (u : Unit) _ => u) ()
    let savedUs := UInt64.ofNat payloadSize / 2500
    pure ((data, serverHash, .cacheHit serverHash savedUs),
      { cache with
        hits := cache.hits + 1
        bytesSaved := cache.bytesSaved + UInt64.ofNat payloadSize })
  else
    let (data, computedHash) ← readStreaming libs wrap payloadSize
    let cache := cache.markVerified blockIndex computedHash
    pure ((data, computedHash, .fullVerify computedHash durationUs),
      { cache with misses := cache.misses + 1 })

end Shared

variable (libs : MuxLibs)

/-- `read_payload_streaming` (`cluster_mux.rs:154-173`). -/
def readPayloadStreaming (payloadSize : Nat) : EStateM ReadError Inbound (List UInt8 × String) :=
  readStreaming libs tcpError payloadSize

/-- `read_payload_streaming_quic` (`quic_mux.rs:182-202`). -/
def readPayloadStreamingQuic (payloadSize : Nat) :
    EStateM ReadError Inbound (List UInt8 × String) :=
  readStreaming libs quicError payloadSize

/-- `read_payload_cached` (`cluster_mux.rs:258-303`). -/
def readPayloadCached (payloadSize : Nat) (serverHash : String) (blockIndex : Nat)
    (cache : HashCache) (durationUs : UInt64) :
    EStateM ReadError Inbound ((List UInt8 × String × VerifyResult) × HashCache) :=
  readCached libs tcpError payloadSize serverHash blockIndex cache durationUs

/-- `read_payload_cached_quic` (`quic_mux.rs:205-245`). -/
def readPayloadCachedQuic (payloadSize : Nat) (serverHash : String) (blockIndex : Nat)
    (cache : HashCache) (durationUs : UInt64) :
    EStateM ReadError Inbound ((List UInt8 × String × VerifyResult) × HashCache) :=
  readCached libs quicError payloadSize serverHash blockIndex cache durationUs

/-! ## Reads in place -/

/-- The reader fills a buffer of `n` bytes. Up to `isize::MAX` it reads exactly these, returns `result`
of them, and does what `plain` does, of which `view` shows the value; above, it panics before it has
read anything. -/
structure ReadsInPlace {α β : Type} (wrap : Stop → ReadError) (x : EStateM ReadError Inbound α)
    (n : Nat) (result : List UInt8 → α) (plain : Read β) (view : α → β) : Prop where
  exactly : n ≤ maxBuffer → ReadsExactly wrap x n result
  refines : n ≤ maxBuffer → ∀ s,
    (do let a ← x; pure (view a) : EStateM ReadError Inbound β).run s = (plain.adaptExcept wrap).run s
  panics : maxBuffer < n → ∀ s, x.run s = .error .capacityOverflow s

section InPlace

variable (wrap : Stop → ReadError)

theorem readChunks_inPlace {τ : Type} (payloadSize : Nat) (absorb : τ → List UInt8 → τ)
    (hnil : ∀ acc, absorb acc [] = acc)
    (happ : ∀ acc a b, absorb acc (a ++ b) = absorb (absorb acc a) b) (acc : τ) :
    ReadsInPlace wrap (readChunks wrap payloadSize absorb acc) payloadSize
      (fun data => (data, absorb acc data))
      (readPieces 65536 payloadSize absorb (payloadSize + 1) 0 [] acc) id where
  exactly := by
    intro h
    rw [readChunks, if_pos h]
    exact readsExactly_fillPieces (Nat.succ_pos 65535) payloadSize hnil happ acc
  refines := by
    intro h s
    rw [readChunks, if_pos h]
    simp only [id, bind_pure]
    exact fillPieces_fresh wrap (Nat.succ_pos 65535) absorb acc s
  panics := by
    intro h s
    rw [readChunks, if_neg (Nat.not_le.mpr h)]
    rfl

/-- What is computed from the bytes afterwards, in place and plainly. -/
theorem ReadsInPlace.map {α α' β β' : Type} {wrap : Stop → ReadError}
    {x : EStateM ReadError Inbound α} {n : Nat} {result : List UInt8 → α} {plain : Read β}
    {view : α → β} (hx : ReadsInPlace wrap x n result plain view) (f : α → α') (g : β → β')
    (view' : α' → β') (h : ∀ a, view' (f a) = g (view a)) :
    ReadsInPlace wrap (do let a ← x; pure (f a)) n (fun bytes => f (result bytes))
      (do let b ← plain; pure (g b)) view' where
  exactly := fun hn => (hx.exactly hn).map f
  refines := by
    intro hn s
    have hcomp : (do let a ← (do let a ← x; pure (f a)); pure (view' a) :
          EStateM ReadError Inbound β') =
        (do let b ← (do let a ← x; pure (view a)); pure (g b)) := by
      simp only [bind_assoc, pure_bind, h]
    rw [hcomp]
    exact bind_run_adaptExcept (hx.refines hn s) (fun _ _ _ => rfl)
  panics := fun hn s => bind_error (hx.panics hn s)

theorem readStreaming_inPlace (payloadSize : Nat) :
    ReadsInPlace wrap (readStreaming libs wrap payloadSize) payloadSize
      (fun data => (data, sha256Hex libs.sha256 data))
      (Cluster.readPayloadStreaming libs payloadSize) id :=
  (readChunks_inPlace wrap payloadSize libs.sha256.update libs.sha256.update_nil
    libs.sha256.update_append libs.sha256.new).map
      (fun read => (read.1, libs.sha256.finalize read.2))
      (fun read => (read.1, libs.sha256.finalize read.2)) id (fun _ => rfl)

/-- What a cached read returns for `data`, and the cache after it: on a hit the hash of the server
is taken over, on a miss the hash is that of the data. -/
def cachedAnswer (serverHash : String) (blockIndex : Nat) (cache : HashCache)
    (durationUs : UInt64) (data : List UInt8) :
    (List UInt8 × String × VerifyResult) × HashCache :=
  if cache.isVerified blockIndex serverHash then
    ((data, serverHash, .cacheHit serverHash (UInt64.ofNat data.length / 2500)),
      { cache with
        hits := cache.hits + 1
        bytesSaved := cache.bytesSaved + UInt64.ofNat data.length })
  else
    ((data, sha256Hex libs.sha256 data, .fullVerify (sha256Hex libs.sha256 data) durationUs),
      { cache.markVerified blockIndex (sha256Hex libs.sha256 data) with misses := cache.misses + 1 })

/-- A cached read without its verification result. -/
def unverified (read : (List UInt8 × String × VerifyResult) × HashCache) :
    (List UInt8 × String) × HashCache :=
  ((read.1.1, read.1.2.1), read.2)

theorem readCached_inPlace (payloadSize : Nat) (serverHash : String) (blockIndex : Nat)
    (cache : HashCache) (durationUs : UInt64) :
    ReadsInPlace wrap (readCached libs wrap payloadSize serverHash blockIndex cache durationUs)
      payloadSize (cachedAnswer libs serverHash blockIndex cache durationUs)
      (Cluster.readPayloadCached libs payloadSize serverHash blockIndex cache) unverified := by
  unfold readCached cachedAnswer Cluster.readPayloadCached
  by_cases hv : cache.isVerified blockIndex serverHash = true
  · simp only [hv, if_true]
    have hread := (readChunks_inPlace wrap payloadSize (fun (u : Unit) _ => u) (fun _ => rfl)
      (fun _ _ _ => rfl) ()).map
      (fun read => ((read.1, serverHash, VerifyResult.cacheHit serverHash
          (UInt64.ofNat payloadSize / 2500)),
        { cache with
          hits := cache.hits + 1
          bytesSaved := cache.bytesSaved + UInt64.ofNat payloadSize }))
      (fun read => ((read.1, serverHash),
        { cache with
          hits := cache.hits + 1
          bytesSaved := cache.bytesSaved + UInt64.ofNat payloadSize }))
      unverified (fun _ => rfl)
    refine ⟨fun hn => (hread.exactly hn).congr (fun data hdata => ?_), hread.refines, hread.panics⟩
    rw [hdata]
  · simp only [hv, Bool.false_eq_true, if_false]
    exact (readStreaming_inPlace libs wrap payloadSize).map
      (fun read => ((read.1, read.2, VerifyResult.fullVerify read.2 durationUs),
        { cache.markVerified blockIndex read.2 with misses := cache.misses + 1 }))
      (fun read => ((read.1, read.2),
        { cache.markVerified blockIndex read.2 with misses := cache.misses + 1 }))
      unverified (fun _ => rfl)

end InPlace

/-- All four reads take exactly `payloadSize` bytes off a stream that holds them, and return these;
the streaming ones with their SHA-256. On a shorter stream they fail once it has ended. A size above
`isize::MAX` makes them panic. -/
theorem payload_reads_exact (payloadSize : Nat) (serverHash : String) (blockIndex : Nat)
    (cache : HashCache) (durationUs : UInt64) :
    ReadsInPlace tcpError (readPayloadStreaming libs payloadSize) payloadSize
        (fun data => (data, sha256Hex libs.sha256 data))
        (Cluster.readPayloadStreaming libs payloadSize) id ∧
      ReadsInPlace quicError (readPayloadStreamingQuic libs payloadSize) payloadSize
        (fun data => (data, sha256Hex libs.sha256 data))
        (Cluster.readPayloadStreaming libs payloadSize) id ∧
      ReadsInPlace tcpError
        (readPayloadCached libs payloadSize serverHash blockIndex cache durationUs) payloadSize
        (cachedAnswer libs serverHash blockIndex cache durationUs)
        (Cluster.readPayloadCached libs payloadSize serverHash blockIndex cache) unverified ∧
      ReadsInPlace quicError
        (readPayloadCachedQuic libs payloadSize serverHash blockIndex cache durationUs) payloadSize
        (cachedAnswer libs serverHash blockIndex cache durationUs)
        (Cluster.readPayloadCached libs payloadSize serverHash blockIndex cache) unverified :=
  ⟨readStreaming_inPlace libs tcpError payloadSize, readStreaming_inPlace libs quicError payloadSize,
    readCached_inPlace libs tcpError payloadSize serverHash blockIndex cache durationUs,
    readCached_inPlace libs quicError payloadSize serverHash blockIndex cache durationUs⟩

/-! ## A size that cannot be allocated -/

section

/-- A digest that stands for SHA-256, and JSON that is not looked at. -/
def Demo.emptyLibs : MuxLibs where
  json := ⟨fun _ => [], fun _ => .error "EOF while parsing a value at line 1 column 0"⟩
  sha256 := Digest.ofFun fun data => s!"{data.length}"

open Demo

/-- With a size of 2^63, a stream that has ended is not reported as an error: the read panics. -/
theorem oversized_read_panics :
    (readPayloadStreaming emptyLibs (2 ^ 63)).run ⟨[], true⟩ = .error .capacityOverflow ⟨[], true⟩ ∧
      ¬ ReadsExactly tcpError (readPayloadStreaming emptyLibs (2 ^ 63)) (2 ^ 63)
        (fun data => (data, sha256Hex emptyLibs.sha256 data)) := by
  have hpanics : (readPayloadStreaming emptyLibs (2 ^ 63)).run ⟨[], true⟩ =
      .error .capacityOverflow ⟨[], true⟩ :=
    (readStreaming_inPlace emptyLibs tcpError (2 ^ 63)).panics (by decide) _
  refine ⟨hpanics, fun h => ?_⟩
  obtain ⟨s', hs'⟩ := h.short [] true (by decide)
  rw [hpanics] at hs'
  cases hs'

end

end InPlace

end Spaceshuttle.Cluster
