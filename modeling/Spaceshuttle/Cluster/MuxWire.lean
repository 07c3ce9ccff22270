import Mathlib.Data.List.AList
import Spaceshuttle.Lib.ByteStream

/-!
# The wire format of the cluster MUX

Frames and frame I/O of `crates/trust-kernel/src/cluster_mux.rs:37-303`: a frame is a JSON
header behind a four byte length, and some frames are followed by a binary payload whose size
stands in the header. The two libraries the code rests on are parameters: `serde_json` as a pair
of functions, SHA-256 as an incremental digest.

Payloads are read and appended piece by piece, which leaves out that the buffer for an announced size
above `isize::MAX` cannot be allocated; `PayloadReads` has the reads as they are written.
-/

namespace Spaceshuttle.Cluster

open ByteStream

/-- The fields of `MuxFrame::Response` (`cluster_mux.rs:65-75`). -/
structure MuxResponse where
  channelId : UInt32
  status : UInt16
  blockIndex : Nat
  contentHash : String
  payloadSize : Nat
  rawSize : Nat
  serverLatencyUs : UInt64
  tibetTokenId : String
  error : Option String
  deriving DecidableEq, Repr

/-- `MuxFrame` (`cluster_mux.rs:39-76`). -/
inductive MuxFrame where
  | fetch (channelId : UInt32) (blockIndex : Nat) (fromAint : String)
      (expectedHash : Option String) (busSeq : UInt64)
  | store (channelId : UInt32) (blockIndex : Nat) (fromAint : String) (payloadSize rawSize : Nat)
      (contentHash ed25519Seal : String) (busSeq : UInt64)
  | ping (channelId : UInt32) (fromAint : String)
  | response (r : MuxResponse)
  deriving DecidableEq, Repr

/-- `serde_json::to_vec` and `serde_json::from_slice` at `MuxFrame`. -/
structure SerdeJson where
  toVec : MuxFrame → List UInt8
  fromSlice : List UInt8 → Except String MuxFrame

/-- The libraries behind the MUX code. -/
structure MuxLibs where
  json : SerdeJson
  sha256 : Digest

/-- The largest header `read_frame` accepts (`cluster_mux.rs:117`). -/
def maxHeader : Nat := 4 * 1024 * 1024

/-- The message of an oversized header (`cluster_mux.rs:120`). -/
def frameTooLarge (len : Nat) : String := s!"Frame too large: {len} bytes"

variable (libs : MuxLibs)

/-- The bytes `write_frame` puts on the stream (`cluster_mux.rs:93-100`). -/
def writeFrame (frame : MuxFrame) : List UInt8 :=
  prefixed (libs.json.toVec frame)

/-- `read_frame` (`cluster_mux.rs:112-129`). -/
def readFrame : Read MuxFrame := do
  let buf ← readPrefixed maxHeader frameTooLarge
  match libs.json.fromSlice buf with
  | .ok frame => pure frame
  | .error e => throw (.invalid e)

/-- `read_payload_streaming` (`cluster_mux.rs:154-173`): the payload and its hex digest,
hashed piece by piece while it arrives. -/
def readPayloadStreaming (payloadSize : Nat) : Read (List UInt8 × String) := do
  let (data, hasher) ← readPieces 65536 payloadSize libs.sha256.update (payloadSize + 1) 0 []
    libs.sha256.new
  pure (data, libs.sha256.finalize hasher)

/-- A frame that survives the wire: `serde_json` decodes what it encoded, and the header is
within the limit of `read_frame`. -/
def Carried (frame : MuxFrame) : Prop :=
  libs.json.fromSlice (libs.json.toVec frame) = .ok frame ∧
    (libs.json.toVec frame).length ≤ maxHeader

instance (frame : MuxFrame) : Decidable (Carried libs frame) :=
  inferInstanceAs (Decidable (_ ∧ _))

variable {libs}

theorem readFrame_writeFrame {frame : MuxFrame} (h : Carried libs frame) (rest : List UInt8)
    (closed : Bool) :
    (readFrame libs).run ⟨writeFrame libs frame ++ rest, closed⟩ = .ok frame ⟨rest, closed⟩ := by
  unfold readFrame writeFrame
  rw [bind_ok (readPrefixed_prefixed frameTooLarge rest closed (by decide) h.2)]
  simp [h.1]

theorem readFrame_empty (closed : Bool) :
    (readFrame libs).run ⟨[], closed⟩ = .error (if closed then .eof else .pending) ⟨[], closed⟩ :=
  bind_error (readPrefixed_empty _ _ _)

theorem readPayloadStreaming_spec (data rest : List UInt8) (closed : Bool) :
    (readPayloadStreaming libs data.length).run ⟨data ++ rest, closed⟩ =
      .ok (data, libs.sha256.hex data) ⟨rest, closed⟩ := by
  unfold readPayloadStreaming
  rw [bind_ok (readPieces_spec (by decide) libs.sha256.update_nil libs.sha256.update_append
    data.length 0 [] data rest libs.sha256.new closed (by omega) le_rfl)]
  rfl

/-- Whatever the stream holds, the digest is that of the payload. -/
theorem readPayloadStreaming_ok {payloadSize : Nat} {data : List UInt8} {computed : String}
    {s s' : Inbound} (h : (readPayloadStreaming libs payloadSize).run s = .ok (data, computed) s') :
    computed = libs.sha256.hex data ∧ s.bytes = data ++ s'.bytes := by
  unfold readPayloadStreaming at h
  obtain ⟨⟨read, hasher⟩, s₁, hread, h⟩ := of_bind_ok h
  obtain ⟨payload, hdata, hhasher, hbytes⟩ :=
    readPieces_ok libs.sha256.update_nil libs.sha256.update_append hread
  rw [List.nil_append] at hdata
  cases h
  rw [hdata, hhasher]
  exact ⟨rfl, hbytes⟩

theorem steady_readFrame : Steady (readFrame libs) := by
  refine .bind (steady_readPrefixed _ _) (fun buf => ?_)
  split
  · exact steady_pure _
  · exact steady_throw _

theorem steady_readPayloadStreaming (payloadSize : Nat) :
    Steady (readPayloadStreaming libs payloadSize) :=
  .bind (steady_readPieces _ _ _ _ _ _ _) (fun _ => steady_pure _)

/-! ## The hash cache -/

/-- `HashCache` (`cluster_mux.rs:204-211`). -/
structure HashCache where
  verified : AList (fun _ : Nat => String)
  hits : UInt64
  misses : UInt64
  bytesSaved : UInt64

namespace HashCache

/-- `HashCache::new` (`cluster_mux.rs:214-221`). -/
def new : HashCache where
  verified := ∅
  hits := 0
  misses := 0
  bytesSaved := 0

/-- `HashCache::is_verified` (`cluster_mux.rs:224-227`). -/
def isVerified (c : HashCache) (blockIndex : Nat) (contentHash : String) : Bool :=
  match c.verified.lookup blockIndex with
  | some h => h == contentHash
  | none => false

/-- `HashCache::mark_verified` (`cluster_mux.rs:230-233`). -/
def markVerified (c : HashCache) (blockIndex : Nat) (contentHash : String) : HashCache :=
  { c with verified := c.verified.insert blockIndex contentHash }

theorem isVerified_markVerified (c : HashCache) (i j : Nat) (h h' : String) :
    (c.markVerified i h).isVerified j h' = if j = i then h == h' else c.isVerified j h' := by
  by_cases hj : j = i
  · subst hj
    simp [isVerified, markVerified]
  · simp [isVerified, markVerified, hj, AList.lookup_insert_ne hj]

end HashCache

variable (libs)

/-- `read_payload_cached` (`cluster_mux.rs:258-303`): the payload with the hash it is taken to
have, and the updated cache. On a hit the bytes are read in the same pieces but not hashed. -/
def readPayloadCached (payloadSize : Nat) (serverHash : String) (blockIndex : Nat)
    (cache : HashCache) : Read ((List UInt8 × String) × HashCache) := do
  if cache.isVerified blockIndex serverHash then
    let (data, _) ← readPieces 65536 payloadSize (fun (u : Unit) _ => u) (payloadSize + 1) 0 [] ()
    pure ((data, serverHash),
      { cache with
        hits := cache.hits + 1
        bytesSaved := cache.bytesSaved + UInt64.ofNat payloadSize })
  else
    let (data, computedHash) ← readPayloadStreaming libs payloadSize
    let cache := cache.markVerified blockIndex computedHash
    pure ((data, computedHash), { cache with misses := cache.misses + 1 })

variable {libs}

/-- The hash cache after `read_payload_cached` took `data` for a block. -/
def cacheAfter (libs : MuxLibs) (cache : HashCache) (blockIndex : Nat) (serverHash : String)
    (data : List UInt8) : HashCache :=
  if cache.isVerified blockIndex serverHash then
    { cache with
      hits := cache.hits + 1
      bytesSaved := cache.bytesSaved + UInt64.ofNat data.length }
  else
    { cache.markVerified blockIndex (libs.sha256.hex data) with misses := cache.misses + 1 }

/-- The hash `read_payload_cached` reports for `data`. -/
def hashAfter (libs : MuxLibs) (cache : HashCache) (blockIndex : Nat) (serverHash : String)
    (data : List UInt8) : String :=
  if cache.isVerified blockIndex serverHash then serverHash else libs.sha256.hex data

theorem readPayloadCached_spec (cache : HashCache) (blockIndex : Nat) (serverHash : String)
    (data rest : List UInt8) (closed : Bool) :
    (readPayloadCached libs data.length serverHash blockIndex cache).run ⟨data ++ rest, closed⟩ =
      .ok ((data, hashAfter libs cache blockIndex serverHash data),
        cacheAfter libs cache blockIndex serverHash data) ⟨rest, closed⟩ := by
  unfold readPayloadCached hashAfter cacheAfter
  by_cases hv : cache.isVerified blockIndex serverHash
  · simp only [hv, if_true]
    rw [bind_ok (readPieces_spec (by decide) (fun _ => rfl) (fun _ _ _ => rfl)
      data.length 0 [] data rest () closed (by omega) le_rfl)]
    rfl
  · simp only [hv, Bool.false_eq_true, if_false]
    rw [bind_ok (readPayloadStreaming_spec data rest closed)]
    rfl

/-- Whatever the stream holds, a payload that is read comes off the stream, and its hash and the
cache after it are those of the payload. -/
theorem readPayloadCached_ok {payloadSize blockIndex : Nat} {serverHash verifiedHash : String}
    {cache cache' : HashCache} {data : List UInt8} {s s' : Inbound}
    (h : (readPayloadCached libs payloadSize serverHash blockIndex cache).run s =
      .ok ((data, verifiedHash), cache') s') :
    verifiedHash = hashAfter libs cache blockIndex serverHash data ∧
      cache'.verified = (cacheAfter libs cache blockIndex serverHash data).verified ∧
      s.bytes = data ++ s'.bytes := by
  unfold readPayloadCached at h
  unfold hashAfter cacheAfter
  by_cases hv : cache.isVerified blockIndex serverHash = true
  · rw [if_pos hv] at h
    obtain ⟨⟨read, u⟩, s₁, hread, h⟩ := of_bind_ok h
    obtain ⟨payload, hdata, -, hbytes⟩ := readPieces_ok (fun _ => rfl) (fun _ _ _ => rfl) hread
    rw [List.nil_append] at hdata
    cases h
    rw [if_pos hv, if_pos hv, hdata]
    exact ⟨rfl, rfl, hbytes⟩
  · rw [if_neg hv] at h
    obtain ⟨⟨read, computed⟩, s₁, hread, h⟩ := of_bind_ok h
    obtain ⟨hcomputed, hbytes⟩ := readPayloadStreaming_ok hread
    cases h
    rw [if_neg hv, if_neg hv, hcomputed]
    exact ⟨rfl, rfl, hbytes⟩

theorem steady_readPayloadCached (payloadSize : Nat) (serverHash : String) (blockIndex : Nat)
    (cache : HashCache) : Steady (readPayloadCached libs payloadSize serverHash blockIndex cache) := by
  unfold readPayloadCached
  split
  · exact .bind (steady_readPieces _ _ _ _ _ _ _) (fun _ => steady_pure _)
  · exact .bind (steady_readPayloadStreaming _) (fun _ => steady_pure _)

end Spaceshuttle.Cluster
