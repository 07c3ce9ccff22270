import Spaceshuttle.Cluster.QuicBatch

/-!
# Single calls over QUIC

`ping`, `fetch_block` and `store_block` of `QuicMuxClient`
(`crates/trust-kernel/src/quic_mux.rs:541-669`). A call opens a stream of its own, writes its request
and finishes its side; at the other end `handle_quic_stream` (`quic_mux.rs:343-455`) answers it. The
times that a call returns are left out.
-/

namespace Spaceshuttle.Cluster

open ByteStream

/-- A call with the channel it has taken. -/
structure QuicCall where
  channelId : UInt32
  fromAint : String
  call : Call
  deriving DecidableEq, Repr

namespace QuicCall

/-- The request frame of a call (`quic_mux.rs:550-553`, `583-589`, `638-647`). -/
def frame (q : QuicCall) : MuxFrame := q.call.frame q.channelId q.fromAint

/-- What a call writes before it finishes its side. -/
def bytes (libs : MuxLibs) (q : QuicCall) : List UInt8 := writeFrame libs q.frame ++ q.call.payload

end QuicCall

/-! ## What a call reads -/

namespace QuicMuxClient

variable (libs : MuxLibs)

/-- `ping` from the response on (`quic_mux.rs:558-565`). -/
def readPong (q : QuicMuxClient) : Read (QuicMuxClient × CallResult) := do
  let resp ← readFrame libs
  let q := { q with requestsSent := q.requestsSent + 1 }
  match resp with
  | .response r =>
      if r.status = 200 then return (q, .pong)
      else return (q, .failed (.remote (r.error.getD "")))
  | _ => return (q, .failed (.protocol "Unexpected frame type"))

/-- `fetch_block` from the response on (`quic_mux.rs:594-617`). -/
def readBlock (q : QuicMuxClient) (blockIndex : Nat) : Read (QuicMuxClient × CallResult) := do
  let resp ← readFrame libs
  match resp with
  | .response r =>
      if r.status = 200 then do
        let ((data, verifiedHash), cache) ←
          readPayloadCached libs r.payloadSize r.contentHash blockIndex q.hashCache
        let q := { q with hashCache := cache }
        if verifiedHash ≠ r.contentHash then
          return (q, .failed (.integrityFailed r.contentHash verifiedHash))
        return ({ q with
          requestsSent := q.requestsSent + 1
          bytesTransferred := q.bytesTransferred + UInt64.ofNat data.length }, .fetched data)
      else return (q, .failed (.remoteStatus r.status (r.error.getD "")))
  | _ => return (q, .failed (.protocol "Unexpected frame type"))

/-- `store_block` from the response on (`quic_mux.rs:653-668`). -/
def readStored (q : QuicMuxClient) (blockIndex : Nat) (data : List UInt8) (contentHash : String) :
    Read (QuicMuxClient × CallResult) := do
  let resp ← readFrame libs
  let q := { q with
    requestsSent := q.requestsSent + 1
    bytesTransferred := q.bytesTransferred + UInt64.ofNat data.length }
  match resp with
  | .response r =>
      if r.status = 200 then
        return ({ q with hashCache := q.hashCache.markVerified blockIndex contentHash }, .stored)
      else return (q, .failed (.remoteStatus r.status (r.error.getD "")))
  | _ => return (q, .failed (.protocol "Unexpected frame type"))

/-- What a call reads, and what it leaves of the client as it finds it. -/
def readResult (q : QuicMuxClient) : Call → Read (QuicMuxClient × CallResult)
  | .ping => q.readPong libs
  | .storeBlock blockIndex data contentHash _ _ _ => q.readStored libs blockIndex data contentHash
  | .fetchBlock blockIndex _ _ => q.readBlock libs blockIndex

end QuicMuxClient

/-! ## What a server of MUX frames answers -/

section Answer

variable (libs : MuxLibs) (server : FrameServer)

/-- The store after a call, the response to it and the payload behind the response. -/
def FrameServer.answer (elapsedUs : UInt64) (store : BlockStore) (q : QuicCall) :
    BlockStore × MuxResponse × List UInt8 :=
  match q.call with
  | .ping =>
      (store, frameOk q.channelId 0 "" 0 0 (server.pongToken ++ server.kernelAint) elapsedUs, [])
  | .storeBlock i data hash edSeal rawSize seq =>
      if libs.sha256.hex data = hash then
        (store.store i data hash edSeal rawSize q.fromAint seq,
          frameOk q.channelId i hash data.length rawSize
            (server.storeToken ++ s!"{i}_{q.channelId}") elapsedUs, [])
      else
        (store,
          frameError q.channelId 409 i (libs.sha256.hex data) "Store hash mismatch" elapsedUs, [])
  | .fetchBlock i expected _ =>
      ((store.fetch i).2,
        match store.content i with
        | none => (frameError q.channelId 404 i "" s!"Block {i} not found" elapsedUs, [])
        | some (data, hash, rawSize) =>
            if expected.any (fun e => e != hash) then
              (frameError q.channelId 409 i hash "Hash mismatch" elapsedUs, [])
            else
              (frameOk q.channelId i hash data.length rawSize
                (server.fetchToken ++ s!"{i}_{q.channelId}") elapsedUs, data))

variable {libs}

/-- The handler reads the payload of a call whole, and its task gives the answer to the call. -/
theorem frameTask_call (q : QuicCall) (closed : Bool) :
    ∃ task, (frameTask libs server q.frame).run ⟨q.call.payload, closed⟩ = .ok task ⟨[], closed⟩ ∧
      ∀ elapsedUs store, ∃ call, task.perform elapsedUs store =
        ((server.answer libs elapsedUs store q).1, call,
          some (.frame (server.answer libs elapsedUs store q).2.1
            (server.answer libs elapsedUs store q).2.2)) := by
  obtain ⟨channelId, aint, call⟩ := q
  cases call with
  | ping => exact ⟨_, rfl, fun elapsedUs store => ⟨_, rfl⟩⟩
  | storeBlock i data hash edSeal rawSize seq =>
    have hread := @readPayloadStreaming_spec libs data [] closed
    rw [List.append_nil] at hread
    simp only [QuicCall.frame, Call.frame, Call.payload, frameTask, FrameServer.answer]
    rw [bind_ok hread]
    by_cases hhash : libs.sha256.hex data = hash
    · simp only [hhash, bne_self_eq_false, Bool.false_eq_true, if_false, if_true]
      exact ⟨_, rfl, fun elapsedUs store => ⟨_, rfl⟩⟩
    · simp only [bne_iff_ne.mpr hhash, hhash, if_false, if_true]
      exact ⟨_, rfl, fun elapsedUs store => ⟨_, rfl⟩⟩
  | fetchBlock i expected seq =>
    refine ⟨_, rfl, fun elapsedUs store => ⟨none, ?_⟩⟩
    simp only [Task.perform, FrameServer.answer]
    cases hb : store.content i with
    | none => rw [BlockStore.fetch_none hb]
    | some b =>
      obtain ⟨block, hfetch, hdata, hhash, hraw⟩ := BlockStore.fetch_some hb
      obtain ⟨data, hash, rawSize⟩ := b
      obtain rfl : block.data = data := hdata
      obtain rfl : block.contentHash = hash := hhash
      obtain rfl : block.rawSize = rawSize := hraw
      simp only [hfetch]
      split <;> rfl

/-- What the answer stands for: the call on the map, if the map has the right hashes. -/
theorem FrameServer.answer_applies {store : BlockStore} (hhash : Hashed libs.sha256.hex store.content)
    (elapsedUs : UInt64) (q : QuicCall) (cache : HashCache) :
    (server.answer libs elapsedUs store q).1.content =
        (q.call.apply libs.sha256.hex store.content).1 ∧
      q.call.reply libs cache (server.answer libs elapsedUs store q).2.1
        (server.answer libs elapsedUs store q).2.2 =
          (q.call.apply libs.sha256.hex store.content).2 := by
  obtain ⟨channelId, aint, call⟩ := q
  cases call with
  | ping => exact ⟨rfl, rfl⟩
  | storeBlock i data hash edSeal rawSize seq =>
    by_cases hh : libs.sha256.hex data = hash
    · simp only [FrameServer.answer, Call.apply, if_pos hh]
      refine ⟨?_, rfl⟩
      funext j
      rw [BlockStore.content_store, Function.update_apply]
    · simp only [FrameServer.answer, Call.apply, if_neg hh]
      exact ⟨trivial, rfl⟩
  | fetchBlock i expected seq =>
    have hsame : (store.fetch i).2.content = store.content := funext (store.content_fetch i)
    cases hb : store.content i with
    | none =>
      simp only [FrameServer.answer, Call.apply, hb, hsame, true_and]
      rfl
    | some b =>
      obtain ⟨data, hash, rawSize⟩ := b
      have hfetchable : Fetchable libs cache i (data, hash, rawSize) := .inl (hhash i _ hb)
      by_cases he : expected.any (fun e => e != hash) = true
      · simp only [FrameServer.answer, Call.apply, hb, he, if_true]
        exact ⟨hsame, rfl⟩
      · simp only [FrameServer.answer, Call.apply, hb, he, Bool.false_eq_true, if_false]
        refine ⟨hsame, ?_⟩
        simp [Call.reply, verdict, frameOk, (hashAfter_eq_iff cache i _).mpr hfetchable]

/-- The payload behind the answer to a fetch is as long as the answer says. -/
theorem FrameServer.answer_payloadSize (elapsedUs : UInt64) (store : BlockStore) (channelId : UInt32)
    (aint : String) (i : Nat) (expected : Option String) (seq : UInt64) :
    (server.answer libs elapsedUs store
        ⟨channelId, aint, .fetchBlock i expected seq⟩).2.1.payloadSize =
      (server.answer libs elapsedUs store
        ⟨channelId, aint, .fetchBlock i expected seq⟩).2.2.length := by
  simp only [FrameServer.answer]
  split
  · rfl
  · split <;> rfl

end Answer

/-! ## A call alone -/

section Alone

variable {libs : MuxLibs} {r : MuxResponse} {body : List UInt8}

/-- What `fetch_block` makes of a response with its payload. -/
theorem QuicMuxClient.readBlock_run (hresp : Carried libs (.response r))
    (hbody : r.payloadSize = body.length) (client : QuicMuxClient) (i : Nat)
    (expected : Option String) (seq : UInt64) (closed : Bool) :
    ∃ client' rest,
      (client.readBlock libs i).run ⟨writeFrame libs (.response r) ++ body, closed⟩ =
        .ok (client', Call.reply libs client.hashCache r body (.fetchBlock i expected seq)) rest := by
  unfold readBlock
  rw [bind_ok (readFrame_writeFrame hresp body closed)]
  simp only [Call.reply, verdict]
  by_cases hstatus : r.status = 200
  · have hread := @readPayloadCached_spec libs client.hashCache i r.contentHash body [] closed
    rw [List.append_nil] at hread
    simp only [hstatus, if_true, hbody]
    rw [bind_ok hread]
    by_cases hhash : hashAfter libs client.hashCache i r.contentHash body = r.contentHash
    · simp only [hhash, ne_eq, not_true_eq_false, if_false]
      exact ⟨_, _, rfl⟩
    · simp only [hhash, ne_eq, not_false_eq_true, if_true]
      exact ⟨_, _, rfl⟩
  · simp only [hstatus, if_false]
    exact ⟨_, _, rfl⟩

/-- Whatever the client has in its cache, it gets out of the answer what the call on the map
returns. -/
theorem QuicMuxClient.readResult_answer {server : FrameServer} {store : BlockStore}
    (hhash : Hashed libs.sha256.hex store.content) {elapsedUs : UInt64} {q : QuicCall}
    (hresp : Carried libs (.response (server.answer libs elapsedUs store q).2.1))
    (client : QuicMuxClient) (closed : Bool) :
    ∃ client' rest, (client.readResult libs q.call).run
        ⟨writeFrame libs (.response (server.answer libs elapsedUs store q).2.1) ++
          (server.answer libs elapsedUs store q).2.2, closed⟩ =
      .ok (client', (q.call.apply libs.sha256.hex store.content).2) rest := by
  rw [← (server.answer_applies hhash elapsedUs q client.hashCache).2]
  obtain ⟨channelId, aint, call⟩ := q
  cases call with
  | ping =>
    unfold readResult readPong
    simp only [bind_ok (readFrame_writeFrame hresp _ closed), Call.reply]
    split <;> exact ⟨_, _, rfl⟩
  | storeBlock i data hash edSeal rawSize seq =>
    unfold readResult readStored
    simp only [bind_ok (readFrame_writeFrame hresp _ closed), Call.reply]
    split <;> exact ⟨_, _, rfl⟩
  | fetchBlock i expected seq =>
    exact readBlock_run hresp (server.answer_payloadSize _ _ _ _ _ _ _) client i expected seq closed

theorem QuicMuxClient.steady_readResult (client : QuicMuxClient) (c : Call) :
    Steady (client.readResult libs c) := by
  cases c with
  | ping =>
    refine .bind steady_readFrame (fun resp => ?_)
    cases resp with
    | response r =>
      simp only
      split <;> exact steady_pure _
    | _ => exact steady_pure _
  | storeBlock i data hash edSeal rawSize seq =>
    refine .bind steady_readFrame (fun resp => ?_)
    cases resp with
    | response r =>
      simp only
      split <;> exact steady_pure _
    | _ => exact steady_pure _
  | fetchBlock i expected seq =>
    refine .bind steady_readFrame (fun resp => ?_)
    cases resp with
    | response r =>
      simp only
      split
      · refine .bind (steady_readPayloadCached _ _ _ _) (fun ⟨⟨data, verifiedHash⟩, cache⟩ => ?_)
        by_cases hhash : verifiedHash ≠ r.contentHash
        · simp only [if_pos hhash]
          exact steady_pure _
        · simp only [if_neg hhash]
          exact steady_pure _
      · exact steady_pure _
    | _ => exact steady_pure _

/-- No call has a result before the first byte of the response. -/
theorem QuicMuxClient.readResult_empty (client : QuicMuxClient) (c : Call) (closed : Bool) :
    (client.readResult libs c).run ⟨[], closed⟩ =
      .error (if closed then .eof else .pending) ⟨[], closed⟩ := by
  cases c with
  | ping => exact bind_error (readFrame_empty closed)
  | storeBlock i data hash edSeal rawSize seq => exact bind_error (readFrame_empty closed)
  | fetchBlock i expected seq => exact bind_error (readFrame_empty closed)

end Alone

end Spaceshuttle.Cluster
