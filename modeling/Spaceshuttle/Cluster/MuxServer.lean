import Spaceshuttle.Cluster.BlockStore
import Spaceshuttle.Cluster.MuxWire

/-!
# The MUX server

`handle_mux_connection` of `crates/trust-kernel/src/cluster_mux.rs:365-492`: one handler per
connection that reads a frame, answers it, and loops. The handler owns its connection, so its
state is the unread bytes of the connection together with the store behind it. `deliver` hands
it bytes and lets it run until it waits for more.

The elapsed time the server reports in a response comes from the clock; `latencyUs` supplies it
frame by frame.
-/

namespace Spaceshuttle.Cluster

open ByteStream

/-- One connection handler with the shared store. -/
structure MuxServer where
  store : BlockStore
  kernelAint : String
  framesHandled : UInt64
  /-- Elapsed microseconds reported for the `n`-th answered frame. -/
  latencyUs : Nat → UInt64
  /-- Bytes written by the client and not read by the handler. -/
  inbox : List UInt8
  /-- The handler has not returned. -/
  running : Bool
  /-- History: every request read with the response written for it. -/
  served : List (MuxFrame × MuxResponse)

namespace MuxServer

variable (libs : MuxLibs)

/-- A handler on a fresh connection to the given store. -/
def new (store : BlockStore) (kernelAint : String) (latencyUs : Nat → UInt64) : MuxServer where
  store := store
  kernelAint := kernelAint
  framesHandled := 0
  latencyUs := latencyUs
  inbox := []
  running := true
  served := []

/-- `t0.elapsed()` for the frame at hand. -/
def latency (srv : MuxServer) : UInt64 := srv.latencyUs srv.served.length

/-- Write a response and the payload that follows it. -/
def respond (srv : MuxServer) (request : MuxFrame) (resp : MuxResponse) (payload : List UInt8) :
    MuxServer × List UInt8 :=
  ({ srv with served := srv.served ++ [(request, resp)] },
    writeFrame libs (.response resp) ++ payload)

/-- The response to a fetch that found nothing (`cluster_mux.rs:421-429`). -/
def notFound (srv : MuxServer) (channelId : UInt32) (blockIndex : Nat) : MuxResponse where
  channelId := channelId
  status := 404
  blockIndex := blockIndex
  contentHash := ""
  payloadSize := 0
  rawSize := 0
  serverLatencyUs := srv.latency
  tibetTokenId := ""
  error := some s!"Block {blockIndex} not found"

/-- The response to a fetch whose expected hash is not the stored one
(`cluster_mux.rs:395-402`). -/
def fetchMismatch (srv : MuxServer) (channelId : UInt32) (blockIndex : Nat)
    (contentHash : String) : MuxResponse where
  channelId := channelId
  status := 409
  blockIndex := blockIndex
  contentHash := contentHash
  payloadSize := 0
  rawSize := 0
  serverLatencyUs := srv.latency
  tibetTokenId := ""
  error := some "Hash mismatch"

/-- The response to a fetch that found its block (`cluster_mux.rs:409-416`). -/
def fetchOk (srv : MuxServer) (channelId : UInt32) (blockIndex : Nat) (contentHash : String)
    (payloadSize rawSize : Nat) : MuxResponse where
  channelId := channelId
  status := 200
  blockIndex := blockIndex
  contentHash := contentHash
  payloadSize := payloadSize
  rawSize := rawSize
  serverLatencyUs := srv.latency
  tibetTokenId := s!"mux_fetch_{blockIndex}_{channelId}"
  error := none

/-- The response to a store whose payload has another hash (`cluster_mux.rs:445-452`). -/
def storeMismatch (srv : MuxServer) (channelId : UInt32) (blockIndex : Nat) (computed : String) :
    MuxResponse where
  channelId := channelId
  status := 409
  blockIndex := blockIndex
  contentHash := computed
  payloadSize := 0
  rawSize := 0
  serverLatencyUs := srv.latency
  tibetTokenId := ""
  error := some "Store hash mismatch"

/-- The response to an accepted store (`cluster_mux.rs:461-468`). -/
def storeOk (srv : MuxServer) (channelId : UInt32) (blockIndex : Nat) (contentHash : String)
    (payloadSize rawSize : Nat) : MuxResponse where
  channelId := channelId
  status := 200
  blockIndex := blockIndex
  contentHash := contentHash
  payloadSize := payloadSize
  rawSize := rawSize
  serverLatencyUs := srv.latency
  tibetTokenId := s!"mux_store_{blockIndex}_{channelId}"
  error := none

/-- The response to a ping (`cluster_mux.rs:475-482`). -/
def pong (srv : MuxServer) (channelId : UInt32) : MuxResponse where
  channelId := channelId
  status := 200
  blockIndex := 0
  contentHash := ""
  payloadSize := 0
  rawSize := 0
  serverLatencyUs := srv.latency
  tibetTokenId := s!"mux_pong_{srv.kernelAint}"
  error := none

/-- The body of the loop after a frame was read (`cluster_mux.rs:386-489`). The result carries
the bytes written back. -/
def handleFrame (srv : MuxServer) (frame : MuxFrame) : Read (MuxServer × List UInt8) :=
  match frame with
  | .fetch channelId blockIndex _ expectedHash _ =>
      let (block, store) := srv.store.fetch blockIndex
      let srv := { srv with store := store }
      match block with
      | some b =>
          if expectedHash.any (fun expected => expected != b.contentHash) then
            pure (srv.respond libs frame (srv.fetchMismatch channelId blockIndex b.contentHash) [])
          else
            pure (srv.respond libs frame
              (srv.fetchOk channelId blockIndex b.contentHash b.data.length b.rawSize) b.data)
      | none => pure (srv.respond libs frame (srv.notFound channelId blockIndex) [])
  | .store channelId blockIndex fromAint payloadSize rawSize contentHash ed25519Seal busSeq => do
      let (data, computed) ← readPayloadStreaming libs payloadSize
      if computed != contentHash then
        pure (srv.respond libs frame (srv.storeMismatch channelId blockIndex computed) [])
      else
        let store := srv.store.store blockIndex data contentHash ed25519Seal rawSize fromAint busSeq
        let srv := { srv with store := store }
        pure (srv.respond libs frame
          (srv.storeOk channelId blockIndex contentHash data.length rawSize) [])
  | .ping channelId _ => pure (srv.respond libs frame (srv.pong channelId) [])
  -- A response frame is not answered.
  | .response _ => pure (srv, [])

/-- One iteration of the loop: read a frame, count it, handle it. -/
def serveFrame (srv : MuxServer) : Read (MuxServer × List UInt8) := do
  let frame ← readFrame libs
  handleFrame libs { srv with framesHandled := srv.framesHandled + 1 } frame

/-- The loop of `handle_mux_connection`. It waits when the unread bytes do not hold a whole
request, and ends on any other reader error. Every iteration consumes at least the four bytes
of a length, so the number of unread bytes is enough fuel. -/
def serveLoop : Nat → MuxServer → List UInt8 → MuxServer × List UInt8
  | 0, srv, out => (srv, out)
  | fuel + 1, srv, out =>
      match (serveFrame libs srv).run ⟨srv.inbox, false⟩ with
      | .ok (srv', reply) rest => serveLoop fuel { srv' with inbox := rest.bytes } (out ++ reply)
      | .error .pending _ => (srv, out)
      | .error _ _ => ({ srv with running := false }, out)

/-- Bytes arrive on the connection and the handler runs until it waits or returns. The result
has the bytes written back. -/
def deliver (srv : MuxServer) (bytes : List UInt8) : MuxServer × List UInt8 :=
  if srv.running then
    serveLoop libs (srv.inbox.length + bytes.length + 1) { srv with inbox := srv.inbox ++ bytes } []
  else
    (srv, [])

end MuxServer

end Spaceshuttle.Cluster
