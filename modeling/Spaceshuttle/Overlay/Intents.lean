import Spaceshuttle.Cluster.MuxRefinement
import Spaceshuttle.Lib.Linearization
import Spaceshuttle.Overlay.Mux

/-!
# Intents over the overlay

What `OverlayMux::send_with_metadata` does once it has a connection, and `handle_intent_stream` at the
other end (`crates/trust-kernel/src/overlay_mux.rs:524-605`, `842-905`). A send opens a stream, writes
one intent with its payload and reads one response. The handler of the intents is code of the
application: it is a parameter, with a state of its own that every call of it may change.
-/

namespace Spaceshuttle.Overlay

open ByteStream Exchange
open Cluster (MuxError)

/-! ## What an intent is -/

/-- `StreamIntent` (`overlay_mux.rs:59-79`). -/
inductive StreamIntent where
  | chat
  | voice
  | video
  | file
  | llmSync
  | control
  | finance
  | industrial
  | custom (s : String)
  deriving DecidableEq, Repr

namespace StreamIntent

/-- `StreamIntent::as_str` (`overlay_mux.rs:83-95`). -/
def asStr : StreamIntent → String
  | .chat => "chat"
  | .voice => "voice"
  | .video => "video"
  | .file => "file"
  | .llmSync => "llm-sync"
  | .control => "control"
  | .finance => "finance"
  | .industrial => "industrial"
  | .custom s => s

/-- `StreamIntent::from_str` (`overlay_mux.rs:97-109`). -/
def fromStr (s : String) : StreamIntent :=
  if s = "chat" then .chat
  else if s = "voice" then .voice
  else if s = "video" then .video
  else if s = "file" then .file
  else if s = "llm-sync" then .llmSync
  else if s = "control" then .control
  else if s = "finance" then .finance
  else if s = "industrial" then .industrial
  else .custom s

/-- What is sent is what is read, whatever the text. -/
theorem asStr_fromStr (s : String) : (fromStr s).asStr = s := by
  unfold fromStr
  split
  · next h => exact h.symm
  split
  · next h => exact h.symm
  split
  · next h => exact h.symm
  split
  · next h => exact h.symm
  split
  · next h => exact h.symm
  split
  · next h => exact h.symm
  split
  · next h => exact h.symm
  split
  · next h => exact h.symm
  · rfl

/-- Two intents with one text are one intent to the receiver. -/
theorem fromStr_asStr_iff (i : StreamIntent) :
    fromStr i.asStr = i ↔ ∀ s, i = .custom s → fromStr s = .custom s := by
  cases i with
  | custom s =>
    constructor
    · intro h s' hs
      cases hs
      exact h
    · exact fun h => h s rfl
  | _ =>
    refine iff_of_true (by decide) fun s h => ?_
    cases h

end StreamIntent

/-- `IntentFrame` (`overlay_mux.rs:347-363`). -/
structure IntentFrame where
  channelId : UInt32
  intent : String
  fromAint : String
  toIdd : String
  payloadSize : Nat
  tibetTokenId : String
  metadata : AList fun _ : String => String
  deriving DecidableEq

/-- `IntentResponse` (`overlay_mux.rs:367-375`). -/
structure IntentResponse where
  channelId : UInt32
  status : UInt16
  intent : String
  tibetTokenId : String
  payloadSize : Nat
  error : Option String
  deriving DecidableEq, Repr

/-- `serde_json` at the two headers. -/
structure IntentJson where
  frameToVec : IntentFrame → List UInt8
  frameFromSlice : List UInt8 → Except String IntentFrame
  responseToVec : IntentResponse → List UInt8
  responseFromSlice : List UInt8 → Except String IntentResponse

/-- `IntentHandler` (`overlay_mux.rs:703`), whose calls may depend on the calls before. -/
abbrev IntentHandler (σ : Type) := IntentFrame → List UInt8 → σ → σ × IntentResponse

/-! ## The server -/

section Server

variable {σ : Type} (json : IntentJson)

/-- The payload of a frame (`overlay_mux.rs:865-869`). -/
def readPayload (payloadSize : Nat) : Read (List UInt8) :=
  if payloadSize > 0 then readExact payloadSize else pure []

/-- The reading part of `handle_intent_stream` (`overlay_mux.rs:849-869`). The header may have any
length. -/
def readIntent : Read (IntentFrame × List UInt8) := do
  let frameLen := fromBe (← readExact 4)
  let frameBuf ← readExact frameLen
  match json.frameFromSlice frameBuf with
  | .error e => throw (.invalid e)
  | .ok frame => do
      let payload ← readPayload frame.payloadSize
      return (frame, payload)

/-- The response when no handler was set (`overlay_mux.rs:878-885`). -/
def noHandler (frame : IntentFrame) : IntentResponse where
  channelId := frame.channelId
  status := 501
  intent := frame.intent
  tibetTokenId := frame.tibetTokenId
  payloadSize := 0
  error := some "No intent handler registered"

/-- The dispatch of `handle_intent_stream` (`overlay_mux.rs:875-886`). -/
def dispatchIntent (handler : Option (IntentHandler σ)) (frame : IntentFrame) (payload : List UInt8)
    (state : σ) : σ × IntentResponse :=
  match handler with
  | some handler => handler frame payload state
  | none => (state, noHandler frame)

end Server

/-! ## The sender -/

/-- A `send_with_metadata` that has its connection: what it was called with, its channel, and the
clock when it makes the token. -/
structure SendCall where
  ourAint : String
  toIdd : String
  intent : StreamIntent
  payload : List UInt8
  metadata : AList fun _ : String => String
  channelId : UInt32
  timestampMillis : Int
  deriving DecidableEq

namespace SendCall

/-- The frame of a send (`overlay_mux.rs:537-546`). -/
def frame (c : SendCall) : IntentFrame where
  channelId := c.channelId
  intent := c.intent.asStr
  fromAint := c.ourAint
  toIdd := c.toIdd
  payloadSize := c.payload.length
  tibetTokenId := s!"omux_{c.intent.asStr}_{c.channelId}_{c.timestampMillis}"
  metadata := c.metadata

/-- What a send writes before it finishes its side (`overlay_mux.rs:552-569`). -/
def bytes (json : IntentJson) (c : SendCall) : List UInt8 :=
  prefixed (json.frameToVec c.frame) ++ c.payload

/-- What a send makes of a response (`overlay_mux.rs:590-596`). -/
def verdict (response : IntentResponse) : Except MuxError IntentResponse :=
  if 200 ≤ response.status ∧ response.status ≤ 299 then .ok response
  else .error (.remoteStatus response.status (response.error.getD ""))

/-- A send from the response on (`overlay_mux.rs:571-597`). -/
def readResponse (json : IntentJson) : Read (Except MuxError IntentResponse) := do
  let respSize := fromBe (← readExact 4)
  let respBuf ← readExact respSize
  match json.responseFromSlice respBuf with
  | .error e => return .error (.protocol e)
  | .ok response => return verdict response

/-- What a send is for: one call of the handler with the frame and the payload of the send, and what
the send makes of the response. -/
def apply {σ : Type} (handler : Option (IntentHandler σ)) (state : σ) (c : SendCall) :
    σ × Except MuxError IntentResponse :=
  let (state, response) := dispatchIntent handler c.frame c.payload state
  (state, verdict response)

end SendCall

/-- The sends as a service. -/
def intentService {σ : Type} (json : IntentJson) (handler : Option (IntentHandler σ)) :
    Service SendCall σ (Except MuxError IntentResponse) where
  Listener := Unit
  Task := IntentFrame × List UInt8
  Clock := Unit
  Local := Unit
  listener := fun _ => ()
  finishes := fun _ => true
  request c := c.bytes json
  serve := fun _ => readIntent json
  perform := fun _ task state =>
    let (state, response) := dispatchIntent handler task.1 task.2 state
    (state, prefixed (json.responseToVec response))
  receive := fun _ _ => SendCall.readResponse json

/-! ## A send alone -/

/-- A header that survives JSON and whose length can be written. -/
def Survives {α : Type} (toVec : α → List UInt8) (fromSlice : List UInt8 → Except String α) (a : α) :
    Prop :=
  (toVec a).length < 2 ^ 32 ∧ fromSlice (toVec a) = .ok a

/-- The frames of the sends and the responses of the handler to them survive the wire. -/
structure IntentsOnWire {σ : Type} (json : IntentJson) (handler : Option (IntentHandler σ))
    (sends : SendCall → Prop) : Prop where
  frame : ∀ c, sends c → Survives json.frameToVec json.frameFromSlice c.frame
  response : ∀ c state, sends c → Survives json.responseToVec json.responseFromSlice
    (dispatchIntent handler c.frame c.payload state).2

section Service

variable {σ : Type} {json : IntentJson} {handler : Option (IntentHandler σ)} {sends : SendCall → Prop}

/-- The handler gets the frame and the payload of the send. -/
theorem readIntent_bytes {c : SendCall} (h : Survives json.frameToVec json.frameFromSlice c.frame)
    (closed : Bool) :
    (readIntent json).run ⟨c.bytes json, closed⟩ = .ok (c.frame, c.payload) ⟨[], closed⟩ := by
  unfold readIntent SendCall.bytes prefixed
  rw [List.append_assoc, bind_ok (readExact_append _ _ closed (length_be32 _)), fromBe_be32 h.1,
    bind_ok (readExact_append _ _ closed rfl)]
  simp only [h.2]
  have hpayload : (readPayload c.frame.payloadSize).run ⟨c.payload, closed⟩ =
      .ok c.payload ⟨[], closed⟩ := by
    have hread := readExact_append c.payload [] closed rfl
    rw [List.append_nil] at hread
    unfold readPayload
    split
    · exact hread
    · next hsize =>
      rw [List.eq_nil_of_length_eq_zero (Nat.eq_zero_of_not_pos hsize)]
      rfl
  rw [bind_ok hpayload]
  rfl

/-- The send gets the response of the handler. -/
theorem readResponse_prefixed {response : IntentResponse}
    (h : Survives json.responseToVec json.responseFromSlice response) (closed : Bool) :
    (SendCall.readResponse json).run ⟨prefixed (json.responseToVec response), closed⟩ =
      .ok (SendCall.verdict response) ⟨[], closed⟩ := by
  have hread := readExact_append (json.responseToVec response) [] closed rfl
  rw [List.append_nil] at hread
  unfold SendCall.readResponse prefixed
  rw [bind_ok (readExact_append _ _ closed (length_be32 _)), fromBe_be32 h.1, bind_ok hread]
  simp only [h.2]
  rfl

theorem steady_readIntent (json : IntentJson) : Steady (readIntent json) := by
  refine .bind (steady_readExact 4) (fun lenBuf => .bind (steady_readExact _) (fun frameBuf => ?_))
  split
  · exact steady_throw _
  · refine .bind ?_ (fun payload => steady_pure _)
    unfold readPayload
    split
    · exact steady_readExact _
    · exact steady_pure _

theorem steady_readResponse (json : IntentJson) : Steady (SendCall.readResponse json) := by
  refine .bind (steady_readExact 4) (fun lenBuf => .bind (steady_readExact _) (fun respBuf => ?_))
  split <;> exact steady_pure _

/-- A send alone is one call of the handler. -/
theorem intentService_implements (hwire : IntentsOnWire json handler sends) :
    Implements (intentService json handler) sends (fun _ => True) (fun _ => True) id id
      (SendCall.apply handler) where
  serve_steady := fun _ => steady_readIntent json
  receive_steady := fun _ _ => steady_readResponse json
  receive_waits := by
    intro c _ closed r rest h
    have hempty : (SendCall.readResponse json).run ⟨[], closed⟩ =
        .error (if closed then .eof else .pending) ⟨[], closed⟩ :=
      bind_error (readExact_short (by simp))
    change (SendCall.readResponse json).run _ = _ at h
    rw [hempty] at h
    cases h
  serves := by
    intro c hc closed
    refine ⟨(c.frame, c.payload), _, readIntent_bytes (hwire.frame c hc) closed, ?_⟩
    intro _ state _ _
    refine ⟨trivial, rfl, fun _ closed => ?_⟩
    exact ⟨_, _, readResponse_prefixed (hwire.response c state hc) closed, rfl⟩

/-- Any number of sends share the connections of a MUX, each on a stream of its own. In every
interleaving the calls of the handler, in their order, explain the run: a send calls the handler at
most once, with its own frame and payload; a send that returns has called it and returns what it
answered to this call; and a send that returned before another started called it first. -/
theorem intents_linearizable (hwire : IntentsOnWire json handler sends) (state : σ)
    {events : List (Exchange.Event (intentService json handler))}
    (hevents : Conforms (intentService json handler) sends (fun _ => True) events) :
    Linearizes (intentService json handler) id id (SendCall.apply handler) (.new state) events
      (accesses (.new state) events) :=
  (intentService_implements hwire).linearizes trivial hevents

end Service

/-! ## A chat message -/

namespace Chat

open Cluster.Demo (dump)

def hallo : SendCall where
  ourAint := "root_idd.aint"
  toIdd := "jis:pixel:jasper"
  intent := .chat
  payload := [0x48, 0x61, 0x6c, 0x6c, 0x6f, 0x21]
  metadata := ∅
  channelId := 1
  timestampMillis := 1760000000000

def halloFrame : List UInt8 :=
  dump 164
    [0x7b226368616e6e656c5f6964223a312c22696e74656e74223a2263686174222c,
     0x2266726f6d5f61696e74223a22726f6f745f6964642e61696e74222c22746f5f,
     0x696464223a226a69733a706978656c3a6a6173706572222c227061796c6f6164,
     0x5f73697a65223a362c2274696265745f746f6b656e5f6964223a226f6d75785f,
     0x636861745f315f31373630303030303030303030222c226d6574616461746122,
     0x3a7b7d7d]

def received : IntentResponse := ⟨1, 200, "chat", "omux_chat_1_1760000000000", 0, none⟩

def receivedHeader : List UInt8 :=
  dump 120
    [0x7b226368616e6e656c5f6964223a312c22737461747573223a3230302c22696e,
     0x74656e74223a2263686174222c2274696265745f746f6b656e5f6964223a226f,
     0x6d75785f636861745f315f31373630303030303030303030222c227061796c6f,
     0x61645f73697a65223a302c226572726f72223a6e756c6c7d]

/-- `serde_json` on the message and the response to it. -/
def chatJson : IntentJson where
  frameToVec := fun frame => if frame = hallo.frame then halloFrame else []
  frameFromSlice := fun bytes =>
    if bytes = halloFrame then .ok hallo.frame else .error "expected value at line 1 column 1"
  responseToVec := fun response => if response = received then receivedHeader else []
  responseFromSlice := fun bytes =>
    if bytes = receivedHeader then .ok received else .error "expected value at line 1 column 1"

/-- A handler that keeps the messages. -/
def inbox : IntentHandler (List (List UInt8)) := fun frame payload messages =>
  (messages ++ [payload], ⟨frame.channelId, 200, frame.intent, frame.tibetTokenId, 0, none⟩)

theorem chatJson_onWire : IntentsOnWire chatJson (some inbox) (· = hallo) where
  frame := by
    rintro c rfl
    constructor
    · simp only [chatJson, if_true]
      decide +kernel
    · simp only [chatJson, if_true]
  response := by
    rintro c messages rfl
    have hresponse :
        (dispatchIntent (some inbox) hallo.frame hallo.payload messages).2 = received := by
      show (⟨_, _, _, _, _, _⟩ : IntentResponse) = _
      decide
    rw [hresponse]
    constructor
    · decide
    · simp only [chatJson, if_true]

/-- Two copies of the message. The second is delivered first. -/
def twoMessages : List (Exchange.Event (intentService chatJson (some inbox))) :=
  [.call hallo, .call hallo, .move 1 (.carry 200), .move 1 .serve, .access 1 (), .move 0 (.carry 10),
   .move 1 (.bring 200), .move 1 (.take ()), .move 0 (.carry 200), .move 0 .serve, .access 0 ()]

end Chat

section

open Chat

theorem intents_linearizable_twoMessages :
    Linearizes (intentService chatJson (some inbox)) id id (SendCall.apply (some inbox)) (.new [])
      twoMessages (accesses (.new []) twoMessages) := by
  refine intents_linearizable chatJson_onWire [] fun e he => ?_
  simp only [twoMessages, List.mem_cons, List.not_mem_nil, or_false] at he
  rcases he with rfl | rfl | rfl | rfl | rfl | rfl | rfl | rfl | rfl | rfl | rfl <;>
    first | exact rfl | trivial

end

end Spaceshuttle.Overlay
