import Spaceshuttle.Lib.Machine
import Spaceshuttle.Cluster.MuxReconnect

/-!
# What a client knows about the data it fetches

A client of `cluster_mux.rs:498-750` against a peer that may send anything. A payload is hashed
while it is read, unless the hash cache has the hash that the peer claims for the block: then the
claim is trusted (`cluster_mux.rs:178-190`). An entry of the cache is written for a payload that was
hashed, before the hash is compared, and for a store that the peer accepted. The hash a caller
expects goes into the request, and it is the server that compares it.
-/

namespace Spaceshuttle.Cluster

open ByteStream

section Client

variable {σ : Type} {libs : MuxLibs}

/-! ## The payloads that are hashed -/

variable (libs) in
/-- The payloads that a client hashes when it takes the responses for `blocks` off a stream, each
with the block it was sent for. A payload whose reported hash is in the cache is read and not hashed;
the client stops at the first response that it does not accept. -/
def payloadsHashed : HashCache → List Nat → Inbound → List (Nat × List UInt8)
  | _, [], _ => []
  | cache, i :: blocks, s =>
      match (readFrame libs).run s with
      | .ok (.response r) s =>
          if r.status = 200 then
            match (readPayloadCached libs r.payloadSize r.contentHash i cache).run s with
            | .ok ((data, verifiedHash), cache') s =>
                let later :=
                  if verifiedHash = r.contentHash then payloadsHashed cache' blocks s else []
                if cache.isVerified i r.contentHash then later else (i, data) :: later
            | .error _ _ => []
          else
            []
      | _ => []

variable (libs) in
/-- The payloads that are hashed on the connection, if there is one. -/
def World.payloadsHashed (w : World σ) (blocks : List Nat) : List (Nat × List UInt8) :=
  match w.client.connection with
  | some c => Cluster.payloadsHashed libs w.client.hashCache blocks c.inbound
  | none => []

/-! ## Taking a response -/

theorem cacheAfter_lookup {cache : HashCache} {b i : Nat} {serverHash h : String} {data : List UInt8}
    (hl : (cacheAfter libs cache b serverHash data).verified.lookup i = some h) :
    cache.verified.lookup i = some h ∨
      i = b ∧ h = libs.sha256.hex data ∧ cache.isVerified b serverHash = false := by
  unfold cacheAfter at hl
  by_cases hv : cache.isVerified b serverHash = true
  · rw [if_pos hv] at hl
    exact .inl hl
  · rw [if_neg hv] at hl
    simp only [HashCache.markVerified] at hl
    by_cases hi : i = b
    · subst hi
      rw [AList.lookup_insert] at hl
      cases hl
      exact .inr ⟨rfl, rfl, Bool.not_eq_true _ ▸ hv⟩
    · rw [AList.lookup_insert_ne hi] at hl
      exact .inl hl

theorem HashCache.isVerified_iff {cache : HashCache} {i : Nat} {h : String} :
    cache.isVerified i h = true ↔ cache.verified.lookup i = some h := by
  unfold isVerified
  cases cache.verified.lookup i with
  | none => simp
  | some h' => simp

/-- The world after a response was taken off the connection `c` with its payload, which leaves
`unread` on the stream. -/
def World.taken (w : World σ) (c : MuxConnection) (r : MuxResponse) (cache : HashCache)
    (unread : Inbound) : World σ :=
  { w with
    client := { w.client with connection := some { c with inbound := unread }, hashCache := cache }
    received := w.received ++ [.response r] }

theorem recvFrame_error {w : World σ} {c : MuxConnection} (hc : w.client.connection = some c)
    {stop : Stop} {s : Inbound} (hr : (readFrame libs).run c.inbound = .error stop s) :
    (recvFrame libs).run w = .error (haltOf stop) (w.setConnection { c with inbound := s }) :=
  bind_error (onConnection_error hc hr)

theorem recvFrame_ok {w : World σ} {c : MuxConnection} (hc : w.client.connection = some c)
    {frame : MuxFrame} {s : Inbound} (hr : (readFrame libs).run c.inbound = .ok frame s) :
    (recvFrame libs).run w = .ok frame
      ({ w with received := w.received ++ [frame] }.setConnection { c with inbound := s }) := by
  unfold recvFrame
  rw [bind_ok (onConnection_ok hc hr)]
  rfl

theorem recvPayload_error {w : World σ} {c : MuxConnection} (hc : w.client.connection = some c)
    {payloadSize i : Nat} {serverHash : String} {stop : Stop} {s : Inbound}
    (hr : (readPayloadCached libs payloadSize serverHash i w.client.hashCache).run c.inbound =
      .error stop s) :
    (recvPayload libs payloadSize serverHash i).run w =
      .error (haltOf stop) (w.setConnection { c with inbound := s }) := by
  unfold recvPayload
  rw [bind_ok (EStateM.run_get w), bind_error (onConnection_error hc hr)]

theorem recvPayload_ok {w : World σ} {c : MuxConnection} (hc : w.client.connection = some c)
    {payloadSize i : Nat} {serverHash : String} {read : List UInt8 × String} {cache : HashCache}
    {s : Inbound}
    (hr : (readPayloadCached libs payloadSize serverHash i w.client.hashCache).run c.inbound =
      .ok (read, cache) s) :
    (recvPayload libs payloadSize serverHash i).run w = .ok read
      { w with client := { w.client with
        connection := some { c with inbound := s }
        hashCache := cache } } := by
  unfold recvPayload
  rw [bind_ok (EStateM.run_get w), bind_ok (onConnection_ok hc hr)]
  rfl

/-- What taking a response can come to: an error that leaves the cache alone, or a response of status
200 with a payload, which is taken or not by the hash it is found to have. -/
theorem takeFetched_cases (libs : MuxLibs) (unexpected : String) (i : Nat) (w : World σ) :
    (∃ e w', (takeFetched libs unexpected i).run w = .error e w' ∧
      w'.client.hashCache = w.client.hashCache) ∨
    ∃ c r s data verifiedHash cache unread,
      w.client.connection = some c ∧
      (readFrame libs).run c.inbound = .ok (.response r) s ∧ r.status = 200 ∧
      (readPayloadCached libs r.payloadSize r.contentHash i w.client.hashCache).run s =
        .ok ((data, verifiedHash), cache) unread ∧
      (takeFetched libs unexpected i).run w =
        resultOf (if verifiedHash ≠ r.contentHash
          then .error (.integrityFailed r.contentHash verifiedHash) else .ok data)
          (w.taken c r cache unread) := by
  unfold takeFetched
  cases hc : w.client.connection with
  | none =>
    left
    refine ⟨.err .notConnected, w, bind_error ?_, rfl⟩
    refine bind_error ?_
    simp only [onConnection, EStateM.run, hc]
  | some c =>
    cases hframe : (readFrame libs).run c.inbound with
    | error stop s => exact .inl ⟨_, _, bind_error (recvFrame_error hc hframe), rfl⟩
    | ok frame s =>
      rw [bind_ok (recvFrame_ok hc hframe)]
      cases frame with
      | response r =>
        by_cases hstatus : r.status = 200
        · simp only [if_pos hstatus]
          have hunread : (World.setConnection { w with received := w.received ++ [.response r] }
              { c with inbound := s }).client.connection = some { c with inbound := s } := rfl
          cases hpayload : (readPayloadCached libs r.payloadSize r.contentHash i
              w.client.hashCache).run s with
          | error stop s' => exact .inl ⟨_, _, bind_error (recvPayload_error hunread hpayload), rfl⟩
          | ok read unread =>
            obtain ⟨⟨data, verifiedHash⟩, cache⟩ := read
            right
            refine ⟨c, r, s, data, verifiedHash, cache, unread, rfl, hframe, hstatus, hpayload, ?_⟩
            rw [bind_ok (recvPayload_ok hunread hpayload)]
            by_cases hmatch : verifiedHash ≠ r.contentHash
            · simp only [if_pos hmatch]
              rfl
            · simp only [if_neg hmatch]
              rfl
        · simp only [if_neg hstatus]
          exact .inl ⟨_, _, rfl, rfl⟩
      | _ => exact .inl ⟨_, _, rfl, rfl⟩

/-- What a client may take from a response for block `i`: data with the reported hash, or data that
was not hashed, when the cache has the reported hash and `V` vouches for it. -/
def Accepted (libs : MuxLibs) (V : Nat → String → Prop) (cache : HashCache) (i : Nat)
    (data : List UInt8) (r : MuxResponse) : Prop :=
  r.status = 200 ∧
    (libs.sha256.hex data = r.contentHash ∨
      cache.isVerified i r.contentHash = true ∧ V i r.contentHash)

/-- A response that was taken. -/
theorem takeFetched_ok {V : Nat → String → Prop} {unexpected : String} {i : Nat} {data : List UInt8}
    {w w' : World σ} (h : (takeFetched libs unexpected i).run w = .ok data w')
    (hV : ∀ i h, w.client.hashCache.verified.lookup i = some h → V i h) :
    ∃ r, w'.received = w.received ++ [.response r] ∧
      Accepted libs V w.client.hashCache i data r ∧
      w'.client.hashCache.verified =
        (cacheAfter libs w.client.hashCache i r.contentHash data).verified := by
  rcases takeFetched_cases libs unexpected i w with ⟨e, w₁, hrun, -⟩ |
    ⟨c, r, s, read, verifiedHash, cache, unread, -, -, hstatus, hpayload, hrun⟩
  · rw [h] at hrun
    cases hrun
  · rw [h] at hrun
    obtain ⟨hhash, hcache, -⟩ := readPayloadCached_ok hpayload
    by_cases hmatch : verifiedHash ≠ r.contentHash
    · rw [if_pos hmatch] at hrun
      cases hrun
    · rw [if_neg hmatch] at hrun
      cases hrun
      refine ⟨r, rfl, ⟨hstatus, ?_⟩, hcache⟩
      rw [not_not.mp hmatch] at hhash
      unfold hashAfter at hhash
      split at hhash
      · rename_i hv
        exact .inr ⟨hv, hV i _ (HashCache.isVerified_iff.mp hv)⟩
      · exact .inl hhash.symm

/-! ## Asking -/

/-- A computation that touches neither the hash cache nor the frames received. -/
def Asks {α : Type} (x : ClientM σ α) : Prop :=
  Along (fun w w' : World σ =>
    w'.client.hashCache = w.client.hashCache ∧ w'.received = w.received) x

section Asks

variable {α β : Type} {P : Peer σ}

theorem Asks.bind {x : ClientM σ α} {f : α → ClientM σ β} (hx : Asks x) (hf : ∀ a, Asks (f a)) :
    Asks (x >>= f) :=
  Along.bind (fun hab hbc => ⟨hbc.1.trans hab.1, hbc.2.trans hab.2⟩) hx hf

theorem Asks.of_ok {x : ClientM σ α} (hx : Asks x) {w w' : World σ} {a : α}
    (h : x.run w = .ok a w') :
    w'.client.hashCache = w.client.hashCache ∧ w'.received = w.received := by
  have hxw := hx w
  rw [h] at hxw
  exact hxw

theorem asks_ensureConnected : Asks (ensureConnected P) := by
  intro w
  simp only [ensureConnected, EStateM.run]
  cases w.client.connection with
  | some c => exact ⟨rfl, rfl⟩
  | none => cases P.connect w.peer <;> exact ⟨rfl, rfl⟩

theorem asks_sendFrame (frame : MuxFrame) (payload : List UInt8) :
    Asks (sendFrame libs frame payload : ClientM σ Unit) := by
  intro w
  simp only [sendFrame, EStateM.run]
  cases w.client.connection <;> exact ⟨rfl, rfl⟩

theorem asks_flush : Asks (flush P) := by
  intro w
  simp only [flush, EStateM.run]
  cases w.client.connection with
  | none => exact ⟨rfl, rfl⟩
  | some c =>
    cases hd : (P.deliver w.peer c.writer).2.error with
    | none =>
      simp only [hd]
      exact ⟨rfl, rfl⟩
    | some e =>
      simp only [hd]
      exact ⟨rfl, rfl⟩

theorem asks_request (c : Call) : Asks (request P libs c) := by
  refine .bind asks_ensureConnected (fun _ => ?_)
  refine .bind (fun _ => ⟨rfl, rfl⟩) (fun _ => ?_)
  refine .bind (fun _ => ⟨rfl, rfl⟩) (fun _ => ?_)
  exact .bind (asks_sendFrame _ _) (fun _ => asks_flush)

theorem asks_sendBatch (requests : List (Nat × UInt64)) :
    Asks (sendBatch libs requests : ClientM σ (List (UInt32 × Nat))) := by
  induction requests with
  | nil => exact fun _ => ⟨rfl, rfl⟩
  | cons request requests ih =>
    refine .bind (fun _ => ⟨rfl, rfl⟩) (fun _ => ?_)
    refine .bind (fun _ => ⟨rfl, rfl⟩) (fun _ => ?_)
    refine .bind (asks_sendFrame _ _) (fun _ => ?_)
    exact .bind ih (fun _ => fun _ => ⟨rfl, rfl⟩)

end Asks

section KeepsCache

/-- A computation that does not touch the hash cache. -/
def KeepsCache {α : Type} (x : ClientM σ α) : Prop :=
  Along (fun w w' : World σ => w'.client.hashCache = w.client.hashCache) x

theorem KeepsCache.bind {α β : Type} {x : ClientM σ α} {f : α → ClientM σ β} (hx : KeepsCache x)
    (hf : ∀ a, KeepsCache (f a)) : KeepsCache (x >>= f) :=
  Along.bind (fun hab hbc => hbc.trans hab) hx hf

theorem Asks.keepsCache {α : Type} {x : ClientM σ α} (hx : Asks x) : KeepsCache x := fun w => (hx w).1

theorem keepsCache_pure {α : Type} (a : α) : KeepsCache (pure a : ClientM σ α) := fun _ => rfl

theorem keepsCache_throw {α : Type} (e : Halt) : KeepsCache (throw e : ClientM σ α) := fun _ => rfl

theorem keepsCache_addRequestsSent (n : UInt64) : KeepsCache (addRequestsSent n : ClientM σ Unit) :=
  fun _ => rfl

theorem keepsCache_addBytesTransferred (n : Nat) :
    KeepsCache (addBytesTransferred n : ClientM σ Unit) :=
  fun _ => rfl

theorem keepsCache_recvFrame : KeepsCache (recvFrame libs : ClientM σ MuxFrame) := by
  intro w
  cases hc : w.client.connection with
  | none =>
    have hrun : (recvFrame libs).run w = .error (.err .notConnected) w := by
      refine bind_error ?_
      simp only [onConnection, EStateM.run, hc]
    rw [hrun]
    rfl
  | some c =>
    cases hr : (readFrame libs).run c.inbound with
    | ok frame s =>
      rw [recvFrame_ok hc hr]
      rfl
    | error stop s =>
      rw [recvFrame_error hc hr]
      rfl

/-- A step after which the cache is kept leaves the cache that it left. -/
theorem KeepsCache.after {α β : Type} {f : α → ClientM σ β} (hf : ∀ a, KeepsCache (f a))
    (x : ClientM σ α) (w : World σ) :
    (finalState ((x >>= f).run w)).client.hashCache = (finalState (x.run w)).client.hashCache :=
  finalState_bind (p := fun w' : World σ => w'.client.hashCache = (finalState (x.run w)).client.hashCache) rfl
    (fun a w' hrun => by
      rw [hrun]
      exact hf a w')

end KeepsCache

/-! ## What a response leaves in the cache -/

variable (libs) in
/-- A payload for block `i` that is hashed on the connection has the hash `h`. -/
def World.Hashes (w : World σ) (blocks : List Nat) (i : Nat) (h : String) : Prop :=
  ∃ data, (i, data) ∈ w.payloadsHashed libs blocks ∧ libs.sha256.hex data = h

/-- Taking a response adds no entry but for the payload that it hashes; what is hashed after it would
have been hashed from where it started. -/
theorem takeFetched_cache (libs : MuxLibs) (unexpected : String) (i : Nat) (blocks : List Nat)
    (w : World σ) :
    (∀ j h, (finalState ((takeFetched libs unexpected i).run w)).client.hashCache.verified.lookup j =
        some h →
      w.client.hashCache.verified.lookup j = some h ∨ w.Hashes libs (i :: blocks) j h) ∧
    ∀ data w', (takeFetched libs unexpected i).run w = .ok data w' →
      w'.payloadsHashed libs blocks ⊆ w.payloadsHashed libs (i :: blocks) := by
  rcases takeFetched_cases libs unexpected i w with ⟨e, w₁, hrun, hcache⟩ |
    ⟨c, r, s, data, verifiedHash, cache, unread, hc, hframe, hstatus, hpayload, hrun⟩
  · rw [hrun]
    refine ⟨fun j h hl => .inl ?_, fun data w' h => by cases h⟩
    rw [← hcache]
    exact hl
  · have hhashed : w.payloadsHashed libs (i :: blocks) =
        if w.client.hashCache.isVerified i r.contentHash then
          if verifiedHash = r.contentHash then payloadsHashed libs cache blocks unread else []
        else (i, data) ::
          if verifiedHash = r.contentHash then payloadsHashed libs cache blocks unread else [] := by
      simp only [World.payloadsHashed, hc, payloadsHashed, hframe, if_pos hstatus, hpayload]
    constructor
    · intro j h hl
      have hfinal : (finalState ((takeFetched libs unexpected i).run w)).client.hashCache = cache := by
        rw [hrun]
        by_cases hmatch : verifiedHash ≠ r.contentHash
        · rw [if_pos hmatch]
          rfl
        · rw [if_neg hmatch]
          rfl
      rw [hfinal, (readPayloadCached_ok hpayload).2.1] at hl
      rcases cacheAfter_lookup hl with hold | ⟨rfl, rfl, hmiss⟩
      · exact .inl hold
      · refine .inr ⟨data, ?_, rfl⟩
        rw [hhashed, hmiss]
        exact List.mem_cons_self
    · intro read w' hok
      rw [hrun] at hok
      by_cases hmatch : verifiedHash ≠ r.contentHash
      · rw [if_pos hmatch] at hok
        cases hok
      · rw [if_neg hmatch] at hok
        cases hok
        rw [hhashed, if_pos (not_not.mp hmatch)]
        intro p hp
        split
        · exact hp
        · exact List.mem_cons_of_mem _ hp

/-- So does taking the responses of a batch. -/
theorem recvBatch_cache {channels : List (UInt32 × Nat)} {w : World σ} {j : Nat} {h : String}
    (hl : (finalState ((recvBatch libs channels).run w)).client.hashCache.verified.lookup j =
      some h) :
    w.client.hashCache.verified.lookup j = some h ∨
      w.Hashes libs (channels.map Prod.snd) j h := by
  induction channels generalizing w with
  | nil => exact .inl hl
  | cons channel channels ih =>
    obtain ⟨hcache, hrest⟩ := takeFetched_cache libs "Unexpected frame" channel.2
      (channels.map Prod.snd) w
    refine finalState_bind (p := fun w' : World σ =>
      w'.client.hashCache.verified.lookup j = some h →
        w.client.hashCache.verified.lookup j = some h ∨
          w.Hashes libs (channel.2 :: channels.map Prod.snd) j h) (hcache j h) ?_ hl
    intro data w₁ htake hl
    rw [htake] at hcache
    rw [bind_ok (addBytesTransferred_run _ _), KeepsCache.after (fun _ => keepsCache_pure _)] at hl
    rcases ih hl with hold | ⟨payload, hmem, hhex⟩
    · exact hcache j h hold
    · exact .inr ⟨payload, hrest data w₁ htake hmem, hhex⟩

/-! ## The results of a batch -/

/-- What a client takes from the responses of a batch, with the cache moving on from one to the
next. Data that came under its own hash vouches for the items after it. -/
def AcceptedBatch (libs : MuxLibs) : (Nat → String → Prop) →
    HashCache → List (Nat × List UInt8) → List MuxResponse → Prop
  | _, _, [], [] => True
  | V, cache, (i, data) :: results, r :: rs =>
      Accepted libs V cache i data r ∧
        AcceptedBatch libs
          (fun j h => V j h ∨ j = i ∧ h = r.contentHash ∧ h = libs.sha256.hex data)
          (cacheAfter libs cache i r.contentHash data) results rs
  | _, _, _, _ => False

theorem accepted_congr {V : Nat → String → Prop} {cache cache' : HashCache} {i : Nat}
    {data : List UInt8} {r : MuxResponse} (h : cache.verified = cache'.verified) :
    Accepted libs V cache i data r ↔ Accepted libs V cache' i data r := by
  unfold Accepted HashCache.isVerified
  rw [h]

theorem cacheAfter_congr {cache cache' : HashCache} {i : Nat} {serverHash : String}
    {data : List UInt8} (h : cache.verified = cache'.verified) :
    (cacheAfter libs cache i serverHash data).verified =
      (cacheAfter libs cache' i serverHash data).verified := by
  have hv : cache.isVerified i serverHash = cache'.isVerified i serverHash := by
    unfold HashCache.isVerified
    rw [h]
  unfold cacheAfter
  rw [hv]
  split
  · exact h
  · exact congrArg (AList.insert i (libs.sha256.hex data)) h

/-- Only the table of a cache matters. -/
theorem acceptedBatch_congr {V : Nat → String → Prop} {cache cache' : HashCache}
    {results : List (Nat × List UInt8)} {rs : List MuxResponse}
    (h : cache.verified = cache'.verified) (hb : AcceptedBatch libs V cache results rs) :
    AcceptedBatch libs V cache' results rs := by
  induction results generalizing V cache cache' rs with
  | nil => cases rs <;> exact hb
  | cons result results ih =>
    cases rs with
    | nil => exact hb
    | cons r rs => exact ⟨(accepted_congr h).mp hb.1, ih (cacheAfter_congr h) hb.2⟩

/-- The table after data was taken has nothing that is not vouched for. -/
theorem vouched_after {V : Nat → String → Prop} {cache : HashCache} {i : Nat} {data : List UInt8}
    {r : MuxResponse} (hV : ∀ j h, cache.verified.lookup j = some h → V j h)
    (ha : Accepted libs V cache i data r) {j : Nat} {h : String}
    (hl : (cacheAfter libs cache i r.contentHash data).verified.lookup j = some h) :
    V j h ∨ j = i ∧ h = r.contentHash ∧ h = libs.sha256.hex data := by
  rcases cacheAfter_lookup hl with hold | ⟨rfl, rfl, hmiss⟩
  · exact .inl (hV j h hold)
  · rcases ha.2 with hhex | ⟨hhit, -⟩
    · exact .inr ⟨rfl, hhex, rfl⟩
    · rw [hmiss] at hhit
      cases hhit

theorem recvBatch_ok {V : Nat → String → Prop} {channels : List (UInt32 × Nat)}
    {results : List (Nat × List UInt8)} {w w' : World σ}
    (h : (recvBatch libs channels).run w = .ok results w')
    (hV : ∀ i h, w.client.hashCache.verified.lookup i = some h → V i h) :
    ∃ rs : List MuxResponse, w'.received = w.received ++ rs.map .response ∧
      AcceptedBatch libs V w.client.hashCache results rs := by
  induction channels generalizing V w results with
  | nil =>
    cases h
    exact ⟨[], (List.append_nil _).symm, trivial⟩
  | cons channel channels ih =>
    obtain ⟨data, w₁, htake, h⟩ := of_bind_ok h
    obtain ⟨r, hreceived, haccepted, hcache⟩ := takeFetched_ok htake hV
    obtain ⟨_, w₂, hcount, h⟩ := of_bind_ok h
    cases hcount
    obtain ⟨results, w₃, hrest, h⟩ := of_bind_ok h
    cases h
    have hV₁ : ∀ j hash, w₁.client.hashCache.verified.lookup j = some hash →
        V j hash ∨ j = channel.2 ∧ hash = r.contentHash ∧ hash = libs.sha256.hex data := by
      intro j hash hl
      rw [hcache] at hl
      exact vouched_after hV haccepted hl
    obtain ⟨rs, hrs, hbatch⟩ := ih hrest hV₁
    refine ⟨r :: rs, ?_, haccepted, acceptedBatch_congr hcache hbatch⟩
    rw [hrs]
    show w₁.received ++ _ = _
    rw [hreceived, List.append_assoc]
    rfl

/-! ## Methods and what vouches for an entry -/

section Methods

/-- Phase 1 of `fetch_batch` with the flush (`cluster_mux.rs:691-711`). -/
def askBatch (P : Peer σ) (libs : MuxLibs) (requests : List (Nat × UInt64)) :
    ClientM σ (List (UInt32 × Nat)) := do
  ensureConnected P
  let channels ← sendBatch libs requests
  flush P
  pure channels

/-- The part of a method up to the flush of its requests. -/
def ClientOp.asking (P : Peer σ) (libs : MuxLibs) : ClientOp → ClientM σ Unit
  | .call c => request P libs c
  | .fetchBatch requests => do
      let _ ← askBatch P libs requests
  | .disconnect => pure ()

/-- The blocks that a method fetches. -/
def ClientOp.fetches : ClientOp → List Nat
  | .call (.fetchBlock i _ _) => [i]
  | .fetchBatch requests => requests.map Prod.fst
  | _ => []

/-- The payloads that a method hashes once its requests are out. -/
def ClientOp.hashed (P : Peer σ) (libs : MuxLibs) (w : World σ) (op : ClientOp) :
    List (Nat × List UInt8) :=
  match (op.asking P libs).run w with
  | .ok _ w' => w'.payloadsHashed libs op.fetches
  | .error _ _ => []

/-- A method vouches for a hash of block `i`: it hashed a payload that the peer sent for the block and
found that hash, or it stored the block under that hash and the peer accepted. -/
def Vouches (P : Peer σ) (libs : MuxLibs) (w : World σ) (op : ClientOp) (i : Nat) (h : String) : Prop :=
  (∃ data, (i, data) ∈ op.hashed P libs w ∧ libs.sha256.hex data = h) ∨
    ∃ data edSeal rawSize seq, op = .call (.storeBlock i data h edSeal rawSize seq) ∧
      (opStep P libs w op).2 = .ok ()

/-- A method in the history vouches for the hash. -/
def Vouched (P : Peer σ) (libs : MuxLibs) (w : World σ) (ops : List ClientOp) (i : Nat)
    (h : String) : Prop :=
  ∃ pre op post, ops = pre ++ op :: post ∧
    Vouches P libs (Machine.run (opStep P libs) w pre) op i h

variable {P : Peer σ}

theorem fetchBatch_eq (requests : List (Nat × UInt64)) :
    fetchBatch P libs requests = (do
      let channels ← askBatch P libs requests
      let results ← recvBatch libs channels
      addRequestsSent (UInt64.ofNat requests.length)
      pure results) := by
  simp only [fetchBatch, askBatch, bind_assoc, pure_bind]

theorem asks_askBatch (requests : List (Nat × UInt64)) : Asks (askBatch P libs requests) := by
  refine .bind asks_ensureConnected (fun _ => ?_)
  refine .bind (asks_sendBatch requests) (fun channels => ?_)
  exact .bind asks_flush (fun _ => fun _ => ⟨rfl, rfl⟩)

theorem askBatch_indices {requests : List (Nat × UInt64)} {w w' : World σ}
    {channels : List (UInt32 × Nat)} (h : (askBatch P libs requests).run w = .ok channels w') :
    channels.map Prod.snd = requests.map Prod.fst := by
  obtain ⟨_, w₁, -, h⟩ := of_bind_ok h
  obtain ⟨sent, w₂, hsend, h⟩ := of_bind_ok h
  obtain ⟨_, w₃, -, h⟩ := of_bind_ok h
  cases h
  exact sendBatch_indices hsend

theorem finalState_discard {α : Type} (x : ClientM σ α) (w : World σ) :
    finalState ((do let _ ← x : ClientM σ Unit).run w) = finalState (x.run w) := by
  show finalState ((x >>= fun _ => pure ()).run w) = _
  cases hx : x.run w with
  | ok a w' => rw [bind_ok hx]; rfl
  | error e w' => rw [bind_error hx]; rfl

theorem keepsCache_ping : KeepsCache (ping P libs) := by
  refine .bind (asks_request _).keepsCache (fun _ => ?_)
  refine .bind keepsCache_recvFrame (fun resp => ?_)
  refine .bind (keepsCache_addRequestsSent _) (fun _ => ?_)
  cases resp with
  | response r =>
    simp only
    split
    · exact keepsCache_pure _
    · exact keepsCache_throw _
  | _ => exact keepsCache_throw _

/-- What comes after the requests of a method adds the payloads that the method hashes. -/
theorem added_after {α β : Type} {op : ClientOp} {x : ClientM σ α} {f : α → ClientM σ β}
    {w : World σ} {i : Nat} {h : String} (hasks : Asks x)
    (hhashed : ∀ a w', x.run w = .ok a w' → op.hashed P libs w = w'.payloadsHashed libs op.fetches)
    (hf : ∀ a w', x.run w = .ok a w' →
      (finalState ((f a).run w')).client.hashCache.verified.lookup i = some h →
      w'.client.hashCache.verified.lookup i = some h ∨ w'.Hashes libs op.fetches i h)
    (hl : (finalState ((x >>= f).run w)).client.hashCache.verified.lookup i = some h) :
    w.client.hashCache.verified.lookup i = some h ∨ Vouches P libs w op i h := by
  have hkept := (hasks w).1
  cases hx : x.run w with
  | error e w' =>
    rw [hx] at hkept
    rw [bind_error hx] at hl
    left
    rw [← hkept]
    exact hl
  | ok a w' =>
    rw [hx] at hkept
    rw [bind_ok hx] at hl
    rcases hf a w' hx hl with hold | ⟨data, hmem, hhex⟩
    · left
      rw [← hkept]
      exact hold
    · right
      left
      exact ⟨data, by rw [hhashed a w' hx]; exact hmem, hhex⟩

theorem fetchBlock_cache {w : World σ} {j : Nat} {expected : Option String} {seq : UInt64} {i : Nat}
    {h : String}
    (hl : (opStep P libs w (.call (.fetchBlock j expected seq))).1.client.hashCache.verified.lookup
      i = some h) :
    w.client.hashCache.verified.lookup i = some h ∨
      Vouches P libs w (.call (.fetchBlock j expected seq)) i h := by
  rw [opStep_fst, ClientOp.method, finalState_discard] at hl
  refine added_after (asks_request _) ?_ ?_ hl
  · intro _ w' hask
    unfold ClientOp.hashed ClientOp.asking
    rw [hask]
  · intro _ w' _ hl
    have hcount : ∀ data : List UInt8, KeepsCache (do
        addRequestsSent 1
        addBytesTransferred data.length
        pure data : ClientM σ (List UInt8)) := fun data =>
      .bind (keepsCache_addRequestsSent _) fun _ =>
        .bind (keepsCache_addBytesTransferred _) fun _ => keepsCache_pure _
    rw [KeepsCache.after hcount] at hl
    exact (takeFetched_cache libs _ j [] w').1 i h hl

theorem fetchBatch_cache {w : World σ} {requests : List (Nat × UInt64)} {i : Nat} {h : String}
    (hl : (opStep P libs w (.fetchBatch requests)).1.client.hashCache.verified.lookup i = some h) :
    w.client.hashCache.verified.lookup i = some h ∨ Vouches P libs w (.fetchBatch requests) i h := by
  rw [opStep_fst, ClientOp.method, finalState_discard, fetchBatch_eq] at hl
  refine added_after (asks_askBatch requests) ?_ ?_ hl
  · intro channels w' hask
    unfold ClientOp.hashed ClientOp.asking
    rw [bind_ok hask]
    rfl
  · intro channels w' hask hl
    have hcount : ∀ results : List (Nat × List UInt8), KeepsCache (do
        addRequestsSent (UInt64.ofNat requests.length)
        pure results : ClientM σ (List (Nat × List UInt8))) := fun results =>
      .bind (keepsCache_addRequestsSent _) fun _ => keepsCache_pure _
    rw [KeepsCache.after hcount] at hl
    have hadded := recvBatch_cache hl
    rw [askBatch_indices hask] at hadded
    exact hadded

/-- `store_block` up to its answer (`cluster_mux.rs:640-668`). -/
theorem storeBlock_eq (i rawSize : Nat) (data : List UInt8) (hash edSeal : String) (seq : UInt64) :
    storeBlock P libs i data hash edSeal rawSize seq = (do
      let resp ← (do
        request P libs (.storeBlock i data hash edSeal rawSize seq)
        let resp ← recvFrame libs
        addRequestsSent 1
        addBytesTransferred data.length
        pure resp)
      match resp with
      | .response r =>
          if r.status = 200 then
            modify (fun w => { w with client := { w.client with
              hashCache := w.client.hashCache.markVerified i hash } })
          else
            throw (.err (.remoteStatus r.status (r.error.getD "")))
      | _ => throw (.err (.protocol "Unexpected frame type"))) := by
  symm
  simp only [bind_assoc, pure_bind]
  rfl

/-- A store marks its own hash, if the peer accepts it, and nothing else. -/
theorem storeBlock_hashCache (P : Peer σ) (libs : MuxLibs) (i rawSize : Nat) (data : List UInt8)
    (hash edSeal : String) (seq : UInt64) (w : World σ) :
    (∀ u w', (storeBlock P libs i data hash edSeal rawSize seq).run w = .ok u w' →
      w'.client.hashCache = w.client.hashCache.markVerified i hash) ∧
    ∀ e w', (storeBlock P libs i data hash edSeal rawSize seq).run w = .error e w' →
      w'.client.hashCache = w.client.hashCache := by
  have hkeeps : KeepsCache (do
      request P libs (.storeBlock i data hash edSeal rawSize seq)
      let resp ← recvFrame libs
      addRequestsSent 1
      addBytesTransferred data.length
      pure resp : ClientM σ MuxFrame) :=
    .bind (asks_request _).keepsCache fun _ => .bind keepsCache_recvFrame fun _ =>
      .bind (keepsCache_addRequestsSent _) fun _ =>
        .bind (keepsCache_addBytesTransferred _) fun _ => keepsCache_pure _
  rw [storeBlock_eq]
  constructor
  · intro u w' h
    obtain ⟨resp, w₁, hresp, h⟩ := of_bind_ok h
    have hkept := hkeeps w
    rw [hresp] at hkept
    cases resp with
    | response r =>
      simp only at h
      split at h
      · cases h
        exact congrArg (HashCache.markVerified · i hash) hkept
      · cases h
    | _ => cases h
  · intro e w' h
    have hkept := hkeeps w
    rcases of_bind_error h with h | ⟨resp, w₁, hresp, h⟩
    · rw [h] at hkept
      exact hkept
    · rw [hresp] at hkept
      cases resp with
      | response r =>
        simp only at h
        split at h
        · cases h
        · cases h
          exact hkept
      | _ =>
        cases h
        exact hkept

theorem storeBlock_cache {w : World σ} {j rawSize : Nat} {data : List UInt8} {hash edSeal : String}
    {seq : UInt64} {i : Nat} {h : String}
    (hl : (opStep P libs w
      (.call (.storeBlock j data hash edSeal rawSize seq))).1.client.hashCache.verified.lookup i =
        some h) :
    w.client.hashCache.verified.lookup i = some h ∨
      Vouches P libs w (.call (.storeBlock j data hash edSeal rawSize seq)) i h := by
  obtain ⟨hok, herror⟩ := storeBlock_hashCache P libs j rawSize data hash edSeal seq w
  cases hrun : (storeBlock P libs j data hash edSeal rawSize seq).run w with
  | error e w' =>
    have hstep : opStep P libs w (.call (.storeBlock j data hash edSeal rawSize seq)) =
        (w', .error e) := opStep_of_error hrun
    rw [hstep, herror e w' hrun] at hl
    exact .inl hl
  | ok u w' =>
    have hstep : opStep P libs w (.call (.storeBlock j data hash edSeal rawSize seq)) =
        (w', .ok ()) := by
      unfold opStep ClientOp.method
      rw [hrun]
    rw [hstep, hok u w' hrun] at hl
    simp only [HashCache.markVerified] at hl
    by_cases hi : i = j
    · subst hi
      rw [AList.lookup_insert] at hl
      cases hl
      exact .inr (.inr ⟨data, edSeal, rawSize, seq, rfl, by rw [hstep]⟩)
    · rw [AList.lookup_insert_ne hi] at hl
      exact .inl hl

/-- What a method vouches for is all that it adds to the cache. -/
theorem opStep_cache {w : World σ} {op : ClientOp} {i : Nat} {h : String}
    (hl : (opStep P libs w op).1.client.hashCache.verified.lookup i = some h) :
    w.client.hashCache.verified.lookup i = some h ∨ Vouches P libs w op i h := by
  cases op with
  | disconnect => exact .inl hl
  | fetchBatch requests => exact fetchBatch_cache hl
  | call c =>
    cases c with
    | ping =>
      rw [opStep_fst, ClientOp.method, keepsCache_ping w] at hl
      exact .inl hl
    | storeBlock j data hash edSeal rawSize seq => exact storeBlock_cache hl
    | fetchBlock j expected seq => exact fetchBlock_cache hl

end Methods

/-! ## Runs -/

section Runs

variable {P : Peer σ} {fromAint : String} {peer : σ}

/-- A client after a sequence of methods. -/
def clientAfter (P : Peer σ) (libs : MuxLibs) (fromAint : String) (peer : σ)
    (ops : List ClientOp) : World σ :=
  Machine.run (opStep P libs) (World.new fromAint peer) ops

theorem vouched_append {ops more : List ClientOp} {i : Nat} {h : String} {w : World σ}
    (hv : Vouched P libs w ops i h) : Vouched P libs w (ops ++ more) i h := by
  obtain ⟨pre, op, post, rfl, hop⟩ := hv
  exact ⟨pre, op, post ++ more, by rw [List.append_assoc, List.cons_append], hop⟩

/-- A method of the history vouches for every entry of the cache. -/
theorem clientAfter_cache {ops : List ClientOp} {i : Nat} {h : String}
    (hl : (clientAfter P libs fromAint peer ops).client.hashCache.verified.lookup i = some h) :
    Vouched P libs (World.new fromAint peer) ops i h := by
  induction ops using List.reverseRecOn with
  | nil => simp [clientAfter, World.new, ClusterMuxClient.new, HashCache.new] at hl
  | append_singleton ops op ih =>
    unfold clientAfter at hl ih
    rw [Machine.run_concat] at hl
    rcases opStep_cache hl with hold | hnew
    · exact vouched_append (ih hold)
    · exact ⟨ops, op, [], rfl, hnew⟩

/-- Whatever the peer sends, the data that a fetch returns for a block has the hash that the peer
reported, or the hash was in the client's cache: then an earlier method, or an earlier item of the
batch, found it on a payload that was sent for the block, or the client stored the block under it. -/
theorem fetched_data_accepted (P : Peer σ) (libs : MuxLibs) (fromAint : String) (peer : σ)
    (ops : List ClientOp) :
    (∀ i expected seq data w',
      (fetchBlock P libs i expected seq).run (clientAfter P libs fromAint peer ops) = .ok data w' →
      ∃ r, w'.received = (clientAfter P libs fromAint peer ops).received ++ [.response r] ∧
        Accepted libs (Vouched P libs (World.new fromAint peer) ops)
          (clientAfter P libs fromAint peer ops).client.hashCache i data r) ∧
    (∀ requests results w',
      (fetchBatch P libs requests).run (clientAfter P libs fromAint peer ops) = .ok results w' →
      ∃ rs : List MuxResponse,
        w'.received = (clientAfter P libs fromAint peer ops).received ++ rs.map .response ∧
        AcceptedBatch libs (Vouched P libs (World.new fromAint peer) ops)
          (clientAfter P libs fromAint peer ops).client.hashCache results rs) := by
  constructor
  · intro i expected seq data w' h
    obtain ⟨_, w₁, hask, h⟩ := of_bind_ok h
    obtain ⟨taken, w₂, htake, h⟩ := of_bind_ok h
    cases h
    obtain ⟨hcache, hbefore⟩ := (asks_request _).of_ok hask
    have hvouched : ∀ j hash, w₁.client.hashCache.verified.lookup j = some hash →
        Vouched P libs (World.new fromAint peer) ops j hash := by
      rw [hcache]
      exact fun j hash => clientAfter_cache
    obtain ⟨r, hreceived, haccepted, -⟩ := takeFetched_ok htake hvouched
    refine ⟨r, ?_, ?_⟩
    · rw [← hbefore]
      exact hreceived
    · rw [← hcache]
      exact haccepted
  · intro requests results w' h
    rw [fetchBatch_eq] at h
    obtain ⟨channels, w₁, hask, h⟩ := of_bind_ok h
    obtain ⟨read, w₂, hrecv, h⟩ := of_bind_ok h
    cases h
    obtain ⟨hcache, hbefore⟩ := (asks_askBatch requests).of_ok hask
    have hvouched : ∀ j hash, w₁.client.hashCache.verified.lookup j = some hash →
        Vouched P libs (World.new fromAint peer) ops j hash := by
      rw [hcache]
      exact fun j hash => clientAfter_cache
    obtain ⟨rs, hreceived, hbatch⟩ := recvBatch_ok hrecv hvouched
    refine ⟨rs, ?_, ?_⟩
    · rw [← hbefore]
      exact hreceived
    · rw [← hcache]
      exact hbatch

/-- The data of every fetch after `ops` has the hash that the peer reported for it, and the hash that
the caller expected. -/
def FetchesVerified (P : Peer σ) (libs : MuxLibs) (fromAint : String) (peer : σ)
    (ops : List ClientOp) : Prop :=
  (∀ i expected seq data w' r,
    (fetchBlock P libs i expected seq).run (clientAfter P libs fromAint peer ops) = .ok data w' →
    w'.received = (clientAfter P libs fromAint peer ops).received ++ [.response r] →
    libs.sha256.hex data = r.contentHash ∧ ∀ e ∈ expected, libs.sha256.hex data = e) ∧
  (∀ requests results w' (rs : List MuxResponse),
    (fetchBatch P libs requests).run (clientAfter P libs fromAint peer ops) = .ok results w' →
    w'.received = (clientAfter P libs fromAint peer ops).received ++ rs.map .response →
    List.Forall₂ (fun result r => libs.sha256.hex result.2 = r.contentHash) results rs)

end Runs

end Client

/-! ## A server that lies -/

namespace Demo

/-- Three fetches and three responses, with their JSON. -/
def forgedFrames : List (MuxFrame × List UInt8) :=
  [(.fetch 1 3 "root_idd.aint" none 1,
    dump 108
      [0x7b2274797065223a224665746368222c226368616e6e656c5f6964223a312c22,
       0x626c6f636b5f696e646578223a332c2266726f6d5f61696e74223a22726f6f74,
       0x5f6964642e61696e74222c2265787065637465645f68617368223a6e756c6c2c,
       0x226275735f736571223a317d]),
   (.fetch 2 3 "root_idd.aint" none 2,
    dump 108
      [0x7b2274797065223a224665746368222c226368616e6e656c5f6964223a322c22,
       0x626c6f636b5f696e646578223a332c2266726f6d5f61696e74223a22726f6f74,
       0x5f6964642e61696e74222c2265787065637465645f68617368223a6e756c6c2c,
       0x226275735f736571223a327d]),
   (.fetch 1 3 "root_idd.aint" (some helloHash) 1,
    dump 170
      [0x7b2274797065223a224665746368222c226368616e6e656c5f6964223a312c22,
       0x626c6f636b5f696e646578223a332c2266726f6d5f61696e74223a22726f6f74,
       0x5f6964642e61696e74222c2265787065637465645f68617368223a2232636632,
       0x3464626135666230613330653236653833623261633562396532396531623136,
       0x31653563316661373432356537333034333336323933386239383234222c2262,
       0x75735f736571223a317d]),
   (.response ⟨1, 200, 3, helloHash, 5, 5, 40, "mux_fetch_3_1", none⟩,
    dump 244
      [0x7b2274797065223a22526573706f6e7365222c226368616e6e656c5f6964223a,
       0x312c22737461747573223a3230302c22626c6f636b5f696e646578223a332c22,
       0x636f6e74656e745f68617368223a223263663234646261356662306133306532,
       0x3665383362326163356239653239653162313631653563316661373432356537,
       0x333034333336323933386239383234222c227061796c6f61645f73697a65223a,
       0x352c227261775f73697a65223a352c227365727665725f6c6174656e63795f75,
       0x73223a34302c2274696265745f746f6b656e5f6964223a226d75785f66657463,
       0x685f335f31222c226572726f72223a6e756c6c7d]),
   (.response ⟨2, 200, 3, helloHash, 5, 5, 40, "mux_fetch_3_2", none⟩,
    dump 244
      [0x7b2274797065223a22526573706f6e7365222c226368616e6e656c5f6964223a,
       0x322c22737461747573223a3230302c22626c6f636b5f696e646578223a332c22,
       0x636f6e74656e745f68617368223a223263663234646261356662306133306532,
       0x3665383362326163356239653239653162313631653563316661373432356537,
       0x333034333336323933386239383234222c227061796c6f61645f73697a65223a,
       0x352c227261775f73697a65223a352c227365727665725f6c6174656e63795f75,
       0x73223a34302c2274696265745f746f6b656e5f6964223a226d75785f66657463,
       0x685f335f32222c226572726f72223a6e756c6c7d]),
   (.response ⟨1, 200, 3, worldHash, 5, 5, 40, "mux_fetch_3_1", none⟩,
    dump 244
      [0x7b2274797065223a22526573706f6e7365222c226368616e6e656c5f6964223a,
       0x312c22737461747573223a3230302c22626c6f636b5f696e646578223a332c22,
       0x636f6e74656e745f68617368223a223438366561343632323464316262346662,
       0x3638306633346637633961643936613866323465633838626537336561386535,
       0x613663363532363065396362386137222c227061796c6f61645f73697a65223a,
       0x352c227261775f73697a65223a352c227365727665725f6c6174656e63795f75,
       0x73223a34302c2274696265745f746f6b656e5f6964223a226d75785f66657463,
       0x685f335f31222c226572726f72223a6e756c6c7d])]

/-- A peer that sends the given replies, whatever it is asked. -/
def scripted : Peer (List (List UInt8)) where
  connect := fun replies => .ok replies
  deliver := fun replies _ => (replies.tail, ⟨replies.headD [], false, none⟩)

def response (channelId : UInt32) (contentHash tibetTokenId : String) : MuxResponse :=
  ⟨channelId, 200, 3, contentHash, 5, 5, 40, tibetTokenId, none⟩

/-- A response with data behind it. -/
def reply (r : MuxResponse) (data : List UInt8) : List UInt8 :=
  writeFrame (libs forgedFrames) (.response r) ++ data

/-- The right data for the hash, and then other data under the same hash. -/
def forged : List (List UInt8) :=
  [reply (response 1 helloHash "mux_fetch_3_1") hello, reply (response 2 helloHash "mux_fetch_3_2") world]

/-- Data that is not the data that was asked for, under its own hash. -/
def swapped : List (List UInt8) := [reply (response 1 worldHash "mux_fetch_3_1") world]

/-- The data that a method returned, with the frames received after it. -/
def returned {σ α : Type} : EStateM.Result Halt (World σ) α → Option (α × List MuxFrame)
  | .ok a w => some (a, w.received)
  | .error _ _ => none

theorem eq_ok_of_returned {σ α : Type} {r : EStateM.Result Halt (World σ) α} {a : α}
    {frames : List MuxFrame} (h : returned r = some (a, frames)) :
    r = .ok a (finalState r) ∧ (finalState r).received = frames := by
  cases r with
  | ok b w =>
    cases h
    exact ⟨rfl, rfl⟩
  | error e w => cases h

end Demo

section

open Demo

theorem fetch_after_fetch :
    returned ((fetchBlock scripted (libs forgedFrames) 3 none 2).run
      (clientAfter scripted (libs forgedFrames) "root_idd.aint" forged
        [.call (.fetchBlock 3 none 1)])) =
      some (world, [.response (response 1 helloHash "mux_fetch_3_1")] ++
        [.response (response 2 helloHash "mux_fetch_3_2")]) ∧
    (clientAfter scripted (libs forgedFrames) "root_idd.aint" forged
      [.call (.fetchBlock 3 none 1)]).received =
        [.response (response 1 helloHash "mux_fetch_3_1")] := by
  decide +kernel

theorem fetch_expected :
    returned ((fetchBlock scripted (libs forgedFrames) 3 (some helloHash) 1).run
      (clientAfter scripted (libs forgedFrames) "root_idd.aint" swapped [])) =
      some (world, [] ++ [.response (response 1 worldHash "mux_fetch_3_1")]) := by
  decide +kernel

/-- The second fetch of a block is not hashed, and a fetch with an expected hash is not compared with
it. -/
theorem fetches_not_verified :
    ¬ FetchesVerified scripted (libs forgedFrames) "root_idd.aint" forged
        [.call (.fetchBlock 3 none 1)] ∧
      ¬ FetchesVerified scripted (libs forgedFrames) "root_idd.aint" swapped [] := by
  constructor
  · rintro ⟨h, -⟩
    obtain ⟨hrun, hbefore⟩ := fetch_after_fetch
    obtain ⟨hok, hreceived⟩ := eq_ok_of_returned hrun
    rw [← hbefore] at hreceived
    exact absurd (h _ _ _ _ _ _ hok hreceived).1 (by decide)
  · rintro ⟨h, -⟩
    obtain ⟨hok, hreceived⟩ := eq_ok_of_returned fetch_expected
    exact absurd ((h _ _ _ _ _ _ hok hreceived).2 helloHash rfl) (by decide)

end

end Spaceshuttle.Cluster
