import Mathlib.Data.List.Infix
import Mathlib.Data.List.Induction
import Spaceshuttle.Lib.Machine
import Spaceshuttle.Cluster.MuxSync

/-!
# The cluster as a map

What the MUX is for: a client that talks to a remote store should see a map from block index to
block. `Call.apply` is that map as a machine, with no wire, no frames and no cache. A client and
a handler that are aligned simulate it, one call at a time; over whole runs this gives
read-your-writes.
-/

namespace Spaceshuttle.Cluster

open ByteStream

/-- The remote store as its client thinks of it: data, hash and recorded size by block. -/
abbrev Contents := Nat → Option (List UInt8 × String × Nat)

/-- A call on the map. -/
def Call.apply (hex : List UInt8 → String) (m : Contents) : Call → Contents × CallResult
  | .ping => (m, .pong)
  | .storeBlock i data hash _ rawSize _ =>
      if hex data = hash then (Function.update m i (some (data, hash, rawSize)), .stored)
      else (m, .failed (.remoteStatus 409 "Store hash mismatch"))
  | .fetchBlock i expected _ =>
      match m i with
      | none => (m, .failed (.remoteStatus 404 s!"Block {i} not found"))
      | some b =>
          if expected.any (fun e => e != b.2.1) then
            (m, .failed (.remoteStatus 409 "Hash mismatch"))
          else (m, .fetched b.1)

/-! ## One call -/

section Step

variable {libs : MuxLibs}

/-- A stored block that the client accepts when it fetches it: its hash is right, or the client
has the hash in its cache and does not recompute it. -/
def Fetchable (libs : MuxLibs) (cache : HashCache) (i : Nat) (b : List UInt8 × String × Nat) : Prop :=
  libs.sha256.hex b.1 = b.2.1 ∨ cache.isVerified i b.2.1 = true

instance (cache : HashCache) (i : Nat) (b : List UInt8 × String × Nat) :
    Decidable (Fetchable libs cache i b) :=
  inferInstanceAs (Decidable (_ ∨ _))

/-- Every stored block is fetchable. -/
def AllFetchable (libs : MuxLibs) (cache : HashCache) (store : BlockStore) : Prop :=
  ∀ i b, store.content i = some b → Fetchable libs cache i b

theorem hashAfter_eq_iff (cache : HashCache) (i : Nat) (b : List UInt8 × String × Nat) :
    hashAfter libs cache i b.2.1 b.1 = b.2.1 ↔ Fetchable libs cache i b := by
  unfold hashAfter Fetchable
  by_cases hv : cache.isVerified i b.2.1 = true <;> simp [hv]

/-- A read of block `i` does not change which blocks are fetchable, whether the block read was
one of them or not. -/
theorem fetchable_cacheAfter {cache : HashCache} {i j : Nat} {b c : List UInt8 × String × Nat}
    (hij : j = i → c = b) :
    Fetchable libs (cacheAfter libs cache i b.2.1 b.1) j c ↔ Fetchable libs cache j c := by
  unfold cacheAfter Fetchable
  by_cases hv : cache.isVerified i b.2.1 = true
  · simp only [hv, if_true]
    rfl
  · simp only [hv, Bool.false_eq_true, if_false]
    change _ ∨ (cache.markVerified i (libs.sha256.hex b.1)).isVerified j c.2.1 = true ↔ _
    rw [HashCache.isVerified_markVerified]
    by_cases hji : j = i
    · obtain rfl := hij hji
      subst hji
      simp [hv]
    · rw [if_neg hji]

/-- The map that a client and its peer stand for. -/
structure Simulates (libs : MuxLibs) (w : World MuxServer) (m : Contents) : Prop where
  aligned : Aligned w
  contents : w.peer.store.content = m
  fetchable : AllFetchable libs w.client.hashCache w.peer.store

/-- The handler's answer to `c` and what the client makes of it are the call on the map. -/
structure Faithful (libs : MuxLibs) (cache : HashCache) (store : BlockStore) (c : Call)
    (a : MuxResponse × List UInt8 × BlockStore) : Prop where
  result : c.reply libs cache a.1 a.2.1 = (c.apply libs.sha256.hex store.content).2
  contents : a.2.2.content = (c.apply libs.sha256.hex store.content).1
  fetchable : AllFetchable libs (c.replyCache libs cache a.1 a.2.1) a.2.2

variable {cache : HashCache} {srv : MuxServer}

theorem faithful_fetch (hf : AllFetchable libs cache srv.store) (channelId : UInt32)
    (aint : String) (i : Nat) (expected : Option String) (seq : UInt64) :
    Faithful libs cache srv.store (.fetchBlock i expected seq)
      (srv.answer libs channelId aint (.fetchBlock i expected seq)) := by
  have hsame : (srv.store.fetch i).2.content = srv.store.content :=
    funext (BlockStore.content_fetch srv.store i)
  cases hb : srv.store.content i with
  | none =>
    rw [MuxServer.answer_fetch_none hb]
    constructor <;> simp only [Call.apply, hb]
    · rfl
    · exact hf
  | some b =>
    by_cases he : expected.any (fun e => e != b.2.1) = true
    · rw [MuxServer.answer_fetch_mismatch hb he]
      constructor <;> simp only [Call.apply, hb, he, if_true]
      · rfl
      · exact hsame
      · intro j c hc
        rw [hsame] at hc
        exact hf j c hc
    · rw [MuxServer.answer_fetch_ok hb he]
      have hfb : Fetchable libs cache i b := hf i b hb
      constructor <;> simp only [Call.apply, hb, he, Bool.false_eq_true, if_false]
      · simp [Call.reply, verdict, MuxServer.fetchOk, (hashAfter_eq_iff cache i b).mpr hfb]
      · exact hsame
      · intro j c hc
        rw [hsame] at hc
        refine (fetchable_cacheAfter ?_).mpr (hf j c hc)
        intro hji
        rw [hji, hb] at hc
        exact (Option.some.inj hc).symm

theorem faithful_store (hf : AllFetchable libs cache srv.store) (channelId : UInt32)
    (aint : String) (i : Nat) (data : List UInt8) (hash edSeal : String) (rawSize : Nat)
    (seq : UInt64) :
    Faithful libs cache srv.store (.storeBlock i data hash edSeal rawSize seq)
      (srv.answer libs channelId aint (.storeBlock i data hash edSeal rawSize seq)) := by
  by_cases hh : libs.sha256.hex data = hash
  · have hanswer : srv.answer libs channelId aint (.storeBlock i data hash edSeal rawSize seq) =
        (srv.storeOk channelId i hash data.length rawSize, [],
          srv.store.store i data hash edSeal rawSize aint seq) := by
      simp [MuxServer.answer, hh]
    rw [hanswer]
    constructor <;> simp only [Call.apply, hh, if_true]
    · rfl
    · funext j
      rw [BlockStore.content_store, Function.update_apply]
    · intro j b hb
      rw [BlockStore.content_store] at hb
      change Fetchable libs (cache.markVerified i hash) j b
      by_cases hj : j = i
      · rw [if_pos hj] at hb
        obtain rfl := Option.some.inj hb
        exact .inl hh
      · rw [if_neg hj] at hb
        apply (hf j b hb).imp_right
        intro hv
        rw [HashCache.isVerified_markVerified, if_neg hj]
        exact hv
  · have hanswer : srv.answer libs channelId aint (.storeBlock i data hash edSeal rawSize seq) =
        (srv.storeMismatch channelId i (libs.sha256.hex data), [], srv.store) := by
      simp [MuxServer.answer, hh]
    rw [hanswer]
    constructor <;> simp only [Call.apply, hh, if_false]
    · rfl
    · exact hf

theorem faithful_answer (hf : AllFetchable libs cache srv.store) (channelId : UInt32)
    (aint : String) (c : Call) :
    Faithful libs cache srv.store c (srv.answer libs channelId aint c) := by
  cases c with
  | ping => exact ⟨rfl, rfl, hf⟩
  | storeBlock i data hash edSeal rawSize seq =>
    exact faithful_store hf channelId aint i data hash edSeal rawSize seq
  | fetchBlock i expected seq => exact faithful_fetch hf channelId aint i expected seq

/-- A call of an aligned client does to the map what it should, and leaves both sides
aligned. -/
theorem exec_simulates {w : World MuxServer} {m : Contents} (h : Simulates libs w m) {c : Call}
    (hc : CarriedCall libs w c) :
    ∃ w', Call.exec (muxPeer libs) libs w c = (w', (c.apply libs.sha256.hex m).2) ∧
      Answered libs w c w' ∧ Simulates libs w' (c.apply libs.sha256.hex m).1 := by
  obtain ⟨w', hexec, hans⟩ := exec_aligned h.aligned hc
  obtain ⟨haligned, rfl, hf⟩ := h
  have hfaith : Faithful libs w.client.hashCache w.peer.store c (w.answer libs c) :=
    faithful_answer hf _ _ c
  have hstore : w'.peer.store = (w.answer libs c).2.2 := by
    rw [hans.peer]
    rfl
  refine ⟨w', by rw [hexec, hfaith.result], hans, hans.aligned haligned, ?_, ?_⟩
  · rw [hstore, hfaith.contents]
  · rw [hstore, hans.hashCache]
    exact hfaith.fetchable

end Step

/-! ## Histories only grow -/

/-- Every frame written so far, by either side. -/
def World.wire (w : World MuxServer) : List MuxFrame :=
  w.sent ++ w.peer.served.map (fun e => MuxFrame.response e.2)

/-- The histories of `w'` extend those of `w`. -/
structure Grows (w w' : World MuxServer) : Prop where
  sent : w.sent <+: w'.sent
  served : w.peer.served <+: w'.peer.served

namespace Grows

theorem refl (w : World MuxServer) : Grows w w :=
  ⟨List.prefix_rfl, List.prefix_rfl⟩

theorem trans {a b c : World MuxServer} (h₁ : Grows a b) (h₂ : Grows b c) : Grows a c :=
  ⟨h₁.sent.trans h₂.sent, h₁.served.trans h₂.served⟩

theorem mem_wire {w w' : World MuxServer} (h : Grows w w') {f : MuxFrame} (hf : f ∈ w.wire) :
    f ∈ w'.wire := by
  obtain ⟨hsent, hserved⟩ := h
  rw [World.wire, List.mem_append] at hf ⊢
  apply hf.imp (fun hs => hsent.subset hs)
  intro hs
  exact (hserved.map _).subset hs

end Grows

namespace MuxServer

variable {libs : MuxLibs}

theorem handleFrame_served {srv srv' : MuxServer} {frame : MuxFrame} {s s' : Inbound}
    {out : List UInt8} (h : (handleFrame libs srv frame).run s = .ok (srv', out) s') :
    srv.served <+: srv'.served := by
  cases frame with
  | fetch channelId i aint expected seq =>
    simp only [handleFrame] at h
    split at h
    · split at h <;> (cases h; exact List.prefix_append _ _)
    · cases h
      exact List.prefix_append _ _
  | store channelId i aint payloadSize rawSize hash edSeal seq =>
    simp only [handleFrame] at h
    rw [EStateM.run_bind] at h
    split at h
    · split at h <;> (cases h; exact List.prefix_append _ _)
    · cases h
  | ping channelId aint =>
    cases h
    exact List.prefix_append _ _
  | response r =>
    cases h
    exact List.prefix_rfl

theorem serveFrame_served {srv srv' : MuxServer} {s s' : Inbound} {out : List UInt8}
    (h : (serveFrame libs srv).run s = .ok (srv', out) s') : srv.served <+: srv'.served := by
  unfold serveFrame at h
  rw [EStateM.run_bind] at h
  split at h
  · have hhandle := handleFrame_served h
    exact hhandle
  · cases h

theorem serveLoop_served (fuel : Nat) (srv : MuxServer) (out : List UInt8) :
    srv.served <+: (serveLoop libs fuel srv out).1.served := by
  induction fuel generalizing srv out with
  | zero => exact List.prefix_rfl
  | succ fuel ih =>
    rw [serveLoop]
    split
    · next srv' reply rest hserve =>
      exact (serveFrame_served hserve).trans (ih { srv' with inbox := rest.bytes } _)
    · exact List.prefix_rfl
    · exact List.prefix_rfl

theorem deliver_served (srv : MuxServer) (bytes : List UInt8) :
    srv.served <+: (srv.deliver libs bytes).1.served := by
  rw [deliver]
  split
  · exact serveLoop_served _ { srv with inbox := srv.inbox ++ bytes } []
  · exact List.prefix_rfl

end MuxServer

section Growth

variable {libs : MuxLibs}

theorem Along.grows_bind {α β : Type} {x : ClientM MuxServer α} {f : α → ClientM MuxServer β}
    (hx : Along Grows x) (hf : ∀ a, Along Grows (f a)) : Along Grows (x >>= f) :=
  Along.bind (R := Grows) Grows.trans hx hf

/-- A change of the client alone, or of the frames read. -/
theorem grows_of_same {w w' : World MuxServer} (hsent : w'.sent = w.sent)
    (hpeer : w'.peer = w.peer) : Grows w w' := by
  refine ⟨?_, ?_⟩
  · rw [hsent]
  · rw [hpeer]

theorem ensureConnected_grows : Along Grows (ensureConnected (muxPeer libs)) := by
  intro w
  cases hc : w.client.connection with
  | some c =>
    rw [ensureConnected_some _ hc]
    exact Grows.refl w
  | none =>
    rw [ensureConnected_none hc rfl]
    exact ⟨List.prefix_rfl, List.prefix_rfl⟩

theorem sendFrame_grows (frame : MuxFrame) (payload : List UInt8) :
    Along Grows (sendFrame libs frame payload : ClientM MuxServer Unit) := by
  intro w
  unfold sendFrame
  simp only [EStateM.run]
  cases w.client.connection with
  | none => exact Grows.refl w
  | some c => exact ⟨List.prefix_append _ _, List.prefix_rfl⟩

theorem flush_grows : Along Grows (flush (muxPeer libs)) := by
  intro w
  unfold flush
  simp only [EStateM.run]
  cases w.client.connection with
  | none => exact Grows.refl w
  | some c => exact ⟨List.prefix_rfl, w.peer.deliver_served c.writer⟩

theorem onConnection_grows {α : Type} (reader : Read α) :
    Along Grows (onConnection reader : ClientM MuxServer α) := by
  intro w
  unfold onConnection
  simp only [EStateM.run]
  cases w.client.connection with
  | none => exact Grows.refl w
  | some c =>
    simp only
    split <;> exact grows_of_same rfl rfl

theorem nextChannelId_grows : Along Grows (nextChannelId : ClientM MuxServer UInt32) :=
  fun _ => grows_of_same rfl rfl

theorem addRequestsSent_grows (n : UInt64) :
    Along Grows (addRequestsSent n : ClientM MuxServer Unit) :=
  fun _ => grows_of_same rfl rfl

theorem addBytesTransferred_grows (n : Nat) :
    Along Grows (addBytesTransferred n : ClientM MuxServer Unit) :=
  fun _ => grows_of_same rfl rfl

theorem recvFrame_grows : Along Grows (recvFrame libs : ClientM MuxServer MuxFrame) :=
  Along.grows_bind (onConnection_grows _) (fun _ _ => grows_of_same rfl rfl)

theorem takeFetched_grows (unexpected : String) (i : Nat) :
    Along Grows (takeFetched libs unexpected i : ClientM MuxServer (List UInt8)) := by
  unfold takeFetched
  apply Along.grows_bind recvFrame_grows
  intro resp
  cases resp with
  | response r =>
    simp only
    split
    · refine Along.grows_bind ?_ ?_
      · exact Along.grows_bind (fun _ => Grows.refl _)
          (fun _ => Along.grows_bind (onConnection_grows _) (fun _ _ => grows_of_same rfl rfl))
      · intro _
        split
        · exact fun w => Grows.refl w
        · exact fun w => Grows.refl w
    · exact fun w => Grows.refl w
  | _ => exact fun w => Grows.refl w

/-- What a call does after its request. -/
theorem exec_rest (libs : MuxLibs) (c : Call) :
    ∃ (α : Type) (f : α → CallResult) (k : Unit → ClientM MuxServer α),
      (∀ u, Along Grows (k u)) ∧ ∀ w, Call.exec (muxPeer libs) libs w c =
        Call.outcome f ((request (muxPeer libs) libs c >>= k).run w) := by
  cases c with
  | ping =>
    refine ⟨Unit, fun _ => .pong, _, ?_, fun w => rfl⟩
    intro _
    refine Along.grows_bind recvFrame_grows (fun resp => ?_)
    refine Along.grows_bind (addRequestsSent_grows _) (fun _ => ?_)
    cases resp with
    | response r =>
      simp only
      split <;> exact fun w => Grows.refl w
    | _ => exact fun w => Grows.refl w
  | storeBlock i data hash edSeal rawSize seq =>
    refine ⟨Unit, fun _ => .stored, _, ?_, fun w => rfl⟩
    intro _
    refine Along.grows_bind recvFrame_grows (fun resp => ?_)
    refine Along.grows_bind (addRequestsSent_grows _) (fun _ => ?_)
    refine Along.grows_bind (addBytesTransferred_grows _) (fun _ => ?_)
    cases resp with
    | response r =>
      simp only
      split
      · exact fun w => grows_of_same rfl rfl
      · exact fun w => Grows.refl w
    | _ => exact fun w => Grows.refl w
  | fetchBlock i expected seq =>
    refine ⟨List UInt8, .fetched, _, ?_, fun w => rfl⟩
    intro _
    refine Along.grows_bind (takeFetched_grows _ i) (fun data => ?_)
    refine Along.grows_bind (addRequestsSent_grows _) (fun _ => ?_)
    refine Along.grows_bind (addBytesTransferred_grows _) (fun _ => ?_)
    exact fun w => Grows.refl w

theorem request_grows (c : Call) : Along Grows (request (muxPeer libs) libs c) := by
  refine Along.grows_bind ensureConnected_grows (fun _ => ?_)
  refine Along.grows_bind nextChannelId_grows (fun _ => ?_)
  refine Along.grows_bind (fun w => Grows.refl w) (fun _ => ?_)
  exact Along.grows_bind (sendFrame_grows _ _) (fun _ => flush_grows)

theorem outcome_fst {α : Type} (f : α → CallResult)
    (r : EStateM.Result Halt (World MuxServer) α) : (Call.outcome f r).1 = finalState r := by
  rcases r with ⟨a, w⟩ | ⟨e, w⟩
  · rfl
  · cases e <;> rfl

theorem exec_grows (w : World MuxServer) (c : Call) :
    Grows w (Call.exec (muxPeer libs) libs w c).1 := by
  obtain ⟨α, f, k, hk, hexec⟩ := exec_rest libs c
  rw [hexec, outcome_fst]
  exact Along.grows_bind (request_grows c) hk w

theorem run_grows (w : World MuxServer) (calls : List Call) :
    Grows w (Machine.run (Call.exec (muxPeer libs) libs) w calls) :=
  Machine.run_invariant (fun w' c (_ : True) (h : Grows w w') => h.trans (exec_grows w' c))
    (Grows.refl w) (fun _ _ => trivial)

/-- A call on an open connection puts its request on the wire, whatever happens next. -/
theorem frame_mem_wire {w : World MuxServer} {unread : List UInt8}
    (hopen : (ensureConnected (muxPeer libs)).run w =
      .ok () (w.setConnection ⟨⟨unread, false⟩, []⟩)) (c : Call) :
    w.frame c ∈ (Call.exec (muxPeer libs) libs w c).1.wire := by
  obtain ⟨α, f, k, hk, hexec⟩ := exec_rest libs c
  rw [hexec, outcome_fst]
  have hflush : ∃ w₁, (request (muxPeer libs) libs c).run w = (flush (muxPeer libs)).run w₁ ∧
      w₁.sent = w.sent ++ [w.frame c] := by
    unfold request
    rw [bind_ok hopen, bind_ok (nextChannelId_run _), bind_ok (EStateM.run_get _),
      bind_ok (sendFrame_run libs _ _ rfl)]
    exact ⟨_, rfl, rfl⟩
  obtain ⟨w₁, hrun, hsent⟩ := hflush
  rw [EStateM.run_bind, hrun, ← EStateM.run_bind]
  apply (Along.grows_bind flush_grows hk w₁).mem_wire
  simp [World.wire, hsent]

/-- Once the frames on the wire after a call are known to be carried, so are the two frames of
the call. -/
theorem carriedCall_of_wire {w : World MuxServer} (h : Aligned w) {c : Call}
    (hwire : ∀ f ∈ (Call.exec (muxPeer libs) libs w c).1.wire, Carried libs f) :
    CarriedCall libs w c := by
  have hrequest : Carried libs (w.frame c) :=
    hwire _ (frame_mem_wire (ensureConnected_aligned h) c)
  refine ⟨hrequest, hwire _ ?_⟩
  obtain ⟨α, f, k, hk, hexec⟩ := exec_rest libs c
  rw [hexec, outcome_fst, bind_ok (request_aligned h hrequest)]
  apply (hk () _).mem_wire
  simp [World.wire, World.asked, MuxServer.afterCall]

/-- A run of calls that starts aligned ends aligned. -/
theorem run_aligned {w : World MuxServer} (h : Aligned w) {calls : List Call}
    (hwire : ∀ f ∈ (Machine.run (Call.exec (muxPeer libs) libs) w calls).wire, Carried libs f) :
    Aligned (Machine.run (Call.exec (muxPeer libs) libs) w calls) := by
  induction calls generalizing w with
  | nil => exact h
  | cons c calls ih =>
    have hc : CarriedCall libs w c :=
      carriedCall_of_wire h (fun f hf => hwire f ((run_grows _ calls).mem_wire hf))
    obtain ⟨w', hexec, hans⟩ := exec_aligned h hc
    rw [Machine.run_cons, hexec] at hwire ⊢
    exact ih (hans.aligned h) hwire

end Growth

/-! ## Runs -/

section Runs

variable {libs : MuxLibs}

/-- A client and an idle handler on an empty store. -/
def World.fresh (aint kernelAint : String) (latencyUs : Nat → UInt64) : World MuxServer :=
  World.new aint (MuxServer.new BlockStore.new kernelAint latencyUs)

theorem aligned_new (aint : String) (store : BlockStore) (kernelAint : String)
    (latencyUs : Nat → UInt64) :
    Aligned (World.new aint (MuxServer.new store kernelAint latencyUs)) :=
  ⟨fun _ h => (nomatch (show none = some _ from h)), ⟨rfl, rfl⟩, rfl, rfl⟩

theorem simulates_fresh (aint kernelAint : String) (latencyUs : Nat → UInt64) :
    Simulates libs (World.fresh aint kernelAint latencyUs) (fun _ => none) where
  aligned := aligned_new aint BlockStore.new kernelAint latencyUs
  contents := funext BlockStore.content_new
  fetchable := by
    intro i b hb
    rw [show (World.fresh aint kernelAint latencyUs).peer.store = BlockStore.new from rfl,
      BlockStore.content_new] at hb
    exact nomatch hb

/-- A client that is aligned at the start stays so over a run, and the calls return what they
return on the map. -/
theorem run_simulates_map {w : World MuxServer} {m : Contents} (h : Simulates libs w m)
    {calls : List Call}
    (hwire : ∀ f ∈ (Machine.run (Call.exec (muxPeer libs) libs) w calls).wire, Carried libs f) :
    Simulates libs (Machine.run (Call.exec (muxPeer libs) libs) w calls)
        (Machine.run (Call.apply libs.sha256.hex) m calls) ∧
      Machine.history (Call.exec (muxPeer libs) libs) w calls =
        Machine.history (Call.apply libs.sha256.hex) m calls := by
  apply Machine.run_simulates h
  intro pre c post hcalls m' hsim
  have hc : CarriedCall libs (Machine.run (Call.exec (muxPeer libs) libs) w pre) c := by
    apply carriedCall_of_wire hsim.aligned
    intro f hf
    apply hwire f
    rw [hcalls, Machine.run_append, Machine.run_cons]
    exact (run_grows _ post).mem_wire hf
  obtain ⟨w', hexec, -, hsim'⟩ := exec_simulates hsim hc
  rw [hexec]
  exact ⟨hsim', rfl⟩

/-- The data a successful store of block `i` put there. -/
def storedData (i : Nat) : Call × CallResult → Option (List UInt8)
  | (.storeBlock j data _ _ _ _, .stored) => if j = i then some data else none
  | _ => none

/-- The data of the latest successful store of block `i`. -/
def lastStored (i : Nat) (history : List (Call × CallResult)) : Option (List UInt8) :=
  history.reverse.findSome? (storedData i)

theorem lastStored_concat (i : Nat) (history : List (Call × CallResult)) (e : Call × CallResult) :
    lastStored i (history ++ [e]) = (storedData i e).or (lastStored i history) := by
  simp [lastStored, List.findSome?_cons]
  cases storedData i e <;> rfl

/-- The map holds what was stored last. -/
theorem lastStored_history (hex : List UInt8 → String) (calls : List Call) (i : Nat) :
    lastStored i (Machine.history (Call.apply hex) (fun _ => none) calls) =
      (Machine.run (Call.apply hex) (fun _ => none) calls i).map Prod.fst := by
  induction calls using List.reverseRecOn with
  | nil => rfl
  | append_singleton calls c ih =>
    rw [Machine.history_concat, Machine.run_concat, lastStored_concat, ih]
    generalize Machine.run (Call.apply hex) (fun _ => none) calls = m
    cases c with
    | ping => rfl
    | storeBlock j data hash edSeal rawSize seq =>
      by_cases hh : hex data = hash
      · by_cases hj : i = j
        · simp [Call.apply, hh, storedData, hj]
        · simp [Call.apply, hh, storedData, hj, Ne.symm hj]
      · simp [Call.apply, hh, storedData]
    | fetchBlock j expected seq =>
      simp only [Call.apply]
      cases m j with
      | none => rfl
      | some b =>
        simp only
        split <;> rfl

theorem apply_fetched {hex : List UInt8 → String} {m : Contents} {i : Nat}
    {expected : Option String} {seq : UInt64} {data : List UInt8}
    (h : (Call.apply hex m (.fetchBlock i expected seq)).2 = .fetched data) :
    (m i).map Prod.fst = some data := by
  simp only [Call.apply] at h
  cases hm : m i with
  | none => simp [hm] at h
  | some b =>
    simp only [hm] at h
    split at h
    · simp at h
    · simpa using h

theorem apply_notFound_iff {hex : List UInt8 → String} {m : Contents} {i : Nat} {seq : UInt64} :
    (∃ message, (Call.apply hex m (.fetchBlock i none seq)).2 =
      .failed (.remoteStatus 404 message)) ↔ (m i).map Prod.fst = none := by
  cases hm : m i <;> simp [Call.apply, hm]

/-- The ways a call on the map can end. -/
theorem apply_outcome (hex : List UInt8 → String) (m : Contents) (c : Call) :
    (c.apply hex m).2 ≠ .hung ∧ ∀ e, (c.apply hex m).2 = .failed e →
      ∃ status message, e = .remoteStatus status message ∧ (status = 404 ∨ status = 409) := by
  cases c with
  | ping => simp [Call.apply]
  | storeBlock i data hash edSeal rawSize seq =>
    simp only [Call.apply]
    split <;> simp
  | fetchBlock i expected seq =>
    simp only [Call.apply]
    cases m i with
    | none => simp
    | some b =>
      simp only
      split <;> simp

/-- Over every run of calls on one connection to a fresh store: after each call nothing is left
unread in either direction, the call took the response the handler wrote for its own request,
and it did not wait forever; a fetch that succeeds returns the data of the latest successful
store of its block, and a fetch without an expected hash reports 404 exactly when there was no
such store. -/
theorem calls_in_step (aint kernelAint : String) (latencyUs : Nat → UInt64) (calls : List Call)
    (hwire : ∀ f ∈ (Machine.run (Call.exec (muxPeer libs) libs)
      (World.fresh aint kernelAint latencyUs) calls).wire, Carried libs f)
    (before : List Call) (c : Call) (after : List Call) (hcalls : calls = before ++ c :: after) :
    let exec := Call.exec (muxPeer libs) libs
    let w₀ := World.fresh aint kernelAint latencyUs
    let w := Machine.run exec w₀ before
    let w' := (exec w c).1
    let result := (exec w c).2
    let past := Machine.history exec w₀ before
    (w'.client.connection = some ⟨⟨[], false⟩, []⟩ ∧ w'.peer.inbox = []) ∧
    (∃ r, w'.sent = w.sent ++ [w.frame c] ∧
      w'.peer.served = w.peer.served ++ [(w.frame c, r)] ∧
      w'.received = w.received ++ [MuxFrame.response r]) ∧
    (result ≠ .hung ∧ ∀ e, result = .failed e →
      ∃ status message, e = .remoteStatus status message ∧ (status = 404 ∨ status = 409)) ∧
    (∀ i expected seq data, c = .fetchBlock i expected seq → result = .fetched data →
      lastStored i past = some data) ∧
    (∀ i seq, c = .fetchBlock i none seq →
      ((∃ message, result = .failed (.remoteStatus 404 message)) ↔ lastStored i past = none)) := by
  intro exec w₀ w w' result past
  have hgrow : Grows w' (Machine.run exec w₀ calls) := by
    rw [hcalls, Machine.run_append, Machine.run_cons]
    exact run_grows w' after
  have hgrow₀ : Grows w w' := exec_grows w c
  have hwire₀ : ∀ f ∈ w.wire, Carried libs f :=
    fun f hf => hwire f ((hgrow₀.trans hgrow).mem_wire hf)
  obtain ⟨hsim, hhist⟩ :=
    run_simulates_map (simulates_fresh aint kernelAint latencyUs) hwire₀
  have hc : CarriedCall libs w c :=
    carriedCall_of_wire hsim.aligned (fun f hf => hwire f (hgrow.mem_wire hf))
  obtain ⟨w₁, hexec, hans, hsim₁⟩ := exec_simulates hsim hc
  have hw' : w' = w₁ := congrArg Prod.fst hexec
  have hresult : result = (c.apply libs.sha256.hex
      (Machine.run (Call.apply libs.sha256.hex) (fun _ => none) before)).2 :=
    congrArg Prod.snd hexec
  have hpast : ∀ i, lastStored i past =
      (Machine.run (Call.apply libs.sha256.hex) (fun _ => none) before i).map Prod.fst := by
    intro i
    rw [← lastStored_history, ← hhist]
  refine ⟨⟨?_, ?_⟩, ⟨(w.answer libs c).1, ?_, ?_, ?_⟩, ?_, ?_, ?_⟩
  · rw [hw']
    exact hans.connection
  · rw [hw']
    exact hsim₁.aligned.idle.inbox
  · rw [hw']
    exact hans.sent
  · rw [hw', hans.peer]
    rfl
  · rw [hw']
    exact hans.received
  · rw [hresult]
    exact apply_outcome _ _ c
  · intro i expected seq data hcall hdata
    rw [hresult, hcall] at hdata
    rw [hpast]
    exact apply_fetched hdata
  · intro i seq hcall
    rw [hresult, hcall, hpast]
    exact apply_notFound_iff

end Runs

/-! ## A concrete instance -/

namespace Demo

/-- The low `k` bytes of `n`, most significant first. -/
def bytesOf : Nat → Nat → List UInt8
  | 0, _ => []
  | k + 1, n => UInt8.ofNat (n / 256 ^ k) :: bytesOf k n

/-- A dump of `size` bytes in words of 32. -/
def dump : Nat → List Nat → List UInt8
  | _, [] => []
  | size, word :: words => bytesOf (min size 32) word ++ dump (size - 32) words

/-- `serde_json` on the listed frames. -/
def json (table : List (MuxFrame × List UInt8)) : SerdeJson where
  toVec := fun f => ((table.find? (fun e => e.1 == f)).map Prod.snd).getD []
  fromSlice := fun bs =>
    match table.find? (fun e => e.2 == bs) with
    | some e => .ok e.1
    | none => .error "expected value at line 1 column 1"

def hello : List UInt8 := [0x68, 0x65, 0x6c, 0x6c, 0x6f]
def world : List UInt8 := [0x77, 0x6f, 0x72, 0x6c, 0x64]
def helloHash : String := "2cf24dba5fb0a30e26e83b2ac5b9e29e1b161e5c1fa7425e73043362938b9824"
def worldHash : String := "486ea46224d1bb4fb680f34f7c9ad96a8f24ec88be73ea8e5a6c65260e9cb8a7"

/-- SHA-256 on two messages. -/
def sha256 : Digest :=
  Digest.ofFun (fun data => if data = hello then helloHash else if data = world then worldHash else "")

def libs (table : List (MuxFrame × List UInt8)) : MuxLibs := ⟨json table, sha256⟩

def latencyUs (n : Nat) : UInt64 := 40 + UInt64.ofNat n

/-- The frames of `calls` below and their JSON. -/
def frames : List (MuxFrame × List UInt8) :=
  [(.store 1 3 "root_idd.aint" 5 5 helloHash "seal" 1,
    dump 221
      [0x7b2274797065223a2253746f7265222c226368616e6e656c5f6964223a312c22,
       0x626c6f636b5f696e646578223a332c2266726f6d5f61696e74223a22726f6f74,
       0x5f6964642e61696e74222c227061796c6f61645f73697a65223a352c22726177,
       0x5f73697a65223a352c22636f6e74656e745f68617368223a2232636632346462,
       0x6135666230613330653236653833623261633562396532396531623136316535,
       0x63316661373432356537333034333336323933386239383234222c2265643235,
       0x3531395f7365616c223a227365616c222c226275735f736571223a317d]),
   (.fetch 2 4 "root_idd.aint" none 2,
    dump 108
      [0x7b2274797065223a224665746368222c226368616e6e656c5f6964223a322c22,
       0x626c6f636b5f696e646578223a342c2266726f6d5f61696e74223a22726f6f74,
       0x5f6964642e61696e74222c2265787065637465645f68617368223a6e756c6c2c,
       0x226275735f736571223a327d]),
   (.fetch 3 3 "root_idd.aint" none 3,
    dump 108
      [0x7b2274797065223a224665746368222c226368616e6e656c5f6964223a332c22,
       0x626c6f636b5f696e646578223a332c2266726f6d5f61696e74223a22726f6f74,
       0x5f6964642e61696e74222c2265787065637465645f68617368223a6e756c6c2c,
       0x226275735f736571223a337d]),
   (.response ⟨1, 200, 3, helloHash, 5, 5, 40, "mux_store_3_1", none⟩,
    dump 244
      [0x7b2274797065223a22526573706f6e7365222c226368616e6e656c5f6964223a,
       0x312c22737461747573223a3230302c22626c6f636b5f696e646578223a332c22,
       0x636f6e74656e745f68617368223a223263663234646261356662306133306532,
       0x3665383362326163356239653239653162313631653563316661373432356537,
       0x333034333336323933386239383234222c227061796c6f61645f73697a65223a,
       0x352c227261775f73697a65223a352c227365727665725f6c6174656e63795f75,
       0x73223a34302c2274696265745f746f6b656e5f6964223a226d75785f73746f72,
       0x655f335f31222c226572726f72223a6e756c6c7d]),
   (.response ⟨2, 404, 4, "", 0, 0, 41, "", some "Block 4 not found"⟩,
    dump 182
      [0x7b2274797065223a22526573706f6e7365222c226368616e6e656c5f6964223a,
       0x322c22737461747573223a3430342c22626c6f636b5f696e646578223a342c22,
       0x636f6e74656e745f68617368223a22222c227061796c6f61645f73697a65223a,
       0x302c227261775f73697a65223a302c227365727665725f6c6174656e63795f75,
       0x73223a34312c2274696265745f746f6b656e5f6964223a22222c226572726f72,
       0x223a22426c6f636b2034206e6f7420666f756e64227d]),
   (.response ⟨3, 200, 3, helloHash, 5, 5, 42, "mux_fetch_3_3", none⟩,
    dump 244
      [0x7b2274797065223a22526573706f6e7365222c226368616e6e656c5f6964223a,
       0x332c22737461747573223a3230302c22626c6f636b5f696e646578223a332c22,
       0x636f6e74656e745f68617368223a223263663234646261356662306133306532,
       0x3665383362326163356239653239653162313631653563316661373432356537,
       0x333034333336323933386239383234222c227061796c6f61645f73697a65223a,
       0x352c227261775f73697a65223a352c227365727665725f6c6174656e63795f75,
       0x73223a34322c2274696265745f746f6b656e5f6964223a226d75785f66657463,
       0x685f335f33222c226572726f72223a6e756c6c7d])]

/-- A store, a fetch of a block that is not there, and a fetch of the stored one. -/
def calls : List Call :=
  [.storeBlock 3 hello helloHash "seal" 5 1, .fetchBlock 4 none 2, .fetchBlock 3 none 3]

end Demo

section

open Demo

theorem demo_carried :
    ∀ f ∈ (Machine.run (Call.exec (muxPeer (libs frames)) (libs frames))
      (World.fresh "root_idd.aint" "kernel_b.aint" latencyUs) calls).wire,
      Carried (libs frames) f := by
  decide +kernel

theorem demo_fetched :
    (Call.exec (muxPeer (libs frames)) (libs frames)
      (Machine.run (Call.exec (muxPeer (libs frames)) (libs frames))
        (World.fresh "root_idd.aint" "kernel_b.aint" latencyUs) (calls.take 2))
      (.fetchBlock 3 none 3)).2 = .fetched hello := by
  decide +kernel

theorem calls_in_step_demo :
    lastStored 3 (Machine.history (Call.exec (muxPeer (libs frames)) (libs frames))
      (World.fresh "root_idd.aint" "kernel_b.aint" latencyUs) (calls.take 2)) = some hello := by
  have h := calls_in_step "root_idd.aint" "kernel_b.aint" latencyUs calls demo_carried
    (calls.take 2) (.fetchBlock 3 none 3) [] rfl
  exact h.2.2.2.1 3 none 3 hello rfl demo_fetched

end

end Spaceshuttle.Cluster
