import Spaceshuttle.Cluster.MuxBatch

/-!
# Broken connections

A method that meets a failure of its connection returns the failure and leaves the connection
where it is; only `disconnect` takes it away. The next method finds a connection and does not
open another.
-/

namespace Spaceshuttle.Cluster

open ByteStream

/-! ## Failures -/

section Failures

variable {σ : Type}

/-- A method run in a world comes to a point at which the connection cannot be opened, the peer or
the network fails a write, or the stream ends or does not parse under a reader. -/
inductive Meets (P : Peer σ) : {α : Type} → ClientM σ α → World σ → Prop where
  | connect {w : World σ} {e : String} (hc : w.client.connection = none)
      (he : P.connect w.peer = .error e) : Meets P (ensureConnected P) w
  | write {w : World σ} {c : MuxConnection} {e : String} (hc : w.client.connection = some c)
      (he : (P.deliver w.peer c.writer).2.error = some e) : Meets P (flush P) w
  | read {α : Type} {reader : Read α} {w : World σ} {c : MuxConnection} {stop : Stop}
      {rest : Inbound} (hc : w.client.connection = some c)
      (hr : reader.run c.inbound = .error stop rest) (hstop : stop ≠ .pending) :
      Meets P (onConnection reader) w
  | first {α β : Type} {x : ClientM σ α} {f : α → ClientM σ β} {w : World σ} (h : Meets P x w) :
      Meets P (x >>= f) w
  | rest {α β : Type} {x : ClientM σ α} {f : α → ClientM σ β} {w w' : World σ} {a : α}
      (hx : x.run w = .ok a w') (h : Meets P (f a) w') : Meets P (x >>= f) w

/-- The errors that report such a point. -/
def MuxError.IsBreak : MuxError → Prop
  | .connect _ => True
  | .io _ => True
  | _ => False

variable {P : Peer σ} {α β : Type}

theorem flush_error {w : World σ} {c : MuxConnection} (hc : w.client.connection = some c)
    {e : String} (he : (P.deliver w.peer c.writer).2.error = some e) :
    ∃ w', (flush P).run w = .error (.err (.io e)) w' := by
  unfold flush
  simp only [EStateM.run, hc, he]
  exact ⟨_, rfl⟩

/-- A method that meets a failure returns it. -/
theorem Meets.error {x : ClientM σ α} {w : World σ} (h : Meets P x w) :
    ∃ e w', x.run w = .error (.err e) w' ∧ e.IsBreak := by
  induction h with
  | @connect w e hc he =>
    refine ⟨.connect e, w, ?_, trivial⟩
    simp only [ensureConnected, EStateM.run, hc, he]
  | @write w c e hc he =>
    obtain ⟨w', hrun⟩ := flush_error hc he
    exact ⟨.io e, w', hrun, trivial⟩
  | @read _ reader w c stop rest hc hr hstop =>
    have hrun := onConnection_error hc hr
    cases stop with
    | pending => exact absurd rfl hstop
    | eof => exact ⟨_, _, hrun, trivial⟩
    | invalid message => exact ⟨_, _, hrun, trivial⟩
  | first _ ih =>
    obtain ⟨e, w', hrun, he⟩ := ih
    exact ⟨e, w', bind_error hrun, he⟩
  | rest hx _ ih =>
    obtain ⟨e, w', hrun, he⟩ := ih
    exact ⟨e, w', by rw [bind_ok hx, hrun], he⟩

/-- What the methods have in common: none of them gives up a connection, and a failure that one
reports was met. -/
structure Regular (P : Peer σ) (x : ClientM σ α) : Prop where
  keeps : Along (fun w w' => w.client.connection.isSome → w'.client.connection.isSome) x
  reports : ∀ w e w', x.run w = .error (.err e) w' → e.IsBreak → Meets P x w

theorem Regular.bind {x : ClientM σ α} {f : α → ClientM σ β} (hx : Regular P x)
    (hf : ∀ a, Regular P (f a)) : Regular P (x >>= f) := by
  refine ⟨Along.bind (fun hab hbc ha => hbc (hab ha)) hx.keeps (fun a => (hf a).keeps), ?_⟩
  intro w e w' hrun he
  cases hxw : x.run w with
  | ok a w₁ =>
    rw [bind_ok hxw] at hrun
    exact .rest hxw ((hf a).reports w₁ e w' hrun he)
  | error e₁ w₁ =>
    rw [bind_error hxw] at hrun
    cases hrun
    exact .first (hx.reports w e w' hxw he)

/-- A step that returns and leaves the connection alone. -/
theorem regular_of_ok {x : ClientM σ α} (h : ∀ w, ∃ a w', x.run w = .ok a w' ∧
    w'.client.connection = w.client.connection) : Regular P x := by
  constructor
  · intro w hw
    obtain ⟨a, w', hrun, hc⟩ := h w
    rw [hrun]
    simpa only [finalState, hc] using hw
  · intro w e w' hrun _
    obtain ⟨a, w₁, hok, -⟩ := h w
    rw [hok] at hrun
    cases hrun

theorem regular_pure (a : α) : Regular P (pure a : ClientM σ α) :=
  regular_of_ok (fun w => ⟨a, w, rfl, rfl⟩)

theorem regular_modify {f : World σ → World σ}
    (hf : ∀ w, (f w).client.connection = w.client.connection) :
    Regular P (modify f : ClientM σ Unit) :=
  regular_of_ok (fun w => ⟨(), f w, rfl, hf w⟩)

theorem regular_get : Regular P (get : ClientM σ (World σ)) :=
  regular_of_ok (fun w => ⟨w, w, rfl, rfl⟩)

/-- An error of the protocol or of the peer's answer. -/
theorem regular_throw {e : MuxError} (he : ¬ e.IsBreak) :
    Regular P (throw (.err e) : ClientM σ α) := by
  constructor
  · exact fun _ hw => hw
  · intro w e' w' hrun he'
    cases hrun
    exact absurd he' he

theorem ensureConnected_regular : Regular P (ensureConnected P) := by
  constructor
  · intro w hw
    obtain ⟨c, hc⟩ := Option.isSome_iff_exists.mp hw
    rw [ensureConnected_some P hc]
    exact hw
  · intro w e w' hrun _
    cases hc : w.client.connection with
    | some c =>
      rw [ensureConnected_some P hc] at hrun
      cases hrun
    | none =>
      cases hp : P.connect w.peer with
      | ok peer =>
        rw [ensureConnected_none hc hp] at hrun
        cases hrun
      | error e₁ => exact .connect hc hp

theorem sendFrame_regular (libs : MuxLibs) (frame : MuxFrame) (payload : List UInt8) :
    Regular P (sendFrame libs frame payload : ClientM σ Unit) := by
  constructor
  · intro w hw
    obtain ⟨c, hc⟩ := Option.isSome_iff_exists.mp hw
    rw [sendFrame_run libs frame payload hc]
    rfl
  · intro w e w' hrun he
    cases hc : w.client.connection with
    | some c =>
      rw [sendFrame_run libs frame payload hc] at hrun
      cases hrun
    | none =>
      simp only [sendFrame, EStateM.run, hc] at hrun
      cases hrun
      cases he

theorem flush_regular : Regular P (flush P) := by
  constructor
  · intro w hw
    obtain ⟨c, hc⟩ := Option.isSome_iff_exists.mp hw
    simp only [flush, EStateM.run, hc]
    split <;> rfl
  · intro w e w' hrun he
    cases hc : w.client.connection with
    | none =>
      simp only [flush, EStateM.run, hc] at hrun
      cases hrun
      cases he
    | some c =>
      cases hd : (P.deliver w.peer c.writer).2.error with
      | some e₁ => exact .write hc hd
      | none =>
        simp only [flush, EStateM.run, hc, hd] at hrun
        cases hrun

theorem onConnection_regular (reader : Read α) :
    Regular P (onConnection reader : ClientM σ α) := by
  constructor
  · intro w hw
    obtain ⟨c, hc⟩ := Option.isSome_iff_exists.mp hw
    simp only [onConnection, EStateM.run, hc]
    split <;> rfl
  · intro w e w' hrun he
    cases hc : w.client.connection with
    | none =>
      simp only [onConnection, EStateM.run, hc] at hrun
      cases hrun
      cases he
    | some c =>
      cases hr : reader.run c.inbound with
      | ok a rest =>
        rw [onConnection_ok hc hr] at hrun
        cases hrun
      | error stop rest =>
        refine .read hc hr ?_
        rintro rfl
        rw [onConnection_error hc hr] at hrun
        cases hrun

end Failures

/-! ## Methods -/

section Methods

variable {σ : Type} (P : Peer σ) (libs : MuxLibs)

/-- The methods of a client. -/
inductive ClientOp where
  | call (c : Call)
  | fetchBatch (requests : List (Nat × UInt64))
  | disconnect
  deriving DecidableEq, Repr

/-- A method, without the data it returns. -/
def ClientOp.method : ClientOp → ClientM σ Unit
  | .call .ping => ping P libs
  | .call (.storeBlock blockIndex data contentHash ed25519Seal rawSize busSeq) =>
      storeBlock P libs blockIndex data contentHash ed25519Seal rawSize busSeq
  | .call (.fetchBlock blockIndex expectedHash busSeq) => do
      let _ ← Cluster.fetchBlock P libs blockIndex expectedHash busSeq
  | .fetchBatch requests => do
      let _ ← Cluster.fetchBatch P libs requests
  | .disconnect => Cluster.disconnect

/-- The world after a method, and how it ended. -/
def opStep (w : World σ) (op : ClientOp) : World σ × Except Halt Unit :=
  match (op.method P libs).run w with
  | .ok _ w' => (w', .ok ())
  | .error halt w' => (w', .error halt)

variable {P libs}

theorem opStep_of_error {w w' : World σ} {op : ClientOp} {halt : Halt}
    (h : (op.method P libs).run w = .error halt w') :
    opStep P libs w op = (w', .error halt) := by
  unfold opStep
  rw [h]

theorem opStep_fst (w : World σ) (op : ClientOp) :
    (opStep P libs w op).1 = finalState ((op.method P libs).run w) := by
  unfold opStep
  cases (op.method P libs).run w <;> rfl

theorem nextChannelId_regular : Regular P (nextChannelId : ClientM σ UInt32) :=
  regular_of_ok fun w => ⟨_, _, nextChannelId_run w, rfl⟩

theorem addRequestsSent_regular (n : UInt64) : Regular P (addRequestsSent n : ClientM σ Unit) :=
  regular_modify fun _ => rfl

theorem addBytesTransferred_regular (n : Nat) :
    Regular P (addBytesTransferred n : ClientM σ Unit) :=
  regular_modify fun _ => rfl

theorem recvFrame_regular : Regular P (recvFrame libs : ClientM σ MuxFrame) := by
  refine .bind (onConnection_regular _) (fun frame => ?_)
  exact .bind (regular_modify fun _ => rfl) (fun _ => regular_pure frame)

theorem recvPayload_regular (payloadSize : Nat) (serverHash : String) (blockIndex : Nat) :
    Regular P (recvPayload libs payloadSize serverHash blockIndex :
      ClientM σ (List UInt8 × String)) := by
  refine .bind regular_get (fun w => ?_)
  refine .bind (onConnection_regular _) (fun read => ?_)
  exact .bind (regular_modify fun _ => rfl) (fun _ => regular_pure read.1)

theorem takeFetched_regular (unexpected : String) (blockIndex : Nat) :
    Regular P (takeFetched libs unexpected blockIndex : ClientM σ (List UInt8)) := by
  unfold takeFetched
  refine .bind recvFrame_regular (fun resp => ?_)
  cases resp with
  | response r =>
    simp only
    split
    · refine .bind (recvPayload_regular _ _ _) (fun read => ?_)
      split
      · exact .bind (regular_throw id) (fun _ => regular_pure _)
      · exact .bind (regular_pure _) (fun _ => regular_pure _)
    · exact regular_throw id
  | _ => exact regular_throw id

theorem sendBatch_regular (requests : List (Nat × UInt64)) :
    Regular P (sendBatch libs requests : ClientM σ (List (UInt32 × Nat))) := by
  induction requests with
  | nil => exact regular_pure []
  | cons request requests ih =>
    refine .bind nextChannelId_regular (fun channelId => ?_)
    refine .bind regular_get (fun w => ?_)
    refine .bind (sendFrame_regular libs _ _) (fun _ => ?_)
    exact .bind ih (fun channels => regular_pure _)

theorem recvBatch_regular (channels : List (UInt32 × Nat)) :
    Regular P (recvBatch libs channels : ClientM σ (List (Nat × List UInt8))) := by
  induction channels with
  | nil => exact regular_pure []
  | cons channel channels ih =>
    refine .bind (takeFetched_regular _ _) (fun data => ?_)
    refine .bind (addBytesTransferred_regular _) (fun _ => ?_)
    exact .bind ih (fun results => regular_pure _)

/-- A method that begins with `ensure_connected`. -/
def Connects {α : Type} (P : Peer σ) (x : ClientM σ α) : Prop :=
  ∃ rest : ClientM σ α, x = (ensureConnected P >>= fun _ => rest) ∧ Regular P rest

theorem Connects.bind {α β : Type} {x : ClientM σ α} {f : α → ClientM σ β} (hx : Connects P x)
    (hf : ∀ a, Regular P (f a)) : Connects P (x >>= f) := by
  obtain ⟨rest, rfl, hrest⟩ := hx
  exact ⟨rest >>= f, bind_assoc _ _ _, hrest.bind hf⟩

theorem Connects.regular {α : Type} {x : ClientM σ α} (hx : Connects P x) : Regular P x := by
  obtain ⟨rest, rfl, hrest⟩ := hx
  exact ensureConnected_regular.bind (fun _ => hrest)

theorem request_connects (c : Call) : Connects P (request P libs c) := by
  refine ⟨_, rfl, ?_⟩
  refine .bind nextChannelId_regular (fun channelId => ?_)
  refine .bind regular_get (fun w => ?_)
  exact .bind (sendFrame_regular libs _ _) (fun _ => flush_regular)

theorem ping_connects : Connects P (ping P libs) := by
  refine .bind (request_connects _) (fun _ => .bind recvFrame_regular (fun resp => ?_))
  refine .bind (addRequestsSent_regular _) (fun _ => ?_)
  cases resp with
  | response r =>
    simp only
    split
    · exact regular_pure ()
    · exact regular_throw id
  | _ => exact regular_throw id

theorem storeBlock_connects (blockIndex : Nat) (data : List UInt8)
    (contentHash ed25519Seal : String) (rawSize : Nat) (busSeq : UInt64) :
    Connects P (storeBlock P libs blockIndex data contentHash ed25519Seal rawSize busSeq) := by
  refine .bind (request_connects _) (fun _ => .bind recvFrame_regular (fun resp => ?_))
  refine .bind (addRequestsSent_regular _) (fun _ => ?_)
  refine .bind (addBytesTransferred_regular _) (fun _ => ?_)
  cases resp with
  | response r =>
    simp only
    split
    · exact regular_modify fun _ => rfl
    · exact regular_throw id
  | _ => exact regular_throw id

theorem fetchBlock_connects (blockIndex : Nat) (expectedHash : Option String) (busSeq : UInt64) :
    Connects P (fetchBlock P libs blockIndex expectedHash busSeq) := by
  refine .bind (request_connects _) (fun _ => .bind (takeFetched_regular _ _) (fun data => ?_))
  refine .bind (addRequestsSent_regular _) (fun _ => ?_)
  exact .bind (addBytesTransferred_regular _) (fun _ => regular_pure data)

theorem fetchBatch_connects (requests : List (Nat × UInt64)) :
    Connects P (fetchBatch P libs requests) := by
  refine ⟨_, rfl, ?_⟩
  refine .bind (sendBatch_regular requests) (fun channels => .bind flush_regular (fun _ => ?_))
  refine .bind (recvBatch_regular channels) (fun results => ?_)
  exact .bind (addRequestsSent_regular _) (fun _ => regular_pure results)

/-- Every method but `disconnect` begins with `ensure_connected`. -/
theorem method_connects {op : ClientOp} (hop : op ≠ .disconnect) :
    Connects P (op.method P libs) := by
  cases op with
  | call c =>
    cases c with
    | ping => exact ping_connects
    | storeBlock i data hash edSeal rawSize seq => exact storeBlock_connects i data hash edSeal rawSize seq
    | fetchBlock i expected seq =>
      exact .bind (fetchBlock_connects i expected seq) (fun _ => regular_pure ())
  | fetchBatch requests => exact .bind (fetchBatch_connects requests) (fun _ => regular_pure ())
  | disconnect => exact absurd rfl hop

end Methods

/-! ## Runs -/

section Runs

variable {σ : Type} (P : Peer σ) (libs : MuxLibs)

/-- The client without its connection. -/
def World.dropped (w : World σ) : World σ :=
  { w with client := { w.client with connection := none } }

/-- The server can be reached, and serves the method on a new connection. -/
def Reachable (w : World σ) (op : ClientOp) : Prop :=
  (opStep P libs w.dropped op).2 = .ok ()

/-- There is no connection, and the server does not accept one. -/
def Refused (w : World σ) : Prop :=
  w.client.connection = none ∧ ∃ e, P.connect w.peer = .error e

/-- The method opens a connection. -/
def Opens (w : World σ) (op : ClientOp) : Prop :=
  op ≠ .disconnect ∧ w.client.connection = none ∧ ∃ peer, P.connect w.peer = .ok peer

/-- A method of the run opens a connection. -/
def Opened (w : World σ) (ops : List ClientOp) : Prop :=
  ∃ pre op post, ops = pre ++ op :: post ∧ Opens P (Machine.run (opStep P libs) w pre) op

/-- A broken connection is not used again: the method that meets the failure returns an error, and
until a connection is opened a method finds the server when it is reachable. -/
def NeverReused (w : World σ) (ops : List ClientOp) : Prop :=
  ∀ pre op post, ops = pre ++ op :: post →
    Meets P (op.method P libs) (Machine.run (opStep P libs) w pre) →
      (∃ e, (opStep P libs (Machine.run (opStep P libs) w pre) op).2 = .error (.err e)) ∧
      ∀ mid next rest, post = mid ++ next :: rest → next ≠ .disconnect →
        ¬ Opened P libs (Machine.run (opStep P libs) w (pre ++ [op])) mid →
        let w' := Machine.run (opStep P libs) w (pre ++ op :: mid)
        Reachable P libs w' next → Opens P w' next ∧ (opStep P libs w' next).2 = .ok ()

/-- No method is called while the server is reachable on a connection that broke, unless a
`disconnect` comes before it. -/
def NotResumed (w : World σ) (ops : List ClientOp) : Prop :=
  ∀ pre op mid next rest, ops = pre ++ op :: (mid ++ next :: rest) →
    Meets P (op.method P libs) (Machine.run (opStep P libs) w pre) →
    ¬ Refused P (Machine.run (opStep P libs) w pre) →
    .disconnect ∉ mid → next ≠ .disconnect →
      ¬ Reachable P libs (Machine.run (opStep P libs) w (pre ++ op :: mid)) next

variable {P libs}

theorem opStep_disconnect (w : World σ) :
    opStep P libs w .disconnect = (w.dropped, .ok ()) := rfl

/-- A method called in a world with a connection leaves one. -/
theorem opStep_isSome {w : World σ} (hw : w.client.connection.isSome) {op : ClientOp}
    (hop : op ≠ .disconnect) : (opStep P libs w op).1.client.connection.isSome := by
  rw [opStep_fst]
  exact (method_connects hop).regular.keeps w hw

/-- So does a method that opens one. -/
theorem opStep_opens {w : World σ} {op : ClientOp} (h : Opens P w op) :
    (opStep P libs w op).1.client.connection.isSome := by
  obtain ⟨hop, hc, peer, hp⟩ := h
  have hconnects : Connects P (op.method P libs) := method_connects hop
  obtain ⟨rest, hmethod, hrest⟩ := hconnects
  rw [opStep_fst, hmethod, bind_ok (ensureConnected_none hc hp)]
  exact hrest.keeps _ rfl

/-- A refused connection changes nothing. -/
theorem opStep_refused {w : World σ} {op : ClientOp} (hop : op ≠ .disconnect)
    (hc : w.client.connection = none) {e : String} (hp : P.connect w.peer = .error e) :
    opStep P libs w op = (w, .error (.err (.connect e))) := by
  have hconnects : Connects P (op.method P libs) := method_connects hop
  obtain ⟨rest, hmethod, -⟩ := hconnects
  apply opStep_of_error
  rw [hmethod]
  apply bind_error
  simp only [ensureConnected, EStateM.run, hc, hp]

theorem dropped_of_none {w : World σ} (hc : w.client.connection = none) : w.dropped = w := by
  rw [World.dropped, ← hc]

/-- Without a connection, a run that opens none stays without. -/
theorem run_none {w : World σ} (hc : w.client.connection = none) {ops : List ClientOp}
    (hopened : ¬ Opened P libs w ops) :
    (Machine.run (opStep P libs) w ops).client.connection = none := by
  induction ops generalizing w with
  | nil => exact hc
  | cons op ops ih =>
    have hnot : ¬ Opens P w op := fun hopens => hopened ⟨[], op, ops, rfl, hopens⟩
    have hstep : (opStep P libs w op).1.client.connection = none := by
      by_cases hop : op = .disconnect
      · rw [hop, opStep_disconnect]
        rfl
      · cases hp : P.connect w.peer with
        | ok peer => exact absurd ⟨hop, hc, peer, hp⟩ hnot
        | error e =>
          rw [opStep_refused hop hc hp]
          exact hc
    apply ih hstep
    rintro ⟨pre, op', post, rfl, hopens⟩
    exact hopened ⟨op :: pre, op', post, rfl, hopens⟩

/-- With a connection, a run without `disconnect` keeps it and opens none. -/
theorem run_isSome {w : World σ} (hc : w.client.connection.isSome) {ops : List ClientOp}
    (hops : .disconnect ∉ ops) :
    (Machine.run (opStep P libs) w ops).client.connection.isSome ∧ ¬ Opened P libs w ops := by
  induction ops generalizing w with
  | nil =>
    refine ⟨hc, ?_⟩
    rintro ⟨pre, op, post, h, -⟩
    simp at h
  | cons op ops ih =>
    rw [List.mem_cons, not_or] at hops
    obtain ⟨hrun, hopened⟩ := ih (opStep_isSome hc (Ne.symm hops.1)) hops.2
    refine ⟨hrun, ?_⟩
    rintro ⟨pre, op', post, h, hopens⟩
    cases pre with
    | nil =>
      have hnone : w.client.connection = none := hopens.2.1
      rw [hnone] at hc
      cases hc
    | cons p pre =>
      rw [List.cons_append, List.cons.injEq] at h
      obtain ⟨rfl, rfl⟩ := h
      exact hopened ⟨pre, op', post, rfl, hopens⟩

/-- Without a connection, a method is served as soon as the server is reachable. -/
theorem served_of_none {w : World σ} (hc : w.client.connection = none) {op : ClientOp}
    (hop : op ≠ .disconnect) (hreach : Reachable P libs w op) :
    Opens P w op ∧ (opStep P libs w op).2 = .ok () := by
  unfold Reachable at hreach
  rw [dropped_of_none hc] at hreach
  refine ⟨⟨hop, hc, ?_⟩, hreach⟩
  cases hp : P.connect w.peer with
  | ok peer => exact ⟨peer, rfl⟩
  | error e =>
    rw [opStep_refused hop hc hp] at hreach
    cases hreach

theorem Meets.ne_disconnect {w : World σ} {op : ClientOp} (h : Meets P (op.method P libs) w) :
    op ≠ .disconnect := by
  rintro rfl
  obtain ⟨e, w', hrun, -⟩ := h.error
  cases hrun

/-- A method that fails on a connection leaves it behind. -/
theorem meets_isSome {w : World σ} {op : ClientOp} (h : Meets P (op.method P libs) w)
    (hopen : ¬ Refused P w) : (opStep P libs w op).1.client.connection.isSome := by
  have hop := h.ne_disconnect
  cases hc : w.client.connection with
  | some c => exact opStep_isSome (by rw [hc]; rfl) hop
  | none =>
    cases hp : P.connect w.peer with
    | ok peer => exact opStep_opens ⟨hop, hc, peer, hp⟩
    | error e => exact absurd ⟨hc, e, hp⟩ hopen

/-- What opens no connection opens none in its last part. -/
theorem not_opened_append {w : World σ} {before after : List ClientOp}
    (h : ¬ Opened P libs w (before ++ after)) :
    ¬ Opened P libs (Machine.run (opStep P libs) w before) after := by
  rintro ⟨pre, op, post, rfl, hopens⟩
  refine h ⟨before ++ pre, op, post, by rw [List.append_assoc], ?_⟩
  rwa [Machine.run_append]

theorem run_append_cons (w : World σ) (pre mid : List ClientOp) (op : ClientOp) :
    Machine.run (opStep P libs) w (pre ++ op :: mid) =
      Machine.run (opStep P libs) (Machine.run (opStep P libs) w (pre ++ [op])) mid := by
  rw [← Machine.run_append, List.append_assoc, List.singleton_append]

/-- Broken connections are not used again exactly in the runs in which no method is called on one
while the server is reachable. -/
theorem never_reused_iff (w : World σ) (ops : List ClientOp) :
    NeverReused P libs w ops ↔ NotResumed P libs w ops := by
  constructor
  · intro h pre op mid next rest hops hmeets hopen hmid hnext hreach
    have hbroken := meets_isSome hmeets hopen
    rw [← Machine.run_concat] at hbroken
    obtain ⟨hkept, hopened⟩ := run_isSome hbroken hmid
    obtain ⟨hopens, -⟩ := (h pre op _ hops hmeets).2 mid next rest rfl hnext hopened hreach
    rw [run_append_cons] at hopens
    rw [hopens.2.1] at hkept
    cases hkept
  · intro h pre op post hops hmeets
    constructor
    · obtain ⟨e, w', hrun, -⟩ := hmeets.error
      exact ⟨e, by rw [opStep_of_error hrun]⟩
    · intro mid next rest hpost hnext hopened w' hreach
      have hnone : w'.client.connection = none := by
        show (Machine.run (opStep P libs) w (pre ++ op :: mid)).client.connection = none
        rw [run_append_cons]
        by_cases hrefused : Refused P (Machine.run (opStep P libs) w pre)
        · obtain ⟨hc, e, hp⟩ := hrefused
          refine run_none ?_ hopened
          rw [Machine.run_concat, opStep_refused hmeets.ne_disconnect hc hp]
          exact hc
        · by_cases hmid : .disconnect ∈ mid
          · obtain ⟨before, after, rfl⟩ := List.append_of_mem hmid
            rw [run_append_cons]
            have happend : before ++ .disconnect :: after = before ++ [.disconnect] ++ after := by
              simp
            rw [happend] at hopened
            refine run_none ?_ (not_opened_append hopened)
            rw [Machine.run_concat, opStep_disconnect]
            rfl
          · subst hpost
            exact absurd hreach (h pre op mid next rest hops hmeets hrefused hmid hnext)
      exact served_of_none hnone hnext hreach

end Runs

/-! ## A server that is restarted -/

namespace Demo

/-- The frames of two pings and their JSON. -/
def pingFrames : List (MuxFrame × List UInt8) :=
  [(.ping 1 "root_idd.aint",
    dump 58
      [0x7b2274797065223a2250696e67222c226368616e6e656c5f6964223a312c2266,
       0x726f6d5f61696e74223a22726f6f745f6964642e61696e74227d]),
   (.ping 2 "root_idd.aint",
    dump 58
      [0x7b2274797065223a2250696e67222c226368616e6e656c5f6964223a322c2266,
       0x726f6d5f61696e74223a22726f6f745f6964642e61696e74227d]),
   (.response ⟨2, 200, 0, "", 0, 0, 40, "mux_pong_kernel_b.aint", none⟩,
    dump 189
      [0x7b2274797065223a22526573706f6e7365222c226368616e6e656c5f6964223a,
       0x322c22737461747573223a3230302c22626c6f636b5f696e646578223a302c22,
       0x636f6e74656e745f68617368223a22222c227061796c6f61645f73697a65223a,
       0x302c227261775f73697a65223a302c227365727665725f6c6174656e63795f75,
       0x73223a34302c2274696265745f746f6b656e5f6964223a226d75785f706f6e67,
       0x5f6b65726e656c5f622e61696e74222c226572726f72223a6e756c6c7d])]

/-- A server that goes down with its first connection and is up again for the next. The state counts
the connections. -/
def restarted : Peer (Nat × MuxServer) where
  connect := fun (n, srv) =>
    ((muxPeer (libs pingFrames)).connect srv).map (fun srv => (n + 1, srv))
  deliver := fun (n, srv) bytes =>
    if n ≤ 1 then ((n, srv), ⟨[], true, none⟩)
    else
      let (srv, d) := (muxPeer (libs pingFrames)).deliver srv bytes
      ((n, srv), d)

def beforePings : World (Nat × MuxServer) :=
  World.new "root_idd.aint" (0, MuxServer.new BlockStore.new "kernel_b.aint" latencyUs)

end Demo

section

open Demo

/-- The first ping meets the end of the stream; the server is reachable for the second ping, which
does not open a connection. -/
theorem broken_connection_reused :
    ¬ NeverReused restarted (libs pingFrames) beforePings [.call .ping, .call .ping] := by
  intro h
  have herr : returnedError ((ping restarted (libs pingFrames)).run beforePings) =
      some (.io "early eof") := by
    decide
  have hmeets : Meets restarted (ping restarted (libs pingFrames)) beforePings :=
    ping_connects.regular.reports _ _ _ (eq_error_of_returnedError herr) trivial
  have hreach : Reachable restarted (libs pingFrames)
      (Machine.run (opStep restarted (libs pingFrames)) beforePings [.call .ping])
      (.call .ping) := by
    unfold Reachable
    decide +kernel
  have hlast : ¬ Opened restarted (libs pingFrames)
      (Machine.run (opStep restarted (libs pingFrames)) beforePings [.call .ping]) [] := by
    rintro ⟨pre, op, post, hnil, -⟩
    simp at hnil
  obtain ⟨⟨-, hnone, -⟩, -⟩ :=
    (h [] (.call .ping) [.call .ping] rfl hmeets).2 [] (.call .ping) [] rfl (by decide) hlast hreach
  have hsome : (Machine.run (opStep restarted (libs pingFrames)) beforePings
      [.call .ping]).client.connection.isSome := by
    decide
  rw [List.nil_append] at hnone
  rw [hnone] at hsome
  cases hsome

end

end Spaceshuttle.Cluster
