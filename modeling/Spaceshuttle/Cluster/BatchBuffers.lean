import Spaceshuttle.Lib.Backpressure
import Spaceshuttle.Cluster.MuxBatch

/-!
# Batches over bounded buffers

`fetch_batch` writes its requests one after the other and reads nothing before the last of them is
written (`cluster_mux.rs:697-715`); the handler reads nothing while it writes a response
(`cluster_mux.rs:373-420`). A connection has room for some bytes in each direction, in its sockets and
in the readers and writers around them. Here the bytes of a batch pass through such a connection one by
one, in any order the two sides and the network choose.
-/

namespace Spaceshuttle.Cluster

open ByteStream Backpressure

/-! ## The connection -/

/-- A connection with a handler at its other end: the client's bytes that are not written, those in the
buffers, the rest of the response the handler is writing, the response bytes in the buffers, and those
the client has read. -/
structure MuxPipe where
  unsent : List UInt8
  up : List UInt8
  srv : MuxServer
  out : List UInt8
  down : List UInt8
  arrived : List UInt8

namespace MuxPipe

variable (libs : MuxLibs) (b : Buffers)

/-- The client has bytes to write to a handler. -/
def new (srv : MuxServer) (bytes : List UInt8) : MuxPipe := ⟨bytes, [], srv, [], [], []⟩

/-- A write and a read wait for room and for a byte. The handler reads once its last response is
written (`cluster_mux.rs:373-420`), the client once its last request is. -/
def move (s : MuxPipe) : Move → MuxPipe
  | .write =>
      match s.unsent with
      | x :: unsent =>
          if s.up.length < b.up then { s with unsent := unsent, up := s.up ++ [x] } else s
      | [] => s
  | .read =>
      match s.out, s.up with
      | [], x :: up =>
          if s.srv.running then
            let (srv, reply) := s.srv.deliver libs [x]
            { s with up := up, srv := srv, out := reply }
          else s
      | _, _ => s
  | .answer =>
      match s.out with
      | y :: out =>
          if s.down.length < b.down then { s with out := out, down := s.down ++ [y] } else s
      | [] => s
  | .arrive =>
      match s.unsent, s.down with
      | [], y :: down => { s with down := down, arrived := s.arrived ++ [y] }
      | _, _ => s

/-- The connection after a list of moves. -/
def after (srv : MuxServer) (bytes : List UInt8) (moves : List Move) : MuxPipe :=
  moves.foldl (move libs b) (new srv bytes)

end MuxPipe

/-- `handle_mux_connection` behind bounded buffers. A client that is still writing has read nothing, and
waits with what has arrived. -/
def bufferedPeer (libs : MuxLibs) (b : Buffers) (moves : List Move) : Peer MuxServer where
  connect := (muxPeer libs).connect
  deliver := fun srv bytes =>
    let s := MuxPipe.after libs b srv bytes moves
    (s.srv,
      { reply := s.arrived
        closed := !s.srv.running && s.out.isEmpty && s.down.isEmpty
        error := none })

/-! ## The handler's side -/

section Serve

variable {libs : MuxLibs} {aint : String}

namespace MuxServer

theorem steady_handleFrame (srv : MuxServer) (frame : MuxFrame) :
    Steady (handleFrame libs srv frame) := by
  cases frame with
  | fetch ch i aint expected seq =>
    simp only [handleFrame]
    split
    · split <;> exact steady_pure _
    · exact steady_pure _
  | store ch i aint payloadSize rawSize hash edSeal seq =>
    simp only [handleFrame]
    refine .bind (steady_readPayloadStreaming _) (fun read => ?_)
    split <;> exact steady_pure _
  | ping ch aint => exact steady_pure _
  | response r => exact steady_pure _

theorem steady_serveFrame (srv : MuxServer) : Steady (serveFrame libs srv) :=
  .bind steady_readFrame (fun _ => steady_handleFrame _ _)

/-- A call with the bytes the handler writes for it. -/
def job (libs : MuxLibs) (aint : String) (srv : MuxServer) (ch : UInt32) (c : Call) :
    Job UInt8 UInt8 where
  first := (be32 (libs.json.toVec (c.frame ch aint)).length).head (List.cons_ne_nil _ _)
  rest := (be32 (libs.json.toVec (c.frame ch aint)).length).tail ++
    (libs.json.toVec (c.frame ch aint) ++ c.payload)
  answer := srv.replyBytes libs ch aint c

/-- A queue of calls with the bytes the handler writes for each. -/
def jobs (libs : MuxLibs) (aint : String) (srv : MuxServer) :
    List (UInt32 × Call) → List (Job UInt8 UInt8)
  | [] => []
  | (ch, c) :: queue =>
      srv.job libs aint ch c :: jobs libs aint (srv.afterCall libs ch aint c) queue

theorem request_job (srv : MuxServer) (ch : UInt32) (c : Call) :
    (srv.job libs aint ch c).request = writeFrame libs (c.frame ch aint) ++ c.payload := rfl

theorem jobs_inbox (srv : MuxServer) (inbox : List UInt8) (queue : List (UInt32 × Call)) :
    ({ srv with inbox := inbox } : MuxServer).jobs libs aint queue = srv.jobs libs aint queue := by
  induction queue generalizing srv with
  | nil => rfl
  | cons e queue ih =>
    obtain ⟨ch, c⟩ := e
    simp only [jobs, job, replyBytes, answer_inbox]
    rw [← ih (srv.afterCall libs ch aint c)]
    simp only [afterCall, answer_inbox]

theorem requests_jobs (srv : MuxServer) (queue : List (UInt32 × Call)) :
    requests (srv.jobs libs aint queue) = requestBytes libs aint queue := by
  induction queue generalizing srv with
  | nil => rfl
  | cons e queue ih =>
    rw [jobs, requests_cons, request_job, ih, List.append_assoc]
    rfl

theorem answers_jobs (srv : MuxServer) (queue : List (UInt32 × Call)) :
    answers (srv.jobs libs aint queue) = answerBytes libs (srv.serveAll libs aint queue).2 := by
  induction queue generalizing srv with
  | nil => rfl
  | cons e queue ih =>
    rw [jobs, answers_cons, ih]
    exact List.append_assoc _ _ _

theorem length_jobs (srv : MuxServer) (queue : List (UInt32 × Call)) :
    (srv.jobs libs aint queue).length = queue.length := by
  induction queue generalizing srv with
  | nil => rfl
  | cons e queue ih => exact congrArg (· + 1) (ih _)

theorem answer_ne_nil (srv : MuxServer) (queue : List (UInt32 × Call)) :
    ∀ j ∈ srv.jobs libs aint queue, j.answer ≠ [] := by
  induction queue generalizing srv with
  | nil => exact fun j hj => absurd hj List.not_mem_nil
  | cons e queue ih => exact List.forall_mem_cons.mpr ⟨List.cons_ne_nil _ _, ih _⟩

variable {srv : MuxServer} {ch : UInt32} {c : Call} {part : List UInt8} {x : UInt8}

/-- The last byte of a request is answered. -/
theorem deliver_last (hrun : srv.running = true) (hc : Carried libs (c.frame ch aint))
    (h : srv.inbox ++ [x] = writeFrame libs (c.frame ch aint) ++ c.payload) :
    srv.deliver libs [x] =
      ({ srv.afterCall libs ch aint c with inbox := [] }, srv.replyBytes libs ch aint c) := by
  have hin : srv.inbox ++ [x] = writeFrame libs (c.frame ch aint) ++ (c.payload ++ []) := by
    rw [List.append_nil, h]
  rw [deliver, if_pos hrun, List.length_singleton, serveLoop_call hc hin, List.nil_append,
    serveLoop_idle rfl]
  simp only [afterCall, replyBytes, answer_inbox]

/-- A byte before the last is kept. -/
theorem deliver_part (hrun : srv.running = true) (hc : Carried libs (c.frame ch aint))
    {later : List UInt8} (hlater : later ≠ [])
    (h : (srv.inbox ++ [x]) ++ later = writeFrame libs (c.frame ch aint) ++ c.payload) :
    srv.deliver libs [x] = ({ srv with inbox := srv.inbox ++ [x] }, []) := by
  have hwhole := @serveFrame_call libs { srv with inbox := srv.inbox ++ [x] } ch aint c hc []
  rw [List.append_nil, ← h] at hwhole
  rw [deliver, if_pos hrun, serveLoop]
  rcases (steady_serveFrame _).of_append hwhole with ⟨s', hwaits⟩ | ⟨rest, -, hrest⟩
  · simp only [hwaits]
  · have hnil := congrArg Inbound.bytes hrest
    exact absurd (List.append_eq_nil_iff.mp hnil.symm).2 hlater

end MuxServer

/-- The handler has read a part of the first of the jobs it has left. -/
inductive At (libs : MuxLibs) (aint : String) : MuxServer → List (Job UInt8 UInt8) → Prop where
  | idle {srv : MuxServer} (h : Idle srv) : At libs aint srv []
  | reading {srv : MuxServer} {ch : UInt32} {c : Call} {queue : List (UInt32 × Call)} {x : UInt8}
      {rest : List UInt8} (hrun : srv.running = true)
      (hc : ∀ e ∈ (ch, c) :: queue, Carried libs (e.2.frame e.1 aint))
      (h : srv.inbox ++ x :: rest = writeFrame libs (c.frame ch aint) ++ c.payload) :
      At libs aint srv (⟨x, rest, srv.replyBytes libs ch aint c⟩ ::
        (srv.afterCall libs ch aint c).jobs libs aint queue)

/-- An idle handler has all of a queue before it. -/
theorem At.queue {srv : MuxServer} (h : Idle srv) {queue : List (UInt32 × Call)}
    (hc : ∀ e ∈ queue, Carried libs (e.2.frame e.1 aint)) :
    At libs aint srv (srv.jobs libs aint queue) := by
  cases queue with
  | nil => exact .idle h
  | cons e queue =>
    refine .reading h.running hc ?_
    rw [h.inbox, List.nil_append]
    rfl

theorem At.running {srv : MuxServer} {jobs : List (Job UInt8 UInt8)} (h : At libs aint srv jobs) :
    srv.running = true := by
  cases h with
  | idle h => exact h.running
  | reading hrun => exact hrun

/-- The last byte of a request is answered, and the handler is at the next one. -/
theorem At.last {srv : MuxServer} {x : UInt8} {answer : List UInt8} {jobs : List (Job UInt8 UInt8)}
    (h : At libs aint srv (⟨x, [], answer⟩ :: jobs)) :
    ∃ srv', srv.deliver libs [x] = (srv', answer) ∧ At libs aint srv' jobs := by
  cases h with
  | @reading ch c queue _ _ hrun hc hpart =>
    refine ⟨_, srv.deliver_last hrun (hc (ch, c) List.mem_cons_self) hpart, ?_⟩
    have hidle : Idle { srv.afterCall libs ch aint c with inbox := [] } := ⟨rfl, hrun⟩
    rw [← MuxServer.jobs_inbox _ []]
    exact .queue hidle (fun e he => hc e (List.mem_cons_of_mem _ he))

/-- A byte before the last is kept. -/
theorem At.part {srv : MuxServer} {x y : UInt8} {rest answer : List UInt8}
    {jobs : List (Job UInt8 UInt8)} (h : At libs aint srv (⟨x, y :: rest, answer⟩ :: jobs)) :
    ∃ srv', srv.deliver libs [x] = (srv', []) ∧
      At libs aint srv' (⟨y, rest, answer⟩ :: jobs) := by
  cases h with
  | @reading ch c queue _ _ hrun hc hpart =>
    rw [← List.singleton_append, ← List.append_assoc] at hpart
    refine ⟨_, srv.deliver_part hrun (hc (ch, c) List.mem_cons_self) (List.cons_ne_nil y rest) hpart,
      ?_⟩
    have hat : At libs aint { srv with inbox := srv.inbox ++ [x] } _ := .reading hrun hc hpart
    have hafter : ({ srv with inbox := srv.inbox ++ [x] } : MuxServer).afterCall libs ch aint c =
        { srv.afterCall libs ch aint c with inbox := srv.inbox ++ [x] } := by
      simp only [MuxServer.afterCall, MuxServer.answer_inbox]
    rw [hafter, MuxServer.jobs_inbox] at hat
    simpa only [MuxServer.replyBytes, MuxServer.answer_inbox] using hat

/-- The bytes of a connection with a handler are where those of a connection with the handler's jobs
are. -/
structure Follows (libs : MuxLibs) (aint : String) (s : MuxPipe) (t : Link UInt8 UInt8) : Prop where
  unsent : s.unsent = t.unsent
  up : s.up = t.up
  out : s.out = t.out
  down : s.down = t.down
  arrived : s.arrived = t.arrived
  handler : At libs aint s.srv t.jobs

variable {b : Buffers} {s : MuxPipe} {t : Link UInt8 UInt8}

theorem Follows.read (h : Follows libs aint s t) (hsent : t.up ++ t.unsent = requests t.jobs) :
    Follows libs aint (s.move libs b .read) (t.move b .read) := by
  obtain ⟨unsent, up, srv, out, down, arrived⟩ := s
  obtain ⟨unsent', up', jobs, out', down', arrived'⟩ := t
  obtain ⟨rfl, rfl, rfl, rfl, rfl, hat⟩ := h
  rcases out with _ | ⟨y, out⟩
  · rcases up with _ | ⟨x, up⟩
    · exact ⟨rfl, rfl, rfl, rfl, rfl, hat⟩
    · have hrun := hat.running
      rcases jobs with _ | ⟨⟨y, _ | ⟨z, rest⟩, answer⟩, jobs⟩
      · cases hsent
      · obtain ⟨rfl, -⟩ := List.cons.inj hsent
        obtain ⟨srv', hdeliver, hnext⟩ := hat.last
        simp only [MuxPipe.move, Link.move, if_pos hrun, hdeliver]
        exact ⟨rfl, rfl, rfl, rfl, rfl, hnext⟩
      · obtain ⟨rfl, -⟩ := List.cons.inj hsent
        obtain ⟨srv', hdeliver, hnext⟩ := hat.part
        simp only [MuxPipe.move, Link.move, if_pos hrun, hdeliver]
        exact ⟨rfl, rfl, rfl, rfl, rfl, hnext⟩
  · exact ⟨rfl, rfl, rfl, rfl, rfl, hat⟩

theorem Follows.move (h : Follows libs aint s t) (hsent : t.up ++ t.unsent = requests t.jobs)
    (m : Move) : Follows libs aint (s.move libs b m) (t.move b m) := by
  by_cases hm : m = .read
  · rw [hm]
    exact h.read hsent
  obtain ⟨unsent, up, srv, out, down, arrived⟩ := s
  obtain ⟨unsent', up', jobs, out', down', arrived'⟩ := t
  obtain ⟨rfl, rfl, rfl, rfl, rfl, hat⟩ := h
  cases m with
  | read => exact absurd rfl hm
  | write =>
    rcases unsent with _ | ⟨x, unsent⟩
    · exact ⟨rfl, rfl, rfl, rfl, rfl, hat⟩
    · simp only [MuxPipe.move, Link.move]
      split <;> exact ⟨rfl, rfl, rfl, rfl, rfl, hat⟩
  | answer =>
    rcases out with _ | ⟨y, out⟩
    · exact ⟨rfl, rfl, rfl, rfl, rfl, hat⟩
    · simp only [MuxPipe.move, Link.move]
      split <;> exact ⟨rfl, rfl, rfl, rfl, rfl, hat⟩
  | arrive =>
    rcases unsent with _ | ⟨x, unsent⟩
    · rcases down with _ | ⟨y, down⟩ <;> exact ⟨rfl, rfl, rfl, rfl, rfl, hat⟩
    · exact ⟨rfl, rfl, rfl, rfl, rfl, hat⟩

theorem follows_after {srv : MuxServer} (hidle : Idle srv) {queue : List (UInt32 × Call)}
    (hc : ∀ e ∈ queue, Carried libs (e.2.frame e.1 aint)) (b : Buffers) (moves : List Move) :
    Follows libs aint (MuxPipe.after libs b srv (requestBytes libs aint queue) moves)
      (Link.after b (srv.jobs libs aint queue) moves) := by
  induction moves using List.reverseRecOn with
  | nil => exact ⟨(MuxServer.requests_jobs srv queue).symm, rfl, rfl, rfl, rfl, .queue hidle hc⟩
  | append_singleton moves m ih =>
    have hinv := Link.inv_after b (srv.jobs libs aint queue) moves
    unfold MuxPipe.after Link.after at ih ⊢
    rw [List.foldl_append, List.foldl_append]
    exact ih.move hinv.sent m

/-- What arrives of a batch is a first part of the answers. -/
theorem bufferedPeer_deliver {srv : MuxServer} (hidle : Idle srv) {queue : List (UInt32 × Call)}
    (hc : ∀ e ∈ queue, Carried libs (e.2.frame e.1 aint)) (b : Buffers) (moves : List Move) :
    ∃ srv', (bufferedPeer libs b moves).deliver srv (requestBytes libs aint queue) =
      (srv', ⟨(Link.after b (srv.jobs libs aint queue) moves).arrived, false, none⟩) := by
  have hfollows := follows_after hidle hc b moves
  refine ⟨(MuxPipe.after libs b srv (requestBytes libs aint queue) moves).srv, ?_⟩
  simp only [bufferedPeer, hfollows.arrived, hfollows.handler.running, Bool.not_true,
    Bool.false_and]

end Serve

/-! ## The client's side -/

section Patience

variable {σ α β : Type} {libs : MuxLibs}

/-- The same client with more bytes on its connection, and another peer. -/
def World.ahead (w : World σ) (peer : σ) (later : List UInt8) : World σ :=
  { w with
    peer := peer
    client := { w.client with
      connection := w.client.connection.map fun c =>
        { c with inbound := ⟨c.inbound.bytes ++ later, c.inbound.closed⟩ } } }

/-- The peer has not closed the connection. -/
def World.Open (w : World σ) : Prop :=
  ∀ c, w.client.connection = some c → c.inbound.closed = false

/-- A method that looks at nothing but the connection, and does with more bytes on it what it does with
fewer, unless these make it wait. -/
structure Patient (x : ClientM σ α) : Prop where
  ok : ∀ {w w' : World σ} {a : α}, w.Open → x.run w = .ok a w' →
    w'.Open ∧ ∀ peer later, x.run (w.ahead peer later) = .ok a (w'.ahead peer later)
  error : ∀ {w w' : World σ} {e : Halt}, w.Open → x.run w = .error e w' →
    e = .pending ∨ ∀ peer later, ∃ w'', x.run (w.ahead peer later) = .error e w''

theorem Patient.bind {x : ClientM σ α} {f : α → ClientM σ β} (hx : Patient x)
    (hf : ∀ a, Patient (f a)) : Patient (x >>= f) where
  ok := by
    intro w w' b hopen h
    obtain ⟨a, w₁, hfirst, hsecond⟩ := of_bind_ok h
    obtain ⟨hopen₁, hok⟩ := hx.ok hopen hfirst
    obtain ⟨hopen', hok'⟩ := (hf a).ok hopen₁ hsecond
    refine ⟨hopen', fun peer later => ?_⟩
    rw [bind_ok (hok peer later)]
    exact hok' peer later
  error := by
    intro w w' e hopen h
    rcases of_bind_error h with hfirst | ⟨a, w₁, hfirst, hsecond⟩
    · refine (hx.error hopen hfirst).imp_right fun herror peer later => ?_
      obtain ⟨w'', hw''⟩ := herror peer later
      exact ⟨w'', bind_error hw''⟩
    · obtain ⟨hopen₁, hok⟩ := hx.ok hopen hfirst
      refine ((hf a).error hopen₁ hsecond).imp_right fun herror peer later => ?_
      rw [bind_ok (hok peer later)]
      exact herror peer later

/-- A method that waits for bytes. -/
def Waits (r : EStateM.Result Halt (World σ) α) : Prop := ∃ w, r = .error .pending w

/-- With a first part of the bytes a method waits or ends as it does with all of them. -/
theorem Patient.agrees {x : ClientM σ α} (hx : Patient x) {w w' : World σ} (hopen : w.Open)
    {peer : σ} {later : List UInt8} {result : Except MuxError α}
    (h : x.run (w.ahead peer later) = resultOf result w') :
    Waits (x.run w) ∨ ∃ w'', x.run w = resultOf result w'' := by
  cases hrun : x.run w with
  | ok a w₁ =>
    rw [(hx.ok hopen hrun).2] at h
    cases result with
    | ok a' =>
      cases h
      exact .inr ⟨w₁, rfl⟩
    | error e => cases h
  | error e w₁ =>
    rcases hx.error hopen hrun with rfl | herror
    · exact .inl ⟨w₁, rfl⟩
    · obtain ⟨w₂, hw₂⟩ := herror peer later
      rw [hw₂] at h
      cases result with
      | ok a' => cases h
      | error e' =>
        cases h
        exact .inr ⟨w₁, rfl⟩

/-- What a method returns does not depend on the peer. -/
theorem Patient.resultOf_peer {x : ClientM σ α} (hx : Patient x) {w w' : World σ} (hopen : w.Open)
    {result : Except MuxError α} (h : x.run w = resultOf result w') (peer : σ) :
    ∃ w'', x.run (w.ahead peer []) = resultOf result w'' := by
  cases result with
  | ok a => exact ⟨_, (hx.ok hopen h).2 peer []⟩
  | error e =>
    rcases hx.error hopen h with hpending | herror
    · cases hpending
    · exact herror peer []

theorem patient_pure (a : α) : Patient (pure a : ClientM σ α) where
  ok := by
    intro w w' b hopen h
    cases h
    exact ⟨hopen, fun _ _ => rfl⟩
  error := by
    intro w w' e hopen h
    cases h

theorem patient_throw (e : Halt) : Patient (throw e : ClientM σ α) where
  ok := by
    intro w w' b hopen h
    cases h
  error := by
    intro w w' e' hopen h
    cases h
    exact .inr fun _ _ => ⟨_, rfl⟩

theorem patient_modify {f : World σ → World σ} (hopen : ∀ w : World σ, w.Open → (f w).Open)
    (hf : ∀ w peer later, f (w.ahead peer later) = (f w).ahead peer later) :
    Patient (modify f : ClientM σ Unit) where
  ok := by
    intro w w' a h hrun
    rw [EStateM.run_modify] at hrun
    cases hrun
    refine ⟨hopen w h, fun peer later => ?_⟩
    rw [EStateM.run_modify, hf]
  error := by
    intro w w' e h hrun
    cases hrun

/-- A method that reads a part of the client which stays. -/
theorem patient_get {f : World σ → ClientM σ α} (hf : ∀ w, Patient (f w))
    (hsame : ∀ w peer later, f (w.ahead peer later) = f w) : Patient (get >>= f) where
  ok := by
    intro w w' a hopen h
    rw [bind_ok (EStateM.run_get w)] at h
    obtain ⟨hopen', hok⟩ := (hf w).ok hopen h
    refine ⟨hopen', fun peer later => ?_⟩
    rw [bind_ok (EStateM.run_get _), hsame]
    exact hok peer later
  error := by
    intro w w' e hopen h
    rw [bind_ok (EStateM.run_get w)] at h
    refine ((hf w).error hopen h).imp_right fun herror peer later => ?_
    rw [bind_ok (EStateM.run_get _), hsame]
    exact herror peer later

theorem connection_ahead {w : World σ} {c : MuxConnection} (hc : w.client.connection = some c)
    (peer : σ) (later : List UInt8) :
    (w.ahead peer later).client.connection =
      some { c with inbound := ⟨c.inbound.bytes ++ later, c.inbound.closed⟩ } := by
  simp only [World.ahead, hc, Option.map_some]

theorem patient_onConnection {reader : Read α} (hr : Steady reader) :
    Patient (onConnection reader : ClientM σ α) where
  ok := by
    intro w w' a hopen h
    cases hc : w.client.connection with
    | none =>
      simp only [onConnection, EStateM.run, hc] at h
      cases h
    | some c =>
      have hclosed : c.inbound = ⟨c.inbound.bytes, false⟩ := by rw [← hopen c hc]
      cases hread : reader.run c.inbound with
      | error stop rest =>
        rw [onConnection_error hc hread] at h
        cases h
      | ok a' rest =>
        rw [onConnection_ok hc hread] at h
        cases h
        rw [hclosed] at hread
        obtain ⟨hrest, hok⟩ := hr.ok hread
        refine ⟨?_, fun peer later => ?_⟩
        · rintro _ ⟨⟩
          exact hrest
        · rw [onConnection_ok (connection_ahead hc peer later) (hok later c.inbound.closed)]
          simp only [World.ahead, World.setConnection, Option.map_some, hopen c hc, hrest]
  error := by
    intro w w' e hopen h
    cases hc : w.client.connection with
    | none =>
      refine .inr fun peer later => ⟨w.ahead peer later, ?_⟩
      simp only [onConnection, EStateM.run, hc] at h
      cases h
      simp only [onConnection, EStateM.run, World.ahead, hc, Option.map_none]
    | some c =>
      have hclosed : c.inbound = ⟨c.inbound.bytes, false⟩ := by rw [← hopen c hc]
      cases hread : reader.run c.inbound with
      | ok a rest =>
        rw [onConnection_ok hc hread] at h
        cases h
      | error stop rest =>
        rw [onConnection_error hc hread] at h
        cases h
        rw [hclosed] at hread
        rcases hr.error hread with rfl | herror
        · exact .inl rfl
        · refine .inr fun peer later => ?_
          obtain ⟨s', hs'⟩ := herror later c.inbound.closed
          exact ⟨_, onConnection_error (connection_ahead hc peer later) hs'⟩

theorem patient_recvFrame : Patient (recvFrame libs : ClientM σ MuxFrame) := by
  refine .bind (patient_onConnection steady_readFrame) (fun frame => ?_)
  refine .bind (patient_modify (fun _ h => h) (fun _ _ _ => rfl)) (fun _ => patient_pure _)

theorem patient_recvPayload (payloadSize : Nat) (serverHash : String) (blockIndex : Nat) :
    Patient (recvPayload libs payloadSize serverHash blockIndex : ClientM σ _) := by
  refine patient_get (fun w => ?_) (fun _ _ _ => rfl)
  refine .bind (patient_onConnection (steady_readPayloadCached _ _ _ _)) (fun read => ?_)
  exact .bind (patient_modify (fun _ h => h) (fun _ _ _ => rfl)) (fun _ => patient_pure _)

theorem patient_takeFetched (unexpected : String) (blockIndex : Nat) :
    Patient (takeFetched libs unexpected blockIndex : ClientM σ _) := by
  refine .bind patient_recvFrame (fun resp => ?_)
  cases resp with
  | response r =>
    simp only
    split
    · refine .bind (patient_recvPayload _ _ _) (fun read => ?_)
      split
      · exact .bind (patient_throw _) (fun _ => patient_pure _)
      · exact patient_pure _
    · exact patient_throw _
  | _ => exact patient_throw _

theorem patient_recvBatch (channels : List (UInt32 × Nat)) :
    Patient (recvBatch libs channels : ClientM σ _) := by
  induction channels with
  | nil => exact patient_pure _
  | cons channel channels ih =>
    refine .bind (patient_takeFetched _ _) (fun data => ?_)
    refine .bind (patient_modify (fun _ h => h) (fun _ _ _ => rfl)) (fun _ => ?_)
    exact .bind ih (fun _ => patient_pure _)

theorem patient_batchEnd (channels : List (UInt32 × Nat)) (n : Nat) :
    Patient (batchEnd libs channels n) := by
  refine .bind (patient_recvBatch channels) (fun results => ?_)
  exact .bind (patient_modify (fun _ h => h) (fun _ _ _ => rfl)) (fun _ => patient_pure _)

end Patience

/-! ## A batch -/

section Batch

variable {libs : MuxLibs} {w : World MuxServer} {requests : List (Nat × UInt64)}

theorem length_batchQueue (ch : UInt32) (requests : List (Nat × UInt64)) :
    (batchQueue ch requests).length = requests.length := by
  induction requests generalizing ch with
  | nil => rfl
  | cons request requests ih => exact congrArg (· + 1) (ih (ch + 1))

/-- The requests of a batch with the bytes the handler writes for each. -/
abbrev World.batchJobs (libs : MuxLibs) (w : World MuxServer) (requests : List (Nat × UInt64)) :
    List (Job UInt8 UInt8) :=
  w.peer.jobs libs w.client.fromAint (w.queue requests)

/-- Some bytes wait on the connection to a peer. -/
def World.reading {σ : Type} (w : World σ) (peer : σ) (bytes : List UInt8) : World σ :=
  ({ w with peer := peer }).setConnection ⟨⟨bytes, false⟩, []⟩

theorem World.reading_ahead {σ : Type} (w : World σ) (peer peer' : σ) (bytes later : List UInt8) :
    (w.reading peer bytes).ahead peer' later = w.reading peer' (bytes ++ later) := rfl

theorem World.open_reading {σ : Type} (w : World σ) (peer : σ) (bytes : List UInt8) :
    (w.reading peer bytes).Open := by
  rintro _ ⟨⟩
  rfl

/-- Over bounded buffers a batch reads what has arrived, where it would else read all answers. -/
theorem fetchBatch_reading (h : Aligned w)
    (hreq : ∀ e ∈ w.queue requests, Carried libs (e.2.frame e.1 w.client.fromAint)) :
    ∃ (w₁ : World MuxServer) (srv : MuxServer),
      let last := batchEnd libs (batchChannels w.client.nextChannel requests) requests.length
      (fetchBatch (muxPeer libs) libs requests).run w =
        last.run (w₁.reading srv (answers (w.batchJobs libs requests))) ∧
      ∀ b moves, ∃ srv', (fetchBatch (bufferedPeer libs b moves) libs requests).run w =
        last.run (w₁.reading srv' (Link.after b (w.batchJobs libs requests) moves).arrived) := by
  obtain ⟨w₁, hrun, -, hconn, hpeer, -⟩ := fetchBatch_buffered libs h requests
  refine ⟨w₁, { (w.batchAnswers libs requests).1 with inbox := [] }, ?_, fun b moves => ?_⟩
  · rw [hrun _ rfl, bind_ok (flush_batch h hconn hpeer hreq), MuxServer.answers_jobs]
    rfl
  · obtain ⟨srv', hdeliver⟩ := bufferedPeer_deliver h.idle hreq b moves
    rw [← hpeer] at hdeliver
    refine ⟨srv', ?_⟩
    rw [hrun (bufferedPeer libs b moves) rfl, bind_ok (flush_run hconn hdeliver)]
    simp only [List.nil_append, Bool.false_or, hpeer]
    rfl

/-- A batch over bounded buffers waits or returns what it returns over unbounded ones. -/
theorem fetchBatch_waits_or (h : Aligned w)
    (hreq : ∀ e ∈ w.queue requests, Carried libs (e.2.frame e.1 w.client.fromAint))
    {result : Except MuxError (List (Nat × List UInt8))} {w' : World MuxServer}
    (hfull : (fetchBatch (muxPeer libs) libs requests).run w = resultOf result w') (b : Buffers)
    (moves : List Move) :
    Waits ((fetchBatch (bufferedPeer libs b moves) libs requests).run w) ∨
      ∃ w'', (fetchBatch (bufferedPeer libs b moves) libs requests).run w = resultOf result w'' := by
  obtain ⟨w₁, srv, hall, hpart⟩ := fetchBatch_reading h hreq
  obtain ⟨srv', hrun⟩ := hpart b moves
  rw [hrun]
  have hwhole := (Link.inv_after b (w.batchJobs libs requests) moves).answered
  rw [hall, ← hwhole, ← World.reading_ahead w₁ srv'] at hfull
  exact (patient_batchEnd _ _).agrees (w₁.open_reading _ _) hfull

/-- A batch that fits can always be brought to its end. -/
theorem fetchBatch_returns (h : Aligned w)
    (hreq : ∀ e ∈ w.queue requests, Carried libs (e.2.frame e.1 w.client.fromAint))
    {result : Except MuxError (List (Nat × List UInt8))} {w' : World MuxServer}
    (hfull : (fetchBatch (muxPeer libs) libs requests).run w = resultOf result w') {b : Buffers}
    (hfits : Fits b (w.batchJobs libs requests)) (moves : List Move) :
    ∃ more w'', (fetchBatch (bufferedPeer libs b (moves ++ more)) libs requests).run w =
      resultOf result w'' := by
  obtain ⟨w₁, srv, hall, hpart⟩ := fetchBatch_reading h hreq
  obtain ⟨more, hcomplete⟩ := Link.completes hfits moves
  obtain ⟨srv', hrun⟩ := hpart b (moves ++ more)
  refine ⟨more, ?_⟩
  rw [hrun, hcomplete.arrived (Link.inv_after b _ _)]
  rw [hall] at hfull
  obtain ⟨w'', hw''⟩ := (patient_batchEnd _ _).resultOf_peer (w₁.open_reading _ _) hfull srv'
  rw [World.reading_ahead, List.append_nil] at hw''
  exact ⟨w'', hw''⟩

/-- A batch that does not fit waits for good. -/
theorem fetchBatch_waits (h : Aligned w)
    (hreq : ∀ e ∈ w.queue requests, Carried libs (e.2.frame e.1 w.client.fromAint)) {b : Buffers}
    (hfits : ¬ Fits b (w.batchJobs libs requests)) (moves : List Move) :
    Waits ((fetchBatch (bufferedPeer libs b moves) libs requests).run w) := by
  obtain ⟨w₁, srv, -, hpart⟩ := fetchBatch_reading h hreq
  obtain ⟨srv', hrun⟩ := hpart b moves
  rw [hrun, (Link.after_unsent hfits moves).2]
  cases requests with
  | nil => exact absurd ⟨0, Nat.zero_lt_one, Nat.zero_le _, Nat.zero_le _⟩ hfits
  | cons request requests =>
    have hread : (onConnection (readFrame libs)).run (w₁.reading srv' []) = _ :=
      onConnection_error (c := ⟨⟨[], false⟩, []⟩) rfl (readFrame_empty false)
    exact ⟨_, bind_error (bind_error (bind_error (bind_error hread)))⟩

/-- However much room the buffers have, a list that is long enough does not fit. -/
theorem not_fits_long {b : Buffers} (hlength : b.up + b.down + 2 ≤ requests.length) :
    ¬ Fits b (w.batchJobs libs requests) := by
  refine not_fits_of_length (MuxServer.answer_ne_nil _ _) ?_
  rw [MuxServer.length_jobs]
  rwa [length_batchQueue]

end Batch

end Spaceshuttle.Cluster
