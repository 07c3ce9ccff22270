import Spaceshuttle.Lib.Machine
import Spaceshuttle.Cluster.Handlers

/-!
# One store behind many connections

Every TCP connection of the transport, every TCP connection of the MUX and every QUIC stream is
served by a task of its own (`cluster_transport.rs:205-211`, `cluster_mux.rs:340-352`,
`quic_mux.rs:312-340`), and all of them share the block store. The lock of the store makes a call
atomic and orders nothing else: a task can be held up anywhere between reading its request and
reaching the store, and between reaching the store and writing its answer. An event of the model
lets one connection take one such step; a run is any sequence of events.
-/

namespace Spaceshuttle.Cluster

open ByteStream

/-- The server a connection belongs to. -/
inductive Protocol where
  | transport
  | mux
  | quic
  deriving DecidableEq, Repr

/-- The reading part of a connection's handler. -/
def Protocol.read (libs : ServerLibs) (kernelAint : String) : Protocol → Read (Request × Task)
  | .transport => readBlockRequest libs kernelAint
  | .mux => readFrameRequest libs.toMuxLibs (muxFrames kernelAint)
  | .quic => readFrameRequest libs.toMuxLibs (quicFrames kernelAint)

/-- A MUX connection carries request after request; the other two carry one. -/
def Protocol.loops : Protocol → Bool
  | .mux => true
  | .transport | .quic => false

/-- Where a handler stands. -/
inductive Phase where
  /-- It reads a request. -/
  | reading
  /-- It has read a request and has not reached the store. -/
  | ready (request : Request) (task : Task)
  /-- It has an answer to write. -/
  | replying (request : Request) (answer : Answer)
  /-- It has returned. -/
  | returned

/-- How a request ended. -/
inductive Outcome where
  /-- The handler answered, and the answer was written or the connection was lost meanwhile. -/
  | answered (request : Request) (answer : Answer) (written : Bool)
  /-- The frame is one that no server answers. -/
  | ignored (request : Request)
  /-- The bytes of the request were rejected. -/
  | rejected (message : String)
  /-- The connection ended inside the request. -/
  | cutOff

/-- A connection with its handler. -/
structure Conn where
  protocol : Protocol
  inbound : Inbound
  phase : Phase
  /-- History: how the requests that are over ended. -/
  outcomes : List Outcome
  /-- History: the bytes written back. -/
  outbox : List UInt8

/-- A connection that was just accepted. -/
def Conn.new (protocol : Protocol) : Conn where
  protocol := protocol
  inbound := ⟨[], false⟩
  phase := .reading
  outcomes := []
  outbox := []

/-- The request at hand is over. The handler goes on or returns. -/
def Conn.finish (c : Conn) (outcome : Outcome) (goesOn : Bool) : Conn :=
  { c with
    outcomes := c.outcomes ++ [outcome]
    phase := if goesOn then .reading else .returned }

/-- Bytes arrive from a peer that has not closed its side. -/
def Conn.arrive (c : Conn) (bytes : List UInt8) : Conn :=
  if c.inbound.closed then c
  else { c with inbound := { c.inbound with bytes := c.inbound.bytes ++ bytes } }

/-- The peer closes its side. -/
def Conn.close (c : Conn) : Conn :=
  { c with inbound := { c.inbound with closed := true } }

/-- The handler reads. While the bytes at hand do not hold a whole request it waits, and any other
reader error ends it. -/
def Conn.read (libs : ServerLibs) (kernelAint : String) (c : Conn) : Conn :=
  match c.phase with
  | .reading =>
      match (c.protocol.read libs kernelAint).run c.inbound with
      | .ok (request, task) rest => { c with inbound := rest, phase := .ready request task }
      | .error .pending _ => c
      | .error .eof _ => c.finish .cutOff false
      | .error (.invalid message) _ => c.finish (.rejected message) false
  | _ => c

/-- The connection breaks: a handler that reads gets an error. -/
def Conn.reset (c : Conn) : Conn :=
  match c.phase with
  | .reading => c.finish .cutOff false
  | _ => c

/-- The handler reaches the store and makes its answer. -/
def Conn.access (elapsedUs : UInt64) (store : BlockStore) (c : Conn) :
    Conn × BlockStore × Option StoreCall :=
  match c.phase with
  | .ready request task =>
      match task.perform elapsedUs store with
      | (store, call, some answer) => ({ c with phase := .replying request answer }, store, call)
      | (store, call, none) => (c.finish (.ignored request) c.protocol.loops, store, call)
  | _ => (c, store, none)

/-- The handler writes its answer, or fails to. -/
def Conn.reply (libs : ServerLibs) (written : Bool) (c : Conn) : Conn :=
  match c.phase with
  | .replying request answer =>
      let c := c.finish (.answered request answer written) (written && c.protocol.loops)
      if written then { c with outbox := c.outbox ++ answer.bytes libs } else c
  | _ => c

/-- The kernel's servers with the store they share. -/
structure Servers where
  store : BlockStore
  conns : List Conn

/-- The servers before the first connection. -/
def Servers.new : Servers where
  store := .new
  conns := []

/-- What a connection can do next, or what can happen to it. -/
inductive Move where
  /-- Bytes arrive. -/
  | arrive (bytes : List UInt8)
  /-- The peer closes its side. -/
  | close
  | reset
  | read
  | access (elapsedUs : UInt64)
  | reply (written : Bool)
  deriving DecidableEq, Repr

/-- What happens next. -/
inductive Event where
  /-- A connection is accepted, or a stream of a QUIC connection. -/
  | accept (protocol : Protocol)
  | move (i : Nat) (m : Move)
  deriving DecidableEq, Repr

/-- One move of a connection, with the store after it and the call of `BlockStore::store` it made. -/
def Conn.step (libs : ServerLibs) (kernelAint : String) (store : BlockStore) (c : Conn) :
    Move → Conn × BlockStore × Option StoreCall
  | .arrive bytes => (c.arrive bytes, store, none)
  | .close => (c.close, store, none)
  | .reset => (c.reset, store, none)
  | .read => (c.read libs kernelAint, store, none)
  | .access elapsedUs => c.access elapsedUs store
  | .reply written => (c.reply libs written, store, none)

namespace Servers

variable (libs : ServerLibs) (kernelAint : String)

/-- One event, with the call of `BlockStore::store` it makes. -/
def step (s : Servers) : Event → Servers × Option StoreCall
  | .accept protocol => ({ s with conns := s.conns ++ [.new protocol] }, none)
  | .move i m =>
      match s.conns[i]? with
      | none => (s, none)
      | some c =>
          let (c, store, call) := c.step libs kernelAint s.store m
          ({ store := store, conns := s.conns.set i c }, call)

/-- The servers after a run that starts with the empty store. -/
def after (events : List Event) : Servers := Machine.run (step libs kernelAint) new events

end Servers

/-! ## What one step can do -/

/-- Every stored block stands under its own index and has the hash it is recorded with. -/
def Intact (hex : List UInt8 → String) (store : BlockStore) : Prop :=
  ∀ i b, store.blocks.lookup i = some b → b.blockIndex = i ∧ b.contentHash = hex b.data

theorem intact_new (hex : List UInt8 → String) : Intact hex .new := by
  intro i b h
  simp [BlockStore.new] at h

theorem intact_accept {hex : List UInt8 → String} {store : BlockStore} (h : Intact hex store)
    {call : StoreCall} (hcall : call.contentHash = hex call.data) : Intact hex (store.accept call) := by
  intro i b hb
  simp only [BlockStore.accept, BlockStore.store] at hb
  by_cases hi : i = call.blockIndex
  · subst hi
    rw [AList.lookup_insert] at hb
    cases hb
    exact ⟨rfl, hcall⟩
  · rw [AList.lookup_insert_ne hi] at hb
    exact h i b hb

theorem intact_fetch {hex : List UInt8 → String} {store : BlockStore} (h : Intact hex store)
    (j : Nat) : Intact hex (store.fetch j).2 := by
  unfold BlockStore.fetch
  cases hj : store.blocks.lookup j with
  | none => exact h
  | some found =>
    intro i b hb
    by_cases hi : i = j
    · subst hi
      rw [AList.lookup_insert] at hb
      cases hb
      exact h i found hj
    · rw [AList.lookup_insert_ne hi] at hb
      exact h i b hb

/-- The task of a handler is one it may have after reading its request. -/
def Conn.Sound (hex : List UInt8 → String) (c : Conn) : Prop :=
  ∀ request task, c.phase = .ready request task → task.Sound hex request

theorem Conn.sound_of_phase {hex : List UInt8 → String} {c : Conn}
    (h : ∀ request task, c.phase ≠ .ready request task) : c.Sound hex :=
  fun request task hphase => absurd hphase (h request task)

@[simp] theorem Conn.finish_outcomes (c : Conn) (o : Outcome) (goesOn : Bool) :
    (c.finish o goesOn).outcomes = c.outcomes ++ [o] := rfl

theorem Conn.finish_phase (c : Conn) (o : Outcome) (goesOn : Bool) :
    (c.finish o goesOn).phase = .reading ∨ (c.finish o goesOn).phase = .returned := by
  cases goesOn
  · exact .inr rfl
  · exact .inl rfl

theorem Conn.finish_sound (hex : List UInt8 → String) (c : Conn) (o : Outcome) (goesOn : Bool) :
    (c.finish o goesOn).Sound hex := by
  apply Conn.sound_of_phase
  intro request task h
  rcases c.finish_phase o goesOn with h' | h' <;> rw [h'] at h <;> cases h

theorem Protocol.read_sound {libs : ServerLibs} {kernelAint : String} {protocol : Protocol}
    {s s' : Inbound} {r : Request × Task}
    (h : (protocol.read libs kernelAint).run s = .ok r s') : r.2.Sound libs.sha256.hex r.1 := by
  cases protocol with
  | transport => exact readBlockRequest_sound h
  | mux => exact readFrameRequest_sound h
  | quic => exact readFrameRequest_sound h

theorem Conn.read_sound {libs : ServerLibs} (kernelAint : String) {c : Conn}
    (hc : c.Sound libs.sha256.hex) : (c.read libs kernelAint).Sound libs.sha256.hex := by
  unfold Conn.read
  split
  · split
    · rename_i hread
      intro request task hphase
      cases hphase
      exact Protocol.read_sound hread
    · exact hc
    · exact c.finish_sound _ _ _
    · exact c.finish_sound _ _ _
  · exact hc

/-- The three things that reaching the store can be: nothing for a handler that is not ready; the
end of a request that needs no answer; or the access of the task, after which the handler has the
answer. -/
theorem Conn.access_cases (elapsedUs : UInt64) (store : BlockStore) (c : Conn) :
    c.access elapsedUs store = (c, store, none) ∨
    (∃ request, c.phase = .ready request .ignore ∧
      c.access elapsedUs store = (c.finish (.ignored request) c.protocol.loops, store, none)) ∨
    ∃ request task store' call answer, c.phase = .ready request task ∧
      task.perform elapsedUs store = (store', call, some answer) ∧
      c.access elapsedUs store = ({ c with phase := .replying request answer }, store', call) := by
  unfold Conn.access
  cases hphase : c.phase with
  | reading => exact .inl rfl
  | replying request answer => exact .inl rfl
  | returned => exact .inl rfl
  | ready request task =>
    cases task with
    | ignore => exact .inr (.inl ⟨request, rfl, rfl⟩)
    | fetch i reply => exact .inr (.inr ⟨request, _, _, _, _, rfl, rfl, rfl⟩)
    | store call reply => exact .inr (.inr ⟨request, _, _, _, _, rfl, rfl, rfl⟩)
    | answer reply => exact .inr (.inr ⟨request, _, _, _, _, rfl, rfl, rfl⟩)

/-- A task keeps the store intact. -/
theorem Task.Sound.perform {hex : List UInt8 → String} {request : Request} {task : Task}
    (h : task.Sound hex request) (elapsedUs : UInt64) {store : BlockStore} (hs : Intact hex store) :
    Intact hex (task.perform elapsedUs store).1 := by
  cases task with
  | fetch i reply => exact intact_fetch hs i
  | store call reply => exact intact_accept hs h.1
  | answer reply => exact hs
  | ignore => exact hs

/-- A store request whose task changes the store is answered with success. -/
theorem Task.Sound.status {hex : List UInt8 → String} {request : Request} {task : Task}
    (h : task.Sound hex request) {elapsedUs : UInt64} {store store' : BlockStore}
    {call : Option StoreCall} {answer : Answer}
    (hp : task.perform elapsedUs store = (store', call, some answer)) (hne : store' ≠ store)
    (hstore : request.isStore = true) : answer.status = 200 := by
  cases task with
  | fetch i reply =>
    have hfalse : request.isStore = false := h
    rw [hfalse] at hstore
    cases hstore
  | store c reply =>
    cases hp
    exact h.2 elapsedUs
  | answer reply =>
    cases hp
    exact absurd rfl hne
  | ignore => cases hp

section Steps

variable {libs : ServerLibs} {kernelAint : String}

/-- Only the access of a ready handler touches the store. -/
theorem Conn.step_store (store : BlockStore) (c : Conn) (m : Move) :
    (c.step libs kernelAint store m).2 = (store, none) ∨
    ∃ request task store' call answer elapsedUs, c.phase = .ready request task ∧
      task.perform elapsedUs store = (store', call, some answer) ∧
      c.step libs kernelAint store m = ({ c with phase := .replying request answer }, store', call) := by
  cases m with
  | access elapsedUs =>
    rcases c.access_cases elapsedUs store with h | ⟨request, -, h⟩ | h
    · exact .inl (congrArg Prod.snd h)
    · exact .inl (congrArg Prod.snd h)
    · obtain ⟨request, task, store', call, answer, hphase, hperform, haccess⟩ := h
      exact .inr ⟨request, task, store', call, answer, elapsedUs, hphase, hperform, haccess⟩
  | _ => exact .inl rfl

theorem Conn.step_sound {store : BlockStore} {c : Conn} (hc : c.Sound libs.sha256.hex) (m : Move) :
    (c.step libs kernelAint store m).1.Sound libs.sha256.hex := by
  cases m with
  | arrive bytes =>
    show (c.arrive bytes).Sound _
    unfold Conn.arrive
    split <;> exact hc
  | close => exact hc
  | reset =>
    show c.reset.Sound _
    unfold Conn.reset
    split
    · exact c.finish_sound _ _ _
    · exact hc
  | read => exact Conn.read_sound kernelAint hc
  | access elapsedUs =>
    show (c.access elapsedUs store).1.Sound _
    rcases c.access_cases elapsedUs store with h | ⟨request, -, h⟩ | h
    · rw [h]
      exact hc
    · rw [h]
      exact c.finish_sound _ _ _
    · obtain ⟨request, task, store', call, answer, -, -, h⟩ := h
      rw [h]
      apply Conn.sound_of_phase
      intro r t hphase
      cases hphase
  | reply written =>
    show (c.reply libs written).Sound _
    unfold Conn.reply
    cases c.phase with
    | replying request answer =>
      have hfinish := c.finish_sound libs.sha256.hex (.answered request answer written)
        (written && c.protocol.loops)
      cases written <;> exact hfinish
    | _ => exact hc

theorem Conn.step_intact {store : BlockStore} {c : Conn} (hc : c.Sound libs.sha256.hex)
    (hs : Intact libs.sha256.hex store) (m : Move) :
    Intact libs.sha256.hex (c.step libs kernelAint store m).2.1 := by
  rcases c.step_store store m with h | ⟨request, task, store', call, answer, us, hphase, hperform, h⟩
  · rw [h]
    exact hs
  · have hkeeps := (hc request task hphase).perform us hs
    rw [hperform] at hkeeps
    rw [h]
    exact hkeeps

/-- The `n`-th request of a connection has got an answer, which is still to be written or was
already. -/
def Conn.AnsweredAt (request : Request) (answer : Answer) (n : Nat) (c : Conn) : Prop :=
  (c.phase = .replying request answer ∧ c.outcomes.length = n) ∨
    ∃ written, c.outcomes[n]? = some (.answered request answer written)

/-- How a request ended is never revised. -/
theorem Conn.step_outcomes (store : BlockStore) (c : Conn) (m : Move) :
    c.outcomes <+: (c.step libs kernelAint store m).1.outcomes := by
  cases m with
  | arrive bytes =>
    show _ <+: (c.arrive bytes).outcomes
    unfold Conn.arrive
    split <;> exact List.prefix_rfl
  | close => exact List.prefix_rfl
  | reset =>
    show _ <+: c.reset.outcomes
    unfold Conn.reset
    split
    · exact List.prefix_append _ _
    · exact List.prefix_rfl
  | read =>
    show _ <+: (c.read libs kernelAint).outcomes
    unfold Conn.read
    split
    · split
      · exact List.prefix_rfl
      · exact List.prefix_rfl
      · exact List.prefix_append _ _
      · exact List.prefix_append _ _
    · exact List.prefix_rfl
  | access elapsedUs =>
    show _ <+: (c.access elapsedUs store).1.outcomes
    rcases c.access_cases elapsedUs store with h | ⟨r, -, h⟩ | ⟨r, task, store', call, a, -, -, h⟩
    · rw [h]
    · rw [h]
      exact List.prefix_append _ _
    · rw [h]
  | reply written =>
    show _ <+: (c.reply libs written).outcomes
    unfold Conn.reply
    cases c.phase with
    | replying r a => cases written <;> exact List.prefix_append _ _
    | _ => exact List.prefix_rfl

/-- An answer stays the answer to its request. -/
theorem Conn.step_answeredAt {request : Request} {answer : Answer} {n : Nat} {c : Conn}
    (h : c.AnsweredAt request answer n) (store : BlockStore) (m : Move) :
    (c.step libs kernelAint store m).1.AnsweredAt request answer n := by
  rcases h with ⟨hphase, hn⟩ | hdone
  · cases m with
    | arrive bytes =>
      refine .inl ?_
      show (c.arrive bytes).phase = _ ∧ (c.arrive bytes).outcomes.length = n
      unfold Conn.arrive
      split <;> exact ⟨hphase, hn⟩
    | close => exact .inl ⟨hphase, hn⟩
    | reset =>
      refine .inl ?_
      simp only [Conn.step, Conn.reset, hphase]
      exact ⟨trivial, hn⟩
    | read =>
      refine .inl ?_
      simp only [Conn.step, Conn.read, hphase]
      exact ⟨trivial, hn⟩
    | access elapsedUs =>
      refine .inl ?_
      simp only [Conn.step, Conn.access, hphase]
      exact ⟨trivial, hn⟩
    | reply written =>
      refine .inr ⟨written, ?_⟩
      show (c.reply libs written).outcomes[n]? = _
      simp only [Conn.reply, hphase]
      subst hn
      cases written <;> simp
  · obtain ⟨written, hn⟩ := hdone
    refine .inr ⟨written, ?_⟩
    obtain ⟨hlt, hat⟩ := List.getElem?_eq_some_iff.mp hn
    rw [List.getElem?_eq_some_iff]
    exact ⟨_, ((c.step_outcomes store m).getElem hlt).symm.trans hat⟩

end Steps

/-! ## Runs -/

namespace Servers

variable {libs : ServerLibs} {kernelAint : String}

/-- The invariant of the servers. -/
structure Sound (hex : List UInt8 → String) (s : Servers) : Prop where
  store : Intact hex s.store
  conns : ∀ (i : Nat) (c : Conn), s.conns[i]? = some c → c.Sound hex

theorem step_move {s : Servers} {i : Nat} {c : Conn} (hc : s.conns[i]? = some c) (m : Move) :
    step libs kernelAint s (.move i m) =
      (⟨(c.step libs kernelAint s.store m).2.1, s.conns.set i (c.step libs kernelAint s.store m).1⟩,
        (c.step libs kernelAint s.store m).2.2) := by
  simp only [step, hc]

theorem step_sound {s : Servers} (hs : s.Sound libs.sha256.hex) (e : Event) :
    (step libs kernelAint s e).1.Sound libs.sha256.hex := by
  cases e with
  | accept protocol =>
    refine ⟨hs.store, ?_⟩
    intro i c hc
    simp only [step, List.getElem?_append] at hc
    split at hc
    · exact hs.conns i c hc
    · rw [List.getElem?_singleton] at hc
      split at hc
      · cases hc
        apply Conn.sound_of_phase
        intro request task h
        cases h
      · cases hc
  | move i m =>
    cases hc : s.conns[i]? with
    | none =>
      simp only [step, hc]
      exact hs
    | some c =>
      rw [step_move hc]
      refine ⟨Conn.step_intact (hs.conns i c hc) hs.store m, ?_⟩
      intro j d hd
      rw [List.getElem?_set] at hd
      split at hd
      · split at hd
        · cases hd
          exact Conn.step_sound (hs.conns i c hc) m
        · cases hd
      · exact hs.conns j d hd

variable (libs kernelAint)

theorem after_sound (events : List Event) : (after libs kernelAint events).Sound libs.sha256.hex := by
  have hnew : new.Sound libs.sha256.hex := by
    refine ⟨intact_new _, ?_⟩
    intro i c hc
    simp [new] at hc
  exact Machine.run_keeps (p := Sound libs.sha256.hex) (fun s e hs => step_sound hs e) hnew events

/-- An answer stays the answer to its request, whatever happens on the other connections. -/
theorem run_answeredAt {s : Servers} {i n : Nat} {request : Request} {answer : Answer} {c : Conn}
    (hc : s.conns[i]? = some c) (h : c.AnsweredAt request answer n) (events : List Event) :
    ∃ c', (Machine.run (step libs kernelAint) s events).conns[i]? = some c' ∧
      c'.AnsweredAt request answer n := by
  refine Machine.run_keeps (p := fun s : Servers => ∃ c' : Conn, s.conns[i]? = some c' ∧
    c'.AnsweredAt request answer n) ?_ ⟨c, hc, h⟩ events
  rintro s e ⟨c, hc, h⟩
  cases e with
  | accept protocol =>
    refine ⟨c, ?_, h⟩
    exact (List.getElem?_append_left (List.getElem?_eq_some_iff.mp hc).choose).trans hc
  | move j m =>
    cases hd : s.conns[j]? with
    | none =>
      simp only [step, hd]
      exact ⟨c, hc, h⟩
    | some d =>
      rw [step_move hd]
      by_cases hij : j = i
      · subst hij
        obtain rfl : d = c := Option.some.inj (hd.symm.trans hc)
        refine ⟨_, List.getElem?_set_self (List.getElem?_eq_some_iff.mp hc).choose, ?_⟩
        exact Conn.step_answeredAt h s.store m
      · refine ⟨c, ?_, h⟩
        rw [List.getElem?_set_ne hij]
        exact hc

/-- How the `n`-th request on connection `i` ended, if it is over. -/
def outcome (s : Servers) (i n : Nat) : Option Outcome :=
  s.conns[i]?.bind (fun c => c.outcomes[n]?)

/-- The number of the request that connection `i` is at. -/
def current (s : Servers) (i : Nat) : Option Nat :=
  s.conns[i]?.map (fun c => c.outcomes.length)

end Servers

/-- A store request answered 409 or 413, or a request that was cut off. -/
def Outcome.Refused : Outcome → Prop
  | .answered request answer _ =>
      request.isStore = true ∧ (answer.status = 409 ∨ answer.status = 413)
  | .cutOff => True
  | .ignored _ | .rejected _ => False

/-- No move made for a request that ended refused has changed the store. -/
def RefusalsKeepStore (libs : ServerLibs) (kernelAint : String) (events : List Event) : Prop :=
  ∀ pre i m post, events = pre ++ .move i m :: post →
    ∀ n o, (Servers.after libs kernelAint pre).current i = some n →
      (Servers.after libs kernelAint events).outcome i n = some o → o.Refused →
        (Servers.after libs kernelAint (pre ++ [.move i m])).store =
          (Servers.after libs kernelAint pre).store

open Servers in
theorem refusals_keep_store (libs : ServerLibs) (kernelAint : String) (events : List Event) :
    RefusalsKeepStore libs kernelAint events := by
  rintro pre i m post rfl n o hn ho hrefused
  obtain ⟨c, hc, rfl⟩ := Option.map_eq_some_iff.mp hn
  have hstep : after libs kernelAint (pre ++ [.move i m]) =
      (step libs kernelAint (after libs kernelAint pre) (.move i m)).1 :=
    Machine.run_concat _ _ _
  have hend : after libs kernelAint (pre ++ .move i m :: post) =
      Machine.run (step libs kernelAint) (after libs kernelAint (pre ++ [.move i m])) post := by
    unfold after
    rw [← Machine.run_append, List.append_assoc, List.singleton_append]
  have hsound := after_sound libs kernelAint pre
  rw [hend, hstep, step_move hc] at ho
  rw [hstep, step_move hc]
  generalize after libs kernelAint pre = s at *
  rcases c.step_store s.store m with h | ⟨request, task, store', call, answer, us, hphase, hperform, h⟩
  · rw [h]
  -- The handler has reached the store, so its answer is the answer to this request.
  rw [h] at ho ⊢
  by_contra hne
  have hat : (s.conns.set i { c with phase := .replying request answer })[i]? =
      some { c with phase := .replying request answer } :=
    List.getElem?_set_self (List.getElem?_eq_some_iff.mp hc).choose
  obtain ⟨c', hc', hanswered⟩ := run_answeredAt libs kernelAint
    (s := ⟨store', s.conns.set i { c with phase := .replying request answer }⟩) hat
    (.inl ⟨rfl, rfl⟩) post
  rw [outcome, hc', Option.bind_some] at ho
  rcases hanswered with ⟨-, hn⟩ | ⟨written, hn⟩
  · rw [← hn, List.getElem?_length] at ho
    cases ho
  · obtain rfl := Option.some.inj (hn.symm.trans ho)
    have hstatus := (hsound.conns i c hc request task hphase).status hperform hne hrefused.1
    rcases hrefused.2 with h' | h' <;> rw [hstatus] at h' <;> cases h'

/-- Three servers share one store. Whatever their connections send and in whatever order the
handlers run, the store is intact, and a request that is refused does not touch it. -/
theorem shared_store_integrity (libs : ServerLibs) (kernelAint : String) (events : List Event) :
    Intact libs.sha256.hex (Servers.after libs kernelAint events).store ∧
      RefusalsKeepStore libs kernelAint events :=
  ⟨(Servers.after_sound libs kernelAint events).store, refusals_keep_store libs kernelAint events⟩

end Spaceshuttle.Cluster
