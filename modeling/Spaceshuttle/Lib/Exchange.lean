import Spaceshuttle.Lib.ByteStream
import Spaceshuttle.Lib.Machine

/-!
# One request and one answer on a stream

A service whose calls have a stream of their own: the caller writes a request, a handler reads it,
reaches a shared state once, and writes an answer that the caller reads. Any number of calls are
under way at a time. Bytes arrive in pieces of any size, a handler can be held up anywhere, and
either side can be lost.

`Implements` says of one call alone that it does what an object does in one step. `Linearizes` says of
a run that the object explains it, by calls one after the other in some order. `Stream.Sound` is what
holds of every stream of such a service.
-/

namespace Exchange

open ByteStream

/-- The code of a service: calls `ω`, shared state `σ`, results `ρ`. -/
structure Service (ω σ ρ : Type) where
  Listener : Type
  Task : Type
  /-- What an answer depends on besides the task and the shared state. -/
  Clock : Type
  /-- What a result depends on besides the answer. -/
  Local : Type
  listener : ω → Listener
  /-- The caller closes its side behind the request. -/
  finishes : Listener → Bool
  request : ω → List UInt8
  /-- The reading part of a handler. -/
  serve : Listener → Read Task
  /-- The access of a handler: the state after it, and the bytes of the answer. -/
  perform : Clock → Task → σ → σ × List UInt8
  /-- The reading part of a caller. -/
  receive : ω → Local → Read ρ

/-- Where a handler stands. -/
inductive Handler (τ : Type) where
  | reading
  | ready (task : τ)
  /-- It has reached the state, and its answer is written or on its way. -/
  | answered
  /-- It has ended without reaching the state. -/
  | gone

/-- Where a caller stands. -/
inductive Caller (ρ : Type) where
  | waiting
  | got (result : ρ)
  /-- It has given up on the stream. -/
  | lost

section System

variable {ω σ ρ : Type}

/-- A call with its stream: the bytes of the request that have not arrived, what the handler has not
read, the answer, and the number of its bytes that have arrived. -/
structure Stream (svc : Service ω σ ρ) where
  op : ω
  toServer : List UInt8
  inbound : Inbound
  handler : Handler svc.Task
  answer : List UInt8
  arrived : Nat
  caller : Caller ρ

/-- The calls so far, with the state they share. -/
structure System (svc : Service ω σ ρ) where
  state : σ
  streams : List (Stream svc)

/-- What can happen on a stream besides the access. -/
inductive Move (ε : Type) where
  /-- Bytes of the request arrive. -/
  | carry (n : Nat)
  /-- The handler reads. -/
  | serve
  /-- The handler is lost. -/
  | vanish
  /-- Bytes of the answer arrive. -/
  | bring (n : Nat)
  /-- The caller reads. -/
  | take (w : ε)
  /-- The caller is lost. -/
  | lose

/-- What can happen. -/
inductive Event (svc : Service ω σ ρ) where
  /-- A call opens a stream and writes its request. -/
  | call (op : ω)
  /-- The handler of a stream reaches the state. -/
  | access (i : Nat) (w : svc.Clock)
  | move (i : Nat) (m : Move svc.Local)

variable {svc : Service ω σ ρ}

namespace Stream

/-- The stream of a call that was just made. -/
def new (op : ω) : Stream svc where
  op := op
  toServer := svc.request op
  inbound := ⟨[], false⟩
  handler := .reading
  answer := []
  arrived := 0
  caller := .waiting

/-- The handler writes nothing more. -/
def isOver (t : Stream svc) : Bool :=
  match t.handler with
  | .answered | .gone => true
  | .reading | .ready _ => false

/-- What the caller has received. -/
def received (t : Stream svc) : Inbound where
  bytes := t.answer.take t.arrived
  closed := t.isOver && decide (t.answer.length ≤ t.arrived)

/-- Bytes of the request arrive, and behind the last of them the end of the stream if the caller
closes its side. -/
def carry (n : Nat) (t : Stream svc) : Stream svc :=
  { t with
    toServer := t.toServer.drop n
    inbound :=
      { bytes := t.inbound.bytes ++ t.toServer.take n
        closed := svc.finishes (svc.listener t.op) && (t.toServer.drop n).isEmpty } }

/-- The handler reads. While the bytes at hand do not hold a request it waits. -/
def serve (t : Stream svc) : Stream svc :=
  match t.handler with
  | .reading =>
      match (svc.serve (svc.listener t.op)).run t.inbound with
      | .ok task rest => { t with inbound := rest, handler := .ready task }
      | .error .pending _ => t
      | .error _ _ => { t with handler := .gone }
  | _ => t

/-- The handler is lost. -/
def vanish (t : Stream svc) : Stream svc :=
  match t.handler with
  | .reading | .ready _ => { t with handler := .gone }
  | .answered | .gone => t

/-- The caller reads. While the bytes at hand do not hold an answer it waits. -/
def take (w : svc.Local) (t : Stream svc) : Stream svc :=
  match t.caller with
  | .waiting =>
      match (svc.receive t.op w).run t.received with
      | .ok result _ => { t with caller := .got result }
      | .error .pending _ => t
      | .error _ _ => { t with caller := .lost }
  | _ => t

/-- The caller is lost. -/
def lose (t : Stream svc) : Stream svc :=
  match t.caller with
  | .waiting => { t with caller := .lost }
  | _ => t

/-- One move on a stream. -/
def move (m : Move svc.Local) (t : Stream svc) : Stream svc :=
  match m with
  | .carry n => t.carry n
  | .serve => t.serve
  | .vanish => t.vanish
  | .bring n => { t with arrived := min (t.arrived + n) t.answer.length }
  | .take w => t.take w
  | .lose => t.lose

end Stream

namespace System

/-- Before the first call. -/
def new (state : σ) : System svc where
  state := state
  streams := []

/-- One event, with the call whose handler reached the state. -/
def step (s : System svc) : Event svc → System svc × Option (Nat × ω)
  | .call op => ({ s with streams := s.streams ++ [.new op] }, none)
  | .move i m => ({ s with streams := s.streams.modify i (Stream.move m) }, none)
  | .access i w =>
      match s.streams[i]? with
      | none => (s, none)
      | some t =>
          match t.handler with
          | .ready task =>
              let (state, answer) := svc.perform w task s.state
              (⟨state, s.streams.set i { t with handler := .answered, answer := answer }⟩,
                some (i, t.op))
          | _ => (s, none)

/-- The result of a call that has one. -/
def result (s : System svc) (i : Nat) : Option ρ :=
  match s.streams[i]?.map Stream.caller with
  | some (.got result) => some result
  | _ => none

end System

/-- The system after a run. -/
abbrev after (s : System svc) (events : List (Event svc)) : System svc :=
  Machine.run System.step s events

/-- The accesses of a run in their order: the number of the call, and the call. -/
def accesses (s : System svc) (events : List (Event svc)) : List (Nat × ω) :=
  (Machine.history System.step s events).filterMap Prod.snd

theorem accesses_append (s : System svc) (events more : List (Event svc)) :
    accesses s (events ++ more) = accesses s events ++ accesses (after s events) more := by
  rw [accesses, Machine.history_append, List.filterMap_append]
  rfl

theorem accesses_concat (s : System svc) (events : List (Event svc)) (e : Event svc) :
    accesses s (events ++ [e]) = accesses s events ++ ((after s events).step e).2.toList := by
  rw [accesses_append]
  show _ ++ List.filterMap Prod.snd [(e, ((after s events).step e).2)] = _
  cases ((after s events).step e).2 <;> rfl

end System

/-! ## What a service is for -/

section Object

variable {ω σ ρ α β : Type}

/-- An object that is called by number and call, and looks at the call. -/
def atCall (spec : α → ω → α × β) (a : α) (c : Nat × ω) : α × β := spec a c.2

variable (svc : Service ω σ ρ)

/-- Whatever the caller depends on, the answer gives it a result that counts as `result`. -/
def Yields (observe : ρ → β) (op : ω) (answer : List UInt8) (result : β) : Prop :=
  ∀ w closed, ∃ r rest, (svc.receive op w).run ⟨answer, closed⟩ = .ok r rest ∧ observe r = result

/-- Performing the task is a step of the object. -/
def Does (seen : svc.Clock → Prop) (inv : σ → Prop) (view : σ → α) (observe : ρ → β)
    (spec : α → ω → α × β) (op : ω) (task : svc.Task) : Prop :=
  ∀ w state, seen w → inv state →
    inv (svc.perform w task state).1 ∧
    view (svc.perform w task state).1 = (spec (view state) op).1 ∧
    Yields svc observe op (svc.perform w task state).2 (spec (view state) op).2

/-- A call alone does what the object does: the handler gets the right task out of the request, and
the caller the right result out of the answer. -/
structure Implements (allowed : ω → Prop) (seen : svc.Clock → Prop) (inv : σ → Prop)
    (view : σ → α) (observe : ρ → β) (spec : α → ω → α × β) : Prop where
  serve_steady : ∀ l, Steady (svc.serve l)
  receive_steady : ∀ op w, Steady (svc.receive op w)
  /-- A caller has no result before the first byte of an answer. -/
  receive_waits : ∀ op w closed r rest, (svc.receive op w).run ⟨[], closed⟩ ≠ .ok r rest
  serves : ∀ op, allowed op → ∀ closed, ∃ task rest,
    (svc.serve (svc.listener op)).run ⟨svc.request op, closed⟩ = .ok task rest ∧
      Does svc seen inv view observe spec op task

/-- The events of a run are within what the service is for. -/
def Conforms (allowed : ω → Prop) (seen : svc.Clock → Prop) (events : List (Event svc)) : Prop :=
  ∀ e ∈ events, match e with
    | .call op => allowed op
    | .access _ w => seen w
    | .move _ _ => True

/-- The run `events` from `s` is explained by calls of the object one after the other, in `order`.
-/
structure Linearizes (view : σ → α) (observe : ρ → β) (spec : α → ω → α × β) (s : System svc)
    (events : List (Event svc)) (order : List (Nat × ω)) : Prop where
  /-- No call takes effect twice. -/
  once : (order.map Prod.fst).Nodup
  /-- Only calls that were made take effect. -/
  called : ∀ c ∈ order, (after s events).streams[c.1]?.map Stream.op = some c.2
  /-- The shared state is that of the object. -/
  state : view (after s events).state = Machine.run (atCall spec) (view s.state) order
  /-- Every result is the one the object gives at this place. -/
  results : ∀ i r, (after s events).result i = some r →
    ∃ op, ((i, op), observe r) ∈ Machine.history (atCall spec) (view s.state) order
  /-- A call that had its result before another was made takes effect before it. -/
  realTime : ∀ before later, events = before ++ later → ∀ i j r,
    (after s before).result i = some r → (after s before).streams.length ≤ j →
    j ∈ order.map Prod.fst → [i, j].Sublist (order.map Prod.fst)

end Object

/-! ## One stream -/

section Invariant

variable {ω σ ρ α β : Type} {svc : Service ω σ ρ} {allowed : ω → Prop} {seen : svc.Clock → Prop}
variable {inv : σ → Prop} {view : σ → α} {observe : ρ → β} {spec : α → ω → α × β}

/-- The request is on its way: what has arrived of it, and what has not. -/
def Stream.Sends (t : Stream svc) : Prop :=
  t.inbound.bytes ++ t.toServer = svc.request t.op ∧ (t.inbound.closed = true → t.toServer = [])

section Handled

variable (seen inv view observe spec)

/-- How far the handler of call `i` is, after the accesses of `order` on the object `a`. -/
def Stream.Handled (a : α) (order : List (Nat × ω)) (i : Nat) (t : Stream svc) :
    Handler svc.Task → Prop
  | .reading => t.answer = [] ∧ i ∉ order.map Prod.fst ∧ t.Sends
  | .ready task => t.answer = [] ∧ i ∉ order.map Prod.fst ∧
      Does svc seen inv view observe spec t.op task
  | .answered => ∃ b, ((i, t.op), b) ∈ Machine.history (atCall spec) a order ∧
      Yields svc observe t.op t.answer b
  | .gone => t.answer = []

/-- What holds of the stream of call `i` at every point of a run. -/
structure Stream.Sound (a : α) (order : List (Nat × ω)) (i : Nat) (t : Stream svc) : Prop where
  handled : t.Handled seen inv view observe spec a order i t.handler
  caller : ∀ r, t.caller = .got r →
    ((i, t.op), observe r) ∈ Machine.history (atCall spec) a order

end Handled

variable {a : α} {order : List (Nat × ω)} {i : Nat} {t : Stream svc}

theorem Stream.sound_new (op : ω) (h : i ∉ order.map Prod.fst) :
    (Stream.new op : Stream svc).Sound seen inv view observe spec a order i where
  handled := ⟨rfl, h, rfl, fun h => (nomatch h)⟩
  caller := fun _ h => (nomatch h)

/-- What happens on the way of the request or at the caller leaves the handler where it is. -/
theorem Stream.Handled.of_same {t' : Stream svc} {phase : Handler svc.Task}
    (h : t.Handled seen inv view observe spec a order i phase) (hop : t'.op = t.op)
    (hanswer : t'.answer = t.answer) (hsends : t.Sends → t'.Sends) :
    t'.Handled seen inv view observe spec a order i phase := by
  cases phase with
  | reading => exact ⟨hanswer.trans h.1, h.2.1, hsends h.2.2⟩
  | ready task =>
    simp only [Handled, hop, hanswer]
    exact h
  | answered =>
    simp only [Handled, hop, hanswer]
    exact h
  | gone => exact hanswer.trans h

theorem Stream.Sends.carry (h : t.Sends) (n : Nat) : (t.carry n).Sends := by
  constructor
  · show (t.inbound.bytes ++ t.toServer.take n) ++ t.toServer.drop n = svc.request t.op
    rw [List.append_assoc, List.take_append_drop]
    exact h.1
  · intro hclosed
    exact List.isEmpty_iff.mp (Bool.and_eq_true_iff.mp hclosed).2

/-- What the handler has received so far makes it wait, or gives it a task that does what the call
is for. -/
theorem Stream.Sends.served (himp : Implements svc allowed seen inv view observe spec)
    (hallowed : allowed t.op) (h : t.Sends) :
    (t.toServer ≠ [] ∧ ∃ s, (svc.serve (svc.listener t.op)).run t.inbound = .error .pending s) ∨
      ∃ task rest, (svc.serve (svc.listener t.op)).run t.inbound = .ok task rest ∧
        Does svc seen inv view observe spec t.op task := by
  obtain ⟨hbytes, hclosed⟩ := h
  obtain ⟨task, rest, hserve, hdoes⟩ := himp.serves t.op hallowed t.inbound.closed
  by_cases hall : t.toServer = []
  · rw [hall, List.append_nil] at hbytes
    rw [← hbytes] at hserve
    exact .inr ⟨task, rest, hserve, hdoes⟩
  · have hopen : t.inbound = ⟨t.inbound.bytes, false⟩ := by
      rw [← Bool.eq_false_iff.mpr (mt hclosed hall)]
    rw [← hbytes] at hserve
    rw [hopen]
    rcases (himp.serve_steady _).of_append hserve with ⟨s, hpending⟩ | ⟨rest', hok, -⟩
    · exact .inl ⟨hall, s, hpending⟩
    · exact .inr ⟨task, ⟨rest', false⟩, hok, hdoes⟩

/-- What the caller has received of an answer makes it wait, or gives it the result. -/
theorem Stream.received_cases (himp : Implements svc allowed seen inv view observe spec) {b : β}
    (hyields : Yields svc observe t.op t.answer b) (w : svc.Local) :
    (t.arrived < t.answer.length ∧ ∃ s, (svc.receive t.op w).run t.received = .error .pending s) ∨
      ∃ r rest, (svc.receive t.op w).run t.received = .ok r rest ∧ observe r = b := by
  by_cases hall : t.answer.length ≤ t.arrived
  · obtain ⟨r, rest, hrun, hr⟩ := hyields w t.received.closed
    have hbytes : t.received = ⟨t.answer, t.received.closed⟩ := by
      rw [Inbound.mk.injEq]
      exact ⟨List.take_of_length_le hall, rfl⟩
    rw [← hbytes] at hrun
    exact .inr ⟨r, rest, hrun, hr⟩
  · obtain ⟨r, rest, hrun, hr⟩ := hyields w false
    have hpart : t.received = ⟨t.answer.take t.arrived, false⟩ := by
      simp only [received, decide_eq_false hall, Bool.and_false]
    rw [← List.take_append_drop t.arrived t.answer] at hrun
    rw [hpart]
    rcases (himp.receive_steady _ _).of_append hrun with ⟨s, hpending⟩ | ⟨rest', hok, -⟩
    · exact .inl ⟨by omega, s, hpending⟩
    · exact .inr ⟨r, _, hok, hr⟩

theorem Stream.Sound.serve (himp : Implements svc allowed seen inv view observe spec)
    (hallowed : allowed t.op) (h : t.Sound seen inv view observe spec a order i) :
    t.serve.Sound seen inv view observe spec a order i := by
  unfold Stream.serve
  have hhandled := h.handled
  cases hphase : t.handler with
  | reading =>
    rw [hphase] at hhandled
    obtain ⟨hanswer, hnew, hsends⟩ := hhandled
    rcases hsends.served himp hallowed with ⟨-, s, hrun⟩ | ⟨task, rest, hrun, hdoes⟩
    · simp only [hrun]
      exact h
    · simp only [hrun]
      exact ⟨⟨hanswer, hnew, hdoes⟩, h.caller⟩
  | _ => exact h

theorem Stream.Sound.take (himp : Implements svc allowed seen inv view observe spec)
    (h : t.Sound seen inv view observe spec a order i) (w : svc.Local) :
    (t.take w).Sound seen inv view observe spec a order i := by
  unfold Stream.take
  cases hcaller : t.caller with
  | waiting =>
    cases hrun : (svc.receive t.op w).run t.received with
    | error stop s =>
      cases stop with
      | pending => exact h
      | _ => exact ⟨h.handled.of_same rfl rfl id, fun _ hr => (nomatch hr)⟩
    | ok result s =>
      refine ⟨h.handled.of_same rfl rfl id, fun r hr => ?_⟩
      cases hr
      show ((i, t.op), observe result) ∈ _
      have hhandled := h.handled
      -- Without an answer there is nothing to get a result from.
      have hnothing : t.answer = [] → False := by
        intro hanswer
        have hreceived : t.received = ⟨[], t.received.closed⟩ := by
          rw [Inbound.mk.injEq]
          exact ⟨by simp only [received, hanswer, List.take_nil], rfl⟩
        rw [hreceived] at hrun
        exact himp.receive_waits _ _ _ _ _ hrun
      cases hphase : t.handler with
      | answered =>
        rw [hphase] at hhandled
        obtain ⟨b, hmem, hyields⟩ := hhandled
        rcases Stream.received_cases himp hyields w with ⟨-, s', hpending⟩ | ⟨r, rest, hok, hr⟩
        · rw [hpending] at hrun
          cases hrun
        · rw [hok] at hrun
          cases hrun
          rw [hr]
          exact hmem
      | reading =>
        rw [hphase] at hhandled
        exact (hnothing hhandled.1).elim
      | ready task =>
        rw [hphase] at hhandled
        exact (hnothing hhandled.1).elim
      | gone =>
        rw [hphase] at hhandled
        exact (hnothing hhandled).elim
  | _ => exact h

/-- A move on the stream keeps what holds of it. -/
theorem Stream.Sound.move (himp : Implements svc allowed seen inv view observe spec)
    (hallowed : allowed t.op) (h : t.Sound seen inv view observe spec a order i)
    (m : Move svc.Local) : (t.move m).Sound seen inv view observe spec a order i := by
  cases m with
  | carry n => exact ⟨h.handled.of_same rfl rfl fun hsends => hsends.carry n, h.caller⟩
  | serve => exact h.serve himp hallowed
  | vanish =>
    show t.vanish.Sound _ _ _ _ _ _ _ _
    have hhandled := h.handled
    unfold Stream.vanish
    cases hphase : t.handler with
    | reading =>
      rw [hphase] at hhandled
      exact ⟨hhandled.1, h.caller⟩
    | ready task =>
      rw [hphase] at hhandled
      exact ⟨hhandled.1, h.caller⟩
    | _ => exact h
  | bring n => exact ⟨h.handled.of_same rfl rfl id, h.caller⟩
  | take w => exact h.take himp w
  | lose =>
    show t.lose.Sound _ _ _ _ _ _ _ _
    unfold Stream.lose
    cases t.caller with
    | waiting => exact ⟨h.handled.of_same rfl rfl id, fun _ hr => (nomatch hr)⟩
    | _ => exact h

/-- An access by the handler of another call keeps what holds of a stream. -/
theorem Stream.Sound.other (h : t.Sound seen inv view observe spec a order i) {c : Nat × ω}
    (hne : i ≠ c.1) : t.Sound seen inv view observe spec a (order ++ [c]) i := by
  have hsub : ∀ x ∈ Machine.history (atCall spec) a order,
      x ∈ Machine.history (atCall spec) a (order ++ [c]) := by
    intro x hx
    rw [Machine.history_concat]
    exact List.mem_append_left _ hx
  have hnew : i ∉ order.map Prod.fst → i ∉ (order ++ [c]).map Prod.fst := by
    intro hi
    rw [List.map_append, List.mem_append]
    rintro (h | h)
    · exact hi h
    · exact hne (List.mem_singleton.mp h)
  refine ⟨?_, fun r hr => hsub _ (h.caller r hr)⟩
  have hhandled := h.handled
  cases hphase : t.handler with
  | reading =>
    rw [hphase] at hhandled
    exact ⟨hhandled.1, hnew hhandled.2.1, hhandled.2.2⟩
  | ready task =>
    rw [hphase] at hhandled
    exact ⟨hhandled.1, hnew hhandled.2.1, hhandled.2.2⟩
  | answered =>
    rw [hphase] at hhandled
    obtain ⟨b, hmem, hyields⟩ := hhandled
    exact ⟨b, hsub _ hmem, hyields⟩
  | gone =>
    rw [hphase] at hhandled
    exact hhandled

end Invariant

end Exchange
