import Spaceshuttle.Overlay.Migration

/-!
# Establish once

Any number of sends to one identity. A call of `establish` looks for a live connection, and much
later, after the resolver, the local socket and the handshake, stores one of its own; no lock is
held in between. Two sends that both look before either stores open two connections. To say so, a
run keeps track of who opened which connection.
-/

namespace Spaceshuttle.Overlay

open OverlayResolver (normalize)

/-- How far a call of `establish` is: it has not looked for a connection, it is on the way to one of
its own, it has opened that one but not stored it, it has a connection, or it failed. -/
inductive Stage where
  | start
  | opening
  | opened
  | done
  | failed
  deriving DecidableEq

/-- The stages in which a call has found no live connection and not stored its own. -/
def Stage.busy : Stage → Bool
  | .opening => true
  | .opened => true
  | _ => false

theorem Stage.busy_cases {stage : Stage} (h : stage.busy = true) :
    stage = .opening ∨ stage = .opened := by
  cases stage with
  | opening => exact .inl rfl
  | opened => exact .inr rfl
  | _ => cases h

/-- The stage of a phase. -/
def Establish.stage : Establish → Stage
  | .findPeer => .start
  | .touch _ => .done
  | .lookLocal => .opening
  | .lookCache => .opening
  | .askApi => .opening
  | .cacheAnswer _ => .opening
  | .bind _ => .opening
  | .connect _ => .opening
  | .store _ => .opened
  | .returned (.ok _) => .done
  | .returned (.error _) => .failed

/-- There is a live connection to the identity. -/
def OverlayMux.IsLive (mux : OverlayMux) (idd : String) : Prop :=
  ∃ peer, mux.peers idd = some peer ∧ peer.closed = false

/-! ## Sends to one identity -/

/-- A send: its call of `establish`, whether that has opened a connection, and the send that opened
the connection it found or stored. -/
structure Call where
  phase : Establish
  opened : Bool
  uses : Option Nat

/-- A MUX with its sends to one identity, and the send that opened the connection in `peers`. -/
structure Sends where
  mux : OverlayMux
  calls : List Call
  holder : Option Nat

/-- What happens next: a send starts, or a send runs to its next await. -/
inductive SendEvent where
  | send
  | run (i : Nat) (a : Answer)

/-- The answer that a send gets at its await is no failure. -/
def SendEvent.Succeeds : SendEvent → Prop
  | .send => True
  | .run _ a => a.Succeeds

/-- The event of a MUX with more tasks. -/
def SendEvent.toEvent (idd : String) : SendEvent → Event
  | .send => .send idd
  | .run i a => .runSend i a

/-- Send `i` after a phase: a handshake opens its connection; the connection it uses is the one that
was in `peers`, or its own once it is stored. -/
def Call.next (call : Call) (i : Nat) (holder : Option Nat) (phase : Establish) : Call where
  phase := phase
  opened := call.opened || phase.stage == .opened
  uses :=
    match call.phase.stage, phase.stage with
    | .start, .done => holder
    | .opened, _ => some i
    | _, _ => call.uses

namespace Sends

/-- One event. -/
def step (idd : String) (s : Sends) : SendEvent → Sends
  | .send => { s with calls := s.calls ++ [⟨.findPeer, false, none⟩] }
  | .run i a =>
    match s.calls[i]? with
    | none => s
    | some call =>
      let (mux, phase) := call.phase.step s.mux idd a
      { mux
        calls := s.calls.set i (call.next i s.holder phase)
        holder := if call.phase.stage = .opened then some i else s.holder }

/-- A MUX after a run of sends to the identity. -/
def after (mux : OverlayMux) (idd : String) (events : List SendEvent) : Sends :=
  events.foldl (step idd) ⟨mux, [], none⟩

/-- The tasks, without the record of who opened what. -/
def toTasks (idd : String) (s : Sends) : Tasks :=
  ⟨s.mux, s.calls.map fun call => ⟨idd, false, call.phase⟩, .idle⟩

theorem toTasks_step (idd newEndpoint : String) (s : Sends) (e : SendEvent) :
    (s.step idd e).toTasks idd = (s.toTasks idd).step idd newEndpoint (e.toEvent idd) := by
  cases e with
  | send => simp [step, toTasks, SendEvent.toEvent, Tasks.step, Tasks.migrated]
  | run i a =>
    simp only [step, toTasks, SendEvent.toEvent, Tasks.step, List.getElem?_map]
    cases s.calls[i]? with
    | none => rfl
    | some call => simp [List.map_set, Call.next]

/-- The record is only a record: the MUX and its sends run as they do among other tasks. -/
theorem toTasks_after (mux : OverlayMux) (idd newEndpoint : String) (events : List SendEvent) :
    (after mux idd events).toTasks idd =
      Tasks.after mux idd newEndpoint (events.map (SendEvent.toEvent idd)) := by
  induction events using List.reverseRecOn with
  | nil => rfl
  | append_singleton events e ih =>
    rw [after, List.foldl_concat, toTasks_step idd newEndpoint, List.map_append, List.map_singleton,
      Tasks.after_concat, ← ih, after]

/-! ## What is claimed, and when -/

/-- Every send has returned from `establish`. -/
def Complete (s : Sends) : Prop := ∀ call ∈ s.calls, ∃ result, call.phase = .returned result

/-- One send has opened a connection, every send uses that one, and one connection is counted. -/
structure EstablishedOnce (mux : OverlayMux) (s : Sends) : Prop where
  connection : ∃ c < s.calls.length, ∀ i call, s.calls[i]? = some call →
    (call.opened = true ↔ i = c) ∧ call.uses = some c ∧ ∃ peer, call.phase = .returned (.ok peer)
  counted : s.mux.peersConnected = mux.peersConnected + 1

/-- While a send finds no live connection, no other is on the way to a connection of its own. -/
def Alone (idd : String) (s : Sends) : SendEvent → Prop
  | .send => True
  | .run i _ => ∀ call, s.calls[i]? = some call → call.phase = .findPeer → ¬ s.mux.IsLive idd →
      ∀ other ∈ s.calls, other.phase.stage.busy = false

/-- The resolver finds the identity: in its cache if it is not in the registry, or else with an API
that knows it. -/
def Resolves (idd : String) (s : Sends) : SendEvent → Prop
  | .send => True
  | .run i a => ∀ call, s.calls[i]? = some call →
      (call.phase = .lookCache → s.mux.resolver.lookupCache a.now (normalize idd) ≠ none ∨
        s.mux.resolver.apiEndpoint ≠ none) ∧
      (call.phase = .askApi → OverlayResolver.accepted a.api ≠ none)

end Sends

/-! ## What a phase does -/

section Phase

variable {mux : OverlayMux} {idd : String} {a : Answer} {e : Establish}

/-- The stage after a phase, when connections succeed. -/
theorem Establish.step_stage (mux : OverlayMux) (idd : String) (e : Establish)
    (ha : a.Succeeds) :
    match e.stage with
    | .start => (mux.IsLive idd → (e.step mux idd a).2.stage = .done) ∧
        (¬ mux.IsLive idd → (e.step mux idd a).2.stage = .opening)
    | .opening => (e.step mux idd a).2.stage = .opening ∨ (e.step mux idd a).2.stage = .opened ∨
        (e.step mux idd a).2.stage = .failed
    | .opened => (e.step mux idd a).2.stage = .done
    | .done => (e.step mux idd a).2.stage = .done
    | .failed => (e.step mux idd a).2.stage = .failed := by
  cases e with
  | findPeer =>
    simp only [stage, step, OverlayMux.IsLive]
    cases mux.peers idd with
    | none => simp
    | some peer => cases hclosed : peer.closed <;> simp [hclosed]
  | touch peer => rfl
  | lookLocal =>
    cases hlocal : mux.resolver.lookupLocal (normalize idd) <;> simp [stage, step, hlocal]
  | lookCache =>
    cases hcache : mux.resolver.lookupCache a.now (normalize idd) with
    | some result => simp [stage, step, hcache]
    | none => cases hapi : mux.resolver.apiEndpoint <;> simp [stage, step, hcache, hapi]
  | askApi =>
    cases hanswer : OverlayResolver.accepted a.api <;> simp [stage, step, hanswer]
  | cacheAnswer result => exact .inl rfl
  | bind result => cases hbound : mux.quicEndpoint <;> simp [stage, step, hbound, ha.1]
  | connect result => simp [stage, step, ha.2]
  | store result => rfl
  | returned result => cases result <;> rfl

/-- A phase fails only in the resolver. -/
theorem Establish.step_fails (ha : a.Succeeds) (he : e.stage = .opening)
    (hfails : (e.step mux idd a).2.stage = .failed) :
    (e = .lookCache ∧ mux.resolver.lookupCache a.now (normalize idd) = none ∧
      mux.resolver.apiEndpoint = none) ∨
      (e = .askApi ∧ OverlayResolver.accepted a.api = none) := by
  cases e with
  | lookLocal =>
    simp only [step] at hfails
    split at hfails <;> cases hfails
  | lookCache =>
    simp only [step] at hfails
    cases hcache : mux.resolver.lookupCache a.now (normalize idd) with
    | some result =>
      rw [hcache] at hfails
      cases hfails
    | none =>
      cases hapi : mux.resolver.apiEndpoint with
      | none => exact .inl ⟨rfl, rfl, rfl⟩
      | some apiUrl =>
        simp only [hcache, hapi, Option.isSome_some, if_true] at hfails
        cases hfails
  | askApi =>
    simp only [step] at hfails
    cases hanswer : OverlayResolver.accepted a.api with
    | none => exact .inr ⟨rfl, rfl⟩
    | some result =>
      rw [hanswer] at hfails
      cases hfails
  | cacheAnswer result => cases hfails
  | bind result =>
    simp only [step, ha.1] at hfails
    split at hfails <;> cases hfails
  | connect result =>
    simp only [step, ha.2] at hfails
    cases hfails
  | findPeer => cases he
  | touch peer => cases he
  | store result => cases he
  | returned result => cases result <;> cases he

theorem Establish.step_peersConnected : (e.step mux idd a).1.peersConnected =
    match e with
    | .store _ => mux.peersConnected + 1
    | _ => mux.peersConnected := by
  cases e <;> simp only [step] <;> (repeat' split) <;> rfl

/-- Only a call that stores its connection changes the connections, and their number. -/
theorem Establish.step_quiet (mux : OverlayMux) (idd : String) (a : Answer)
    (h : e.stage ≠ .opened) :
    (e.step mux idd a).1.peers = mux.peers ∧
      (e.step mux idd a).1.peersConnected = mux.peersConnected := by
  rw [step_peers, step_peersConnected]
  cases e with
  | store result => exact absurd rfl h
  | _ => exact ⟨rfl, rfl⟩

theorem Establish.step_stores (mux : OverlayMux) (idd : String) (a : Answer)
    (h : e.stage = .opened) :
    (e.step mux idd a).1.IsLive idd ∧
      (e.step mux idd a).1.peersConnected = mux.peersConnected + 1 := by
  cases e with
  | store result => exact ⟨⟨_, Function.update_self _ _ _, rfl⟩, rfl⟩
  | returned result => cases result <;> cases h
  | _ => cases h

/-- A registered identity is found in the registry, not in the cache or by the API. -/
theorem Establish.step_registered {entry : String × Float}
    (hentry : mux.resolver.localRegistry (normalize idd) = some entry)
    (he : e ≠ .lookCache ∧ e ≠ .askApi) :
    (e.step mux idd a).2 ≠ .lookCache ∧ (e.step mux idd a).2 ≠ .askApi := by
  cases e with
  | lookLocal => simp [step, OverlayResolver.lookupLocal, hentry]
  | lookCache => exact absurd rfl he.1
  | askApi => exact absurd rfl he.2
  | _ =>
    simp only [step]
    (repeat' split) <;> simp

/-- The number of phases a call has left at most. -/
def Establish.rank : Establish → Nat
  | .findPeer => 8
  | .touch _ => 1
  | .lookLocal => 7
  | .lookCache => 6
  | .askApi => 5
  | .cacheAnswer _ => 4
  | .bind _ => 3
  | .connect _ => 2
  | .store _ => 1
  | .returned _ => 0

theorem Establish.step_rank (mux : OverlayMux) (idd : String) (a : Answer) (e : Establish) :
    (e.step mux idd a).2.rank ≤ e.rank - 1 := by
  cases e <;> simp only [step] <;> (repeat' split) <;> simp [rank]

theorem Establish.rank_le (e : Establish) : e.rank ≤ 8 := by
  cases e <;> simp [rank]

theorem Establish.rank_zero (h : e.rank = 0) : ∃ result, e = .returned result := by
  cases e with
  | returned result => exact ⟨result, rfl⟩
  | _ => cases h

/-- A call that has not looked yet is at its look-up. -/
theorem Establish.stage_start (h : e.stage = .start) : e = .findPeer := by
  cases e with
  | findPeer => rfl
  | returned result => cases result <;> cases h
  | _ => cases h

end Phase

/-! ## What an event does -/

namespace Sends

variable {s : Sends} {idd : String} {i : Nat} {a : Answer} {call : Call}

theorem step_run (h : s.calls[i]? = some call) :
    s.step idd (.run i a) =
      { mux := (call.phase.step s.mux idd a).1
        calls := s.calls.set i (call.next i s.holder (call.phase.step s.mux idd a).2)
        holder := if call.phase.stage = .opened then some i else s.holder } := by
  simp only [step, h]

theorem step_run_none (h : s.calls[i]? = none) : s.step idd (.run i a) = s := by
  simp only [step, h]

/-- The calls after a run of call `i`: only that one has changed. -/
theorem getElem?_run (h : s.calls[i]? = some call) (j : Nat) :
    (s.step idd (.run i a)).calls[j]? =
      if i = j then some (call.next i s.holder (call.phase.step s.mux idd a).2)
      else s.calls[j]? := by
  obtain ⟨hlt, -⟩ := List.getElem?_eq_some_iff.mp h
  rw [step_run h, List.getElem?_set]
  simp only [hlt, if_true]

/-- A call after an event is as it was, or has run. -/
theorem call_step (idd : String) {j : Nat} {other : Call} (h : s.calls[j]? = some other)
    (e : SendEvent) :
    ∃ later, (s.step idd e).calls[j]? = some later ∧
      (later = other ∨ ∃ a, e = .run j a ∧
        later = other.next j s.holder (other.phase.step s.mux idd a).2) := by
  cases e with
  | send =>
    obtain ⟨hlt, -⟩ := List.getElem?_eq_some_iff.mp h
    exact ⟨other, by rw [step, List.getElem?_append_left hlt, h], .inl rfl⟩
  | run i a =>
    cases hcall : s.calls[i]? with
    | none => exact ⟨other, by rw [step_run_none hcall, h], .inl rfl⟩
    | some call =>
      rw [getElem?_run hcall]
      by_cases hij : i = j
      · subst hij
        obtain rfl : call = other := Option.some.inj (hcall.symm.trans h)
        exact ⟨_, if_pos rfl, .inr ⟨a, rfl, rfl⟩⟩
      · exact ⟨other, by rw [if_neg hij, h], .inl rfl⟩

theorem after_concat (mux : OverlayMux) (idd : String) (events : List SendEvent) (e : SendEvent) :
    after mux idd (events ++ [e]) = (after mux idd events).step idd e :=
  List.foldl_concat _ _ e events

/-! ## Runs that go wrong -/

/-- A call that has opened a connection or is about to. -/
def Committed (call : Call) : Prop := call.opened = true ∨ call.phase.stage = .opening

/-- A send has failed, or two sends each open a connection. -/
def Spoilt (s : Sends) : Prop :=
  (∃ call ∈ s.calls, call.phase.stage = .failed) ∨
    ∃ (i j : Nat) (ci cj : Call), i ≠ j ∧ s.calls[i]? = some ci ∧ s.calls[j]? = some cj ∧
      Committed ci ∧ Committed cj

/-- The call after its next phase. -/
theorem failed_next (ha : a.Succeeds) (h : call.phase.stage = .failed) (holder : Option Nat)
    (mux : OverlayMux) :
    (call.next i holder (call.phase.step mux idd a).2).phase.stage = .failed := by
  have hstage := Establish.step_stage mux idd call.phase ha
  rw [h] at hstage
  exact hstage

theorem committed_next (ha : a.Succeeds) (h : Committed call) (holder : Option Nat)
    (mux : OverlayMux) :
    Committed (call.next i holder (call.phase.step mux idd a).2) ∨
      (call.next i holder (call.phase.step mux idd a).2).phase.stage = .failed := by
  rcases h with hopened | hopening
  · exact .inl (.inl (by simp [Call.next, hopened]))
  · have hstage := Establish.step_stage mux idd call.phase ha
    rw [hopening] at hstage
    rcases hstage with hstage | hstage | hstage
    · exact .inl (.inr hstage)
    · exact .inl (.inl (by simp [Call.next, hstage]))
    · exact .inr hstage

/-- A committed call is committed or failed after any event. -/
theorem committed_step (idd : String) {e : SendEvent} (he : e.Succeeds) {j : Nat}
    {other : Call} (hother : s.calls[j]? = some other) (h : Committed other) :
    ∃ later, (s.step idd e).calls[j]? = some later ∧
      (Committed later ∨ later.phase.stage = .failed) := by
  obtain ⟨later, hlater, rfl | ⟨a, rfl, rfl⟩⟩ := call_step idd hother e
  · exact ⟨later, hlater, .inl h⟩
  · exact ⟨_, hlater, committed_next he h s.holder s.mux⟩

/-- No event repairs a run that has gone wrong. -/
theorem Spoilt.step {e : SendEvent} (he : e.Succeeds) (h : s.Spoilt) : (s.step idd e).Spoilt := by
  rcases h with ⟨failed, hmem, hfailed⟩ | ⟨i, j, ci, cj, hij, hi, hj, hci, hcj⟩
  · obtain ⟨j, hj⟩ := List.mem_iff_getElem?.mp hmem
    obtain ⟨later, hlater, rfl | ⟨a, rfl, rfl⟩⟩ := call_step idd hj e
    · exact .inl ⟨later, List.mem_of_getElem? hlater, hfailed⟩
    · exact .inl ⟨_, List.mem_of_getElem? hlater, failed_next he hfailed s.holder s.mux⟩
  · obtain ⟨di, hdi, hci | hfailed⟩ := committed_step idd he hi hci
    · obtain ⟨dj, hdj, hcj | hfailed⟩ := committed_step idd he hj hcj
      · exact .inr ⟨i, j, di, dj, hij, hdi, hdj, hci, hcj⟩
      · exact .inl ⟨dj, List.mem_of_getElem? hdj, hfailed⟩
    · exact .inl ⟨di, List.mem_of_getElem? hdi, hfailed⟩

theorem Spoilt.not_once (h : s.Spoilt) (mux : OverlayMux) : ¬ EstablishedOnce mux s := by
  rintro ⟨⟨c, -, hall⟩, -⟩
  rcases h with ⟨failed, hmem, hfailed⟩ | ⟨i, j, ci, cj, hij, hi, hj, hci, hcj⟩
  · obtain ⟨j, hj⟩ := List.mem_iff_getElem?.mp hmem
    obtain ⟨-, -, peer, hpeer⟩ := hall j failed hj
    rw [hpeer] at hfailed
    cases hfailed
  · have hopened : ∀ k ck, s.calls[k]? = some ck → Committed ck → k = c := by
      intro k ck hk hck
      obtain ⟨hiff, -, peer, hpeer⟩ := hall k ck hk
      refine hiff.mp (hck.resolve_right fun hopening => ?_)
      rw [hpeer] at hopening
      cases hopening
    exact hij ((hopened i ci hi hci).trans (hopened j cj hj hcj).symm)

/-- A call that is about to store has opened its connection. -/
def Recorded (s : Sends) : Prop :=
  ∀ call ∈ s.calls, call.phase.stage = .opened → call.opened = true

theorem recorded_step (h : s.Recorded) (e : SendEvent) : (s.step idd e).Recorded := by
  intro later hlater hstage
  cases e with
  | send =>
    rcases List.mem_append.mp hlater with hlater | hlater
    · exact h later hlater hstage
    · obtain rfl := List.mem_singleton.mp hlater
      cases hstage
  | run i a =>
    cases hcall : s.calls[i]? with
    | none =>
      rw [step_run_none hcall] at hlater
      exact h later hlater hstage
    | some call =>
      rw [step_run hcall] at hlater
      rcases List.mem_or_eq_of_mem_set hlater with hlater | rfl
      · exact h later hlater hstage
      · replace hstage : (call.phase.step s.mux idd a).2.stage = .opened := hstage
        simp [Call.next, hstage]

/-- A send that looks for a connection while another is on the way to one opens a second one. -/
theorem spoilt_of_not_alone (hrecorded : s.Recorded) {i : Nat} {a : Answer} (ha : a.Succeeds)
    (h : ¬ s.Alone idd (.run i a)) : (s.step idd (.run i a)).Spoilt := by
  simp only [Alone, not_forall] at h
  obtain ⟨call, hcall, hphase, hlive, other, hother, hbusy⟩ := h
  rw [Bool.not_eq_false] at hbusy
  obtain ⟨j, hj⟩ := List.mem_iff_getElem?.mp hother
  have hstage := Establish.step_stage s.mux idd call.phase ha
  rw [hphase] at hstage
  have hopening : (call.phase.step s.mux idd a).2.stage = .opening := by
    rw [hphase]
    exact hstage.2 hlive
  have hij : i ≠ j := by
    rintro rfl
    obtain rfl : call = other := Option.some.inj (hcall.symm.trans hj)
    rw [hphase] at hbusy
    cases hbusy
  have hcommitted : Committed other := by
    rcases Stage.busy_cases hbusy with hopening | hopened
    · exact .inr hopening
    · exact .inl (hrecorded other hother hopened)
  refine .inr ⟨i, j, call.next i s.holder (call.phase.step s.mux idd a).2, other, hij, ?_, ?_,
    .inr hopening, hcommitted⟩
  · rw [getElem?_run hcall, if_pos rfl]
  · rw [getElem?_run hcall, if_neg hij, hj]

/-- A send whose identity is not found fails. -/
theorem spoilt_of_not_resolves {i : Nat} {a : Answer} (h : ¬ s.Resolves idd (.run i a)) :
    (s.step idd (.run i a)).Spoilt := by
  simp only [Resolves, not_forall] at h
  obtain ⟨call, hcall, hnot⟩ := h
  have hfailed : (call.phase.step s.mux idd a).2.stage = .failed := by
    rw [not_and_or] at hnot
    rcases hnot with hcache | hanswer
    · simp only [not_forall, not_or, not_not] at hcache
      obtain ⟨hphase, hcache, hapi⟩ := hcache
      rw [hphase]
      simp [Establish.step, Establish.stage, hcache, hapi]
    · simp only [not_forall, not_not] at hanswer
      obtain ⟨hphase, hanswer⟩ := hanswer
      rw [hphase]
      simp [Establish.step, Establish.stage, hanswer]
  refine .inl ⟨call.next i s.holder (call.phase.step s.mux idd a).2, ?_, hfailed⟩
  rw [step_run hcall]
  obtain ⟨hlt, -⟩ := List.getElem?_eq_some_iff.mp hcall
  exact List.mem_set hlt _

/-- An event that does not meet the condition spoils the run. -/
theorem spoilt_of_not_smooth (hrecorded : s.Recorded) {e : SendEvent} (he : e.Succeeds)
    (h : ¬ (s.Alone idd e ∧ s.Resolves idd e)) : (s.step idd e).Spoilt := by
  cases e with
  | send => exact absurd ⟨trivial, trivial⟩ h
  | run i a =>
    rcases not_and_or.mp h with halone | hresolves
    · exact spoilt_of_not_alone hrecorded he halone
    · exact spoilt_of_not_resolves hresolves

/-! ## Runs that go right -/

/-- What holds in every state of a run that meets the condition: before a connection is stored at
most one send is on the way to one, and once it is stored every send that has looked uses it. -/
structure Single (connected : UInt64) (idd : String) (s : Sends) : Prop where
  one : ∀ (i j : Nat) (ci cj : Call), s.calls[i]? = some ci → s.calls[j]? = some cj →
    ci.phase.stage.busy = true → cj.phase.stage.busy = true → i = j
  vacant : s.holder = none → s.mux.peers idd = none ∧ s.mux.peersConnected = connected ∧
    ∀ call ∈ s.calls, (call.phase.stage = .start ∨ call.phase.stage.busy = true) ∧
      (call.opened = true ↔ call.phase.stage = .opened)
  held : ∀ c, s.holder = some c → c < s.calls.length ∧ s.mux.IsLive idd ∧
    s.mux.peersConnected = connected + 1 ∧
    ∀ (i : Nat) (call : Call), s.calls[i]? = some call → (call.opened = true ↔ i = c) ∧
      (call.phase.stage = .start ∨ call.phase.stage = .done ∧ call.uses = some c)

variable {connected : UInt64}

theorem Single.send (h : s.Single connected idd) : (s.step idd .send).Single connected idd := by
  have hnew : ∀ (j : Nat) (call : Call), (s.step idd .send).calls[j]? = some call →
      s.calls[j]? = some call ∨ s.calls.length ≤ j ∧ call = ⟨.findPeer, false, none⟩ := by
    intro j call hcall
    simp only [Sends.step, List.getElem?_append] at hcall
    split at hcall
    · exact .inl hcall
    · next hlt => exact .inr ⟨not_lt.mp hlt, List.mem_singleton.mp (List.mem_of_getElem? hcall)⟩
  refine ⟨?_, ?_, ?_⟩
  · intro i j ci cj hi hj hci hcj
    rcases hnew i ci hi with hi | ⟨-, rfl⟩
    · rcases hnew j cj hj with hj | ⟨-, rfl⟩
      · exact h.one i j ci cj hi hj hci hcj
      · cases hcj
    · cases hci
  · intro hholder
    obtain ⟨hpeers, hcount, hcalls⟩ := h.vacant hholder
    refine ⟨hpeers, hcount, fun call hcall => ?_⟩
    rcases List.mem_append.mp hcall with hcall | hcall
    · exact hcalls call hcall
    · obtain rfl := List.mem_singleton.mp hcall
      exact ⟨.inl rfl, by simp [Establish.stage]⟩
  · intro c hholder
    obtain ⟨hlt, hlive, hcount, hcalls⟩ := h.held c hholder
    refine ⟨?_, hlive, hcount, fun i call hcall => ?_⟩
    · simp only [Sends.step, List.length_append]
      exact Nat.lt_add_right _ hlt
    · rcases hnew i call hcall with hcall | ⟨hle, rfl⟩
      · exact hcalls i call hcall
      · refine ⟨?_, .inl rfl⟩
        simp only [Bool.false_eq_true, false_iff]
        omega

/-- A phase that stores no connection keeps the invariant if the call that runs fits into it. -/
theorem Single.quiet (h : s.Single connected idd) (hcall : s.calls[i]? = some call)
    (hstage : call.phase.stage ≠ .opened) {next : Call}
    (hnext : next = call.next i s.holder (call.phase.step s.mux idd a).2)
    (hbusy : next.phase.stage.busy = true → ∀ (j : Nat) (other : Call), s.calls[j]? = some other →
      other.phase.stage.busy = true → i = j)
    (hvacant : s.holder = none → (next.phase.stage = .start ∨ next.phase.stage.busy = true) ∧
      (next.opened = true ↔ next.phase.stage = .opened))
    (hheld : ∀ c, s.holder = some c → (next.opened = true ↔ i = c) ∧
      (next.phase.stage = .start ∨ next.phase.stage = .done ∧ next.uses = some c)) :
    (s.step idd (.run i a)).Single connected idd := by
  obtain ⟨hpeers, hcount⟩ := Establish.step_quiet s.mux idd a hstage
  have hget : ∀ (j : Nat) (cj : Call), (s.step idd (.run i a)).calls[j]? = some cj →
      i = j ∧ cj = next ∨ i ≠ j ∧ s.calls[j]? = some cj := by
    intro j cj hj
    rw [getElem?_run hcall, ← hnext] at hj
    split at hj
    · next hij => exact .inl ⟨hij, (Option.some.inj hj).symm⟩
    · next hij => exact .inr ⟨hij, hj⟩
  have hholder : (s.step idd (.run i a)).holder = s.holder := by
    rw [step_run hcall]
    exact if_neg hstage
  have hmux : (s.step idd (.run i a)).mux = (call.phase.step s.mux idd a).1 := by
    rw [step_run hcall]
  have hlength : (s.step idd (.run i a)).calls.length = s.calls.length := by
    rw [step_run hcall]
    exact List.length_set
  refine ⟨?_, ?_, ?_⟩
  · intro j k cj ck hj hk hcj hck
    rcases hget j cj hj with ⟨rfl, rfl⟩ | ⟨hij, hj⟩
    · rcases hget k ck hk with ⟨rfl, rfl⟩ | ⟨hik, hk⟩
      · rfl
      · exact hbusy hcj k ck hk hck
    · rcases hget k ck hk with ⟨rfl, rfl⟩ | ⟨hik, hk⟩
      · exact (hbusy hck j cj hj hcj).symm
      · exact h.one j k cj ck hj hk hcj hck
  · intro hnone
    rw [hholder] at hnone
    obtain ⟨hvacantPeers, hconnected, hcalls⟩ := h.vacant hnone
    refine ⟨?_, ?_, fun cj hmem => ?_⟩
    · rw [hmux, hpeers, hvacantPeers]
    · rw [hmux, hcount, hconnected]
    · obtain ⟨j, hj⟩ := List.mem_iff_getElem?.mp hmem
      rcases hget j cj hj with ⟨-, rfl⟩ | ⟨-, hj⟩
      · exact hvacant hnone
      · exact hcalls cj (List.mem_of_getElem? hj)
  · intro c hsome
    rw [hholder] at hsome
    obtain ⟨hlt, ⟨peer, hpeer, hopen⟩, hconnected, hcalls⟩ := h.held c hsome
    refine ⟨?_, ⟨peer, ?_, hopen⟩, ?_, fun j cj hj => ?_⟩
    · rw [hlength]
      exact hlt
    · rw [hmux, hpeers, hpeer]
    · rw [hmux, hcount, hconnected]
    · rcases hget j cj hj with ⟨rfl, rfl⟩ | ⟨-, hj⟩
      · exact hheld c hsome
      · exact hcalls j cj hj

/-- While a send is on the way to a connection, none is stored. -/
theorem Single.not_held (h : s.Single connected idd) (hcall : s.calls[i]? = some call)
    (hbusy : call.phase.stage.busy = true) : s.holder = none := by
  by_contra hsome
  obtain ⟨c, hc⟩ := Option.ne_none_iff_exists'.mp hsome
  obtain ⟨-, hstart | ⟨hdone, -⟩⟩ := (h.held c hc).2.2.2 i call hcall
  · rw [hstart] at hbusy
    cases hbusy
  · rw [hdone] at hbusy
    cases hbusy

/-- A send that has returned, or is about to, has found a stored connection. -/
theorem Single.held_of_idle (h : s.Single connected idd) (hcall : s.calls[i]? = some call)
    (hstart : call.phase.stage ≠ .start) (hidle : call.phase.stage.busy = false) :
    ∃ c, s.holder = some c ∧ call.phase.stage = .done ∧ call.uses = some c := by
  cases hholder : s.holder with
  | none =>
    obtain ⟨hsame | hbusy, -⟩ := (h.vacant hholder).2.2 call (List.mem_of_getElem? hcall)
    · exact absurd hsame hstart
    · rw [hidle] at hbusy
      cases hbusy
  | some c =>
    exact ⟨c, rfl, ((h.held c hholder).2.2.2 i call hcall).2.resolve_left hstart⟩

/-- A send looks for a live connection: it uses the one that is there, or it is alone. -/
theorem Single.look (h : s.Single connected idd) (ha : a.Succeeds)
    (halone : s.Alone idd (.run i a)) (hcall : s.calls[i]? = some call)
    (hstage : call.phase.stage = .start) : (s.step idd (.run i a)).Single connected idd := by
  have hphase := Establish.stage_start hstage
  have hnext := Establish.step_stage s.mux idd call.phase ha
  rw [hstage] at hnext
  have hne : call.phase.stage ≠ .opened := by
    rw [hstage]
    exact Stage.noConfusion
  by_cases hlive : s.mux.IsLive idd
  · have hdone := hnext.1 hlive
    refine h.quiet hcall hne rfl (fun hbusy => ?_) (fun hnone => ?_) (fun c hsome => ?_)
    · simp [Call.next, hdone, Stage.busy] at hbusy
    · obtain ⟨peer, hpeer, -⟩ := hlive
      rw [(h.vacant hnone).1] at hpeer
      cases hpeer
    · obtain ⟨hopened, -⟩ := (h.held c hsome).2.2.2 i call hcall
      refine ⟨?_, .inr ⟨hdone, ?_⟩⟩
      · rw [← hopened]
        simp [Call.next, hdone]
      · simp only [Call.next, hstage, hdone]
        exact hsome
  · have hopening := hnext.2 hlive
    refine h.quiet hcall hne rfl (fun _ j other hj hbusy => ?_) (fun hnone => ?_)
      (fun c hsome => absurd (h.held c hsome).2.1 hlive)
    · rw [halone call hcall hphase hlive other (List.mem_of_getElem? hj)] at hbusy
      cases hbusy
    · obtain ⟨-, hopened⟩ := (h.vacant hnone).2.2 call (List.mem_of_getElem? hcall)
      rw [hstage] at hopened
      refine ⟨.inr ?_, ?_⟩
      · simp [Call.next, hopening, Stage.busy]
      · simp only [Call.next, hopening]
        simpa using hopened

/-- A send is on the way to a connection of its own. -/
theorem Single.opens (h : s.Single connected idd) (ha : a.Succeeds)
    (hresolves : s.Resolves idd (.run i a)) (hcall : s.calls[i]? = some call)
    (hstage : call.phase.stage = .opening) : (s.step idd (.run i a)).Single connected idd := by
  have hbusy : call.phase.stage.busy = true := by rw [hstage]; rfl
  have hnext := Establish.step_stage s.mux idd call.phase ha
  rw [hstage] at hnext
  have hsucceeds : (call.phase.step s.mux idd a).2.stage ≠ .failed := by
    intro hfailed
    obtain ⟨hcache, hanswer⟩ := hresolves call hcall
    rcases Establish.step_fails ha hstage hfailed with ⟨hphase, hnocache, hnoapi⟩ | ⟨hphase, hno⟩
    · exact (hcache hphase).elim (absurd hnocache) (absurd hnoapi)
    · exact hanswer hphase hno
  refine h.quiet hcall (by rw [hstage]; exact Stage.noConfusion) rfl
    (fun _ j other hj hother => h.one i j call other hcall hj hbusy hother) (fun hnone => ?_)
    (fun c hsome => ?_)
  · obtain ⟨-, hopened⟩ := (h.vacant hnone).2.2 call (List.mem_of_getElem? hcall)
    rw [hstage] at hopened
    rcases hnext with hopening | hopen | hfailed
    · simp only [Call.next, hopening, Stage.busy]
      simpa using hopened
    · simp [Call.next, hopen, Stage.busy]
    · exact absurd hfailed hsucceeds
  · rw [h.not_held hcall hbusy] at hsome
    cases hsome

/-- A send stores its connection: from now on it is the one that all sends find. -/
theorem Single.stores (h : s.Single connected idd) (ha : a.Succeeds)
    (hcall : s.calls[i]? = some call) (hstage : call.phase.stage = .opened) :
    (s.step idd (.run i a)).Single connected idd := by
  have hbusy : call.phase.stage.busy = true := by rw [hstage]; rfl
  have hnext := Establish.step_stage s.mux idd call.phase ha
  rw [hstage] at hnext
  obtain ⟨hlive, hcount⟩ := Establish.step_stores s.mux idd a hstage
  obtain ⟨-, hconnected, hcalls⟩ := h.vacant (h.not_held hcall hbusy)
  have hopened : call.opened = true := (hcalls call (List.mem_of_getElem? hcall)).2.mpr hstage
  have hothers : ∀ (j : Nat) (cj : Call), i ≠ j → s.calls[j]? = some cj →
      cj.phase.stage = .start ∧ cj.opened = false := by
    intro j cj hij hj
    obtain ⟨hstart | hcj, hiff⟩ := hcalls cj (List.mem_of_getElem? hj)
    · rw [hstart] at hiff
      exact ⟨hstart, by simpa using hiff⟩
    · exact absurd (h.one i j call cj hcall hj hbusy hcj) hij
  have hafter : ∀ (j : Nat) (cj : Call), (s.step idd (.run i a)).calls[j]? = some cj →
      (cj.opened = true ↔ j = i) ∧
        (cj.phase.stage = .start ∨ cj.phase.stage = .done ∧ cj.uses = some i) := by
    intro j cj hj
    rw [getElem?_run hcall] at hj
    split at hj
    · next hij =>
      obtain rfl := Option.some.inj hj
      refine ⟨by simp [Call.next, hopened, hij], .inr ⟨hnext, ?_⟩⟩
      simp only [Call.next, hstage]
    · next hij =>
      obtain ⟨hstart, hclosed⟩ := hothers j cj hij hj
      exact ⟨by simp [hclosed, Ne.symm hij], .inl hstart⟩
  have hholder : (s.step idd (.run i a)).holder = some i := by
    rw [step_run hcall]
    exact if_pos hstage
  refine ⟨?_, ?_, ?_⟩
  · intro j k cj ck hj _ hcj _
    rcases (hafter j cj hj).2 with hstart | ⟨hdone, -⟩
    · rw [hstart] at hcj
      cases hcj
    · rw [hdone] at hcj
      cases hcj
  · intro hvacant
    rw [hholder] at hvacant
    cases hvacant
  · intro c hc
    obtain rfl := Option.some.inj (hholder.symm.trans hc)
    refine ⟨?_, ?_, ?_, hafter⟩
    · rw [step_run hcall]
      simpa using (List.getElem?_eq_some_iff.mp hcall).1
    · rw [step_run hcall]
      exact hlive
    · rw [step_run hcall]
      exact hcount.trans (by rw [hconnected])

/-- A send that has a connection goes on with it. -/
theorem Single.finishes (h : s.Single connected idd) (ha : a.Succeeds)
    (hcall : s.calls[i]? = some call) (hstage : call.phase.stage = .done) :
    (s.step idd (.run i a)).Single connected idd := by
  have hdone := Establish.step_stage s.mux idd call.phase ha
  rw [hstage] at hdone
  obtain ⟨c, hholder, -, huses⟩ := h.held_of_idle hcall
    (by rw [hstage]; exact Stage.noConfusion) (by rw [hstage]; rfl)
  refine h.quiet hcall (by rw [hstage]; exact Stage.noConfusion) rfl (fun hbusy => ?_)
    (fun hnone => ?_) (fun c' hsome => ?_)
  · simp [Call.next, hdone, Stage.busy] at hbusy
  · rw [hholder] at hnone
    cases hnone
  · obtain rfl := Option.some.inj (hholder.symm.trans hsome)
    refine ⟨?_, .inr ⟨hdone, ?_⟩⟩
    · rw [← ((h.held c hholder).2.2.2 i call hcall).1]
      simp [Call.next, hdone]
    · simp only [Call.next, hstage]
      exact huses

/-- Every event that meets the condition keeps the invariant. -/
theorem Single.step (h : s.Single connected idd) {e : SendEvent} (he : e.Succeeds)
    (halone : s.Alone idd e) (hresolves : s.Resolves idd e) :
    (s.step idd e).Single connected idd := by
  cases e with
  | send => exact h.send
  | run i a =>
    cases hcall : s.calls[i]? with
    | none => rwa [step_run_none hcall]
    | some call =>
      cases hstage : call.phase.stage with
      | start => exact h.look he halone hcall hstage
      | opening => exact h.opens he hresolves hcall hstage
      | opened => exact h.stores he hcall hstage
      | done => exact h.finishes he hcall hstage
      | failed =>
        obtain ⟨-, -, hdone, -⟩ := h.held_of_idle hcall (by rw [hstage]; exact Stage.noConfusion)
          (by rw [hstage]; rfl)
        rw [hstage] at hdone
        cases hdone

/-- When all sends of such a run have returned, they share one connection. -/
theorem Single.once {mux : OverlayMux} (h : s.Single mux.peersConnected idd)
    (hcomplete : s.Complete) (hsome : s.calls ≠ []) : EstablishedOnce mux s := by
  have hfinished : ∀ (i : Nat) (call : Call), s.calls[i]? = some call →
      ∃ c, s.holder = some c ∧ call.uses = some c ∧ ∃ peer, call.phase = .returned (.ok peer) := by
    intro i call hcall
    obtain ⟨result, hresult⟩ := hcomplete call (List.mem_of_getElem? hcall)
    have hstart : call.phase.stage ≠ .start := by
      rw [hresult]
      cases result <;> exact Stage.noConfusion
    have hidle : call.phase.stage.busy = false := by
      rw [hresult]
      cases result <;> rfl
    obtain ⟨c, hholder, hdone, huses⟩ := h.held_of_idle hcall hstart hidle
    rw [hresult] at hdone ⊢
    cases result with
    | ok peer => exact ⟨c, hholder, huses, peer, rfl⟩
    | error e => cases hdone
  obtain ⟨call, hcall⟩ := List.exists_mem_of_ne_nil s.calls hsome
  obtain ⟨i, hi⟩ := List.mem_iff_getElem?.mp hcall
  obtain ⟨c, hholder, -, -⟩ := hfinished i call hi
  obtain ⟨hlt, -, hcount, hcalls⟩ := h.held c hholder
  refine ⟨⟨c, hlt, fun j other hj => ?_⟩, hcount⟩
  obtain ⟨c', hholder', huses, hpeer⟩ := hfinished j other hj
  obtain rfl := Option.some.inj (hholder.symm.trans hholder')
  exact ⟨(hcalls j other hj).1, huses, hpeer⟩

/-! ## Every send returns -/

/-- The number of times that send `i` runs. -/
def turns (i : Nat) (events : List SendEvent) : Nat :=
  events.countP fun e =>
    match e with
    | .send => false
    | .run j _ => j == i

theorem rank_step (idd : String) (h : s.calls[i]? = some call) (e : SendEvent) :
    ∃ later, (s.step idd e).calls[i]? = some later ∧
      later.phase.rank ≤ call.phase.rank - turns i [e] := by
  obtain ⟨later, hlater, rfl | ⟨a, rfl, rfl⟩⟩ := call_step idd h e
  · refine ⟨later, hlater, ?_⟩
    cases e with
    | send => exact Nat.le_refl _
    | run j a =>
      by_cases hji : j = i
      · subst hji
        rw [getElem?_run h, if_pos rfl] at hlater
        have hsame := congrArg Call.phase (Option.some.inj hlater)
        have hrank := Establish.step_rank s.mux idd a later.phase
        replace hsame : (later.phase.step s.mux idd a).2 = later.phase := hsame
        rw [hsame] at hrank
        simpa [turns] using hrank
      · simp [turns, hji]
  · refine ⟨_, hlater, ?_⟩
    simpa [turns, Call.next] using Establish.step_rank s.mux idd a call.phase

theorem rank_run (idd : String) (h : s.calls[i]? = some call) (events : List SendEvent) :
    ∃ later, (events.foldl (step idd) s).calls[i]? = some later ∧
      later.phase.rank ≤ call.phase.rank - turns i events := by
  induction events generalizing s call with
  | nil => exact ⟨call, h, Nat.le_refl _⟩
  | cons e events ih =>
    obtain ⟨next, hnext, hrank⟩ := rank_step idd h e
    obtain ⟨later, hlater, hle⟩ := ih hnext
    refine ⟨later, hlater, ?_⟩
    have hturns : turns i (e :: events) = turns i [e] + turns i events := by
      rw [turns, turns, turns, ← List.countP_append, List.singleton_append]
    omega

/-- A send returns after eight turns, whatever the others do. -/
theorem send_returns (mux : OverlayMux) (idd : String) (before later : List SendEvent)
    (h : (after mux idd before).calls[i]? = some call) (hturns : 8 ≤ turns i later) :
    ∃ returned result, (after mux idd (before ++ later)).calls[i]? = some returned ∧
      returned.phase = .returned result := by
  obtain ⟨returned, hreturned, hrank⟩ := rank_run idd h later
  have hmost := call.phase.rank_le
  have hzero : returned.phase.rank = 0 := by omega
  obtain ⟨result, hresult⟩ := Establish.rank_zero hzero
  refine ⟨returned, result, ?_, hresult⟩
  rw [after, List.foldl_append]
  exact hreturned

/-! ## All runs -/

theorem recorded_after (mux : OverlayMux) (idd : String) (events : List SendEvent) :
    (after mux idd events).Recorded := by
  induction events using List.reverseRecOn with
  | nil => exact fun _ hcall => (nomatch hcall)
  | append_singleton events e ih =>
    rw [after_concat]
    exact recorded_step ih e

/-- What has gone wrong at some point of a run stays wrong. -/
theorem spoilt_after (mux : OverlayMux) (idd : String) {before later : List SendEvent}
    (hlater : ∀ e ∈ later, e.Succeeds) (h : (after mux idd before).Spoilt) :
    (after mux idd (before ++ later)).Spoilt := by
  induction later using List.reverseRecOn with
  | nil => rwa [List.append_nil]
  | append_singleton later e ih =>
    rw [← List.append_assoc, after_concat]
    exact Spoilt.step (hlater e (by simp)) (ih fun e' he' => hlater e' (by simp [he']))

/-- At every event, a send that finds no live connection is the only one on the way to a connection
of its own, and the resolver finds the identity. -/
def Smooth (mux : OverlayMux) (idd : String) (events : List SendEvent) : Prop :=
  Machine.AtEach (fun before e => (after mux idd before).Alone idd e ∧
    (after mux idd before).Resolves idd e) events

/-- An identity that the registry has under the name `resolve` looks up is always resolved. -/
theorem resolves_of_registered {mux : OverlayMux} {entry : String × Float}
    (h : mux.resolver.localRegistry (normalize idd) = some entry) (events : List SendEvent)
    (e : SendEvent) : (after mux idd events).Resolves idd e := by
  have hlocal : (after mux idd events).mux.resolver.localRegistry (normalize idd) = some entry ∧
      ∀ call ∈ (after mux idd events).calls, call.phase ≠ .lookCache ∧ call.phase ≠ .askApi := by
    induction events using List.reverseRecOn with
    | nil => exact ⟨h, fun _ hcall => (nomatch hcall)⟩
    | append_singleton events e ih =>
      rw [after_concat]
      obtain ⟨hentry, hcalls⟩ := ih
      cases e with
      | send =>
        refine ⟨hentry, fun call hcall => ?_⟩
        rcases List.mem_append.mp hcall with hcall | hcall
        · exact hcalls call hcall
        · obtain rfl := List.mem_singleton.mp hcall
          exact ⟨Establish.noConfusion, Establish.noConfusion⟩
      | run i a =>
        cases hcall : (after mux idd events).calls[i]? with
        | none =>
          rw [step_run_none hcall]
          exact ⟨hentry, hcalls⟩
        | some call =>
          rw [step_run hcall]
          refine ⟨?_, fun next hnext => ?_⟩
          · rw [Establish.step_localRegistry]
            exact hentry
          · rcases List.mem_or_eq_of_mem_set hnext with hnext | rfl
            · exact hcalls next hnext
            · exact Establish.step_registered hentry (hcalls call (List.mem_of_getElem? hcall))
  cases e with
  | send => trivial
  | run i a =>
    intro call hcall
    obtain ⟨hcache, hapi⟩ := hlocal.2 call (List.mem_of_getElem? hcall)
    exact ⟨fun hphase => absurd hphase hcache, fun hphase => absurd hphase hapi⟩

/-- Whatever number of sends runs in whatever order: when all have returned, one connection was
opened and all of them use it, exactly if no send looked for a connection in vain while another one
was on the way to one, and the identity was always resolved. -/
theorem established_once_iff (mux : OverlayMux) (idd : String) (hfresh : mux.peers idd = none)
    (events : List SendEvent) (hsucceeds : ∀ e ∈ events, e.Succeeds)
    (hcomplete : (after mux idd events).Complete) (hsome : (after mux idd events).calls ≠ []) :
    EstablishedOnce mux (after mux idd events) ↔ Smooth mux idd events := by
  constructor
  · intro honce before e later hevents
    subst hevents
    by_contra hnot
    have he : e.Succeeds := hsucceeds e (by simp)
    have hspoilt : (after mux idd (before ++ [e])).Spoilt := by
      rw [after_concat]
      exact spoilt_of_not_smooth (recorded_after mux idd before) he hnot
    rw [List.append_cons] at honce
    refine Spoilt.not_once (spoilt_after mux idd (fun e' he' => ?_) hspoilt) mux honce
    exact hsucceeds e' (by simp [he'])
  · intro hsmooth
    have hstart : (after mux idd []).Single mux.peersConnected idd := by
      refine ⟨fun i j ci cj hi => ?_, fun _ => ⟨hfresh, rfl, fun call hcall => ?_⟩,
        fun c hc => ?_⟩
      · cases hi
      · cases hcall
      · cases hc
    have hboth : Machine.AtEach (fun before e => e.Succeeds ∧
        (after mux idd before).Alone idd e ∧ (after mux idd before).Resolves idd e) events := by
      intro before e later hevents
      exact ⟨hsucceeds e (by simp [hevents]), hsmooth before e later hevents⟩
    have hsingle : (after mux idd events).Single mux.peersConnected idd := by
      refine Machine.run_of_atEach (q := fun events =>
        (after mux idd events).Single mux.peersConnected idd) hstart ?_ hboth
      intro before e he hbefore
      rw [after_concat]
      exact hbefore.step he.1 he.2.1 he.2.2
    exact hsingle.once hcomplete hsome

namespace Demo

open Tasks.Demo (pixel yes)

/-- Two messages at once, the second of which waits until the first has connected. -/
def shared : List SendEvent :=
  [.send, .send] ++ List.replicate 5 (.run 0 yes) ++ List.replicate 2 (.run 1 yes)

/-- Two messages at once, turn by turn. -/
def racing : List SendEvent :=
  [.send, .send, .run 0 yes, .run 1 yes, .run 0 yes, .run 1 yes, .run 0 yes, .run 1 yes,
    .run 0 yes, .run 1 yes, .run 0 yes, .run 1 yes]

end Demo

open Demo Tasks.Demo

/-- A send that does not look for a connection may run. -/
theorem alone_of_looked {phase : Establish}
    (hcall : (s.calls[i]?).map Call.phase = some phase) (hphase : phase ≠ .findPeer) :
    s.Alone idd (.run i a) := by
  intro call hsame hlooks
  rw [hsame] at hcall
  exact absurd ((Option.some.inj hcall).symm.trans hlooks) hphase

theorem smooth_shared : Smooth pixel "jis:pixel" shared := by
  have hname : normalize "jis:pixel" = "jis:pixel" := by decide
  have hentry : pixel.resolver.localRegistry (normalize "jis:pixel") =
      some ("10.0.0.42:7150", 0.95) := by
    rw [hname]
    rfl
  have halone : Machine.AtEach (fun before e =>
      (after pixel "jis:pixel" before).Alone "jis:pixel" e) shared := by
    simp only [shared, List.replicate, List.cons_append, List.nil_append, Machine.atEach_cons]
    refine ⟨trivial, trivial, ?_, ?_, ?_, ?_, ?_, ?_, ?_, Machine.atEach_nil⟩
    · intro call _ _ _ other hother
      simp only [after, List.foldl_cons, List.foldl_nil, step, List.nil_append, List.cons_append,
        List.mem_cons, List.not_mem_nil, or_false, or_self] at hother
      rw [hother]
      rfl
    · exact alone_of_looked rfl nofun
    · exact alone_of_looked rfl nofun
    · exact alone_of_looked rfl nofun
    · exact alone_of_looked rfl nofun
    · intro call _ _ hlive
      exact absurd ⟨_, rfl, rfl⟩ hlive
    · exact alone_of_looked rfl nofun
  intro before e later hevents
  exact ⟨halone before e later hevents, resolves_of_registered hentry before e⟩

theorem established_once_shared : EstablishedOnce pixel (after pixel "jis:pixel" shared) := by
  refine (established_once_iff pixel "jis:pixel" rfl shared ?_ ?_ ?_).mpr smooth_shared
  · simp [shared, SendEvent.Succeeds, Answer.Succeeds, yes]
  · intro call hcall
    rcases List.mem_cons.mp hcall with rfl | hcall
    · exact ⟨_, rfl⟩
    · obtain rfl := List.mem_singleton.mp hcall
      exact ⟨_, rfl⟩
  · exact List.cons_ne_nil _ _

/-- Both sends look before either stores: two connections are opened and counted, and each send
uses its own. -/
theorem racing_opens_two :
    let s := after pixel "jis:pixel" racing
    (∀ e ∈ racing, e.Succeeds) ∧ s.Complete ∧
      s.calls.map Call.opened = [true, true] ∧ s.calls.map Call.uses = [some 0, some 1] ∧
      s.mux.peersConnected = 2 ∧ ¬ EstablishedOnce pixel s := by
  intro s
  have hcomplete : s.Complete := by
    intro call hcall
    rcases List.mem_cons.mp hcall with rfl | hcall
    · exact ⟨_, rfl⟩
    · obtain rfl := List.mem_singleton.mp hcall
      exact ⟨_, rfl⟩
  refine ⟨by simp [racing, SendEvent.Succeeds, Answer.Succeeds, yes], hcomplete, rfl, rfl, rfl, ?_⟩
  intro honce
  have hcount : (2 : UInt64) = 1 := honce.counted
  exact absurd hcount (by decide)

end Sends

end Spaceshuttle.Overlay
