import Mathlib.Algebra.BigOperators.Group.Finset.Basic
import Mathlib.Algebra.Order.BigOperators.Group.Finset
import Spaceshuttle.Lib.Linearization

/-!
# Streams that share a connection

The streams of a service are on connections, and a connection has its limits: how many calls may be
under way on it, and how many bytes may have arrived and wait to be read, in each direction, in all and
on one stream. A call that is held up keeps its share. As long as the shares of the others leave room
for one more byte each way, a call that is under way can get its result by what happens on its own
stream alone, and no limit is passed on the way (`Implements.completes`).
-/

namespace Exchange

open ByteStream

/-- What the streams of a connection share: the calls under way, and the unread bytes of the requests
and of the answers. -/
inductive Resource where
  | calls
  | requests
  | answers
  deriving DecidableEq, Repr

/-- What a connection allows of each resource: in all, and to one stream. -/
structure Limits where
  inAll : Resource → Nat
  each : Resource → Nat

/-- The bytes that the readers of a stream have read off before they began to wait. -/
structure Meter where
  served : Nat
  taken : Nat
  deriving DecidableEq, Repr

/-- A system with a meter on every stream. -/
structure Metered {ω σ ρ : Type} (svc : Service ω σ ρ) where
  system : System svc
  meters : Nat → Meter

section Metered

variable {ω σ ρ : Type} {svc : Service ω σ ρ}

/-- A reader that waits has read all that has arrived. -/
def Meter.move (meter : Meter) (t : Stream svc) : Move svc.Local → Meter
  | .serve => { meter with served := t.inbound.bytes.length }
  | .take _ => { meter with taken := t.arrived }
  | _ => meter

namespace Stream

/-- A call is under way until its caller has ended and its handler too. -/
def isUnderWay (t : Stream svc) : Bool :=
  match t.caller with
  | .waiting => true
  | _ => !t.isOver

/-- The share of a stream. A handler that has its request and a caller that has its result read no
more, and what they leave is dropped with the stream. -/
def share (t : Stream svc) (meter : Meter) : Resource → Nat
  | .calls => if t.isUnderWay then 1 else 0
  | .requests =>
      match t.handler with
      | .reading => t.inbound.bytes.length - meter.served
      | _ => 0
  | .answers =>
      match t.caller with
      | .waiting => t.arrived - meter.taken
      | _ => 0

end Stream

namespace Metered

/-- Before the first call. -/
def new (state : σ) : Metered svc := ⟨.new state, fun _ => ⟨0, 0⟩⟩

/-- The meters after an event. -/
def metersAfter (m : Metered svc) : Event svc → Nat → Meter
  | .move i move =>
      match m.system.streams[i]? with
      | some t => Function.update m.meters i ((m.meters i).move (t.move move) move)
      | none => m.meters
  | _ => m.meters

/-- One event. -/
def step (m : Metered svc) (e : Event svc) : Metered svc × Option (Nat × ω) :=
  let (system, access) := m.system.step e
  (⟨system, m.metersAfter e⟩, access)

/-- After a run. -/
abbrev after (m : Metered svc) (events : List (Event svc)) : Metered svc :=
  Machine.run step m events

/-- The share of call `i`. -/
def share (m : Metered svc) (r : Resource) (i : Nat) : Nat :=
  match m.system.streams[i]? with
  | some t => t.share (m.meters i) r
  | none => 0

section Connections

variable {κ : Type} [DecidableEq κ] (on : Nat → κ) (limits : κ → Limits)

/-- The calls on a connection. -/
def callsOn (m : Metered svc) (c : κ) : Finset Nat :=
  (Finset.range m.system.streams.length).filter fun j => on j = c

/-- The shares of all calls on a connection. -/
def load (m : Metered svc) (c : κ) (r : Resource) : Nat := ∑ j ∈ m.callsOn on c, m.share r j

/-- The shares of the other calls on the connection of call `i`. -/
def others (m : Metered svc) (i : Nat) (r : Resource) : Nat :=
  ∑ j ∈ (m.callsOn on (on i)).erase i, m.share r j

/-- No connection is over its limits. -/
structure Within (m : Metered svc) : Prop where
  inAll : ∀ c r, m.load on c r ≤ (limits c).inAll r
  each : ∀ j < m.system.streams.length, ∀ r, m.share r j ≤ (limits (on j)).each r

/-- The other calls on the connection of call `i` leave some of a resource, and a stream may have it. -/
def RoomFor (m : Metered svc) (r : Resource) (i : Nat) : Prop :=
  m.others on i r < (limits (on i)).inAll r ∧ 0 < (limits (on i)).each r

instance (m : Metered svc) (r : Resource) (i : Nat) : Decidable (m.RoomFor on limits r i) :=
  inferInstanceAs (Decidable (_ ∧ _))

/-- The other calls on the connection of call `i` leave room for a byte each way. -/
def Room (m : Metered svc) (i : Nat) : Prop :=
  m.RoomFor on limits .requests i ∧ m.RoomFor on limits .answers i

instance (m : Metered svc) (i : Nat) : Decidable (m.Room on limits i) :=
  inferInstanceAs (Decidable (_ ∧ _))

end Connections

end Metered

/-- The event happens on the stream of call `i`. -/
def Event.On (i : Nat) : Event svc → Prop
  | .call _ => False
  | .access j _ => j = i
  | .move j _ => j = i

/-- What happens on the stream of call `i` alone can give the call its result, with no connection over
its limits on the way. -/
def Metered.CanComplete {κ : Type} [DecidableEq κ] (on : Nat → κ) (limits : κ → Limits)
    (m : Metered svc) (seen : svc.Clock → Prop) (i : Nat) : Prop :=
  ∃ more : List (Event svc), (∀ e ∈ more, e.On i) ∧ Conforms svc (fun _ => False) seen more ∧
    (∀ pre post, more = pre ++ post → (m.after pre).Within on limits) ∧
    ∃ r, (m.after more).system.result i = some r

end Metered

/-! ## Shares -/

section Shares

variable {ω σ ρ κ : Type} [DecidableEq κ] {svc : Service ω σ ρ} {on : Nat → κ}
variable {limits : κ → Limits} {m : Metered svc} {i j : Nat} {e : Event svc}

namespace Metered

/-- The meters do not change what happens. -/
theorem system_after (m : Metered svc) (events : List (Event svc)) :
    (m.after events).system = Exchange.after m.system events := by
  induction events generalizing m with
  | nil => rfl
  | cons e events ih => exact ih _

theorem system_after_new (state : σ) (events : List (Event svc)) :
    (after (.new state) events).system = Exchange.after (.new state) events :=
  system_after (.new state) events

theorem length_step (hon : e.On i) :
    (m.step e).1.system.streams.length = m.system.streams.length := by
  cases e with
  | call op => exact absurd hon id
  | move j move => exact List.length_modify _ _ _
  | access j w =>
    show (m.system.step (.access j w)).1.streams.length = _
    rcases System.step_cases m.system (.access j w) with ⟨op, h, -⟩ | ⟨k, move, h, -⟩ |
      ⟨k, w, t, task, h, -, -, hstep⟩ | hstep
    · cases h
    · cases h
    · rw [hstep]
      exact List.length_set
    · rw [hstep]

/-- What happens on one stream leaves the shares of the others. -/
theorem share_step_other (hon : e.On i) (hj : j ≠ i) (r : Resource) :
    (m.step e).1.share r j = m.share r j := by
  cases e with
  | call op => exact absurd hon id
  | move k move =>
    obtain rfl := hon
    have hstream : (m.step (.move k move)).1.system.streams[j]? = m.system.streams[j]? :=
      List.getElem?_modify_ne _ _ hj.symm
    have hmeter : (m.step (.move k move)).1.meters j = m.meters j := by
      show m.metersAfter (.move k move) j = _
      cases ht : m.system.streams[k]? with
      | none => simp only [metersAfter, ht]
      | some t => simp only [metersAfter, ht, Function.update_of_ne hj]
    unfold share
    rw [hstream, hmeter]
  | access k w =>
    obtain rfl := hon
    have hstream : (m.step (.access k w)).1.system.streams[j]? = m.system.streams[j]? := by
      show (m.system.step (.access k w)).1.streams[j]? = _
      rcases System.step_cases m.system (.access k w) with ⟨op, h, -⟩ | ⟨k', move, h, -⟩ |
        ⟨k', w', t, task, h, -, -, hstep⟩ | hstep
      · cases h
      · cases h
      · cases h
        rw [hstep]
        exact List.getElem?_set_ne hj.symm
      · rw [hstep]
    unfold share
    rw [hstream]
    rfl

theorem others_step (hon : e.On i) (r : Resource) :
    (m.step e).1.others on i r = m.others on i r := by
  unfold others callsOn
  rw [length_step hon]
  exact Finset.sum_congr rfl fun j hj => share_step_other hon (Finset.ne_of_mem_erase hj) r

theorem roomFor_step (hon : e.On i) (r : Resource) :
    (m.step e).1.RoomFor on limits r i ↔ m.RoomFor on limits r i := by
  unfold RoomFor
  rw [others_step hon]

theorem Room.step (h : m.Room on limits i) (hon : e.On i) : (m.step e).1.Room on limits i :=
  ⟨(roomFor_step hon _).mpr h.1, (roomFor_step hon _).mpr h.2⟩

/-- The load of a connection is the share of a call on it and those of the others. -/
theorem load_eq (hi : i < m.system.streams.length) (r : Resource) :
    m.load on (on i) r = m.share r i + m.others on i r :=
  (Finset.add_sum_erase _ _ (by simpa [callsOn] using hi)).symm

theorem load_step_other (hon : e.On i) {c : κ} (hc : on i ≠ c) (r : Resource) :
    (m.step e).1.load on c r = m.load on c r := by
  unfold load callsOn
  rw [length_step hon]
  refine Finset.sum_congr rfl fun j hj => share_step_other hon ?_ r
  rintro rfl
  exact hc (Finset.mem_filter.mp hj).2

theorem share_at {t : Stream svc} (ht : m.system.streams[i]? = some t) (r : Resource) :
    m.share r i = t.share (m.meters i) r := by
  unfold share
  rw [ht]

/-- A call has no more than one share of the calls. -/
theorem share_calls_le (m : Metered svc) (i : Nat) : m.share .calls i ≤ 1 := by
  unfold share
  split
  · simp only [Stream.share]
    split <;> omega
  · exact Nat.zero_le _

theorem share_calls_waiting {t : Stream svc} (ht : m.system.streams[i]? = some t)
    (hwaiting : t.caller = .waiting) : m.share .calls i = 1 := by
  rw [share_at ht]
  simp only [Stream.share, Stream.isUnderWay, hwaiting, if_true]

/-- Where the others leave room, a share that does not grow, or is a single byte, keeps the connection
within its limit. -/
theorem load_step_le (hon : e.On i) (hi : i < m.system.streams.length) {r : Resource}
    (hroom : m.RoomFor on limits r i) (hload : m.load on (on i) r ≤ (limits (on i)).inAll r)
    (hshare : (m.step e).1.share r i ≤ max 1 (m.share r i)) :
    (m.step e).1.load on (on i) r ≤ (limits (on i)).inAll r := by
  obtain ⟨hothers, -⟩ := hroom
  rw [load_eq hi] at hload
  rw [load_eq (by rwa [length_step hon]), others_step hon]
  omega

theorem Within.step {t : Stream svc} (h : m.Within on limits) (hroom : m.Room on limits i)
    (hon : e.On i) (ht : m.system.streams[i]? = some t) (hwaiting : t.caller = .waiting)
    (hrequests : (m.step e).1.share .requests i ≤ max 1 (m.share .requests i))
    (hanswers : (m.step e).1.share .answers i ≤ max 1 (m.share .answers i)) :
    (m.step e).1.Within on limits := by
  have hi := (List.getElem?_eq_some_iff.mp ht).choose
  have hcalls : (m.step e).1.share .calls i ≤ m.share .calls i :=
    (share_calls_le _ i).trans (share_calls_waiting ht hwaiting).ge
  constructor
  · intro c r
    by_cases hc : on i = c
    · subst hc
      have hbefore := h.inAll (on i) r
      cases r with
      | calls =>
        rw [load_eq hi] at hbefore
        rw [load_eq (by rwa [length_step hon]), others_step hon]
        omega
      | requests => exact load_step_le hon hi hroom.1 hbefore hrequests
      | answers => exact load_step_le hon hi hroom.2 hbefore hanswers
    · rw [load_step_other hon hc]
      exact h.inAll c r
  · intro j hj r
    rw [length_step hon] at hj
    have hbefore := h.each j hj r
    by_cases hne : j = i
    · subst hne
      obtain ⟨⟨-, hrequest⟩, -, hanswer⟩ := hroom
      cases r with
      | calls => exact hcalls.trans hbefore
      | requests => exact hrequests.trans (max_le hrequest hbefore)
      | answers => exact hanswers.trans (max_le hanswer hbefore)
    · rw [share_step_other hon hne]
      exact hbefore

/-- A move on a stream, with its meter. -/
theorem step_move_at {t : Stream svc} (ht : m.system.streams[i]? = some t) (move : Move svc.Local) :
    (m.step (.move i move)).1.system.streams[i]? = some (t.move move) ∧
      (m.step (.move i move)).1.meters i = (m.meters i).move (t.move move) move := by
  constructor
  · show (m.system.streams.modify i (Stream.move move))[i]? = _
    rw [List.getElem?_modify_eq, ht]
    rfl
  · show m.metersAfter (.move i move) i = _
    simp only [metersAfter, ht, Function.update_self]

theorem Within.move {t : Stream svc} (h : m.Within on limits) (hroom : m.Room on limits i)
    (ht : m.system.streams[i]? = some t) (hwaiting : t.caller = .waiting) (move : Move svc.Local)
    (hrequests : (t.move move).share ((m.meters i).move (t.move move) move) .requests ≤
      max 1 (t.share (m.meters i) .requests))
    (hanswers : (t.move move).share ((m.meters i).move (t.move move) move) .answers ≤
      max 1 (t.share (m.meters i) .answers)) :
    (m.step (.move i move)).1.Within on limits := by
  obtain ⟨hstream, hmeter⟩ := step_move_at ht move
  refine h.step hroom rfl ht hwaiting ?_ ?_
  · rw [share_at hstream, share_at ht, hmeter]
    exact hrequests
  · rw [share_at hstream, share_at ht, hmeter]
    exact hanswers

end Metered

end Shares

/-! ## Reading keeps up -/

section Reading

variable {ω σ ρ : Type} {svc : Service ω σ ρ}

theorem Stream.share_take (w : svc.Local) (t : Stream svc) (meter : Meter) :
    (t.move (.take w)).share (meter.move (t.move (.take w)) (.take w)) .requests =
        t.share meter .requests ∧
      (t.move (.take w)).share (meter.move (t.move (.take w)) (.take w)) .answers = 0 := by
  obtain ⟨caller, htake⟩ := t.take_eq w
  have hmove : t.move (.take w) = { t with caller := caller } := htake
  rw [hmove]
  refine ⟨rfl, ?_⟩
  cases caller with
  | waiting => exact Nat.sub_self _
  | _ => rfl

theorem Stream.share_serve (t : Stream svc) (meter : Meter) :
    (t.move .serve).share (meter.move (t.move .serve) .serve) .requests = 0 ∧
      (t.move .serve).share (meter.move (t.move .serve) .serve) .answers =
        t.share meter .answers := by
  obtain ⟨inbound, handler, hserve⟩ := t.serve_eq
  have hmove : t.move .serve = { t with inbound := inbound, handler := handler } := hserve
  rw [hmove]
  refine ⟨?_, rfl⟩
  cases handler with
  | reading => exact Nat.sub_self _
  | _ => rfl

end Reading

/-! ## Completion -/

section Completion

variable {ω σ ρ α β κ : Type} [DecidableEq κ] {svc : Service ω σ ρ} {allowed : ω → Prop}
variable {seen : svc.Clock → Prop} {inv : σ → Prop} {view : σ → α} {observe : ρ → β}
variable {spec : α → ω → α × β} {a : α} {order : List (Nat × ω)} {on : Nat → κ}
variable {limits : κ → Limits} {m : Metered svc} {i : Nat} {t : Stream svc}

namespace Metered

theorem CanComplete.of_result (hwithin : m.Within on limits) {r : ρ}
    (hr : m.system.result i = some r) : m.CanComplete on limits seen i := by
  refine ⟨[], fun e he => absurd he List.not_mem_nil, fun e he => absurd he List.not_mem_nil,
    fun pre post h => ?_, r, hr⟩
  obtain ⟨rfl, -⟩ := List.append_eq_nil_iff.mp h.symm
  exact hwithin

theorem CanComplete.after_step {e : Event svc} (h : (m.step e).1.CanComplete on limits seen i)
    (hwithin : m.Within on limits) (hon : e.On i) (he : Conforms svc (fun _ => False) seen [e]) :
    m.CanComplete on limits seen i := by
  obtain ⟨more, hmore, hconforms, hwithins, r, hr⟩ := h
  refine ⟨e :: more, List.forall_mem_cons.mpr ⟨hon, hmore⟩, ?_, fun pre post hsplit => ?_, r, hr⟩
  · exact List.forall_mem_cons.mpr ⟨he e (List.mem_singleton.mpr rfl), hconforms⟩
  · cases pre with
    | nil => exact hwithin
    | cons e' pre =>
      obtain ⟨rfl, hrest⟩ := List.cons.inj hsplit
      exact hwithins pre post hrest

theorem conforms_move (i : Nat) (move : Move svc.Local) :
    Conforms svc (fun _ => False) seen [.move i move] := by
  intro e he
  cases List.mem_singleton.mp he
  trivial

section Completes

variable (himp : Implements svc allowed seen inv view observe spec)
include himp

/-- Once the handler has answered, the caller needs the answer and nothing else: it reads what has
arrived, and while that is not enough the next byte arrives. -/
theorem canComplete_answered (l : svc.Local) {b : β} (hwithin : m.Within on limits)
    (hroom : m.Room on limits i) (ht : m.system.streams[i]? = some t)
    (hwaiting : t.caller = .waiting) (hyields : Yields svc observe t.op t.answer b) :
    m.CanComplete on limits seen i := by
  induction hn : t.answer.length - t.arrived using Nat.strong_induction_on generalizing m t with
  | _ n ih =>
    obtain ⟨hrequests, hanswers⟩ := t.share_take l (m.meters i)
    have hwithin₁ := hwithin.move hroom ht hwaiting (.take l)
      (hrequests.le.trans (Nat.le_max_right _ _)) (hanswers.le.trans (Nat.zero_le _))
    have hroom₁ : (m.step (.move i (.take l))).1.Room on limits i := hroom.step rfl
    obtain ⟨ht₁, hmeter₁⟩ := step_move_at ht (.take l)
    refine .after_step (e := .move i (.take l)) ?_ hwithin rfl (conforms_move _ _)
    rcases t.received_cases himp hyields l with ⟨hlt, s, hpending⟩ | ⟨r, rest, hrun, -⟩
    · have hsame : t.move (.take l) = t := by
        show t.take l = t
        simp only [Stream.take, hwaiting, hpending]
      rw [hsame] at ht₁ hmeter₁
      have hbytes : (t.move (.bring 1)).arrived = t.arrived + 1 := by
        show min (t.arrived + 1) t.answer.length = _
        omega
      have hone : (t.move (.bring 1)).share
          (((m.step (.move i (.take l))).1.meters i).move (t.move (.bring 1)) (.bring 1)) .answers ≤
          1 := by
        have hcaller : (t.move (.bring 1)).caller = .waiting := hwaiting
        simp only [Stream.share, hcaller, hbytes, hmeter₁, Meter.move]
        omega
      have hwithin₂ := hwithin₁.move hroom₁ ht₁ hwaiting (.bring 1) (Nat.le_max_right _ _)
        (hone.trans (Nat.le_max_left _ _))
      obtain ⟨ht₂, -⟩ := step_move_at ht₁ (.bring 1)
      refine .after_step (e := .move i (.bring 1)) ?_ hwithin₁ rfl (conforms_move _ _)
      refine ih (t.answer.length - (t.arrived + 1)) (by omega) hwithin₂ (hroom₁.step rfl) ht₂
        hwaiting hyields ?_
      rw [hbytes]
      rfl
    · have hgot : (t.move (.take l)).caller = .got r := by
        show (t.take l).caller = _
        simp only [Stream.take, hwaiting, hrun]
      exact .of_result hwithin₁ (System.result_eq_some.mpr ⟨_, ht₁, hgot⟩)

/-- A handler that has its task needs to reach the state. -/
theorem canComplete_ready (hs : m.system.Sound allowed seen inv view observe spec a order)
    {w : svc.Clock} (hw : seen w) (l : svc.Local) (hwithin : m.Within on limits)
    (hroom : m.Room on limits i) (ht : m.system.streams[i]? = some t)
    (hwaiting : t.caller = .waiting) {task : svc.Task} (htask : t.handler = .ready task) :
    m.CanComplete on limits seen i := by
  have hi := (List.getElem?_eq_some_iff.mp ht).choose
  have hstep : (m.step (.access i w)).1.system = ⟨(svc.perform w task m.system.state).1,
      m.system.streams.set i { t with
        handler := .answered
        answer := (svc.perform w task m.system.state).2 }⟩ := by
    show (m.system.step (.access i w)).1 = _
    simp only [System.step, ht, htask]
  have ht₁ : (m.step (.access i w)).1.system.streams[i]? = some { t with
      handler := .answered
      answer := (svc.perform w task m.system.state).2 } := by
    rw [hstep]
    exact List.getElem?_set_self hi
  have hmeter : (m.step (.access i w)).1.meters i = m.meters i := rfl
  have hwithin₁ : (m.step (.access i w)).1.Within on limits := by
    refine hwithin.step hroom rfl ht hwaiting ?_ ?_
    · rw [share_at ht₁]
      exact Nat.zero_le _
    · rw [share_at ht₁, share_at ht, hmeter]
      exact Nat.le_max_right _ _
  obtain ⟨b, -, hyields⟩ := ((hs.access hw ht htask).streams i _ (hstep ▸ ht₁)).2.handled
  refine .after_step (e := .access i w) ?_ hwithin rfl (List.forall_mem_singleton.mpr hw)
  exact canComplete_answered himp l hwithin₁ (hroom.step rfl) ht₁ hwaiting hyields

/-- A handler that reads needs the rest of the request: it reads what has arrived, and while that is
not enough the next byte arrives. -/
theorem canComplete_reading (hs : m.system.Sound allowed seen inv view observe spec a order)
    {w : svc.Clock} (hw : seen w) (l : svc.Local) (hwithin : m.Within on limits)
    (hroom : m.Room on limits i) (ht : m.system.streams[i]? = some t)
    (hwaiting : t.caller = .waiting) (hreading : t.handler = .reading) :
    m.CanComplete on limits seen i := by
  induction hn : t.toServer.length using Nat.strong_induction_on generalizing m t with
  | _ n ih =>
    obtain ⟨hrequests, hanswers⟩ := t.share_serve (m.meters i)
    have hwithin₁ := hwithin.move hroom ht hwaiting .serve (hrequests.le.trans (Nat.zero_le _))
      (hanswers.le.trans (Nat.le_max_right _ _))
    have hroom₁ : (m.step (.move i .serve)).1.Room on limits i := hroom.step rfl
    have hs₁ : (m.step (.move i .serve)).1.system.Sound allowed seen inv view observe spec a order :=
      hs.move himp i .serve
    obtain ⟨ht₁, hmeter₁⟩ := step_move_at ht .serve
    refine .after_step (e := .move i .serve) ?_ hwithin rfl (conforms_move _ _)
    obtain ⟨hallowed, hsound⟩ := hs.streams i t ht
    have hhandled := hsound.handled
    rw [hreading] at hhandled
    rcases hhandled.2.2.served himp hallowed with ⟨hleft, s, hpending⟩ | ⟨task, rest, hrun, -⟩
    · have hsame : t.move .serve = t := by
        show t.serve = t
        simp only [Stream.serve, hreading, hpending]
      rw [hsame] at ht₁ hmeter₁
      have hlength := List.length_pos_iff.mpr hleft
      have hone : (t.move (.carry 1)).share
          (((m.step (.move i .serve)).1.meters i).move (t.move (.carry 1)) (.carry 1)) .requests ≤
          1 := by
        have hphase : (t.move (.carry 1)).handler = .reading := hreading
        have hbytes : (t.move (.carry 1)).inbound.bytes = t.inbound.bytes ++ t.toServer.take 1 := rfl
        simp only [Stream.share, hphase, hbytes, hmeter₁, Meter.move, List.length_append,
          List.length_take]
        omega
      have hwithin₂ := hwithin₁.move hroom₁ ht₁ hwaiting (.carry 1)
        (hone.trans (Nat.le_max_left _ _)) (Nat.le_max_right _ _)
      obtain ⟨ht₂, -⟩ := step_move_at ht₁ (.carry 1)
      refine .after_step (e := .move i (.carry 1)) ?_ hwithin₁ rfl (conforms_move _ _)
      exact ih (t.toServer.length - 1) (by omega) (hs₁.move himp i (.carry 1)) hwithin₂
        (hroom₁.step rfl) ht₂ hwaiting hreading List.length_drop
    · have hready : t.move .serve = { t with inbound := rest, handler := .ready task } := by
        show t.serve = _
        simp only [Stream.serve, hreading, hrun]
      rw [hready] at ht₁
      exact canComplete_ready himp hs₁ hw l hwithin₁ hroom₁ ht₁ hwaiting rfl

end Completes

end Metered

/-- From every point of a run, a call whose two sides are there can get its result by what happens on
its own stream, whatever the other calls do or do not, if these leave room for it. -/
theorem Implements.completes (himp : Implements svc allowed seen inv view observe spec) {state : σ}
    (hstate : inv state) {events : List (Event svc)} (hevents : Conforms svc allowed seen events)
    {w : svc.Clock} (hw : seen w) (l : svc.Local)
    (hwithin : (Metered.after (.new state) events).Within on limits)
    (hroom : (Metered.after (.new state) events).Room on limits i)
    (ht : (Metered.after (.new state) events).system.streams[i]? = some t)
    (hwaiting : t.caller = .waiting) (hthere : t.handler ≠ .gone) :
    (Metered.after (.new state) events).CanComplete on limits seen i := by
  have hsound := himp.sound hstate hevents
  rw [← Metered.system_after_new] at hsound
  have hhandled := (hsound.streams i t ht).2.handled
  cases hphase : t.handler with
  | gone => exact absurd hphase hthere
  | answered =>
    rw [hphase] at hhandled
    obtain ⟨b, -, hyields⟩ := hhandled
    exact Metered.canComplete_answered himp l hwithin hroom ht hwaiting hyields
  | ready task => exact Metered.canComplete_ready himp hsound hw l hwithin hroom ht hwaiting hphase
  | reading => exact Metered.canComplete_reading himp hsound hw l hwithin hroom ht hwaiting hphase

end Completion

/-! ## Without room -/

section Nothing

variable {ω σ ρ : Type} {svc : Service ω σ ρ} {t : Stream svc} {meter : Meter}

/-- A handler reads no task off nothing. -/
theorem Stream.serve_nothing
    (hserve : ∀ l closed task rest, (svc.serve l).run ⟨[], closed⟩ ≠ .ok task rest)
    (ht : t.inbound.bytes = []) (hphase : t.handler = .reading) :
    t.serve = t ∨ t.serve = { t with handler := .gone } := by
  have hinbound : t.inbound = ⟨[], t.inbound.closed⟩ := by rw [← ht]
  unfold Stream.serve
  rw [hphase]
  cases hrun : (svc.serve (svc.listener t.op)).run t.inbound with
  | ok task rest =>
    rw [hinbound] at hrun
    exact absurd hrun (hserve _ _ _ _)
  | error stop rest =>
    cases stop with
    | pending => exact .inl rfl
    | _ => exact .inr rfl

/-- A caller reads no result off nothing. -/
theorem Stream.take_nothing
    (hreceive : ∀ op w closed r rest, (svc.receive op w).run ⟨[], closed⟩ ≠ .ok r rest)
    (ht : t.received.bytes = []) (hphase : t.caller = .waiting) (w : svc.Local) :
    t.take w = t ∨ t.take w = { t with caller := .lost } := by
  have hreceived : t.received = ⟨[], t.received.closed⟩ := by rw [← ht]
  unfold Stream.take
  rw [hphase]
  cases hrun : (svc.receive t.op w).run t.received with
  | ok r rest =>
    rw [hreceived] at hrun
    exact absurd hrun (hreceive _ _ _ _ _)
  | error stop rest =>
    cases stop with
    | pending => exact .inl rfl
    | _ => exact .inr rfl

/-- Nothing of the request has arrived at a handler that reads, and the caller has no result. -/
structure Stream.Unheard (t : Stream svc) (meter : Meter) : Prop where
  handler : t.handler = .gone ∨ t.handler = .reading ∧ t.inbound.bytes = [] ∧ meter.served = 0
  answer : t.answer = []
  caller : ∀ r, t.caller ≠ .got r

/-- Nothing of an answer has arrived at a caller that waits. -/
def Stream.Unanswered (t : Stream svc) (meter : Meter) : Prop :=
  t.caller = .lost ∨ t.caller = .waiting ∧ t.arrived = 0 ∧ meter.taken = 0

/-- Without an answer there is no result. -/
theorem Stream.move_unanswered
    (hreceive : ∀ op w closed r rest, (svc.receive op w).run ⟨[], closed⟩ ≠ .ok r rest)
    (hanswer : t.answer = []) (h : ∀ r, t.caller ≠ .got r) (move : Move svc.Local) (r : ρ) :
    (t.move move).caller ≠ .got r := by
  cases move with
  | carry n => exact h r
  | serve =>
    obtain ⟨inbound, handler, hserve⟩ := t.serve_eq
    simp only [Stream.move, hserve]
    exact h r
  | vanish =>
    obtain ⟨handler, hvanish⟩ := t.vanish_eq
    simp only [Stream.move, hvanish]
    exact h r
  | bring n => exact h r
  | take w =>
    show (t.take w).caller ≠ _
    have hreceived : t.received.bytes = [] := by simp only [received, hanswer, List.take_nil]
    cases hphase : t.caller with
    | got r' => exact absurd hphase (h r')
    | lost =>
      simp only [Stream.take, hphase]
      intro hgot
      cases hgot
    | waiting =>
      rcases take_nothing hreceive hreceived hphase w with hsame | hlost
      · rw [hsame]
        exact h r
      · rw [hlost]
        intro hgot
        cases hgot
  | lose =>
    show t.lose.caller ≠ _
    cases hphase : t.caller with
    | got r' => exact absurd hphase (h r')
    | _ =>
      simp only [Stream.lose, hphase]
      intro hgot
      cases hgot

/-- While no byte of the request may be unread, none arrives. -/
theorem Stream.Unheard.move
    (hserve : ∀ l closed task rest, (svc.serve l).run ⟨[], closed⟩ ≠ .ok task rest)
    (hreceive : ∀ op w closed r rest, (svc.receive op w).run ⟨[], closed⟩ ≠ .ok r rest)
    (h : t.Unheard meter) {move : Move svc.Local}
    (hshare : (t.move move).share (meter.move (t.move move) move) .requests = 0) :
    (t.move move).Unheard (meter.move (t.move move) move) := by
  refine ⟨?_, (Stream.move_same move t).2.trans h.answer,
    move_unanswered hreceive h.answer h.caller move⟩
  have hhandler := h.handler
  cases move with
  | carry n =>
    refine hhandler.imp_right fun ⟨hphase, hbytes, hserved⟩ => ⟨hphase, ?_, hserved⟩
    have hphase' : (t.move (.carry n)).handler = .reading := hphase
    simp only [share, hphase', Meter.move, hserved, Nat.sub_zero] at hshare
    exact List.length_eq_zero_iff.mp hshare
  | serve =>
    rcases hhandler with hphase | ⟨hphase, hbytes, hserved⟩
    · refine .inl ?_
      show t.serve.handler = .gone
      simp only [Stream.serve, hphase]
    · rcases serve_nothing hserve hbytes hphase with hsame | hgone
      · have hsame' : t.move .serve = t := hsame
        rw [hsame']
        exact .inr ⟨hphase, hbytes, List.length_eq_zero_iff.mpr hbytes⟩
      · refine .inl ?_
        show t.serve.handler = .gone
        rw [hgone]
  | vanish =>
    refine .inl ?_
    show t.vanish.handler = .gone
    rcases hhandler with hphase | ⟨hphase, -⟩ <;> simp only [Stream.vanish, hphase]
  | bring n => exact hhandler
  | take w =>
    obtain ⟨caller, htake⟩ := t.take_eq w
    simp only [Stream.move, htake]
    exact hhandler
  | lose =>
    obtain ⟨caller, hlose⟩ := t.lose_eq
    simp only [Stream.move, hlose]
    exact hhandler

/-- While no byte of the answer may be unread, none arrives. -/
theorem Stream.Unanswered.move
    (hreceive : ∀ op w closed r rest, (svc.receive op w).run ⟨[], closed⟩ ≠ .ok r rest)
    (h : t.Unanswered meter) {move : Move svc.Local}
    (hshare : (t.move move).share (meter.move (t.move move) move) .answers = 0) :
    (t.move move).Unanswered (meter.move (t.move move) move) := by
  cases move with
  | carry n => exact h
  | serve =>
    obtain ⟨inbound, handler, hserve⟩ := t.serve_eq
    simp only [Stream.move, hserve]
    exact h
  | vanish =>
    obtain ⟨handler, hvanish⟩ := t.vanish_eq
    simp only [Stream.move, hvanish]
    exact h
  | bring n =>
    rcases h with hphase | ⟨hphase, harrived, htaken⟩
    · exact .inl hphase
    · refine .inr ⟨hphase, ?_, htaken⟩
      have hphase' : (t.move (.bring n)).caller = .waiting := hphase
      simpa only [share, hphase', Meter.move, htaken, Nat.sub_zero] using hshare
  | take w =>
    rcases h with hphase | ⟨hphase, harrived, htaken⟩
    · refine .inl ?_
      show (t.take w).caller = .lost
      simp only [Stream.take, hphase]
    · have hreceived : t.received.bytes = [] := by
        simp only [received, harrived, List.take_zero]
      rcases take_nothing hreceive hreceived hphase w with hsame | hlost
      · have hsame' : t.move (.take w) = t := hsame
        rw [hsame']
        exact .inr ⟨hphase, harrived, harrived⟩
      · refine .inl ?_
        show (t.take w).caller = .lost
        rw [hlost]
  | lose =>
    refine .inl ?_
    show t.lose.caller = .lost
    rcases h with hphase | ⟨hphase, -⟩ <;> simp only [Stream.lose, hphase]

end Nothing

section Full

variable {ω σ ρ κ : Type} [DecidableEq κ] {svc : Service ω σ ρ} {seen : svc.Clock → Prop}
variable {on : Nat → κ} {limits : κ → Limits} {m : Metered svc} {i : Nat} {t : Stream svc}

namespace Metered

/-- Where there is no room for a resource, a call has no share of it. -/
theorem Within.share_eq_zero (h : m.Within on limits) (ht : m.system.streams[i]? = some t)
    {r : Resource} (hfull : ¬ m.RoomFor on limits r i) : m.share r i = 0 := by
  have hi := (List.getElem?_eq_some_iff.mp ht).choose
  have hload := h.inAll (on i) r
  have heach := h.each i hi r
  rw [load_eq hi] at hload
  unfold RoomFor at hfull
  omega

/-- What an event on a stream without a share of a resource does to it: an access by a handler that is
ready, a move, or nothing. -/
theorem step_on {e : Event svc} (hon : e.On i) (ht : m.system.streams[i]? = some t) :
    (∃ task answer, t.handler = .ready task ∧
      (m.step e).1.system.streams[i]? = some { t with handler := .answered, answer := answer } ∧
      (m.step e).1.meters i = m.meters i) ∨
    (∃ move, (m.step e).1.system.streams[i]? = some (t.move move) ∧
      (m.step e).1.meters i = (m.meters i).move (t.move move) move) ∨
    ((m.step e).1.system.streams[i]? = some t ∧ (m.step e).1.meters i = m.meters i) := by
  cases e with
  | call op => exact absurd hon id
  | move j move =>
    obtain rfl := hon
    exact .inr (.inl ⟨move, step_move_at ht move⟩)
  | access j w =>
    obtain rfl := hon
    have hmeter : (m.step (.access j w)).1.meters j = m.meters j := rfl
    have hsystem : (m.step (.access j w)).1.system = (m.system.step (.access j w)).1 := rfl
    cases hphase : t.handler with
    | ready task =>
      refine .inl ⟨task, (svc.perform w task m.system.state).2, rfl, ?_, hmeter⟩
      rw [hsystem]
      simp only [System.step, ht, hphase]
      exact List.getElem?_set_self (List.getElem?_eq_some_iff.mp ht).choose
    | _ =>
      refine .inr (.inr ⟨?_, hmeter⟩)
      rw [hsystem]
      simp only [System.step, ht, hphase]

/-- What every event on a stream keeps while there is no room for a resource holds where the result is
there. -/
theorem CanComplete.of_full {S : Stream svc → Meter → Prop} {r : Resource}
    (hfull : ¬ m.RoomFor on limits r i) (ht : m.system.streams[i]? = some t)
    (hS : S t (m.meters i))
    (haccess : ∀ (t : Stream svc) meter task answer, t.handler = .ready task → S t meter →
      S { t with handler := .answered, answer := answer } meter)
    (hmove : ∀ (t : Stream svc) meter move, S t meter →
      (t.move move).share (meter.move (t.move move) move) r = 0 →
      S (t.move move) (meter.move (t.move move) move))
    (h : m.CanComplete on limits seen i) : ∃ t meter result, S t meter ∧ t.caller = .got result := by
  obtain ⟨more, hmore, -, hwithin, result, hresult⟩ := h
  induction more generalizing m t with
  | nil =>
    obtain ⟨t', ht', hgot⟩ := System.result_eq_some.mp hresult
    cases ht.symm.trans ht'
    exact ⟨t, _, result, hS, hgot⟩
  | cons e more ih =>
    obtain ⟨hon, hmore⟩ := List.forall_mem_cons.mp hmore
    have hfirst : (m.step e).1.Within on limits := hwithin [e] more rfl
    have hfull' : ¬ (m.step e).1.RoomFor on limits r i := mt (roomFor_step hon r).mp hfull
    have hrest : ∀ pre post, more = pre ++ post →
        ((m.step e).1.after pre).Within on limits := fun pre post hsplit =>
      hwithin (e :: pre) post (by rw [hsplit, List.cons_append])
    rcases step_on hon ht with ⟨task, answer, hready, ht', hmeter⟩ | ⟨move, ht', hmeter⟩ |
      ⟨ht', hmeter⟩
    · refine ih hfull' ht' ?_ hmore hrest hresult
      rw [hmeter]
      exact haccess t _ task answer hready hS
    · have hshare := hfirst.share_eq_zero ht' hfull'
      rw [share_at ht', hmeter] at hshare
      refine ih hfull' ht' ?_ hmore hrest hresult
      rw [hmeter]
      exact hmove t _ move hS hshare
    · refine ih hfull' ht' ?_ hmore hrest hresult
      rw [hmeter]
      exact hS

/-- A call of which nothing has arrived can get its result only if the others leave room. -/
theorem CanComplete.room
    (hserve : ∀ l closed task rest, (svc.serve l).run ⟨[], closed⟩ ≠ .ok task rest)
    (hreceive : ∀ op w closed r rest, (svc.receive op w).run ⟨[], closed⟩ ≠ .ok r rest)
    {op : ω} (ht : m.system.streams[i]? = some (.new op)) (hmeter : m.meters i = ⟨0, 0⟩)
    (h : m.CanComplete on limits seen i) : m.Room on limits i := by
  constructor
  · by_contra hfull
    have hunheard : (Stream.new op : Stream svc).Unheard (m.meters i) :=
      ⟨.inr ⟨rfl, rfl, by rw [hmeter]⟩, rfl, fun r hgot => by cases hgot⟩
    obtain ⟨t, meter, r, hlast, hgot⟩ := h.of_full hfull ht hunheard
      (fun t meter task answer hready hunheard => by
        rcases hunheard.handler with hphase | ⟨hphase, -⟩ <;> rw [hready] at hphase <;> cases hphase)
      (fun t meter move hunheard => hunheard.move hserve hreceive)
    exact hlast.caller r hgot
  · by_contra hfull
    have hunanswered : (Stream.new op : Stream svc).Unanswered (m.meters i) :=
      .inr ⟨rfl, rfl, by rw [hmeter]⟩
    obtain ⟨t, meter, r, hlast, hgot⟩ := h.of_full hfull ht hunanswered
      (fun t meter task answer hready hunanswered => hunanswered)
      (fun t meter move hunanswered => hunanswered.move hreceive)
    rcases hlast with hlost | ⟨hwaits, -⟩
    · rw [hgot] at hlost
      cases hlost
    · rw [hgot] at hwaits
      cases hwaits

/-- Nothing is read off a stream that does not exist yet. -/
theorem meters_after (state : σ) (events : List (Event svc)) :
    ∀ i, (after (.new state) events).system.streams.length ≤ i →
      (after (.new state) events).meters i = ⟨0, 0⟩ := by
  induction events using List.reverseRecOn with
  | nil => exact fun _ _ => rfl
  | append_singleton events e ih =>
    intro i hi
    unfold after at ih hi ⊢
    rw [Machine.run_concat] at hi ⊢
    generalize Machine.run step (new state) events = m at ih hi ⊢
    cases e with
    | call op =>
      have hlength : (m.step (.call op)).1.system.streams.length = m.system.streams.length + 1 :=
        List.length_append
      exact ih i (by omega)
    | move j move =>
      have hon : Event.On j (.move j move : Event svc) := rfl
      rw [length_step hon] at hi
      show m.metersAfter (.move j move) i = _
      cases ht : m.system.streams[j]? with
      | none => simp only [metersAfter, ht, ih i hi]
      | some t =>
        have hj := (List.getElem?_eq_some_iff.mp ht).choose
        have hne : i ≠ j := by omega
        simp only [metersAfter, ht, Function.update_of_ne hne, ih i hi]
    | access j w =>
      have hon : Event.On j (.access j w : Event svc) := rfl
      rw [length_step hon] at hi
      exact ih i hi

end Metered

/-- A call that was just made can get its result by what happens on its own stream exactly if the
others leave room for it. -/
theorem Implements.completes_iff {α β : Type} {allowed : ω → Prop} {inv : σ → Prop} {view : σ → α}
    {observe : ρ → β} {spec : α → ω → α × β}
    (himp : Implements svc allowed seen inv view observe spec)
    (hserve : ∀ l closed task rest, (svc.serve l).run ⟨[], closed⟩ ≠ .ok task rest) {state : σ}
    (hstate : inv state) {events : List (Event svc)} {op : ω}
    (hevents : Conforms svc allowed seen (events ++ [.call op])) {w : svc.Clock} (hw : seen w)
    (l : svc.Local)
    (hwithin : (Metered.after (.new state) (events ++ [.call op])).Within on limits) :
    (Metered.after (.new state) (events ++ [.call op])).CanComplete on limits seen
        (after (.new state) events).streams.length ↔
      (Metered.after (.new state) (events ++ [.call op])).Room on limits
        (after (.new state) events).streams.length := by
  have ht : (Metered.after (.new state) (events ++ [.call op])).system.streams[
      (after (.new state) events).streams.length]? = some (.new op) := by
    rw [Metered.system_after_new]
    unfold after
    rw [Machine.run_concat]
    exact List.getElem?_concat_length
  constructor
  · refine Metered.CanComplete.room hserve himp.receive_waits ht ?_
    unfold Metered.after
    rw [Machine.run_concat]
    exact Metered.meters_after state events _ (by rw [Metered.system_after_new])
  · intro hroom
    refine himp.completes hstate hevents hw l hwithin hroom ht rfl ?_
    intro hgone
    cases hgone

end Full

end Exchange
