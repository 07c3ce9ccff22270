import Spaceshuttle.Lib.Exchange

/-!
# Runs of a service are calls of an object

What `Implements` says of one call holds of every run of any number of calls: the accesses in their
order are calls of the object, every result is the one the object gives at its place, and a call that
is over takes effect before one that starts later (`Implements.linearizes`).
-/

namespace Exchange

open ByteStream

section Invariant

variable {ω σ ρ α β : Type} {svc : Service ω σ ρ} {allowed : ω → Prop} {seen : svc.Clock → Prop}
variable {inv : σ → Prop} {view : σ → α} {observe : ρ → β} {spec : α → ω → α × β}
variable {a : α} {order : List (Nat × ω)} {i : Nat} {t : Stream svc}

/-! ## The system -/

/-- What a step can do: a new stream; a move on a stream; an access by a handler that is ready; or
nothing, where an access was meant for a handler that is not. -/
theorem System.step_cases (s : System svc) (e : Event svc) :
    (∃ op, e = .call op ∧ s.step e = ({ s with streams := s.streams ++ [.new op] }, none)) ∨
    (∃ i m, e = .move i m ∧
      s.step e = ({ s with streams := s.streams.modify i (Stream.move m) }, none)) ∨
    (∃ i w t task, e = .access i w ∧ s.streams[i]? = some t ∧ t.handler = .ready task ∧
      s.step e =
        (⟨(svc.perform w task s.state).1,
          s.streams.set i { t with
            handler := .answered
            answer := (svc.perform w task s.state).2 }⟩,
          some (i, t.op))) ∨
    s.step e = (s, none) := by
  cases e with
  | call op => exact .inl ⟨op, rfl, rfl⟩
  | move i m => exact .inr (.inl ⟨i, m, rfl, rfl⟩)
  | access i w =>
    cases ht : s.streams[i]? with
    | none =>
      refine .inr (.inr (.inr ?_))
      simp only [System.step, ht]
    | some t =>
      cases htask : t.handler with
      | ready task =>
        refine .inr (.inr (.inl ⟨i, w, t, task, rfl, ht, htask, ?_⟩))
        simp only [System.step, ht, htask]
      | _ =>
        refine .inr (.inr (.inr ?_))
        simp only [System.step, ht, htask]

section Sound

variable (allowed seen inv view observe spec)

/-- What holds of the system after the accesses of `order`. -/
structure System.Sound (a : α) (order : List (Nat × ω)) (s : System svc) : Prop where
  intact : inv s.state
  state : view s.state = Machine.run (atCall spec) a order
  once : (order.map Prod.fst).Nodup
  called : ∀ c ∈ order, s.streams[c.1]?.map Stream.op = some c.2
  streams : ∀ (i : Nat) (t : Stream svc), s.streams[i]? = some t →
    allowed t.op ∧ t.Sound seen inv view observe spec a order i

end Sound

variable {s : System svc}

theorem System.sound_new {state : σ} (h : inv state) :
    (System.new state : System svc).Sound allowed seen inv view observe spec (view state) [] where
  intact := h
  state := rfl
  once := List.nodup_nil
  called := by simp
  streams := by simp [System.new]

theorem System.Sound.call (h : s.Sound allowed seen inv view observe spec a order) {op : ω}
    (hop : allowed op) :
    System.Sound allowed seen inv view observe spec a order
      { s with streams := s.streams ++ [.new op] } where
  intact := h.intact
  state := h.state
  once := h.once
  called := by
    intro c hc
    have hat := h.called c hc
    obtain ⟨t, ht, -⟩ := Option.map_eq_some_iff.mp hat
    rw [List.getElem?_append_left (List.getElem?_eq_some_iff.mp ht).choose]
    exact hat
  streams := by
    intro i t ht
    rw [List.getElem?_append] at ht
    split at ht
    · exact h.streams i t ht
    · next hge =>
      rw [List.getElem?_singleton] at ht
      split at ht
      · cases ht
        refine ⟨hop, Stream.sound_new op fun hmem => ?_⟩
        obtain ⟨c, hc, rfl⟩ := List.mem_map.mp hmem
        obtain ⟨t, ht, -⟩ := Option.map_eq_some_iff.mp (h.called c hc)
        exact hge (List.getElem?_eq_some_iff.mp ht).choose
      · cases ht

/-- A handler that reads changes what it has received and how far it is. -/
theorem Stream.serve_eq (t : Stream svc) :
    ∃ inbound handler, t.serve = { t with inbound := inbound, handler := handler } := by
  unfold Stream.serve
  split
  · split <;> exact ⟨_, _, rfl⟩
  · exact ⟨_, _, rfl⟩

theorem Stream.vanish_eq (t : Stream svc) :
    ∃ handler, t.vanish = { t with handler := handler } := by
  unfold Stream.vanish
  split <;> exact ⟨_, rfl⟩

/-- A caller that reads changes how far it is. -/
theorem Stream.take_eq (w : svc.Local) (t : Stream svc) :
    ∃ caller, t.take w = { t with caller := caller } := by
  unfold Stream.take
  split
  · split <;> exact ⟨_, rfl⟩
  · exact ⟨_, rfl⟩

theorem Stream.lose_eq (t : Stream svc) : ∃ caller, t.lose = { t with caller := caller } := by
  unfold Stream.lose
  split <;> exact ⟨_, rfl⟩

/-- No move changes what a call is, or the answer to it. -/
theorem Stream.move_same (m : Move svc.Local) (t : Stream svc) :
    (t.move m).op = t.op ∧ (t.move m).answer = t.answer := by
  cases m with
  | carry n => exact ⟨rfl, rfl⟩
  | serve =>
    obtain ⟨inbound, handler, hserve⟩ := t.serve_eq
    simp only [Stream.move, hserve, and_self]
  | vanish =>
    obtain ⟨handler, hvanish⟩ := t.vanish_eq
    simp only [Stream.move, hvanish, and_self]
  | bring n => exact ⟨rfl, rfl⟩
  | take w =>
    obtain ⟨caller, htake⟩ := t.take_eq w
    simp only [Stream.move, htake, and_self]
  | lose =>
    obtain ⟨caller, hlose⟩ := t.lose_eq
    simp only [Stream.move, hlose, and_self]

theorem System.Sound.move (himp : Implements svc allowed seen inv view observe spec)
    (h : s.Sound allowed seen inv view observe spec a order) (i : Nat) (m : Move svc.Local) :
    System.Sound allowed seen inv view observe spec a order
      { s with streams := s.streams.modify i (Stream.move m) } where
  intact := h.intact
  state := h.state
  once := h.once
  called := by
    intro c hc
    rw [List.getElem?_modify]
    obtain ⟨t, ht, hop⟩ := Option.map_eq_some_iff.mp (h.called c hc)
    rw [ht, ← hop]
    split
    · exact congrArg some ((Stream.move_same m t).1)
    · rfl
  streams := by
    intro j t ht
    rw [List.getElem?_modify] at ht
    obtain ⟨t', ht', rfl⟩ := Option.map_eq_some_iff.mp ht
    obtain ⟨hallowed, hsound⟩ := h.streams j t' ht'
    split
    · rw [(Stream.move_same m t').1]
      exact ⟨hallowed, hsound.move himp hallowed m⟩
    · exact ⟨hallowed, hsound⟩

theorem System.Sound.access (h : s.Sound allowed seen inv view observe spec a order)
    {w : svc.Clock} (hw : seen w) {t : Stream svc} (ht : s.streams[i]? = some t)
    {task : svc.Task} (htask : t.handler = .ready task) :
    System.Sound allowed seen inv view observe spec a (order ++ [(i, t.op)])
      ⟨(svc.perform w task s.state).1,
        s.streams.set i { t with
          handler := .answered
          answer := (svc.perform w task s.state).2 }⟩ := by
  obtain ⟨hallowed, hsound⟩ := h.streams i t ht
  have hhandled := hsound.handled
  rw [htask] at hhandled
  obtain ⟨-, hnew, hdoes⟩ := hhandled
  obtain ⟨hinv, hview, hyields⟩ := hdoes w s.state hw h.intact
  have hlt : i < s.streams.length := (List.getElem?_eq_some_iff.mp ht).choose
  constructor
  · exact hinv
  · show view (svc.perform w task s.state).1 = _
    rw [Machine.run_concat, ← h.state]
    exact hview
  · rw [List.map_append, List.nodup_append]
    refine ⟨h.once, List.pairwise_singleton _ _, ?_⟩
    rintro j hj k hk rfl
    rw [List.mem_singleton.mp hk] at hj
    exact hnew hj
  · intro c hc
    rcases List.mem_append.mp hc with hc | hc
    · have hat := h.called c hc
      by_cases hi : i = c.1
      · subst hi
        rw [ht] at hat
        rw [List.getElem?_set_self hlt]
        exact hat
      · rw [List.getElem?_set_ne hi]
        exact hat
    · obtain rfl := List.mem_singleton.mp hc
      rw [List.getElem?_set_self hlt]
      rfl
  · intro j t' ht'
    by_cases hi : i = j
    · subst hi
      rw [List.getElem?_set_self hlt] at ht'
      cases ht'
      refine ⟨hallowed, ⟨_, ?_, hyields⟩, fun r hr => ?_⟩
      · rw [Machine.history_concat, ← h.state]
        exact List.mem_append_right _ (List.mem_singleton.mpr rfl)
      · rw [Machine.history_concat]
        exact List.mem_append_left _ (hsound.caller r hr)
    · rw [List.getElem?_set_ne hi] at ht'
      obtain ⟨hallowed', hsound'⟩ := h.streams j t' ht'
      exact ⟨hallowed', hsound'.other (Ne.symm hi)⟩

/-- A step of the system is the step of the object that its access stands for. -/
theorem System.Sound.step (himp : Implements svc allowed seen inv view observe spec)
    (h : s.Sound allowed seen inv view observe spec a order) {e : Event svc}
    (he : Conforms svc allowed seen [e]) :
    (s.step e).1.Sound allowed seen inv view observe spec a (order ++ (s.step e).2.toList) := by
  have hconforms := he e (List.mem_singleton.mpr rfl)
  rcases s.step_cases e with ⟨op, rfl, hstep⟩ | ⟨i, m, rfl, hstep⟩ |
    ⟨i, w, t, task, rfl, ht, htask, hstep⟩ | hstep <;> rw [hstep]
  · simp only [Option.toList_none, List.append_nil]
    exact h.call hconforms
  · simp only [Option.toList_none, List.append_nil]
    exact h.move himp i m
  · exact h.access hconforms ht htask
  · simp only [Option.toList_none, List.append_nil]
    exact h

/-! ## Runs -/

theorem conforms_concat {events : List (Event svc)} {e : Event svc} :
    Conforms svc allowed seen (events ++ [e]) ↔
      Conforms svc allowed seen events ∧ Conforms svc allowed seen [e] :=
  List.forall_mem_append

theorem Implements.sound (himp : Implements svc allowed seen inv view observe spec) {state : σ}
    (hstate : inv state) {events : List (Event svc)} (hevents : Conforms svc allowed seen events) :
    (after (.new state) events).Sound allowed seen inv view observe spec (view state)
      (accesses (.new state) events) := by
  induction events using List.reverseRecOn with
  | nil => exact System.sound_new hstate
  | append_singleton events e ih =>
    obtain ⟨hbefore, he⟩ := conforms_concat.mp hevents
    rw [accesses_concat]
    show System.Sound _ _ _ _ _ _ _ _ (Machine.run _ _ _)
    rw [Machine.run_concat]
    exact (ih hbefore).step himp he

theorem System.result_eq_some {s : System svc} {i : Nat} {r : ρ} :
    s.result i = some r ↔ ∃ t, s.streams[i]? = some t ∧ t.caller = .got r := by
  unfold System.result
  cases s.streams[i]? with
  | none => simp
  | some t =>
    cases hcaller : t.caller <;> simp [hcaller]

/-- Every run of the system is explained by the accesses in their order. -/
theorem Implements.linearizes (himp : Implements svc allowed seen inv view observe spec) {state : σ}
    (hstate : inv state) {events : List (Event svc)} (hevents : Conforms svc allowed seen events) :
    Linearizes svc view observe spec (.new state) events (accesses (.new state) events) := by
  have hsound := himp.sound hstate hevents
  refine ⟨hsound.once, hsound.called, hsound.state, ?_, ?_⟩
  · intro i r hr
    obtain ⟨t, ht, hcaller⟩ := System.result_eq_some.mp hr
    exact ⟨t.op, (hsound.streams i t ht).2.caller r hcaller⟩
  · rintro before later rfl i j r hr hj hmem
    have hbefore := himp.sound hstate (List.forall_mem_append.mp hevents).1
    have hi : i ∈ (accesses (.new state) before).map Prod.fst := by
      obtain ⟨t, ht, hcaller⟩ := System.result_eq_some.mp hr
      have hin := List.mem_map_of_mem (f := Prod.fst) ((hbefore.streams i t ht).2.caller r hcaller)
      rw [Machine.history_inputs] at hin
      exact List.mem_map_of_mem (f := Prod.fst) hin
    -- A call that was not made yet takes effect later.
    have hnot : j ∉ (accesses (.new state) before).map Prod.fst := by
      intro hj'
      obtain ⟨c, hc, rfl⟩ := List.mem_map.mp hj'
      obtain ⟨t, ht, -⟩ := Option.map_eq_some_iff.mp (hbefore.called c hc)
      exact absurd (List.getElem?_eq_some_iff.mp ht).choose (Nat.not_lt.mpr hj)
    rw [accesses_append, List.map_append] at hmem ⊢
    have hlater := (List.mem_append.mp hmem).resolve_left hnot
    exact (List.singleton_sublist.mpr hi).append (List.singleton_sublist.mpr hlater)

/-- A result stays what it is. -/
theorem Stream.move_caller {r : ρ} (h : t.caller = .got r) (m : Move svc.Local) :
    (t.move m).caller = .got r := by
  cases m with
  | carry n => exact h
  | serve =>
    obtain ⟨inbound, handler, hserve⟩ := t.serve_eq
    simp only [Stream.move, hserve, h]
  | vanish =>
    obtain ⟨handler, hvanish⟩ := t.vanish_eq
    simp only [Stream.move, hvanish, h]
  | bring n => exact h
  | take w => simp only [Stream.move, Stream.take, h]
  | lose => simp only [Stream.move, Stream.lose, h]

theorem System.result_step {s : System svc} {r : ρ} (h : s.result i = some r) (e : Event svc) :
    (s.step e).1.result i = some r := by
  obtain ⟨t, ht, hcaller⟩ := System.result_eq_some.mp h
  have hlt : i < s.streams.length := (List.getElem?_eq_some_iff.mp ht).choose
  rw [System.result_eq_some]
  rcases s.step_cases e with ⟨op, rfl, hstep⟩ | ⟨j, m, rfl, hstep⟩ |
    ⟨j, w, t', task, rfl, ht', -, hstep⟩ | hstep <;> rw [hstep]
  · exact ⟨t, (List.getElem?_append_left hlt).trans ht, hcaller⟩
  · by_cases hj : j = i
    · subst hj
      rw [List.getElem?_modify_eq, ht]
      exact ⟨t.move m, rfl, Stream.move_caller hcaller m⟩
    · rw [List.getElem?_modify_ne _ _ hj]
      exact ⟨t, ht, hcaller⟩
  · by_cases hj : j = i
    · subst hj
      rw [ht] at ht'
      cases ht'
      exact ⟨_, List.getElem?_set_self hlt, hcaller⟩
    · exact ⟨t, (List.getElem?_set_ne hj).trans ht, hcaller⟩
  · exact ⟨t, ht, hcaller⟩

theorem result_append {s : System svc} {events : List (Event svc)} {r : ρ}
    (h : (after s events).result i = some r) (more : List (Event svc)) :
    (after s (events ++ more)).result i = some r := by
  unfold after at h ⊢
  rw [Machine.run_append]
  exact Machine.run_keeps (p := fun s => System.result s i = some r)
    (fun _ e h => System.result_step h e) h more

/-- In a list without repetition, what stands before an element stands in front of it. -/
theorem mem_of_pair_sublist {i j : Nat} {front back : List Nat}
    (hnodup : (front ++ j :: back).Nodup) (h : [i, j].Sublist (front ++ j :: back)) : i ∈ front := by
  have hfront : j ∉ front := fun hj => (List.nodup_append.mp hnodup).2.2 j hj j (by simp) rfl
  have hback : j ∉ back := (List.nodup_cons.mp (List.nodup_append.mp hnodup).2.1).1
  obtain ⟨l₁, l₂, hl, h₁, h₂⟩ := List.sublist_append_iff.mp h
  cases l₁ with
  | nil =>
    rw [List.nil_append] at hl
    subst hl
    cases h₂ with
    | cons _ h₂ => exact absurd (h₂.subset (by simp)) hback
    | cons_cons _ h₂ => exact absurd (h₂.subset (by simp)) hback
  | cons k l₁ =>
    obtain ⟨rfl, -⟩ := List.cons.inj hl
    exact h₁.subset (by simp)

/-- What a call sees of one that was over before it was made: the object takes the earlier call,
then others, then the later call. -/
theorem Linearizes.over {s : System svc} {before later : List (Event svc)}
    (h : Linearizes svc view observe spec s (before ++ later) order) {k : Nat} {r r' : ρ}
    (hi : (after s before).result i = some r) (hk : (after s before).streams.length ≤ k)
    (hr : (after s (before ++ later)).result k = some r') :
    ∃ op op' first between last, order = first ++ (i, op) :: between ++ (k, op') :: last ∧
      observe r = (spec (Machine.run (atCall spec) (view s.state) first) op).2 ∧
      observe r' =
        (spec (Machine.run (atCall spec) (view s.state) (first ++ (i, op) :: between)) op').2 := by
  obtain ⟨op, hop⟩ := h.results i r (result_append hi later)
  obtain ⟨op', hop'⟩ := h.results k r' hr
  obtain ⟨front, last, horder, hr'⟩ := Machine.mem_history_iff.mp hop'
  obtain ⟨first, rest, horder₁, hr₁⟩ := Machine.mem_history_iff.mp hop
  have hbefore := h.realTime before later rfl i k r hi hk (by rw [horder]; simp)
  have hnodup := h.once
  rw [horder, List.map_append, List.map_cons] at hbefore hnodup
  have hfront := mem_of_pair_sublist hnodup hbefore
  -- The earlier call stands once in the order, so it stands where its result was read off.
  obtain ⟨c, hc, hci⟩ := List.mem_map.mp hfront
  obtain ⟨first', between, rfl⟩ := List.append_of_mem hc
  have hsame : first = first' ∧ (i, op) = c ∧ rest = between ++ (k, op') :: last := by
    have hsplit : first ++ (i, op) :: rest = first' ++ c :: (between ++ (k, op') :: last) := by
      rw [← horder₁, horder, List.append_assoc, List.cons_append]
    have hkeys := congrArg (List.map Prod.fst) hsplit
    simp only [List.map_append, List.map_cons] at hkeys
    have honce := h.once
    rw [horder₁, List.map_append, List.map_cons] at honce
    have hlen : first.length = first'.length := by
      have hidx := congrArg (List.idxOf i) hkeys
      have hn : i ∉ first.map Prod.fst := fun hm =>
        (List.nodup_append.mp honce).2.2 i hm i (by simp) rfl
      have hn' : i ∉ first'.map Prod.fst := by
        rw [List.map_append, List.map_cons, hci, List.append_assoc] at hnodup
        exact fun hm => (List.nodup_append.mp hnodup).2.2 i hm i (by simp) rfl
      rw [List.idxOf_append_of_notMem hn, List.idxOf_append_of_notMem hn', hci] at hidx
      simpa using hidx
    obtain ⟨hfirst, htail⟩ := List.append_inj hsplit hlen
    exact ⟨hfirst, (List.cons.inj htail).1, (List.cons.inj htail).2⟩
  obtain ⟨rfl, rfl, -⟩ := hsame
  exact ⟨op, op', first, between, last, horder, hr₁, hr'⟩

end Invariant

end Exchange
