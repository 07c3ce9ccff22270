import Mathlib.Data.List.Basic
import Mathlib.Data.List.Induction

/-!
# Backpressure

Two parties on a connection whose two buffers are bounded. One writes all its requests before it reads
an answer; the other answers request after request, and reads nothing while it is writing an answer.
All answers arrive, in whatever order the moves are made, when some first answers fit into their buffer
and the requests behind the next one fit into the other; otherwise the parties end up waiting for each
other.
-/

namespace Backpressure

/-! ## Connections -/

/-- The room in the two directions of a connection. -/
structure Buffers where
  up : Nat
  down : Nat
  up_pos : 0 < up
  down_pos : 0 < down

/-- A request, which is not empty, and its answer. -/
structure Job (α β : Type) where
  first : α
  rest : List α
  answer : List β

section Jobs

variable {α β : Type}

/-- The elements of a request. -/
def Job.request (j : Job α β) : List α := j.first :: j.rest

/-- The requests of some jobs one after the other. -/
def requests (jobs : List (Job α β)) : List α := jobs.flatMap Job.request

/-- Their answers one after the other. -/
def answers (jobs : List (Job α β)) : List β := jobs.flatMap Job.answer

/-- Some first answers fit into their buffer, and the requests behind the next one into the other. -/
def Fits (b : Buffers) (jobs : List (Job α β)) : Prop :=
  ∃ m < jobs.length + 1,
    (answers (jobs.take m)).length ≤ b.down ∧ (requests (jobs.drop (m + 1))).length ≤ b.up

instance (b : Buffers) (jobs : List (Job α β)) : Decidable (Fits b jobs) :=
  inferInstanceAs (Decidable (∃ m < jobs.length + 1, _))

@[simp] theorem requests_nil : requests ([] : List (Job α β)) = [] := rfl

@[simp] theorem answers_nil : answers ([] : List (Job α β)) = [] := rfl

@[simp] theorem requests_cons (j : Job α β) (jobs : List (Job α β)) :
    requests (j :: jobs) = j.request ++ requests jobs := rfl

@[simp] theorem answers_cons (j : Job α β) (jobs : List (Job α β)) :
    answers (j :: jobs) = j.answer ++ answers jobs := rfl

theorem requests_append (jobs jobs' : List (Job α β)) :
    requests (jobs ++ jobs') = requests jobs ++ requests jobs' := List.flatMap_append

theorem answers_append (jobs jobs' : List (Job α β)) :
    answers (jobs ++ jobs') = answers jobs ++ answers jobs' := List.flatMap_append

theorem requests_eq_nil {jobs : List (Job α β)} (h : requests jobs = []) : jobs = [] := by
  cases jobs with
  | nil => rfl
  | cons j jobs => cases h

/-- More jobs have longer answers. -/
theorem length_answers_take_mono (jobs : List (Job α β)) {k m : Nat} (h : k ≤ m) :
    (answers (jobs.take k)).length ≤ (answers (jobs.take m)).length := by
  have hsplit : jobs.take m = jobs.take k ++ (jobs.drop k).take (m - k) := by
    rw [← List.take_add, Nat.add_sub_cancel' h]
  rw [hsplit, answers_append, List.length_append]
  exact Nat.le_add_right _ _

/-- Fewer jobs have shorter requests. -/
theorem length_requests_drop_anti (jobs : List (Job α β)) {k m : Nat} (h : k ≤ m) :
    (requests (jobs.drop m)).length ≤ (requests (jobs.drop k)).length := by
  have hsplit : jobs.drop k = (jobs.drop k).take (m - k) ++ jobs.drop m := by
    conv_lhs => rw [← List.take_append_drop (m - k) (jobs.drop k)]
    rw [List.drop_drop, Nat.add_sub_cancel' h]
  rw [hsplit, requests_append, List.length_append]
  exact Nat.le_add_left _ _

theorem length_le_requests (jobs : List (Job α β)) : jobs.length ≤ (requests jobs).length := by
  induction jobs with
  | nil => exact Nat.le_refl _
  | cons j jobs ih =>
    rw [requests_cons, List.length_append, List.length_cons, Job.request, List.length_cons]
    omega

theorem length_le_answers {jobs : List (Job α β)} (h : ∀ j ∈ jobs, j.answer ≠ []) :
    jobs.length ≤ (answers jobs).length := by
  induction jobs with
  | nil => exact Nat.le_refl _
  | cons j jobs ih =>
    rw [List.forall_mem_cons] at h
    have hpos := List.length_pos_iff.mpr h.1
    have hrest := ih h.2
    rw [answers_cons, List.length_append, List.length_cons]
    omega

/-- Whatever the buffers, enough jobs do not fit. -/
theorem not_fits_of_length {b : Buffers} {jobs : List (Job α β)} (h : ∀ j ∈ jobs, j.answer ≠ [])
    (hlength : b.up + b.down + 2 ≤ jobs.length) : ¬ Fits b jobs := by
  rintro ⟨m, hm, hdown, hup⟩
  have hanswers : (jobs.take m).length ≤ (answers (jobs.take m)).length :=
    length_le_answers fun j hj => h j (List.mem_of_mem_take hj)
  have hrequests := length_le_requests (jobs.drop (m + 1))
  rw [List.length_take] at hanswers
  rw [List.length_drop] at hrequests
  omega

end Jobs

/-! ## Moves -/

/-- Where every element is: not written, in the buffer of the requests, part of a request that was not
read to its end, part of an answer that is being written, in the buffer of the answers, or arrived. -/
structure Link (α β : Type) where
  unsent : List α
  up : List α
  jobs : List (Job α β)
  out : List β
  down : List β
  arrived : List β

/-- One element is moved on. -/
inductive Move where
  | write
  | read
  | answer
  | arrive
  deriving DecidableEq, Repr

namespace Link

variable {α β : Type}

/-- Nothing was written yet. -/
def new (jobs : List (Job α β)) : Link α β := ⟨requests jobs, [], jobs, [], [], []⟩

/-- Make a move, if it can be made. -/
def move (b : Buffers) (s : Link α β) : Move → Link α β
  | .write =>
      match s.unsent with
      | x :: unsent =>
          if s.up.length < b.up then { s with unsent := unsent, up := s.up ++ [x] } else s
      | [] => s
  | .read =>
      match s.out, s.up, s.jobs with
      | [], _ :: up, ⟨_, [], answer⟩ :: jobs => { s with up := up, jobs := jobs, out := answer }
      | [], _ :: up, ⟨_, x :: rest, answer⟩ :: jobs =>
          { s with up := up, jobs := ⟨x, rest, answer⟩ :: jobs }
      | _, _, _ => s
  | .answer =>
      match s.out with
      | y :: out =>
          if s.down.length < b.down then { s with out := out, down := s.down ++ [y] } else s
      | [] => s
  | .arrive =>
      match s.unsent, s.down with
      | [], y :: down => { s with down := down, arrived := s.arrived ++ [y] }
      | _, _ => s

/-- The connection after a list of moves. -/
def after (b : Buffers) (jobs : List (Job α β)) (moves : List Move) : Link α β :=
  moves.foldl (move b) (new jobs)

/-- Every answer has arrived. -/
structure Complete (s : Link α β) : Prop where
  unsent : s.unsent = []
  up : s.up = []
  jobs : s.jobs = []
  out : s.out = []
  down : s.down = []

/-- The moves that can be made. -/
inductive Moves (b : Buffers) : Link α β → Link α β → Prop where
  | write {x : α} {unsent up : List α} {jobs : List (Job α β)} {out down arrived : List β}
      (h : up.length < b.up) :
      Moves b ⟨x :: unsent, up, jobs, out, down, arrived⟩ ⟨unsent, up ++ [x], jobs, out, down, arrived⟩
  | readLast {x y : α} {unsent up : List α} {answer : List β} {jobs : List (Job α β)}
      {down arrived : List β} :
      Moves b ⟨unsent, x :: up, ⟨y, [], answer⟩ :: jobs, [], down, arrived⟩
        ⟨unsent, up, jobs, answer, down, arrived⟩
  | readPart {x y z : α} {unsent up rest : List α} {answer : List β} {jobs : List (Job α β)}
      {down arrived : List β} :
      Moves b ⟨unsent, x :: up, ⟨y, z :: rest, answer⟩ :: jobs, [], down, arrived⟩
        ⟨unsent, up, ⟨z, rest, answer⟩ :: jobs, [], down, arrived⟩
  | answer {y : β} {unsent up : List α} {jobs : List (Job α β)} {out down arrived : List β}
      (h : down.length < b.down) :
      Moves b ⟨unsent, up, jobs, y :: out, down, arrived⟩ ⟨unsent, up, jobs, out, down ++ [y], arrived⟩
  | arrive {y : β} {up : List α} {jobs : List (Job α β)} {out down arrived : List β} :
      Moves b ⟨[], up, jobs, out, y :: down, arrived⟩ ⟨[], up, jobs, out, down, arrived ++ [y]⟩

section Invariant

variable {b : Buffers} {jobs : List (Job α β)} {s s' : Link α β}

/-- A move that cannot be made changes nothing. -/
theorem move_cases (b : Buffers) (s : Link α β) (m : Move) :
    s.move b m = s ∨ Moves b s (s.move b m) := by
  obtain ⟨unsent, up, jobs, out, down, arrived⟩ := s
  cases m with
  | write =>
    cases unsent with
    | nil => exact .inl rfl
    | cons x unsent =>
      simp only [move]
      split
      · next h => exact .inr (.write h)
      · exact .inl rfl
  | read =>
    rcases out with _ | ⟨y, out⟩
    · rcases up with _ | ⟨x, up⟩
      · exact .inl rfl
      · rcases jobs with _ | ⟨⟨y, _ | ⟨z, rest⟩, answer⟩, jobs⟩
        · exact .inl rfl
        · exact .inr .readLast
        · exact .inr .readPart
    · exact .inl rfl
  | answer =>
    cases out with
    | nil => exact .inl rfl
    | cons y out =>
      simp only [move]
      split
      · next h => exact .inr (.answer h)
      · exact .inl rfl
  | arrive =>
    rcases unsent with _ | ⟨x, unsent⟩
    · rcases down with _ | ⟨y, down⟩
      · exact .inl rfl
      · exact .inr .arrive
    · exact .inl rfl

/-- The other party reads request `k`, whose answer it has not begun to write. -/
def Reading (jobs : List (Job α β)) (s : Link α β) (k : Nat) : Prop :=
  s.out = [] ∧ s.jobs.map Job.answer = (jobs.drop k).map Job.answer ∧
    s.jobs.tail = jobs.drop (k + 1)

/-- It writes the answer to request `k`, of which `out` is left. -/
def Answering (jobs : List (Job α β)) (s : Link α β) (k : Nat) : Prop :=
  ∃ j, jobs.drop k = j :: s.jobs ∧ s.out.length ≤ j.answer.length

/-- What every move keeps: no buffer holds more than it has room for, nothing is lost or reordered, and
the other party is at one of the requests. -/
structure Inv (b : Buffers) (jobs : List (Job α β)) (s : Link α β) : Prop where
  up_le : s.up.length ≤ b.up
  down_le : s.down.length ≤ b.down
  sent : s.up ++ s.unsent = requests s.jobs
  answered : s.arrived ++ (s.down ++ (s.out ++ answers s.jobs)) = answers jobs
  place : ∃ k ≤ jobs.length, Reading jobs s k ∨ Answering jobs s k

theorem inv_new (b : Buffers) (jobs : List (Job α β)) : Inv b jobs (new jobs) :=
  ⟨Nat.zero_le _, Nat.zero_le _, rfl, rfl, 0, Nat.zero_le _,
    .inl ⟨rfl, rfl, (List.drop_one).symm⟩⟩

/-- Between two answers the next request is read. -/
theorem Answering.reading {k : Nat} (h : Answering jobs s k) (hout : s.out = []) :
    Reading jobs s (k + 1) ∧ k + 1 ≤ jobs.length := by
  obtain ⟨j, hdrop, -⟩ := h
  have hlt : k < jobs.length := by
    by_contra hge
    rw [List.drop_eq_nil_of_le (Nat.not_lt.mp hge)] at hdrop
    cases hdrop
  have hnext : s.jobs = jobs.drop (k + 1) := by
    rw [← List.tail_drop, hdrop, List.tail_cons]
  refine ⟨⟨hout, by rw [hnext], ?_⟩, hlt⟩
  rw [hnext, List.tail_drop]

theorem Inv.reading (h : Inv b jobs s) (hout : s.out = []) :
    ∃ k ≤ jobs.length, Reading jobs s k := by
  obtain ⟨k, hk, hreading | hanswering⟩ := h.place
  · exact ⟨k, hk, hreading⟩
  · obtain ⟨hreading, hle⟩ := hanswering.reading hout
    exact ⟨k + 1, hle, hreading⟩

theorem Inv.moves (h : Inv b jobs s) (hm : Moves b s s') : Inv b jobs s' := by
  have hreading := h.reading
  obtain ⟨hup, hdown, hsent, hanswered, hplace⟩ := h
  cases hm with
  | write hroom =>
    refine ⟨?_, hdown, ?_, hanswered, hplace⟩
    · rw [List.length_append, List.length_singleton]
      exact hroom
    · rw [← hsent, List.append_assoc]
      rfl
  | readLast =>
    refine ⟨Nat.le_of_succ_le hup, hdown, (List.cons.inj hsent).2, hanswered, ?_⟩
    obtain ⟨k, hk, -, hanswers, htail⟩ := hreading rfl
    cases hdrop : jobs.drop k with
    | nil =>
      rw [hdrop] at hanswers
      cases hanswers
    | cons j later =>
      rw [hdrop] at hanswers
      rw [← List.tail_drop, hdrop] at htail
      obtain ⟨hanswer, -⟩ := List.cons.inj hanswers
      refine ⟨k, hk, .inr ⟨j, ?_, ?_⟩⟩
      · rw [hdrop]
        exact congrArg (j :: ·) htail.symm
      · exact Nat.le_of_eq (congrArg List.length hanswer)
  | readPart =>
    refine ⟨Nat.le_of_succ_le hup, hdown, (List.cons.inj hsent).2, hanswered, ?_⟩
    obtain ⟨k, hk, -, hanswers, htail⟩ := hreading rfl
    exact ⟨k, hk, .inl ⟨rfl, hanswers, htail⟩⟩
  | answer hroom =>
    refine ⟨hup, ?_, hsent, ?_, ?_⟩
    · rw [List.length_append, List.length_singleton]
      exact hroom
    · rw [← hanswered, List.append_assoc]
      rfl
    · obtain ⟨k, hk, ⟨hout, -⟩ | ⟨j, hdrop, hle⟩⟩ := hplace
      · cases hout
      · exact ⟨k, hk, .inr ⟨j, hdrop, Nat.le_of_succ_le hle⟩⟩
  | arrive =>
    refine ⟨hup, Nat.le_of_succ_le hdown, hsent, ?_, hplace⟩
    rw [← hanswered, List.append_assoc]
    rfl

theorem inv_after (b : Buffers) (jobs : List (Job α β)) (moves : List Move) :
    Inv b jobs (after b jobs moves) := by
  induction moves using List.reverseRecOn with
  | nil => exact inv_new b jobs
  | append_singleton moves m ih =>
    unfold after at ih ⊢
    rw [List.foldl_append]
    rcases move_cases b (moves.foldl (move b) (new jobs)) m with hsame | hmoves
    · rw [List.foldl_cons, List.foldl_nil, hsame]
      exact ih
    · exact ih.moves hmoves

/-! ## Who waits for whom -/

/-- Where the other party is, in numbers: the answers before request `k` are out, and the requests
behind it are not read; while it writes the answer to `k`, that is all. -/
theorem Inv.lengths (h : Inv b jobs s) : ∃ k ≤ jobs.length,
    (answers (jobs.take k)).length ≤ s.arrived.length + s.down.length ∧
    (requests (jobs.drop (k + 1))).length ≤ s.up.length + s.unsent.length ∧
    (s.out ≠ [] →
      (answers (jobs.take (k + 1))).length = s.arrived.length + s.down.length + s.out.length ∧
      (requests (jobs.drop (k + 1))).length = s.up.length + s.unsent.length) := by
  have hsent := congrArg List.length h.sent
  rw [List.length_append] at hsent
  have hanswered := congrArg List.length h.answered
  simp only [List.length_append] at hanswered
  have hsplit : ∀ k, (answers jobs).length =
      (answers (jobs.take k)).length + (answers (jobs.drop k)).length := by
    intro k
    rw [← List.length_append, ← answers_append, List.take_append_drop]
  obtain ⟨k, hk, ⟨hout, hanswers, htail⟩ | ⟨j, hdrop, hle⟩⟩ := h.place
  · refine ⟨k, hk, ?_, ?_, fun hne => absurd hout hne⟩
    · have hsame : answers s.jobs = answers (jobs.drop k) := by
        simp only [answers, List.flatMap_def, hanswers]
      have hall := hsplit k
      rw [hout, List.length_nil, hsame] at hanswered
      omega
    · rw [← htail, hsent]
      cases s.jobs with
      | nil => exact Nat.le_refl _
      | cons j jobs =>
        rw [requests_cons, List.length_append]
        exact Nat.le_add_left _ _
  · have hnext : jobs.drop (k + 1) = s.jobs := by
      rw [← List.tail_drop, hdrop, List.tail_cons]
    have hat := hsplit k
    have hbehind := hsplit (k + 1)
    rw [hdrop, answers_cons, List.length_append] at hat
    rw [hnext] at hbehind
    refine ⟨k, hk, ?_, ?_, fun _ => ⟨?_, ?_⟩⟩
    · omega
    · rw [hnext]
      omega
    · omega
    · rw [hnext]
      omega

/-- Once all requests are written, they have fitted. -/
theorem Inv.fits (h : Inv b jobs s) (hunsent : s.unsent = []) (harrived : s.arrived = []) :
    Fits b jobs := by
  obtain ⟨k, hk, hdown, hup, -⟩ := h.lengths
  rw [hunsent, List.length_nil] at hup
  rw [harrived, List.length_nil] at hdown
  exact ⟨k, Nat.lt_succ_of_le hk, by have := h.down_le; omega, by have := h.up_le; omega⟩

/-- What does not fit is never written to its end, and nothing arrives. -/
theorem after_unsent (h : ¬ Fits b jobs) (moves : List Move) :
    (after b jobs moves).unsent ≠ [] ∧ (after b jobs moves).arrived = [] := by
  induction moves using List.reverseRecOn with
  | nil => exact ⟨fun hunsent => h ((inv_new b jobs).fits hunsent rfl), rfl⟩
  | append_singleton moves m ih =>
    have hinv := inv_after b jobs (moves ++ [m])
    have hlast : after b jobs (moves ++ [m]) = (after b jobs moves).move b m := by
      unfold after
      rw [List.foldl_append]
      rfl
    rw [hlast] at hinv ⊢
    rcases move_cases b (after b jobs moves) m with hsame | hmoves
    · rw [hsame]
      exact ih
    · generalize (after b jobs moves).move b m = s' at hinv hmoves
      generalize after b jobs moves = s at ih hmoves
      have harrived : s'.arrived = [] := by
        cases hmoves with
        | arrive => exact absurd rfl ih.1
        | _ => exact ih.2
      exact ⟨fun hunsent => h (hinv.fits hunsent harrived), harrived⟩

/-- What fits can always be moved on, until everything has arrived. -/
theorem Inv.progress (h : Inv b jobs s) (hfits : Fits b jobs) (hnot : ¬ s.Complete) :
    ∃ m, Moves b s (s.move b m) := by
  obtain ⟨m, -, hdown, hup⟩ := hfits
  obtain ⟨k, -, -, -, hanswering⟩ := h.lengths
  have hrequests := length_requests_drop_anti jobs (k := m + 1) (m := k + 1)
  have hanswers := length_answers_take_mono jobs (k := k + 1) (m := m)
  obtain ⟨hup_le, hdown_le, hsent, -, -⟩ := h
  obtain ⟨unsent, up, jobs', out, down, arrived⟩ := s
  by_contra hstuck
  rw [not_exists] at hstuck
  have hstill : ∀ move, (Link.mk unsent up jobs' out down arrived).move b move =
      Link.mk unsent up jobs' out down arrived := fun move =>
    (move_cases b _ move).resolve_right (hstuck move)
  rcases out with _ | ⟨y, out⟩
  · -- the other party reads: there is nothing to read, and so nothing to write
    rcases up with _ | ⟨x, up⟩
    · rcases unsent with _ | ⟨x, unsent⟩
      · rcases down with _ | ⟨y, down⟩
        · exact hnot ⟨rfl, rfl, requests_eq_nil hsent.symm, rfl, rfl⟩
        · exact hstuck .arrive .arrive
      · refine hstuck .write ?_
        simp only [move, List.length_nil, if_pos b.up_pos]
        exact .write b.up_pos
    · rcases jobs' with _ | ⟨⟨z, _ | ⟨z', rest⟩, answer⟩, jobs'⟩
      · cases hsent
      · exact hstuck .read .readLast
      · exact hstuck .read .readPart
  · obtain ⟨htaken, hleft⟩ := hanswering (List.cons_ne_nil _ _)
    by_cases hroom : down.length < b.down
    · refine hstuck .answer ?_
      simp only [move, if_pos hroom]
      exact .answer hroom
    · rcases unsent with _ | ⟨x, unsent⟩
      · rcases down with _ | ⟨y', down⟩
        · exact hroom b.down_pos
        · exact hstuck .arrive .arrive
      · -- both buffers are full, which they cannot be if the jobs fit
        by_cases hroom' : up.length < b.up
        · refine hstuck .write ?_
          simp only [move, if_pos hroom']
          exact .write hroom'
        · simp only [List.length_cons] at *
          omega

/-- How many moves are left. -/
def work (s : Link α β) : Nat :=
  2 * s.unsent.length + s.up.length + 2 * (answers s.jobs).length + 2 * s.out.length + s.down.length

theorem work_moves (h : Moves b s s') : s'.work + 1 = s.work := by
  cases h <;> simp [work] <;> omega

/-- From every point, what fits can be brought to its end. -/
theorem completes (hfits : Fits b jobs) (moves : List Move) :
    ∃ more, (after b jobs (moves ++ more)).Complete := by
  generalize hn : (after b jobs moves).work = n
  induction n generalizing moves with
  | zero =>
    refine ⟨[], ?_⟩
    rw [List.append_nil]
    by_contra hnot
    obtain ⟨m, hm⟩ := (inv_after b jobs moves).progress hfits hnot
    have hless := work_moves hm
    omega
  | succ n ih =>
    by_cases hcomplete : (after b jobs moves).Complete
    · exact ⟨[], by rwa [List.append_nil]⟩
    · obtain ⟨m, hm⟩ := (inv_after b jobs moves).progress hfits hcomplete
      have hlast : after b jobs (moves ++ [m]) = (after b jobs moves).move b m := by
        unfold after
        rw [List.foldl_append]
        rfl
      have hless := work_moves hm
      rw [← hlast] at hless
      obtain ⟨more, hmore⟩ := ih (moves ++ [m]) (by omega)
      exact ⟨m :: more, by rwa [List.append_assoc, List.singleton_append] at hmore⟩

/-- At the end every answer has arrived. -/
theorem Complete.arrived (h : s.Complete) (hinv : Inv b jobs s) : s.arrived = answers jobs := by
  have hanswered := hinv.answered
  rw [h.down, h.out, h.jobs] at hanswered
  simpa using hanswered

end Invariant

end Link

end Backpressure
