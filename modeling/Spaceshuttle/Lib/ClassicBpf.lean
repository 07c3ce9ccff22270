import Mathlib.Data.List.Basic

/-!
# Classic BPF

The instructions of a socket filter that load words of its input, jump and return, in the encoding
of `struct sock_filter`. A program that runs off its end, loads from outside its input or has an
instruction outside this fragment returns nothing. Jumps only go forward, so a program of `n`
instructions returns within `n` steps or not at all.
-/

namespace ClassicBpf

/-- `struct sock_filter`. -/
structure Insn where
  code : UInt16
  jt : UInt8
  jf : UInt8
  k : UInt32

/-- What a conditional jump asks of the accumulator. -/
inductive Test where
  | eq
  | gt
  | ge
  | set

/-- The jump is taken. -/
def Test.holds (acc k : UInt32) : Test → Bool
  | eq => acc == k
  | gt => k < acc
  | ge => k ≤ acc
  | set => acc &&& k != 0

/-- What an instruction does. -/
inductive Op where
  | loadAbs (offset : UInt32)
  | jump (offset : UInt32)
  | branch (test : Test) (k : UInt32) (jt jf : UInt8)
  | ret (k : UInt32)
  | retAcc

/-- The operation of an instruction: `LD|W|ABS`, `JMP|JA`, the conditional jumps on a constant,
`RET|K` and `RET|A`. -/
def Insn.decode (i : Insn) : Option Op :=
  match i.code with
  | 0x20 => some (.loadAbs i.k)
  | 0x05 => some (.jump i.k)
  | 0x15 => some (.branch .eq i.k i.jt i.jf)
  | 0x25 => some (.branch .gt i.k i.jt i.jf)
  | 0x35 => some (.branch .ge i.k i.jt i.jf)
  | 0x45 => some (.branch .set i.k i.jt i.jf)
  | 0x06 => some (.ret i.k)
  | 0x16 => some .retAcc
  | _ => none

/-- The program counter and the accumulator. -/
structure State where
  pc : Nat
  acc : UInt32

/-- One instruction: the next state, or the value that is returned. -/
def step (prog : List Insn) (load : UInt32 → Option UInt32) (s : State) :
    Option (State ⊕ UInt32) :=
  match prog[s.pc]?.bind Insn.decode with
  | none => none
  | some (.loadAbs offset) => (load offset).map fun word => .inl ⟨s.pc + 1, word⟩
  | some (.jump offset) => some (.inl ⟨s.pc + 1 + offset.toNat, s.acc⟩)
  | some (.branch test k jt jf) =>
    some (.inl ⟨s.pc + 1 + (if test.holds s.acc k then jt else jf).toNat, s.acc⟩)
  | some (.ret k) => some (.inr k)
  | some .retAcc => some (.inr s.acc)

/-- At most `fuel` instructions. -/
def run (prog : List Insn) (load : UInt32 → Option UInt32) : Nat → State → Option UInt32
  | 0, _ => none
  | fuel + 1, s =>
    match step prog load s with
    | none => none
    | some (.inl s') => run prog load fuel s'
    | some (.inr value) => some value

/-- What a program returns. -/
def eval (prog : List Insn) (load : UInt32 → Option UInt32) : Option UInt32 :=
  run prog load prog.length ⟨0, 0⟩

/-- From `s` the program reaches an instruction that returns `value`. -/
inductive Returns (prog : List Insn) (load : UInt32 → Option UInt32) : State → UInt32 → Prop
  | now {s : State} {value : UInt32} (h : step prog load s = some (.inr value)) :
      Returns prog load s value
  | later {s s' : State} {value : UInt32} (h : step prog load s = some (.inl s'))
      (hrest : Returns prog load s' value) : Returns prog load s value

variable {prog : List Insn} {load : UInt32 → Option UInt32} {s s' : State} {value : UInt32}

theorem lt_length_of_step {next : State ⊕ UInt32} (h : step prog load s = some next) :
    s.pc < prog.length := by
  by_contra hpc
  rw [step, List.getElem?_eq_none (Nat.le_of_not_lt hpc)] at h
  cases h

/-- Jumps go forward. -/
theorem pc_lt_of_step (h : step prog load s = some (.inl s')) : s.pc < s'.pc := by
  unfold step at h
  split at h
  · cases h
  · obtain ⟨word, -, hword⟩ := Option.map_eq_some_iff.mp h
    cases hword
    exact Nat.lt_succ_self s.pc
  · cases h
    show s.pc < s.pc + 1 + _
    omega
  · cases h
    show s.pc < s.pc + 1 + _
    omega
  · cases h
  · cases h

/-- The rest of the program is fuel enough. -/
theorem Returns.run (h : Returns prog load s value) {fuel : Nat}
    (hfuel : prog.length - s.pc ≤ fuel) : ClassicBpf.run prog load fuel s = some value := by
  induction h generalizing fuel with
  | now hstep =>
    have hlt := lt_length_of_step hstep
    obtain ⟨fuel, rfl⟩ : ∃ fuel', fuel = fuel' + 1 := ⟨fuel - 1, by omega⟩
    rw [ClassicBpf.run, hstep]
  | later hstep _ ih =>
    have hlt := lt_length_of_step hstep
    have hpc := pc_lt_of_step hstep
    obtain ⟨fuel, rfl⟩ : ∃ fuel', fuel = fuel' + 1 := ⟨fuel - 1, by omega⟩
    rw [ClassicBpf.run, hstep]
    exact ih (by omega)

theorem returns_of_run {fuel : Nat} (h : run prog load fuel s = some value) :
    Returns prog load s value := by
  induction fuel generalizing s with
  | zero => cases h
  | succ fuel ih =>
    rw [run] at h
    cases hstep : step prog load s with
    | none =>
      rw [hstep] at h
      cases h
    | some next =>
      rw [hstep] at h
      cases next with
      | inl s' => exact .later hstep (ih h)
      | inr returned =>
        cases h
        exact .now hstep

/-- The value of a program is the one a run of it reaches, and nothing if no run returns. -/
theorem eval_eq_some_iff : eval prog load = some value ↔ Returns prog load ⟨0, 0⟩ value :=
  ⟨returns_of_run, fun h => h.run (Nat.le_refl _)⟩

/-! ## Rules -/

section Rules

variable {i : Insn} (hi : prog[s.pc]? = some i)

include hi

theorem returns_ret {k : UInt32} (hop : i.decode = some (.ret k)) : Returns prog load s k := by
  apply Returns.now
  rw [step, hi, Option.bind_some, hop]

theorem returns_load {offset word : UInt32} (hop : i.decode = some (.loadAbs offset))
    (hword : load offset = some word) (hrest : Returns prog load ⟨s.pc + 1, word⟩ value) :
    Returns prog load s value := by
  refine Returns.later ?_ hrest
  rw [step, hi, Option.bind_some, hop]
  show (load offset).map _ = _
  rw [hword]
  rfl

/-- A conditional jump: the two cases go on at different instructions. -/
theorem returns_branch {test : Test} {k : UInt32} {jt jf : UInt8}
    (hop : i.decode = some (.branch test k jt jf))
    (htrue : test.holds s.acc k = true → Returns prog load ⟨s.pc + 1 + jt.toNat, s.acc⟩ value)
    (hfalse : test.holds s.acc k = false → Returns prog load ⟨s.pc + 1 + jf.toNat, s.acc⟩ value) :
    Returns prog load s value := by
  have hstep : step prog load s =
      some (.inl ⟨s.pc + 1 + (if test.holds s.acc k then jt else jf).toNat, s.acc⟩) := by
    rw [step, hi, Option.bind_some, hop]
  cases htest : test.holds s.acc k with
  | true =>
    rw [htest, if_pos rfl] at hstep
    exact .later hstep (htrue htest)
  | false =>
    rw [htest, if_neg Bool.false_ne_true] at hstep
    exact .later hstep (hfalse htest)

end Rules

end ClassicBpf
