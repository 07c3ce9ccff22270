import Spaceshuttle.Kernel.Snaft
import Spaceshuttle.Lib.Machine
import Spaceshuttle.Lib.WordArithmetic

/-!
# The sandbox

`SandboxRegion` of `crates/trust-kernel/src/zandbak.rs`. A `usize` has 64 bits. The atomics of the source
are fields, and the measured time of a zero-fill is an argument. `allocate` is written over the
arithmetic of a build; atomic additions wrap in every build.
-/

namespace Spaceshuttle.Kernel

open WordArithmetic (Arithmetic wrapping checked alignUp)

/-- `MemoryBudget` (`zandbak.rs:112-121`). -/
structure MemoryBudget where
  workRegionBytes : UInt64
  stackBytes : UInt64
  useHugepages : Bool
  maxAllocations : UInt64
  deriving DecidableEq, Repr

/-- `memory_budget` (`zandbak.rs:35-109`): the first case that matches. -/
def memoryBudget (intent : String) : MemoryBudget :=
  if intent = "math_calculation" then ⟨4 * 1024 * 1024, 512 * 1024, false, 64⟩
  else if intent = "code:execute" then ⟨64 * 1024 * 1024, 2 * 1024 * 1024, true, 1024⟩
  else if intent = "file:scan" then ⟨32 * 1024 * 1024, 1 * 1024 * 1024, false, 256⟩
  else if startsWith intent "ai:" then ⟨512 * 1024 * 1024, 4 * 1024 * 1024, true, 4096⟩
  else if startsWith intent "db:" then ⟨16 * 1024 * 1024, 1 * 1024 * 1024, false, 512⟩
  else if startsWith intent "http:" then ⟨32 * 1024 * 1024, 2 * 1024 * 1024, false, 1024⟩
  else if startsWith intent "shell:" then ⟨32 * 1024 * 1024, 2 * 1024 * 1024, false, 512⟩
  else if startsWith intent "call:" then ⟨128 * 1024 * 1024, 2 * 1024 * 1024, true, 2048⟩
  else ⟨8 * 1024 * 1024, 512 * 1024, false, 128⟩

/-- `PAGE_SIZE` (`zandbak.rs:128`). -/
def pageSize : UInt64 := 4096

/-- `HUGEPAGE_SIZE` (`zandbak.rs:129`). -/
def hugepageSize : UInt64 := 2 * 1024 * 1024

/-- `SandboxRegion` (`zandbak.rs:133-148`). -/
structure SandboxRegion where
  intent : String
  budget : MemoryBudget
  allocatedBytes : UInt64
  allocationCount : UInt64
  isClean : Bool
  guardsActive : Bool
  effectivePageSize : UInt64
  deriving DecidableEq, Repr

/-- `AllocResult` (`zandbak.rs:152-172`). -/
inductive AllocResult where
  | success (offset size remainingBytes remainingAllocations : UInt64)
  | budgetExceeded (requested available : UInt64)
  | allocationLimitReached (current max : UInt64)
  | regionDirty
  deriving DecidableEq, Repr

/-- `ZerofillEvent` (`zandbak.rs:176-183`). -/
inductive ZerofillEvent where
  | routine (bytesZeroed durationNs : UInt64)
  | emergency (bytesZeroed durationNs : UInt64) (triggeredBy : String)
  | skipped
  deriving DecidableEq, Repr

/-- `ZerofillPolicy` (`zandbak.rs:307-314`). -/
inductive ZerofillPolicy where
  | everyDealloc
  | onExit
  | never
  deriving DecidableEq, Repr

/-- `align_to_page` (`zandbak.rs:330-332`). -/
def alignToPage {m : Type → Type} [Monad m] (arith : Arithmetic m) (size page : UInt64) : m UInt64 := do
  let sum ← arith.add size page
  let top ← arith.sub sum 1
  let low ← arith.sub page 1
  pure (top &&& ~~~low)

namespace SandboxRegion

/-- `SandboxRegion::new` (`zandbak.rs:187-200`). -/
def new (intent : String) : SandboxRegion :=
  let budget := memoryBudget intent
  { intent
    budget
    allocatedBytes := 0
    allocationCount := 0
    isClean := true
    guardsActive := true
    effectivePageSize := if budget.useHugepages then hugepageSize else pageSize }

/-- `allocate` (`zandbak.rs:203-241`). -/
def allocate {m : Type → Type} [Monad m] (arith : Arithmetic m) (region : SandboxRegion)
    (size : UInt64) : m (SandboxRegion × AllocResult) :=
  if !region.isClean then pure (region, .regionDirty)
  else
    let currentAllocs := region.allocationCount
    if currentAllocs ≥ region.budget.maxAllocations then
      pure (region, .allocationLimitReached currentAllocs region.budget.maxAllocations)
    else do
      let alignedSize ← alignToPage arith size region.effectivePageSize
      let currentBytes := region.allocatedBytes
      let needed ← arith.add currentBytes alignedSize
      if needed > region.budget.workRegionBytes then do
        let available ← arith.sub region.budget.workRegionBytes currentBytes
        pure (region, .budgetExceeded alignedSize available)
      else do
        let offset := region.allocatedBytes
        let region :=
          { region with
            allocatedBytes := region.allocatedBytes + alignedSize
            allocationCount := region.allocationCount + 1
            isClean := false }
        let used ← arith.add offset alignedSize
        let remainingBytes ← arith.sub region.budget.workRegionBytes used
        let count ← arith.add currentAllocs 1
        let remainingAllocs ← arith.sub region.budget.maxAllocations count
        pure (region, .success offset alignedSize remainingBytes remainingAllocs)

/-- What a zero-fill leaves behind. -/
def zeroed (region : SandboxRegion) : SandboxRegion :=
  { region with allocatedBytes := 0, allocationCount := 0, isClean := true }

/-- `zerofill` (`zandbak.rs:246-269`). -/
def zerofill (region : SandboxRegion) (policy : ZerofillPolicy) (elapsedNs : UInt64) :
    SandboxRegion × ZerofillEvent :=
  match policy with
  | .everyDealloc =>
      let bytes := region.allocatedBytes
      (region.zeroed, .routine bytes (max (bytes / 8) elapsedNs))
  | .onExit => (region, .skipped)
  | .never => (region, .skipped)

/-- `emergency_zerofill` (`zandbak.rs:274-286`). -/
def emergencyZerofill (region : SandboxRegion) (reason : String) (elapsedNs : UInt64) :
    SandboxRegion × ZerofillEvent :=
  let bytes := region.budget.workRegionBytes
  (region.zeroed, .emergency bytes (max (bytes / 8) elapsedNs) reason)

end SandboxRegion

/-! ## Runs -/

/-- The operations on a region. -/
inductive SandboxOp where
  | allocate (size : UInt64)
  | zerofill (policy : ZerofillPolicy) (elapsedNs : UInt64)
  | emergencyZerofill (reason : String) (elapsedNs : UInt64)
  deriving DecidableEq, Repr

/-- Run an operation in a release build. -/
def sandboxStep (region : SandboxRegion) : SandboxOp → SandboxRegion × Option AllocResult
  | .allocate size =>
      let out := Id.run (region.allocate wrapping size)
      (out.1, some out.2)
  | .zerofill policy elapsedNs => ((region.zerofill policy elapsedNs).1, none)
  | .emergencyZerofill reason elapsedNs => ((region.emergencyZerofill reason elapsedNs).1, none)

/-! ## Budgets -/

/-- The page size of an intent. -/
def pageOf (intent : String) : UInt64 :=
  if (memoryBudget intent).useHugepages then hugepageSize else pageSize

/-- The budgets of all intents. -/
def budgets : List MemoryBudget :=
  [⟨4 * 1024 * 1024, 512 * 1024, false, 64⟩, ⟨64 * 1024 * 1024, 2 * 1024 * 1024, true, 1024⟩,
    ⟨32 * 1024 * 1024, 1 * 1024 * 1024, false, 256⟩, ⟨512 * 1024 * 1024, 4 * 1024 * 1024, true, 4096⟩,
    ⟨16 * 1024 * 1024, 1 * 1024 * 1024, false, 512⟩, ⟨32 * 1024 * 1024, 2 * 1024 * 1024, false, 1024⟩,
    ⟨32 * 1024 * 1024, 2 * 1024 * 1024, false, 512⟩, ⟨128 * 1024 * 1024, 2 * 1024 * 1024, true, 2048⟩,
    ⟨8 * 1024 * 1024, 512 * 1024, false, 128⟩]

theorem memoryBudget_mem (intent : String) : memoryBudget intent ∈ budgets := by
  unfold memoryBudget budgets
  split_ifs <;> simp only [List.mem_cons, true_or, or_true]

/-- Every budget allows an allocation and less than half of the address space. -/
theorem memoryBudget_bounds (intent : String) :
    0 < (memoryBudget intent).maxAllocations ∧ (memoryBudget intent).workRegionBytes.toNat < 2 ^ 30 := by
  have hall : ∀ budget ∈ budgets, 0 < budget.maxAllocations ∧ budget.workRegionBytes.toNat < 2 ^ 30 := by
    decide
  exact hall _ (memoryBudget_mem intent)

theorem pageOf_eq (intent : String) : ∃ k, (pageOf intent).toNat = 2 ^ k ∧ k ≤ 21 := by
  unfold pageOf
  split
  · exact ⟨21, rfl, Nat.le_refl 21⟩
  · exact ⟨12, rfl, by decide⟩

theorem pageOf_pos (intent : String) : 0 < (pageOf intent).toNat := by
  obtain ⟨k, hk, -⟩ := pageOf_eq intent
  exact hk ▸ Nat.two_pow_pos k

theorem pageOf_le (intent : String) : (pageOf intent).toNat ≤ 2 ^ 21 := by
  obtain ⟨k, hk, hle⟩ := pageOf_eq intent
  exact hk ▸ Nat.pow_le_pow_right (by decide) hle

/-! ## Alignment -/

section Alignment

variable {size page : UInt64}

/-- Alignment is exact when size and page together fit in a word. -/
theorem alignToPage_checked {k : Nat} (hpage : page.toNat = 2 ^ k)
    (h : size.toNat + page.toNat < 2 ^ 64) :
    ∃ aligned, alignToPage checked size page = some aligned ∧
      aligned.toNat = alignUp page.toNat size.toNat := by
  have hpos : 0 < page.toNat := hpage ▸ Nat.two_pow_pos k
  have hsum := WordArithmetic.toNat_add h
  have hone : (1 : UInt64) ≤ page := UInt64.le_iff_toNat_le.mpr hpos
  have htop : (1 : UInt64) ≤ size + page := by
    rw [UInt64.le_iff_toNat_le, hsum]
    exact Nat.le_add_left_of_le hpos
  refine ⟨(size + page - 1) &&& ~~~(page - 1), ?_, ?_⟩
  · rw [alignToPage, WordArithmetic.checked_add_eq_some h]
    show (checked.sub (size + page) 1 >>= _) = _
    rw [WordArithmetic.checked_sub_eq_some htop]
    show (checked.sub page 1 >>= _) = _
    rw [WordArithmetic.checked_sub_eq_some hone]
    rfl
  · rw [WordArithmetic.toNat_and_not_low hpage, UInt64.toNat_sub_of_le _ _ htop, hsum, alignUp]
    rfl

/-- Otherwise a debug build stops. -/
theorem alignToPage_overflow (h : 2 ^ 64 ≤ size.toNat + page.toNat) :
    alignToPage checked size page = none := by
  rw [alignToPage, WordArithmetic.checked_add_eq_none h]
  rfl

theorem alignToPage_agree (size page : UInt64) :
    WordArithmetic.Agree (alignToPage checked size page) (alignToPage wrapping size page) :=
  (WordArithmetic.agree_add size page).bind fun _ => (WordArithmetic.agree_sub _ _).bind fun _ =>
    (WordArithmetic.agree_sub _ _).bind fun _ => WordArithmetic.agree_pure _

end Alignment

/-! ## Reachable regions -/

/-- The region has the budget and the pages of its intent, and nothing is allocated while it is clean. -/
structure Sound (intent : String) (region : SandboxRegion) : Prop where
  budget : region.budget = memoryBudget intent
  page : region.effectivePageSize = pageOf intent
  clean : region.isClean = true → region.allocatedBytes = 0 ∧ region.allocationCount = 0

section Region

variable {intent : String} {region : SandboxRegion} {size : UInt64}

theorem sound_new (intent : String) : Sound intent (.new intent) := ⟨rfl, rfl, fun _ => ⟨rfl, rfl⟩⟩

theorem Sound.zeroed (h : Sound intent region) : Sound intent region.zeroed :=
  ⟨h.budget, h.page, fun _ => ⟨rfl, rfl⟩⟩

/-- A region that was used. -/
theorem Sound.used (h : Sound intent region) (bytes count : UInt64) : Sound intent
    { region with allocatedBytes := bytes, allocationCount := count, isClean := false } :=
  ⟨h.budget, h.page, fun hclean => nomatch hclean⟩

theorem allocate_dirty {m : Type → Type} [Monad m] (arith : Arithmetic m) (h : region.isClean = false) :
    region.allocate arith size = pure (region, .regionDirty) := by
  rw [SandboxRegion.allocate, h]
  rfl

/-- An allocation leaves the region as it was, or dirty. -/
theorem allocate_region (region : SandboxRegion) (size : UInt64) :
    (Id.run (region.allocate wrapping size)).1 = region ∨
      ∃ bytes count, (Id.run (region.allocate wrapping size)).1 =
        { region with allocatedBytes := bytes, allocationCount := count, isClean := false } := by
  unfold SandboxRegion.allocate
  split
  · exact .inl rfl
  · dsimp only
    split
    · exact .inl rfl
    · rw [Id.run_bind, Id.run_bind]
      split
      · exact .inl rfl
      · exact .inr ⟨_, _, rfl⟩

theorem Sound.step (h : Sound intent region) (op : SandboxOp) :
    Sound intent (sandboxStep region op).1 := by
  cases op with
  | allocate size =>
    show Sound intent (Id.run (region.allocate wrapping size)).1
    rcases allocate_region region size with hregion | ⟨bytes, count, hregion⟩
    · rwa [hregion]
    · rw [hregion]
      exact h.used bytes count
  | zerofill policy elapsedNs =>
    cases policy with
    | everyDealloc => exact h.zeroed
    | onExit => exact h
    | never => exact h
  | emergencyZerofill reason elapsedNs => exact h.zeroed

theorem sound_run (intent : String) (ops : List SandboxOp) :
    Sound intent (Machine.run sandboxStep (.new intent) ops) :=
  Machine.run_keeps (p := Sound intent) (fun _ op h => h.step op) (sound_new intent) ops

/-! ## One allocation -/

theorem allocate_agree (region : SandboxRegion) (size : UInt64) :
    WordArithmetic.Agree (region.allocate checked size) (region.allocate wrapping size) := by
  refine (WordArithmetic.agree_pure _).ite ((WordArithmetic.agree_pure _).ite ?_)
  refine (alignToPage_agree _ _).bind fun aligned => (WordArithmetic.agree_add _ _).bind fun needed => ?_
  refine ((WordArithmetic.agree_sub _ _).bind fun _ => WordArithmetic.agree_pure _).ite ?_
  exact (WordArithmetic.agree_add _ _).bind fun _ => (WordArithmetic.agree_sub _ _).bind fun _ =>
    (WordArithmetic.agree_add _ _).bind fun _ => (WordArithmetic.agree_sub _ _).bind fun _ =>
      WordArithmetic.agree_pure _

/-- A clean region is not full. -/
theorem Sound.not_full (h : Sound intent region) (hclean : region.isClean = true) :
    ¬ region.allocationCount ≥ region.budget.maxAllocations := by
  rw [(h.clean hclean).2, h.budget]
  exact UInt64.not_le.mpr (memoryBudget_bounds intent).1

/-- The answer of a clean region: the whole work region is free. -/
theorem Sound.allocate_clean (h : Sound intent region) (hclean : region.isClean = true)
    (hfits : size.toNat + (pageOf intent).toNat < 2 ^ 64) :
    ∃ aligned, aligned.toNat = alignUp (pageOf intent).toNat size.toNat ∧
      region.allocate checked size = some (
        if aligned > (memoryBudget intent).workRegionBytes then
          (region, .budgetExceeded aligned (memoryBudget intent).workRegionBytes)
        else
          ({ region with allocatedBytes := aligned, allocationCount := 1, isClean := false },
            .success 0 aligned ((memoryBudget intent).workRegionBytes - aligned)
              ((memoryBudget intent).maxAllocations - 1))) := by
  obtain ⟨k, hpage, -⟩ := pageOf_eq intent
  obtain ⟨aligned, haligned, hvalue⟩ := alignToPage_checked hpage hfits
  refine ⟨aligned, hvalue, ?_⟩
  obtain ⟨hbytes, hcount⟩ := h.clean hclean
  have hfull := h.not_full hclean
  have hzero : (0 : UInt64).toNat + aligned.toNat < 2 ^ 64 := by
    rw [UInt64.toNat_zero, Nat.zero_add]
    exact aligned.toNat_lt
  have hmax : (1 : UInt64) ≤ (memoryBudget intent).maxAllocations :=
    UInt64.le_iff_toNat_le.mpr (UInt64.lt_iff_toNat_lt.mp (memoryBudget_bounds intent).1)
  have hdirty : ¬ (!region.isClean) = true := by simp [hclean]
  rw [SandboxRegion.allocate, if_neg hdirty]
  dsimp only
  rw [if_neg hfull, hbytes, hcount, h.page, haligned, h.budget, Option.bind_eq_bind, Option.bind_some,
    WordArithmetic.checked_add_eq_some hzero, UInt64.zero_add, Option.bind_some]
  by_cases hbudget : aligned > (memoryBudget intent).workRegionBytes
  · rw [if_pos hbudget, if_pos hbudget, WordArithmetic.checked_sub_eq_some (UInt64.zero_le)]
    simp
  · have hle := UInt64.not_lt.mp hbudget
    have hcountable : (0 : UInt64).toNat + (1 : UInt64).toNat < 2 ^ 64 := by decide
    rw [if_neg hbudget, if_neg hbudget]
    simp [WordArithmetic.checked_sub_eq_some hle, WordArithmetic.checked_add_eq_some hcountable,
      WordArithmetic.checked_sub_eq_some hmax]

/-- A size that does not fit in a word with a page stops a debug build. -/
theorem Sound.allocate_overflow (h : Sound intent region) (hclean : region.isClean = true)
    (hfits : 2 ^ 64 ≤ size.toNat + (pageOf intent).toNat) : region.allocate checked size = none := by
  have hdirty : ¬ (!region.isClean) = true := by simp [hclean]
  rw [SandboxRegion.allocate, if_neg hdirty]
  dsimp only
  rw [if_neg (h.not_full hclean), h.page, alignToPage_overflow hfits]
  rfl

/-- No operation of the allocation overflows, and what it grants is whole pages of the work region, no
fewer bytes than requested. -/
structure SizeSafe (region : SandboxRegion) (size : UInt64) : Prop where
  exact : (region.allocate checked size).isSome = true
  bounded : ∀ offset granted remainingBytes remainingAllocations,
    (Id.run (region.allocate wrapping size)).2 =
        .success offset granted remainingBytes remainingAllocations →
      size ≤ granted ∧ region.effectivePageSize.toNat ∣ granted.toNat ∧
        offset.toNat + granted.toNat ≤ region.budget.workRegionBytes.toNat

theorem sizeSafe_dirty (hdirty : region.isClean = false) : SizeSafe region size := by
  refine ⟨by rw [allocate_dirty checked hdirty]; rfl, ?_⟩
  intro offset granted remainingBytes remainingAllocations hsuccess
  rw [allocate_dirty wrapping hdirty] at hsuccess
  cases hsuccess

theorem Sound.sizeSafe (h : Sound intent region) (hclean : region.isClean = true)
    (hfits : size.toNat + (pageOf intent).toNat < 2 ^ 64) : SizeSafe region size := by
  obtain ⟨aligned, hvalue, hchecked⟩ := h.allocate_clean hclean hfits
  refine ⟨by rw [hchecked]; rfl, ?_⟩
  intro offset granted remainingBytes remainingAllocations hsuccess
  have hwrapping : Id.run (region.allocate wrapping size) = _ := allocate_agree region size _ hchecked
  rw [hwrapping] at hsuccess
  split at hsuccess
  · cases hsuccess
  · next hbudget =>
    cases hsuccess
    refine ⟨?_, ?_, ?_⟩
    · rw [UInt64.le_iff_toNat_le, hvalue]
      exact WordArithmetic.le_alignUp (pageOf_pos intent) _
    · rw [h.page, hvalue]
      exact WordArithmetic.dvd_alignUp _ _
    · rw [h.budget, UInt64.toNat_zero, Nat.zero_add]
      exact UInt64.le_iff_toNat_le.mp (UInt64.not_lt.mp hbudget)

end Region

/-- In every region reached, an allocation is safe if and only if the region is not clean, so that it is
refused, or size and page fit in a word together. -/
theorem size_safe_iff (intent : String) (ops : List SandboxOp) (size : UInt64) :
    let region := Machine.run sandboxStep (.new intent) ops
    SizeSafe region size ↔
      region.isClean = false ∨ size.toNat + region.effectivePageSize.toNat < 2 ^ 64 := by
  intro region
  have h : Sound intent region := sound_run intent ops
  rw [h.page]
  constructor
  · intro hsafe
    by_contra hbad
    push Not at hbad
    have hexact := hsafe.exact
    rw [h.allocate_overflow (Bool.ne_false_iff.mp hbad.1) hbad.2] at hexact
    cases hexact
  · intro hfits
    cases hclean : region.isClean with
    | false => exact sizeSafe_dirty hclean
    | true =>
      rcases hfits with hdirty | hfits
      · rw [hclean] at hdirty
        cases hdirty
      · exact h.sizeSafe hclean hfits

/-- The greatest size is granted as nothing in a release build, and stops a debug build. -/
theorem greatest_size_wraps :
    ¬ SizeSafe (.new "math_calculation") 0xFFFFFFFFFFFFFFFF ∧
      (SandboxRegion.new "math_calculation").allocate checked 0xFFFFFFFFFFFFFFFF = none ∧
      (Id.run ((SandboxRegion.new "math_calculation").allocate wrapping 0xFFFFFFFFFFFFFFFF)).2 =
        .success 0 0 (4 * 1024 * 1024) 63 := by
  have hchecked : (SandboxRegion.new "math_calculation").allocate checked 0xFFFFFFFFFFFFFFFF = none :=
    (sound_new "math_calculation").allocate_overflow rfl (by decide)
  refine ⟨fun hsafe => ?_, hchecked, by decide⟩
  have hexact := hsafe.exact
  rw [hchecked] at hexact
  cases hexact

/-! ## Sequences of requests -/

/-- The bytes of whole pages that the requests ask for. -/
def alignedTotal (intent : String) (sizes : List UInt64) : Nat :=
  (sizes.map fun size => alignUp (pageOf intent).toNat size.toNat).sum

/-- The requests ask for no more than the budget of the intent. -/
structure WithinBudget (intent : String) (sizes : List UInt64) : Prop where
  bytes : alignedTotal intent sizes ≤ (memoryBudget intent).workRegionBytes.toNat
  count : sizes.length ≤ (memoryBudget intent).maxAllocations.toNat

/-- The region after requests. -/
def regionAfter (intent : String) (sizes : List UInt64) : SandboxRegion :=
  Machine.run sandboxStep (.new intent) (sizes.map .allocate)

/-- A request is granted right behind the ones before it, with exact remainders. -/
def GrantedAfter (intent : String) (before : List UInt64) (size : UInt64) : Prop :=
  ∃ offset granted remainingBytes remainingAllocations,
    (sandboxStep (regionAfter intent before) (.allocate size)).2 =
        some (.success offset granted remainingBytes remainingAllocations) ∧
      offset.toNat = alignedTotal intent before ∧
      granted.toNat = alignUp (pageOf intent).toNat size.toNat ∧
      remainingBytes.toNat =
        (memoryBudget intent).workRegionBytes.toNat - alignedTotal intent (before ++ [size]) ∧
      remainingAllocations.toNat = (memoryBudget intent).maxAllocations.toNat - (before.length + 1)

/-- The ranges that the requests are granted. -/
def grantedRanges (intent : String) (sizes : List UInt64) : List (Nat × Nat) :=
  (Machine.history sandboxStep (.new intent) (sizes.map .allocate)).filterMap fun e => match e.2 with
    | some (.success offset size _ _) => some (offset.toNat, offset.toNat + size.toNat)
    | _ => none

/-- Every request is granted, one behind the other from 0 on, and no two ranges overlap. -/
structure InTurn (intent : String) (sizes : List UInt64) : Prop where
  granted : Machine.AtEach (GrantedAfter intent) sizes
  disjoint : (grantedRanges intent sizes).Pairwise fun r q => r.2 ≤ q.1 ∨ q.2 ≤ r.1

section Requests

variable {intent : String} {size : UInt64}

/-- The first request within the budget is granted, and leaves the region dirty. -/
theorem fresh_granted (h : alignUp (pageOf intent).toNat size.toNat ≤
      (memoryBudget intent).workRegionBytes.toNat) :
    GrantedAfter intent [] size ∧ (regionAfter intent [size]).isClean = false := by
  have hle := WordArithmetic.le_alignUp (pageOf_pos intent) size.toNat
  have hwork := (memoryBudget_bounds intent).2
  have hpage := pageOf_le intent
  have hfits : size.toNat + (pageOf intent).toNat < 2 ^ 64 := by omega
  obtain ⟨aligned, hvalue, hchecked⟩ := (sound_new intent).allocate_clean rfl hfits
  have hbudget : ¬ aligned > (memoryBudget intent).workRegionBytes := by
    rw [gt_iff_lt, UInt64.lt_iff_toNat_lt]
    omega
  rw [if_neg hbudget] at hchecked
  have hwrapping : Id.run ((SandboxRegion.new intent).allocate wrapping size) = _ :=
    allocate_agree _ size _ hchecked
  have hmax : (1 : UInt64) ≤ (memoryBudget intent).maxAllocations :=
    UInt64.le_iff_toNat_le.mpr (UInt64.lt_iff_toNat_lt.mp (memoryBudget_bounds intent).1)
  constructor
  · refine ⟨0, aligned, (memoryBudget intent).workRegionBytes - aligned,
      (memoryBudget intent).maxAllocations - 1, ?_, rfl, hvalue, ?_, ?_⟩
    · show some (Id.run ((SandboxRegion.new intent).allocate wrapping size)).2 = _
      rw [hwrapping]
    · rw [UInt64.toNat_sub_of_le _ _ (UInt64.not_lt.mp hbudget), hvalue, alignedTotal]
      simp
    · exact UInt64.toNat_sub_of_le _ _ hmax
  · show (Id.run ((SandboxRegion.new intent).allocate wrapping size)).1.isClean = false
    rw [hwrapping]

/-- One request within the budget is granted in turn. -/
theorem inTurn_single (h : alignUp (pageOf intent).toNat size.toNat ≤
    (memoryBudget intent).workRegionBytes.toNat) : InTurn intent [size] := by
  have hgranted := (fresh_granted h).1
  constructor
  · exact (Machine.atEach_cons size []).mpr ⟨hgranted, Machine.atEach_nil⟩
  · obtain ⟨offset, granted, remainingBytes, remainingAllocations, hout, -⟩ := hgranted
    have hrange : grantedRanges intent [size] = [(offset.toNat, offset.toNat + granted.toNat)] := by
      have hlast : (sandboxStep (.new intent) (.allocate size)).2 = _ := hout
      simp [grantedRanges, Machine.history, hlast]
    rw [hrange]
    exact List.pairwise_singleton _ _

/-- Requests of which the first leaves the region dirty are not granted in turn if there is a second. -/
theorem not_inTurn_of_dirty {first second : UInt64} {rest : List UInt64}
    (hdirty : (regionAfter intent [first]).isClean = false) :
    ¬ InTurn intent (first :: second :: rest) := by
  intro hturn
  obtain ⟨offset, granted, remainingBytes, remainingAllocations, hout, -⟩ :=
    hturn.granted [first] second rest rfl
  have hrefused : (sandboxStep (regionAfter intent [first]) (.allocate second)).2 =
      some .regionDirty := by
    show some (Id.run ((regionAfter intent [first]).allocate wrapping second)).2 = _
    rw [allocate_dirty wrapping hdirty]
    rfl
  rw [hrefused] at hout
  cases hout

/-- Within the budget, the requests are granted in turn if and only if there is at most one: the first
leaves the region dirty, and a dirty region refuses every other. -/
theorem in_turn_iff {sizes : List UInt64} (h : WithinBudget intent sizes) :
    InTurn intent sizes ↔ sizes.length ≤ 1 := by
  cases sizes with
  | nil => exact iff_of_true ⟨Machine.atEach_nil, .nil⟩ (Nat.zero_le 1)
  | cons first rest =>
    have hfirst : alignUp (pageOf intent).toNat first.toNat ≤
        (memoryBudget intent).workRegionBytes.toNat := by
      have hbytes := h.bytes
      rw [alignedTotal, List.map_cons, List.sum_cons] at hbytes
      omega
    cases rest with
    | nil => exact iff_of_true (inTurn_single hfirst) (Nat.le_refl 1)
    | cons second rest =>
      apply iff_of_false (not_inTurn_of_dirty (fresh_granted hfirst).2)
      simp

/-- One request for two pages is granted; three requests for as much are not. -/
theorem in_turn_iff_threePages : InTurn "math_calculation" [8192] ∧
    ¬ InTurn "math_calculation" [4096, 100, 8192] :=
  ⟨(in_turn_iff ⟨by decide, by decide⟩).mpr (by decide),
    mt (in_turn_iff ⟨by decide, by decide⟩).mp (by decide)⟩

/-- Two requests for a page, well within the budget of a calculation. -/
def twoPages : List UInt64 := [4096, 4096]

theorem twoPages_withinBudget : WithinBudget "math_calculation" twoPages :=
  ⟨by decide, by decide⟩

/-- The second of two requests for a page is refused. -/
theorem second_request_refused : WithinBudget "math_calculation" twoPages ∧
    ¬ InTurn "math_calculation" twoPages := by
  refine ⟨twoPages_withinBudget, ?_⟩
  have hdirty : (regionAfter "math_calculation" [4096]).isClean = false := by decide
  exact not_inTurn_of_dirty hdirty

end Requests

end Spaceshuttle.Kernel
