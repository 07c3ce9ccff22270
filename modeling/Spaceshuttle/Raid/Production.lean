import Mathlib.Tactic.Ring
import Spaceshuttle.Raid.Accounting

/-!
# Page injection

The userfaultfd loop of `start_production` (`ram_raid.rs:548-629`): every page fault is handled by
`handle_fault_production`, and one page of the block data it returns is copied to the faulting
page. Residency is kept per block while the kernel faults per page, so that only the first fault
in a block is answered with its data.
-/

namespace Spaceshuttle.Raid

open RamRaidController

/-- The memory that `start_production` registers: the page size of the system, and the address
`mmap` returned, which is page aligned. -/
structure Arena where
  pageSize : Nat
  addr : Nat
  pageSize_pos : 0 < pageSize
  addr_aligned : pageSize ∣ addr

/-- A page fault event, with the time and what the remote kernel answers meanwhile. -/
structure PageFault where
  faultAddr : Nat
  nowNs : UInt64
  remote : Remote

/-- A page copied into the arena, with the result of the fault. -/
structure Injection where
  result : FaultResult
  address : Nat
  page : List UInt8
  deriving DecidableEq, Repr

namespace Arena

variable {cfg : RaidConfig} (arena : Arena)

/-- The page data built from the block data (`ram_raid.rs:563-587`). -/
def pageData (cfg : RaidConfig) (faultAddrAligned : Nat) (blockData : List UInt8) : List UInt8 :=
  if !blockData.isEmpty then
    let pageOffset := faultAddrAligned - arena.addr
    let blockIdx := blockIndexForAddr cfg pageOffset
    let blockStart := blockIdx * cfg.blockSize
    let offsetInBlock := pageOffset - blockStart
    if offsetInBlock < blockData.length then
      let stop := min (offsetInBlock + arena.pageSize) blockData.length
      let copyLen := stop - offsetInBlock
      (blockData.drop offsetInBlock).take copyLen ++ List.replicate (arena.pageSize - copyLen) 0
    else
      List.replicate arena.pageSize 0
  else
    List.replicate arena.pageSize 0

/-- One page fault of the loop. -/
def serveFault (sha256Hex : List UInt8 → String) (c : RamRaidController cfg) (f : PageFault) :
    RamRaidController cfg × Injection :=
  let offset := f.faultAddr - arena.addr
  let (c, faultResult, blockData) := handleFaultProduction sha256Hex f.remote c f.nowNs offset
  let faultAddrAligned := f.faultAddr / arena.pageSize * arena.pageSize
  (c, ⟨faultResult, faultAddrAligned, arena.pageData cfg faultAddrAligned blockData⟩)

end Arena

/-! ## Pages -/

/-- Page `k` of the data: `pageSize` bytes of it, padded with zeros past its end. -/
def pageOf (pageSize : Nat) (data : List UInt8) (k : Nat) : List UInt8 :=
  let slice := (data.drop (k * pageSize)).take pageSize
  slice ++ List.replicate (pageSize - slice.length) 0

/-- The address lies in block `i` of the arena. -/
def InBlock (cfg : RaidConfig) (arena : Arena) (i faultAddr : Nat) : Prop :=
  arena.addr + i * cfg.blockSize ≤ faultAddr ∧ faultAddr < arena.addr + (i + 1) * cfg.blockSize

/-- The page of block `i` the address lies in. -/
def pageInBlock (cfg : RaidConfig) (arena : Arena) (i faultAddr : Nat) : Nat :=
  (faultAddr - arena.addr - i * cfg.blockSize) / arena.pageSize

section Slicing

variable {cfg : RaidConfig} {arena : Arena} {i faultAddr : Nat}

theorem blockIndex_of_inBlock (h : InBlock cfg arena i faultAddr) :
    blockIndexForAddr cfg (faultAddr - arena.addr) = i := by
  obtain ⟨hlow, hhigh⟩ := h
  unfold blockIndexForAddr
  refine Nat.div_eq_of_lt_le ?_ ?_ <;> omega

/-- The aligned address is at a page boundary of the same block. -/
theorem aligned_offset (hdvd : arena.pageSize ∣ cfg.blockSize) (h : InBlock cfg arena i faultAddr) :
    faultAddr / arena.pageSize * arena.pageSize - arena.addr =
      i * cfg.blockSize + pageInBlock cfg arena i faultAddr * arena.pageSize := by
  have hpos := arena.pageSize_pos
  obtain ⟨a, ha⟩ := arena.addr_aligned
  obtain ⟨b, hb⟩ := hdvd
  obtain ⟨off, hoff⟩ := Nat.exists_eq_add_of_le h.1
  have hinner : faultAddr - arena.addr - i * cfg.blockSize = off := by omega
  have hpages : faultAddr / arena.pageSize = a + i * b + off / arena.pageSize := by
    have hsum : faultAddr = off + (a + i * b) * arena.pageSize := by
      rw [hoff, ha, hb]
      ring
    rw [hsum, Nat.add_mul_div_right _ _ hpos]
    omega
  unfold pageInBlock
  rw [hinner, hpages, ha, hb]
  have hsplit : (a + i * b + off / arena.pageSize) * arena.pageSize =
      arena.pageSize * a + (i * (arena.pageSize * b) + off / arena.pageSize * arena.pageSize) := by
    ring
  rw [hsplit, Nat.add_sub_cancel_left]

/-- From the data of the block, the loop builds the page of the fault. -/
theorem pageData_eq_pageOf (hdvd : arena.pageSize ∣ cfg.blockSize)
    (h : InBlock cfg arena i faultAddr) (data : List UInt8) :
    arena.pageData cfg (faultAddr / arena.pageSize * arena.pageSize) data =
      pageOf arena.pageSize data (pageInBlock cfg arena i faultAddr) := by
  have hoffset := aligned_offset hdvd h
  set k := pageInBlock cfg arena i faultAddr with hk
  have hstart : blockIndexForAddr cfg (i * cfg.blockSize + k * arena.pageSize) = i := by
    have hk' : k * arena.pageSize < cfg.blockSize := by
      have hdiv := Nat.div_mul_le_self (faultAddr - arena.addr - i * cfg.blockSize) arena.pageSize
      obtain ⟨hlow, hhigh⟩ := h
      rw [hk]
      unfold pageInBlock
      rw [Nat.add_mul] at hhigh
      omega
    unfold blockIndexForAddr
    rw [Nat.mul_comm i, Nat.mul_add_div cfg.blockSize_pos, Nat.div_eq_of_lt hk', Nat.add_zero]
  unfold Arena.pageData pageOf
  simp only [hoffset, hstart, Nat.add_sub_cancel_left]
  by_cases hlen : k * arena.pageSize < data.length
  · have hne : (!data.isEmpty) = true := by
      cases data with
      | nil => simp at hlen
      | cons _ _ => rfl
    have hcopy : min (k * arena.pageSize + arena.pageSize) data.length - k * arena.pageSize =
        min arena.pageSize (data.drop (k * arena.pageSize)).length := by
      rw [List.length_drop]
      omega
    rw [if_pos hne, if_pos hlen, hcopy, ← List.take_eq_take_min, List.length_take]
  · have hdrop : data.drop (k * arena.pageSize) = [] := List.drop_eq_nil_of_le (by omega)
    rw [hdrop]
    simp [hlen]

end Slicing

/-! ## Faults in one block -/

section Faults

variable {cfg : RaidConfig} {arena : Arena} {sha256Hex : List UInt8 → String}
variable {c : RamRaidController cfg} {i : Fin cfg.blockCount} {f : PageFault}

theorem serveFault_eq (h : InBlock cfg arena i f.faultAddr) (hroom : c.atCapacity = false) :
    arena.serveFault sha256Hex c f =
      let restored := restoreBlockInner sha256Hex f.remote c i f.nowNs
      let aligned := f.faultAddr / arena.pageSize * arena.pageSize
      (restored.1, ⟨restored.2.1, aligned, arena.pageData cfg aligned restored.2.2⟩) := by
  have hidx := blockIndex_of_inBlock h
  unfold Arena.serveFault handleFaultProduction
  simp only [hidx, hroom, Bool.false_eq_true, if_false, i.isLt, dite_true]

/-- The first fault fetches the block and is answered with its page. -/
theorem serveFault_remote {kernelId endpoint token : String} {data : List UInt8}
    (hdvd : arena.pageSize ∣ cfg.blockSize) (h : InBlock cfg arena i f.faultAddr)
    (hroom : c.atCapacity = false) (hmux : c.muxClient = true)
    (hloc : (c.blocks i).location = .remoteKernel kernelId endpoint token)
    (hhash : (c.blocks i).contentHash = some (sha256Hex data))
    (hfetch : ∀ seq, f.remote.fetchBlock i (some (sha256Hex data)) seq = .ok data) :
    ((arena.serveFault sha256Hex c f).1.blocks i).location = .resident ∧
      (arena.serveFault sha256Hex c f).2.page =
        pageOf arena.pageSize data (pageInBlock cfg arena i f.faultAddr) := by
  have hrestore : restoreBlockInner sha256Hex f.remote c i f.nowNs =
      (c.nextSeq.arriveRemote i f.nowNs data.length, .restoredRemote i, data) := by
    unfold restoreBlockInner
    simp [hloc, hhash, hfetch, nextSeq, hmux]
  rw [serveFault_eq h hroom, hrestore]
  refine ⟨?_, pageData_eq_pageOf hdvd h data⟩
  simp [arriveRemote, modifyBlock, RaidBlock.restore]

/-- A later fault finds the block resident: nothing changes, and the page is zero. -/
theorem serveFault_resident (h : InBlock cfg arena i f.faultAddr) (hroom : c.atCapacity = false)
    (hloc : (c.blocks i).location = .resident) :
    (arena.serveFault sha256Hex c f).1 = c ∧
      (arena.serveFault sha256Hex c f).2.page = List.replicate arena.pageSize 0 := by
  have hrestore : restoreBlockInner sha256Hex f.remote c i f.nowNs =
      (c, .alreadyResident i, []) := by
    unfold restoreBlockInner
    rw [hloc]
  rw [serveFault_eq h hroom, hrestore]
  exact ⟨rfl, rfl⟩

/-- Every fault of the list finds fewer blocks resident than allowed. -/
def RoomForAll (arena : Arena) (sha256Hex : List UInt8 → String) :
    RamRaidController cfg → List PageFault → Prop
  | _, [] => True
  | c, f :: faults =>
      c.atCapacity = false ∧ RoomForAll arena sha256Hex (arena.serveFault sha256Hex c f).1 faults

/-- Once the block is resident, every fault in it is answered with zeros. -/
theorem resident_pages {faults : List PageFault} (hroom : RoomForAll arena sha256Hex c faults)
    (hin : ∀ f ∈ faults, InBlock cfg arena i f.faultAddr)
    (hloc : (c.blocks i).location = .resident) :
    ∀ e ∈ Machine.history (arena.serveFault sha256Hex) c faults,
      e.2.page = List.replicate arena.pageSize 0 := by
  induction faults with
  | nil => simp [Machine.history]
  | cons f faults ih =>
    obtain ⟨hhead, htail⟩ := hroom
    have hserved : (arena.serveFault sha256Hex c f).1 = c ∧
        (arena.serveFault sha256Hex c f).2.page = List.replicate arena.pageSize 0 :=
      serveFault_resident (hin f (by simp)) hhead hloc
    rw [hserved.1] at htail
    intro e he
    rw [Machine.history, List.mem_cons, hserved.1] at he
    rcases he with rfl | he
    · exact hserved.2
    · exact ih htail (fun g hg => hin g (by simp [hg])) e he

/-- Faults inside one block whose data RAM B holds and answers with, while nothing is evicted:
all injected pages are the pages of the data exactly if every fault but the first is on a page
of zeros. -/
theorem injected_pages_right_iff (sha256Hex : List UInt8 → String) (arena : Arena)
    (hdvd : arena.pageSize ∣ cfg.blockSize) (c : RamRaidController cfg) (i : Fin cfg.blockCount)
    (kernelId endpoint token : String) (data : List UInt8) (hmux : c.muxClient = true)
    (hloc : (c.blocks i).location = .remoteKernel kernelId endpoint token)
    (hhash : (c.blocks i).contentHash = some (sha256Hex data)) (faults : List PageFault)
    (hin : ∀ f ∈ faults, InBlock cfg arena i f.faultAddr)
    (hfetch : ∀ f ∈ faults, ∀ seq,
      f.remote.fetchBlock i (some (sha256Hex data)) seq = .ok data)
    (hroom : RoomForAll arena sha256Hex c faults) :
    (∀ e ∈ Machine.history (arena.serveFault sha256Hex) c faults,
      e.2.page = pageOf arena.pageSize data (pageInBlock cfg arena i e.1.faultAddr)) ↔
    ∀ f ∈ faults.tail, pageOf arena.pageSize data (pageInBlock cfg arena i f.faultAddr) =
      List.replicate arena.pageSize 0 := by
  cases faults with
  | nil => simp [Machine.history]
  | cons f faults =>
    obtain ⟨hhead, htail⟩ := hroom
    obtain ⟨hres, hpage⟩ := serveFault_remote hdvd (hin f (by simp)) hhead hmux hloc hhash
      (hfetch f (by simp))
    have hzero := resident_pages htail (fun g hg => hin g (by simp [hg])) hres
    have hinputs : (Machine.history (arena.serveFault sha256Hex)
        (arena.serveFault sha256Hex c f).1 faults).map Prod.fst = faults :=
      Machine.history_inputs _ _
    rw [Machine.history, List.forall_mem_cons, List.tail_cons]
    constructor
    · rintro ⟨-, hright⟩ g hg
      rw [← hinputs, List.mem_map] at hg
      obtain ⟨e, he, rfl⟩ := hg
      rw [← hright e he, hzero e he]
    · intro hzeros
      refine ⟨hpage, ?_⟩
      intro e he
      have hinput := List.mem_map_of_mem (f := Prod.fst) he
      rw [hinputs] at hinput
      rw [hzero e he, hzeros e.1 hinput]

end Faults

/-! ## Two pages -/

/-- An arena of two blocks of two pages, striped over a RAM B. -/
def twoPageBlocks : RaidConfig where
  arenaSize := 16384
  blockSize := 8192
  maxResidentBlocks := 2
  ramBEndpoint := some "192.168.4.85:4430"
  ramBKernelId := some "kernel_b"
  fromAint := "root_idd.aint"
  arenaSize_lt := by decide
  maxResidentBlocks_lt := by decide
  blockSize_pos := by decide

/-- SHA-256 of the one block content that evictions of `twoPageBlocks` hash. -/
def twoPageSha256 (_ : List UInt8) : String :=
  "fd4cee399d0efdb32b888142098e6504bf3aa18c973ea1e1d0801c79fc48d023"

/-- The dirty data of a block of `twoPageBlocks`. -/
def twoPageData : List UInt8 := List.replicate 8192 42

/-- A remote kernel that stores a block and serves it back. -/
def holdsBlock : Remote where
  fetchBlock := fun _ _ _ => .ok twoPageData
  storeBlock := fun _ _ _ _ _ _ => .ok ()
  fetchBatch := fun _ => .error .notConnected
  fetchBatch_indices := fun _ _ h => nomatch h

/-- Pages of 4096 bytes. -/
def linuxArena : Arena where
  pageSize := 4096
  addr := 0x7f0000000000
  pageSize_pos := Nat.zero_lt_succ 4095
  addr_aligned := Nat.dvd_of_mod_eq_zero rfl

/-- Block 1 after it was written and evicted to RAM B. -/
def evictedBlock : RamRaidController twoPageBlocks :=
  Machine.run (exec twoPageSha256) (start twoPageBlocks true none)
    [⟨.simulateWrite 1, 1, holdsBlock⟩, ⟨.evictColdest, 2, holdsBlock⟩]

/-- A fault on a page of block 1. -/
def faultAt (address : Nat) : PageFault := ⟨address, 3, holdsBlock⟩

/-- A page of data and a page of zeros. -/
def halfData : List UInt8 := List.replicate 4096 42 ++ List.replicate 4096 0

/-- SHA-256 of it. -/
def halfSha256 (_ : List UInt8) : String :=
  "9c964f2e9308b4019a03814fd309d9450d95ae0491e8b248fdb0b0ff43fdfcc0"

/-- A remote kernel that serves it. -/
def holdsHalf : Remote := { holdsBlock with fetchBlock := fun _ _ _ => .ok halfData }

/-- Block 1 with this content on RAM B. -/
def halfBlock : RamRaidController twoPageBlocks :=
  evictedBlock.modifyBlock ⟨1, by decide⟩ fun b => { b with contentHash := some (halfSha256 halfData) }

theorem half_second_page : pageOf 4096 halfData 1 = List.replicate 4096 0 := by
  have hdrop : halfData.drop (1 * 4096) = List.replicate 4096 0 :=
    List.drop_left' (List.length_replicate ..)
  rw [pageOf, hdrop, List.take_replicate, Nat.min_self, List.length_replicate, Nat.sub_self,
    List.replicate_zero, List.append_nil]

/-- Faults on the two pages of block 1. -/
def halfFaults : List PageFault := [⟨0x7f0000002000, 3, holdsHalf⟩, ⟨0x7f0000003000, 4, holdsHalf⟩]

/-- The faults on both pages are served right: the second page is a page of zeros. -/
theorem injected_pages_right_first :
    (Machine.history (linuxArena.serveFault halfSha256) halfBlock halfFaults).map
      (fun e => e.2.page) = [pageOf 4096 halfData 0, pageOf 4096 halfData 1] := by
  have hright : ∀ e ∈ Machine.history (linuxArena.serveFault halfSha256) halfBlock halfFaults,
      e.2.page =
        pageOf 4096 halfData (pageInBlock twoPageBlocks linuxArena 1 e.1.faultAddr) := by
    refine (injected_pages_right_iff halfSha256 linuxArena (by decide) halfBlock ⟨1, by decide⟩
      "kernel_b" "192.168.4.85:4430" "raid_fork_remote_0" halfData (by decide)
      (by decide) (by decide) halfFaults ?_ ?_ ?_).mpr ?_
    · simp [halfFaults, InBlock, linuxArena, twoPageBlocks]
    · intro f hf seq
      simp only [halfFaults, List.mem_cons, List.not_mem_nil, or_false] at hf
      rcases hf with rfl | rfl <;> rfl
    · exact ⟨by decide, by decide, trivial⟩
    · intro f hf
      obtain rfl := List.mem_singleton.mp hf
      exact half_second_page
  have hpages : halfFaults.map (fun f => pageInBlock twoPageBlocks linuxArena 1 f.faultAddr) =
      [0, 1] := by decide
  calc (Machine.history (linuxArena.serveFault halfSha256) halfBlock halfFaults).map
        (fun e => e.2.page)
    _ = ((Machine.history (linuxArena.serveFault halfSha256) halfBlock halfFaults).map
          Prod.fst).map fun f =>
            pageOf 4096 halfData (pageInBlock twoPageBlocks linuxArena 1 f.faultAddr) := by
      simp only [List.map_map, Function.comp_def]
      exact List.map_congr_left hright
    _ = (halfFaults.map fun f => pageInBlock twoPageBlocks linuxArena 1 f.faultAddr).map
          (pageOf 4096 halfData) := by
      simp only [Machine.history_inputs, List.map_map, Function.comp_def]
    _ = [pageOf 4096 halfData 0, pageOf 4096 halfData 1] := by
      rw [hpages, List.map_cons, List.map_cons, List.map_nil]

/-- The controller after the first fault. -/
def fetchedBlock : RamRaidController twoPageBlocks :=
  (linuxArena.serveFault twoPageSha256 evictedBlock (faultAt 0x7f0000002000)).1

theorem second_page_zero :
    (linuxArena.serveFault twoPageSha256 fetchedBlock (faultAt 0x7f0000003000)).2.page =
      List.replicate 4096 0 := by
  have hin : InBlock twoPageBlocks linuxArena 1 (faultAt 0x7f0000003000).faultAddr := by
    simp [faultAt, InBlock, linuxArena, twoPageBlocks]
  have hroom : fetchedBlock.atCapacity = false := by decide
  have hres : (fetchedBlock.blocks ⟨1, by decide⟩).location = .resident := by decide
  exact (serveFault_resident hin hroom hres).2

theorem second_page_data : pageOf 4096 twoPageData 1 = List.replicate 4096 42 := by
  unfold pageOf twoPageData
  rw [List.drop_replicate, List.take_replicate]
  simp only [Nat.reduceMul, Nat.reduceSub, Nat.min_self, List.length_replicate,
    List.replicate_zero, List.append_nil]

/-- The second page of the block holds data, and zeros are injected. -/
theorem second_page_lost :
    ¬ ∀ e ∈ Machine.history (linuxArena.serveFault twoPageSha256) evictedBlock
      [faultAt 0x7f0000002000, faultAt 0x7f0000003000], e.2.page = pageOf 4096 twoPageData
        (pageInBlock twoPageBlocks linuxArena 1 e.1.faultAddr) := by
  intro hall
  rw [Machine.history, Machine.history, List.forall_mem_cons, List.forall_mem_cons] at hall
  have hpage : pageInBlock twoPageBlocks linuxArena 1 (faultAt 0x7f0000003000).faultAddr = 1 := by
    decide
  obtain ⟨-, hsecond, -⟩ := hall
  change (linuxArena.serveFault twoPageSha256 fetchedBlock (faultAt 0x7f0000003000)).2.page = _
    at hsecond
  rw [second_page_zero, hpage, second_page_data, List.replicate_right_inj (by decide)] at hsecond
  cases hsecond

end Spaceshuttle.Raid
