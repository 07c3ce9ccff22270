import Mathlib.Algebra.Ring.Nat
import Spaceshuttle.Lib.Machine
import Spaceshuttle.Bifurcation.Openers

/-!
# The MMU arena

`MmuArena` of `crates/store-mmu/src/lib.rs`: a region of virtual memory without backing, and a thread
that fills every page on its first touch. The pages may be sealed in advance (`lib.rs:544-623`); the
thread then opens them one fault at a time with an engine of its own. `zstd` is a parameter. The
kernel's part, from the fault to the copy into the page, is the input of a step: the address that was
touched, and whether the copy succeeded.
-/

namespace Spaceshuttle.Mmu

open Bifurcation

/-- `zstd::encode_all` and `zstd::decode_all`. -/
structure Zstd where
  encodeAll : List UInt8 → Int → Option (List UInt8)
  decodeAll : List UInt8 → Option (List UInt8)

/-- What was encoded decodes to itself. -/
def Zstd.Lawful (Z : Zstd) : Prop :=
  ∀ data level encoded, Z.encodeAll data level = some encoded → Z.decodeAll encoded = some data

/-! ## Sealing pages -/

/-- What sealing a page draws. -/
structure PageDraw where
  session : SessionDraw
  block : Draw

section Sealing

variable (K : Crypto) (draws : Nat → PageDraw) (clearance : ClearanceLevel) (source : String)

/-- The loop of `seal_pages` (`lib.rs:551-557`) from index `i` on. A result that is not a sealed block
is skipped. -/
def sealFrom : AirlockBifurcation → Nat → List (List UInt8) → Except Panic (List EncryptedBlock)
  | _, _, [] => .ok []
  | engine, i, pageData :: pages =>
      match engine.sealSession K (draws i).session (draws i).block pageData i clearance source with
      | (_, .error panic) => .error panic
      | (engine, .ok result) =>
          match sealFrom engine (i + 1) pages with
          | .error panic => .error panic
          | .ok blocks =>
              match result with
              | .blockSealed block => .ok (block :: blocks)
              | _ => .ok blocks

/-- `seal_pages` (`lib.rs:544-559`). -/
def sealPages (pages : List (List UInt8)) : Except Panic (List EncryptedBlock) :=
  sealFrom K draws clearance source (.new K) 0 pages

end Sealing

/-- `CompressedSealResult` (`lib.rs:562-569`). -/
structure CompressedSealResult where
  blocks : List EncryptedBlock
  originalSizes : List Nat
  totalOriginal : Nat
  totalCompressed : Nat
  totalEncrypted : Nat
  compressionRatio : Float

section Compressed

variable (K : Crypto) (Z : Zstd)

/-- A page as `seal_pages_compressed` seals it; one that `zstd` refuses is sealed as it is
(`lib.rs:594-595`). -/
def compress (zstdLevel : Int) (pageData : List UInt8) : List UInt8 :=
  (Z.encodeAll pageData zstdLevel).getD pageData

/-- `seal_pages_compressed` (`lib.rs:576-623`). -/
def sealPagesCompressed (draws : Nat → PageDraw) (clearance : ClearanceLevel) (source : String)
    (zstdLevel : Int) (pages : List (List UInt8)) : Except Panic CompressedSealResult :=
  let compressed := pages.map (compress Z zstdLevel)
  match sealFrom K draws clearance source (.new K) 0 compressed with
  | .error panic => .error panic
  | .ok blocks =>
      let totalOriginal := (pages.map List.length).sum
      let totalCompressed := (compressed.map List.length).sum
      .ok
        { blocks
          originalSizes := pages.map List.length
          totalOriginal
          totalCompressed
          totalEncrypted := (blocks.map (fun block => block.ciphertext.length)).sum
          compressionRatio :=
            if totalCompressed > 0 then Float.ofNat totalOriginal / Float.ofNat totalCompressed
            else 1.0 }

end Compressed

/-! ## The arena -/

/-- `FillMode` (`lib.rs:68-103`). -/
inductive FillMode where
  | zeroFill
  | staticData (payload : List UInt8)
  | compressedRestore
  | encryptedRestore (sealedPages : List EncryptedBlock) (claim : JisClaim)
      (clearance : ClearanceLevel)
  | compressedEncryptedRestore (sealedPages : List EncryptedBlock) (originalSizes : List Nat)
      (claim : JisClaim) (clearance : ClearanceLevel)

/-- `MmuArena` with the configuration it was made from (`lib.rs:134-150`). `mmap` returns an address on
a page boundary. -/
structure MmuArena where
  addr : Nat
  size : Nat
  pageSize : Nat
  fillMode : FillMode
  pageSize_pos : 0 < pageSize
  addr_aligned : pageSize ∣ addr

/-- An address inside the arena. Only these fault. -/
def MmuArena.Contains (a : MmuArena) (address : Nat) : Prop :=
  a.addr ≤ address ∧ address < a.addr + a.size

instance (a : MmuArena) (address : Nat) : Decidable (a.Contains address) :=
  inferInstanceAs (Decidable (_ ∧ _))

/-- A page fault: the address that was touched, and whether the copy into the page succeeds. -/
structure Fault where
  address : Nat
  copied : Bool
  deriving DecidableEq, Repr

/-- The handler thread (`lib.rs:235-394`): its engine and the counters it shares. A panic ends it. -/
structure Handler where
  engine : AirlockBifurcation
  alive : Bool
  pagesFaulted : UInt64
  pagesInjected : UInt64
  injectErrors : UInt64
  bytesInjected : UInt64

/-- The thread when it starts. -/
def Handler.new (K : Crypto) : Handler where
  engine := .new K
  alive := true
  pagesFaulted := 0
  pagesInjected := 0
  injectErrors := 0
  bytesInjected := 0

/-- A buffer of zeros. -/
def zeroPage (pageSize : Nat) : List UInt8 := List.replicate pageSize 0

/-- `page[..copy_len].copy_from_slice(&data[..copy_len])` into a page of zeros, where `copy_len` is
`data.len().min(page_size)`. -/
def fillPage (pageSize : Nat) (data : List UInt8) : List UInt8 :=
  data.take pageSize ++ List.replicate (pageSize - data.length) 0

/-- The marker of `CompressedRestore` (`lib.rs:280-281`). -/
def restoreMarker (aligned : Nat) : List UInt8 :=
  ("TZA_RESTORED:page@0x" ++ String.ofList (Nat.toDigits 16 aligned)).toUTF8.toList

namespace MmuArena

variable (K : Crypto) (Z : Zstd) (a : MmuArena)

/-- The start of the page that an address is in (`lib.rs:262`). -/
def aligned (address : Nat) : Nat := address / a.pageSize * a.pageSize

/-- The index of that page in the arena (`lib.rs:263`). -/
def pageIndex (address : Nat) : Nat := (a.aligned address - a.addr) / a.pageSize

/-- Look the page up among the sealed ones and open it; whatever is not opened is dead material
(`lib.rs:296-313`, `326-352`). `restore` makes the page of an opened plaintext. -/
def openPage (restore : List UInt8 → List UInt8) (sealedPages : List EncryptedBlock)
    (claim : JisClaim) (engine : AirlockBifurcation) (index : Nat) :
    AirlockBifurcation × Except Panic (List UInt8) :=
  match sealedPages[index]? with
  | none => (engine, .ok (zeroPage a.pageSize))
  | some block =>
      match engine.openBlock K block claim with
      | (engine, .error panic) => (engine, .error panic)
      | (engine, .ok (.blockOpened plaintext _)) => (engine, .ok (restore plaintext))
      | (engine, .ok _) => (engine, .ok (zeroPage a.pageSize))

/-- The page of a decompressed plaintext (`lib.rs:330-341`). -/
def decompressPage (plaintext : List UInt8) : List UInt8 :=
  match Z.decodeAll plaintext with
  | some decompressed => fillPage a.pageSize decompressed
  | none => zeroPage a.pageSize

/-- The data that is built for a fault, by fill mode (`lib.rs:268-354`). -/
def pageData (engine : AirlockBifurcation) (address : Nat) :
    AirlockBifurcation × Except Panic (List UInt8) :=
  match a.fillMode with
  | .zeroFill => (engine, .ok (zeroPage a.pageSize))
  | .staticData payload => (engine, .ok (fillPage a.pageSize payload))
  | .compressedRestore =>
      let marker := restoreMarker (a.aligned address)
      if marker.length ≤ a.pageSize then (engine, .ok (fillPage a.pageSize marker))
      else (engine, .error ⟨s!"range end index {marker.length} out of range for slice of length {a.pageSize}"⟩)
  | .encryptedRestore sealedPages claim _ =>
      a.openPage K (fillPage a.pageSize) sealedPages claim engine (a.pageIndex address)
  | .compressedEncryptedRestore sealedPages _ claim _ =>
      a.openPage K (a.decompressPage Z) sealedPages claim engine (a.pageIndex address)

/-- One page fault (`lib.rs:260-378`). The output is the page that is injected, with its address. -/
def step (h : Handler) (fault : Fault) : Handler × Option (Nat × List UInt8) :=
  if h.alive then
    let h := { h with pagesFaulted := h.pagesFaulted + 1 }
    match a.pageData K Z h.engine fault.address with
    | (engine, .error _) => ({ h with engine := engine, alive := false }, none)
    | (engine, .ok page) =>
        let h := { h with engine := engine }
        (if fault.copied then
          { h with
            pagesInjected := h.pagesInjected + 1
            bytesInjected := h.bytesInjected + UInt64.ofNat a.pageSize }
        else { h with injectErrors := h.injectErrors + 1 },
          some (a.aligned fault.address, page))
  else (h, none)

/-- The pages that a handler injects for a sequence of faults, fault by fault. -/
def injected (faults : List Fault) : List (Option (Nat × List UInt8)) :=
  (Machine.history (a.step K Z) (.new K) faults).map Prod.snd

end MmuArena

end Spaceshuttle.Mmu
