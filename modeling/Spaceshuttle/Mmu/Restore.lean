import Spaceshuttle.Mmu.Arena

/-!
# What a fault brings back

Sealing gives every page a block that the system can open, at the page's own index; the handler's
engine derives the same keys as the one that sealed. So a claim with enough clearance gets the pages
back, whatever the order of the faults and however often a page faults; and a claim without it gets
zeros, which tell nothing about the pages.
-/

namespace Spaceshuttle.Mmu

open Bifurcation

variable {K : Crypto} {Z : Zstd}

/-! ## Sealing -/

/-- The engine derives the keys of the system. -/
def Ready (K : Crypto) (e : AirlockBifurcation) : Prop :=
  Coherent K e ∧ e.systemSecret = systemSeed

theorem ready_new : Ready K (.new K) := ⟨new_coherent, rfl⟩

/-- The cipher takes the data under every key and nonce. -/
def Accepts (K : Crypto) (data : List UInt8) : Prop :=
  ∀ key nonce, (K.encrypt key nonce data).isSome

/-- The block holds the page, for the clearance. -/
def SealedFor (K : Crypto) (clearance : ClearanceLevel) (block : EncryptedBlock)
    (page : List UInt8) : Prop :=
  SealedBlock.Right K systemSeed ⟨block, page, clearance⟩

section Sealing

variable {draws : Nat → PageDraw} {clearance : ClearanceLevel} {source : String}

theorem finishSeal_result {e : AirlockBifurcation} {r : Except Panic EncryptedBlock}
    {result : BifurcationResult} (h : (e.finishSeal r).2 = .ok result) :
    ∃ block, result = .blockSealed block := by
  cases r with
  | error panic => cases h
  | ok block =>
    cases h
    exact ⟨block, rfl⟩

/-- `seal_session` has no other result than a sealed block. -/
theorem sealSession_result {e : AirlockBifurcation} {sessionDraw : SessionDraw} {draw : Draw}
    {page : List UInt8} {i : Nat} {result : BifurcationResult}
    (h : (e.sealSession K sessionDraw draw page i clearance source).2 = .ok result) :
    ∃ block, result = .blockSealed block :=
  finishSeal_result h

theorem sealSession_ready (hK : K.Lawful) {e : AirlockBifurcation} (he : Ready K e)
    (sessionDraw : SessionDraw) (draw : Draw) (page : List UInt8) (i : Nat) :
    Ready K (e.sealSession K sessionDraw draw page i clearance source).1 := by
  refine ⟨sealSession_coherent hK he.1 sessionDraw draw page i clearance source, ?_⟩
  unfold AirlockBifurcation.sealSession
  rw [finishSeal_systemSecret]
  exact he.2

theorem sealSession_sealedFor (hK : K.Lawful) {e : AirlockBifurcation} (he : Ready K e)
    {sessionDraw : SessionDraw} {draw : Draw} {page : List UInt8} {i : Nat} {block : EncryptedBlock}
    (h : (e.sealSession K sessionDraw draw page i clearance source).2 = .ok (.blockSealed block)) :
    SealedFor K clearance block page := by
  obtain ⟨hsealed, hrequired⟩ := sealSession_right hK he.1 h
  rw [he.2] at hsealed
  exact ⟨hsealed, hrequired⟩

/-- Whatever the engine, a sealed block asks for the clearance. -/
theorem sealSession_clearance {e : AirlockBifurcation} {sessionDraw : SessionDraw} {draw : Draw}
    {page : List UInt8} {i : Nat} {block : EncryptedBlock}
    (h : (e.sealSession K sessionDraw draw page i clearance source).2 = .ok (.blockSealed block)) :
    block.requiredClearance = clearance :=
  (sealBlock_ok (finishSeal_ok h)).2.1

variable (clearance source) in
theorem sealSession_returns (e : AirlockBifurcation) (sessionDraw : SessionDraw) (draw : Draw)
    {page : List UInt8} (hpage : Accepts K page) (i : Nat) :
    ∃ block, (e.sealSession K sessionDraw draw page i clearance source).2 =
      .ok (.blockSealed block) := by
  unfold AirlockBifurcation.sealSession sealBlock Crypto.aesGcmEncrypt
  simp only
  obtain ⟨ciphertext, hencrypt⟩ := Option.isSome_iff_exists.mp (hpage _ draw.nonce)
  rw [hencrypt]
  exact ⟨_, rfl⟩

/-- What one `seal_session` establishes for its block, sealing a list establishes for every block and
the page in its place. -/
theorem sealFrom_forall₂ {p : EncryptedBlock → List UInt8 → Prop} {q : AirlockBifurcation → Prop}
    (hstep : ∀ e sessionDraw draw page i, q e →
      q (e.sealSession K sessionDraw draw page i clearance source).1 ∧
      ∀ block, (e.sealSession K sessionDraw draw page i clearance source).2 = .ok (.blockSealed block) →
        p block page)
    {pages : List (List UInt8)} {e : AirlockBifurcation} (he : q e) {i : Nat}
    {blocks : List EncryptedBlock} (h : sealFrom K draws clearance source e i pages = .ok blocks) :
    List.Forall₂ p blocks pages := by
  induction pages generalizing e i blocks with
  | nil =>
    cases h
    exact .nil
  | cons page pages ih =>
    obtain ⟨hq, hp⟩ := hstep e (draws i).session (draws i).block page i he
    rw [sealFrom] at h
    generalize hseal : e.sealSession K (draws i).session (draws i).block page i clearance source = r
      at h hq hp
    rcases r with ⟨engine, panic | result⟩
    · cases h
    · obtain ⟨block, rfl⟩ := sealSession_result (congrArg Prod.snd hseal)
      simp only at h
      cases hrest : sealFrom K draws clearance source engine (i + 1) pages with
      | error panic =>
        rw [hrest] at h
        cases h
      | ok rest =>
        rw [hrest] at h
        cases h
        exact .cons (hp block rfl) (ih hq hrest)

theorem sealFrom_sealedFor (hK : K.Lawful) {pages : List (List UInt8)} {blocks : List EncryptedBlock}
    (h : sealFrom K draws clearance source (.new K) 0 pages = .ok blocks) :
    List.Forall₂ (SealedFor K clearance) blocks pages := by
  refine sealFrom_forall₂ (q := Ready K) ?_ ready_new h
  intro e sessionDraw draw page i he
  exact ⟨sealSession_ready hK he sessionDraw draw page i, fun block => sealSession_sealedFor hK he⟩

theorem sealFrom_clearance {pages : List (List UInt8)} {blocks : List EncryptedBlock}
    (h : sealFrom K draws clearance source (.new K) 0 pages = .ok blocks) :
    List.Forall₂ (fun block _ => block.requiredClearance = clearance) blocks pages := by
  refine sealFrom_forall₂ (q := fun _ => True) ?_ trivial h
  intro e sessionDraw draw page i _
  exact ⟨trivial, fun block => sealSession_clearance⟩

/-- Sealing returns when the cipher takes every page. -/
theorem sealFrom_returns {pages : List (List UInt8)} (hpages : ∀ page ∈ pages, Accepts K page)
    (e : AirlockBifurcation) (i : Nat) :
    ∃ blocks, sealFrom K draws clearance source e i pages = .ok blocks := by
  induction pages generalizing e i with
  | nil => exact ⟨[], rfl⟩
  | cons page pages ih =>
    obtain ⟨block, hblock⟩ := sealSession_returns clearance source e (draws i).session (draws i).block
      (hpages page List.mem_cons_self) i
    rw [sealFrom]
    generalize e.sealSession K (draws i).session (draws i).block page i clearance source = r at hblock
    obtain ⟨engine, result⟩ := r
    obtain rfl : result = .ok (.blockSealed block) := hblock
    obtain ⟨rest, hrest⟩ := ih (fun p hp => hpages p (List.mem_cons_of_mem page hp)) engine (i + 1)
    exact ⟨block :: rest, by simp only [hrest]⟩

end Sealing

/-! ## One fault -/

section Fault

variable (a : MmuArena)

theorem aligned_eq {address : Nat} (h : a.Contains address) :
    a.aligned address = a.addr + (address - a.addr) / a.pageSize * a.pageSize := by
  obtain ⟨q, hq⟩ := a.addr_aligned
  obtain ⟨k, rfl⟩ : ∃ k, address = a.addr + k := ⟨address - a.addr, by have := h.1; omega⟩
  unfold MmuArena.aligned
  rw [Nat.add_sub_cancel_left, hq, Nat.mul_add_div a.pageSize_pos, Nat.add_mul, Nat.mul_comm q]

theorem pageIndex_eq {address : Nat} (h : a.Contains address) :
    a.pageIndex address = (address - a.addr) / a.pageSize := by
  unfold MmuArena.pageIndex
  rw [aligned_eq a h, Nat.add_sub_cancel_left, Nat.mul_div_cancel _ a.pageSize_pos]

/-- The page that an engine with the keys of the system opens. -/
def openedPage (K : Crypto) (restore : List UInt8 → List UInt8) (sealedPages : List EncryptedBlock)
    (claim : JisClaim) (index : Nat) : Except Panic (List UInt8) :=
  match sealedPages[index]? with
  | none => .ok (zeroPage a.pageSize)
  | some block =>
      (openResult K systemSeed block claim).map (fun result =>
        match result with
        | .blockOpened plaintext _ => restore plaintext
        | _ => zeroPage a.pageSize)

/-- What a fault finds does not depend on the faults before it. -/
theorem openPage_eq {e : AirlockBifurcation} (he : Ready K e) (restore : List UInt8 → List UInt8)
    (sealedPages : List EncryptedBlock) (claim : JisClaim) (index : Nat) :
    (a.openPage K restore sealedPages claim e index).2 =
        openedPage a K restore sealedPages claim index ∧
      Ready K (a.openPage K restore sealedPages claim e index).1 := by
  unfold MmuArena.openPage openedPage
  cases sealedPages[index]? with
  | none => exact ⟨rfl, he⟩
  | some block =>
    have hresult := openBlock_result he.1 block claim
    have hready : Ready K (e.openBlock K block claim).1 :=
      ⟨openBlock_coherent he.1 block claim, (exec_systemSecret K e (.openBlock block claim)).trans he.2⟩
    rw [he.2] at hresult
    simp only
    rw [← hresult]
    generalize e.openBlock K block claim = r at hready
    obtain ⟨engine, panic | result⟩ := r
    · exact ⟨rfl, hready⟩
    · cases result <;> exact ⟨rfl, hready⟩

end Fault

/-! ## Sequences of faults -/

section Faults

variable {a : MmuArena}

/-- A handler that is alive and whose engine has the keys of the system. -/
structure Handler.Serving (K : Crypto) (h : Handler) : Prop where
  alive : h.alive = true
  ready : Ready K h.engine

theorem serving_new : (Handler.new K).Serving K := ⟨rfl, ready_new⟩

/-- If the data of a page depends on its index alone, every fault injects that data, in whatever order
the faults come. -/
theorem injected_eq (page : Nat → List UInt8)
    (hpage : ∀ e address, Ready K e → (a.pageData K Z e address).2 = .ok (page (a.pageIndex address)) ∧
      Ready K (a.pageData K Z e address).1) (faults : List Fault) :
    a.injected K Z faults =
      faults.map (fun f => some (a.aligned f.address, page (a.pageIndex f.address))) := by
  have hrun : ∀ h : Handler, h.Serving K → (Machine.history (a.step K Z) h faults).map Prod.snd =
      faults.map (fun f => some (a.aligned f.address, page (a.pageIndex f.address))) := by
    induction faults with
    | nil => exact fun _ _ => rfl
    | cons fault faults ih =>
      intro h hserving
      obtain ⟨hdata, hready⟩ := hpage h.engine fault.address hserving.ready
      have hstep : ∃ h', a.step K Z h fault =
          (h', some (a.aligned fault.address, page (a.pageIndex fault.address))) ∧ h'.Serving K := by
        unfold MmuArena.step
        rw [if_pos hserving.alive]
        cases hr : a.pageData K Z h.engine fault.address with
        | mk engine result =>
          rw [hr] at hdata hready
          obtain rfl : result = .ok _ := hdata
          simp only [hr]
          refine ⟨_, rfl, ?_⟩
          cases fault.copied <;> exact ⟨hserving.alive, hready⟩
      obtain ⟨h', hstep, hserving'⟩ := hstep
      rw [Machine.history, List.map_cons, List.map_cons, hstep, ih h' hserving']
  exact hrun _ serving_new

/-- The page at index `i`, cut or padded with zeros to the size of a page; zeros behind the last. -/
def restored (pageSize : Nat) (pages : List (List UInt8)) (i : Nat) : List UInt8 :=
  match pages[i]? with
  | some page => fillPage pageSize page
  | none => zeroPage pageSize

/-- Every fault injects the page at its index, at that page's address. -/
def Restores (K : Crypto) (Z : Zstd) (a : MmuArena) (pages : List (List UInt8)) (faults : List Fault) :
    Prop :=
  a.injected K Z faults = faults.map (fun f =>
    let i := (f.address - a.addr) / a.pageSize
    some (a.addr + i * a.pageSize, restored a.pageSize pages i))

/-- Every fault injects zeros. -/
def InjectsZeros (K : Crypto) (Z : Zstd) (a : MmuArena) (faults : List Fault) : Prop :=
  a.injected K Z faults = faults.map (fun f => some (a.aligned f.address, zeroPage a.pageSize))

theorem restores_of_index {pages : List (List UInt8)}
    (hpage : ∀ e address, Ready K e →
      (a.pageData K Z e address).2 = .ok (restored a.pageSize pages (a.pageIndex address)) ∧
      Ready K (a.pageData K Z e address).1)
    {faults : List Fault} (hin : ∀ f ∈ faults, a.Contains f.address) :
    Restores K Z a pages faults := by
  unfold Restores
  rw [injected_eq _ hpage]
  apply List.map_congr_left
  intro f hf
  rw [aligned_eq a (hin f hf), pageIndex_eq a (hin f hf)]

/-- A block that was sealed for the clearance of the claim opens to its page. -/
theorem openedPage_sealed (hK : K.Lawful) {clearance : ClearanceLevel} {claim : JisClaim}
    (hvalid : claim.Valid) (hclear : clearance ≤ claim.clearance)
    {blocks : List EncryptedBlock} {contents : List (List UInt8)}
    (hblocks : List.Forall₂ (SealedFor K clearance) blocks contents)
    (restore : List UInt8 → List UInt8) (i : Nat) :
    openedPage a K restore blocks claim i =
      .ok (match contents[i]? with
        | some content => restore content
        | none => zeroPage a.pageSize) := by
  unfold openedPage
  cases hblock : blocks[i]? with
  | none =>
    have hlen : contents[i]? = none := by
      rw [List.getElem?_eq_none_iff] at hblock ⊢
      rw [← hblocks.length_eq]
      exact hblock
    rw [hlen]
  | some block =>
    obtain ⟨hi, rfl⟩ := List.getElem?_eq_some_iff.mp hblock
    have hi' : i < contents.length := hblocks.length_eq ▸ hi
    have hright : SealedFor K clearance blocks[i] contents[i] := hblocks.get hi hi'
    rw [List.getElem?_eq_getElem hi']
    simp only
    rw [openResult_of_opened (openResult_sealed hK hright hvalid hclear)]
    rfl

/-- A block above the claim, or any block for a claim that is not accepted, shows zeros. -/
theorem openedPage_dead {clearance : ClearanceLevel} {claim : JisClaim}
    (hdead : ¬ claim.Valid ∨ claim.clearance < clearance)
    {blocks : List EncryptedBlock} (hblocks : ∀ block ∈ blocks, block.requiredClearance = clearance)
    (restore : List UInt8 → List UInt8) (i : Nat) :
    openedPage a K restore blocks claim i = .ok (zeroPage a.pageSize) := by
  unfold openedPage
  cases hblock : blocks[i]? with
  | none => rfl
  | some block =>
    have hrequired := hblocks block (List.mem_of_getElem? hblock)
    simp only
    unfold openResult
    by_cases hid : claim.identity = ""
    · rw [if_pos hid]
      rfl
    rw [if_neg hid]
    by_cases hlen : claim.ed25519Pub.utf8ByteSize ≠ ed25519PubSize * 2
    · rw [if_pos hlen]
      rfl
    rw [if_neg hlen]
    have hclear : claim.clearance < block.requiredClearance := by
      rw [hrequired]
      exact hdead.resolve_left (not_not.mpr ⟨hid, not_not.mp hlen⟩)
    rw [if_pos hclear]
    rfl

/-- In the mode of `seal_pages`, what the index opens is what is injected. -/
theorem pageData_encrypted {blocks : List EncryptedBlock} {claim : JisClaim}
    {clearance : ClearanceLevel} (hmode : a.fillMode = .encryptedRestore blocks claim clearance)
    (page : Nat → List UInt8)
    (hpage : ∀ i, openedPage a K (fillPage a.pageSize) blocks claim i = .ok (page i))
    (e : AirlockBifurcation) (address : Nat) (he : Ready K e) :
    (a.pageData K Z e address).2 = .ok (page (a.pageIndex address)) ∧
      Ready K (a.pageData K Z e address).1 := by
  unfold MmuArena.pageData
  simp only [hmode]
  rw [← hpage]
  exact openPage_eq a he _ blocks claim _

/-- The same in the mode of `seal_pages_compressed`. -/
theorem pageData_compressed {blocks : List EncryptedBlock} {sizes : List Nat} {claim : JisClaim}
    {clearance : ClearanceLevel}
    (hmode : a.fillMode = .compressedEncryptedRestore blocks sizes claim clearance)
    (page : Nat → List UInt8)
    (hpage : ∀ i, openedPage a K (a.decompressPage Z) blocks claim i = .ok (page i))
    (e : AirlockBifurcation) (address : Nat) (he : Ready K e) :
    (a.pageData K Z e address).2 = .ok (page (a.pageIndex address)) ∧
      Ready K (a.pageData K Z e address).1 := by
  unfold MmuArena.pageData
  simp only [hmode]
  rw [← hpage]
  exact openPage_eq a he _ blocks claim _

/-- A page that was compressed decompresses into the page. -/
theorem decompressPage_compress (hZ : Z.Lawful) {zstdLevel : Int} {page : List UInt8}
    (h : (Z.encodeAll page zstdLevel).isSome) :
    a.decompressPage Z (compress Z zstdLevel page) = fillPage a.pageSize page := by
  obtain ⟨encoded, hencode⟩ := Option.isSome_iff_exists.mp h
  unfold MmuArena.decompressPage compress
  rw [hencode, Option.getD_some, hZ page zstdLevel encoded hencode]

theorem sealPagesCompressed_ok {draws : Nat → PageDraw} {clearance : ClearanceLevel}
    {source : String} {zstdLevel : Int} {pages : List (List UInt8)} {result : CompressedSealResult}
    (h : sealPagesCompressed K Z draws clearance source zstdLevel pages = .ok result) :
    sealFrom K draws clearance source (.new K) 0 (pages.map (compress Z zstdLevel)) =
      .ok result.blocks := by
  unfold sealPagesCompressed at h
  simp only at h
  split at h
  · cases h
  · next blocks hblocks =>
    cases h
    exact hblocks

theorem sealPagesCompressed_returns {draws : Nat → PageDraw} {clearance : ClearanceLevel}
    {source : String} {zstdLevel : Int} {pages : List (List UInt8)}
    (hpages : ∀ page ∈ pages, Accepts K (compress Z zstdLevel page)) :
    ∃ result, sealPagesCompressed K Z draws clearance source zstdLevel pages = .ok result := by
  obtain ⟨blocks, hblocks⟩ : ∃ blocks, sealFrom K draws clearance source (.new K) 0
      (pages.map (compress Z zstdLevel)) = .ok blocks :=
    sealFrom_returns (List.forall_mem_map.mpr hpages) _ _
  unfold sealPagesCompressed
  simp only [hblocks]
  exact ⟨_, rfl⟩

theorem forall₂_clearance {clearance : ClearanceLevel} {blocks : List EncryptedBlock}
    {contents : List (List UInt8)}
    (h : List.Forall₂ (fun block _ => block.requiredClearance = clearance) blocks contents) :
    ∀ block ∈ blocks, block.requiredClearance = clearance := by
  intro block hblock
  obtain ⟨i, hi, rfl⟩ := List.getElem_of_mem hblock
  exact h.get hi (h.length_eq ▸ hi)

end Faults

/-- Sealing and faulting back: under an accepted claim with the clearance of the pages, every fault
brings back the page at its index, in both modes, however the faults come. Sealing returns whenever
the cipher takes the pages. -/
theorem faults_restore_pages (hK : K.Lawful) (hZ : Z.Lawful) (draws : Nat → PageDraw)
    (pages : List (List UInt8)) (clearance : ClearanceLevel) (source : String) (zstdLevel : Int)
    (claim : JisClaim) (hvalid : claim.Valid) (hclear : clearance ≤ claim.clearance) :
    ((∀ page ∈ pages, Accepts K page) →
      ∃ blocks, sealPages K draws clearance source pages = .ok blocks) ∧
    (∀ blocks a faults, sealPages K draws clearance source pages = .ok blocks →
      a.fillMode = .encryptedRestore blocks claim clearance →
      (∀ f ∈ faults, a.Contains f.address) → Restores K Z a pages faults) ∧
    ((∀ page ∈ pages, Accepts K (compress Z zstdLevel page)) →
      ∃ result, sealPagesCompressed K Z draws clearance source zstdLevel pages = .ok result) ∧
    (∀ result a faults,
      sealPagesCompressed K Z draws clearance source zstdLevel pages = .ok result →
      (∀ page ∈ pages, (Z.encodeAll page zstdLevel).isSome) →
      a.fillMode = .compressedEncryptedRestore result.blocks result.originalSizes claim clearance →
      (∀ f ∈ faults, a.Contains f.address) → Restores K Z a pages faults) := by
  refine ⟨fun hpages => sealFrom_returns hpages _ _, ?_, sealPagesCompressed_returns, ?_⟩
  · intro blocks a faults hseal hmode hin
    refine restores_of_index (pageData_encrypted hmode _ fun i => ?_) hin
    rw [openedPage_sealed hK hvalid hclear (sealFrom_sealedFor hK hseal)]
    rfl
  · intro result a faults hseal hencode hmode hin
    refine restores_of_index (pageData_compressed hmode _ fun i => ?_) hin
    rw [openedPage_sealed hK hvalid hclear (sealFrom_sealedFor hK (sealPagesCompressed_ok hseal)),
      List.getElem?_map]
    unfold restored
    cases hpage : pages[i]? with
    | none => rfl
    | some page =>
      exact congrArg Except.ok
        (decompressPage_compress hZ (hencode page (List.mem_of_getElem? hpage)))

/-! ## A page of text -/

namespace Demo

open Bifurcation.Demo

/-- `zstd` on `hello`: one raw block in a frame. -/
def helloFrame : List UInt8 :=
  [0x28, 0xb5, 0x2f, 0xfd, 0x00, 0x58, 0x29, 0x00, 0x00, 0x68, 0x65, 0x6c, 0x6c, 0x6f]

/-- `zstd` on the one frame. -/
def zstd : Zstd where
  encodeAll := fun data level => if data = hello ∧ level = 3 then some helloFrame else none
  decodeAll := fun encoded => if encoded = helloFrame then some hello else none

theorem zstd_lawful : zstd.Lawful := by
  intro data level encoded h
  simp only [zstd] at h ⊢
  split at h
  · next hhello =>
    cases h
    rw [if_pos rfl, hhello.1]
  · cases h

theorem pageSize_pos : 0 < 4096 := by decide

/-- An arena of two pages. -/
def arena (fillMode : FillMode) : MmuArena where
  addr := 0x7f0000000000
  size := 8192
  pageSize := 4096
  fillMode := fillMode
  pageSize_pos := pageSize_pos
  addr_aligned := ⟨0x7f0000000, rfl⟩

def pageDraws (_ : Nat) : PageDraw := ⟨sessionDraw, draw⟩

/-- The first page, the second, and the first again. -/
def touched : List Fault :=
  [⟨0x7f0000000005, true⟩, ⟨0x7f0000001000, true⟩, ⟨0x7f0000000000, false⟩]

theorem crypto_accepts (data : List UInt8) : Accepts crypto data := by
  intro key nonce
  simp only [crypto]
  split <;> rfl

theorem sealPages_hello :
    sealPages crypto pageDraws .secret "root_idd.aint" [hello] = .ok [secretHello.block] := by
  rfl

end Demo

section

open Bifurcation.Demo Demo

theorem faults_restore_hello :
    Restores crypto zstd (arena (.encryptedRestore [secretHello.block] (claimAt .secret) .secret))
      [hello] touched := by
  refine (faults_restore_pages crypto_lawful zstd_lawful pageDraws [hello] .secret "root_idd.aint" 3
    (claimAt .secret) (claimAt_valid .secret) (by decide)).2.1 _ _ _ sealPages_hello rfl ?_
  decide

end

/-- Two lists of pages, sealed for a clearance, and a claim that is not accepted or is below it: the
handler injects zeros for every fault, so nothing it does tells the one list from the other. -/
theorem dead_material_reveals_nothing (K : Crypto) (Z : Zstd) (draws draws' : Nat → PageDraw)
    (pages pages' : List (List UInt8)) (clearance : ClearanceLevel) (source source' : String)
    (zstdLevel : Int) (claim : JisClaim) (hdead : ¬ claim.Valid ∨ claim.clearance < clearance)
    (a : MmuArena) (faults : List Fault) :
    (∀ blocks blocks', sealPages K draws clearance source pages = .ok blocks →
      sealPages K draws' clearance source' pages' = .ok blocks' →
      InjectsZeros K Z { a with fillMode := .encryptedRestore blocks claim clearance } faults ∧
      MmuArena.injected K Z { a with fillMode := .encryptedRestore blocks claim clearance } faults =
        MmuArena.injected K Z { a with fillMode := .encryptedRestore blocks' claim clearance }
          faults) ∧
    (∀ r r', sealPagesCompressed K Z draws clearance source zstdLevel pages = .ok r →
      sealPagesCompressed K Z draws' clearance source' zstdLevel pages' = .ok r' →
      InjectsZeros K Z
        { a with fillMode := .compressedEncryptedRestore r.blocks r.originalSizes claim clearance }
        faults ∧
      MmuArena.injected K Z
          { a with fillMode := .compressedEncryptedRestore r.blocks r.originalSizes claim clearance }
          faults =
        MmuArena.injected K Z
          { a with fillMode := .compressedEncryptedRestore r'.blocks r'.originalSizes claim clearance }
          faults) := by
  have hplain : ∀ {draws : Nat → PageDraw} {source : String} {pages : List (List UInt8)}
      {blocks : List EncryptedBlock}, sealPages K draws clearance source pages = .ok blocks →
      InjectsZeros K Z { a with fillMode := .encryptedRestore blocks claim clearance } faults := by
    intro draws source pages blocks h
    refine injected_eq (fun _ => zeroPage a.pageSize) (fun e address he => ?_) faults
    refine pageData_encrypted rfl (fun _ => zeroPage a.pageSize) (fun i => ?_) e address he
    exact openedPage_dead hdead (forall₂_clearance (sealFrom_clearance h)) _ i
  have hcompressed : ∀ {draws : Nat → PageDraw} {source : String} {pages : List (List UInt8)}
      {r : CompressedSealResult},
      sealPagesCompressed K Z draws clearance source zstdLevel pages = .ok r →
      InjectsZeros K Z
        { a with fillMode := .compressedEncryptedRestore r.blocks r.originalSizes claim clearance }
        faults := by
    intro draws source pages r h
    refine injected_eq (fun _ => zeroPage a.pageSize) (fun e address he => ?_) faults
    refine pageData_compressed rfl (fun _ => zeroPage a.pageSize) (fun i => ?_) e address he
    exact openedPage_dead hdead
      (forall₂_clearance (sealFrom_clearance (sealPagesCompressed_ok h))) _ i
  constructor
  · intro blocks blocks' h h'
    exact ⟨hplain h, (hplain h).trans (hplain h').symm⟩
  · intro r r' h h'
    exact ⟨hcompressed h, (hcompressed h).trans (hcompressed h').symm⟩

section

open Bifurcation.Demo Demo

/-- One page and two others are told apart by nothing. -/
theorem dead_hello_reveals_nothing : ∃ blocks,
    sealPages crypto pageDraws .secret "p520.aint" [ciphertext, hello] = .ok blocks ∧
    InjectsZeros crypto zstd
      { arena .zeroFill with
        fillMode := .encryptedRestore [secretHello.block] (claimAt .restricted) .secret }
      touched ∧
    MmuArena.injected crypto zstd
        { arena .zeroFill with
          fillMode := .encryptedRestore [secretHello.block] (claimAt .restricted) .secret }
        touched =
      MmuArena.injected crypto zstd
        { arena .zeroFill with fillMode := .encryptedRestore blocks (claimAt .restricted) .secret }
        touched := by
  obtain ⟨blocks, hblocks⟩ : ∃ blocks,
      sealPages crypto pageDraws .secret "p520.aint" [ciphertext, hello] = .ok blocks :=
    sealFrom_returns (fun _ _ => crypto_accepts _) _ _
  exact ⟨blocks, hblocks, (dead_material_reveals_nothing crypto zstd pageDraws pageDraws [hello]
    [ciphertext, hello] .secret "root_idd.aint" "p520.aint" 3 (claimAt .restricted)
    (.inr (by decide)) (arena .zeroFill) touched).1 _ _ sealPages_hello hblocks⟩

end

end Spaceshuttle.Mmu
