import Spaceshuttle.Mmu.Restore

/-!
# Pages that do not compress

Where `zstd` fails, `seal_pages_compressed` seals the page as it is (`lib.rs:594-595`). The block does
not say so, and the handler decompresses whatever it opens (`lib.rs:329-341`).
-/

namespace Spaceshuttle.Mmu

open Bifurcation

/-! ## Decoding what was not encoded -/

/-- The page is what `zstd` makes of the data, at some level. -/
def Zstd.Encodes (Z : Zstd) (data page : List UInt8) : Prop :=
  ∃ level, Z.encodeAll data level = some page

/-- What was encoded decodes to itself, and nothing else decodes. -/
def Zstd.Exact (Z : Zstd) : Prop :=
  ∀ encoded data, Z.decodeAll encoded = some data ↔ Z.Encodes data encoded

theorem Zstd.Exact.lawful {Z : Zstd} (hZ : Z.Exact) : Z.Lawful :=
  fun data level encoded h => (hZ encoded data).mpr ⟨level, h⟩

theorem fillPage_eq_zeroPage_iff (pageSize : Nat) (page : List UInt8) :
    fillPage pageSize page = zeroPage pageSize ↔ ∀ b ∈ page.take pageSize, b = 0 := by
  unfold fillPage zeroPage
  rw [List.eq_replicate_iff]
  constructor
  · rintro ⟨-, hzero⟩ b hb
    exact hzero b (List.mem_append_left _ hb)
  · intro hzero
    refine ⟨?_, fun b hb => ?_⟩
    · rw [List.length_append, List.length_take, List.length_replicate]
      omega
    · rcases List.mem_append.mp hb with hb | hb
      · exact hzero b hb
      · exact List.eq_of_mem_replicate hb

/-- The page compresses; or it is itself the encoding of data that fills a page in the same way; or it
is no encoding, and shows only zeros. -/
def Readable (Z : Zstd) (zstdLevel : Int) (pageSize : Nat) (page : List UInt8) : Prop :=
  (Z.encodeAll page zstdLevel).isSome ∨
    (∃ data, Z.Encodes data page ∧ fillPage pageSize data = fillPage pageSize page) ∨
    ((∀ data, ¬ Z.Encodes data page) ∧ ∀ b ∈ page.take pageSize, b = 0)

section Fallback

variable {K : Crypto} {Z : Zstd} {a : MmuArena}

/-- A page that was not compressed is decompressed all the same. -/
theorem decompressPage_fallback (hZ : Z.Exact) (page : List UInt8) :
    a.decompressPage Z page = fillPage a.pageSize page ↔
      (∃ data, Z.Encodes data page ∧ fillPage a.pageSize data = fillPage a.pageSize page) ∨
      ((∀ data, ¬ Z.Encodes data page) ∧ ∀ b ∈ page.take a.pageSize, b = 0) := by
  unfold MmuArena.decompressPage
  cases hdecode : Z.decodeAll page with
  | some data =>
    have hdata : Z.Encodes data page := (hZ page data).mp hdecode
    constructor
    · intro h
      exact .inl ⟨data, hdata, h⟩
    · rintro (⟨data', hdata', h⟩ | ⟨hnone, -⟩)
      · obtain rfl : data = data' := Option.some.inj (hdecode.symm.trans ((hZ page data').mpr hdata'))
        exact h
      · exact absurd hdata (hnone data)
  | none =>
    have hnone : ∀ data, ¬ Z.Encodes data page := by
      intro data hdata
      rw [(hZ page data).mpr hdata] at hdecode
      cases hdecode
    rw [eq_comm, fillPage_eq_zeroPage_iff]
    constructor
    · intro h
      exact .inr ⟨hnone, h⟩
    · rintro (⟨data, hdata, -⟩ | ⟨-, h⟩)
      · exact absurd hdata (hnone data)
      · exact h

theorem decompressPage_compress_iff (hZ : Z.Exact) (zstdLevel : Int) (page : List UInt8) :
    a.decompressPage Z (compress Z zstdLevel page) = fillPage a.pageSize page ↔
      Readable Z zstdLevel a.pageSize page := by
  by_cases hencode : (Z.encodeAll page zstdLevel).isSome
  · exact iff_of_true (decompressPage_compress hZ.lawful hencode) (.inl hencode)
  · have hraw : compress Z zstdLevel page = page := by
      unfold compress
      rw [Option.not_isSome_iff_eq_none.mp hencode, Option.getD_none]
    rw [hraw, decompressPage_fallback hZ]
    exact (or_iff_right hencode).symm

/-- The page that the handler makes of the block at index `i`. -/
def reread (Z : Zstd) (zstdLevel : Int) (a : MmuArena) (pages : List (List UInt8)) (i : Nat) :
    List UInt8 :=
  match pages[i]? with
  | some page => a.decompressPage Z (compress Z zstdLevel page)
  | none => zeroPage a.pageSize

theorem reread_eq_restored_iff {zstdLevel : Int} {pages : List (List UInt8)} {i : Nat} :
    reread Z zstdLevel a pages i = restored a.pageSize pages i ↔
      ∀ page, pages[i]? = some page →
        a.decompressPage Z (compress Z zstdLevel page) = fillPage a.pageSize page := by
  unfold reread restored
  cases pages[i]? with
  | none => exact iff_of_true rfl fun page h => nomatch h
  | some page =>
    constructor
    · rintro h page' ⟨⟩
      exact h
    · exact fun h => h page rfl

/-- What the handler injects for pages sealed by `seal_pages_compressed`. -/
theorem injected_compressed (hK : K.Lawful) {draws : Nat → PageDraw} {pages : List (List UInt8)}
    {clearance : ClearanceLevel} {source : String} {zstdLevel : Int} {claim : JisClaim}
    (hvalid : claim.Valid) (hclear : clearance ≤ claim.clearance) {result : CompressedSealResult}
    (hseal : sealPagesCompressed K Z draws clearance source zstdLevel pages = .ok result)
    (hmode : a.fillMode =
      .compressedEncryptedRestore result.blocks result.originalSizes claim clearance)
    (faults : List Fault) :
    a.injected K Z faults = faults.map (fun f => some (a.aligned f.address,
      reread Z zstdLevel a pages (a.pageIndex f.address))) := by
  refine injected_eq _ (pageData_compressed hmode (reread Z zstdLevel a pages) fun i => ?_) faults
  rw [openedPage_sealed hK hvalid hclear (sealFrom_sealedFor hK (sealPagesCompressed_ok hseal)),
    List.getElem?_map]
  unfold reread
  cases pages[i]? <;> rfl

theorem restores_iff_decompress (hK : K.Lawful) {draws : Nat → PageDraw} {pages : List (List UInt8)}
    {clearance : ClearanceLevel} {source : String} {zstdLevel : Int} {claim : JisClaim}
    (hvalid : claim.Valid) (hclear : clearance ≤ claim.clearance) {result : CompressedSealResult}
    (hseal : sealPagesCompressed K Z draws clearance source zstdLevel pages = .ok result)
    (hmode : a.fillMode =
      .compressedEncryptedRestore result.blocks result.originalSizes claim clearance)
    {faults : List Fault} (hin : ∀ f ∈ faults, a.Contains f.address) :
    Restores K Z a pages faults ↔
      ∀ f ∈ faults, ∀ page, pages[(f.address - a.addr) / a.pageSize]? = some page →
        a.decompressPage Z (compress Z zstdLevel page) = fillPage a.pageSize page := by
  unfold Restores
  rw [injected_compressed hK hvalid hclear hseal hmode, List.map_inj_left]
  apply forall₂_congr
  intro f hf
  rw [pageIndex_eq a (hin f hf), aligned_eq a (hin f hf), Option.some.injEq, Prod.mk.injEq,
    and_iff_right rfl]
  exact reread_eq_restored_iff

end Fallback

/-- Under an accepted claim with the clearance of the pages, the handler brings back the pages that are
touched exactly if each of them is readable. -/
theorem restores_iff_readable {K : Crypto} (hK : K.Lawful) {Z : Zstd} (hZ : Z.Exact)
    (draws : Nat → PageDraw) (pages : List (List UInt8)) (clearance : ClearanceLevel) (source : String)
    (zstdLevel : Int) (claim : JisClaim) (hvalid : claim.Valid) (hclear : clearance ≤ claim.clearance)
    (result : CompressedSealResult)
    (hseal : sealPagesCompressed K Z draws clearance source zstdLevel pages = .ok result)
    (a : MmuArena)
    (hmode : a.fillMode =
      .compressedEncryptedRestore result.blocks result.originalSizes claim clearance)
    (faults : List Fault) (hin : ∀ f ∈ faults, a.Contains f.address) :
    Restores K Z a pages faults ↔
      ∀ f ∈ faults, ∀ page, pages[(f.address - a.addr) / a.pageSize]? = some page →
        Readable Z zstdLevel a.pageSize page := by
  rw [restores_iff_decompress hK hvalid hclear hseal hmode hin]
  apply forall₂_congr
  intro f hf
  apply forall_congr'
  intro page
  exact imp_congr_right fun _ => decompressPage_compress_iff hZ zstdLevel page

/-! ## One page that compresses and one that does not -/

namespace Demo

open Bifurcation.Demo

/-- The text `world`, which `zstd` above does not encode. -/
def world : List UInt8 := [0x77, 0x6f, 0x72, 0x6c, 0x64]

theorem zstd_exact : zstd.Exact := by
  intro encoded data
  constructor
  · intro h
    simp only [zstd] at h
    split at h
    · next hframe =>
      cases h
      exact ⟨3, by rw [hframe]; rfl⟩
    · cases h
  · rintro ⟨level, h⟩
    exact zstd_lawful data level encoded h

theorem world_not_readable (pageSize : Nat) (hpos : 0 < pageSize) :
    ¬ Readable zstd 3 pageSize world := by
  rintro (hencode | ⟨data, ⟨level, hdata⟩, -⟩ | ⟨-, hzero⟩)
  · exact absurd hencode (by decide)
  · simp only [zstd] at hdata
    split at hdata
    · exact absurd hdata (by decide)
    · cases hdata
  · have hfirst : (0x77 : UInt8) ∈ world.take pageSize :=
      List.mem_take_iff_getElem.mpr ⟨0, lt_min hpos (by decide), rfl⟩
    exact absurd (hzero _ hfirst) (by decide)

theorem touched_contained (fillMode : FillMode) :
    ∀ f ∈ touched, (arena fillMode).Contains f.address := by
  intro f hf
  have hzero : ∀ f ∈ touched, (arena .zeroFill).Contains f.address := by decide
  exact hzero f hf

theorem seals (pages : List (List UInt8)) : ∃ result,
    sealPagesCompressed crypto zstd pageDraws .secret "root_idd.aint" 3 pages = .ok result :=
  sealPagesCompressed_returns fun _ _ => crypto_accepts _

end Demo

section

open Bifurcation.Demo Demo

/-- Beside a page that cannot be compressed, the first page comes back. -/
theorem restores_iff_readable_hello : ∃ result,
    sealPagesCompressed crypto zstd pageDraws .secret "root_idd.aint" 3 [hello, world] = .ok result ∧
      Restores crypto zstd
        (arena (.compressedEncryptedRestore result.blocks result.originalSizes (claimAt .secret) .secret))
        [hello, world] [⟨0x7f0000000005, true⟩, ⟨0x7f0000000000, false⟩] := by
  obtain ⟨result, hseal⟩ := seals [hello, world]
  refine ⟨result, hseal, (restores_iff_readable crypto_lawful zstd_exact pageDraws [hello, world]
    .secret "root_idd.aint" 3 (claimAt .secret) (claimAt_valid .secret) (by decide) result hseal _ rfl _
    ?_).mpr ?_⟩
  · intro f hf
    exact touched_contained _ f (by revert f; decide)
  · intro f hf page hpage
    have hfirst : (f.address - 0x7f0000000000) / 4096 = 0 := by
      clear hpage
      revert f
      decide
    change [hello, world][(f.address - 0x7f0000000000) / 4096]? = some page at hpage
    rw [hfirst] at hpage
    cases hpage
    exact .inl rfl

/-- The page that was sealed as it is does not come back. -/
theorem raw_page_not_restored : ∃ result,
    sealPagesCompressed crypto zstd pageDraws .secret "root_idd.aint" 3 [hello, world] = .ok result ∧
      ¬ Restores crypto zstd
        (arena (.compressedEncryptedRestore result.blocks result.originalSizes (claimAt .secret) .secret))
        [hello, world] touched := by
  obtain ⟨result, hseal⟩ := seals [hello, world]
  refine ⟨result, hseal, fun h => ?_⟩
  have hmem : (⟨0x7f0000001000, true⟩ : Fault) ∈ touched := List.mem_cons_of_mem _ List.mem_cons_self
  have hindex : (0x7f0000001000 - 0x7f0000000000) / 4096 = 1 := by decide
  have hsecond := (restores_iff_decompress crypto_lawful (claimAt_valid .secret) (by decide) hseal rfl
    (touched_contained _)).mp h _ hmem world
    (congrArg (fun i => [hello, world][i]?) hindex)
  exact world_not_readable _ pageSize_pos ((decompressPage_compress_iff zstd_exact 3 world).mp hsecond)

end

end Spaceshuttle.Mmu
