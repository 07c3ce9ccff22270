import Spaceshuttle.Bifurcation.Openers
import Spaceshuttle.Kernel.Pipeline

/-!
# The vault of Kernel B

`Archivaris::vault_store` and `Archivaris::vault_retrieve`
(`crates/trust-kernel/src/archivaris.rs:233-344`) write to the archive `process` writes to. It is
append-only over every run; a refused retrieval is in it only if the claim passed the structural
check. As in `Archivaris`, the prose and the time of an entry are left out.
-/

namespace Spaceshuttle.Kernel

open Bifurcation

/-- `VaultStoreResult` (`archivaris.rs:359-368`). -/
inductive VaultStoreResult where
  | blockSealed (blockIndex : Nat)
  | failed (reason : String)
  deriving DecidableEq, Repr

/-- `VaultRetrieveResult` (`archivaris.rs:372-395`). -/
inductive VaultRetrieveResult where
  | blockOpened (plaintext : List UInt8)
  | accessDenied (required presented : ClearanceLevel) (identity : String)
  | claimInvalid (reason : String)
  | integrityFailed (blockIndex : Nat)
  | notFound (blockIndex : Nat)
  | failed (reason : String)
  deriving DecidableEq, Repr

/-- `Archivaris` with its encryption engine and its vault (`archivaris.rs:71-82`). -/
structure VaultArchivaris extends Archivaris where
  bifurcation : AirlockBifurcation
  vault : List EncryptedBlock

namespace VaultArchivaris

/-- The entry a vault operation pushes; its number is the length of the archive. -/
def log (a : VaultArchivaris) (intent fromAint tibetTokenType : String) : VaultArchivaris :=
  { a with
    archive := a.archive ++ [⟨UInt64.ofNat a.archive.length, intent, fromAint, tibetTokenType⟩] }

section Operations

variable (K : Crypto)

/-- `Archivaris::new` (`archivaris.rs:85-94`). -/
def new : VaultArchivaris where
  archive := []
  bifurcation := .new K
  vault := []

/-- `vault_store` (`archivaris.rs:233-276`). -/
def vaultStore (a : VaultArchivaris) (draw : Draw) (data : List UInt8)
    (clearance : ClearanceLevel) (storedBy : String) :
    VaultArchivaris × Except Panic VaultStoreResult :=
  let blockIndex := a.vault.length
  match a.bifurcation.sealOne K draw data blockIndex clearance storedBy with
  | (e, .ok (.blockSealed block)) =>
      let a := { a with bifurcation := e, vault := a.vault ++ [block] }
      (a.log s!"vault_store_block_{blockIndex}" storedBy "VAULT_SEAL",
        .ok (.blockSealed blockIndex))
  | (e, .ok _) => ({ a with bifurcation := e }, .ok (.failed "Bifurcation seal failed"))
  | (e, .error panic) => ({ a with bifurcation := e }, .error panic)

/-- `vault_retrieve` (`archivaris.rs:283-344`). -/
def vaultRetrieve (a : VaultArchivaris) (blockIndex : Nat) (claim : JisClaim) :
    VaultArchivaris × Except Panic VaultRetrieveResult :=
  match a.vault[blockIndex]? with
  | none => (a, .ok (.notFound blockIndex))
  | some block =>
      let (e, result) := a.bifurcation.openBlock K block claim
      let a := { a with bifurcation := e }
      match result with
      | .ok (.blockOpened plaintext openedBy) =>
          (a.log s!"vault_retrieve_block_{blockIndex}" openedBy "VAULT_OPEN",
            .ok (.blockOpened plaintext))
      | .ok (.accessDenied required presented identity) =>
          (a.log s!"vault_retrieve_DENIED_block_{blockIndex}" identity "VAULT_DENIED",
            .ok (.accessDenied required presented identity))
      | .ok (.claimInvalid reason) => (a, .ok (.claimInvalid reason))
      | .ok (.integrityFailed _ _) => (a, .ok (.integrityFailed blockIndex))
      | .ok _ => (a, .ok (.failed "Unexpected bifurcation result"))
      | .error panic => (a, .error panic)

/-- The three operations, with the bus that `process` finds and what `seal` draws. -/
inductive Op where
  | process (bus : VirtualBus) (payload : BusPayload) (frame : TibetMuxFrame)
  | store (draw : Draw) (data : List UInt8) (clearance : ClearanceLevel) (storedBy : String)
  | retrieve (blockIndex : Nat) (claim : JisClaim)

/-- What an operation returns. -/
inductive Outcome where
  | processed (bus : VirtualBus) (result : ArchivarisResult)
  | stored (result : Except Panic VaultStoreResult)
  | retrieved (result : Except Panic VaultRetrieveResult)

/-- Run an operation. -/
def exec (cfg : TrustKernelConfig) (a : VaultArchivaris) : Op → VaultArchivaris × Outcome
  | .process bus payload frame =>
      let (archivaris, bus, result) := a.toArchivaris.process cfg bus payload frame
      ({ a with toArchivaris := archivaris }, .processed bus result)
  | .store draw data clearance storedBy =>
      let (a, result) := a.vaultStore K draw data clearance storedBy
      (a, .stored result)
  | .retrieve blockIndex claim =>
      let (a, result) := a.vaultRetrieve K blockIndex claim
      (a, .retrieved result)

/-- Kernel B after a run. -/
def after (cfg : TrustKernelConfig) (ops : List Op) : VaultArchivaris :=
  Machine.run (exec K cfg) (new K) ops

end Operations

/-! ## The audit trail -/

/-- The entry says that someone tried to read block `i`. -/
def Names (entry : ArchiveEntry) (i : Nat) : Prop :=
  entry.intent = s!"vault_retrieve_block_{i}" ∨
    entry.intent = s!"vault_retrieve_DENIED_block_{i}"

/-- After the operations `pre`, a retrieval of a block that exists adds one entry, which names the
block. -/
def Logs (K : Crypto) (cfg : TrustKernelConfig) (pre : List Op) (op : Op) : Prop :=
  ∀ i claim, op = .retrieve i claim → i < (after K cfg pre).vault.length →
    ∃ entry, (after K cfg (pre ++ [op])).archive = (after K cfg pre).archive ++ [entry] ∧
      Names entry i

/-- The archive only grows at its end, and has an entry for every retrieval of a block that
exists. -/
structure Audited (K : Crypto) (cfg : TrustKernelConfig) (ops : List Op) : Prop where
  appendOnly : ∀ pre post, ops = pre ++ post →
    (after K cfg pre).archive <+: (after K cfg ops).archive
  complete : Machine.AtEach (Logs K cfg) ops

/-- A retrieval of a block that exists presents a claim that passes the structural check. -/
def Presents (K : Crypto) (cfg : TrustKernelConfig) (pre : List Op) (op : Op) : Prop :=
  ∀ i claim, op = .retrieve i claim → i < (after K cfg pre).vault.length → claim.Valid

/-! ## Opening a block of the vault -/

section Opening

variable {K : Crypto} {systemSecret : Bytes32} {block : EncryptedBlock} {claim : JisClaim}

/-- A claim that passes the structural check opens a sealed block or is denied. -/
theorem openResult_sealedAs (hK : K.Lawful) {plaintext : List UInt8}
    (hs : SealedAs K systemSecret block plaintext) (hvalid : claim.Valid) :
    openResult K systemSecret block claim =
      if claim.clearance < block.requiredClearance then
        .ok (.accessDenied block.requiredClearance claim.clearance claim.identity)
      else .ok (.blockOpened plaintext claim.identity) := by
  have hdecrypt := hK.decrypt_encrypt _ _ _ _ hs.encrypted
  unfold openResult
  rw [if_neg hvalid.1, if_neg (not_not.mpr hvalid.2)]
  simp [hdecrypt, hs.hash]

theorem openResult_invalid (hinvalid : ¬ claim.Valid) :
    ∃ reason, openResult K systemSecret block claim = .ok (.claimInvalid reason) := by
  unfold openResult
  by_cases hid : claim.identity = ""
  · rw [if_pos hid]
    exact ⟨_, rfl⟩
  · have hlen : claim.ed25519Pub.utf8ByteSize ≠ ed25519PubSize * 2 :=
      fun hlen => hinvalid ⟨hid, hlen⟩
    rw [if_neg hid, if_pos hlen]
    exact ⟨_, rfl⟩

end Opening

/-! ## What an operation does to the state -/

section Steps

variable {K : Crypto} {cfg : TrustKernelConfig} {a : VaultArchivaris}

@[simp] theorem log_bifurcation (intent fromAint tibetTokenType : String) :
    (a.log intent fromAint tibetTokenType).bifurcation = a.bifurcation := rfl

@[simp] theorem log_vault (intent fromAint tibetTokenType : String) :
    (a.log intent fromAint tibetTokenType).vault = a.vault := rfl

theorem process_extends (cfg : TrustKernelConfig) (s : Archivaris) (bus : VirtualBus)
    (payload : BusPayload) (frame : TibetMuxFrame) :
    s.archive <+: (s.process cfg bus payload frame).1.archive := by
  by_cases h : Archivaris.Accepts cfg bus payload
  · obtain ⟨entry, -, harchive, -⟩ := Archivaris.process_accepted h s frame
    rw [harchive]
    exact List.prefix_append _ _
  · rw [(Archivaris.process_refused h s frame).1]

/-- Every block of the vault was sealed under the key it will be opened with. -/
structure Sound (K : Crypto) (a : VaultArchivaris) : Prop where
  coherent : Coherent K a.bifurcation
  vault : ∀ block ∈ a.vault, ∃ plaintext,
    SealedAs K a.bifurcation.systemSecret block plaintext

theorem sound_new : Sound K (new K) :=
  ⟨new_coherent, fun _ hblock => (nomatch hblock)⟩

/-- A store extends the archive, and what it puts into the vault can be opened. -/
theorem vaultStore_step (hK : K.Lawful) (ha : Sound K a) (draw : Draw) (data : List UInt8)
    (clearance : ClearanceLevel) (storedBy : String) :
    a.archive <+: (a.vaultStore K draw data clearance storedBy).1.archive ∧
      Sound K (a.vaultStore K draw data clearance storedBy).1 := by
  have hcoherent := sealOne_coherent hK ha.coherent draw data a.vault.length clearance storedBy
  have hsecret := exec_systemSecret K a.bifurcation
    (.sealOne draw data a.vault.length clearance storedBy)
  have hright := @sealOne_right K a.bifurcation hK ha.coherent draw data a.vault.length clearance
    storedBy
  simp only [Bifurcation.exec] at hsecret
  rcases hseal : a.bifurcation.sealOne K draw data a.vault.length clearance storedBy with
    ⟨e, result⟩
  rw [hseal] at hcoherent hsecret hright
  have hkeep : ∀ block ∈ a.vault, ∃ plaintext, SealedAs K e.systemSecret block plaintext := by
    rw [hsecret]
    exact ha.vault
  unfold vaultStore
  simp only [hseal]
  split
  · next e' block heq =>
    obtain ⟨rfl, rfl⟩ := Prod.mk.inj heq
    refine ⟨List.prefix_append _ _, hcoherent, fun b hb => ?_⟩
    rcases List.mem_append.mp hb with hb | hb
    · exact hkeep b hb
    · obtain rfl := List.mem_singleton.mp hb
      rw [log_bifurcation, hsecret]
      exact ⟨data, (hright rfl).1⟩
  · next e' result' _ heq =>
    obtain ⟨rfl, -⟩ := Prod.mk.inj heq
    exact ⟨List.prefix_refl _, hcoherent, hkeep⟩
  · next e' panic heq =>
    obtain ⟨rfl, -⟩ := Prod.mk.inj heq
    exact ⟨List.prefix_refl _, hcoherent, hkeep⟩

/-- A retrieval leaves the vault as it is. -/
theorem vaultRetrieve_sound (ha : Sound K a) (blockIndex : Nat) (claim : JisClaim) :
    Sound K (a.vaultRetrieve K blockIndex claim).1 := by
  unfold vaultRetrieve
  cases a.vault[blockIndex]? with
  | none => exact ha
  | some block =>
    have hcoherent := openBlock_coherent ha.coherent block claim
    have hsecret := exec_systemSecret K a.bifurcation (.openBlock block claim)
    simp only [Bifurcation.exec] at hsecret
    have hkeep : ∀ b ∈ a.vault, ∃ plaintext,
        SealedAs K (a.bifurcation.openBlock K block claim).1.systemSecret b plaintext := by
      rw [hsecret]
      exact ha.vault
    simp only
    split <;> exact ⟨hcoherent, hkeep⟩

/-- What a retrieval adds to the archive: one entry that names the block if the claim passes the
structural check, and nothing if it does not. -/
theorem vaultRetrieve_archive (hK : K.Lawful) (ha : Sound K a) {blockIndex : Nat}
    (hblock : blockIndex < a.vault.length) (claim : JisClaim) :
    (claim.Valid → ∃ entry,
      (a.vaultRetrieve K blockIndex claim).1.archive = a.archive ++ [entry] ∧
        Names entry blockIndex) ∧
    (¬ claim.Valid → (a.vaultRetrieve K blockIndex claim).1.archive = a.archive) := by
  obtain ⟨plaintext, hs⟩ := ha.vault _ (List.getElem_mem hblock)
  have hresult := openBlock_result ha.coherent a.vault[blockIndex] claim
  unfold vaultRetrieve
  simp only [List.getElem?_eq_getElem hblock]
  constructor
  · intro hvalid
    rw [openResult_sealedAs hK hs hvalid] at hresult
    split at hresult
    · simp only [hresult]
      exact ⟨_, rfl, .inr rfl⟩
    · simp only [hresult]
      exact ⟨_, rfl, .inl rfl⟩
  · intro hinvalid
    obtain ⟨reason, hreason⟩ : ∃ reason, openResult K a.bifurcation.systemSecret
        a.vault[blockIndex] claim = .ok (.claimInvalid reason) := openResult_invalid hinvalid
    rw [hreason] at hresult
    simp only [hresult]

theorem vaultRetrieve_extends (hK : K.Lawful) (ha : Sound K a) (blockIndex : Nat)
    (claim : JisClaim) : a.archive <+: (a.vaultRetrieve K blockIndex claim).1.archive := by
  by_cases hblock : blockIndex < a.vault.length
  · obtain ⟨hlogged, hsilent⟩ := vaultRetrieve_archive hK ha hblock claim
    by_cases hvalid : claim.Valid
    · obtain ⟨entry, harchive, -⟩ := hlogged hvalid
      rw [harchive]
      exact List.prefix_append _ _
    · rw [hsilent hvalid]
  · have hnone := List.getElem?_eq_none (Nat.le_of_not_lt hblock)
    unfold vaultRetrieve
    simp only [hnone]
    exact List.prefix_refl _

/-- Every operation keeps the vault sound and extends the archive. -/
theorem exec_step (hK : K.Lawful) (ha : Sound K a) (op : Op) :
    a.archive <+: (exec K cfg a op).1.archive ∧ Sound K (exec K cfg a op).1 := by
  cases op with
  | process bus payload frame =>
    exact ⟨process_extends cfg a.toArchivaris bus payload frame, ha.coherent, ha.vault⟩
  | store draw data clearance storedBy => exact vaultStore_step hK ha draw data clearance storedBy
  | retrieve blockIndex claim =>
    exact ⟨vaultRetrieve_extends hK ha blockIndex claim, vaultRetrieve_sound ha blockIndex claim⟩

theorem run_extends (hK : K.Lawful) (ha : Sound K a) (ops : List Op) :
    a.archive <+: (Machine.run (exec K cfg) a ops).archive := by
  induction ops generalizing a with
  | nil => exact List.prefix_refl _
  | cons op ops ih =>
    have hstep : a.archive <+: (exec K cfg a op).1.archive ∧ Sound K (exec K cfg a op).1 :=
      exec_step hK ha op
    exact hstep.1.trans (ih hstep.2)

end Steps

/-! ## Runs -/

section Runs

variable {K : Crypto} {cfg : TrustKernelConfig}

theorem sound_after (hK : K.Lawful) (cfg : TrustKernelConfig) (ops : List Op) :
    Sound K (after K cfg ops) :=
  Machine.run_keeps (p := Sound K) (fun _ op ha => (exec_step hK ha op).2) sound_new ops

theorem after_concat (ops : List Op) (op : Op) :
    after K cfg (ops ++ [op]) = (exec K cfg (after K cfg ops) op).1 :=
  Machine.run_concat (new K) ops op

/-- At every point of a run, the next operation is logged as it should be exactly if its claim
passes the structural check. -/
theorem logs_iff_presents (hK : K.Lawful) (cfg : TrustKernelConfig) (pre : List Op) (op : Op) :
    Logs K cfg pre op ↔ Presents K cfg pre op := by
  constructor
  · rintro hlogs i claim rfl hblock
    obtain ⟨entry, harchive, -⟩ := hlogs i claim rfl hblock
    by_contra hinvalid
    rw [after_concat] at harchive
    have hsilent := (vaultRetrieve_archive hK (sound_after hK cfg pre) hblock claim).2 hinvalid
    simp only [exec, hsilent] at harchive
    simp at harchive
  · rintro hpresents i claim rfl hblock
    rw [after_concat]
    exact (vaultRetrieve_archive hK (sound_after hK cfg pre) hblock claim).1
      (hpresents i claim rfl hblock)

/-- In every run the audit trail is complete exactly if every claim that is presented for a block
of the vault passes the structural check: an identity, and a key of 64 bytes in hex. -/
theorem vault_audited_iff (hK : K.Lawful) (cfg : TrustKernelConfig) (ops : List Op) :
    Audited K cfg ops ↔ Machine.AtEach (Presents K cfg) ops := by
  constructor
  · intro haudited pre op post hops
    exact (logs_iff_presents hK cfg pre op).mp (haudited.complete pre op post hops)
  · intro hpresents
    refine ⟨?_, fun pre op post hops => ?_⟩
    · rintro pre post rfl
      simp only [after, Machine.run_append]
      exact run_extends hK (sound_after hK cfg pre) post
    · exact (logs_iff_presents hK cfg pre op).mpr (hpresents pre op post hops)

end Runs

/-- A block is stored, opened, and refused to a claim that may not open it. -/
def visits : List Op :=
  [.store Demo.draw Demo.hello .secret "root_idd.aint", .retrieve 0 (Demo.claimAt .secret),
    .retrieve 0 (Demo.claimAt .restricted)]

theorem vault_audited_visits : Audited Demo.crypto .fast visits := by
  rw [vault_audited_iff Demo.crypto_lawful, visits]
  simp only [Machine.atEach_cons]
  refine ⟨?_, ?_, ?_, Machine.atEach_nil⟩
  · rintro i claim ⟨⟩
  · rintro i claim ⟨⟩ -
    exact Demo.claimAt_valid .secret
  · rintro i claim ⟨⟩ -
    exact Demo.claimAt_valid .restricted

/-- A claim to the highest clearance with a key that is no key. -/
def forgedClaim : JisClaim := { Demo.claimAt .topSecret with ed25519Pub := "d75a98" }

/-- Someone tries a stored block with a forged key: the claim is refused and the archive does not
mention it. -/
theorem forged_claim_unlogged :
    let stored := [Op.store Demo.draw Demo.hello .secret "root_idd.aint"]
    let tried := stored ++ [Op.retrieve 0 forgedClaim]
    (after Demo.crypto .fast stored).vault.length = 1 ∧
      (after Demo.crypto .fast tried).archive = (after Demo.crypto .fast stored).archive ∧
      ¬ Audited Demo.crypto .fast tried := by
  intro stored tried
  have hlength : (after Demo.crypto .fast stored).vault.length = 1 := by decide
  have hblock : 0 < (after Demo.crypto .fast stored).vault.length := hlength ▸ Nat.one_pos
  have hinvalid : ¬ forgedClaim.Valid := by decide
  have hsilent : (after Demo.crypto .fast tried).archive =
      (after Demo.crypto .fast stored).archive := by
    rw [after_concat]
    exact (vaultRetrieve_archive Demo.crypto_lawful
      (sound_after Demo.crypto_lawful .fast stored) hblock forgedClaim).2 hinvalid
  refine ⟨hlength, hsilent, fun haudited => ?_⟩
  obtain ⟨entry, harchive, -⟩ := haudited.complete stored (.retrieve 0 forgedClaim) [] rfl 0
    forgedClaim rfl hblock
  rw [hsilent] at harchive
  simp at harchive

end VaultArchivaris

end Spaceshuttle.Kernel
