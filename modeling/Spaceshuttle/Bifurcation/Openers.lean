import Mathlib.Data.List.ReduceOption
import Spaceshuttle.Bifurcation.Coherence

/-!
# What the openers return

In every reachable state the three openers agree with `openResult`. From that follow the round
trip of every sealer with every opener, when opening returns at all, and what an altered envelope
can open.
-/

namespace Spaceshuttle.Bifurcation

variable {K : Crypto} {systemSecret : Bytes32} {claim : JisClaim} {block : EncryptedBlock}
variable {plaintext : List UInt8}

/-- The plaintext in the answer of `open`, if there is one. -/
def openedPlaintext : Except Panic BifurcationResult → Option (List UInt8)
  | .ok (.blockOpened plaintext _) => some plaintext
  | _ => none

/-- The ciphertext authenticates under the key the system derives for the block. -/
def Authentic (K : Crypto) (systemSecret : Bytes32) (block : EncryptedBlock) : Prop :=
  (K.decrypt (K.openKey systemSecret block.ephemeralPub block.blockIndex) block.nonce
    block.ciphertext).isSome

/-! ## One block -/

theorem openedPlaintext_openResult_iff :
    openedPlaintext (openResult K systemSecret block claim) = some plaintext ↔
      claim.Valid ∧ block.requiredClearance ≤ claim.clearance ∧
      K.decrypt (K.openKey systemSecret block.ephemeralPub block.blockIndex) block.nonce
        block.ciphertext = some plaintext ∧ K.sha256 plaintext = block.plaintextHash := by
  unfold openResult JisClaim.Valid
  rw [← ClearanceLevel.not_lt]
  by_cases hid : claim.identity = ""
  · simp [hid, openedPlaintext]
  by_cases hlen : claim.ed25519Pub.utf8ByteSize = ed25519PubSize * 2
  · by_cases hclear : claim.clearance < block.requiredClearance
    · simp [hid, hlen, hclear, openedPlaintext]
    · simp only [hid, hlen, hclear, if_false, ne_eq, not_true_eq_false, not_false_eq_true, true_and]
      cases K.decrypt (K.openKey systemSecret block.ephemeralPub block.blockIndex) block.nonce
        block.ciphertext with
      | none => simp [openedPlaintext]
      | some p =>
        by_cases hhash : K.sha256 p = block.plaintextHash
        · simp only [hhash, not_true_eq_false, if_false, openedPlaintext, Option.some.injEq]
          constructor
          · rintro rfl
            exact ⟨rfl, hhash⟩
          · exact fun h => h.1
        · simp only [hhash, not_false_eq_true, if_true, openedPlaintext, Option.some.injEq]
          constructor
          · exact fun h => (nomatch h)
          · rintro ⟨rfl, hsame⟩
            exact absurd hsame hhash
  · simp [hid, hlen, openedPlaintext]

theorem openResult_of_opened (h : openedPlaintext (openResult K systemSecret block claim) =
    some plaintext) :
    openResult K systemSecret block claim = .ok (.blockOpened plaintext claim.identity) := by
  obtain ⟨⟨hid, hlen⟩, hclear, hdecrypt, hhash⟩ := openedPlaintext_openResult_iff.mp h
  have hnot := ClearanceLevel.not_lt.mpr hclear
  unfold openResult
  simp [hid, hlen, hnot, hdecrypt, hhash]

/-- `open` returns unless the claim is accepted, the clearance suffices and the ciphertext does not
authenticate. -/
theorem openResult_returns_iff :
    (∃ result, openResult K systemSecret block claim = .ok result) ↔
      (claim.Valid → block.requiredClearance ≤ claim.clearance →
        Authentic K systemSecret block) := by
  unfold openResult JisClaim.Valid Authentic
  rw [← ClearanceLevel.not_lt]
  by_cases hid : claim.identity = ""
  · simp [hid]
  by_cases hlen : claim.ed25519Pub.utf8ByteSize = ed25519PubSize * 2
  · by_cases hclear : claim.clearance < block.requiredClearance
    · simp [hid, hlen, hclear]
    · simp only [hid, hlen, hclear, if_false, ne_eq, not_true_eq_false, not_false_eq_true, true_and,
        forall_const]
      cases K.decrypt (K.openKey systemSecret block.ephemeralPub block.blockIndex) block.nonce
        block.ciphertext with
      | none => simp
      | some p =>
        simp only [Option.isSome_some, iff_true]
        split
        · exact ⟨_, rfl⟩
        · exact ⟨_, rfl⟩
  · simp [hid, hlen]

/-- For an accepted claim, a block in a batch fares as it does alone. -/
theorem openInBatch_eq (hvalid : claim.Valid) :
    openInBatch K systemSecret claim block none =
      (openResult K systemSecret block claim).map (fun r => openedPlaintext (.ok r)) := by
  unfold openInBatch openResult Crypto.aesGcmDecrypt
  obtain ⟨hid, hlen⟩ := hvalid
  rw [if_neg hid, if_neg (not_not.mpr hlen)]
  by_cases hclear : claim.clearance < block.requiredClearance
  · rw [if_pos hclear, if_pos hclear]
    rfl
  · rw [if_neg hclear, if_neg hclear]
    simp only [Option.getD_none]
    cases K.decrypt (K.openKey systemSecret block.ephemeralPub block.blockIndex) block.nonce
      block.ciphertext with
    | none => rfl
    | some p =>
      simp only
      split <;> rfl

/-! ## Batches -/

section Batch

variable {blocks : List EncryptedBlock}

theorem openedPlaintext_of_invalid (hvalid : ¬ claim.Valid) :
    openedPlaintext (openResult K systemSecret block claim) = none := by
  by_contra hsome
  obtain ⟨p, hp⟩ := Option.ne_none_iff_exists'.mp hsome
  exact hvalid (openedPlaintext_openResult_iff.mp hp).1

theorem openInBatch_ok_iff (hvalid : claim.Valid) {result : Option (List UInt8)} :
    openInBatch K systemSecret claim block none = .ok result ↔
      (∃ r, openResult K systemSecret block claim = .ok r) ∧
        result = openedPlaintext (openResult K systemSecret block claim) := by
  rw [openInBatch_eq hvalid]
  cases openResult K systemSecret block claim with
  | error panic =>
    constructor
    · exact fun h => (nomatch h)
    · rintro ⟨⟨r, hr⟩, -⟩
      cases hr
  | ok r =>
    constructor
    · intro h
      exact ⟨⟨r, rfl⟩, (Except.ok.inj h).symm⟩
    · rintro ⟨-, rfl⟩
      rfl

/-- A batch returns the plaintexts that `open` would return, block by block. -/
theorem parallelOpen_plaintexts {result : BatchOpenResult}
    (h : parallelOpen K blocks claim systemSecret = .ok result) :
    result.plaintexts =
      blocks.filterMap (fun b => openedPlaintext (openResult K systemSecret b claim)) := by
  unfold parallelOpen at h
  split at h
  · next hvalid =>
    obtain rfl := Except.ok.inj h
    symm
    rw [List.filterMap_eq_nil_iff]
    exact fun b _ => openedPlaintext_of_invalid hvalid
  · next hvalid =>
    split at h
    · cases h
    · next results hresults =>
      obtain rfl := Except.ok.inj h
      rw [Fallible.mapM_ok_iff] at hresults
      simp only [openInBatch_ok_iff (not_not.mp hvalid)] at hresults
      induction hresults with
      | nil => rfl
      | @cons b o blocks results hb _ ih =>
        rw [List.filterMap_cons, ← hb.2]
        cases o with
        | none => simpa [List.reduceOption_cons_of_none] using ih
        | some p => simpa [List.reduceOption_cons_of_some] using ih

theorem parallelOpen_returns_iff :
    (∃ result, parallelOpen K blocks claim systemSecret = .ok result) ↔
      ∀ b ∈ blocks, ∃ result, openResult K systemSecret b claim = .ok result := by
  by_cases hvalid : claim.Valid
  · have hmap : (∃ results, blocks.mapM
        (fun b => openInBatch K systemSecret claim b none) = .ok results) ↔
        ∀ b ∈ blocks, ∃ result, openResult K systemSecret b claim = .ok result := by
      rw [Fallible.exists_mapM_ok_iff]
      simp [openInBatch_ok_iff hvalid]
    rw [← hmap]
    unfold parallelOpen
    rw [if_neg (not_not.mpr hvalid)]
    cases blocks.mapM (fun b => openInBatch K systemSecret claim b none) with
    | error panic => simp
    | ok results => simp
  · constructor
    · intro _ b _
      exact openResult_returns_iff.mpr (fun h => absurd h hvalid)
    · intro _
      exact ⟨⟨[], blocks.length⟩, by rw [parallelOpen, if_pos hvalid]⟩

theorem deniedCount_eq_zero (h : ∀ b ∈ blocks, b.requiredClearance ≤ claim.clearance) :
    deniedCount claim blocks = 0 := by
  unfold deniedCount
  rw [List.countP_eq_zero]
  intro b hb
  simpa using ClearanceLevel.not_lt.mpr (h b hb)

theorem parallelOpen_denied {result : BatchOpenResult} (hvalid : claim.Valid)
    (h : parallelOpen K blocks claim systemSecret = .ok result) :
    result.denied = deniedCount claim blocks := by
  unfold parallelOpen at h
  rw [if_neg (not_not.mpr hvalid)] at h
  split at h
  · cases h
  · obtain rfl := Except.ok.inj h
    rfl

end Batch

/-! ## A key exchange -/

namespace Demo

/-- The secret key of the sealing side. -/
def ephemeralSecret : Bytes32 :=
  #v[1, 2, 3, 4, 5, 6, 7, 8, 9, 10, 11, 12, 13, 14, 15, 16, 17, 18, 19, 20, 21, 22, 23, 24, 25, 26,
    27, 28, 29, 30, 31, 32]

/-- The public key of the system. -/
def systemPub : Bytes32 :=
  #v[121, 235, 202, 117, 105, 247, 162, 17, 60, 12, 38, 204, 63, 218, 84, 91, 132, 208, 236, 148,
    190, 20, 167, 143, 208, 202, 109, 32, 254, 96, 227, 105]

/-- The public key of the sealing side. -/
def ephemeralPub : Bytes32 :=
  #v[7, 163, 124, 188, 20, 32, 147, 200, 183, 85, 220, 27, 16, 232, 108, 180, 38, 55, 74, 209, 106,
    168, 83, 237, 11, 223, 192, 178, 184, 109, 28, 124]

/-- The X25519 secret that both sides compute. -/
def sharedSecret : Bytes32 :=
  #v[42, 159, 158, 32, 86, 98, 166, 62, 9, 72, 215, 176, 75, 142, 209, 253, 0, 19, 142, 109, 228,
    147, 98, 76, 163, 187, 240, 145, 183, 119, 47, 86]

/-- The HKDF key of block 0. -/
def aesKey : Bytes32 :=
  #v[96, 226, 175, 53, 232, 4, 175, 89, 195, 55, 244, 94, 72, 49, 243, 153, 76, 118, 5, 131, 80,
    28, 199, 148, 137, 102, 167, 6, 62, 7, 52, 40]

def nonce : Nonce := #v[1, 2, 3, 4, 5, 6, 7, 8, 9, 10, 11, 12]

/-- The text `hello`. -/
def hello : List UInt8 := [104, 101, 108, 108, 111]

/-- AES-256-GCM of `hello`, with its tag. -/
def ciphertext : List UInt8 :=
  [123, 141, 140, 96, 112, 22, 238, 158, 219, 54, 3, 157, 116, 57, 175, 49, 101, 227, 158, 185,
    244]

/-- SHA-256 of `hello`. -/
def digest : Bytes32 :=
  #v[44, 242, 77, 186, 95, 176, 163, 14, 38, 232, 59, 42, 197, 185, 226, 158, 27, 22, 30, 92, 31,
    167, 66, 94, 115, 4, 51, 98, 147, 139, 152, 36]

def zeros : Bytes32 := Vector.replicate 32 0

/-- The primitives on the values above. Elsewhere keys are zero, and a ciphertext shows its key and
nonce in front of the plaintext. -/
def crypto : Crypto where
  publicKey := fun secret =>
    if secret = systemSeed then systemPub
    else if secret = ephemeralSecret then ephemeralPub else zeros
  diffieHellman := fun secret pub =>
    if (secret = systemSeed ∧ pub = ephemeralPub) ∨ (secret = ephemeralSecret ∧ pub = systemPub) then
      sharedSecret
    else zeros
  hkdfExpand := fun secret info =>
    if secret = sharedSecret ∧ info = hkdfInfoPrefix ++ toLeBytes 0 then aesKey else zeros
  sha256 := fun data => if data = hello then digest else zeros
  encrypt := fun key n data =>
    if key = aesKey ∧ n = nonce ∧ data = hello then some ciphertext
    else some (key.toList ++ n.toList ++ data)
  decrypt := fun key n data =>
    if data = ciphertext then if key = aesKey ∧ n = nonce then some hello else none
    else if data.take 44 = key.toList ++ n.toList then some (data.drop 44) else none

theorem take_shown (key : Bytes32) (n : Nonce) (data : List UInt8) :
    (key.toList ++ n.toList ++ data).take 44 = key.toList ++ n.toList ∧
      (key.toList ++ n.toList ++ data).drop 44 = data := by
  have hlen : (key.toList ++ n.toList).length = 44 := by simp
  exact ⟨List.take_left' hlen, List.drop_left' hlen⟩

theorem shown_ne_ciphertext (key : Bytes32) (n : Nonce) (data : List UInt8) :
    key.toList ++ n.toList ++ data ≠ ciphertext := by
  intro h
  have hlen := congrArg List.length h
  simp [ciphertext] at hlen
  omega

theorem publicKey_iff (secret : Bytes32) :
    (crypto.publicKey secret = systemPub ↔ secret = systemSeed) ∧
      (crypto.publicKey secret = ephemeralPub ↔ secret = ephemeralSecret) := by
  simp only [crypto]
  by_cases hsystem : secret = systemSeed
  · rw [if_pos hsystem, hsystem]
    decide
  · by_cases heph : secret = ephemeralSecret
    · rw [if_neg hsystem, if_pos heph, heph]
      decide
    · rw [if_neg hsystem, if_neg heph]
      simp only [hsystem, heph, iff_false]
      decide

theorem crypto_lawful : crypto.Lawful := by
  constructor
  · intro a b
    have hdh : ∀ s t, crypto.diffieHellman s (crypto.publicKey t) =
        if (s = systemSeed ∧ t = ephemeralSecret) ∨ (s = ephemeralSecret ∧ t = systemSeed) then
          sharedSecret
        else zeros := by
      intro s t
      show (if (s = systemSeed ∧ crypto.publicKey t = ephemeralPub) ∨
        (s = ephemeralSecret ∧ crypto.publicKey t = systemPub) then sharedSecret else zeros) = _
      simp only [(publicKey_iff t).1, (publicKey_iff t).2]
    rw [hdh, hdh]
    refine if_congr ?_ rfl rfl
    constructor <;> rintro (⟨ha, hb⟩ | ⟨ha, hb⟩) <;> simp [ha, hb]
  · intro key n data c h
    simp only [crypto] at h ⊢
    split at h
    · next hreal =>
      obtain rfl := Option.some.inj h
      simp [hreal]
    · obtain rfl := Option.some.inj h
      obtain ⟨htake, hdrop⟩ := take_shown key n data
      rw [if_neg (shown_ne_ciphertext key n data), if_pos htake, hdrop]

def draw : Draw := ⟨ephemeralSecret, nonce, 1⟩

def sessionDraw : SessionDraw := ⟨ephemeralSecret, 0⟩

/-- Every sealer seals `hello` as block 0, with a flush and a rotation on the way. -/
def ops : List Op :=
  [.sealOne draw hello 0 .secret "root_idd.aint",
    .sealSession sessionDraw draw hello 0 .secret "root_idd.aint", .flushCache,
    .sealBatch sessionDraw (fun _ => draw) [hello] .secret "root_idd.aint", .rotateSession,
    .parallelSeal (fun _ => draw) [hello] .secret "root_idd.aint"]

/-- The four sealed blocks. -/
def sealedHello : List SealedBlock :=
  (Machine.history (exec crypto) (AirlockBifurcation.new crypto) ops).flatMap sealedBlocks

def claimAt (clearance : ClearanceLevel) : JisClaim where
  identity := "codex.aint"
  ed25519Pub := "d75a980182b10ab7d54bfed3c964073a0ee172f3daa62325af021a68f707511a"
  clearance := clearance

theorem claimAt_valid (clearance : ClearanceLevel) : (claimAt clearance).Valid := by
  cases clearance <;> decide

end Demo

/-! ## Round trip -/

/-- A sealed block opens to its plaintext under every claim with enough clearance. -/
theorem openResult_sealed (hK : K.Lawful) {s : SealedBlock} (hs : s.Right K systemSecret)
    (hvalid : claim.Valid) (hclear : s.required ≤ claim.clearance) :
    openedPlaintext (openResult K systemSecret s.block claim) = some s.plaintext := by
  refine openedPlaintext_openResult_iff.mpr ⟨hvalid, ?_, ?_, hs.sealedAs.hash.symm⟩
  · rw [hs.required]
    exact hclear
  · exact hK.decrypt_encrypt _ _ _ _ hs.sealedAs.encrypted

theorem parallelOpen_sealed (hK : K.Lawful) {ss : List SealedBlock}
    (hss : ∀ s ∈ ss, s.Right K systemSecret) (hvalid : claim.Valid)
    (hclear : ∀ s ∈ ss, s.required ≤ claim.clearance) :
    parallelOpen K (ss.map SealedBlock.block) claim systemSecret =
      .ok ⟨ss.map SealedBlock.plaintext, 0⟩ := by
  have hopened : ∀ s ∈ ss,
      openedPlaintext (openResult K systemSecret s.block claim) = some s.plaintext :=
    fun s hs => openResult_sealed hK (hss s hs) hvalid (hclear s hs)
  obtain ⟨⟨plaintexts, denied⟩, hresult⟩ : ∃ result,
      parallelOpen K (ss.map SealedBlock.block) claim systemSecret = .ok result := by
    rw [parallelOpen_returns_iff, List.forall_mem_map]
    exact fun s hs => ⟨_, openResult_of_opened (hopened s hs)⟩
  have hplain : plaintexts = ss.map SealedBlock.plaintext := by
    rw [← List.filterMap_eq_map, show plaintexts = _ from parallelOpen_plaintexts hresult,
      List.filterMap_map]
    exact List.filterMap_congr hopened
  have hdenied : denied = 0 := by
    rw [show denied = _ from parallelOpen_denied hvalid hresult]
    apply deniedCount_eq_zero
    rw [List.forall_mem_map]
    intro s hs
    rw [(hss s hs).required]
    exact hclear s hs
  rw [hresult, hplain, hdenied]

/-- Over every run of the engine, and whatever happens between sealing and opening: blocks from
any of the four sealers, opened by any of the three openers under an accepted claim with enough
clearance, give back their plaintexts. -/
theorem sealed_blocks_open (hK : K.Lawful) (ops : List Op) (ss : List SealedBlock)
    (hss : ∀ s ∈ ss,
      s ∈ (Machine.history (exec K) (AirlockBifurcation.new K) ops).flatMap sealedBlocks)
    (claim : JisClaim) (hvalid : claim.Valid) (hclear : ∀ s ∈ ss, s.required ≤ claim.clearance) :
    let e := Machine.run (exec K) (AirlockBifurcation.new K) ops
    (∀ s ∈ ss, (e.openBlock K s.block claim).2 =
      .ok (.blockOpened s.plaintext claim.identity)) ∧
    (e.openBatch K (ss.map SealedBlock.block) claim).2 =
      .ok ⟨ss.map SealedBlock.plaintext, 0⟩ ∧
    parallelOpen K (ss.map SealedBlock.block) claim e.systemSecret =
      .ok ⟨ss.map SealedBlock.plaintext, 0⟩ := by
  intro e
  have he : Coherent K e := run_coherent hK new_coherent ops
  have hright : ∀ s ∈ ss, s.Right K e.systemSecret := by
    intro s hs
    rw [run_systemSecret]
    exact run_sealedBlocks hK new_coherent ops s (hss s hs)
  have hbatch := parallelOpen_sealed hK hright hvalid hclear
  refine ⟨?_, (openBatch_result he _ _).trans hbatch, hbatch⟩
  intro s hs
  rw [openBlock_result he]
  exact openResult_of_opened (openResult_sealed hK (hright s hs) hvalid (hclear s hs))

theorem sealed_blocks_open_demo :
    let e := Machine.run (exec Demo.crypto) (AirlockBifurcation.new Demo.crypto) Demo.ops
    (e.openBatch Demo.crypto (Demo.sealedHello.map SealedBlock.block) (Demo.claimAt .secret)).2 =
      .ok ⟨[Demo.hello, Demo.hello, Demo.hello, Demo.hello], 0⟩ := by
  have hplain : Demo.sealedHello.map SealedBlock.plaintext =
      [Demo.hello, Demo.hello, Demo.hello, Demo.hello] := by
    decide
  have hclear : ∀ s ∈ Demo.sealedHello, s.required ≤ (Demo.claimAt .secret).clearance := by
    decide
  have hopen := (sealed_blocks_open Demo.crypto_lawful Demo.ops Demo.sealedHello
    (fun _ hs => hs) (Demo.claimAt .secret) (Demo.claimAt_valid .secret) hclear).2.1
  rwa [hplain] at hopen

/-! ## Blocks that do not authenticate -/

/-- Opening the blocks with the claim never panics: `open` answers for each block, with no
plaintext for one that does not authenticate, and both batch openers return the plaintexts of the
blocks that `open` opens. -/
structure OpensSafely (K : Crypto) (e : AirlockBifurcation) (blocks : List EncryptedBlock)
    (claim : JisClaim) : Prop where
  single : ∀ b ∈ blocks, ∃ result, (e.openBlock K b claim).2 = .ok result ∧
    (¬ Authentic K e.systemSecret b → openedPlaintext (.ok result) = none)
  batch : ∃ result, (e.openBatch K blocks claim).2 = .ok result ∧
    result.plaintexts = blocks.filterMap (fun b => openedPlaintext (e.openBlock K b claim).2)
  parallel : ∃ result, parallelOpen K blocks claim e.systemSecret = .ok result ∧
    result.plaintexts = blocks.filterMap (fun b => openedPlaintext (e.openBlock K b claim).2)

/-- In every reachable state and for every list of blocks and every claim: the openers are safe if
and only if the claim is rejected or every block within its clearance authenticates. -/
theorem opens_safely_iff (hK : K.Lawful) (ops : List Op) (blocks : List EncryptedBlock)
    (claim : JisClaim) :
    OpensSafely K (Machine.run (exec K) (AirlockBifurcation.new K) ops) blocks claim ↔
      (claim.Valid → ∀ b ∈ blocks, b.requiredClearance ≤ claim.clearance →
        Authentic K systemSeed b) := by
  set e := Machine.run (exec K) (AirlockBifurcation.new K) ops with hrun
  have he : Coherent K e := run_coherent hK new_coherent ops
  have hsecret : e.systemSecret = systemSeed := run_systemSecret K _ ops
  constructor
  · intro hsafe hvalid b hb hclear
    obtain ⟨result, hresult, -⟩ := hsafe.single b hb
    rw [openBlock_result he, hsecret] at hresult
    exact openResult_returns_iff.mp ⟨result, hresult⟩ hvalid hclear
  · intro hauth
    have hreturns : ∀ b ∈ blocks, ∃ result, openResult K e.systemSecret b claim = .ok result := by
      intro b hb
      rw [openResult_returns_iff, hsecret]
      exact fun hvalid hclear => hauth hvalid b hb hclear
    obtain ⟨result, hresult⟩ := parallelOpen_returns_iff.mpr hreturns
    have hplain := parallelOpen_plaintexts hresult
    simp only [← openBlock_result he] at hplain
    refine ⟨?_, ⟨result, (openBatch_result he _ _).trans hresult, hplain⟩, result, hresult, hplain⟩
    intro b hb
    obtain ⟨r, hr⟩ := hreturns b hb
    refine ⟨r, (openBlock_result he _ _).trans hr, ?_⟩
    intro hforged
    by_contra hsome
    obtain ⟨p, hp⟩ := Option.ne_none_iff_exists'.mp hsome
    rw [← hr] at hp
    have hdecrypt := (openedPlaintext_openResult_iff.mp hp).2.2.1
    exact hforged (by rw [Authentic, hdecrypt]; rfl)

/-- A block whose ciphertext is a single byte, as it may be read from a damaged disk. -/
def Demo.damaged : EncryptedBlock where
  blockIndex := 0
  ephemeralPub := Demo.ephemeralPub
  nonce := Demo.nonce
  requiredClearance := .secret
  plaintextHash := Demo.digest
  ciphertext := [0]
  encryptedAtNs := 1
  encryptedBy := "root_idd.aint"

/-- A block that was sealed for a lower clearance. -/
def Demo.genuine : EncryptedBlock :=
  { Demo.damaged with requiredClearance := .restricted, ciphertext := Demo.ciphertext }

/-- Below its clearance the damaged block is refused before it is decrypted, also between blocks that
are opened. -/
theorem opens_safely_refused :
    OpensSafely Demo.crypto
      (Machine.run (exec Demo.crypto) (AirlockBifurcation.new Demo.crypto) Demo.ops)
      [Demo.genuine, Demo.damaged, Demo.genuine] (Demo.claimAt .restricted) := by
  apply (opens_safely_iff Demo.crypto_lawful Demo.ops _ _).mpr
  intro _ b hb hclear
  simp only [List.mem_cons, List.not_mem_nil, or_false] at hb
  rcases hb with rfl | rfl | rfl
  · rfl
  · exact absurd hclear (by decide)
  · rfl

theorem damaged_block_panics :
    ¬ OpensSafely Demo.crypto (AirlockBifurcation.new Demo.crypto) [Demo.damaged]
      (Demo.claimAt .secret) := by
  intro hsafe
  obtain ⟨result, hresult, -⟩ := hsafe.single Demo.damaged (by simp)
  have hpanic : ((AirlockBifurcation.new Demo.crypto).openBlock Demo.crypto Demo.damaged
      (Demo.claimAt .secret)).2 = .error ⟨"AES-256-GCM decrypt failed"⟩ := by
    rfl
  rw [hpanic] at hresult
  cases hresult

/-! ## Altered envelopes -/

/-- AES-GCM as an ideal authenticated cipher: a ciphertext opens under its own key only, and to
its own plaintext. -/
def Crypto.Ideal (K : Crypto) : Prop :=
  ∀ key nonce plaintext ciphertext key' plaintext',
    K.encrypt key nonce plaintext = some ciphertext →
    K.decrypt key' nonce ciphertext = some plaintext' → key' = key ∧ plaintext' = plaintext

/-- The envelope carries the ciphertext, nonce and ephemeral key of the block; its other fields are
arbitrary. -/
structure Reenveloped (block block' : EncryptedBlock) : Prop where
  ciphertext : block'.ciphertext = block.ciphertext
  nonce : block'.nonce = block.nonce
  ephemeralPub : block'.ephemeralPub = block.ephemeralPub

/-- What opens an altered envelope of a sealed block: the clearance it presents, an index of the
same key and the hash of the plaintext. -/
structure OpensEnvelope (K : Crypto) (systemSecret : Bytes32) (s : SealedBlock)
    (block' : EncryptedBlock) (claim : JisClaim) : Prop where
  valid : claim.Valid
  cleared : block'.requiredClearance ≤ claim.clearance
  key : K.openKey systemSecret s.block.ephemeralPub block'.blockIndex =
    K.openKey systemSecret s.block.ephemeralPub s.block.blockIndex
  hash : block'.plaintextHash = K.sha256 s.plaintext

theorem openedPlaintext_envelope (hK : K.Lawful) (hideal : K.Ideal) {s : SealedBlock}
    (hs : s.Right K systemSecret) {block' : EncryptedBlock} (hb : Reenveloped s.block block')
    (claim : JisClaim) (q : List UInt8) :
    openedPlaintext (openResult K systemSecret block' claim) = some q ↔
      q = s.plaintext ∧ OpensEnvelope K systemSecret s block' claim := by
  rw [openedPlaintext_openResult_iff, hb.ciphertext, hb.nonce, hb.ephemeralPub]
  have hencrypted := hs.sealedAs.encrypted
  constructor
  · rintro ⟨hvalid, hclear, hdecrypt, hhash⟩
    obtain ⟨hkey, rfl⟩ := hideal _ _ _ _ _ _ hencrypted hdecrypt
    exact ⟨rfl, hvalid, hclear, hkey, hhash.symm⟩
  · rintro ⟨rfl, hopens⟩
    refine ⟨hopens.valid, hopens.cleared, ?_, hopens.hash.symm⟩
    rw [hopens.key]
    exact hK.decrypt_encrypt _ _ _ _ hencrypted

/-- Over every run: of an altered envelope of a sealed block, `open` returns a plaintext exactly
if the claim is accepted, has the clearance that the envelope presents, and index and hash still
fit; the plaintext is the sealed one. The batch openers return for every block what `open`
returns. -/
theorem altered_envelope_opens_iff (hK : K.Lawful) (hideal : K.Ideal) (ops : List Op)
    (s : SealedBlock)
    (hs : s ∈ (Machine.history (exec K) (AirlockBifurcation.new K) ops).flatMap sealedBlocks)
    (block' : EncryptedBlock) (hb : Reenveloped s.block block') (claim : JisClaim) :
    let e := Machine.run (exec K) (AirlockBifurcation.new K) ops
    (∀ q, openedPlaintext (e.openBlock K block' claim).2 = some q ↔
      q = s.plaintext ∧ OpensEnvelope K e.systemSecret s block' claim) ∧
    (∀ blocks result, (e.openBatch K blocks claim).2 = .ok result → result.plaintexts =
      blocks.filterMap (fun b => openedPlaintext (e.openBlock K b claim).2)) ∧
    (∀ blocks result, parallelOpen K blocks claim e.systemSecret = .ok result →
      result.plaintexts =
        blocks.filterMap (fun b => openedPlaintext (e.openBlock K b claim).2)) := by
  intro e
  have he : Coherent K e := run_coherent hK new_coherent ops
  have hright : s.Right K e.systemSecret := by
    rw [run_systemSecret]
    exact run_sealedBlocks hK new_coherent ops s hs
  have hplain : ∀ blocks result, parallelOpen K blocks claim e.systemSecret = .ok result →
      result.plaintexts =
        blocks.filterMap (fun b => openedPlaintext (e.openBlock K b claim).2) := by
    intro blocks result hresult
    simp only [openBlock_result he]
    exact parallelOpen_plaintexts hresult
  refine ⟨?_, ?_, hplain⟩
  · intro q
    rw [openBlock_result he]
    exact openedPlaintext_envelope hK hideal hright hb claim q
  · intro blocks result hresult
    rw [openBatch_result he] at hresult
    exact hplain blocks result hresult

theorem Demo.crypto_ideal : Demo.crypto.Ideal := by
  intro key n data c key' data' hencrypt hdecrypt
  simp only [Demo.crypto] at hencrypt hdecrypt
  split at hencrypt
  · next hreal =>
    obtain rfl := Option.some.inj hencrypt
    rw [if_pos rfl] at hdecrypt
    split at hdecrypt
    · next hkey =>
      obtain rfl := Option.some.inj hdecrypt
      exact ⟨hkey.1.trans hreal.1.symm, hreal.2.2.symm⟩
    · cases hdecrypt
  · obtain rfl := Option.some.inj hencrypt
    obtain ⟨htake, hdrop⟩ := Demo.take_shown key n data
    rw [if_neg (Demo.shown_ne_ciphertext key n data)] at hdecrypt
    split at hdecrypt
    · next hkey =>
      obtain rfl := Option.some.inj hdecrypt
      rw [htake] at hkey
      refine ⟨?_, hdrop⟩
      exact (Vector.toList_inj.mp (List.append_cancel_right hkey)).symm
    · cases hdecrypt

/-- `hello`, sealed for `SECRET`. -/
def Demo.secretHello : SealedBlock where
  block := { Demo.damaged with ciphertext := Demo.ciphertext }
  plaintext := Demo.hello
  required := .secret

/-- The same ciphertext, presented as `UNCLASSIFIED`. -/
def Demo.stripped : EncryptedBlock :=
  { Demo.secretHello.block with requiredClearance := .unclassified }

theorem Demo.secretHello_mem : Demo.secretHello ∈ Demo.sealedHello := by
  decide

/-- Presented with its own clearance, the block stays closed to a claim below it. -/
theorem altered_envelope_refused :
    let e := Machine.run (exec Demo.crypto) (AirlockBifurcation.new Demo.crypto) Demo.ops
    openedPlaintext (e.openBlock Demo.crypto
      { Demo.secretHello.block with encryptedBy := "" } (Demo.claimAt .unclassified)).2 ≠
      some Demo.hello := by
  intro e hopened
  have hopens := ((altered_envelope_opens_iff Demo.crypto_lawful Demo.crypto_ideal Demo.ops
    Demo.secretHello Demo.secretHello_mem { Demo.secretHello.block with encryptedBy := "" }
    ⟨rfl, rfl, rfl⟩ (Demo.claimAt .unclassified)).1 Demo.hello).mp hopened
  exact absurd hopens.2.cleared (by decide)

/-- The clearance is not part of what is authenticated. -/
theorem clearance_stripped :
    let e := Machine.run (exec Demo.crypto) (AirlockBifurcation.new Demo.crypto) Demo.ops
    Demo.crypto.Lawful ∧ Demo.crypto.Ideal ∧ Demo.secretHello ∈ Demo.sealedHello ∧
      Reenveloped Demo.secretHello.block Demo.stripped ∧
      (Demo.claimAt .unclassified).clearance < Demo.secretHello.required ∧
      (e.openBlock Demo.crypto Demo.stripped (Demo.claimAt .unclassified)).2 =
        .ok (.blockOpened Demo.secretHello.plaintext "codex.aint") := by
  refine ⟨Demo.crypto_lawful, Demo.crypto_ideal, Demo.secretHello_mem, ⟨rfl, rfl, rfl⟩,
    by decide, ?_⟩
  have hcoherent : Coherent Demo.crypto
      (Machine.run (exec Demo.crypto) (AirlockBifurcation.new Demo.crypto) Demo.ops) :=
    run_coherent Demo.crypto_lawful new_coherent Demo.ops
  rw [openBlock_result hcoherent, run_systemSecret]
  decide

end Spaceshuttle.Bifurcation
