import Spaceshuttle.Bifurcation.Engine
import Spaceshuttle.Lib.Fallible
import Spaceshuttle.Lib.Machine

/-!
# Coherence

Four sealers and three openers derive the key of a block, from the ephemeral side, the session or
the system side, and share one cache. The invariant says that all of them mean the same key: the
one the system derives from its secret. Openers then answer as if there was no cache, and sealed
blocks are encrypted under the key they will be opened with.
-/

namespace Spaceshuttle.Bifurcation

variable {K : Crypto}

/-- The key the system derives for a cache entry. -/
def systemKey (K : Crypto) (systemSecret : Bytes32) (entry : Bytes32 × Nat) : Bytes32 :=
  K.openKey systemSecret entry.1 entry.2

/-- Cached keys and the session secret are what the system secret gives. -/
structure Coherent (K : Crypto) (e : AirlockBifurcation) : Prop where
  pub : e.systemPub = K.publicKey e.systemSecret
  cache : Memo.Sound (systemKey K e.systemSecret) e.keyCache.derivedKeys
  session : ∀ s ∈ e.session, s.sharedSecret = K.diffieHellman e.systemSecret s.ephemeralPub

/-- The block holds the plaintext, encrypted under the key it will be opened with. -/
structure SealedAs (K : Crypto) (systemSecret : Bytes32) (block : EncryptedBlock)
    (plaintext : List UInt8) : Prop where
  encrypted : K.encrypt (K.openKey systemSecret block.ephemeralPub block.blockIndex) block.nonce
    plaintext = some block.ciphertext
  hash : block.plaintextHash = K.sha256 plaintext

/-! ## Opening without a cache -/

section Meaning

variable (K)

/-- What `open` means: the answer of an engine that derives every key from its secret. -/
def openResult (systemSecret : Bytes32) (block : EncryptedBlock) (claim : JisClaim) :
    Except Panic BifurcationResult :=
  if claim.identity = "" then .ok (.claimInvalid "Empty identity in JIS claim")
  else if claim.ed25519Pub.utf8ByteSize ≠ ed25519PubSize * 2 then
    .ok (.claimInvalid (AirlockBifurcation.invalidKeyLength claim))
  else if claim.clearance < block.requiredClearance then
    .ok (.accessDenied block.requiredClearance claim.clearance claim.identity)
  else
    match K.decrypt (K.openKey systemSecret block.ephemeralPub block.blockIndex) block.nonce
        block.ciphertext with
    | none => .error ⟨"AES-256-GCM decrypt failed"⟩
    | some plaintext =>
        if K.sha256 plaintext ≠ block.plaintextHash then
          .ok (.integrityFailed block.plaintextHash (K.sha256 plaintext))
        else .ok (.blockOpened plaintext claim.identity)

end Meaning

/-- The key found for a block is the key of the system, cached or not. -/
theorem keyFor_key {e : AirlockBifurcation} (he : Coherent K e) (block : EncryptedBlock) :
    (e.keyFor K block).2 = K.openKey e.systemSecret block.ephemeralPub block.blockIndex := by
  unfold AirlockBifurcation.keyFor KeyCache.get
  cases hlookup : e.keyCache.derivedKeys.lookup (block.ephemeralPub, block.blockIndex) with
  | none => rfl
  | some key => exact he.cache _ _ hlookup

theorem openBlock_result {e : AirlockBifurcation} (he : Coherent K e) (block : EncryptedBlock)
    (claim : JisClaim) :
    (e.openBlock K block claim).2 = openResult K e.systemSecret block claim := by
  unfold AirlockBifurcation.openBlock openResult
  by_cases hid : claim.identity = ""
  · rw [if_pos hid, if_pos hid]
  · rw [if_neg hid, if_neg hid]
    by_cases hlen : claim.ed25519Pub.utf8ByteSize ≠ ed25519PubSize * 2
    · rw [if_pos hlen, if_pos hlen]
    · rw [if_neg hlen, if_neg hlen]
      by_cases hclear : claim.clearance < block.requiredClearance
      · rw [if_pos hclear, if_pos hclear]
      · rw [if_neg hclear, if_neg hclear]
        simp only [keyFor_key he, Crypto.aesGcmDecrypt]
        cases K.decrypt (K.openKey e.systemSecret block.ephemeralPub block.blockIndex) block.nonce
          block.ciphertext with
        | none => rfl
        | some plaintext =>
          simp only
          split <;> rfl

theorem getAll_derivedKeys (c : KeyCache) (blocks : List EncryptedBlock) :
    (c.getAll blocks).1.derivedKeys = c.derivedKeys ∧
      (c.getAll blocks).2 =
        blocks.map (fun block => c.derivedKeys.lookup (block.ephemeralPub, block.blockIndex)) := by
  induction blocks generalizing c with
  | nil => exact ⟨rfl, rfl⟩
  | cons block blocks ih =>
    have hget : (c.get block.ephemeralPub block.blockIndex).1.derivedKeys = c.derivedKeys ∧
        (c.get block.ephemeralPub block.blockIndex).2 =
          c.derivedKeys.lookup (block.ephemeralPub, block.blockIndex) := by
      unfold KeyCache.get
      cases hlookup : c.derivedKeys.lookup (block.ephemeralPub, block.blockIndex) with
      | none => exact ⟨rfl, rfl⟩
      | some key => exact ⟨rfl, rfl⟩
    obtain ⟨hkeys, hlookups⟩ := ih (c.get block.ephemeralPub block.blockIndex).1
    rw [hget.1] at hkeys hlookups
    refine ⟨hkeys, ?_⟩
    rw [List.map_cons, ← hlookups, ← hget.2]
    rfl

theorem openInBatch_cached {e : AirlockBifurcation} (he : Coherent K e) (claim : JisClaim)
    (block : EncryptedBlock) :
    openInBatch K e.systemSecret claim block
      (e.keyCache.derivedKeys.lookup (block.ephemeralPub, block.blockIndex)) =
    openInBatch K e.systemSecret claim block none := by
  have hkey : (e.keyCache.derivedKeys.lookup (block.ephemeralPub, block.blockIndex)).getD
      (K.openKey e.systemSecret block.ephemeralPub block.blockIndex) =
      K.openKey e.systemSecret block.ephemeralPub block.blockIndex :=
    Memo.lookup_getD he.cache (block.ephemeralPub, block.blockIndex)
  unfold openInBatch
  simp only [hkey, Option.getD_none]

/-- A batch read with prefetched keys answers as `parallel_open`, which has no cache. -/
theorem openBatch_result {e : AirlockBifurcation} (he : Coherent K e)
    (blocks : List EncryptedBlock) (claim : JisClaim) :
    (e.openBatch K blocks claim).2 = parallelOpen K blocks claim e.systemSecret := by
  unfold AirlockBifurcation.openBatch parallelOpen
  by_cases hvalid : ¬ claim.Valid
  · rw [if_pos hvalid, if_pos hvalid]
  · rw [if_neg hvalid, if_neg hvalid]
    have hmap : (blocks.zip (e.keyCache.getAll blocks).2).mapM
        (fun p => openInBatch K e.systemSecret claim p.1 p.2) =
        blocks.mapM (fun block => openInBatch K e.systemSecret claim block none) := by
      rw [(getAll_derivedKeys e.keyCache blocks).2, ← List.map_prod_left_eq_zip, List.mapM_map]
      refine congrArg (fun f => blocks.mapM f) (funext ?_)
      exact fun block => openInBatch_cached he claim block
    simp only
    rw [hmap]
    split <;> rfl

/-! ## The invariant -/

section Invariant

variable {e : AirlockBifurcation}

/-- The sealing side derives the key of the opening side. -/
theorem sealKey_eq_openKey (hK : K.Lawful) (secret systemSecret : Bytes32) (blockIndex : Nat) :
    K.hkdfDeriveBlockKey (K.diffieHellman secret (K.publicKey systemSecret)) blockIndex =
      K.openKey systemSecret (K.publicKey secret) blockIndex := by
  unfold Crypto.openKey
  rw [hK.dh_comm]

theorem currentSession_secret (hK : K.Lawful) (he : Coherent K e) (draw : SessionDraw) :
    (e.currentSession K draw).sharedSecret =
      K.diffieHellman e.systemSecret (e.currentSession K draw).ephemeralPub := by
  have hfresh : ∀ maxBlocks maxAge,
      (SessionKey.new K draw.ephemeralSecret e.systemPub maxBlocks maxAge draw.now).sharedSecret =
      K.diffieHellman e.systemSecret
        (SessionKey.new K draw.ephemeralSecret e.systemPub maxBlocks maxAge draw.now).ephemeralPub := by
    intro maxBlocks maxAge
    simp only [SessionKey.new]
    rw [he.pub, hK.dh_comm]
  unfold AirlockBifurcation.currentSession
  cases hsession : e.session with
  | none => exact hfresh _ _
  | some s =>
    simp only
    split
    · exact he.session s hsession
    · exact hfresh _ _

theorem put_sound {systemSecret : Bytes32} {c : KeyCache}
    (hc : Memo.Sound (systemKey K systemSecret) c.derivedKeys) (ephemeralPub : Bytes32)
    (blockIndex : Nat) :
    Memo.Sound (systemKey K systemSecret)
      (c.put ephemeralPub blockIndex (K.openKey systemSecret ephemeralPub blockIndex)).derivedKeys :=
  Memo.sound_put hc c.maxEntries (ephemeralPub, blockIndex)

theorem cacheKeys_sound {systemSecret sharedSecret ephemeralPub : Bytes32}
    (hshared : sharedSecret = K.diffieHellman systemSecret ephemeralPub)
    {blocks : List EncryptedBlock} (hblocks : ∀ b ∈ blocks, b.ephemeralPub = ephemeralPub)
    {c : KeyCache} (hc : Memo.Sound (systemKey K systemSecret) c.derivedKeys) :
    Memo.Sound (systemKey K systemSecret)
      (AirlockBifurcation.cacheKeys K sharedSecret c blocks).derivedKeys := by
  unfold AirlockBifurcation.cacheKeys
  induction blocks generalizing c with
  | nil => exact hc
  | cons b blocks ih =>
    apply ih (fun b' hb' => hblocks b' (by simp [hb']))
    rw [hshared, ← hblocks b (by simp)]
    exact put_sound hc b.ephemeralPub b.blockIndex

/-- What a block carries when it is sealed under a key. -/
theorem sealBlock_ok {aesKey ephemeralPub : Bytes32} {draw : Draw} {plaintext : List UInt8}
    {blockIndex : Nat} {required : ClearanceLevel} {encryptedBy : String} {block : EncryptedBlock}
    (h : sealBlock K aesKey ephemeralPub draw plaintext blockIndex required encryptedBy = .ok block) :
    block.ephemeralPub = ephemeralPub ∧ block.requiredClearance = required ∧
      ∀ systemSecret, aesKey = K.openKey systemSecret ephemeralPub blockIndex →
        SealedAs K systemSecret block plaintext := by
  unfold sealBlock Crypto.aesGcmEncrypt at h
  cases hencrypt : K.encrypt aesKey draw.nonce plaintext with
  | none =>
    rw [hencrypt] at h
    cases h
  | some ciphertext =>
    rw [hencrypt] at h
    obtain rfl := Except.ok.inj h
    refine ⟨rfl, rfl, ?_⟩
    rintro systemSecret rfl
    exact ⟨hencrypt, rfl⟩

theorem finishSeal_coherent (he : Coherent K e) (result : Except Panic EncryptedBlock) :
    Coherent K (e.finishSeal result).1 := by
  cases result with
  | error panic => exact he
  | ok block => exact ⟨he.pub, he.cache, he.session⟩

theorem sealOne_coherent (hK : K.Lawful) (he : Coherent K e) (draw : Draw) (plaintext : List UInt8)
    (blockIndex : Nat) (required : ClearanceLevel) (encryptedBy : String) :
    Coherent K (e.sealOne K draw plaintext blockIndex required encryptedBy).1 := by
  unfold AirlockBifurcation.sealOne
  refine finishSeal_coherent ?_ _
  refine ⟨he.pub, ?_, he.session⟩
  rw [he.pub, sealKey_eq_openKey hK]
  exact put_sound he.cache _ blockIndex

theorem sealSession_coherent (hK : K.Lawful) (he : Coherent K e) (sessionDraw : SessionDraw)
    (draw : Draw) (plaintext : List UInt8) (blockIndex : Nat) (required : ClearanceLevel)
    (encryptedBy : String) :
    Coherent K
      (e.sealSession K sessionDraw draw plaintext blockIndex required encryptedBy).1 := by
  have hsecret := currentSession_secret hK he sessionDraw
  unfold AirlockBifurcation.sealSession
  refine finishSeal_coherent ?_ _
  refine ⟨he.pub, ?_, ?_⟩
  · simp only [hsecret]
    exact put_sound he.cache _ blockIndex
  · intro s hs
    obtain rfl := Option.some.inj hs
    exact hsecret

/-- The blocks of a batch carry the key of the session. -/
theorem mapM_sealBlock {ephemeralPub : Bytes32} {key : Nat → Bytes32} {draws : Nat → Draw}
    {required : ClearanceLevel} {encryptedBy : String} {plaintexts : List (List UInt8 × Nat)}
    {blocks : List EncryptedBlock}
    (h : plaintexts.mapM (fun indexed => sealBlock K (key indexed.2) ephemeralPub
      (draws indexed.2) indexed.1 indexed.2 required encryptedBy) = .ok blocks) :
    ∀ b ∈ blocks, b.ephemeralPub = ephemeralPub := by
  intro b hb
  obtain ⟨indexed, -, hseal⟩ := Fallible.mem_of_mapM_ok h hb
  exact (sealBlock_ok hseal).1

theorem sealBatch_coherent (hK : K.Lawful) (he : Coherent K e) (sessionDraw : SessionDraw)
    (draws : Nat → Draw) (plaintexts : List (List UInt8)) (required : ClearanceLevel)
    (encryptedBy : String) :
    Coherent K (e.sealBatch K sessionDraw draws plaintexts required encryptedBy).1 := by
  have hsecret := currentSession_secret hK he sessionDraw
  unfold AirlockBifurcation.sealBatch
  simp only
  split
  · refine ⟨he.pub, he.cache, ?_⟩
    intro s hs
    obtain rfl := Option.some.inj hs
    exact hsecret
  · next blocks hblocks =>
    refine ⟨he.pub, cacheKeys_sound hsecret (mapM_sealBlock hblocks) he.cache, ?_⟩
    intro s hs
    obtain rfl := Option.some.inj hs
    exact hsecret

theorem keyFor_coherent (he : Coherent K e) (block : EncryptedBlock) :
    Coherent K (e.keyFor K block).1 := by
  unfold AirlockBifurcation.keyFor KeyCache.get
  cases e.keyCache.derivedKeys.lookup (block.ephemeralPub, block.blockIndex) with
  | none =>
    refine ⟨he.pub, ?_, he.session⟩
    exact put_sound he.cache block.ephemeralPub block.blockIndex
  | some key => exact ⟨he.pub, he.cache, he.session⟩

theorem openBlock_coherent (he : Coherent K e) (block : EncryptedBlock) (claim : JisClaim) :
    Coherent K (e.openBlock K block claim).1 := by
  have hkey := keyFor_coherent he block
  unfold AirlockBifurcation.openBlock
  split
  · exact ⟨he.pub, he.cache, he.session⟩
  · split
    · exact ⟨he.pub, he.cache, he.session⟩
    · split
      · exact ⟨he.pub, he.cache, he.session⟩
      · simp only
        split
        · exact hkey
        · split <;> exact ⟨hkey.pub, hkey.cache, hkey.session⟩

theorem openBatch_coherent (he : Coherent K e) (blocks : List EncryptedBlock) (claim : JisClaim) :
    Coherent K (e.openBatch K blocks claim).1 := by
  have hcache : Memo.Sound (systemKey K e.systemSecret)
      (e.keyCache.getAll blocks).1.derivedKeys := by
    rw [(getAll_derivedKeys e.keyCache blocks).1]
    exact he.cache
  unfold AirlockBifurcation.openBatch
  split
  · exact he
  · simp only
    split <;> exact ⟨he.pub, hcache, he.session⟩

theorem exec_coherent (hK : K.Lawful) (he : Coherent K e) (op : Op) :
    Coherent K (exec K e op).1 := by
  cases op with
  | sealOne draw plaintext blockIndex required encryptedBy =>
    exact sealOne_coherent hK he draw plaintext blockIndex required encryptedBy
  | sealSession sessionDraw draw plaintext blockIndex required encryptedBy =>
    exact sealSession_coherent hK he sessionDraw draw plaintext blockIndex required encryptedBy
  | sealBatch sessionDraw draws plaintexts required encryptedBy =>
    exact sealBatch_coherent hK he sessionDraw draws plaintexts required encryptedBy
  | parallelSeal draws plaintexts required encryptedBy => exact he
  | openBlock block claim => exact openBlock_coherent he block claim
  | openBatch blocks claim => exact openBatch_coherent he blocks claim
  | parallelOpen blocks claim => exact he
  | rotateSession => exact ⟨he.pub, he.cache, fun _ hs => (nomatch hs)⟩
  | flushCache => exact ⟨he.pub, Memo.sound_empty, he.session⟩

theorem new_coherent : Coherent K (AirlockBifurcation.new K) :=
  ⟨rfl, Memo.sound_empty, fun _ hs => (nomatch hs)⟩

theorem run_coherent (hK : K.Lawful) (he : Coherent K e) (ops : List Op) :
    Coherent K (Machine.run (exec K) e ops) :=
  Machine.run_keeps (p := Coherent K) (fun _ op he => exec_coherent hK he op) he ops

/-! ## The system secret -/

theorem finishSeal_systemSecret (result : Except Panic EncryptedBlock) :
    (e.finishSeal result).1.systemSecret = e.systemSecret := by
  cases result <;> rfl

theorem exec_systemSecret (K : Crypto) (e : AirlockBifurcation) (op : Op) :
    (exec K e op).1.systemSecret = e.systemSecret := by
  cases op with
  | sealOne draw plaintext blockIndex required encryptedBy => exact finishSeal_systemSecret _
  | sealSession sessionDraw draw plaintext blockIndex required encryptedBy =>
    exact finishSeal_systemSecret _
  | sealBatch sessionDraw draws plaintexts required encryptedBy =>
    simp only [exec, AirlockBifurcation.sealBatch]
    split <;> rfl
  | parallelSeal draws plaintexts required encryptedBy => rfl
  | openBlock block claim =>
    have hkey : (e.keyFor K block).1.systemSecret = e.systemSecret := by
      unfold AirlockBifurcation.keyFor
      split <;> rfl
    simp only [exec, AirlockBifurcation.openBlock]
    split
    · rfl
    · split
      · rfl
      · split
        · rfl
        · split
          · exact hkey
          · split <;> exact hkey
  | openBatch blocks claim =>
    simp only [exec, AirlockBifurcation.openBatch]
    split
    · rfl
    · split <;> rfl
  | parallelOpen blocks claim => rfl
  | rotateSession => rfl
  | flushCache => rfl

theorem run_systemSecret (K : Crypto) (e : AirlockBifurcation) (ops : List Op) :
    (Machine.run (exec K) e ops).systemSecret = e.systemSecret := by
  refine Machine.run_keeps (p := fun (e' : AirlockBifurcation) => e'.systemSecret = e.systemSecret)
    ?_ rfl ops
  intro e' op he'
  rw [exec_systemSecret, he']

end Invariant

/-! ## What was sealed -/

/-- A block that a sealer returned, with the plaintext and the clearance it was given. -/
structure SealedBlock where
  block : EncryptedBlock
  plaintext : List UInt8
  required : ClearanceLevel
  deriving DecidableEq, Repr

/-- The block a single seal returned. -/
def sealedOne (plaintext : List UInt8) (required : ClearanceLevel) :
    Except Panic BifurcationResult → List SealedBlock
  | .ok (.blockSealed block) => [⟨block, plaintext, required⟩]
  | _ => []

/-- The blocks a batch seal returned. -/
def sealedAll (plaintexts : List (List UInt8)) (required : ClearanceLevel) :
    Except Panic (List EncryptedBlock) → List SealedBlock
  | .ok blocks => List.zipWith (fun block plaintext => ⟨block, plaintext, required⟩) blocks plaintexts
  | .error _ => []

/-- The blocks an operation sealed. -/
def sealedBlocks : Op × Outcome → List SealedBlock
  | (.sealOne _ plaintext _ required _, .one result) => sealedOne plaintext required result
  | (.sealSession _ _ plaintext _ required _, .one result) => sealedOne plaintext required result
  | (.sealBatch _ _ plaintexts required _, .blocks result) => sealedAll plaintexts required result
  | (.parallelSeal _ plaintexts required _, .blocks result) => sealedAll plaintexts required result
  | _ => []

/-- The block holds its plaintext and asks for its clearance. -/
structure SealedBlock.Right (K : Crypto) (systemSecret : Bytes32) (s : SealedBlock) : Prop where
  sealedAs : SealedAs K systemSecret s.block s.plaintext
  required : s.block.requiredClearance = s.required

section Sealed

variable {e : AirlockBifurcation}

theorem finishSeal_ok {result : Except Panic EncryptedBlock} {block : EncryptedBlock}
    (h : (e.finishSeal result).2 = .ok (.blockSealed block)) : result = .ok block := by
  cases result with
  | error panic => cases h
  | ok b =>
    simp only [AirlockBifurcation.finishSeal, Except.ok.injEq, BifurcationResult.blockSealed.injEq]
      at h
    rw [h]

/-- The blocks of a batch hold the plaintexts of the batch, in order. -/
theorem zipWith_right {systemSecret : Bytes32} {required : ClearanceLevel}
    {seal1 : List UInt8 × Nat → Except Panic EncryptedBlock}
    (hseal : ∀ indexed block, seal1 indexed = .ok block →
      SealedAs K systemSecret block indexed.1 ∧ block.requiredClearance = required)
    {plaintexts : List (List UInt8)} {k : Nat} {blocks : List EncryptedBlock}
    (h : (plaintexts.zipIdx k).mapM seal1 = .ok blocks) :
    ∀ s ∈ List.zipWith (fun block plaintext => SealedBlock.mk block plaintext required) blocks
      plaintexts, s.Right K systemSecret := by
  rw [Fallible.mapM_ok_iff] at h
  induction plaintexts generalizing k blocks with
  | nil =>
    intro s hs
    simp at hs
  | cons plaintext plaintexts ih =>
    rw [List.zipIdx_cons, List.forall₂_cons_left_iff] at h
    obtain ⟨block, rest, hblock, hrest, rfl⟩ := h
    intro s hs
    rw [List.zipWith_cons_cons, List.mem_cons] at hs
    rcases hs with rfl | hs
    · obtain ⟨hsealed, hrequired⟩ := hseal _ _ hblock
      exact ⟨hsealed, hrequired⟩
    · exact ih hrest s hs

/-- A block sealed under the key of the system is right. -/
theorem sealBlock_right {systemSecret ephemeralPub : Bytes32} {draw : Draw}
    {plaintext : List UInt8} {blockIndex : Nat} {required : ClearanceLevel} {encryptedBy : String}
    {block : EncryptedBlock}
    (h : sealBlock K (K.openKey systemSecret ephemeralPub blockIndex) ephemeralPub draw plaintext
      blockIndex required encryptedBy = .ok block) :
    SealedAs K systemSecret block plaintext ∧ block.requiredClearance = required :=
  ⟨(sealBlock_ok h).2.2 systemSecret rfl, (sealBlock_ok h).2.1⟩

theorem sealOne_right (hK : K.Lawful) (he : Coherent K e) {draw : Draw} {plaintext : List UInt8}
    {blockIndex : Nat} {required : ClearanceLevel} {encryptedBy : String} {block : EncryptedBlock}
    (h : (e.sealOne K draw plaintext blockIndex required encryptedBy).2 = .ok (.blockSealed block)) :
    SealedAs K e.systemSecret block plaintext ∧ block.requiredClearance = required := by
  have hseal := finishSeal_ok h
  rw [he.pub, sealKey_eq_openKey hK] at hseal
  exact sealBlock_right hseal

theorem sealSession_right (hK : K.Lawful) (he : Coherent K e) {sessionDraw : SessionDraw}
    {draw : Draw} {plaintext : List UInt8} {blockIndex : Nat} {required : ClearanceLevel}
    {encryptedBy : String} {block : EncryptedBlock}
    (h : (e.sealSession K sessionDraw draw plaintext blockIndex required encryptedBy).2 =
      .ok (.blockSealed block)) :
    SealedAs K e.systemSecret block plaintext ∧ block.requiredClearance = required := by
  have hseal := finishSeal_ok h
  simp only [currentSession_secret hK he] at hseal
  exact sealBlock_right hseal

theorem sealBatch_ok {sessionDraw : SessionDraw} {draws : Nat → Draw}
    {plaintexts : List (List UInt8)} {required : ClearanceLevel} {encryptedBy : String}
    {blocks : List EncryptedBlock}
    (h : (e.sealBatch K sessionDraw draws plaintexts required encryptedBy).2 = .ok blocks) :
    let session := e.currentSession K sessionDraw
    plaintexts.zipIdx.mapM (fun indexed => sealBlock K
      (K.hkdfDeriveBlockKey session.sharedSecret indexed.2) session.ephemeralPub
      (draws indexed.2) indexed.1 indexed.2 required encryptedBy) = .ok blocks := by
  unfold AirlockBifurcation.sealBatch at h
  simp only at h
  split at h
  · cases h
  · next blocks' hblocks =>
    obtain rfl := Except.ok.inj h
    exact hblocks

theorem mem_sealedOne {plaintext : List UInt8} {required : ClearanceLevel}
    {result : Except Panic BifurcationResult} {s : SealedBlock}
    (h : s ∈ sealedOne plaintext required result) :
    ∃ block, result = .ok (.blockSealed block) ∧ s = ⟨block, plaintext, required⟩ := by
  unfold sealedOne at h
  split at h
  · next block => exact ⟨block, rfl, List.mem_singleton.mp h⟩
  · cases h

/-- Whatever an operation seals can be opened by the system. -/
theorem exec_sealedBlocks (hK : K.Lawful) (he : Coherent K e) (op : Op) :
    ∀ s ∈ sealedBlocks (op, (exec K e op).2), s.Right K e.systemSecret := by
  intro s hs
  cases op with
  | sealOne draw plaintext blockIndex required encryptedBy =>
    obtain ⟨block, hresult, rfl⟩ := mem_sealedOne hs
    obtain ⟨hsealed, hrequired⟩ := sealOne_right hK he hresult
    exact ⟨hsealed, hrequired⟩
  | sealSession sessionDraw draw plaintext blockIndex required encryptedBy =>
    obtain ⟨block, hresult, rfl⟩ := mem_sealedOne hs
    obtain ⟨hsealed, hrequired⟩ := sealSession_right hK he hresult
    exact ⟨hsealed, hrequired⟩
  | sealBatch sessionDraw draws plaintexts required encryptedBy =>
    change s ∈ sealedAll plaintexts required
      (e.sealBatch K sessionDraw draws plaintexts required encryptedBy).2 at hs
    cases hresult : (e.sealBatch K sessionDraw draws plaintexts required encryptedBy).2 with
    | error panic =>
      rw [hresult] at hs
      cases hs
    | ok blocks =>
      rw [hresult] at hs
      refine zipWith_right ?_ (sealBatch_ok hresult) s hs
      intro indexed block hblock
      rw [currentSession_secret hK he] at hblock
      exact sealBlock_right hblock
  | parallelSeal draws plaintexts required encryptedBy =>
    change s ∈ sealedAll plaintexts required
      (parallelSeal K draws plaintexts e.systemSecret required encryptedBy) at hs
    cases hresult : parallelSeal K draws plaintexts e.systemSecret required encryptedBy with
    | error panic =>
      rw [hresult] at hs
      cases hs
    | ok blocks =>
      rw [hresult] at hs
      refine zipWith_right ?_ hresult s hs
      intro indexed block hblock
      simp only [sealKey_eq_openKey hK] at hblock
      exact sealBlock_right hblock
  | openBlock block claim => cases hs
  | openBatch blocks claim => cases hs
  | parallelOpen blocks claim => cases hs
  | rotateSession => cases hs
  | flushCache => cases hs

theorem run_sealedBlocks (hK : K.Lawful) (he : Coherent K e) (ops : List Op) :
    ∀ s ∈ (Machine.history (exec K) e ops).flatMap sealedBlocks, s.Right K e.systemSecret := by
  induction ops generalizing e with
  | nil =>
    intro s hs
    cases hs
  | cons op ops ih =>
    intro s hs
    rw [Machine.history, List.flatMap_cons, List.mem_append] at hs
    rcases hs with hs | hs
    · exact exec_sealedBlocks hK he op s hs
    · have hright := ih (exec_coherent hK he op) s hs
      rwa [exec_systemSecret] at hright

end Sealed

end Spaceshuttle.Bifurcation
