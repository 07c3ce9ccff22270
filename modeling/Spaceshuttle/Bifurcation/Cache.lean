import Spaceshuttle.Bifurcation.Openers

/-!
# The key cache

Whatever an engine has done, its cache holds keys that the system secret gives, and no more of them
than it has room for. Emptying it changes no answer.
-/

namespace Spaceshuttle.Bifurcation

variable {K : Crypto}

/-- An engine whose cache has room for `maxEntries` keys. -/
def AirlockBifurcation.newWithCache (K : Crypto) (maxEntries : Nat) : AirlockBifurcation :=
  { AirlockBifurcation.new K with keyCache := .new maxEntries }

theorem newWithCache_default (K : Crypto) :
    AirlockBifurcation.newWithCache K 16384 = AirlockBifurcation.new K := rfl

/-! ## Size -/

/-- The cache has its room, and keeps to it. -/
structure KeyCache.Within (maxEntries : Nat) (c : KeyCache) : Prop where
  room : c.maxEntries = maxEntries
  size : c.derivedKeys.entries.length ≤ max maxEntries 1

section Size

variable {maxEntries : Nat} {c : KeyCache}

theorem within_new (maxEntries : Nat) : (KeyCache.new maxEntries).Within maxEntries :=
  ⟨rfl, Nat.zero_le _⟩

theorem within_put (hc : c.Within maxEntries) (ephemeralPub : Bytes32) (blockIndex : Nat)
    (aesKey : Bytes32) : (c.put ephemeralPub blockIndex aesKey).Within maxEntries := by
  refine ⟨hc.room, ?_⟩
  rw [← hc.room]
  exact Memo.length_put_le c.maxEntries c.derivedKeys (ephemeralPub, blockIndex) aesKey

theorem within_get (hc : c.Within maxEntries) (ephemeralPub : Bytes32) (blockIndex : Nat) :
    (c.get ephemeralPub blockIndex).1.Within maxEntries := by
  unfold KeyCache.get
  split <;> exact ⟨hc.room, hc.size⟩

theorem within_flush (hc : c.Within maxEntries) : c.flush.Within maxEntries :=
  ⟨hc.room, Nat.zero_le _⟩

theorem within_getAll (hc : c.Within maxEntries) (blocks : List EncryptedBlock) :
    (c.getAll blocks).1.Within maxEntries := by
  induction blocks generalizing c with
  | nil => exact hc
  | cons block blocks ih => exact ih (within_get hc block.ephemeralPub block.blockIndex)

theorem within_cacheKeys (hc : c.Within maxEntries) (sharedSecret : Bytes32)
    (blocks : List EncryptedBlock) :
    (AirlockBifurcation.cacheKeys K sharedSecret c blocks).Within maxEntries := by
  unfold AirlockBifurcation.cacheKeys
  induction blocks generalizing c with
  | nil => exact hc
  | cons block blocks ih => exact ih (within_put hc _ _ _)

variable {e : AirlockBifurcation}

theorem finishSeal_keyCache (result : Except Panic EncryptedBlock) :
    (e.finishSeal result).1.keyCache = e.keyCache := by
  cases result <;> rfl

theorem keyFor_within (he : e.keyCache.Within maxEntries) (block : EncryptedBlock) :
    (e.keyFor K block).1.keyCache.Within maxEntries := by
  have hget := within_get he block.ephemeralPub block.blockIndex
  unfold AirlockBifurcation.keyFor
  split
  · next cache key hcache =>
    rw [hcache] at hget
    exact hget
  · next cache hcache =>
    rw [hcache] at hget
    exact within_put hget _ _ _

/-- Every operation keeps to the room of the cache. -/
theorem exec_within (he : e.keyCache.Within maxEntries) (op : Op) :
    (exec K e op).1.keyCache.Within maxEntries := by
  cases op with
  | sealOne draw plaintext blockIndex required encryptedBy =>
    simp only [exec, AirlockBifurcation.sealOne, finishSeal_keyCache]
    exact within_put he _ _ _
  | sealSession sessionDraw draw plaintext blockIndex required encryptedBy =>
    simp only [exec, AirlockBifurcation.sealSession, finishSeal_keyCache]
    exact within_put he _ _ _
  | sealBatch sessionDraw draws plaintexts required encryptedBy =>
    simp only [exec, AirlockBifurcation.sealBatch]
    split
    · exact he
    · exact within_cacheKeys he _ _
  | parallelSeal draws plaintexts required encryptedBy => exact he
  | openBlock block claim =>
    simp only [exec, AirlockBifurcation.openBlock]
    split
    · exact he
    · split
      · exact he
      · split
        · exact he
        · have hkey := keyFor_within (K := K) he block
          split
          · exact hkey
          · split <;> exact hkey
  | openBatch blocks claim =>
    simp only [exec, AirlockBifurcation.openBatch]
    split
    · exact he
    · split <;> exact within_getAll he blocks
  | parallelOpen blocks claim => exact he
  | rotateSession => exact he
  | flushCache => exact within_flush he

end Size

/-! ## Coherence -/

theorem newWithCache_coherent (K : Crypto) (maxEntries : Nat) :
    Coherent K (.newWithCache K maxEntries) :=
  ⟨rfl, Memo.sound_empty, fun _ hs => (nomatch hs)⟩

theorem flushCache_coherent {e : AirlockBifurcation} (he : Coherent K e) : Coherent K e.flushCache :=
  ⟨he.pub, Memo.sound_empty, he.session⟩

/-- After any run the cached keys are those the system secret gives, a cache that is emptied gives
the same answers, and the cache is within its room. -/
theorem keyCache_coherent (hK : K.Lawful) (maxEntries : Nat) (ops : List Op) :
    let e := Machine.run (exec K) (.newWithCache K maxEntries) ops
    (∀ eph i key, e.keyCache.derivedKeys.lookup (eph, i) = some key →
      key = K.hkdfDeriveBlockKey (K.diffieHellman e.systemSecret eph) i) ∧
    (∀ block claim, (e.openBlock K block claim).2 = (e.flushCache.openBlock K block claim).2) ∧
    (∀ blocks claim, (e.openBatch K blocks claim).2 = (e.flushCache.openBatch K blocks claim).2) ∧
    e.keyCache.derivedKeys.entries.length ≤ max maxEntries 1 := by
  intro e
  have he : Coherent K e := run_coherent hK (newWithCache_coherent K maxEntries) ops
  have hwithin : e.keyCache.Within maxEntries :=
    Machine.run_keeps (p := fun (e : AirlockBifurcation) => e.keyCache.Within maxEntries)
      (fun _ op he => exec_within he op) (within_new maxEntries) ops
  refine ⟨?_, ?_, ?_, hwithin.size⟩
  · exact fun eph i key hlookup => he.cache (eph, i) key hlookup
  · intro block claim
    rw [openBlock_result he, openBlock_result (flushCache_coherent he)]
    rfl
  · intro blocks claim
    rw [openBatch_result he, openBatch_result (flushCache_coherent he)]
    rfl

/-- After the four seals block 0 is opened from the cache as it is without one. -/
theorem keyCache_coherent_demo :
    let e := Machine.run (exec Demo.crypto) (.newWithCache Demo.crypto 2) Demo.ops
    let block := { Demo.damaged with ciphertext := Demo.ciphertext }
    (e.keyCache.derivedKeys.lookup (Demo.ephemeralPub, 0)).isSome ∧
      (e.openBlock Demo.crypto block (Demo.claimAt .secret)).2 =
        (e.flushCache.openBlock Demo.crypto block (Demo.claimAt .secret)).2 := by
  refine ⟨by decide, ?_⟩
  exact (keyCache_coherent Demo.crypto_lawful 2 Demo.ops).2.1 _ _

end Spaceshuttle.Bifurcation
