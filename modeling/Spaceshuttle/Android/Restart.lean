import Spaceshuttle.Android.Session
import Spaceshuttle.Bifurcation.Openers
import Spaceshuttle.Lib.Machine
import Mathlib.Data.List.Induction

/-!
# Sealed data after a restart

A blob is opened by a session of the same key if the counter it was sealed with is at most 1000
ahead of the counter of that session; the two sessions need not know of each other. A blob from
further ahead is not found.
-/

namespace Spaceshuttle.Android

open Bifurcation (Bytes32 Nonce Panic)

variable {P : Primitives}

/-- A call of `seal`. -/
structure SealCall where
  draw : Draw
  plaintext : List UInt8
  deriving DecidableEq, Repr

/-- A session as a machine of `seal` calls. -/
def sealStep (P : Primitives) (s : AndroidBifurcation) (call : SealCall) :
    AndroidBifurcation × Except Panic (List UInt8) :=
  s.sealBytes P call.draw call.plaintext

/-- The session of a key after some seals. -/
def sessionAfter (P : Primitives) (key : Bytes32) (calls : List SealCall) : AndroidBifurcation :=
  Machine.run (sealStep P) (.new P key) calls

/-- The session belongs to the key. -/
structure OfKey (P : Primitives) (key : Bytes32) (s : AndroidBifurcation) : Prop where
  secret : s.secret = key
  publicKey : s.publicKey = P.publicKey key

/-! ## Sessions -/

theorem sealStep_state (s : AndroidBifurcation) (call : SealCall) :
    (sealStep P s call).1 = { s with blockCounter := s.blockCounter + 1 } := by
  unfold sealStep AndroidBifurcation.sealBytes
  dsimp only
  split <;> rfl

theorem sessionAfter_ofKey (P : Primitives) (key : Bytes32) (calls : List SealCall) :
    OfKey P key (sessionAfter P key calls) := by
  refine Machine.run_keeps (p := OfKey P key) ?_ ⟨rfl, rfl⟩ calls
  intro s call hs
  rw [sealStep_state]
  exact ⟨hs.secret, hs.publicKey⟩

theorem sessionAfter_blockCounter (P : Primitives) (key : Bytes32) (calls : List SealCall) :
    (sessionAfter P key calls).blockCounter = UInt64.ofNat calls.length := by
  unfold sessionAfter
  induction calls using List.reverseRecOn with
  | nil => rfl
  | append_singleton calls call ih =>
    rw [Machine.run_concat, sealStep_state, List.length_append, List.length_singleton,
      UInt64.ofNat_add]
    exact congrArg (· + 1) ih

/-! ## The wire format -/

theorem toArrayOf_toList {n : Nat} (v : Vector UInt8 n) : toArrayOf n v.toList = some v := by
  unfold toArrayOf
  rw [dif_pos (by simp)]
  exact congrArg some (Vector.toList_inj.mp rfl)

/-- A sealed blob is taken apart into what was packed. -/
theorem openBytes_wire (s : AndroidBifurcation) (ephemeralPub : Bytes32) (nonce : Nonce)
    {ciphertext : List UInt8} (h : 16 ≤ ciphertext.length) :
    s.openBytes P (ephemeralPub.toList ++ nonce.toList ++ ciphertext) =
      (List.range ((s.blockCounter + 1000).toNat + 1)).findSome? (fun blockIndex =>
        P.decrypt (P.hkdfDerive (P.diffieHellman s.secret ephemeralPub) (UInt64.ofNat blockIndex))
          nonce ciphertext) := by
  have hpub : (ephemeralPub.toList ++ nonce.toList ++ ciphertext).take 32 = ephemeralPub.toList := by
    rw [List.append_assoc]
    exact List.take_left' (by simp)
  have hrest : (ephemeralPub.toList ++ nonce.toList ++ ciphertext).drop 32 =
      nonce.toList ++ ciphertext := by
    rw [List.append_assoc]
    exact List.drop_left' (by simp)
  have hnonce : (nonce.toList ++ ciphertext).take 12 = nonce.toList := List.take_left' (by simp)
  have hcipher : (ephemeralPub.toList ++ nonce.toList ++ ciphertext).drop (32 + 12) = ciphertext :=
    List.drop_left' (by simp)
  have hlong : ¬ (ephemeralPub.toList ++ nonce.toList ++ ciphertext).length < 32 + 12 + 16 := by
    simp only [List.length_append, Vector.length_toList]
    omega
  unfold AndroidBifurcation.openBytes
  rw [if_neg hlong, hpub, hrest, hnonce, hcipher, toArrayOf_toList, toArrayOf_toList]
  simp only [Option.bind_eq_bind, Option.bind_some]

/-! ## Opening -/

/-- What a blob of a session is made of. -/
theorem sealStep_ok {key : Bytes32} {s : AndroidBifurcation} (hs : OfKey P key s)
    (hP : P.Lawful) {call : SealCall} {blob : List UInt8} (h : (sealStep P s call).2 = .ok blob) :
    ∃ ciphertext,
      P.encrypt (P.hkdfDerive (P.diffieHellman key (P.publicKey call.draw.ephemeralSecret))
        (s.blockCounter + 1)) (generateNonce (s.blockCounter + 1) call.draw.random) call.plaintext =
          some ciphertext ∧
      blob = (P.publicKey call.draw.ephemeralSecret).toList ++
        (generateNonce (s.blockCounter + 1) call.draw.random).toList ++ ciphertext := by
  unfold sealStep AndroidBifurcation.sealBytes at h
  simp only [hs.publicKey, hP.dh_comm call.draw.ephemeralSecret key] at h
  split at h
  · cases h
  · next ciphertext hencrypt => exact ⟨ciphertext, hencrypt, (Except.ok.inj h).symm⟩

/-- The search for the block of another session of the key finds the plaintext where an index
derives the sealing key. -/
theorem openBytes_sealed (hP : P.Lawful) {key : Bytes32} {s opener : AndroidBifurcation}
    (hs : OfKey P key s) (ho : OfKey P key opener) {call : SealCall} {blob : List UInt8}
    (h : (sealStep P s call).2 = .ok blob) :
    opener.openBytes P blob =
      (List.range ((opener.blockCounter + 1000).toNat + 1)).findSome? (fun i =>
        if P.hkdfDerive (P.diffieHellman key (P.publicKey call.draw.ephemeralSecret))
            (UInt64.ofNat i) =
          P.hkdfDerive (P.diffieHellman key (P.publicKey call.draw.ephemeralSecret))
            (s.blockCounter + 1)
        then some call.plaintext else none) := by
  obtain ⟨ciphertext, hencrypt, rfl⟩ := sealStep_ok hs hP h
  have htry : ∀ aesKey, P.decrypt aesKey (generateNonce (s.blockCounter + 1) call.draw.random)
      ciphertext =
      if aesKey = P.hkdfDerive (P.diffieHellman key (P.publicKey call.draw.ephemeralSecret))
        (s.blockCounter + 1) then some call.plaintext else none := by
    intro aesKey
    split
    · next hkey =>
      rw [hkey]
      exact hP.decrypt_encrypt _ _ _ _ hencrypt
    · next hkey => exact hP.decrypt_other _ _ _ _ _ hencrypt hkey
  rw [openBytes_wire opener _ _ (hP.encrypt_tag _ _ _ _ hencrypt), ho.secret]
  simp only [htry]

/-- A search for one value, in the places where a predicate holds. -/
theorem findSome_if {α : Type} {p : Nat → Prop} [DecidablePred p] {a : α} {n : Nat} :
    ((List.range n).findSome? (fun i => if p i then some a else none) = some a ↔ ∃ i < n, p i) ∧
      ((List.range n).findSome? (fun i => if p i then some a else none) = none ↔
        ∀ i < n, ¬ p i) := by
  constructor
  · constructor
    · intro hsome
      obtain ⟨i, hi, hfi⟩ := List.exists_of_findSome?_eq_some hsome
      refine ⟨i, List.mem_range.mp hi, ?_⟩
      split at hfi
      · assumption
      · cases hfi
    · rintro ⟨i, hi, hp⟩
      cases hfind : (List.range n).findSome? (fun i => if p i then some a else none) with
      | none =>
        rw [List.findSome?_eq_none_iff] at hfind
        have hnone := hfind i (List.mem_range.mpr hi)
        rw [if_pos hp] at hnone
        cases hnone
      | some b =>
        obtain ⟨j, -, hfj⟩ := List.exists_of_findSome?_eq_some hfind
        split at hfj
        · exact hfj.symm
        · cases hfj
  · rw [List.findSome?_eq_none_iff]
    constructor
    · intro hnone i hi hp
      have hfi := hnone i (List.mem_range.mpr hi)
      rw [if_pos hp] at hfi
      cases hfi
    · intro hall i hi
      exact if_neg (hall i (List.mem_range.mp hi))

/-- A blob sealed in any session of a key, opened in any session of the key: the plaintext if the
sealing counter is at most 1000 beyond the counter of the opener, and in any case the plaintext or
nothing, the plaintext exactly if an index of the search derives the sealing key. -/
theorem sealed_opens_in_window (hP : P.Lawful) (key : Bytes32) (pre : List SealCall)
    (call : SealCall) (blob : List UInt8)
    (hseal : (sealStep P (sessionAfter P key pre) call).2 = .ok blob) (others : List SealCall) :
    let sealedAt := (sessionAfter P key pre).blockCounter + 1
    let opener := sessionAfter P key others
    let shared := P.diffieHellman key (P.publicKey call.draw.ephemeralSecret)
    (sealedAt ≤ opener.blockCounter + 1000 → opener.openBytes P blob = some call.plaintext) ∧
    (opener.openBytes P blob = some call.plaintext ∨ opener.openBytes P blob = none) ∧
    (opener.openBytes P blob = some call.plaintext ↔
      ∃ i ≤ (opener.blockCounter + 1000).toNat,
        P.hkdfDerive shared (UInt64.ofNat i) = P.hkdfDerive shared sealedAt) := by
  intro sealedAt opener shared
  have hopen : opener.openBytes P blob = _ := openBytes_sealed hP (sessionAfter_ofKey P key pre)
    (sessionAfter_ofKey P key others) hseal
  have hiff : opener.openBytes P blob = some call.plaintext ↔
      ∃ i ≤ (opener.blockCounter + 1000).toNat,
        P.hkdfDerive shared (UInt64.ofNat i) = P.hkdfDerive shared sealedAt := by
    rw [hopen, findSome_if.1]
    simp only [Nat.lt_succ_iff]
    rfl
  refine ⟨?_, ?_, hiff⟩
  · intro hwindow
    refine hiff.mpr ⟨sealedAt.toNat, UInt64.le_iff_toNat_le.mp hwindow, ?_⟩
    rw [UInt64.ofNat_toNat]
  · by_cases hex : ∃ i ≤ (opener.blockCounter + 1000).toNat,
        P.hkdfDerive shared (UInt64.ofNat i) = P.hkdfDerive shared sealedAt
    · exact .inl (hiff.mpr hex)
    · right
      rw [hopen, findSome_if.2]
      exact fun i hi hkey => hex ⟨i, Nat.le_of_lt_succ hi, hkey⟩

/-! ## Salts -/

/-- Different indices have different salts. -/
theorem saltOf_injective : Function.Injective saltOf := by
  intro a b h
  have hback : ∀ n, ((Nat.toDigits 10 n).map (fun c => UInt8.ofNat c.toNat)).map
      (fun byte => Char.ofNat byte.toNat) = Nat.toDigits 10 n := by
    intro n
    rw [List.map_map]
    refine (List.map_congr_left ?_).trans (List.map_id _)
    intro c hc
    have hdigit := Char.isDigit_iff_toNat.mp
      (Nat.isDigit_of_mem_toDigits (by decide) (by decide) hc)
    have hbyte : (UInt8.ofNat c.toNat).toNat = c.toNat :=
      UInt8.toNat_ofNat_of_lt' (lt_of_le_of_lt hdigit.2 (by decide))
    simp only [Function.comp_apply, hbyte, Char.ofNat_toNat, id]
  have hdigits := congrArg (List.map (fun byte => Char.ofNat byte.toNat))
    (List.append_cancel_left h)
  rw [hback, hback] at hdigits
  have hnat := congrArg (fun digits => Nat.ofDigitChars 10 digits 0) hdigits
  simp only [Nat.ofDigitChars_ten_toDigits] at hnat
  exact UInt64.toNat_inj.mp hnat

/-! ## Examples -/

namespace Demo

open Bifurcation.Demo (ephemeralSecret sharedSecret zeros hello)

/-- The HKDF keys of the blocks 0, 1 and 1001. -/
def key0 : Bytes32 :=
  #v[141, 10, 30, 245, 162, 123, 72, 7, 155, 18, 85, 47, 79, 65, 158, 172, 196, 5, 231, 17, 17, 182,
    227, 19, 193, 156, 247, 34, 164, 47, 174, 44]

def key1 : Bytes32 :=
  #v[243, 132, 35, 219, 208, 144, 124, 86, 229, 235, 125, 179, 68, 5, 213, 248, 44, 2, 160, 169, 98,
    130, 194, 96, 71, 119, 253, 147, 188, 59, 67, 19]

def key1001 : Bytes32 :=
  #v[24, 42, 48, 64, 32, 139, 188, 192, 53, 240, 74, 138, 151, 56, 57, 228, 172, 58, 236, 226, 239,
    222, 226, 113, 236, 198, 35, 249, 5, 91, 181, 28]

/-- The end of the nonces. -/
def random : Vector UInt8 4 := #v[9, 10, 11, 12]

/-- AES-256-GCM of `hello` as block 1, with its tag. -/
def ciphertext : List UInt8 :=
  [79, 227, 161, 166, 127, 134, 6, 23, 20, 99, 86, 83, 90, 68, 190, 97, 149, 251, 147, 164, 70]

/-- The primitives on the values above. Elsewhere keys are zero, and a ciphertext shows its key and
nonce in front of the plaintext. -/
def primitives : Primitives where
  publicKey := Bifurcation.Demo.crypto.publicKey
  diffieHellman := Bifurcation.Demo.crypto.diffieHellman
  hkdf := fun salt secret info =>
    if secret = sharedSecret ∧ info = keyInfo then
      if salt = saltOf 0 then key0
      else if salt = saltOf 1 then key1
      else if salt = saltOf 1001 then key1001
      else zeros
    else zeros
  encrypt := fun key nonce data =>
    if key = key1 ∧ nonce = generateNonce 1 random ∧ data = hello then some ciphertext
    else some (key.toList ++ nonce.toList ++ data)
  decrypt := fun key nonce data =>
    if data = ciphertext then
      if key = key1 ∧ nonce = generateNonce 1 random then some hello else none
    else if data.take 44 = key.toList ++ nonce.toList then some (data.drop 44) else none

theorem shown_ne_ciphertext (key : Bytes32) (nonce : Nonce) (data : List UInt8) :
    key.toList ++ nonce.toList ++ data ≠ ciphertext := by
  intro h
  have hlen := congrArg List.length h
  simp [ciphertext] at hlen
  omega

theorem primitives_lawful : primitives.Lawful := by
  constructor
  · exact Bifurcation.Demo.crypto_lawful.dh_comm
  · intro key nonce data c h
    simp only [primitives] at h ⊢
    split at h
    · next hreal =>
      obtain rfl := Option.some.inj h
      simp [hreal]
    · obtain rfl := Option.some.inj h
      obtain ⟨htake, hdrop⟩ := Bifurcation.Demo.take_shown key nonce data
      rw [if_neg (shown_ne_ciphertext key nonce data), if_pos htake, hdrop]
  · intro key key' nonce data c h hne
    simp only [primitives] at h ⊢
    split at h
    · next hreal =>
      obtain rfl := Option.some.inj h
      rw [if_pos rfl, if_neg]
      exact fun hkey => hne (hkey.1.trans hreal.1.symm)
    · obtain rfl := Option.some.inj h
      rw [if_neg (shown_ne_ciphertext key nonce data), if_neg]
      rw [(Bifurcation.Demo.take_shown key nonce data).1]
      intro hshown
      have hkeys := List.append_inj_left hshown (by simp)
      exact hne (Vector.toList_inj.mp hkeys).symm
  · intro key nonce data c h
    simp only [primitives] at h
    split at h
    · obtain rfl := Option.some.inj h
      decide
    · obtain rfl := Option.some.inj h
      simp only [List.length_append, Vector.length_toList]
      omega

/-- A call that seals `hello`. -/
def call : SealCall := ⟨⟨ephemeralSecret, random⟩, hello⟩

/-- `hello` sealed as block 1. -/
def blob : List UInt8 :=
  Bifurcation.Demo.ephemeralPub.toList ++ (generateNonce 1 random).toList ++ ciphertext

/-- `hello` sealed as block 1001. -/
def farBlob : List UInt8 :=
  Bifurcation.Demo.ephemeralPub.toList ++ (generateNonce 1001 random).toList ++
    (key1001.toList ++ (generateNonce 1001 random).toList ++ hello)

/-- No other index derives the key of block 1001. -/
theorem hkdfDerive_1001 {i : UInt64}
    (h : primitives.hkdfDerive sharedSecret i = primitives.hkdfDerive sharedSecret 1001) :
    i = 1001 := by
  by_contra hne
  have hsalt : saltOf i ≠ saltOf 1001 := fun heq => hne (saltOf_injective heq)
  have hlast : primitives.hkdfDerive sharedSecret 1001 = key1001 := by decide
  rw [hlast] at h
  simp only [Primitives.hkdfDerive, primitives, and_self, if_true, if_neg hsalt] at h
  split at h
  · exact absurd h (by decide)
  · split at h <;> exact absurd h (by decide)

end Demo

/-- After a restart the first blob is opened. -/
theorem hello_opens_after_restart :
    (sealStep Demo.primitives (.new Demo.primitives Bifurcation.systemSeed) Demo.call).2 =
        .ok Demo.blob ∧
      (sessionAfter Demo.primitives Bifurcation.systemSeed []).openBytes Demo.primitives Demo.blob =
        some Bifurcation.Demo.hello := by
  have hseal : (sealStep Demo.primitives (.new Demo.primitives Bifurcation.systemSeed)
      Demo.call).2 = .ok Demo.blob := by
    decide
  exact ⟨hseal, (sealed_opens_in_window Demo.primitives_lawful Bifurcation.systemSeed [] Demo.call
    Demo.blob hseal []).1 (by decide)⟩

/-- The blob that a session sealed after 1000 others is lost for a session that starts anew. -/
theorem far_blob_lost :
    ¬ ∀ (P : Primitives), P.Lawful → ∀ (key : Bytes32) (pre : List SealCall) (call : SealCall)
      (blob : List UInt8), (sealStep P (sessionAfter P key pre) call).2 = .ok blob →
        ∀ others : List SealCall,
          (sessionAfter P key others).openBytes P blob = some call.plaintext := by
  intro h
  obtain ⟨pre, hpre⟩ : ∃ pre : List SealCall, pre.length = 1000 :=
    ⟨List.replicate 1000 Demo.call, List.length_replicate⟩
  have hof := sessionAfter_ofKey Demo.primitives Bifurcation.systemSeed pre
  have hcounter : (sessionAfter Demo.primitives Bifurcation.systemSeed pre).blockCounter = 1000 := by
    rw [sessionAfter_blockCounter, hpre]
    rfl
  have hseal : (sealStep Demo.primitives (sessionAfter Demo.primitives Bifurcation.systemSeed pre)
      Demo.call).2 = .ok Demo.farBlob := by
    have hencrypt : Demo.primitives.encrypt (Demo.primitives.hkdfDerive
        (Demo.primitives.diffieHellman Demo.call.draw.ephemeralSecret
          (Demo.primitives.publicKey Bifurcation.systemSeed)) (1000 + 1))
        (generateNonce (1000 + 1) Demo.call.draw.random) Demo.call.plaintext =
        some (Demo.key1001.toList ++ (generateNonce 1001 Demo.random).toList ++
          Bifurcation.Demo.hello) := by
      decide
    unfold sealStep AndroidBifurcation.sealBytes
    simp only [hcounter, hof.publicKey, hencrypt]
    decide
  have hopen := h Demo.primitives Demo.primitives_lawful Bifurcation.systemSeed pre Demo.call
    Demo.farBlob hseal []
  rw [openBytes_sealed Demo.primitives_lawful hof
    (sessionAfter_ofKey Demo.primitives Bifurcation.systemSeed []) hseal, findSome_if.1] at hopen
  obtain ⟨i, hi, hkey⟩ := hopen
  have hshared : Demo.primitives.diffieHellman Bifurcation.systemSeed
      (Demo.primitives.publicKey Demo.call.draw.ephemeralSecret) =
      Bifurcation.Demo.sharedSecret := by
    decide
  rw [hcounter, hshared] at hkey
  have hindex := congrArg UInt64.toNat (Demo.hkdfDerive_1001 hkey)
  rw [sessionAfter_blockCounter] at hi
  have hwindow : (UInt64.ofNat ([] : List SealCall).length + 1000).toNat + 1 = 1001 := by decide
  rw [hwindow] at hi
  rw [UInt64.toNat_ofNat_of_lt' (lt_trans hi (by decide))] at hindex
  have hlast : (1001 : UInt64).toNat = 1001 := by decide
  omega

end Spaceshuttle.Android
