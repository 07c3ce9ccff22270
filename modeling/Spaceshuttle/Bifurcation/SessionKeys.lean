import Spaceshuttle.Bifurcation.Session

/-!
# Keys of a session

The AES key of a block sealed under a session depends on the session and the index of the block.
`seal_session` takes the index of its caller and `seal_batch` counts from 0, so that two blocks of a
session may meet in one key.
-/

namespace Spaceshuttle.Bifurcation

section Keys

variable (K : Crypto)

/-- The AES keys an operation derives from the session, one for each of its indices. -/
def sessionKeys (e : AirlockBifurcation) (op : Op) : List Bytes32 :=
  match op.sessionDraw with
  | none => []
  | some d => op.sealIndices.map (K.hkdfDeriveBlockKey (e.currentSession K d).sharedSecret)

/-- The blocks an operation sealed under the session, each with its AES key. -/
def keyedBlocks (e : AirlockBifurcation) (op : Op) : List (EncryptedBlock × Bytes32) :=
  (sessionBlocks (op, (exec K e op).2)).zip (sessionKeys K e op)

/-- The blocks a run sealed under sessions, each with its AES key. -/
def keyedInRun : AirlockBifurcation → List Op → List (EncryptedBlock × Bytes32)
  | _, [] => []
  | e, op :: ops => keyedBlocks K e op ++ keyedInRun (exec K e op).1 ops

/-- Blocks under one session key have different AES keys. -/
def KeysDistinct (ops : List Op) : Prop :=
  (keyedInRun K (.new K) ops).Pairwise
    (fun x y => x.1.ephemeralPub = y.1.ephemeralPub → x.2 ≠ y.2)

/-- The session key and the indices with which an operation that returns seals. -/
def slots (e : AirlockBifurcation) (op : Op) : List (Bytes32 × Nat) :=
  match op.sessionDraw with
  | none => []
  | some d =>
      if (exec K e op).2.panicked then []
      else op.sealIndices.map (fun i => ((e.currentSession K d).ephemeralPub, i))

/-- The same for a run. -/
def slotsInRun : AirlockBifurcation → List Op → List (Bytes32 × Nat)
  | _, [] => []
  | e, op :: ops => slots K e op ++ slotsInRun (exec K e op).1 ops

/-- No index is used twice under one session key. -/
def IndicesDistinct (ops : List Op) : Prop := (slotsInRun K (.new K) ops).Nodup

/-- The indices are of type `usize`. -/
def Op.OfUsize (op : Op) : Prop := ∀ i ∈ op.sealIndices, i < 2 ^ 64

/-- HKDF gives different keys for different blocks under one secret. -/
def Crypto.HkdfInjective : Prop :=
  ∀ sharedSecret i j, i < 2 ^ 64 → j < 2 ^ 64 →
    K.hkdfDeriveBlockKey sharedSecret i = K.hkdfDeriveBlockKey sharedSecret j → i = j

variable {K} {e : AirlockBifurcation}

/-- The blocks of a batch are encrypted under the keys of their indices. -/
theorem mapM_sealBlock_encrypted {ephemeralPub : Bytes32} {key : Nat → Bytes32}
    {draws : Nat → Draw} {required : ClearanceLevel} {encryptedBy : String}
    {plaintexts : List (List UInt8)} {k : Nat} {blocks : List EncryptedBlock}
    (h : (plaintexts.zipIdx k).mapM (fun indexed => sealBlock K (key indexed.2) ephemeralPub
      (draws indexed.2) indexed.1 indexed.2 required encryptedBy) = .ok blocks) :
    ∀ x ∈ blocks.zip ((List.range' k plaintexts.length).map key),
      ∃ plaintext, K.encrypt x.2 x.1.nonce plaintext = some x.1.ciphertext := by
  rw [Fallible.mapM_ok_iff] at h
  induction plaintexts generalizing k blocks with
  | nil =>
    cases h
    exact fun x hx => (nomatch hx)
  | cons plaintext plaintexts ih =>
    rw [List.zipIdx_cons, List.forall₂_cons_left_iff] at h
    obtain ⟨block, rest, hblock, hrest, rfl⟩ := h
    intro x hx
    rw [List.length_cons, List.range'_succ, List.map_cons, List.zip_cons_cons] at hx
    rcases List.mem_cons.mp hx with rfl | hx
    · exact ⟨plaintext, (sealBlock_encrypted hblock).2.2⟩
    · exact ih hrest x hx

/-- The blocks of a sealing operation that returns. -/
theorem keyedBlocks_of_pairs {op : Op} {d : SessionDraw} (hop : op.sessionDraw = some d)
    (hpairs : (sessionBlocks (op, (exec K e op).2)).map (fun b => (b.ephemeralPub, b.blockIndex)) =
      op.sealIndices.map (fun i => ((e.currentSession K d).ephemeralPub, i))) :
    keyedBlocks K e op = (sessionBlocks (op, (exec K e op).2)).map (fun b =>
      (b, K.hkdfDeriveBlockKey (e.currentSession K d).sharedSecret b.blockIndex)) := by
  have hindices : op.sealIndices =
      (sessionBlocks (op, (exec K e op).2)).map EncryptedBlock.blockIndex := by
    have hsnd := congrArg (List.map Prod.snd) hpairs
    rw [List.map_map, List.map_map] at hsnd
    exact (List.map_id _).symm.trans hsnd.symm
  unfold keyedBlocks sessionKeys
  rw [hop]
  simp only
  rw [hindices, List.map_map, ← List.map_prod_left_eq_zip]
  rfl

theorem keyedBlocks_slots (op : Op) :
    (keyedBlocks K e op).map (fun x => (x.1.ephemeralPub, x.1.blockIndex)) = slots K e op := by
  unfold slots
  cases hop : op.sessionDraw with
  | none =>
    unfold keyedBlocks
    rw [(exec_no_session K e hop).1]
    rfl
  | some d =>
    rcases exec_session K e hop with ⟨hpanicked, hpairs, -⟩ | ⟨hpanicked, hblocks, -⟩
    · simp only [hpanicked, Bool.false_eq_true, if_false]
      rw [keyedBlocks_of_pairs hop hpairs, List.map_map, ← hpairs]
      rfl
    · simp only [hpanicked, if_true]
      unfold keyedBlocks
      rw [hblocks]
      rfl

/-- The key of a block is the one the system opens it with. -/
theorem keyedBlocks_key (hK : K.Lawful) (he : Coherent K e) (op : Op) :
    ∀ x ∈ keyedBlocks K e op, x.2 = K.openKey e.systemSecret x.1.ephemeralPub x.1.blockIndex := by
  intro x hx
  cases hop : op.sessionDraw with
  | none =>
    unfold keyedBlocks at hx
    rw [(exec_no_session K e hop).1] at hx
    cases hx
  | some d =>
    rcases exec_session K e hop with ⟨-, hpairs, -⟩ | ⟨-, hblocks, -⟩
    · rw [keyedBlocks_of_pairs hop hpairs] at hx
      obtain ⟨b, hb, rfl⟩ := List.mem_map.mp hx
      have hpair : (b.ephemeralPub, b.blockIndex) ∈
          op.sealIndices.map (fun i => ((e.currentSession K d).ephemeralPub, i)) := by
        rw [← hpairs]
        exact List.mem_map_of_mem hb
      obtain ⟨i, -, hi⟩ := List.mem_map.mp hpair
      have hpub : (e.currentSession K d).ephemeralPub = b.ephemeralPub := congrArg Prod.fst hi
      simp only [currentSession_secret hK he, hpub]
      rfl
    · unfold keyedBlocks at hx
      rw [hblocks] at hx
      cases hx

/-- And the one it is encrypted under. -/
theorem keyedBlocks_encrypted (K : Crypto) (e : AirlockBifurcation) (op : Op) :
    ∀ x ∈ keyedBlocks K e op,
      ∃ plaintext, K.encrypt x.2 x.1.nonce plaintext = some x.1.ciphertext := by
  intro x hx
  unfold keyedBlocks at hx
  cases op with
  | sealSession sessionDraw draw plaintext blockIndex required encryptedBy =>
    simp only [exec, AirlockBifurcation.sealSession] at hx
    cases hseal : sealBlock K ((e.currentSession K sessionDraw).deriveBlockKey K blockIndex).2
      ((e.currentSession K sessionDraw).deriveBlockKey K blockIndex).1.ephemeralPub draw plaintext
      blockIndex required encryptedBy with
    | error panic =>
      rw [hseal] at hx
      cases hx
    | ok block =>
      rw [hseal] at hx
      obtain rfl := List.mem_singleton.mp hx
      exact ⟨plaintext, (sealBlock_encrypted hseal).2.2⟩
  | sealBatch sessionDraw draws plaintexts required encryptedBy =>
    simp only [exec, AirlockBifurcation.sealBatch] at hx
    split at hx
    · cases hx
    · next blocks hblocks =>
      apply mapM_sealBlock_encrypted hblocks x
      rw [← List.range_eq_range']
      exact hx
  | _ => cases hx

theorem keyedInRun_slots (ops : List Op) :
    (keyedInRun K e ops).map (fun x => (x.1.ephemeralPub, x.1.blockIndex)) = slotsInRun K e ops := by
  induction ops generalizing e with
  | nil => rfl
  | cons op ops ih => rw [keyedInRun, slotsInRun, List.map_append, keyedBlocks_slots, ih]

theorem keyedInRun_key (hK : K.Lawful) (he : Coherent K e) (ops : List Op) :
    ∀ x ∈ keyedInRun K e ops,
      x.2 = K.openKey e.systemSecret x.1.ephemeralPub x.1.blockIndex := by
  induction ops generalizing e with
  | nil => exact fun x hx => (nomatch hx)
  | cons op ops ih =>
    intro x hx
    rcases List.mem_append.mp hx with hx | hx
    · exact keyedBlocks_key hK he op x hx
    · rw [← exec_systemSecret K e op]
      exact ih (exec_coherent hK he op) x hx

/-- Every key that the run pairs with a block is the key of its encryption. -/
theorem keyedInRun_encrypted (K : Crypto) (e : AirlockBifurcation) (ops : List Op) :
    ∀ x ∈ keyedInRun K e ops,
      ∃ plaintext, K.encrypt x.2 x.1.nonce plaintext = some x.1.ciphertext := by
  induction ops generalizing e with
  | nil => exact fun x hx => (nomatch hx)
  | cons op ops ih =>
    intro x hx
    rcases List.mem_append.mp hx with hx | hx
    · exact keyedBlocks_encrypted K e op x hx
    · exact ih (exec K e op).1 x hx

theorem slotsInRun_ofUsize {ops : List Op} (hops : ∀ op ∈ ops, op.OfUsize) :
    ∀ slot ∈ slotsInRun K e ops, slot.2 < 2 ^ 64 := by
  induction ops generalizing e with
  | nil => exact fun slot hslot => (nomatch hslot)
  | cons op ops ih =>
    intro slot hslot
    rcases List.mem_append.mp hslot with hslot | hslot
    · unfold slots at hslot
      split at hslot
      · cases hslot
      · split at hslot
        · cases hslot
        · obtain ⟨i, hi, rfl⟩ := List.mem_map.mp hslot
          exact hops op (by simp) i hi
    · exact ih (fun op' hop' => hops op' (by simp [hop'])) slot hslot

/-- Blocks under one session key have different AES keys exactly if no index is used twice under
it. -/
theorem keys_distinct_iff (hK : K.Lawful) (hinj : K.HkdfInjective) {ops : List Op}
    (hops : ∀ op ∈ ops, op.OfUsize) : KeysDistinct K ops ↔ IndicesDistinct K ops := by
  have hindex : ∀ x ∈ keyedInRun K (.new K) ops, x.1.blockIndex < 2 ^ 64 := by
    intro x hx
    apply slotsInRun_ofUsize (K := K) (e := .new K) hops (x.1.ephemeralPub, x.1.blockIndex)
    rw [← keyedInRun_slots]
    exact List.mem_map_of_mem hx
  unfold KeysDistinct IndicesDistinct List.Nodup
  rw [← keyedInRun_slots, List.pairwise_map]
  apply List.Pairwise.iff_of_mem
  intro x y hx hy
  rw [keyedInRun_key hK new_coherent ops x hx, keyedInRun_key hK new_coherent ops y hy]
  constructor
  · intro h heq
    obtain ⟨hpub, hi⟩ := Prod.mk.inj heq
    exact h hpub (by rw [hpub, hi])
  · intro h hpub hkey
    rw [hpub] at hkey
    exact h (Prod.ext hpub (hinj _ _ _ (hindex x hx) (hindex y hy) hkey))

end Keys

namespace Demo

/-- The HKDF key of block 1. -/
def aesKey1 : Bytes32 :=
  #v[247, 74, 165, 214, 245, 134, 142, 26, 98, 234, 183, 222, 68, 38, 40, 97, 5, 51, 45, 246, 183,
    13, 41, 92, 115, 75, 122, 4, 248, 94, 126, 11]

/-- AES-256-GCM of `hello` as block 1, with its tag. -/
def ciphertext1 : List UInt8 :=
  [214, 108, 236, 209, 229, 171, 216, 158, 231, 187, 44, 44, 78, 209, 120, 203, 201, 101, 157, 155,
    165]

/-- A key that shows the bytes it is for. -/
def shownKey (bytes : List UInt8) : Bytes32 := Vector.ofFn (fun k => bytes.getD k 0)

/-- The primitives with the values of block 1 as well. Elsewhere a key shows the index it is for. -/
def indexed : Crypto :=
  { crypto with
    hkdfExpand := fun secret info =>
      if secret = sharedSecret ∧ info = hkdfInfoPrefix ++ toLeBytes 0 then aesKey
      else if secret = sharedSecret ∧ info = hkdfInfoPrefix ++ toLeBytes 1 then aesKey1
      else shownKey (info.drop hkdfInfoPrefix.length)
    encrypt := fun key n data =>
      if key = aesKey1 ∧ n = nonce ∧ data = hello then some ciphertext1
      else crypto.encrypt key n data
    decrypt := fun key n data =>
      if data = ciphertext1 then if key = aesKey1 ∧ n = nonce then some hello else none
      else crypto.decrypt key n data }

theorem encrypt_ne_ciphertext1 (key : Bytes32) (n : Nonce) (data : List UInt8) :
    crypto.encrypt key n data ≠ some ciphertext1 := by
  intro h
  simp only [crypto] at h
  split at h
  · exact absurd h (by decide)
  · have hlen := congrArg List.length (Option.some.inj h)
    simp [ciphertext1] at hlen
    omega

theorem indexed_lawful : indexed.Lawful := by
  constructor
  · exact crypto_lawful.dh_comm
  · intro key n data c h
    simp only [indexed] at h ⊢
    split at h
    · next hreal =>
      obtain rfl := Option.some.inj h
      simp [hreal]
    · rw [if_neg]
      · exact crypto_lawful.decrypt_encrypt key n data c h
      · rintro rfl
        exact encrypt_ne_ciphertext1 key n data h

theorem shownKey_get (bytes : List UInt8) (k : Fin 32) :
    (shownKey bytes).get k = bytes.getD k 0 := by
  unfold shownKey
  change (Vector.ofFn _)[k.val] = _
  rw [Vector.getElem_ofFn]

/-- Numbers with the same first digits are the same below the next one. -/
theorem mod_pow_of_digits {i j n : Nat} (h : ∀ k < n, i / 256 ^ k % 256 = j / 256 ^ k % 256) :
    i % 256 ^ n = j % 256 ^ n := by
  induction n with
  | zero => rw [Nat.pow_zero, Nat.mod_one, Nat.mod_one]
  | succ n ih =>
    have hbelow : i % 256 ^ n = j % 256 ^ n := ih fun k hk => h k (Nat.lt_succ_of_lt hk)
    rw [Nat.mod_pow_succ, Nat.mod_pow_succ, hbelow, h n (Nat.lt_succ_self n)]

/-- The first eight bytes of a key tell the index it shows. -/
theorem shownKey_injective {i j : Nat} (hi : i < 2 ^ 64) (hj : j < 2 ^ 64)
    (h : shownKey (toLeBytes i) = shownKey (toLeBytes j)) : i = j := by
  have hbyte : ∀ k < 8, i / 256 ^ k % 256 = j / 256 ^ k % 256 := by
    intro k hk
    have hget := congrArg (fun key : Bytes32 => (key.get ⟨k, by omega⟩).toNat) h
    simp only [shownKey_get] at hget
    simpa [toLeBytes, hk] using hget
  have hmod : i % 2 ^ 64 = j % 2 ^ 64 := mod_pow_of_digits hbyte
  rwa [Nat.mod_eq_of_lt hi, Nat.mod_eq_of_lt hj] at hmod

theorem shownKey_ne (i : Nat) :
    shownKey (toLeBytes i) ≠ aesKey ∧ shownKey (toLeBytes i) ≠ aesKey1 := by
  have hlast : (shownKey (toLeBytes i)).get 31 = 0 := by
    rw [shownKey_get]
    rfl
  constructor
  · intro h
    rw [h] at hlast
    exact absurd hlast (by decide)
  · intro h
    rw [h] at hlast
    exact absurd hlast (by decide)

theorem indexed_hkdf (secret : Bytes32) {i : Nat} (hi : i < 2 ^ 64) :
    indexed.hkdfDeriveBlockKey secret i =
      if secret = sharedSecret ∧ i = 0 then aesKey
      else if secret = sharedSecret ∧ i = 1 then aesKey1
      else shownKey (toLeBytes i) := by
  have hinfo : ∀ j < 2 ^ 64,
      hkdfInfoPrefix ++ toLeBytes i = hkdfInfoPrefix ++ toLeBytes j ↔ i = j := by
    intro j hj
    constructor
    · exact fun h => shownKey_injective hi hj (congrArg shownKey (List.append_cancel_left h))
    · exact fun h => by rw [h]
  simp only [Crypto.hkdfDeriveBlockKey, indexed, hinfo 0 (by decide), hinfo 1 (by decide),
    List.drop_left]

theorem indexed_injective : indexed.HkdfInjective := by
  intro secret i j hi hj h
  rw [indexed_hkdf secret hi, indexed_hkdf secret hj] at h
  have hne : aesKey ≠ aesKey1 := by decide
  split at h
  · next hi0 =>
    split at h
    · next hj0 => omega
    · split at h
      · exact absurd h hne
      · exact absurd h.symm (shownKey_ne j).1
  · split at h
    · next hi1 =>
      split at h
      · exact absurd h.symm hne
      · split at h
        · next hj1 => omega
        · exact absurd h.symm (shownKey_ne j).2
    · split at h
      · exact absurd h (shownKey_ne i).1
      · split at h
        · exact absurd h (shownKey_ne i).2
        · exact shownKey_injective hi hj h

/-- Two single seals in one session. -/
def twoSeals : List Op :=
  [.sealSession sessionDraw draw hello 0 .secret "root_idd.aint",
    .sealSession sessionDraw draw hello 1 .secret "root_idd.aint"]

/-- Two batches of one block in one session. -/
def twoBatches : List Op :=
  [.sealBatch sessionDraw (fun _ => draw) [hello] .secret "root_idd.aint",
    .sealBatch sessionDraw (fun _ => draw) [hello] .secret "root_idd.aint"]

end Demo

theorem keys_distinct_demo : KeysDistinct Demo.indexed Demo.twoSeals := by
  refine (keys_distinct_iff Demo.indexed_lawful Demo.indexed_injective ?_).mpr ?_
  · intro op hop
    simp only [Demo.twoSeals, List.mem_cons, List.not_mem_nil, or_false] at hop
    rcases hop with rfl | rfl
    · exact fun i hi => by simp_all [Op.sealIndices]
    · exact fun i hi => by simp_all [Op.sealIndices]
  · unfold IndicesDistinct
    decide

/-- The second batch starts from index 0 again. -/
theorem batches_share_key :
    Demo.indexed.Lawful ∧ Demo.indexed.HkdfInjective ∧
      ¬ KeysDistinct Demo.indexed Demo.twoBatches := by
  refine ⟨Demo.indexed_lawful, Demo.indexed_injective, ?_⟩
  unfold KeysDistinct
  decide

end Spaceshuttle.Bifurcation
