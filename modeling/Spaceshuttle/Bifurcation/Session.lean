import Spaceshuttle.Bifurcation.Openers
import Mathlib.Data.List.Induction

/-!
# Sessions

`seal_session` and `seal_batch` seal under one session, and count in it what they seal. Both test the
session before they seal, the one for a block and the other for a whole batch: the limit of a
session holds for its blocks if every batch fits.
-/

namespace Spaceshuttle.Bifurcation

/-! ## What is sealed under a session -/

/-- The draw of an operation that seals under the session. -/
def Op.sessionDraw : Op → Option SessionDraw
  | .sealSession sessionDraw .. => some sessionDraw
  | .sealBatch sessionDraw .. => some sessionDraw
  | _ => none

/-- The indices an operation gives to the blocks it seals under the session. -/
def Op.sealIndices : Op → List Nat
  | .sealSession _ _ _ blockIndex _ _ => [blockIndex]
  | .sealBatch _ _ plaintexts _ _ => List.range plaintexts.length
  | _ => []

/-- The blocks an operation sealed under the session. -/
def sessionBlocks : Op × Outcome → List EncryptedBlock
  | (.sealSession .., .one (.ok (.blockSealed block))) => [block]
  | (.sealBatch .., .blocks (.ok blocks)) => blocks
  | _ => []

/-- The operation panicked. -/
def Outcome.panicked : Outcome → Bool
  | .one (.error _) => true
  | .blocks (.error _) => true
  | .plaintexts (.error _) => true
  | _ => false

section Step

variable {K : Crypto}

/-- What a block carries, and the key it is encrypted under. -/
theorem sealBlock_encrypted {aesKey ephemeralPub : Bytes32} {draw : Draw} {plaintext : List UInt8}
    {blockIndex : Nat} {required : ClearanceLevel} {encryptedBy : String} {block : EncryptedBlock}
    (h : sealBlock K aesKey ephemeralPub draw plaintext blockIndex required encryptedBy = .ok block) :
    block.ephemeralPub = ephemeralPub ∧ block.blockIndex = blockIndex ∧
      K.encrypt aesKey block.nonce plaintext = some block.ciphertext := by
  unfold sealBlock Crypto.aesGcmEncrypt at h
  cases hencrypt : K.encrypt aesKey draw.nonce plaintext with
  | none =>
    rw [hencrypt] at h
    cases h
  | some ciphertext =>
    rw [hencrypt] at h
    cases h
    exact ⟨rfl, rfl, hencrypt⟩

/-- The blocks of a batch are numbered from the first index on, and carry the session. -/
theorem mapM_sealBlock_indices {ephemeralPub : Bytes32} {key : Nat → Bytes32} {draws : Nat → Draw}
    {required : ClearanceLevel} {encryptedBy : String} {plaintexts : List (List UInt8)} {k : Nat}
    {blocks : List EncryptedBlock}
    (h : (plaintexts.zipIdx k).mapM (fun indexed => sealBlock K (key indexed.2) ephemeralPub
      (draws indexed.2) indexed.1 indexed.2 required encryptedBy) = .ok blocks) :
    blocks.map (fun b => (b.ephemeralPub, b.blockIndex)) =
      (List.range' k plaintexts.length).map (fun i => (ephemeralPub, i)) := by
  rw [Fallible.mapM_ok_iff] at h
  induction plaintexts generalizing k blocks with
  | nil =>
    cases h
    rfl
  | cons plaintext plaintexts ih =>
    rw [List.zipIdx_cons, List.forall₂_cons_left_iff] at h
    obtain ⟨block, rest, hblock, hrest, rfl⟩ := h
    obtain ⟨hpub, hindex, -⟩ := sealBlock_encrypted hblock
    rw [List.length_cons, List.range'_succ, List.map_cons, List.map_cons, ih hrest, hpub, hindex]

/-- A sealing operation uses the current session or a new one for all its blocks, and counts them.
When it panics there are no blocks, though the session may have counted one. -/
theorem exec_session (K : Crypto) (e : AirlockBifurcation) {op : Op} {d : SessionDraw}
    (hop : op.sessionDraw = some d) :
    let s := e.currentSession K d
    let out := exec K e op
    (out.2.panicked = false ∧
      (sessionBlocks (op, out.2)).map (fun b => (b.ephemeralPub, b.blockIndex)) =
        op.sealIndices.map (fun i => (s.ephemeralPub, i)) ∧
      out.1.session =
        some { s with blocksSealed := s.blocksSealed + UInt64.ofNat op.sealIndices.length }) ∨
    (out.2.panicked = true ∧ sessionBlocks (op, out.2) = [] ∧
      ∃ k ≤ op.sealIndices.length,
        out.1.session = some { s with blocksSealed := s.blocksSealed + UInt64.ofNat k }) := by
  cases op with
  | sealSession sessionDraw draw plaintext blockIndex required encryptedBy =>
    obtain rfl := Option.some.inj hop
    simp only [exec, AirlockBifurcation.sealSession]
    cases hseal : sealBlock K ((e.currentSession K sessionDraw).deriveBlockKey K blockIndex).2
      ((e.currentSession K sessionDraw).deriveBlockKey K blockIndex).1.ephemeralPub draw plaintext
      blockIndex required encryptedBy with
    | error panic => exact .inr ⟨rfl, rfl, 1, le_refl 1, rfl⟩
    | ok block =>
      obtain ⟨hpub, hindex, -⟩ := sealBlock_encrypted hseal
      refine .inl ⟨rfl, ?_, rfl⟩
      show [(block.ephemeralPub, block.blockIndex)] = _
      rw [hpub, hindex]
      rfl
  | sealBatch sessionDraw draws plaintexts required encryptedBy =>
    obtain rfl := Option.some.inj hop
    simp only [exec, AirlockBifurcation.sealBatch]
    split
    · refine .inr ⟨rfl, rfl, 0, Nat.zero_le _, ?_⟩
      have hzero : UInt64.ofNat 0 = 0 := rfl
      rw [hzero, UInt64.add_zero]
    · next blocks hblocks =>
      have hpairs := mapM_sealBlock_indices hblocks
      rw [← List.range_eq_range'] at hpairs
      refine .inl ⟨rfl, hpairs, ?_⟩
      have hlen := congrArg List.length hpairs
      rw [List.length_map, List.length_map] at hlen
      rw [hlen]
      rfl
  | _ => cases hop

theorem finishSeal_session {e : AirlockBifurcation} (result : Except Panic EncryptedBlock) :
    (e.finishSeal result).1.session = e.session := by
  cases result <;> rfl

theorem keyFor_session (K : Crypto) (e : AirlockBifurcation) (block : EncryptedBlock) :
    (e.keyFor K block).1.session = e.session := by
  unfold AirlockBifurcation.keyFor
  split <;> rfl

/-- No other operation seals under a session; a session is kept or dropped. -/
theorem exec_no_session (K : Crypto) (e : AirlockBifurcation) {op : Op}
    (hop : op.sessionDraw = none) :
    sessionBlocks (op, (exec K e op).2) = [] ∧
      ∀ s ∈ (exec K e op).1.session, s ∈ e.session := by
  cases op with
  | sealOne draw plaintext blockIndex required encryptedBy =>
    refine ⟨rfl, fun s hs => ?_⟩
    simp only [exec, AirlockBifurcation.sealOne, finishSeal_session] at hs
    exact hs
  | sealSession sessionDraw draw plaintext blockIndex required encryptedBy => cases hop
  | sealBatch sessionDraw draws plaintexts required encryptedBy => cases hop
  | openBlock block claim =>
    have hkey := keyFor_session K e block
    refine ⟨rfl, fun s hs => ?_⟩
    simp only [exec, AirlockBifurcation.openBlock] at hs
    split at hs
    · exact hs
    · split at hs
      · exact hs
      · split at hs
        · exact hs
        · split at hs
          · rwa [← hkey]
          · split at hs <;> rwa [← hkey]
  | openBatch blocks claim =>
    refine ⟨rfl, fun s hs => ?_⟩
    simp only [exec, AirlockBifurcation.openBatch] at hs
    split at hs
    · exact hs
    · split at hs <;> exact hs
  | rotateSession =>
    refine ⟨rfl, fun s hs => ?_⟩
    cases hs
  | parallelSeal draws plaintexts required encryptedBy => exact ⟨rfl, fun s hs => hs⟩
  | parallelOpen blocks claim => exact ⟨rfl, fun s hs => hs⟩
  | flushCache => exact ⟨rfl, fun s hs => hs⟩

end Step

/-! ## Quota -/

section Quota

variable (K : Crypto)

/-- A new engine after some operations. -/
def engineAfter (ops : List Op) : AirlockBifurcation :=
  Machine.run (exec K) (.new K) ops

/-- The blocks that a run sealed under sessions. -/
def sealedInRun (ops : List Op) : List EncryptedBlock :=
  (Machine.history (exec K) (.new K) ops).flatMap sessionBlocks

/-- The number of those that carry a session key. -/
def keyUses (ops : List Op) (ephemeralPub : Bytes32) : Nat :=
  ((sealedInRun K ops).map EncryptedBlock.ephemeralPub).count ephemeralPub

/-- No session key is used more often than a session allows. -/
def QuotaKept (ops : List Op) : Prop :=
  ∀ ephemeralPub, keyUses K ops ephemeralPub ≤ 100000

/-- `needs_new` of `seal_session` and `seal_batch` (`bifurcation.rs:808`, `1047`). -/
def AirlockBifurcation.needsNew (e : AirlockBifurcation) (now : Nat) : Prop :=
  ∀ s ∈ e.session, s.isValid now = false

/-- A new session has a key that no block carries yet. -/
def FreshSessions (ops : List Op) : Prop :=
  Machine.AtEach (fun pre op => ∀ d ∈ op.sessionDraw, (engineAfter K pre).needsNew d.now →
    keyUses K pre (K.publicKey d.ephemeralSecret) = 0) ops

/-- A batch fits into what is left of its session. -/
def Op.Fits (e : AirlockBifurcation) : Op → Prop
  | .sealBatch d _ plaintexts _ _ =>
      (e.currentSession K d).blocksSealed.toNat + plaintexts.length ≤ 100000
  | _ => True

/-- Every batch of a run fits. -/
def BatchesFit (ops : List Op) : Prop :=
  Machine.AtEach (fun pre op => op.Fits K (engineAfter K pre)) ops

/-- No operation of the run panics. -/
def NoPanics (ops : List Op) : Prop :=
  Machine.AtEach (fun pre op => (exec K (engineAfter K pre) op).2.panicked = false) ops

/-- The session counts what is sealed under it: at least the blocks that carry its key, and exactly
those if nothing panics. -/
structure Counted (ops : List Op) (s : SessionKey) : Prop where
  maxBlocks : s.maxBlocks = 100000
  uses_le : keyUses K ops s.ephemeralPub ≤ s.blocksSealed.toNat
  uses_eq : NoPanics K ops → keyUses K ops s.ephemeralPub = s.blocksSealed.toNat
  sealed_le : s.blocksSealed.toNat ≤ 100000

/-- The session is counted, and no key is used too often. -/
structure Metered (ops : List Op) : Prop where
  session : ∀ s ∈ (engineAfter K ops).session, Counted K ops s
  quota : QuotaKept K ops

variable {K} {ops : List Op} {op : Op}

theorem engineAfter_concat (ops : List Op) (op : Op) :
    engineAfter K (ops ++ [op]) = (exec K (engineAfter K ops) op).1 :=
  Machine.run_concat _ ops op

theorem keyUses_concat (ops : List Op) (op : Op) (ephemeralPub : Bytes32) :
    keyUses K (ops ++ [op]) ephemeralPub = keyUses K ops ephemeralPub +
      ((sessionBlocks (op, (exec K (engineAfter K ops) op).2)).map
        EncryptedBlock.ephemeralPub).count ephemeralPub := by
  unfold keyUses sealedInRun
  rw [Machine.history_concat, List.flatMap_append, List.map_append, List.count_append]
  simp only [List.flatMap_cons, List.flatMap_nil, List.append_nil]
  rfl

/-- The current session of a metered run is counted, and has room for one more block. -/
theorem currentSession_counted (hops : Metered K ops) {d : SessionDraw}
    (hfresh : (engineAfter K ops).needsNew d.now →
      keyUses K ops (K.publicKey d.ephemeralSecret) = 0) :
    Counted K ops ((engineAfter K ops).currentSession K d) ∧
      ((engineAfter K ops).currentSession K d).blocksSealed.toNat < 100000 := by
  have hnew : (engineAfter K ops).needsNew d.now →
      let s := SessionKey.new K d.ephemeralSecret (engineAfter K ops).systemPub 100000 300000000000
        d.now
      Counted K ops s ∧ s.blocksSealed.toNat < 100000 := by
    intro hneeds s
    have huses : keyUses K ops s.ephemeralPub = 0 := hfresh hneeds
    have hzero : s.blocksSealed.toNat = 0 := rfl
    exact ⟨⟨rfl, by omega, fun _ => by omega, by omega⟩, by omega⟩
  unfold AirlockBifurcation.currentSession
  cases hsession : (engineAfter K ops).session with
  | none =>
    apply hnew
    intro s hs
    rw [hsession] at hs
    cases hs
  | some s =>
    simp only
    split
    · next hvalid =>
      have hcounted := hops.session s hsession
      refine ⟨hcounted, ?_⟩
      have hlt := of_decide_eq_true (Bool.and_eq_true_iff.mp hvalid).1
      rw [hcounted.maxBlocks] at hlt
      exact UInt64.lt_iff_toNat_lt.mp hlt
    · next hinvalid =>
      apply hnew
      intro s' hs'
      rw [hsession] at hs'
      obtain rfl := Option.some.inj hs'
      exact Bool.eq_false_iff.mpr hinvalid

theorem NoPanics.before (h : NoPanics K (ops ++ [op])) : NoPanics K ops :=
  ((Machine.atEach_concat ops op).mp h).1

/-- Blocks that carry one session key are so many uses of that key, and of no other. -/
theorem count_of_pairs {blocks : List EncryptedBlock} {ephemeralPub : Bytes32} {indices : List Nat}
    (h : blocks.map (fun b => (b.ephemeralPub, b.blockIndex)) =
      indices.map (fun i => (ephemeralPub, i))) (p : Bytes32) :
    (blocks.map EncryptedBlock.ephemeralPub).count p =
      if ephemeralPub = p then indices.length else 0 := by
  have hkeys : blocks.map EncryptedBlock.ephemeralPub = List.replicate indices.length ephemeralPub := by
    have hfst := congrArg (List.map Prod.fst) h
    rw [List.map_map, List.map_map] at hfst
    rw [← List.map_const']
    exact hfst
  rw [hkeys, List.count_replicate]
  simp only [beq_iff_eq]

/-- The room that an operation of a metered run needs. -/
theorem sealIndices_fit {d : SessionDraw} (hd : op.sessionDraw = some d)
    {e : AirlockBifurcation} (hroom : (e.currentSession K d).blocksSealed.toNat < 100000)
    (hfits : op.Fits K e) :
    (e.currentSession K d).blocksSealed.toNat + op.sealIndices.length ≤ 100000 := by
  cases op with
  | sealSession sessionDraw draw plaintext blockIndex required encryptedBy => exact hroom
  | sealBatch sessionDraw draws plaintexts required encryptedBy =>
    obtain rfl := Option.some.inj hd
    rw [Op.sealIndices, List.length_range]
    exact hfits
  | _ => cases hd

theorem toNat_add_ofNat {b : UInt64} {n : Nat} (h : b.toNat + n ≤ 100000) :
    (b + UInt64.ofNat n).toNat = b.toNat + n := by
  have hn : (UInt64.ofNat n).toNat = n := UInt64.toNat_ofNat_of_lt' (by
    have hsize : 100000 < UInt64.size := by decide
    omega)
  rw [UInt64.toNat_add, hn]
  exact Nat.mod_eq_of_lt (by omega)

theorem keyUses_concat_nil (h : sessionBlocks (op, (exec K (engineAfter K ops) op).2) = [])
    (ephemeralPub : Bytes32) : keyUses K (ops ++ [op]) ephemeralPub = keyUses K ops ephemeralPub := by
  rw [keyUses_concat, h]
  rfl

/-- An operation that seals nothing keeps a run metered. -/
theorem metered_concat_none (hops : Metered K ops) (hd : op.sessionDraw = none) :
    Metered K (ops ++ [op]) := by
  obtain ⟨hblocks, hsession⟩ := exec_no_session K (engineAfter K ops) hd
  have huses := keyUses_concat_nil hblocks
  constructor
  · intro s hs
    rw [engineAfter_concat] at hs
    obtain ⟨hmax, hle, heq, hsealed⟩ := hops.session s (hsession s hs)
    refine ⟨hmax, ?_, ?_, hsealed⟩
    · rwa [huses]
    · intro hpanics
      rw [huses]
      exact heq hpanics.before
  · intro p
    rw [huses]
    exact hops.quota p

section Seal

variable {s : SessionKey}

/-- An operation whose blocks fit into the session that seals them keeps a run metered. -/
theorem metered_concat_sealed (hops : Metered K ops) (hs : Counted K ops s)
    (hfit : s.blocksSealed.toNat + op.sealIndices.length ≤ 100000)
    (hpairs : (sessionBlocks (op, (exec K (engineAfter K ops) op).2)).map
      (fun b => (b.ephemeralPub, b.blockIndex)) = op.sealIndices.map (fun i => (s.ephemeralPub, i)))
    (hsession : (exec K (engineAfter K ops) op).1.session =
      some { s with blocksSealed := s.blocksSealed + UInt64.ofNat op.sealIndices.length }) :
    Metered K (ops ++ [op]) := by
  obtain ⟨hmax, hle, heq, -⟩ := hs
  have hcount := count_of_pairs hpairs
  have hnat := toNat_add_ofNat hfit
  constructor
  · intro s' hs'
    rw [engineAfter_concat, hsession] at hs'
    obtain rfl := Option.some.inj hs'
    have huses := keyUses_concat (K := K) ops op s.ephemeralPub
    rw [hcount, if_pos rfl] at huses
    refine ⟨hmax, ?_, ?_, ?_⟩
    · simp only [huses, hnat]
      omega
    · intro hpanics
      have hbefore := heq hpanics.before
      simp only [huses, hnat]
      omega
    · simp only [hnat]
      exact hfit
  · intro p
    have hquota := hops.quota p
    rw [keyUses_concat, hcount]
    split
    · next hp =>
      subst hp
      omega
    · exact hquota

/-- So does one that panics, though its session may have counted some of the blocks. -/
theorem metered_concat_panicked (hops : Metered K ops) (hs : Counted K ops s) {k : Nat}
    (hfit : s.blocksSealed.toNat + k ≤ 100000)
    (hpanicked : (exec K (engineAfter K ops) op).2.panicked = true)
    (hblocks : sessionBlocks (op, (exec K (engineAfter K ops) op).2) = [])
    (hsession : (exec K (engineAfter K ops) op).1.session =
      some { s with blocksSealed := s.blocksSealed + UInt64.ofNat k }) : Metered K (ops ++ [op]) := by
  obtain ⟨hmax, hle, -, -⟩ := hs
  have huses := keyUses_concat_nil hblocks
  have hnat := toNat_add_ofNat hfit
  constructor
  · intro s' hs'
    rw [engineAfter_concat, hsession] at hs'
    obtain rfl := Option.some.inj hs'
    refine ⟨hmax, ?_, ?_, ?_⟩
    · simp only [huses, hnat]
      omega
    · intro hpanics
      have hlast := ((Machine.atEach_concat ops op).mp hpanics).2
      rw [hpanicked] at hlast
      cases hlast
    · simp only [hnat]
      exact hfit
  · intro p
    rw [huses]
    exact hops.quota p

end Seal

/-- An operation that fits keeps a run metered. -/
theorem metered_concat (hops : Metered K ops)
    (hfresh : ∀ d ∈ op.sessionDraw, (engineAfter K ops).needsNew d.now →
      keyUses K ops (K.publicKey d.ephemeralSecret) = 0)
    (hfits : op.Fits K (engineAfter K ops)) : Metered K (ops ++ [op]) := by
  cases hd : op.sessionDraw with
  | none => exact metered_concat_none hops hd
  | some d =>
    obtain ⟨hcounted, hroom⟩ := currentSession_counted hops (hfresh d hd)
    have hfit := sealIndices_fit hd hroom hfits
    rcases exec_session K (engineAfter K ops) hd with
      ⟨-, hpairs, hsession⟩ | ⟨hpanicked, hblocks, k, hk, hsession⟩
    · exact metered_concat_sealed hops hcounted hfit hpairs hsession
    · have hfewer := le_trans (Nat.add_le_add_left hk _) hfit
      exact metered_concat_panicked hops hcounted hfewer hpanicked hblocks hsession

theorem metered_nil (K : Crypto) : Metered K [] := by
  constructor
  · intro s hs
    cases hs
  · exact fun p => Nat.zero_le _

/-- With fresh sessions, a run whose batches fit is metered. -/
theorem metered_run (hfresh : FreshSessions K ops) (hfits : BatchesFit K ops) : Metered K ops := by
  have hboth : Machine.AtEach (fun pre op =>
      (∀ d ∈ op.sessionDraw, (engineAfter K pre).needsNew d.now →
        keyUses K pre (K.publicKey d.ephemeralSecret) = 0) ∧ op.Fits K (engineAfter K pre)) ops :=
    fun pre op post h => ⟨hfresh pre op post h, hfits pre op post h⟩
  exact Machine.run_of_atEach (metered_nil K)
    (fun pre op hop hpre => metered_concat hpre hop.1 hop.2) hboth

/-- Without panics a batch that does not fit breaks the quota. -/
theorem fits_of_quota (hops : Metered K ops)
    (hfresh : ∀ d ∈ op.sessionDraw, (engineAfter K ops).needsNew d.now →
      keyUses K ops (K.publicKey d.ephemeralSecret) = 0)
    (hpanics : NoPanics K (ops ++ [op])) (hquota : QuotaKept K (ops ++ [op])) :
    op.Fits K (engineAfter K ops) := by
  cases op with
  | sealBatch sessionDraw draws plaintexts required encryptedBy =>
    obtain ⟨hcounted, -⟩ := currentSession_counted hops (hfresh sessionDraw rfl)
    have hlast := ((Machine.atEach_concat ops _).mp hpanics).2
    have hdraws : (Op.sealBatch sessionDraw draws plaintexts required encryptedBy).sessionDraw =
        some sessionDraw := rfl
    rcases exec_session K (engineAfter K ops) hdraws with ⟨-, hpairs, -⟩ | ⟨hpanicked, -⟩
    · have huses := hquota ((engineAfter K ops).currentSession K sessionDraw).ephemeralPub
      rw [keyUses_concat, count_of_pairs hpairs, if_pos rfl, hcounted.uses_eq hpanics.before,
        Op.sealIndices, List.length_range] at huses
      exact huses
    · rw [hlast] at hpanicked
      cases hpanicked
  | _ => trivial

/-- When new sessions draw keys that no block carries yet: if every batch fits into what is left of
its session, no session key is used more often than a session allows, and if nothing panics then
only if. -/
theorem session_quota (K : Crypto) (ops : List Op) (hfresh : FreshSessions K ops) :
    (BatchesFit K ops → QuotaKept K ops) ∧
      (NoPanics K ops → (QuotaKept K ops ↔ BatchesFit K ops)) := by
  have hkept : BatchesFit K ops → QuotaKept K ops := fun hfits => (metered_run hfresh hfits).quota
  refine ⟨hkept, fun hpanics => ⟨?_, hkept⟩⟩
  clear hkept
  induction ops using List.reverseRecOn with
  | nil => exact fun _ => Machine.atEach_nil
  | append_singleton ops op ih =>
    intro hquota
    have hbefore := (Machine.atEach_concat ops op).mp hfresh
    have hquota' : QuotaKept K ops := by
      intro p
      have hp := hquota p
      rw [keyUses_concat] at hp
      omega
    have hfits := ih hbefore.1 hpanics.before hquota'
    refine (Machine.atEach_concat ops op).mpr ⟨hfits, ?_⟩
    exact fits_of_quota (metered_run hbefore.1 hfits) hbefore.2 hpanics hquota

/-- A single seal and a batch in one session. -/
theorem session_quota_demo :
    QuotaKept Demo.crypto
      [.sealSession Demo.sessionDraw Demo.draw Demo.hello 0 .secret "root_idd.aint",
        .sealBatch Demo.sessionDraw (fun _ => Demo.draw) [Demo.hello] .secret "root_idd.aint"] := by
  refine (session_quota Demo.crypto _ ?_).1 ?_
  · refine (Machine.atEach_concat [_] _).mpr ⟨(Machine.atEach_concat [] _).mpr
      ⟨Machine.atEach_nil, fun d _ _ => rfl⟩, ?_⟩
    rintro d hd hneeds
    obtain rfl := Option.some.inj hd
    have hvalid : ((engineAfter Demo.crypto [.sealSession Demo.sessionDraw Demo.draw Demo.hello 0
        .secret "root_idd.aint"]).session.any (fun s => s.isValid 0)) = true := by
      decide
    cases hsession : (engineAfter Demo.crypto [.sealSession Demo.sessionDraw Demo.draw Demo.hello 0
        .secret "root_idd.aint"]).session with
    | none =>
      rw [hsession] at hvalid
      cases hvalid
    | some s =>
      rw [hsession, Option.any_some] at hvalid
      exact absurd (hneeds s hsession) (Bool.not_eq_false _ ▸ hvalid)
  · refine (Machine.atEach_concat [_] _).mpr ⟨(Machine.atEach_concat [] _).mpr
      ⟨Machine.atEach_nil, trivial⟩, ?_⟩
    unfold Op.Fits
    decide

theorem sealBatch_total (hK : ∀ key nonce plaintext, K.encrypt key nonce plaintext ≠ none)
    (e : AirlockBifurcation) (d : SessionDraw) (draws : Nat → Draw) (plaintexts : List (List UInt8))
    (required : ClearanceLevel) (encryptedBy : String) :
    (exec K e (.sealBatch d draws plaintexts required encryptedBy)).2.panicked = false := by
  have hseal : ∀ key pub draw plaintext i,
      ∃ block, sealBlock K key pub draw plaintext i required encryptedBy = .ok block := by
    intro key pub draw plaintext i
    obtain ⟨ciphertext, hencrypt⟩ := Option.ne_none_iff_exists'.mp (hK key draw.nonce plaintext)
    unfold sealBlock Crypto.aesGcmEncrypt
    rw [hencrypt]
    exact ⟨_, rfl⟩
  simp only [exec, AirlockBifurcation.sealBatch]
  split
  · next panic herror =>
    obtain ⟨blocks, hblocks⟩ :=
      (Fallible.exists_mapM_ok_iff plaintexts.zipIdx).mpr (fun indexed _ => hseal
        (K.hkdfDeriveBlockKey (e.currentSession K d).sharedSecret indexed.2)
        (e.currentSession K d).ephemeralPub (draws indexed.2) indexed.1 indexed.2)
    rw [hblocks] at herror
    cases herror
  · rfl

/-- A batch of 100001 blocks is sealed under one session. -/
theorem batch_exceeds_quota :
    ¬ QuotaKept Demo.crypto
      [.sealBatch Demo.sessionDraw (fun _ => Demo.draw) (List.replicate 100001 Demo.hello) .secret
        "root_idd.aint"] := by
  obtain ⟨plaintexts, hplaintexts, hlength⟩ : ∃ plaintexts : List (List UInt8),
      plaintexts = List.replicate 100001 Demo.hello ∧ plaintexts.length = 100001 :=
    ⟨_, rfl, List.length_replicate⟩
  rw [← hplaintexts]
  intro hquota
  have hfits : (Op.sealBatch Demo.sessionDraw (fun _ => Demo.draw) plaintexts .secret
      "root_idd.aint").Fits Demo.crypto (engineAfter Demo.crypto []) := by
    refine fits_of_quota (metered_nil Demo.crypto) (fun d _ _ => rfl) ?_ hquota
    refine (Machine.atEach_concat [] _).mpr ⟨Machine.atEach_nil, ?_⟩
    refine sealBatch_total ?_ _ _ _ _ _ _
    intro key nonce plaintext
    simp only [Demo.crypto]
    split <;> exact Option.some_ne_none _
  rw [Op.Fits, hlength] at hfits
  omega

end Quota

end Spaceshuttle.Bifurcation
