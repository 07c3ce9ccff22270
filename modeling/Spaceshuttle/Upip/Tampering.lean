import Spaceshuttle.Lib.Digits
import Spaceshuttle.Lib.Mixing
import Spaceshuttle.Lib.Utf8
import Spaceshuttle.Upip.Continuation

/-!
# Continuations that were tampered with

The seal of a token is over a text of its two hashes, its intent and its bus number
(`upip_pager.rs:401-402`, `480-485`). A token with one byte of that text altered on its way to another
kernel is never restored there. The offset and the size are not in the text, and may be altered.
-/

namespace Spaceshuttle.Upip

open Mixing Raid

/-! ## What a seal tells -/

/-- The text that a seal is over. -/
def ForkToken.sealText (t : ForkToken) : List UInt8 :=
  s!"{t.contentHash}:{t.compressedHash}:{t.intent}:{t.busSeq}".toUTF8.toList

/-- The word that `simulate_sha256` prints. -/
def fnv1a (data : List UInt8) : UInt64 := data.foldl (xorMul 0x100000001b3) 0xcbf29ce484222325

theorem fnv1a_ne {data altered : List UInt8} (h : OneAltered data altered) :
    fnv1a data ≠ fnv1a altered := by
  have hinverse : (0x100000001b3 : UInt64) * 0xce965057aff6957b = 1 := by decide
  exact (faithful_xorMul hinverse).foldl_ne h _

theorem length_hex16 (w : UInt64) : (hex16 w).toList.length = 16 := by
  have hdigits : (Nat.toDigits 16 w.toNat).length ≤ 16 :=
    (Nat.length_toDigits_le_iff (by decide) (by decide)).mpr w.toNat_lt
  rw [hex16, String.toList_ofList, List.length_append, List.length_replicate]
  omega

theorem hex16_inj {v w : UInt64} : hex16 v = hex16 w ↔ v = w := by
  refine ⟨fun h => ?_, congrArg hex16⟩
  have hvalue := congrArg (fun text => Digits.ofDigits 16 text.toList) h
  simp only [hex16, String.toList_ofList, Digits.ofDigits_zeros] at hvalue
  rw [Digits.ofDigits_toDigits (by decide) le_rfl, Digits.ofDigits_toDigits (by decide) le_rfl]
    at hvalue
  exact UInt64.toNat_inj.mp hvalue

theorem simulateSha256_eq (data : List UInt8) :
    simulateSha256 data = "sha256:" ++ hex16 (fnv1a data) ++ hex16 (rotateLeft (fnv1a data) 16) ++
      hex16 (rotateLeft (fnv1a data) 32) ++ hex16 (rotateLeft (fnv1a data) 48) := rfl

/-- The digits of the word come first in a seal. -/
theorem take_simulateSha256 (data : List UInt8) :
    (((simulateSha256 data).toList.drop 7).take 32).take 16 = (hex16 (fnv1a data)).toList := by
  have hprefix : "sha256:".toList.length = 7 := by decide
  rw [simulateSha256_eq]
  simp only [String.toList_append, List.append_assoc]
  rw [← hprefix, List.drop_left, List.take_take, Nat.min_eq_left (by decide),
    ← length_hex16 (fnv1a data), List.take_left]

/-- Two seals are equal if and only if the words are. -/
theorem simulateEd25519Sign_inj {x y : List UInt8} :
    simulateEd25519Sign x = simulateEd25519Sign y ↔ fnv1a x = fnv1a y := by
  constructor
  · intro h
    have hlist := congrArg String.toList h
    simp only [simulateEd25519Sign, String.toList_append, String.toList_ofList] at hlist
    have htake := congrArg (List.take 16) (List.append_cancel_left hlist)
    rw [take_simulateSha256, take_simulateSha256] at htake
    exact hex16_inj.mp (String.toList_inj.mp htake)
  · intro h
    simp only [simulateEd25519Sign, simulateSha256_eq, h]

/-- A token that carries the seal of another is sealed if and only if the words of their texts are
equal. -/
theorem ForkToken.sealed_iff {t u : ForkToken} (hu : u.Sealed) (hseal : t.ed25519Seal = u.ed25519Seal) :
    t.Sealed ↔ fnv1a t.sealText = fnv1a u.sealText := by
  unfold ForkToken.Sealed at hu ⊢
  rw [hseal, hu, eq_comm]
  exact simulateEd25519Sign_inj

/-! ## What is not sealed is not restored -/

/-- The seal and what it is over stay as they are, and without its seal a token is not paged in. -/
structure Unrestored (t t' : ForkToken) : Prop where
  sameSeal : t'.ed25519Seal = t.ed25519Seal
  sameExpected : t'.expectedSeal = t.expectedSeal
  sameCount : ¬ t.Sealed → t'.accessCount = t.accessCount

section Steps

variable {t t₁ t₂ : ForkToken} {p p' : UpipPager}

theorem Unrestored.refl (t : ForkToken) : Unrestored t t := ⟨rfl, rfl, fun _ => rfl⟩

theorem Unrestored.sealed_iff (h : Unrestored t t₁) : t₁.Sealed ↔ t.Sealed := by
  unfold ForkToken.Sealed
  rw [h.sameSeal, h.sameExpected]

theorem Unrestored.trans (h : Unrestored t t₁) (h' : Unrestored t₁ t₂) : Unrestored t t₂ where
  sameSeal := h'.sameSeal.trans h.sameSeal
  sameExpected := h'.sameExpected.trans h.sameExpected
  sameCount := fun hun =>
    (h'.sameCount fun hsealed => hun (h.sealed_iff.mp hsealed)).trans (h.sameCount hun)

/-- Every token is still in its place, and those without their seal were not paged in. -/
def Withholds (p p' : UpipPager) : Prop := Registry.Extends Unrestored p.tokens p'.tokens

theorem Withholds.refl (p : UpipPager) : Withholds p p := Registry.Extends.refl .refl _

theorem Withholds.trans {p₁ : UpipPager} (h : Withholds p p₁) (h' : Withholds p₁ p') :
    Withholds p p' :=
  Registry.Extends.trans (fun _ _ _ => .trans) h h'

theorem withholds_update (p : UpipPager) (id : String) {f : ForkToken → ForkToken}
    (hf : ∀ t, Unrestored t (f t)) :
    Registry.Extends Unrestored p.tokens (Registry.update ForkToken.id id f p.tokens) :=
  .of_forall₂ (Registry.forall₂_update .refl fun t _ _ => hf t)

theorem withholds_pageIn (p : UpipPager) (id : String) : Withholds p (p.pageIn id).1 := by
  unfold UpipPager.pageIn
  split
  · exact .refl p
  · next t hlookup =>
    split
    · exact .refl p
    · split
      · have hinvalid : ∀ t : ForkToken,
            Unrestored t { t with state := .invalid "Ed25519 signature mismatch" } :=
          fun _ => ⟨rfl, rfl, fun _ => rfl⟩
        exact withholds_update p id hinvalid
      · next hseal =>
        exact .of_forall₂ (Registry.forall₂_update_lookup .refl hlookup
          ⟨rfl, rfl, fun hun => absurd (not_not.mp hseal) hun⟩)

theorem withholds_consume (p : UpipPager) (id : String) : Withholds p (p.consume id).1 := by
  unfold UpipPager.consume
  split
  · exact .refl p
  · have hconsumed : ∀ t : ForkToken, Unrestored t { t with state := .consumed } :=
      fun _ => ⟨rfl, rfl, fun _ => rfl⟩
    exact withholds_update p id hconsumed

theorem withholds_assembleLoop (p : UpipPager) (ids : List String) (totalBytes : Nat) :
    Withholds p (p.assembleLoop ids totalBytes).1 := by
  induction ids generalizing p totalBytes with
  | nil => exact .refl p
  | cons id ids ih =>
    have hin := withholds_pageIn p id
    rw [UpipPager.assembleLoop]
    rcases heq : p.pageIn id with ⟨p₁, result⟩
    rw [heq] at hin
    cases result with
    | success _ bytesRestored _ => exact hin.trans ((withholds_consume p₁ id).trans (ih _ _))
    | integrityViolation _ _ _ => exact hin
    | tokenNotFound _ => exact hin.trans (ih _ _)
    | alreadyConsumed _ => exact hin.trans (ih _ _)

theorem withholds_assemble (p : UpipPager) (intent : String) (busSeq : UInt64) :
    Withholds p (p.assemble intent busSeq).1 := by
  have hloop := withholds_assembleLoop p
    ((p.tokens.filter (ForkToken.isLive intent busSeq)).map ForkToken.id) 0
  unfold UpipPager.assemble
  dsimp only
  split
  · exact .refl p
  · split
    · next heq =>
      rw [heq] at hloop
      exact hloop
    · next heq =>
      rw [heq] at hloop
      exact hloop

theorem withholds_pageOut (p : UpipPager) (chunkData : List UInt8) (memoryOffset : UInt64)
    (intent fromAint : String) (busSeq : UInt64) :
    Withholds p (p.pageOut chunkData memoryOffset intent fromAint busSeq).1 := by
  unfold UpipPager.pageOut
  split
  · exact .refl p
  · split
    · exact .refl p
    · exact Registry.Extends.append .refl _ _

/-- No operation restores a token without its seal, unless somebody puts another seal on it. -/
theorem withholds_step (p : UpipPager) {op : PagerOp}
    (hop : ∀ position ed25519Seal, op ≠ .tamper position ed25519Seal) :
    Withholds p (pagerStep p op).1 := by
  cases op with
  | pageOut chunkData memoryOffset intent fromAint busSeq => exact withholds_pageOut p _ _ _ _ _
  | pageOutBulk data baseOffset intent fromAint busSeq =>
    rw [pagerStep]
    split
    · exact .refl p
    · next heq =>
      obtain ⟨p₁, startSeq, total, hloop, rfl⟩ := pageOutBulk_cases heq
      have hkeeps := pageOutLoop_keeps (P := Withholds p)
        (fun p₁ chunk offset hp => hp.trans (withholds_pageOut p₁ chunk offset _ _ _)) (.refl p) hloop
      refine hkeeps.trans (.of_forall₂ (List.forall₂_map_right_iff.mpr
        (List.forall₂_same.mpr fun t _ => ?_)))
      unfold setTotal
      split
      · exact ⟨rfl, rfl, fun _ => rfl⟩
      · exact .refl t
  | pageIn id => exact withholds_pageIn p id
  | consume id => exact withholds_consume p id
  | assemble intent busSeq => exact withholds_assemble p intent busSeq
  | prepareContinuation id targetKernel endpoint =>
    rw [pagerStep, UpipPager.prepareContinuation]
    dsimp only
    split
    · exact .refl p
    · have hremote : ∀ t : ForkToken,
          Unrestored t { t with storage := .remoteKernel targetKernel endpoint } :=
        fun _ => ⟨rfl, rfl, fun _ => rfl⟩
      exact withholds_update p id hremote
  | tamper position ed25519Seal => exact absurd rfl (hop position ed25519Seal)

end Steps

theorem withholds_run (p : UpipPager) {ops : List PagerOp}
    (hops : ∀ op ∈ ops, ∀ position ed25519Seal, op ≠ .tamper position ed25519Seal) :
    Withholds p (Machine.run pagerStep p ops) := by
  refine Machine.run_invariant (fun p₁ op hop hp => ?_) (.refl p) hops
  exact hp.trans (withholds_step p₁ hop)

/-! ## Continuations -/

/-- A token that was received is the one that is found, if no other has its id. -/
theorem lookup_received {tokens : List ForkToken} {t : ForkToken}
    (hnew : ∀ r ∈ tokens, r.id ≠ t.id) :
    Registry.lookup ForkToken.id t.id (tokens ++ [t]) = some t := by
  have hnone : Registry.lookup ForkToken.id t.id tokens = none := Registry.lookup_none_iff.mpr hnew
  unfold Registry.lookup at hnone ⊢
  rw [List.find?_append, hnone]
  simp

/-- A kernel that receives a token with the seal of a sealed one restores it, at the offset that the
token says, if the seal's text is the same. If one byte of the text is altered, it answers with a
violation and never restores the token, whatever it does. -/
theorem altered_continuation {u t : ForkToken} (hu : u.Sealed)
    (hseal : t.ed25519Seal = u.ed25519Seal) (receiver : UpipPager) :
    ((∀ r ∈ receiver.tokens, r.id ≠ t.id) → t.state ≠ .consumed →
      (t.sealText = u.sealText →
        Kernels.pageInReceived receiver t = .success t.id t.rawSize t.memoryOffset) ∧
      (OneAltered u.sealText t.sealText → Kernels.pageInReceived receiver t =
        .integrityViolation t.id t.expectedSeal t.ed25519Seal)) ∧
    (OneAltered u.sealText t.sealText → ∀ ops : List PagerOp,
      (∀ op ∈ ops, ∀ position ed25519Seal, op ≠ .tamper position ed25519Seal) →
      ∃ t', (Machine.run pagerStep { receiver with tokens := receiver.tokens ++ [t] } ops).tokens[
          receiver.tokens.length]? = some t' ∧ t'.accessCount = t.accessCount) := by
  have hsealed := ForkToken.sealed_iff hu hseal
  have hun : OneAltered u.sealText t.sealText → ¬ t.Sealed := fun halter hsame =>
    fnv1a_ne halter (hsealed.mp hsame).symm
  refine ⟨fun hnew hstate => ⟨fun htext => ?_, fun halter => ?_⟩, fun halter ops hops => ?_⟩
  · have hsame : t.ed25519Seal = t.expectedSeal := hsealed.mpr (congrArg fnv1a htext)
    unfold Kernels.pageInReceived UpipPager.pageIn
    rw [lookup_received hnew]
    dsimp only
    rw [if_neg hstate, if_neg (not_not_intro hsame)]
  · have hne : t.ed25519Seal ≠ t.expectedSeal := hun halter
    unfold Kernels.pageInReceived UpipPager.pageIn
    rw [lookup_received hnew]
    dsimp only
    rw [if_neg hstate, if_pos hne]
  · obtain ⟨t', ht', hkept⟩ := withholds_run { receiver with tokens := receiver.tokens ++ [t] } hops
      receiver.tokens.length t (by simp)
    exact ⟨t', ht', hkept.sameCount (hun halter)⟩

namespace Handover

/-- A token on its way to another kernel. -/
def token : ForkToken := mint 0 [1] 0 "ai:inference" "kernel_a.aint" 100

/-- The same with another offset, and with another bus number. -/
def moved : ForkToken := { token with memoryOffset := 4096 }
def renumbered : ForkToken := { token with busSeq := 101 }

/-- The bus numbers differ in their last digit. -/
theorem renumbered_altered : OneAltered token.sealText renumbered.sealText := by
  have htext : ∀ (t : ForkToken) (digit : Char), toString t.busSeq = "10" ++ String.ofList [digit] →
      t.sealText = Text.encode s!"{t.contentHash}:{t.compressedHash}:{t.intent}:10".toList ++
        Text.encode [digit] := by
    intro t digit hdigit
    rw [ForkToken.sealText, Text.toList_toUTF8, hdigit, ← Text.encode_append]
    congr 1
    simp only [toString, String.toList_append, String.toList_ofList, List.append_assoc]
    rfl
  refine ⟨_, 48, 49, [], by decide, htext token '0' (by decide), htext renumbered '1' (by decide)⟩

end Handover

section

open Handover

theorem altered_continuation_renumbered :
    Kernels.pageInReceived (.new 4096) moved = .success moved.id moved.rawSize 4096 ∧
      Kernels.pageInReceived (.new 4096) renumbered =
        .integrityViolation renumbered.id renumbered.expectedSeal renumbered.ed25519Seal := by
  have hnew : ∀ t : ForkToken, ∀ r ∈ (UpipPager.new 4096).tokens, r.id ≠ t.id :=
    fun _ => List.forall_mem_nil _
  have hstate : ForkTokenState.pagedOut ≠ .consumed := by decide
  refine ⟨?_, ?_⟩
  · exact ((altered_continuation (u := token) (t := moved) rfl rfl (.new 4096)).1 (hnew moved)
      hstate).1 rfl
  · exact ((altered_continuation (u := token) (t := renumbered) rfl rfl (.new 4096)).1
      (hnew renumbered) hstate).2 renumbered_altered

end

end Spaceshuttle.Upip
