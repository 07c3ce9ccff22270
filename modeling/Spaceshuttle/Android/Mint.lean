import Spaceshuttle.Bifurcation.Envelope
import Spaceshuttle.Kernel.PortIntent
import Spaceshuttle.Lib.Separated
import Spaceshuttle.Lib.Utf8

/-!
# Provenance tokens on Android

`mint_token` of `crates/trust-kernel-android/src/tibet_mint.rs:34-84`. SHA-256 is a parameter, and
the time of the call an input. The id of a token is hashed from its fields with a separator between
them, the seal from the id and the fields without one and without the clearance.
-/

namespace Spaceshuttle.Android

open Bifurcation (Bytes32)
open Kernel (hexByte textStartsWith)
open Separated (join Shifted)

/-- `as_bytes`. -/
def asBytes (text : String) : List UInt8 := Text.encode text.toList

/-- What `Utc::now().to_rfc3339()` returns: digits, `-`, `T`, `:`, `.` and `+`, and so no separator
of a token id. -/
structure Timestamp where
  text : String
  noSeparator : '|' ∉ text.toList
  deriving DecidableEq, Repr

/-- `TibetToken` (`tibet_mint.rs:14-31`). -/
structure TibetToken where
  tbzVersion : String
  tokenType : String
  tokenId : String
  timestamp : String
  ainsIdentity : String
  intent : String
  erin : String
  eraan : String
  eromheen : String
  erachter : String
  clearance : UInt8
  device : String
  sealHex : String
  deriving DecidableEq, Repr

/-- `categorize_action` (`tibet_mint.rs:73-84`). -/
def categorizeAction (action : String) : String :=
  if textStartsWith action.toList "finance:" then "FINANCIAL_ACTION"
  else if textStartsWith action.toList "chat:" then "COMMUNICATION"
  else if textStartsWith action.toList "call:" then "VOICE_VIDEO"
  else if textStartsWith action.toList "file:" then "FILE_OPERATION"
  else "GENERAL_ACTION"

/-- The first `n` bytes of a digest in hexadecimal. -/
def hexPrefix (n : Nat) (hash : Bytes32) : String :=
  String.ofList ((hash.toList.take n).flatMap hexByte)

/-- The bytes hashed for a token id (`tibet_mint.rs:38-43`). -/
def tokenIdInput (action actor : String) (timestamp : Timestamp) : List UInt8 :=
  asBytes actor ++ [0x7C] ++ asBytes action ++ [0x7C] ++ asBytes timestamp.text

/-- The bytes hashed for a seal (`tibet_mint.rs:48-52`). -/
def sealInput (tokenId action actor : String) (timestamp : Timestamp) : List UInt8 :=
  asBytes tokenId ++ asBytes action ++ asBytes actor ++ asBytes timestamp.text

section Mint

variable (sha256 : List UInt8 → Bytes32)

/-- The token id of what is hashed for it (`tibet_mint.rs:44-45`). -/
def tokenIdOf (input : List UInt8) : String := hexPrefix 8 (sha256 input)

/-- The seal of what is hashed for it (`tibet_mint.rs:53-54`). -/
def sealOf (input : List UInt8) : String := hexPrefix 16 (sha256 input)

/-- `mint_token` (`tibet_mint.rs:34-71`). -/
def mintToken (timestamp : Timestamp) (action actor : String) (clearance : UInt8) : TibetToken :=
  let tokenId := tokenIdOf sha256 (tokenIdInput action actor timestamp)
  let sealHex := sealOf sha256 (sealInput tokenId action actor timestamp)
  { tbzVersion := "v1.0.0-ANDROID"
    tokenType := categorizeAction action
    tokenId
    timestamp := timestamp.text
    ainsIdentity := actor
    intent := action
    erin := s!"action:{action}"
    eraan := s!"device:android,clearance:{clearance}"
    eromheen := "trust-kernel-android,bifurcation-aes256gcm"
    erachter := action
    clearance
    device := "android"
    sealHex }

end Mint

/-- A call of `mint_token`, with the time it reads. -/
structure MintCall where
  action : String
  actor : String
  clearance : UInt8
  timestamp : Timestamp
  deriving DecidableEq, Repr

namespace MintCall

variable (sha256 : List UInt8 → Bytes32)

/-- The token the call returns. -/
def token (c : MintCall) : TibetToken :=
  mintToken sha256 c.timestamp c.action c.actor c.clearance

/-- What the call hashes for the id of its token. -/
def idBytes (c : MintCall) : List UInt8 := tokenIdInput c.action c.actor c.timestamp

/-- What the call hashes for the seal of its token. -/
def sealBytes (c : MintCall) : List UInt8 :=
  sealInput (c.token sha256).tokenId c.action c.actor c.timestamp

/-- The calls differ in the clearance and in nothing else. -/
def OnlyClearanceDiffers (c c' : MintCall) : Prop :=
  c.action = c'.action ∧ c.actor = c'.actor ∧ c.timestamp = c'.timestamp ∧
    c.clearance ≠ c'.clearance

instance (c c' : MintCall) : Decidable (OnlyClearanceDiffers c c') :=
  inferInstanceAs (Decidable (_ ∧ _))

/-- At one time, the actor of the second call is that of the first, a separator and some text, and
the action of the first is this text, a separator and the action of the second. -/
def SeparatorShifted (c c' : MintCall) : Prop :=
  c.timestamp = c'.timestamp ∧
    Shifted '|' c.actor.toList c.action.toList c'.actor.toList c'.action.toList

instance (c c' : MintCall) : Decidable (SeparatorShifted c c') :=
  inferInstanceAs (Decidable (_ ∧ _))

end MintCall

/-- Different inputs with the same hash. -/
def Collision (hash : List UInt8 → String) (input input' : List UInt8) : Prop :=
  input ≠ input' ∧ hash input = hash input'

/-- Seals and ids bind the fields of two calls: what is hashed differs where the fields do, and
different tokens share a seal or an id by a collision only. -/
structure Binds (sha256 : List UInt8 → Bytes32) (c c' : MintCall) : Prop where
  seals : (c.action, c.actor, c.timestamp, c.clearance) ≠
      (c'.action, c'.actor, c'.timestamp, c'.clearance) →
    c.sealBytes sha256 ≠ c'.sealBytes sha256
  ids : (c.actor, c.action, c.timestamp) ≠ (c'.actor, c'.action, c'.timestamp) →
    c.idBytes ≠ c'.idBytes
  seal_shared : c.token sha256 ≠ c'.token sha256 →
    (c.token sha256).sealHex = (c'.token sha256).sealHex →
    Collision (sealOf sha256) (c.sealBytes sha256) (c'.sealBytes sha256)
  id_shared : c.token sha256 ≠ c'.token sha256 →
    (c.token sha256).tokenId = (c'.token sha256).tokenId →
    Collision (tokenIdOf sha256) c.idBytes c'.idBytes

/-! ## What is hashed -/

/-- Two hexadecimal digits stand for a byte. -/
theorem length_hexPrefix {n : Nat} (hn : n ≤ 32) (hash : Bytes32) :
    (hexPrefix n hash).toList.length = 2 * n := by
  have htake : (hash.toList.take n).length = n :=
    List.length_take_of_le (by rw [Vector.length_toList]; exact hn)
  have hdigits : ∀ bytes : List UInt8, (bytes.flatMap hexByte).length = 2 * bytes.length := by
    intro bytes
    induction bytes with
    | nil => rfl
    | cons b bytes ih =>
      rw [List.flatMap_cons, List.length_append, ih, List.length_cons]
      simp only [hexByte, List.length_cons, List.length_nil]
      omega
  unfold hexPrefix
  rw [String.toList_ofList, hdigits, htake]

theorem encode_separator (text : List Char) :
    Text.encode ('|' :: text) = 0x7C :: Text.encode text := rfl

variable {sha256 : List UInt8 → Bytes32} {c c' : MintCall}

namespace MintCall

/-- The bytes of an id are the text of its three fields around two separators. -/
theorem idBytes_eq (c : MintCall) : c.idBytes =
    Text.encode (join '|' (join '|' c.actor.toList c.action.toList) c.timestamp.text.toList) := by
  unfold idBytes tokenIdInput asBytes join
  rw [Text.encode_append, Text.encode_append, encode_separator, encode_separator]
  simp

/-- The last separator of an id is the one before the time. -/
theorem idBytes_eq_iff : c.idBytes = c'.idBytes ↔
    join '|' c.actor.toList c.action.toList = join '|' c'.actor.toList c'.action.toList ∧
      c.timestamp = c'.timestamp := by
  rw [idBytes_eq, idBytes_eq, Text.encode_inj,
    Separated.join_inj_of_notMem c.timestamp.noSeparator c'.timestamp.noSeparator]
  refine and_congr_right fun _ => ?_
  rw [String.toList_inj, Timestamp.mk.injEq]

/-- Where no separator is shifted, an id is hashed from its fields alone. -/
theorem fields_eq_of_idBytes_eq (hshift : ¬ SeparatorShifted c c')
    (hshift' : ¬ SeparatorShifted c' c) (h : c.idBytes = c'.idBytes) :
    c.actor = c'.actor ∧ c.action = c'.action ∧ c.timestamp = c'.timestamp := by
  obtain ⟨hjoin, htime⟩ := idBytes_eq_iff.mp h
  rcases Separated.join_eq_join_iff.mp hjoin with ⟨hactor, haction⟩ | hmoved | hmoved
  · exact ⟨String.toList_inj.mp hactor, String.toList_inj.mp haction, htime⟩
  · exact absurd ⟨htime, hmoved⟩ hshift
  · exact absurd ⟨htime.symm, hmoved⟩ hshift'

theorem idBytes_eq_of_shifted (h : SeparatorShifted c c') : c.idBytes = c'.idBytes :=
  idBytes_eq_iff.mpr ⟨h.2.join_eq, h.1⟩

/-- A seal is hashed from an id of fixed length first, so it determines the id. -/
theorem tokenId_eq_of_sealBytes_eq (h : c.sealBytes sha256 = c'.sealBytes sha256) :
    (c.token sha256).tokenId = (c'.token sha256).tokenId := by
  have hlength : ∀ c : MintCall, (c.token sha256).tokenId.toList.length = 2 * 8 := fun _ =>
    length_hexPrefix (by decide) _
  unfold sealBytes sealInput asBytes at h
  simp only [← Text.encode_append, List.append_assoc] at h
  have happend := List.append_inj_left (Text.encode_inj.mp h) ((hlength c).trans (hlength c').symm)
  exact String.toList_inj.mp happend

/-- The clearance is in neither of the two. -/
theorem bytes_eq_of_onlyClearanceDiffers (h : OnlyClearanceDiffers c c') :
    c.idBytes = c'.idBytes ∧ c.sealBytes sha256 = c'.sealBytes sha256 := by
  obtain ⟨haction, hactor, htime, -⟩ := h
  unfold idBytes sealBytes token mintToken
  dsimp only
  rw [haction, hactor, htime]
  exact ⟨rfl, rfl⟩

end MintCall

/-! ## Seals and ids -/

/-- Calls that agree in all fields return the same token. -/
theorem token_eq_of_fields (haction : c.action = c'.action) (hactor : c.actor = c'.actor)
    (htime : c.timestamp = c'.timestamp) (hclearance : c.clearance = c'.clearance) :
    c.token sha256 = c'.token sha256 := by
  unfold MintCall.token
  rw [haction, hactor, htime, hclearance]

theorem Collision.symm {hash : List UInt8 → String} {input input' : List UInt8}
    (h : Collision hash input input') : Collision hash input' input :=
  ⟨h.1.symm, h.2.symm⟩

theorem Binds.symm (h : Binds sha256 c c') : Binds sha256 c' c where
  seals := fun hne => (h.seals hne.symm).symm
  ids := fun hne => (h.ids hne.symm).symm
  seal_shared := fun hne hshared => (h.seal_shared hne.symm hshared.symm).symm
  id_shared := fun hne hshared => (h.id_shared hne.symm hshared.symm).symm

theorem Binds.not_onlyClearanceDiffers (h : Binds sha256 c c') : ¬ c.OnlyClearanceDiffers c' := by
  intro honly
  refine h.seals (fun heq => ?_) (MintCall.bytes_eq_of_onlyClearanceDiffers honly).2
  have hclearance := congrArg (fun fields => fields.2.2.2) heq
  exact honly.2.2.2 hclearance

theorem Binds.not_separatorShifted (h : Binds sha256 c c') : ¬ c.SeparatorShifted c' := by
  intro hshift
  refine h.ids (fun heq => ?_) (MintCall.idBytes_eq_of_shifted hshift)
  have hactor : c.actor = c'.actor := congrArg Prod.fst heq
  have hlength := hshift.2.length_lt
  rw [hactor] at hlength
  exact lt_irrefl _ hlength

/-- Unless the two ids are one by a collision, the seals and ids of two calls bind their fields
exactly if the calls do not differ in the clearance alone and neither is the other with a separator
shifted. -/
theorem mint_binds_iff (hid : ¬ Collision (tokenIdOf sha256) c.idBytes c'.idBytes) :
    Binds sha256 c c' ↔
      ¬ c.OnlyClearanceDiffers c' ∧ ¬ c.SeparatorShifted c' ∧ ¬ c'.SeparatorShifted c := by
  constructor
  · intro h
    exact ⟨h.not_onlyClearanceDiffers, h.not_separatorShifted, h.symm.not_separatorShifted⟩
  · rintro ⟨hclearance, hshift, hshift'⟩
    have hids : c.idBytes = c'.idBytes →
        c.actor = c'.actor ∧ c.action = c'.action ∧ c.timestamp = c'.timestamp :=
      MintCall.fields_eq_of_idBytes_eq hshift hshift'
    -- Equal ids leave the clearance as the only difference, which is excluded.
    have hfields : c.idBytes = c'.idBytes → c.clearance = c'.clearance := by
      intro heq
      obtain ⟨hactor, haction, htime⟩ := hids heq
      by_contra hne
      exact hclearance ⟨haction, hactor, htime, hne⟩
    have hseals : c.sealBytes sha256 = c'.sealBytes sha256 → c.idBytes = c'.idBytes := by
      intro heq
      by_contra hne
      exact hid ⟨hne, MintCall.tokenId_eq_of_sealBytes_eq heq⟩
    have htoken : c.idBytes = c'.idBytes → c.token sha256 = c'.token sha256 := by
      intro heq
      obtain ⟨hactor, haction, htime⟩ := hids heq
      exact token_eq_of_fields haction hactor htime (hfields heq)
    exact {
      seals := by
        intro hne heq
        obtain ⟨hactor, haction, htime⟩ := hids (hseals heq)
        exact hne (by rw [hactor, haction, htime, hfields (hseals heq)])
      ids := by
        intro hne heq
        obtain ⟨hactor, haction, htime⟩ := hids heq
        exact hne (by rw [hactor, haction, htime])
      seal_shared := fun hne hshared => ⟨fun heq => hne (htoken (hseals heq)), hshared⟩
      id_shared := fun hne hshared => ⟨fun heq => hne (htoken heq), hshared⟩ }

/-! ## Two calls at one time -/

/-- SHA-256 of what the calls below hash, and zeros elsewhere. -/
def sampleSha256 (input : List UInt8) : Bytes32 :=
  (List.lookup input [
    (asBytes "user.aint|chat:send|2026-01-05T10:00:00+00:00",
      #v[155, 77, 186, 54, 223, 65, 81, 226, 95, 159, 190, 96, 187, 51, 135, 44, 124, 246, 246,
          127, 195, 177, 89, 158, 245, 238, 119, 139, 253, 231, 213, 13]),
    (asBytes "9b4dba36df4151e2chat:senduser.aint2026-01-05T10:00:00+00:00",
      #v[102, 159, 222, 56, 103, 152, 23, 41, 75, 215, 110, 182, 204, 240, 162, 117, 105, 112,
          52, 13, 11, 86, 35, 219, 117, 82, 250, 55, 85, 224, 148, 90]),
    (asBytes "user.aint|finance:transfer|2026-01-05T10:00:00+00:00",
      #v[136, 193, 183, 138, 250, 181, 59, 119, 190, 139, 116, 73, 70, 43, 74, 163, 161, 38,
          26, 195, 180, 186, 129, 3, 38, 211, 108, 164, 17, 169, 203, 158]),
    (asBytes "88c1b78afab53b77finance:transferuser.aint2026-01-05T10:00:00+00:00",
      #v[115, 54, 23, 153, 11, 232, 150, 65, 165, 20, 28, 8, 250, 220, 18, 248, 106, 15, 109,
          165, 233, 62, 226, 13, 248, 17, 68, 222, 230, 23, 251, 64])]).getD
    (Vector.replicate 32 0)

/-- A time without a fraction of a second. -/
def sampleTime : Timestamp where
  text := "2026-01-05T10:00:00+00:00"
  noSeparator := by decide

/-- A chat message. -/
def sampleChat : MintCall := ⟨"chat:send", "user.aint", 2, sampleTime⟩

/-- A transfer by the same actor. -/
def sampleTransfer : MintCall := ⟨"finance:transfer", "user.aint", 3, sampleTime⟩

theorem mint_binds_sample :
    ¬ Collision (tokenIdOf sampleSha256) sampleChat.idBytes sampleTransfer.idBytes ∧
      Binds sampleSha256 sampleChat sampleTransfer := by
  have hid : ¬ Collision (tokenIdOf sampleSha256) sampleChat.idBytes sampleTransfer.idBytes := by
    rintro ⟨-, hshared⟩
    exact absurd hshared (by decide)
  exact ⟨hid, (mint_binds_iff hid).mpr (by decide)⟩

/-- A seal does not tell the clearance of a call, and an id does not tell where its actor ends. -/
theorem mint_not_binds :
    ¬ Binds sampleSha256 sampleTransfer { sampleTransfer with clearance := 0 } ∧
      ¬ Binds sampleSha256 ⟨"c", "a|b", 2, sampleTime⟩ ⟨"b|c", "a", 2, sampleTime⟩ := by
  constructor
  · intro h
    exact h.seals (by decide)
      (MintCall.bytes_eq_of_onlyClearanceDiffers (by decide)).2
  · intro h
    exact h.ids (by decide) (MintCall.idBytes_eq_of_shifted (by decide)).symm

end Spaceshuttle.Android
