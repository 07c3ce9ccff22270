import Mathlib.Algebra.Group.Nat.Defs
import Mathlib.Data.Nat.Notation

/-!
# Envelopes and claims

The data of the Airlock bifurcation engine (`crates/trust-kernel/src/bifurcation.rs:393-543`) and
the primitives it calls: X25519, HKDF-SHA256, SHA-256 and AES-256-GCM are parameters. Wall-clock
durations in results and statistics are left out, as are the fields of a claim that no check
reads.
-/

namespace Spaceshuttle.Bifurcation

/-- `[u8; 32]`: X25519 keys, shared secrets, AES keys and digests. -/
abbrev Bytes32 := Vector UInt8 32

/-- `[u8; AES_NONCE_SIZE]`. -/
abbrev Nonce := Vector UInt8 12

/-- The cryptographic primitives. AES-GCM encryption fails on data that is too long, decryption
when the tag does not authenticate the data. No associated data is passed to either. -/
structure Crypto where
  publicKey : Bytes32 → Bytes32
  diffieHellman : Bytes32 → Bytes32 → Bytes32
  hkdfExpand : Bytes32 → List UInt8 → Bytes32
  sha256 : List UInt8 → Bytes32
  encrypt : Bytes32 → Nonce → List UInt8 → Option (List UInt8)
  decrypt : Bytes32 → Nonce → List UInt8 → Option (List UInt8)

/-- What the engine relies on: `a·B = b·A`, and decryption undoes encryption. -/
structure Crypto.Lawful (K : Crypto) : Prop where
  dh_comm : ∀ a b, K.diffieHellman a (K.publicKey b) = K.diffieHellman b (K.publicKey a)
  decrypt_encrypt : ∀ key nonce plaintext ciphertext,
    K.encrypt key nonce plaintext = some ciphertext →
      K.decrypt key nonce ciphertext = some plaintext

/-- `ClearanceLevel` (`bifurcation.rs:436-442`), in increasing order. -/
inductive ClearanceLevel where
  | unclassified
  | restricted
  | confidential
  | secret
  | topSecret
  deriving DecidableEq, Repr

namespace ClearanceLevel

/-- The discriminant, by which `PartialOrd` compares. -/
def toNat : ClearanceLevel → Nat
  | unclassified => 0
  | restricted => 1
  | confidential => 2
  | secret => 3
  | topSecret => 4

instance : LE ClearanceLevel := ⟨fun a b => a.toNat ≤ b.toNat⟩

instance : LT ClearanceLevel := ⟨fun a b => a.toNat < b.toNat⟩

instance (a b : ClearanceLevel) : Decidable (a ≤ b) :=
  inferInstanceAs (Decidable (a.toNat ≤ b.toNat))

instance (a b : ClearanceLevel) : Decidable (a < b) :=
  inferInstanceAs (Decidable (a.toNat < b.toNat))

theorem not_lt {a b : ClearanceLevel} : ¬ a < b ↔ b ≤ a := Nat.not_lt

end ClearanceLevel

/-- `JisClaim` (`bifurcation.rs:417-432`). -/
structure JisClaim where
  identity : String
  ed25519Pub : String
  clearance : ClearanceLevel
  deriving DecidableEq, Repr

/-- `ED25519_PUB_SIZE`. -/
def ed25519PubSize : Nat := 32

/-- The structural check of a claim passes: an identity, and a key of 64 bytes in hex. -/
def JisClaim.Valid (claim : JisClaim) : Prop :=
  claim.identity ≠ "" ∧ claim.ed25519Pub.utf8ByteSize = ed25519PubSize * 2

instance (claim : JisClaim) : Decidable claim.Valid :=
  inferInstanceAs (Decidable (_ ∧ _))

/-- `EncryptedBlock` (`bifurcation.rs:468-485`). -/
structure EncryptedBlock where
  blockIndex : Nat
  ephemeralPub : Bytes32
  nonce : Nonce
  requiredClearance : ClearanceLevel
  plaintextHash : Bytes32
  ciphertext : List UInt8
  encryptedAtNs : UInt64
  encryptedBy : String
  deriving DecidableEq, Repr

/-- `BifurcationResult` (`bifurcation.rs:489-522`). -/
inductive BifurcationResult where
  | blockSealed (block : EncryptedBlock)
  | blockOpened (plaintext : List UInt8) (openedBy : String)
  | accessDenied (required presented : ClearanceLevel) (identity : String)
  | claimInvalid (reason : String)
  | integrityFailed (expectedHash actualHash : Bytes32)
  | cryptoError (reason : String)
  deriving DecidableEq, Repr

/-- `BatchOpenResult` (`bifurcation.rs:1265-1276`). -/
structure BatchOpenResult where
  plaintexts : List (List UInt8)
  denied : Nat
  deriving DecidableEq, Repr

/-- A panic, with the message of the `expect` that raised it. -/
structure Panic where
  message : String
  deriving DecidableEq, Repr

/-- `HKDF_INFO_PREFIX`: `tibet-bifurcation-v1-block-`. -/
def hkdfInfoPrefix : List UInt8 :=
  [116, 105, 98, 101, 116, 45, 98, 105, 102, 117, 114, 99, 97, 116, 105, 111, 110, 45, 118, 49, 45,
    98, 108, 111, 99, 107, 45]

/-- `usize::to_le_bytes`. -/
def toLeBytes (n : Nat) : List UInt8 :=
  (List.range 8).map (fun i => UInt8.ofNat (n / 256 ^ i))

namespace Crypto

variable (K : Crypto)

/-- `hkdf_derive_block_key` (`bifurcation.rs:978-988`). -/
def hkdfDeriveBlockKey (sharedSecret : Bytes32) (blockIndex : Nat) : Bytes32 :=
  K.hkdfExpand sharedSecret ( hkdfInfoPrefix ++ toLeBytes blockIndex)

/-- The key under which the system opens a block: the system secret times the ephemeral key,
expanded for the index. -/
def openKey (systemSecret : Bytes32) (ephemeralPub : Bytes32) (blockIndex : Nat) : Bytes32 :=
  K.hkdfDeriveBlockKey (K.diffieHellman systemSecret ephemeralPub) blockIndex

/-- `aes_gcm_encrypt` (`bifurcation.rs:1012-1019`). -/
def aesGcmEncrypt (plaintext : List UInt8) (key : Bytes32) (nonce : Nonce) :
    Except Panic (List UInt8) :=
  match K.encrypt key nonce plaintext with
  | some ciphertext => .ok ciphertext
  | none => .error ⟨"AES-256-GCM encrypt failed"⟩

/-- `aes_gcm_decrypt` (`bifurcation.rs:1022-1029`). -/
def aesGcmDecrypt (ciphertext : List UInt8) (key : Bytes32) (nonce : Nonce) :
    Except Panic (List UInt8) :=
  match K.decrypt key nonce ciphertext with
  | some plaintext => .ok plaintext
  | none => .error ⟨"AES-256-GCM decrypt failed"⟩

end Crypto

end Spaceshuttle.Bifurcation
