import Spaceshuttle.Bifurcation.Envelope

/-!
# Sessions on Android

`AndroidBifurcation` of `crates/trust-kernel-android/src/bifurcation.rs`: sealing under a key
derived for a block counter that is not part of the wire format, and opening by search over
counters. Random numbers are inputs. The arithmetic of the counter wraps, as in a release build.
-/

namespace Spaceshuttle.Android

open Bifurcation (Bytes32 Nonce Panic)

/-- The cryptographic primitives. HKDF takes a salt, a secret and the info. -/
structure Primitives where
  publicKey : Bytes32 → Bytes32
  diffieHellman : Bytes32 → Bytes32 → Bytes32
  hkdf : List UInt8 → Bytes32 → List UInt8 → Bytes32
  encrypt : Bytes32 → Nonce → List UInt8 → Option (List UInt8)
  decrypt : Bytes32 → Nonce → List UInt8 → Option (List UInt8)

/-- What a session relies on: `a·B = b·A`, decryption undoes encryption under the same key and
fails under any other, and a ciphertext holds a tag of 16 bytes. -/
structure Primitives.Lawful (P : Primitives) : Prop where
  dh_comm : ∀ a b, P.diffieHellman a (P.publicKey b) = P.diffieHellman b (P.publicKey a)
  decrypt_encrypt : ∀ key nonce plaintext ciphertext,
    P.encrypt key nonce plaintext = some ciphertext →
      P.decrypt key nonce ciphertext = some plaintext
  decrypt_other : ∀ key key' nonce plaintext ciphertext,
    P.encrypt key nonce plaintext = some ciphertext → key' ≠ key →
      P.decrypt key' nonce ciphertext = none
  encrypt_tag : ∀ key nonce plaintext ciphertext,
    P.encrypt key nonce plaintext = some ciphertext → 16 ≤ ciphertext.length

/-- `AndroidBifurcation` (`bifurcation.rs:22-29`). -/
structure AndroidBifurcation where
  secret : Bytes32
  publicKey : Bytes32
  blockCounter : UInt64
  deriving DecidableEq, Repr

/-- What sealing draws: the secret of the block and the random end of the nonce. -/
structure Draw where
  ephemeralSecret : Bytes32
  random : Vector UInt8 4
  deriving DecidableEq, Repr

/-- `TIBET-BIFURCATION-ANDROID-`. -/
def saltPrefix : List UInt8 :=
  [84, 73, 66, 69, 84, 45, 66, 73, 70, 85, 82, 67, 65, 84, 73, 79, 78, 45, 65, 78, 68, 82, 79, 73,
    68, 45]

/-- `aes-256-gcm-key`. -/
def keyInfo : List UInt8 := [97, 101, 115, 45, 50, 53, 54, 45, 103, 99, 109, 45, 107, 101, 121]

/-- The salt of a block: the prefix and the index in decimal. -/
def saltOf (blockIndex : UInt64) : List UInt8 :=
  saltPrefix ++ (Nat.toDigits 10 blockIndex.toNat).map (fun c => UInt8.ofNat c.toNat)

/-- `hkdf_derive` (`bifurcation.rs:125-131`). -/
def Primitives.hkdfDerive (P : Primitives) (shared : Bytes32) (blockIndex : UInt64) : Bytes32 :=
  P.hkdf (saltOf blockIndex) shared keyInfo

/-- `generate_nonce` (`bifurcation.rs:134-141`). -/
def generateNonce (blockIndex : UInt64) (random : Vector UInt8 4) : Nonce :=
  ⟨(Bifurcation.toLeBytes blockIndex.toNat ++ random.toList).toArray, by
    simp [Bifurcation.toLeBytes]⟩

/-- A slice as an array: `try_into`. -/
def toArrayOf (n : Nat) (bytes : List UInt8) : Option (Vector UInt8 n) :=
  if h : bytes.length = n then some ⟨bytes.toArray, by simpa using h⟩ else none

namespace AndroidBifurcation

variable (P : Primitives)

/-- `AndroidBifurcation::new` (`bifurcation.rs:33-41`). -/
def new (key : Bytes32) : AndroidBifurcation where
  secret := key
  publicKey := P.publicKey key
  blockCounter := 0

/-- `seal` (`bifurcation.rs:57-86`). -/
def sealBytes (s : AndroidBifurcation) (draw : Draw) (plaintext : List UInt8) :
    AndroidBifurcation × Except Panic (List UInt8) :=
  let s := { s with blockCounter := s.blockCounter + 1 }
  let ephemeralPub := P.publicKey draw.ephemeralSecret
  let shared := P.diffieHellman draw.ephemeralSecret s.publicKey
  let aesKey := P.hkdfDerive shared s.blockCounter
  let nonce := generateNonce s.blockCounter draw.random
  match P.encrypt aesKey nonce plaintext with
  | none => (s, .error ⟨"encryption failed"⟩)
  | some ciphertext => (s, .ok (ephemeralPub.toList ++ nonce.toList ++ ciphertext))

/-- `open` (`bifurcation.rs:91-122`). The counter of the block is searched from 0 to 1000 beyond the
counter of this session. -/
def openBytes (s : AndroidBifurcation) (bytes : List UInt8) : Option (List UInt8) :=
  if bytes.length < 32 + 12 + 16 then none
  else do
    let ephemeralPub ← toArrayOf 32 (bytes.take 32)
    let nonce ← toArrayOf 12 ((bytes.drop 32).take 12)
    let ciphertext := bytes.drop (32 + 12)
    let shared := P.diffieHellman s.secret ephemeralPub
    (List.range ((s.blockCounter + 1000).toNat + 1)).findSome? (fun blockIndex =>
      P.decrypt (P.hkdfDerive shared (UInt64.ofNat blockIndex)) nonce ciphertext)

end AndroidBifurcation

end Spaceshuttle.Android
