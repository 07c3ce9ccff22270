import Spaceshuttle.Bifurcation.Envelope
import Spaceshuttle.Lib.Memo

/-!
# The bifurcation engine

`AirlockBifurcation` (`crates/trust-kernel/src/bifurcation.rs:393-1237`) and the free functions
`parallel_seal` and `parallel_open` (`bifurcation.rs:1286-1444`). Random numbers and clock
readings are inputs of an operation. An operation that panics has changed the engine up to the
panic, so every operation returns the engine together with a result or a panic. The parallel
iterators share no state and keep the order of the list; they are maps.
-/

namespace Spaceshuttle.Bifurcation

/-! ## Key cache -/

/-- `KeyCache` (`bifurcation.rs:556-565`). -/
structure KeyCache where
  derivedKeys : AList (fun _ : Bytes32 × Nat => Bytes32)
  maxEntries : Nat
  hits : UInt64
  misses : UInt64

namespace KeyCache

/-- `KeyCache::new`. -/
def new (maxEntries : Nat) : KeyCache where
  derivedKeys := ∅
  maxEntries := maxEntries
  hits := 0
  misses := 0

/-- `KeyCache::get` (`bifurcation.rs:578-586`). -/
def get (c : KeyCache) (ephemeralPub : Bytes32) (blockIndex : Nat) : KeyCache × Option Bytes32 :=
  match c.derivedKeys.lookup (ephemeralPub, blockIndex) with
  | some key => ({ c with hits := c.hits + 1 }, some key)
  | none => ({ c with misses := c.misses + 1 }, none)

/-- `KeyCache::put` (`bifurcation.rs:589-594`). -/
def put (c : KeyCache) (ephemeralPub : Bytes32) (blockIndex : Nat) (aesKey : Bytes32) : KeyCache :=
  { c with derivedKeys := Memo.put c.maxEntries c.derivedKeys (ephemeralPub, blockIndex) aesKey }

/-- `KeyCache::flush` (`bifurcation.rs:597-602`). -/
def flush (c : KeyCache) : KeyCache :=
  { c with derivedKeys := ∅, hits := 0, misses := 0 }

/-- `get` for every block of a list, in order (`bifurcation.rs:1170-1173`). -/
def getAll (c : KeyCache) : List EncryptedBlock → KeyCache × List (Option Bytes32)
  | [] => (c, [])
  | block :: blocks =>
      let (c, key) := c.get block.ephemeralPub block.blockIndex
      let (c, keys) := c.getAll blocks
      (c, key :: keys)

end KeyCache

/-! ## Session keys -/

/-- `SessionKey` (`bifurcation.rs:619-632`). Times are nanoseconds of the monotonic clock. -/
structure SessionKey where
  sharedSecret : Bytes32
  ephemeralPub : Bytes32
  blocksSealed : UInt64
  maxBlocks : UInt64
  createdAt : Nat
  maxAge : Nat

namespace SessionKey

variable (K : Crypto)

/-- `SessionKey::new` (`bifurcation.rs:636-653`). -/
def new (ephemeralSecret systemPub : Bytes32) (maxBlocks : UInt64) (maxAge now : Nat) :
    SessionKey where
  sharedSecret := K.diffieHellman ephemeralSecret systemPub
  ephemeralPub := K.publicKey ephemeralSecret
  blocksSealed := 0
  maxBlocks := maxBlocks
  createdAt := now
  maxAge := maxAge

/-- `SessionKey::is_valid` (`bifurcation.rs:656-658`). -/
def isValid (s : SessionKey) (now : Nat) : Bool :=
  decide (s.blocksSealed < s.maxBlocks) && decide (now - s.createdAt < s.maxAge)

/-- `SessionKey::derive_block_key` (`bifurcation.rs:661-669`). -/
def deriveBlockKey (s : SessionKey) (blockIndex : Nat) : SessionKey × Bytes32 :=
  ({ s with blocksSealed := s.blocksSealed + 1 }, K.hkdfDeriveBlockKey s.sharedSecret blockIndex)

end SessionKey

/-! ## The engine -/

/-- The counters of `BifurcationStats` (`bifurcation.rs:526-543`). -/
structure BifurcationStats where
  blocksSealed : UInt64
  blocksOpened : UInt64
  accessDenied : UInt64
  integrityFailures : UInt64
  invalidClaims : UInt64
  deriving DecidableEq, Repr

/-- `AirlockBifurcation` (`bifurcation.rs:682-695`). -/
structure AirlockBifurcation where
  stats : BifurcationStats
  systemSecret : Bytes32
  systemPub : Bytes32
  keyCache : KeyCache
  session : Option SessionKey

/-- What sealing one block draws: a secret key, a nonce and a reading of the clock. -/
structure Draw where
  ephemeralSecret : Bytes32
  nonce : Nonce
  encryptedAtNs : UInt64

/-- What an operation on the session draws: the secret of a new session and the time. -/
structure SessionDraw where
  ephemeralSecret : Bytes32
  now : Nat

/-- The seed `TIBET-BIFURCATION-SYSTEM-KEY-V01` (`bifurcation.rs:702`). -/
def systemSeed : Bytes32 :=
  #v[84, 73, 66, 69, 84, 45, 66, 73, 70, 85, 82, 67, 65, 84, 73, 79, 78, 45, 83, 89, 83, 84, 69, 77,
    45, 75, 69, 89, 45, 86, 48, 49]

section Sealing

variable (K : Crypto)

/-- Encrypt one block under a key: the common body of `seal` (`bifurcation.rs:750-772`),
`seal_session`, `seal_batch` and `parallel_seal`. -/
def sealBlock (aesKey ephemeralPub : Bytes32) (draw : Draw) (plaintext : List UInt8)
    (blockIndex : Nat) (requiredClearance : ClearanceLevel) (encryptedBy : String) :
    Except Panic EncryptedBlock :=
  match K.aesGcmEncrypt plaintext aesKey draw.nonce with
  | .error panic => .error panic
  | .ok ciphertext =>
      .ok { blockIndex, ephemeralPub, nonce := draw.nonce, requiredClearance,
            plaintextHash := K.sha256 plaintext, ciphertext,
            encryptedAtNs := draw.encryptedAtNs, encryptedBy }

namespace AirlockBifurcation

/-- `AirlockBifurcation::new` (`bifurcation.rs:698-718`). -/
def new : AirlockBifurcation where
  stats := ⟨0, 0, 0, 0, 0⟩
  systemSecret := systemSeed
  systemPub := K.publicKey systemSeed
  keyCache := .new 16384
  session := none

/-- The end of `seal` and `seal_session`: count the block, or panic. -/
def finishSeal (e : AirlockBifurcation) :
    Except Panic EncryptedBlock → AirlockBifurcation × Except Panic BifurcationResult
  | .error panic => (e, .error panic)
  | .ok block =>
      ({ e with stats := { e.stats with blocksSealed := e.stats.blocksSealed + 1 } },
        .ok (.blockSealed block))

/-- `seal` (`bifurcation.rs:724-787`). -/
def sealOne (e : AirlockBifurcation) (draw : Draw) (plaintext : List UInt8) (blockIndex : Nat)
    (requiredClearance : ClearanceLevel) (encryptedBy : String) :
    AirlockBifurcation × Except Panic BifurcationResult :=
  let ephemeralPub := K.publicKey draw.ephemeralSecret
  let shared := K.diffieHellman draw.ephemeralSecret e.systemPub
  let aesKey := K.hkdfDeriveBlockKey shared blockIndex
  let e := { e with keyCache := e.keyCache.put ephemeralPub blockIndex aesKey }
  e.finishSeal
    (sealBlock K aesKey ephemeralPub draw plaintext blockIndex requiredClearance encryptedBy)

/-- The session of `seal_session` and `seal_batch`: the current one while it is valid, else a new
one (`bifurcation.rs:808-815`, `1047-1055`). -/
def currentSession (e : AirlockBifurcation) (draw : SessionDraw) : SessionKey :=
  let fresh := SessionKey.new K draw.ephemeralSecret e.systemPub 100000 300000000000 draw.now
  match e.session with
  | none => fresh
  | some s => if s.isValid draw.now then s else fresh

/-- `seal_session` (`bifurcation.rs:798-862`). -/
def sealSession (e : AirlockBifurcation) (sessionDraw : SessionDraw) (draw : Draw)
    (plaintext : List UInt8) (blockIndex : Nat) (requiredClearance : ClearanceLevel)
    (encryptedBy : String) : AirlockBifurcation × Except Panic BifurcationResult :=
  let session := e.currentSession K sessionDraw
  let (session, aesKey) := session.deriveBlockKey K blockIndex
  let ephemeralPub := session.ephemeralPub
  let e := { e with
    session := some session
    keyCache := e.keyCache.put ephemeralPub blockIndex aesKey }
  e.finishSeal
    (sealBlock K aesKey ephemeralPub draw plaintext blockIndex requiredClearance encryptedBy)

/-- `rotate_session` (`bifurcation.rs:865-867`). -/
def rotateSession (e : AirlockBifurcation) : AirlockBifurcation := { e with session := none }

/-- `key_cache.flush()`. -/
def flushCache (e : AirlockBifurcation) : AirlockBifurcation :=
  { e with keyCache := e.keyCache.flush }

/-- The keys of the sealed blocks are cached (`bifurcation.rs:1128-1136`). -/
def cacheKeys (sharedSecret : Bytes32) (cache : KeyCache) (blocks : List EncryptedBlock) :
    KeyCache :=
  blocks.foldl (fun cache block => cache.put block.ephemeralPub block.blockIndex
    (K.hkdfDeriveBlockKey sharedSecret block.blockIndex)) cache

/-- `seal_batch` (`bifurcation.rs:1039-1145`). -/
def sealBatch (e : AirlockBifurcation) (sessionDraw : SessionDraw) (draws : Nat → Draw)
    (plaintexts : List (List UInt8)) (requiredClearance : ClearanceLevel) (encryptedBy : String) :
    AirlockBifurcation × Except Panic (List EncryptedBlock) :=
  let session := e.currentSession K sessionDraw
  let e := { e with session := some session }
  let sealIndexed := fun (indexed : List UInt8 × Nat) =>
    sealBlock K (K.hkdfDeriveBlockKey session.sharedSecret indexed.2) session.ephemeralPub
      (draws indexed.2) indexed.1 indexed.2 requiredClearance encryptedBy
  match plaintexts.zipIdx.mapM sealIndexed with
  | .error panic => (e, .error panic)
  | .ok blocks =>
      let count := UInt64.ofNat blocks.length
      ({ e with
          stats := { e.stats with blocksSealed := e.stats.blocksSealed + count }
          session := some { session with blocksSealed := session.blocksSealed + count }
          keyCache := cacheKeys K session.sharedSecret e.keyCache blocks },
        .ok blocks)

end AirlockBifurcation

/-- `parallel_seal` (`bifurcation.rs:1286-1364`). -/
def parallelSeal (draws : Nat → Draw) (plaintexts : List (List UInt8)) (systemSecret : Bytes32)
    (requiredClearance : ClearanceLevel) (encryptedBy : String) :
    Except Panic (List EncryptedBlock) :=
  let systemPub := K.publicKey systemSecret
  plaintexts.zipIdx.mapM (fun indexed =>
    let draw := draws indexed.2
    let shared := K.diffieHellman draw.ephemeralSecret systemPub
    sealBlock K (K.hkdfDeriveBlockKey shared indexed.2) (K.publicKey draw.ephemeralSecret) draw
      indexed.1 indexed.2 requiredClearance encryptedBy)

end Sealing

section Opening

variable (K : Crypto)

/-- One block of `open_batch` and `parallel_open`: no plaintext if the clearance is too low or the
hash does not match (`bifurcation.rs:1178-1218`, `1391-1429`). -/
def openInBatch (systemSecret : Bytes32) (claim : JisClaim) (block : EncryptedBlock)
    (cachedKey : Option Bytes32) : Except Panic (Option (List UInt8)) :=
  if claim.clearance < block.requiredClearance then .ok none
  else
    let aesKey := cachedKey.getD (K.openKey systemSecret block.ephemeralPub block.blockIndex)
    match K.aesGcmDecrypt block.ciphertext aesKey block.nonce with
    | .error panic => .error panic
    | .ok plaintext =>
        if K.sha256 plaintext ≠ block.plaintextHash then .ok none else .ok (some plaintext)

/-- The number of blocks a claim may not open. -/
def deniedCount (claim : JisClaim) (blocks : List EncryptedBlock) : Nat :=
  blocks.countP (fun block => decide (claim.clearance < block.requiredClearance))

namespace AirlockBifurcation

/-- Key derivation of `open`, through the cache (`bifurcation.rs:923-934`). -/
def keyFor (e : AirlockBifurcation) (block : EncryptedBlock) : AirlockBifurcation × Bytes32 :=
  match e.keyCache.get block.ephemeralPub block.blockIndex with
  | (cache, some key) => ({ e with keyCache := cache }, key)
  | (cache, none) =>
      let key := K.openKey e.systemSecret block.ephemeralPub block.blockIndex
      ({ e with keyCache := cache.put block.ephemeralPub block.blockIndex key }, key)

/-- The reason for a key of the wrong length (`bifurcation.rs:901-905`). -/
def invalidKeyLength (claim : JisClaim) : String :=
  s!"Invalid Ed25519 public key length: {claim.ed25519Pub.utf8ByteSize} " ++
    s!"(expected {ed25519PubSize * 2})"

/-- `open` (`bifurcation.rs:882-964`). -/
def openBlock (e : AirlockBifurcation) (block : EncryptedBlock) (claim : JisClaim) :
    AirlockBifurcation × Except Panic BifurcationResult :=
  if claim.identity = "" then
    ({ e with stats := { e.stats with invalidClaims := e.stats.invalidClaims + 1 } },
      .ok (.claimInvalid "Empty identity in JIS claim"))
  else if claim.ed25519Pub.utf8ByteSize ≠ ed25519PubSize * 2 then
    ({ e with stats := { e.stats with invalidClaims := e.stats.invalidClaims + 1 } },
      .ok (.claimInvalid (invalidKeyLength claim)))
  else if claim.clearance < block.requiredClearance then
    ({ e with stats := { e.stats with accessDenied := e.stats.accessDenied + 1 } },
      .ok (.accessDenied block.requiredClearance claim.clearance claim.identity))
  else
    let (e, aesKey) := e.keyFor K block
    match K.aesGcmDecrypt block.ciphertext aesKey block.nonce with
    | .error panic => (e, .error panic)
    | .ok plaintext =>
        let actualHash := K.sha256 plaintext
        if actualHash ≠ block.plaintextHash then
          ({ e with stats := { e.stats with integrityFailures := e.stats.integrityFailures + 1 } },
            .ok (.integrityFailed block.plaintextHash actualHash))
        else
          ({ e with stats := { e.stats with blocksOpened := e.stats.blocksOpened + 1 } },
            .ok (.blockOpened plaintext claim.identity))

/-- `open_batch` (`bifurcation.rs:1150-1237`). -/
def openBatch (e : AirlockBifurcation) (blocks : List EncryptedBlock) (claim : JisClaim) :
    AirlockBifurcation × Except Panic BatchOpenResult :=
  if ¬ claim.Valid then (e, .ok ⟨[], blocks.length⟩)
  else
    let (cache, cachedKeys) := e.keyCache.getAll blocks
    let e := { e with keyCache := cache }
    match (blocks.zip cachedKeys).mapM
        (fun (block, cachedKey) => openInBatch K e.systemSecret claim block cachedKey) with
    | .error panic => (e, .error panic)
    | .ok results =>
        let plaintexts := results.reduceOption
        let denied := deniedCount claim blocks
        ({ e with stats := { e.stats with
            blocksOpened := e.stats.blocksOpened + UInt64.ofNat plaintexts.length
            accessDenied := e.stats.accessDenied + UInt64.ofNat denied } },
          .ok ⟨plaintexts, denied⟩)

end AirlockBifurcation

/-- `parallel_open` (`bifurcation.rs:1370-1444`). -/
def parallelOpen (blocks : List EncryptedBlock) (claim : JisClaim) (systemSecret : Bytes32) :
    Except Panic BatchOpenResult :=
  if ¬ claim.Valid then .ok ⟨[], blocks.length⟩
  else
    match blocks.mapM (fun block => openInBatch K systemSecret claim block none) with
    | .error panic => .error panic
    | .ok results => .ok ⟨results.reduceOption, deniedCount claim blocks⟩

end Opening

/-! ## Runs -/

/-- The operations on one engine, with what they draw. The free functions run with the system
secret of the engine. -/
inductive Op where
  | sealOne (draw : Draw) (plaintext : List UInt8) (blockIndex : Nat)
      (requiredClearance : ClearanceLevel) (encryptedBy : String)
  | sealSession (sessionDraw : SessionDraw) (draw : Draw) (plaintext : List UInt8)
      (blockIndex : Nat) (requiredClearance : ClearanceLevel) (encryptedBy : String)
  | sealBatch (sessionDraw : SessionDraw) (draws : Nat → Draw) (plaintexts : List (List UInt8))
      (requiredClearance : ClearanceLevel) (encryptedBy : String)
  | parallelSeal (draws : Nat → Draw) (plaintexts : List (List UInt8))
      (requiredClearance : ClearanceLevel) (encryptedBy : String)
  | openBlock (block : EncryptedBlock) (claim : JisClaim)
  | openBatch (blocks : List EncryptedBlock) (claim : JisClaim)
  | parallelOpen (blocks : List EncryptedBlock) (claim : JisClaim)
  | rotateSession
  | flushCache

/-- What an operation returns. -/
inductive Outcome where
  | one (result : Except Panic BifurcationResult)
  | blocks (result : Except Panic (List EncryptedBlock))
  | plaintexts (result : Except Panic BatchOpenResult)
  | done

/-- Run an operation. -/
def exec (K : Crypto) (e : AirlockBifurcation) : Op → AirlockBifurcation × Outcome
  | .sealOne draw plaintext blockIndex required encryptedBy =>
      let (e, result) := e.sealOne K draw plaintext blockIndex required encryptedBy
      (e, .one result)
  | .sealSession sessionDraw draw plaintext blockIndex required encryptedBy =>
      let (e, result) := e.sealSession K sessionDraw draw plaintext blockIndex required encryptedBy
      (e, .one result)
  | .sealBatch sessionDraw draws plaintexts required encryptedBy =>
      let (e, result) := e.sealBatch K sessionDraw draws plaintexts required encryptedBy
      (e, .blocks result)
  | .parallelSeal draws plaintexts required encryptedBy =>
      (e, .blocks (parallelSeal K draws plaintexts e.systemSecret required encryptedBy))
  | .openBlock block claim =>
      let (e, result) := e.openBlock K block claim
      (e, .one result)
  | .openBatch blocks claim =>
      let (e, result) := e.openBatch K blocks claim
      (e, .plaintexts result)
  | .parallelOpen blocks claim => (e, .plaintexts (parallelOpen K blocks claim e.systemSecret))
  | .rotateSession => (e.rotateSession, .done)
  | .flushCache => (e.flushCache, .done)

end Spaceshuttle.Bifurcation
