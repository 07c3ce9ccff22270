import Spaceshuttle.Lib.Registry
import Spaceshuttle.Raid.Block

/-!
# The UPIP pager

`UpipPager` of `crates/trust-kernel/src/upip_pager.rs`: chunks of memory are paged out under fork
tokens, paged in by token, assembled by task and handed to other kernels. `simulate_sha256` and
`simulate_zstd_compress` are the functions of `ram_raid.rs` again. Measured times and timestamps are
left out. Memory offsets are `usize` and wrap.
-/

namespace Spaceshuttle.Upip

open Raid (simulateSha256 simulateZstdCompress)

/-! ## Tokens -/

/-- `MAX_PAGED_CHUNKS` (`upip_pager.rs:88-89`). -/
def maxPagedChunks : Nat := 256

/-- `ChunkStorage` (`upip_pager.rs:138-149`). -/
inductive ChunkStorage where
  | archivaris (path : String)
  | gitStore (commitHash : String)
  | remoteKernel (kernelId endpoint : String)
  | inTransit
  deriving DecidableEq, Repr

/-- `ForkTokenState` (`upip_pager.rs:151-166`). -/
inductive ForkTokenState where
  | creating
  | pagedOut
  | pagingIn
  | pagedIn
  | consumed
  | invalid (reason : String)
  deriving DecidableEq, Repr

/-- `ForkToken` (`upip_pager.rs:98-136`). -/
structure ForkToken where
  id : String
  chunkSeq : UInt64
  totalChunks : Option UInt64
  intent : String
  fromAint : String
  busSeq : UInt64
  memoryOffset : UInt64
  rawSize : Nat
  compressedSize : Nat
  contentHash : String
  compressedHash : String
  ed25519Seal : String
  tibetTokenId : String
  storage : ChunkStorage
  state : ForkTokenState
  accessCount : UInt64
  deriving DecidableEq, Repr

/-- `simulate_ed25519_sign` (`upip_pager.rs:260-263`). -/
def simulateEd25519Sign (data : List UInt8) : String :=
  "ed25519_fork:" ++ String.ofList (((simulateSha256 data).toList.drop 7).take 32)

/-- The seal over two hashes, an intent and a bus sequence number (`upip_pager.rs:401-402`,
`480-485`). -/
def sealFor (contentHash compressedHash intent : String) (busSeq : UInt64) : String :=
  simulateEd25519Sign s!"{contentHash}:{compressedHash}:{intent}:{busSeq}".toUTF8.toList

/-- `str::replace` of every colon by a character. -/
def replaceColon (intent : String) (c' : Char) : String :=
  intent.map (fun c => if c = ':' then c' else c)

/-- The id of a token (`upip_pager.rs:408`). -/
def tokenId (intent : String) (num : UInt64) : String :=
  let name := replaceColon intent '_'
  s!"upip_fork_{name}_{num}"

/-- The token of a chunk (`upip_pager.rs:391-433`). -/
def mint (num : UInt64) (chunkData : List UInt8) (memoryOffset : UInt64) (intent fromAint : String)
    (busSeq : UInt64) : ForkToken :=
  let compressed := simulateZstdCompress chunkData
  let contentHash := simulateSha256 chunkData
  let compressedHash := simulateSha256 compressed
  let id := tokenId intent num
  let directory := replaceColon intent '/'
  let storePath := s!"/var/lib/airlock/paged/{directory}/{id}.chunk"
  { id := id
    chunkSeq := num
    totalChunks := none
    intent := intent
    fromAint := fromAint
    busSeq := busSeq
    memoryOffset := memoryOffset
    rawSize := chunkData.length
    compressedSize := compressed.length
    contentHash := contentHash
    compressedHash := compressedHash
    ed25519Seal := sealFor contentHash compressedHash intent busSeq
    tibetTokenId := s!"tibet_upip_fork_{num}"
    storage := .archivaris storePath
    state := .pagedOut
    accessCount := 0 }

namespace ForkToken

/-- The seal that `page_in` expects of a token (`upip_pager.rs:480-485`). -/
def expectedSeal (t : ForkToken) : String :=
  sealFor t.contentHash t.compressedHash t.intent t.busSeq

/-- The tokens that `assemble` looks for (`upip_pager.rs:599-601`). -/
def isLive (intent : String) (busSeq : UInt64) (t : ForkToken) : Bool :=
  t.intent == intent && t.busSeq == busSeq &&
    match t.state with
    | .consumed => false
    | .invalid _ => false
    | _ => true

end ForkToken

/-! ## Results -/

/-- `PageOutResult` (`upip_pager.rs:182-197`); `page_out` never returns `NotNeeded`. -/
inductive PageOutResult where
  | success (token : ForkToken) (bytesFreed : Nat)
  | failed (reason : String)
  deriving DecidableEq, Repr

/-- `PageInResult` (`upip_pager.rs:200-222`). -/
inductive PageInResult where
  | success (tokenId : String) (bytesRestored : Nat) (memoryOffset : UInt64)
  | integrityViolation (tokenId expectedHash actualHash : String)
  | tokenNotFound (tokenId : String)
  | alreadyConsumed (tokenId : String)
  deriving DecidableEq, Repr

/-- `AssembleResult` (`upip_pager.rs:225-244`). -/
inductive AssembleResult where
  | complete (totalChunks totalBytes : Nat) (allVerified : Bool)
  | incomplete (present : Nat) (missing : List UInt64)
  | integrityFailed (failedChunk : UInt64) (reason : String)
  deriving DecidableEq, Repr

/-! ## The pager -/

/-- `UpipPager` (`upip_pager.rs:294-310`). -/
structure UpipPager where
  tokens : List ForkToken
  chunkSize : Nat
  nextTokenId : UInt64
  pagesOut : UInt64
  pagesIn : UInt64
  bytesPagedOut : UInt64
  bytesPagedIn : UInt64
  integrityViolations : UInt64
  remoteContinuations : UInt64
  deriving DecidableEq, Repr

namespace UpipPager

/-- `UpipPager::new` (`upip_pager.rs:313-325`). -/
def new (chunkSize : Nat) : UpipPager := ⟨[], chunkSize, 0, 0, 0, 0, 0, 0, 0⟩

/-- The reason that `page_out` gives when there is no room (`upip_pager.rs:384-388`). -/
def limitReached : String := s!"Max paged chunks reached ({maxPagedChunks})"

/-- `page_out` (`upip_pager.rs:368-451`). -/
def pageOut (p : UpipPager) (chunkData : List UInt8) (memoryOffset : UInt64)
    (intent fromAint : String) (busSeq : UInt64) : UpipPager × PageOutResult :=
  if chunkData.isEmpty then (p, .failed "Cannot page out empty chunk")
  else if p.tokens.length ≥ maxPagedChunks then (p, .failed limitReached)
  else
    let token := mint p.nextTokenId chunkData memoryOffset intent fromAint busSeq
    let bytesFreed := chunkData.length
    ({ p with
        nextTokenId := p.nextTokenId + 1
        tokens := p.tokens ++ [token]
        pagesOut := p.pagesOut + 1
        bytesPagedOut := p.bytesPagedOut + UInt64.ofNat bytesFreed },
      .success token bytesFreed)

/-- Change the first token of an id. -/
def updateToken (p : UpipPager) (id : String) (f : ForkToken → ForkToken) : UpipPager :=
  { p with tokens := Registry.update ForkToken.id id f p.tokens }

/-- `page_in` (`upip_pager.rs:457-539`). The state `PagingIn` that it sets on the way is overwritten
before it returns. -/
def pageIn (p : UpipPager) (id : String) : UpipPager × PageInResult :=
  match Registry.lookup ForkToken.id id p.tokens with
  | none => (p, .tokenNotFound id)
  | some token =>
      if token.state = .consumed then (p, .alreadyConsumed id)
      else if token.ed25519Seal ≠ token.expectedSeal then
        let p := p.updateToken id (fun t => { t with state := .invalid "Ed25519 signature mismatch" })
        ({ p with integrityViolations := p.integrityViolations + 1 },
          .integrityViolation id token.expectedSeal token.ed25519Seal)
      else
        let p := p.updateToken id
          (fun t => { t with state := .pagedIn, accessCount := t.accessCount + 1 })
        ({ p with
            pagesIn := p.pagesIn + 1
            bytesPagedIn := p.bytesPagedIn + UInt64.ofNat token.rawSize },
          .success id token.rawSize token.memoryOffset)

/-- `consume` (`upip_pager.rs:543-550`). -/
def consume (p : UpipPager) (id : String) : UpipPager × Bool :=
  match Registry.lookup ForkToken.id id p.tokens with
  | none => (p, false)
  | some _ => (p.updateToken id (fun t => { t with state := .consumed }), true)

/-- The loop of `page_out_bulk` (`upip_pager.rs:565-578`). It fails if it runs for more than `fuel`
rounds. -/
def pageOutLoop (data : List UInt8) (baseOffset : UInt64) (intent fromAint : String)
    (busSeq : UInt64) : Nat → UpipPager → Nat → Option (UpipPager × List PageOutResult)
  | fuel, p, offset =>
      if offset < data.length then
        match fuel with
        | 0 => none
        | fuel + 1 =>
            let chunkEnd := min (offset + p.chunkSize) data.length
            let chunk := (data.take chunkEnd).drop offset
            let (p, result) :=
              p.pageOut chunk (baseOffset + UInt64.ofNat offset) intent fromAint busSeq
            (pageOutLoop data baseOffset intent fromAint busSeq fuel p chunkEnd).map
              (fun (p, results) => (p, result :: results))
      else some (p, [])

/-- `page_out_bulk` (`upip_pager.rs:554-590`). There is no result if it does not return: every round
takes a chunk of at least one byte, unless the chunk size is 0. -/
def pageOutBulk (p : UpipPager) (data : List UInt8) (baseOffset : UInt64) (intent fromAint : String)
    (busSeq : UInt64) : Option (UpipPager × List PageOutResult) :=
  (pageOutLoop data baseOffset intent fromAint busSeq data.length p 0).map (fun (p, results) =>
    let total := UInt64.ofNat results.length
    let startSeq := p.nextTokenId - total
    ({ p with tokens := p.tokens.map (fun t =>
        if t.chunkSeq ≥ startSeq ∧ t.totalChunks = none then { t with totalChunks := some total }
        else t) },
      results))

/-- The loop of `assemble` (`upip_pager.rs:615-635`): the bytes restored, or the sequence number of
the chunk that failed. -/
def assembleLoop : UpipPager → List String → Nat → UpipPager × Except UInt64 Nat
  | p, [], totalBytes => (p, .ok totalBytes)
  | p, id :: ids, totalBytes =>
      match p.pageIn id with
      | (p, .success _ bytesRestored _) =>
          assembleLoop (p.consume id).1 ids (totalBytes + bytesRestored)
      | (p, .integrityViolation _ _ _) =>
          (p, .error (((Registry.lookup ForkToken.id id p.tokens).map ForkToken.chunkSeq).getD 0))
      | (p, _) => assembleLoop p ids totalBytes

/-- `assemble` (`upip_pager.rs:594-645`). -/
def assemble (p : UpipPager) (intent : String) (busSeq : UInt64) : UpipPager × AssembleResult :=
  let tokenIds := (p.tokens.filter (ForkToken.isLive intent busSeq)).map ForkToken.id
  if tokenIds.isEmpty then (p, .incomplete 0 [0])
  else
    match p.assembleLoop tokenIds 0 with
    | (p, .ok totalBytes) => (p, .complete tokenIds.length totalBytes true)
    | (p, .error failedChunk) =>
        (p, .integrityFailed failedChunk "Integrity verification failed during assembly")

/-- `prepare_continuation` (`upip_pager.rs:649-665`). -/
def prepareContinuation (p : UpipPager) (id targetKernel endpoint : String) :
    UpipPager × Option ForkToken :=
  match Registry.lookup ForkToken.id id p.tokens with
  | none => (p, none)
  | some token =>
      let storage := .remoteKernel targetKernel endpoint
      let p := p.updateToken id (fun t => { t with storage })
      ({ p with remoteContinuations := p.remoteContinuations + 1 }, some { token with storage })

/-- `active_tokens` (`upip_pager.rs:687-691`). -/
def activeTokens (p : UpipPager) : Nat := p.tokens.countP (fun t => t.state == .pagedOut)

end UpipPager

/-! ## Runs -/

/-- The operations on a pager. The fields of its tokens are public; somebody may put another seal on
one of them. -/
inductive PagerOp where
  | pageOut (chunkData : List UInt8) (memoryOffset : UInt64) (intent fromAint : String)
      (busSeq : UInt64)
  | pageOutBulk (data : List UInt8) (baseOffset : UInt64) (intent fromAint : String)
      (busSeq : UInt64)
  | pageIn (id : String)
  | consume (id : String)
  | assemble (intent : String) (busSeq : UInt64)
  | prepareContinuation (id targetKernel endpoint : String)
  | tamper (position : Nat) (ed25519Seal : String)
  deriving DecidableEq, Repr

/-- What an operation returns. -/
inductive PagerOutcome where
  | pagedOut (result : PageOutResult)
  | bulk (results : List PageOutResult)
  | diverged
  | pagedIn (result : PageInResult)
  | consumed (found : Bool)
  | assembled (result : AssembleResult)
  | continued (token : Option ForkToken)
  | tampered
  deriving DecidableEq, Repr

/-- Run an operation. -/
def pagerStep (p : UpipPager) : PagerOp → UpipPager × PagerOutcome
  | .pageOut chunkData memoryOffset intent fromAint busSeq =>
      let (p, result) := p.pageOut chunkData memoryOffset intent fromAint busSeq
      (p, .pagedOut result)
  | .pageOutBulk data baseOffset intent fromAint busSeq =>
      match p.pageOutBulk data baseOffset intent fromAint busSeq with
      | none => (p, .diverged)
      | some (p, results) => (p, .bulk results)
  | .pageIn id =>
      let (p, result) := p.pageIn id
      (p, .pagedIn result)
  | .consume id =>
      let (p, found) := p.consume id
      (p, .consumed found)
  | .assemble intent busSeq =>
      let (p, result) := p.assemble intent busSeq
      (p, .assembled result)
  | .prepareContinuation id targetKernel endpoint =>
      let (p, token) := p.prepareContinuation id targetKernel endpoint
      (p, .continued token)
  | .tamper position ed25519Seal =>
      ({ p with tokens := p.tokens.modify position (fun t => { t with ed25519Seal }) }, .tampered)

end Spaceshuttle.Upip
