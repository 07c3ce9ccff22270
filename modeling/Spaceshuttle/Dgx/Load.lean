import Spaceshuttle.Lib.ShortReads
import Spaceshuttle.Cluster.MuxRefinement
import Spaceshuttle.Llm.Manifest

/-!
# Loading a model

`cmd_load` of `crates/tibet-dgx/src/main.rs`: a file is read block by block; the even blocks stay here
and the odd ones are stored on the remote machine. How often it reads is computed from the size of the
file; what a read returns is up to the file.
-/

namespace Spaceshuttle.Dgx

open Cluster ByteStream ShortReads
open Llm (raidBlockSize)

/-- The number of blocks (`main.rs:167`). -/
def numBlocks (fileSize : Nat) : Nat := (fileSize + raidBlockSize - 1) % 2 ^ 64 / raidBlockSize

/-- What `cmd_load` holds in its store phase, with the world of its client. -/
structure Loader (σ : Type) where
  file : Handle UInt8
  blockHashes : List String
  localStore : List (List UInt8)
  bytesRemote : UInt64
  world : World σ

/-- The start of the store phase (`main.rs:183-187`). -/
def Loader.start {σ : Type} (content : List UInt8) (world : World σ) : Loader σ where
  file := .start content
  blockHashes := []
  localStore := []
  bytesRemote := 0
  world := world

/-- A part of `cmd_load`. An error of the client is unwrapped, and ends it. -/
abbrev LoadM (σ α : Type) := EStateM Halt (Loader σ) α

section Store

variable {σ : Type} (P : Peer σ) (libs : MuxLibs) (S : Source)

/-- One `file.read` into a buffer of a block (`main.rs:190-192`). -/
def readBlock : LoadM σ (List UInt8) := fun s =>
  .ok (read S raidBlockSize s.file).1 { s with file := (read S raidBlockSize s.file).2 }

/-- A method of the client. -/
def onClient {α : Type} (method : ClientM σ α) : LoadM σ α := fun s =>
  match method.run s.world with
  | .ok a w => .ok a { s with world := w }
  | .error halt w => .error halt { s with world := w }

/-- One iteration of the store loop (`main.rs:190-201`). -/
def storeStep (i : Nat) : LoadM σ Unit := do
  let buf ← readBlock S
  let hash := libs.sha256.hex buf
  modify fun s => { s with blockHashes := s.blockHashes ++ [hash] }
  if i % 2 = 0 then
    modify fun s => { s with localStore := s.localStore ++ [buf] }
  else
    onClient (storeBlock P libs i buf hash "tibet-dgx" buf.length (UInt64.ofNat i))
    modify fun s => { s with bytesRemote := s.bytesRemote + UInt64.ofNat buf.length }

/-- The store loop (`main.rs:189-208`). -/
def storeLoop (blocks : Nat) : LoadM σ Unit := (List.range blocks).forM (storeStep P libs S)

end Store

/-- The blocks in order from index `i` on, as the verify phase walks them (`main.rs:220-228`): the next
one kept here for an even index, the one stored remotely for an odd index. -/
def assembleFrom (remote : Nat → Option (List UInt8)) : Nat → List (List UInt8) → Nat → List UInt8
  | _, _, 0 => []
  | i, localStore, blocks + 1 =>
      if i % 2 = 0 then
        localStore.headD [] ++ assembleFrom remote (i + 1) localStore.tail blocks
      else (remote i).getD [] ++ assembleFrom remote (i + 1) localStore blocks

/-- The bytes that are kept here and in the remote store, in block order. -/
def Loader.assembled (s : Loader MuxServer) (blocks : Nat) : List UInt8 :=
  assembleFrom (fun i => (s.world.peer.store.content i).map Prod.fst) 0 s.localStore blocks

/-! ## Where the blocks go -/

section Blocks

variable (hex : List UInt8 → String)

/-- The blocks that are kept, of blocks from index `i` on. -/
def localBlocks : Nat → List (List UInt8) → List (List UInt8)
  | _, [] => []
  | i, buf :: bufs => if i % 2 = 0 then buf :: localBlocks (i + 1) bufs else localBlocks (i + 1) bufs

/-- The call that stores a block remotely (`main.rs:199`). -/
def remoteCall (i : Nat) (buf : List UInt8) : Call :=
  .storeBlock i buf (hex buf) "tibet-dgx" buf.length (UInt64.ofNat i)

/-- The calls for the other blocks. -/
def remoteCalls : Nat → List (List UInt8) → List Call
  | _, [] => []
  | i, buf :: bufs =>
      if i % 2 = 0 then remoteCalls (i + 1) bufs else remoteCall hex i buf :: remoteCalls (i + 1) bufs

theorem localBlocks_cons (i : Nat) (buf : List UInt8) (bufs : List (List UInt8)) :
    localBlocks i (buf :: bufs) = localBlocks i [buf] ++ localBlocks (i + 1) bufs := by
  by_cases heven : i % 2 = 0 <;> simp [localBlocks, heven]

theorem remoteCalls_cons (i : Nat) (buf : List UInt8) (bufs : List (List UInt8)) :
    remoteCalls hex i (buf :: bufs) = remoteCalls hex i [buf] ++ remoteCalls hex (i + 1) bufs := by
  by_cases heven : i % 2 = 0 <;> simp [remoteCalls, heven]

theorem mem_remoteCalls {i : Nat} {bufs : List (List UInt8)} {c : Call}
    (hc : c ∈ remoteCalls hex i bufs) : ∃ j buf, c = remoteCall hex j buf := by
  induction bufs generalizing i with
  | nil => cases hc
  | cons buf bufs ih =>
    rw [remoteCalls] at hc
    split at hc
    · exact ih hc
    · rcases List.mem_cons.mp hc with rfl | hc
      · exact ⟨i, buf, rfl⟩
      · exact ih hc

theorem apply_remoteCall (m : Contents) (i : Nat) (buf : List UInt8) :
    Call.apply hex m (remoteCall hex i buf) =
      (Function.update m i (some (buf, hex buf, buf.length)), .stored) := by
  simp only [remoteCall, Call.apply, if_pos]

/-- On the map, every one of these calls succeeds. -/
theorem history_remoteCalls {m : Contents} {i : Nat} {bufs : List (List UInt8)} :
    ∀ e ∈ Machine.history (Call.apply hex) m (remoteCalls hex i bufs), e.2 = .stored := by
  induction bufs generalizing m i with
  | nil => exact fun e he => nomatch he
  | cons buf bufs ih =>
    unfold remoteCalls
    split
    · exact ih
    · intro e he
      rw [Machine.history, apply_remoteCall] at he
      rcases List.mem_cons.mp he with rfl | he
      · rfl
      · exact ih e he

/-- What is stored before index `i` stays. -/
theorem run_remoteCalls_of_lt {m : Contents} {i j : Nat} (hj : j < i) {bufs : List (List UInt8)} :
    Machine.run (Call.apply hex) m (remoteCalls hex i bufs) j = m j := by
  induction bufs generalizing m i with
  | nil => rfl
  | cons buf bufs ih =>
    have hlater : j < i + 1 := Nat.lt_succ_of_lt hj
    unfold remoteCalls
    split
    · exact ih hlater
    · rw [Machine.run_cons, apply_remoteCall, ih hlater]
      exact Function.update_of_ne (Nat.ne_of_lt hj) _ _

/-- Put together again, the blocks are the chunks in order. -/
theorem assembleFrom_blocks {m : Contents} {i : Nat} {bufs : List (List UInt8)} :
    assembleFrom
        (fun j => (Machine.run (Call.apply hex) m (remoteCalls hex i bufs) j).map Prod.fst)
        i (localBlocks i bufs) bufs.length = bufs.flatten := by
  induction bufs generalizing m i with
  | nil => rfl
  | cons buf bufs ih =>
    rw [List.length_cons, assembleFrom, List.flatten_cons]
    by_cases heven : i % 2 = 0
    · simp only [localBlocks, remoteCalls, if_pos heven]
      rw [List.headD_cons, List.tail_cons, ih]
    · simp only [localBlocks, remoteCalls, if_neg heven, Machine.run_cons, apply_remoteCall]
      rw [ih, run_remoteCalls_of_lt hex (Nat.lt_succ_self i), Function.update_self]
      rfl

end Blocks

/-! ## The loop -/

section Loop

variable {σ : Type} {P : Peer σ} {libs : MuxLibs} {S : Source}

theorem onClient_ok {α : Type} {method : ClientM σ α} {s : Loader σ} {a : α} {w : World σ}
    (h : method.run s.world = .ok a w) : (onClient method).run s = .ok a { s with world := w } := by
  unfold onClient
  simp only [EStateM.run] at h ⊢
  rw [h]

/-- A call of `store_block` that succeeds returns. -/
theorem storeBlock_of_stored {w w' : World σ} {i : Nat} {data : List UInt8} {hash edSeal : String}
    {rawSize : Nat} {seq : UInt64}
    (h : Call.exec P libs w (.storeBlock i data hash edSeal rawSize seq) = (w', .stored)) :
    (storeBlock P libs i data hash edSeal rawSize seq).run w = .ok () w' := by
  change Call.outcome (fun _ => .stored) ((storeBlock P libs i data hash edSeal rawSize seq).run w) =
    (w', .stored) at h
  cases hrun : (storeBlock P libs i data hash edSeal rawSize seq).run w with
  | ok a w₁ =>
    rw [hrun] at h
    exact congrArg _ (congrArg Prod.fst h)
  | error halt w₁ =>
    rw [hrun] at h
    cases halt <;> cases h

/-- What the loop has done with blocks from index `i` on. -/
structure Placed (P : Peer σ) (libs : MuxLibs) (i : Nat) (bufs : List (List UInt8))
    (s s' : Loader σ) : Prop where
  blockHashes : s'.blockHashes = s.blockHashes ++ bufs.map libs.sha256.hex
  localStore : s'.localStore = s.localStore ++ localBlocks i bufs
  world : s'.world =
    Machine.run (Call.exec P libs) s.world (remoteCalls libs.sha256.hex i bufs)

theorem placed_nil (i : Nat) (s : Loader σ) : Placed P libs i [] s s :=
  ⟨(List.append_nil _).symm, (List.append_nil _).symm, rfl⟩

theorem Placed.cons {i : Nat} {buf : List UInt8} {bufs : List (List UInt8)} {s s₁ s' : Loader σ}
    (h₁ : Placed P libs i [buf] s s₁) (h₂ : Placed P libs (i + 1) bufs s₁ s') :
    Placed P libs i (buf :: bufs) s s' := by
  obtain ⟨hhashes, hlocal, hworld⟩ := h₁
  constructor
  · rw [h₂.blockHashes, hhashes, List.append_assoc]
    rfl
  · rw [h₂.localStore, hlocal, List.append_assoc, ← localBlocks_cons]
  · rw [h₂.world, hworld, ← Machine.run_append, ← remoteCalls_cons]

theorem readBlock_run {s : Loader σ} {buf : List UInt8} {file : Handle UInt8}
    (h : read S raidBlockSize s.file = (buf, file)) :
    (readBlock S).run s = .ok buf { s with file := file } := by
  have hrun : (readBlock S).run s = .ok (read S raidBlockSize s.file).1
      { s with file := (read S raidBlockSize s.file).2 } := rfl
  rw [hrun, h]

/-- One iteration, when its call to the remote store succeeds, if it makes one. -/
theorem storeStep_run {i : Nat} {s : Loader σ} {buf : List UInt8} {file : Handle UInt8}
    (hread : read S raidBlockSize s.file = (buf, file))
    (hstored : ∀ e ∈ Machine.history (Call.exec P libs) s.world (remoteCalls libs.sha256.hex i [buf]),
      e.2 = .stored) :
    ∃ s', (storeStep P libs S i).run s = .ok () s' ∧ s'.file = file ∧ Placed P libs i [buf] s s' := by
  unfold storeStep
  rw [bind_ok (readBlock_run hread)]
  by_cases heven : i % 2 = 0
  · simp only [if_pos heven]
    refine ⟨_, rfl, rfl, rfl, ?_, ?_⟩
    · simp only [localBlocks, if_pos heven]
    · simp only [remoteCalls, if_pos heven, Machine.run_nil]
  · simp only [remoteCalls, if_neg heven, Machine.history, List.forall_mem_singleton] at hstored
    obtain ⟨w, hexec⟩ : ∃ w, Call.exec P libs s.world (remoteCall libs.sha256.hex i buf) =
        (w, .stored) := ⟨_, Prod.ext rfl hstored⟩
    have hclient : ∀ hashes : List String,
        (onClient (storeBlock P libs i buf (libs.sha256.hex buf) "tibet-dgx" buf.length
          (UInt64.ofNat i))).run { s with file := file, blockHashes := hashes } =
        .ok () { s with file := file, blockHashes := hashes, world := w } :=
      fun _ => onClient_ok (storeBlock_of_stored hexec)
    simp only [if_neg heven]
    rw [bind_ok (EStateM.run_modify _ _), bind_ok (hclient _)]
    refine ⟨_, rfl, rfl, rfl, ?_, ?_⟩
    · simp only [localBlocks, if_neg heven, List.append_nil]
    · simp only [remoteCalls, if_neg heven, Machine.run_cons, Machine.run_nil, hexec]

/-- The loop over `k` indices from `i` on, when every call to the remote store succeeds. -/
theorem storeLoop_run {k i : Nat} {s : Loader σ}
    (hstored : ∀ e ∈ Machine.history (Call.exec P libs) s.world
      (remoteCalls libs.sha256.hex i (chunks S raidBlockSize k s.file)), e.2 = .stored) :
    ∃ s', ((List.range' i k).forM (storeStep P libs S)).run s = .ok () s' ∧
      Placed P libs i (chunks S raidBlockSize k s.file) s s' := by
  induction k generalizing i s with
  | zero => exact ⟨s, rfl, placed_nil i s⟩
  | succ k ih =>
    rw [chunks, remoteCalls_cons, Machine.history_append, List.forall_mem_append] at hstored
    obtain ⟨s₁, hstep, hfile, hplaced⟩ := storeStep_run (Prod.mk.eta).symm hstored.1
    rw [← hplaced.world, ← hfile] at hstored
    obtain ⟨s', hrun, hrest⟩ := ih hstored.2
    refine ⟨s', ?_, ?_⟩
    · rw [List.range'_succ, ← hrun]
      exact bind_ok hstep
    · rw [hfile] at hrest
      exact hplaced.cons hrest

end Loop

/-! ## The remote machine -/

section Remote

variable {libs : MuxLibs} {w : World MuxServer}

/-- A client that is in step with the handler stores a block. -/
theorem exec_remoteCall (h : Aligned w) {i : Nat} {buf : List UInt8}
    (hc : CarriedCall libs w (remoteCall libs.sha256.hex i buf)) :
    ∃ w', Call.exec (muxPeer libs) libs w (remoteCall libs.sha256.hex i buf) = (w', .stored) ∧
      Aligned w' ∧ w'.peer.store.content =
        Function.update w.peer.store.content i (some (buf, libs.sha256.hex buf, buf.length)) := by
  obtain ⟨w', hexec, hans⟩ := exec_aligned h hc
  have hanswer : w.answer libs (remoteCall libs.sha256.hex i buf) =
      (w.peer.storeOk w.client.nextChannel i (libs.sha256.hex buf) buf.length buf.length, [],
        w.peer.store.store i buf (libs.sha256.hex buf) "tibet-dgx" buf.length w.client.fromAint
          (UInt64.ofNat i)) := by
    simp [remoteCall, MuxServer.answer]
  refine ⟨w', ?_, hans.aligned h, ?_⟩
  · rw [hexec, hanswer]
    rfl
  · have hstore : w'.peer.store = (w.answer libs (remoteCall libs.sha256.hex i buf)).2.2 := by
      rw [hans.peer]
      rfl
    rw [hstore, hanswer]
    funext j
    rw [BlockStore.content_store, Function.update_apply]

/-- The store holds what the map holds. -/
structure InStep (w : World MuxServer) (m : Contents) : Prop where
  aligned : Aligned w
  contents : w.peer.store.content = m

/-- In step with the handler, the calls do to the store what they do to the map. -/
theorem run_remoteCalls {m : Contents} (h : InStep w m) {i : Nat} {bufs : List (List UInt8)}
    (hwire : ∀ f ∈ (Machine.run (Call.exec (muxPeer libs) libs) w
      (remoteCalls libs.sha256.hex i bufs)).wire, Carried libs f) :
    InStep (Machine.run (Call.exec (muxPeer libs) libs) w (remoteCalls libs.sha256.hex i bufs))
        (Machine.run (Call.apply libs.sha256.hex) m (remoteCalls libs.sha256.hex i bufs)) ∧
      Machine.history (Call.exec (muxPeer libs) libs) w (remoteCalls libs.sha256.hex i bufs) =
        Machine.history (Call.apply libs.sha256.hex) m (remoteCalls libs.sha256.hex i bufs) := by
  apply Machine.run_simulates h
  rintro pre c post hcalls m' ⟨haligned, rfl⟩
  obtain ⟨j, buf, rfl⟩ := mem_remoteCalls libs.sha256.hex
    (hcalls ▸ List.mem_append_right pre List.mem_cons_self)
  have hc : CarriedCall libs (Machine.run (Call.exec (muxPeer libs) libs) w pre)
      (remoteCall libs.sha256.hex j buf) := by
    apply carriedCall_of_wire haligned
    intro f hf
    apply hwire f
    rw [hcalls, Machine.run_append, Machine.run_cons]
    exact (run_grows _ post).mem_wire hf
  obtain ⟨w', hexec, haligned', hcontent⟩ := exec_remoteCall haligned hc
  rw [hexec, apply_remoteCall]
  exact ⟨⟨haligned', hcontent⟩, rfl⟩

end Remote

/-! ## What is loaded -/

/-- The world of the store phase: the client of a remote machine, which has been pinged
(`main.rs:177-180`). -/
def connected (libs : MuxLibs) (ramB : MuxServer) : World MuxServer :=
  (Call.exec (muxPeer libs) libs (.new "tibet-dgx.aint" ramB) .ping).1

/-- The frames of the load: the ping, and the stores of `k` blocks of the file. -/
def loadFrames (libs : MuxLibs) (ramB : MuxServer) (S : Source) (content : List UInt8) (k : Nat) :
    List MuxFrame :=
  (Machine.run (Call.exec (muxPeer libs) libs) (.new "tibet-dgx.aint" ramB)
    (.ping :: remoteCalls libs.sha256.hex 0 (chunks S raidBlockSize k (.start content)))).wire

section Load

variable {libs : MuxLibs} {store : BlockStore} {kernelAint : String} {latencyUs : Nat → UInt64}

/-- The loop ends, and what it leaves in both places is what the reads returned. -/
theorem storeLoop_assembled (S : Source) (content : List UInt8) (k : Nat)
    (hframes : ∀ f ∈ loadFrames libs (.new store kernelAint latencyUs) S content k, Carried libs f) :
    ∃ s, (storeLoop (muxPeer libs) libs S k).run
        (.start content (connected libs (.new store kernelAint latencyUs))) = .ok () s ∧
      s.assembled k = (chunks S raidBlockSize k (.start content)).flatten := by
  have hnew := aligned_new "tibet-dgx.aint" store kernelAint latencyUs
  rw [loadFrames, Machine.run_cons] at hframes
  have hping : CarriedCall libs _ .ping :=
    carriedCall_of_wire hnew fun f hf => hframes f ((run_grows _ _).mem_wire hf)
  have haligned : Aligned (connected libs (.new store kernelAint latencyUs)) := by
    obtain ⟨w, hexec, hans⟩ := exec_aligned hnew hping
    rw [connected, hexec]
    exact hans.aligned hnew
  obtain ⟨hinstep, hhistory⟩ := run_remoteCalls ⟨haligned, rfl⟩ hframes
  obtain ⟨s, hrun, hplaced⟩ := storeLoop_run
    (s := .start content (connected libs (.new store kernelAint latencyUs))) (hhistory ▸
      history_remoteCalls libs.sha256.hex)
  refine ⟨s, ?_, ?_⟩
  · rw [storeLoop, List.range_eq_range']
    exact hrun
  · have hlocal : s.localStore = localBlocks 0 (chunks S raidBlockSize k (.start content)) :=
      hplaced.localStore
    have hlength : (chunks S raidBlockSize k (.start content)).length = k := length_chunks _ _ k _
    unfold Loader.assembled
    rw [hplaced.world, hlocal, ← assembleFrom_blocks libs.sha256.hex, hlength]
    exact congrArg (fun m : Contents => assembleFrom (fun j => (m j).map Prod.fst) 0 _ k) hinstep.contents

/-- The loop loses nothing exactly if the file and what its reads fall short of a block leave no more
than `numBlocks` blocks to fill. -/
theorem load_complete_iff (S : Source) (content : List UInt8)
    (hframes : ∀ f ∈ loadFrames libs (.new store kernelAint latencyUs) S content
      (numBlocks content.length), Carried libs f) :
    ∃ s, (storeLoop (muxPeer libs) libs S (numBlocks content.length)).run
        (.start content (connected libs (.new store kernelAint latencyUs))) = .ok () s ∧
      (s.assembled (numBlocks content.length) = content ↔
        content.length +
            shortfall raidBlockSize (chunks S raidBlockSize (numBlocks content.length) (.start content)) ≤
          numBlocks content.length * raidBlockSize) := by
  obtain ⟨s, hrun, hassembled⟩ := storeLoop_assembled S content _ hframes
  refine ⟨s, hrun, ?_⟩
  rw [hassembled]
  exact flatten_chunks_eq_iff _ _

/-- The blocks have room for the file, unless its size is within a block of `2 ^ 64`. -/
theorem length_le_numBlocks {size : Nat} (hsize : size + raidBlockSize - 1 < 2 ^ 64) :
    size ≤ numBlocks size * raidBlockSize := by
  unfold numBlocks
  rw [Nat.mod_eq_of_lt hsize]
  have hdiv := Nat.div_add_mod (size + raidBlockSize - 1) raidBlockSize
  have hmod : (size + raidBlockSize - 1) % raidBlockSize < raidBlockSize := Nat.mod_lt _ (by decide)
  rw [Nat.mul_comm] at hdiv
  omega

/-- A file whose reads return as much as they can is loaded completely. -/
theorem load_complete_of_full (content : List UInt8) (hsize : content.length + raidBlockSize - 1 < 2 ^ 64)
    (hframes : ∀ f ∈ loadFrames libs (.new store kernelAint latencyUs) .full content
      (numBlocks content.length), Carried libs f) :
    ∃ s, (storeLoop (muxPeer libs) libs .full (numBlocks content.length)).run
        (.start content (connected libs (.new store kernelAint latencyUs))) = .ok () s ∧
      s.assembled (numBlocks content.length) = content := by
  obtain ⟨s, hrun, hassembled⟩ := storeLoop_assembled .full content _ hframes
  refine ⟨s, hrun, ?_⟩
  rw [hassembled]
  exact flatten_chunks_full (length_le_numBlocks hsize)

end Load

/-! ## A file of two blocks, and one of five bytes -/

namespace Demo

open Cluster.Demo

/-- A source that returns one byte a call. -/
def oneByte : Source where
  count := fun _ requested left => min 1 (min requested left)
  count_le := fun _ _ _ => Nat.min_le_right _ _
  count_pos := fun _ _ _ hrequested hleft =>
    Nat.lt_min.mpr ⟨Nat.one_pos, Nat.lt_min.mpr ⟨hrequested, hleft⟩⟩

/-- The frames of a load that stores nothing remotely, and their JSON. -/
def pingFrames : List (MuxFrame × List UInt8) :=
  [(.ping 1 "tibet-dgx.aint",
    dump 59
      [0x7b2274797065223a2250696e67222c226368616e6e656c5f6964223a312c2266,
       0x726f6d5f61696e74223a2274696265742d6467782e61696e74227d]),
   (.response ⟨1, 200, 0, "", 0, 0, 40, "mux_pong_ram-b.aint", none⟩,
    dump 186
      [0x7b2274797065223a22526573706f6e7365222c226368616e6e656c5f6964223a,
       0x312c22737461747573223a3230302c22626c6f636b5f696e646578223a302c22,
       0x636f6e74656e745f68617368223a22222c227061796c6f61645f73697a65223a,
       0x302c227261775f73697a65223a302c227365727665725f6c6174656e63795f75,
       0x73223a34302c2274696265745f746f6b656e5f6964223a226d75785f706f6e67,
       0x5f72616d2d622e61696e74222c226572726f72223a6e756c6c7d])]

/-- A remote machine that has just started. -/
def ramB : MuxServer := .new .new "ram-b.aint" latencyUs

/-- The frames of a load that stores block 1 remotely. -/
def twoBlockFrames : List (MuxFrame × List UInt8) :=
  pingFrames ++
  [(.store 2 1 "tibet-dgx.aint" 5 5 helloHash "tibet-dgx" 1,
    dump 227
      [0x7b2274797065223a2253746f7265222c226368616e6e656c5f6964223a322c22,
       0x626c6f636b5f696e646578223a312c2266726f6d5f61696e74223a2274696265,
       0x742d6467782e61696e74222c227061796c6f61645f73697a65223a352c227261,
       0x775f73697a65223a352c22636f6e74656e745f68617368223a22326366323464,
       0x6261356662306133306532366538336232616335623965323965316231363165,
       0x3563316661373432356537333034333336323933386239383234222c22656432,
       0x353531395f7365616c223a2274696265742d646778222c226275735f73657122,
       0x3a317d]),
   (.response ⟨2, 200, 1, helloHash, 5, 5, 41, "mux_store_1_2", none⟩,
    dump 244
      [0x7b2274797065223a22526573706f6e7365222c226368616e6e656c5f6964223a,
       0x322c22737461747573223a3230302c22626c6f636b5f696e646578223a312c22,
       0x636f6e74656e745f68617368223a223263663234646261356662306133306532,
       0x3665383362326163356239653239653162313631653563316661373432356537,
       0x333034333336323933386239383234222c227061796c6f61645f73697a65223a,
       0x352c227261775f73697a65223a352c227365727665725f6c6174656e63795f75,
       0x73223a34312c2274696265745f746f6b656e5f6964223a226d75785f73746f72,
       0x655f315f32222c226572726f72223a6e756c6c7d])]

/-- A source whose first call returns three bytes less than a block. -/
def shortFirst : Source where
  count := fun call requested left =>
    if call = 0 then min 2097149 (min requested left) else min requested left
  count_le := fun call _ _ => by
    split
    · exact Nat.min_le_right _ _
    · exact Nat.le_refl _
  count_pos := fun call requested left hrequested hleft => by
    split
    · exact Nat.lt_min.mpr ⟨by decide, Nat.lt_min.mpr ⟨hrequested, hleft⟩⟩
    · exact Nat.lt_min.mpr ⟨hrequested, hleft⟩

/-- A file two bytes longer than a block. -/
def twoBlockFile : List UInt8 := List.replicate 2097149 0 ++ hello

theorem length_twoBlockFile : twoBlockFile.length = 2097154 := by
  simp only [twoBlockFile, List.length_append, List.length_replicate]
  rfl

theorem chunks_twoBlockFile : chunks shortFirst raidBlockSize 2 (.start twoBlockFile) =
    [List.replicate 2097149 0, hello] := by
  have hcount : shortFirst.count 0 raidBlockSize twoBlockFile.length = 2097149 := by
    rw [length_twoBlockFile]
    decide
  have htake : twoBlockFile.take 2097149 = List.replicate 2097149 0 :=
    List.take_left' List.length_replicate
  have hdrop : twoBlockFile.drop 2097149 = hello := List.drop_left' List.length_replicate
  have hfirst : ShortReads.read shortFirst raidBlockSize (.start twoBlockFile) =
      (List.replicate 2097149 0, ⟨hello, 1⟩) := by
    simp only [ShortReads.read, Handle.start, hcount, htake, hdrop]
  rw [chunks, chunks, chunks, hfirst]
  rfl

/-- The second call gets the rest of the first block and the second, and the remote machine stores
both. -/
theorem load_complete_iff_hello : ∃ s,
    (storeLoop (muxPeer (libs twoBlockFrames)) (libs twoBlockFrames) shortFirst 2).run
        (.start twoBlockFile (connected (libs twoBlockFrames) ramB)) = .ok () s ∧
      s.assembled 2 = twoBlockFile := by
  have hblocks : numBlocks twoBlockFile.length = 2 := by
    rw [length_twoBlockFile]
    decide
  have hframes : ∀ f ∈ loadFrames (libs twoBlockFrames) ramB shortFirst twoBlockFile 2,
      Carried (libs twoBlockFrames) f := by
    rw [loadFrames, chunks_twoBlockFile]
    show ∀ f ∈ (Machine.run (Call.exec (muxPeer (libs twoBlockFrames)) (libs twoBlockFrames))
      (.new "tibet-dgx.aint" ramB) [.ping, remoteCall (libs twoBlockFrames).sha256.hex 1 hello]).wire,
        Carried (libs twoBlockFrames) f
    decide +kernel
  have hcomplete := load_complete_iff shortFirst twoBlockFile (hblocks.symm ▸ hframes)
  rw [hblocks, length_twoBlockFile, chunks_twoBlockFile] at hcomplete
  obtain ⟨s, hrun, hiff⟩ := hcomplete
  refine ⟨s, hrun, hiff.mpr ?_⟩
  simp only [shortfall, List.map_cons, List.map_nil, List.length_replicate, List.sum_cons,
    List.sum_nil]
  decide

/-- Only the first of the five bytes is read. -/
theorem short_read_loses_bytes : ∃ s,
    (storeLoop (muxPeer (libs pingFrames)) (libs pingFrames) oneByte (numBlocks hello.length)).run
        (.start hello (connected (libs pingFrames) ramB)) = .ok () s ∧
      s.assembled (numBlocks hello.length) ≠ hello :=
  ⟨_, rfl, by decide⟩

end Demo

end Spaceshuttle.Dgx
