import Spaceshuttle.Cluster.BatchBuffers
import Spaceshuttle.Cluster.QuicBatch
import Spaceshuttle.Cluster.StoreOrder

/-!
# Three ways to fetch

A list of blocks can be fetched by `fetch_batch` over a MUX connection, by one `fetch_block` after
the other, or by `fetch_batch_parallel` over QUIC. The first matches the responses to the requests
by their position, the second by waiting, the third by their stream; the first two pass over the
digest of a block that the cache knows. They agree on a store whose hashes are right, except that
`fetch_batch` returns only if the buffers of its connection have room for the batch.
-/

namespace Spaceshuttle.Cluster

open ByteStream Backpressure

section Each

variable {σ : Type} (P : Peer σ) (libs : MuxLibs)

/-- A `fetch_block` for every request in order, up to the first error. -/
def fetchEach : List (Nat × UInt64) → ClientM σ (List (Nat × List UInt8))
  | [] => pure []
  | (blockIndex, busSeq) :: requests => do
      let data ← fetchBlock P libs blockIndex none busSeq
      let results ← fetchEach requests
      pure ((blockIndex, data) :: results)

end Each

section Agreement

variable {libs : MuxLibs} {m : Contents}

/-- In a store whose hashes are right every block is accepted, whatever the cache knows. -/
theorem available_of_hashed (hhash : Hashed libs.sha256.hex m) (cache : HashCache) (i : Nat) :
    available libs cache m i = (m i).isSome := by
  cases hb : m i with
  | none => simp [available, hb]
  | some b => simp [available, hb, Fetchable, hhash i b hb]

/-- A single fetch returns the data of the block, or an error if there is none. -/
def Fetched (m : Contents) (i : Nat) (result : Except MuxError (List UInt8)) : Prop :=
  (∃ data, (m i).map Prod.fst = some data ∧ result = .ok data) ∨
    (m i = none ∧ ∃ e, result = .error e)

theorem fetched_verdict (hhash : Hashed libs.sha256.hex m) {i : Nat}
    {a : MuxResponse × List UInt8} (h : OwnAnswer m i a) (cache : HashCache) :
    Fetched m i (verdict libs cache i a.1 a.2) := by
  have hverdict := (verdict_own libs h cache).1
  rw [available_of_hashed hhash] at hverdict
  split at hverdict
  · obtain ⟨data, hdata⟩ := hverdict
    exact .inl ⟨data, verdict_own_data libs h hdata, hdata⟩
  · next hnone => exact .inr ⟨by simpa using hnone, hverdict⟩

/-- What follows a method without looking at the world does not change how it ended. -/
theorem resultOf_bind_pure {σ α β : Type} {x : ClientM σ α} {w w' : World σ}
    {result : Except MuxError α} (h : x.run w = resultOf result w') (f : α → β) :
    (x >>= fun a => pure (f a)).run w = resultOf (result.map f) w' := by
  cases result with
  | ok a =>
    rw [bind_ok h]
    rfl
  | error e =>
    rw [bind_error h]
    rfl

/-- The result of a fetch can be read off its outcome. -/
theorem eq_resultOf_of_outcome {r : EStateM.Result Halt (World MuxServer) (List UInt8)}
    {w : World MuxServer} {result : Except MuxError (List UInt8)}
    (h : Call.outcome .fetched r = (w, match result with
      | .ok data => .fetched data
      | .error e => .failed e)) : r = resultOf result w := by
  rcases r with ⟨data, w'⟩ | ⟨e | _, w'⟩ <;> cases result <;> cases h <;> rfl

/-- What the first part of a method has written stays written. -/
theorem grows_after {α β : Type} (x : ClientM MuxServer α) {f : α → ClientM MuxServer β}
    (hf : ∀ a, Along Grows (f a)) (w : World MuxServer) :
    Grows (finalState (x.run w)) (finalState ((x >>= f).run w)) := by
  refine finalState_bind (Grows.refl _) (fun a w' hrun => ?_)
  rw [hrun]
  exact hf a w'

theorem fetchBlock_grows (i : Nat) (expected : Option String) (seq : UInt64) :
    Along Grows (fetchBlock (muxPeer libs) libs i expected seq) := by
  intro w
  rw [← outcome_fst .fetched]
  exact exec_grows w (.fetchBlock i expected seq)

theorem fetchEach_grows (requests : List (Nat × UInt64)) :
    Along Grows (fetchEach (muxPeer libs) libs requests) := by
  induction requests with
  | nil => exact fun w => Grows.refl w
  | cons request requests ih =>
    refine Along.grows_bind (fetchBlock_grows request.1 none request.2) (fun _ => ?_)
    exact Along.grows_bind ih (fun _ => fun w => Grows.refl w)

/-- A fetch by an aligned client gets the block if it is there, and both sides stay in step. -/
theorem fetchBlock_aligned {w : World MuxServer} (h : Aligned w)
    (hhash : Hashed libs.sha256.hex w.peer.store.content) {i : Nat} {seq : UInt64}
    (hwire : ∀ f ∈ (finalState ((fetchBlock (muxPeer libs) libs i none seq).run w)).wire,
      Carried libs f) :
    ∃ result w', (fetchBlock (muxPeer libs) libs i none seq).run w = resultOf result w' ∧
      Fetched w.peer.store.content i result ∧ Aligned w' ∧
      w'.peer.store.content = w.peer.store.content := by
  rw [← outcome_fst .fetched] at hwire
  obtain ⟨w', hexec, hans⟩ :=
    @exec_aligned libs w h (.fetchBlock i none seq) (carriedCall_of_wire h hwire)
  refine ⟨_, w', eq_resultOf_of_outcome hexec,
    fetched_verdict hhash (ownAnswer_answer libs w.peer _ _ i seq) w.client.hashCache,
    hans.aligned h, ?_⟩
  rw [hans.peer]
  exact MuxServer.answer_fetch_content

theorem fetchEach_answers {w : World MuxServer} (h : Aligned w)
    (hhash : Hashed libs.sha256.hex w.peer.store.content) {requests : List (Nat × UInt64)}
    (hwire : ∀ f ∈ (finalState ((fetchEach (muxPeer libs) libs requests).run w)).wire,
      Carried libs f) :
    ∃ result w', (fetchEach (muxPeer libs) libs requests).run w = resultOf result w' ∧
      Answers w.peer.store.content requests result := by
  induction requests generalizing w with
  | nil => exact ⟨.ok [], w, rfl, answers_nil⟩
  | cons request requests ih =>
    obtain ⟨i, seq⟩ := request
    have hfirst : ∀ f ∈ (finalState ((fetchBlock (muxPeer libs) libs i none seq).run w)).wire,
        Carried libs f := by
      refine fun f hf => hwire f (Grows.mem_wire (grows_after _ (fun data => ?_) w) hf)
      exact Along.grows_bind (fetchEach_grows requests) (fun results => fun w => Grows.refl w)
    obtain ⟨result, w', hrun, hresult, haligned, hcontent⟩ := fetchBlock_aligned h hhash hfirst
    rcases hresult with ⟨data, hdata, rfl⟩ | ⟨hnone, e, rfl⟩
    · rw [fetchEach, bind_ok hrun] at hwire ⊢
      have hrest : ∀ f ∈ (finalState ((fetchEach (muxPeer libs) libs requests).run w')).wire,
          Carried libs f := by
        refine fun f hf => hwire f (Grows.mem_wire (grows_after _ (fun results => ?_) w') hf)
        exact fun w => Grows.refl w
      rw [← hcontent] at hhash hdata ⊢
      obtain ⟨result, w'', hrun', hanswers⟩ := ih haligned hhash hrest
      exact ⟨_, w'', resultOf_bind_pure hrun' ((i, data) :: ·), answers_present hdata seq hanswers⟩
    · rw [fetchEach, bind_error hrun]
      exact ⟨.error e, w', rfl, answers_absent hnone seq requests e⟩

theorem fetchBatch_answers {w : World MuxServer} (h : Aligned w)
    (hhash : Hashed libs.sha256.hex w.peer.store.content) {requests : List (Nat × UInt64)}
    (hwire : CarriedBatch libs w requests) :
    ∃ result w', (fetchBatch (muxPeer libs) libs requests).run w = resultOf result w' ∧
      Answers w.peer.store.content requests result := by
  obtain ⟨w', -, hrun⟩ := fetchBatch_run h hwire
  simp only [available_of_hashed hhash, List.all_eq_true] at hrun
  split at hrun
  · next hall =>
    obtain ⟨results, hfetched, hrun⟩ := hrun
    refine ⟨.ok results, w', hrun, ?_⟩
    rw [Answers, if_pos hall]
    exact ⟨results, hfetched, rfl⟩
  · next hall =>
    obtain ⟨e, hrun⟩ := hrun
    refine ⟨.error e, w', hrun, ?_⟩
    rw [Answers, if_neg hall]
    exact ⟨e, rfl⟩

theorem not_waits_resultOf {σ α : Type} (result : Except MuxError α) (w : World σ) :
    ¬ Waits (resultOf result w) := by
  rintro ⟨w', h⟩
  cases result <;> cases h

end Agreement

namespace Demo

/-- The frames of a batch of two blocks and their JSON. -/
def agreementFrames : List (MuxFrame × List UInt8) :=
  batchFrames ++
  [(.fetch 2 2 "root_idd.aint" none 0,
    dump 108
      [0x7b2274797065223a224665746368222c226368616e6e656c5f6964223a322c22,
       0x626c6f636b5f696e646578223a322c2266726f6d5f61696e74223a22726f6f74,
       0x5f6964642e61696e74222c2265787065637465645f68617368223a6e756c6c2c,
       0x226275735f736571223a307d]),
   (.response ⟨2, 200, 2, worldHash, 5, 5, 41, "mux_fetch_2_2", none⟩,
    dump 244
      [0x7b2274797065223a22526573706f6e7365222c226368616e6e656c5f6964223a,
       0x322c22737461747573223a3230302c22626c6f636b5f696e646578223a322c22,
       0x636f6e74656e745f68617368223a223438366561343632323464316262346662,
       0x3638306633346637633961643936613866323465633838626537336561386535,
       0x613663363532363065396362386137222c227061796c6f61645f73697a65223a,
       0x352c227261775f73697a65223a352c227365727665725f6c6174656e63795f75,
       0x73223a34312c2274696265745f746f6b656e5f6964223a226d75785f66657463,
       0x685f325f32222c226572726f72223a6e756c6c7d]),
   (.response ⟨1, 200, 1, helloHash, 5, 5, 40, "quic_fetch_1_1", none⟩,
    dump 245
      [0x7b2274797065223a22526573706f6e7365222c226368616e6e656c5f6964223a,
       0x312c22737461747573223a3230302c22626c6f636b5f696e646578223a312c22,
       0x636f6e74656e745f68617368223a223263663234646261356662306133306532,
       0x3665383362326163356239653239653162313631653563316661373432356537,
       0x333034333336323933386239383234222c227061796c6f61645f73697a65223a,
       0x352c227261775f73697a65223a352c227365727665725f6c6174656e63795f75,
       0x73223a34302c2274696265745f746f6b656e5f6964223a22717569635f666574,
       0x63685f315f31222c226572726f72223a6e756c6c7d]),
   (.response ⟨2, 200, 2, worldHash, 5, 5, 40, "quic_fetch_2_2", none⟩,
    dump 245
      [0x7b2274797065223a22526573706f6e7365222c226368616e6e656c5f6964223a,
       0x322c22737461747573223a3230302c22626c6f636b5f696e646578223a322c22,
       0x636f6e74656e745f68617368223a223438366561343632323464316262346662,
       0x3638306633346637633961643936613866323465633838626537336561386535,
       0x613663363532363065396362386137222c227061796c6f61645f73697a65223a,
       0x352c227261775f73697a65223a352c227365727665725f6c6174656e63795f75,
       0x73223a34302c2274696265745f746f6b656e5f6964223a22717569635f666574,
       0x63685f325f32222c226572726f72223a6e756c6c7d])]

theorem hashed_twoBlocks : Hashed sha256.hex twoBlocks.content := by
  intro i b hb
  rw [content_twoBlocks] at hb
  split at hb
  · cases hb
    rfl
  · split at hb
    · cases hb
      rfl
    · cases hb

/-- A client with a live connection. -/
def quicClient : QuicMuxClient := ⟨"root_idd.aint", true, 1, 0, 0, 0, .new⟩

/-- The two requests arrive in pieces, and the second is answered first. -/
def twoStreams : List (Nat × StreamMove) :=
  [(0, .write), (0, .carry 50), (0, .read), (1, .write), (1, .carry 200), (1, .read),
   (1, .access 40), (1, .reply), (1, .bring 300), (1, .take), (0, .carry 100), (0, .read),
   (0, .access 40), (0, .reply), (0, .bring 100), (0, .take), (0, .bring 200), (0, .take)]

end Demo

section

open Demo

end

namespace Demo

/-- ASCII text as bytes. -/
def text (s : String) : List UInt8 := s.toList.map fun c => UInt8.ofNat c.toNat

/-- A number as `serde_json` writes it. -/
def decimal (n : Nat) : List UInt8 := (Nat.toDigits 10 n).map fun c => UInt8.ofNat c.toNat

/-- A request for block 1 up to its channel. -/
def fetchHead : List UInt8 := text "\x7b\"type\":\"Fetch\",\"channel_id\":"

/-- The rest of it. -/
def fetchTail : List UInt8 :=
  text ",\"block_index\":1,\"from_aint\":\"root_idd.aint\",\"expected_hash\":null,\"bus_seq\":0\x7d"

/-- A request for block 1 on any channel. -/
def fetchJson (ch : UInt32) : List UInt8 := fetchHead ++ (decimal ch.toNat ++ fetchTail)

/-- A response that carries a block; nothing in it is escaped. -/
def responseJson (r : MuxResponse) : List UInt8 :=
  text "\x7b\"type\":\"Response\",\"channel_id\":" ++ decimal r.channelId.toNat ++
  text ",\"status\":" ++ decimal r.status.toNat ++
  text ",\"block_index\":" ++ decimal r.blockIndex ++
  text ",\"content_hash\":\"" ++ text r.contentHash ++
  text "\",\"payload_size\":" ++ decimal r.payloadSize ++
  text ",\"raw_size\":" ++ decimal r.rawSize ++
  text ",\"server_latency_us\":" ++ decimal r.serverLatencyUs.toNat ++
  text ",\"tibet_token_id\":\"" ++ text r.tibetTokenId ++ text "\",\"error\":null\x7d"

/-- The channel of a request for block 1. -/
def channelOf (json : List UInt8) : UInt32 :=
  let digits := (json.drop fetchHead.length).take
    (json.length - (fetchHead.length + fetchTail.length))
  UInt32.ofNat (Nat.ofDigitChars 10 (digits.map fun d => Char.ofNat d.toNat) 0)

/-- `serde_json` on the frames of a batch that fetches block 1 again and again; its responses are
written and not read. -/
def repeatLibs : MuxLibs where
  json :=
    { toVec := fun frame =>
        match frame with
        | .fetch ch _ _ _ _ => fetchJson ch
        | .response r => responseJson r
        | _ => []
      fromSlice := fun json =>
        if json = fetchJson (channelOf json) then
          .ok (.fetch (channelOf json) 1 "root_idd.aint" none 0)
        else .error "expected value at line 1 column 1" }
  sha256 := sha256

theorem channelOf_fetchJson (ch : UInt32) : channelOf (fetchJson ch) = ch := by
  have hdigits : ((fetchJson ch).drop fetchHead.length).take
      ((fetchJson ch).length - (fetchHead.length + fetchTail.length)) = decimal ch.toNat := by
    have hlength : (fetchJson ch).length - (fetchHead.length + fetchTail.length) =
        (decimal ch.toNat).length := by
      simp only [fetchJson, List.length_append]
      omega
    rw [hlength, fetchJson, List.drop_left, List.take_left]
  have hchars : (decimal ch.toNat).map (fun d => Char.ofNat d.toNat) = Nat.toDigits 10 ch.toNat := by
    rw [decimal, List.map_map]
    refine (List.map_congr_left (g := id) (fun c hc => ?_)).trans (List.map_id _)
    have hdigit := Nat.isDigit_of_mem_toDigits (by decide) (by decide) hc
    have hlt : c.toNat < 256 := by
      simp only [Char.isDigit, Bool.and_eq_true, decide_eq_true_eq, UInt32.le_iff_toNat_le] at hdigit
      exact Nat.lt_of_le_of_lt hdigit.2 (by decide)
    simp only [Function.comp, UInt8.toNat_ofNat', Nat.mod_eq_of_lt hlt, Char.ofNat_toNat, id]
  simp only [channelOf, hdigits, hchars, Nat.ofDigitChars_ten_toDigits, UInt32.ofNat_toNat]

theorem carried_fetch (ch : UInt32) :
    Carried repeatLibs (.fetch ch 1 "root_idd.aint" none 0) := by
  refine ⟨?_, ?_⟩
  · simp only [repeatLibs, channelOf_fetchJson, if_true]
  · have hdigits : (Nat.toDigits 10 ch.toNat).length ≤ 10 :=
      (Nat.length_toDigits_le_iff (by decide) (by decide)).mpr
        (ch.toNat_lt.trans (by decide))
    have hends : fetchHead.length + fetchTail.length ≤ 128 := by decide
    simp only [repeatLibs, fetchJson, decimal, List.length_append, List.length_map, maxHeader]
    omega

theorem carried_batch (ch : UInt32) (n : Nat) :
    ∀ e ∈ batchQueue ch (List.replicate n (1, 0)),
      Carried repeatLibs (e.2.frame e.1 "root_idd.aint") := by
  induction n generalizing ch with
  | zero => exact fun e he => absurd he List.not_mem_nil
  | succ n ih => exact List.forall_mem_cons.mpr ⟨carried_fetch ch, ih (ch + 1)⟩

/-- Block 1, as often as it takes to fill 16 MiB in both directions. -/
def longBatch : List (Nat × UInt64) := List.replicate (2 ^ 25 + 2) (1, 0)

end Demo

section

open Demo

end

end Spaceshuttle.Cluster
