import Spaceshuttle.Bifurcation.Openers

/-!
# A batch against single opens

A batch looks up all keys before it decrypts anything, and enters none. A sequence of opens enters
keys as it goes and may empty the cache on the way. For sealed blocks both give the same plaintexts
and count the same.
-/

namespace Spaceshuttle.Bifurcation

variable {K : Crypto} {e : AirlockBifurcation} {claim : JisClaim} {block : EncryptedBlock}

/-- `open` on every block, in order. -/
def opens (blocks : List EncryptedBlock) (claim : JisClaim) : List Op :=
  blocks.map (fun block => .openBlock block claim)

/-- What the operations of a run return. -/
def outcomes (K : Crypto) (e : AirlockBifurcation) (ops : List Op) : List Outcome :=
  (Machine.history (exec K) e ops).map Prod.snd

namespace Outcome

/-- The plaintext that `open` returned, if it did. -/
def opened : Outcome → Option (List UInt8)
  | .one result => openedPlaintext result
  | _ => none

/-- `open` returned `AccessDenied`. -/
def isDenied : Outcome → Bool
  | .one (.ok (.accessDenied _ _ _)) => true
  | _ => false

end Outcome

/-! ## One open -/

/-- `open` counts what it returns. -/
theorem openBlock_counts (e : AirlockBifurcation) (block : EncryptedBlock) (claim : JisClaim) :
    (e.openBlock K block claim).1.stats.blocksOpened = e.stats.blocksOpened +
        (if (openedPlaintext (e.openBlock K block claim).2).isSome then 1 else 0) ∧
      (e.openBlock K block claim).1.stats.accessDenied = e.stats.accessDenied +
        (if (Outcome.one (e.openBlock K block claim).2).isDenied then 1 else 0) := by
  have hkey : (e.keyFor K block).1.stats = e.stats := by
    unfold AirlockBifurcation.keyFor
    split <;> rfl
  unfold AirlockBifurcation.openBlock
  split
  · simp [openedPlaintext, Outcome.isDenied]
  · split
    · simp [openedPlaintext, Outcome.isDenied]
    · split
      · simp [openedPlaintext, Outcome.isDenied]
      · simp only
        split
        · simp [openedPlaintext, Outcome.isDenied, hkey]
        · split
          · simp [openedPlaintext, Outcome.isDenied, hkey]
          · simp [openedPlaintext, Outcome.isDenied, hkey]

theorem isDenied_openResult (hvalid : claim.Valid) (systemSecret : Bytes32) :
    (Outcome.one (openResult K systemSecret block claim)).isDenied =
      decide (claim.clearance < block.requiredClearance) := by
  obtain ⟨hid, hlen⟩ := hvalid
  unfold openResult
  rw [if_neg hid, if_neg (not_not.mpr hlen)]
  by_cases hclear : claim.clearance < block.requiredClearance
  · rw [if_pos hclear]
    exact (decide_eq_true hclear).symm
  · rw [if_neg hclear, decide_eq_false hclear]
    cases K.decrypt (K.openKey systemSecret block.ephemeralPub block.blockIndex) block.nonce
      block.ciphertext with
    | none => rfl
    | some plaintext =>
      simp only
      split <;> rfl

/-- A sealed block opens or is refused, whatever the claim. -/
theorem openResult_sealedAs_returns (hK : K.Lawful) {systemSecret : Bytes32} {plaintext : List UInt8}
    (hsealed : SealedAs K systemSecret block plaintext) (claim : JisClaim) :
    ∃ result, openResult K systemSecret block claim = .ok result := by
  refine openResult_returns_iff.mpr fun _ _ => ?_
  rw [Authentic, hK.decrypt_encrypt _ _ _ _ hsealed.encrypted]
  rfl

/-! ## A sequence of opens -/

theorem outcomes_opens (he : Coherent K e) (blocks : List EncryptedBlock) (claim : JisClaim) :
    outcomes K e (opens blocks claim) =
      blocks.map (fun b => .one (openResult K e.systemSecret b claim)) := by
  induction blocks generalizing e with
  | nil => rfl
  | cons b blocks ih =>
    have hrest := ih (openBlock_coherent he b claim)
    rw [show (e.openBlock K b claim).1.systemSecret = e.systemSecret from
      exec_systemSecret K e (.openBlock b claim)] at hrest
    have hhead : (e.openBlock K b claim).2 = openResult K e.systemSecret b claim :=
      openBlock_result he b claim
    rw [List.map_cons, ← hrest, ← hhead]
    rfl

/-- A sequence of opens adds to the counters what its results say. -/
theorem run_opens_counts (e : AirlockBifurcation) (blocks : List EncryptedBlock)
    (claim : JisClaim) :
    (Machine.run (exec K) e (opens blocks claim)).stats.blocksOpened = e.stats.blocksOpened +
        UInt64.ofNat ((outcomes K e (opens blocks claim)).countP (fun o => o.opened.isSome)) ∧
      (Machine.run (exec K) e (opens blocks claim)).stats.accessDenied = e.stats.accessDenied +
        UInt64.ofNat ((outcomes K e (opens blocks claim)).countP Outcome.isDenied) := by
  induction blocks generalizing e with
  | nil => simp [opens, outcomes, Machine.history]
  | cons b blocks ih =>
    obtain ⟨hopened, hdenied⟩ := openBlock_counts (K := K) e b claim
    obtain ⟨ihopened, ihdenied⟩ := ih (e.openBlock K b claim).1
    have hrun : Machine.run (exec K) e (opens (b :: blocks) claim) =
        Machine.run (exec K) (e.openBlock K b claim).1 (opens blocks claim) := rfl
    have hout : outcomes K e (opens (b :: blocks) claim) =
        .one (e.openBlock K b claim).2 :: outcomes K (e.openBlock K b claim).1
          (opens blocks claim) := rfl
    rw [hrun, hout, List.countP_cons, List.countP_cons, ihopened, ihdenied, hopened, hdenied,
      UInt64.ofNat_add, UInt64.ofNat_add]
    constructor
    · rw [UInt64.add_assoc, UInt64.add_comm (UInt64.ofNat _), apply_ite UInt64.ofNat]
      rfl
    · rw [UInt64.add_assoc, UInt64.add_comm (UInt64.ofNat _), apply_ite UInt64.ofNat]
      rfl

/-! ## A batch -/

theorem openBatch_counts (hvalid : claim.Valid) {blocks : List EncryptedBlock}
    {result : BatchOpenResult} (h : (e.openBatch K blocks claim).2 = .ok result) :
    (e.openBatch K blocks claim).1.stats.blocksOpened =
        e.stats.blocksOpened + UInt64.ofNat result.plaintexts.length ∧
      (e.openBatch K blocks claim).1.stats.accessDenied =
        e.stats.accessDenied + UInt64.ofNat result.denied := by
  unfold AirlockBifurcation.openBatch at h ⊢
  rw [if_neg (not_not.mpr hvalid)] at h ⊢
  simp only at h ⊢
  split at h
  · cases h
  · obtain rfl := Except.ok.inj h
    exact ⟨rfl, rfl⟩

/-- For blocks sealed under the system key, with any clearances, and a claim that is accepted, in
every reachable state: single opens in order never panic, both batch openers return the plaintexts
that these opens return and the number of them that was denied, and `open_batch` adds the same to
the two counters. -/
theorem batch_agrees_with_opens (hK : K.Lawful) (ops : List Op) (blocks : List EncryptedBlock)
    (hblocks : ∀ b ∈ blocks, ∃ plaintext, SealedAs K systemSeed b plaintext) (claim : JisClaim)
    (hvalid : claim.Valid) :
    let e := Machine.run (exec K) (AirlockBifurcation.new K) ops
    let single := outcomes K e (opens blocks claim)
    let after := Machine.run (exec K) e (opens blocks claim)
    (∀ outcome ∈ single, ∃ result, outcome = .one (.ok result)) ∧
    (e.openBatch K blocks claim).2 =
      .ok ⟨single.filterMap Outcome.opened, single.countP Outcome.isDenied⟩ ∧
    parallelOpen K blocks claim e.systemSecret =
      .ok ⟨single.filterMap Outcome.opened, single.countP Outcome.isDenied⟩ ∧
    (e.openBatch K blocks claim).1.stats.blocksOpened = after.stats.blocksOpened ∧
    (e.openBatch K blocks claim).1.stats.accessDenied = after.stats.accessDenied := by
  intro e single after
  have he : Coherent K e := run_coherent hK new_coherent ops
  have hsecret : e.systemSecret = systemSeed := run_systemSecret K _ ops
  have hsingle : single = blocks.map (fun b => .one (openResult K e.systemSecret b claim)) :=
    outcomes_opens he blocks claim
  have hreturns : ∀ b ∈ blocks, ∃ result, openResult K e.systemSecret b claim = .ok result := by
    intro b hb
    obtain ⟨plaintext, hsealed⟩ := hblocks b hb
    rw [hsecret]
    exact openResult_sealedAs_returns hK hsealed claim
  obtain ⟨⟨plaintexts, denied⟩, hresult⟩ := parallelOpen_returns_iff.mpr hreturns
  have hplaintexts : plaintexts = single.filterMap Outcome.opened := by
    rw [hsingle, List.filterMap_map]
    exact parallelOpen_plaintexts hresult
  have hdenied : denied = single.countP Outcome.isDenied := by
    rw [show denied = _ from parallelOpen_denied hvalid hresult, hsingle, List.countP_map]
    unfold deniedCount
    exact congrArg (fun p => blocks.countP p)
      (funext fun b => (isDenied_openResult hvalid e.systemSecret).symm)
  subst hplaintexts hdenied
  have hbatch := (openBatch_result he blocks claim).trans hresult
  obtain ⟨hopened, hrefused⟩ := openBatch_counts hvalid hbatch
  obtain ⟨hopened', hrefused'⟩ := run_opens_counts (K := K) e blocks claim
  refine ⟨?_, hbatch, hresult, ?_, ?_⟩
  · rw [hsingle, List.forall_mem_map]
    intro b hb
    obtain ⟨result, hr⟩ := hreturns b hb
    exact ⟨result, by rw [hr]⟩
  · rw [hopened, hopened', List.length_filterMap_eq_countP]
  · rw [hrefused, hrefused']

/-- `hello`, once for `SECRET` and once for `TOP SECRET`. -/
def Demo.mixed : List EncryptedBlock :=
  [Demo.secretHello.block, { Demo.secretHello.block with requiredClearance := .topSecret }]

/-- A claim for `SECRET` opens the first block and is refused the second. -/
theorem batch_agrees_with_opens_mixed :
    let e := Machine.run (exec Demo.crypto) (AirlockBifurcation.new Demo.crypto) Demo.ops
    (e.openBatch Demo.crypto Demo.mixed (Demo.claimAt .secret)).2 = .ok ⟨[Demo.hello], 1⟩ := by
  intro e
  have hsealed : ∀ b ∈ Demo.mixed, ∃ plaintext, SealedAs Demo.crypto systemSeed b plaintext := by
    have hright : Demo.secretHello.Right Demo.crypto systemSeed :=
      run_sealedBlocks Demo.crypto_lawful new_coherent Demo.ops _ Demo.secretHello_mem
    intro b hb
    refine ⟨Demo.hello, ?_⟩
    rcases List.mem_cons.mp hb with rfl | hb
    · exact hright.sealedAs
    · obtain rfl := List.mem_singleton.mp hb
      exact ⟨hright.sealedAs.encrypted, hright.sealedAs.hash⟩
  have hbatch := (batch_agrees_with_opens Demo.crypto_lawful Demo.ops Demo.mixed hsealed
    (Demo.claimAt .secret) (Demo.claimAt_valid .secret)).2.1
  refine hbatch.trans ?_
  rw [outcomes_opens (run_coherent Demo.crypto_lawful new_coherent Demo.ops), run_systemSecret]
  decide

end Spaceshuttle.Bifurcation
