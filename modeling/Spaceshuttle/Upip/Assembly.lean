import Mathlib.Algebra.BigOperators.Group.List.Basic
import Spaceshuttle.Upip.Tokens

/-!
# Assembling a task

When the ids are distinct, `assemble` restores and consumes exactly the live tokens of the task, if
all of them carry their seal; otherwise it stops at the first that does not.
-/

namespace Spaceshuttle.Upip

open UpipPager

/-- The seal is the one over what the token was minted with. -/
def ForkToken.Sealed (t : ForkToken) : Prop := t.ed25519Seal = t.expectedSeal

instance (t : ForkToken) : Decidable t.Sealed := inferInstanceAs (Decidable (_ = _))

/-- A token that was paged in once more and consumed. -/
def ForkToken.restored (t : ForkToken) : ForkToken :=
  { t with state := .consumed, accessCount := t.accessCount + 1 }

theorem ForkToken.isLive_iff {intent : String} {busSeq : UInt64} {t : ForkToken} :
    t.isLive intent busSeq = true ↔ t.intent = intent ∧ t.busSeq = busSeq ∧
      t.state ≠ .consumed ∧ ∀ reason, t.state ≠ .invalid reason := by
  unfold ForkToken.isLive
  rw [Bool.and_eq_true, Bool.and_eq_true, beq_iff_eq, beq_iff_eq, and_assoc]
  cases t.state <;> simp

/-! ## By id -/

section ById

variable {p : UpipPager} {t : ForkToken}

theorem updateToken_tokens (hids : (p.tokens.map ForkToken.id).Nodup) (id : String)
    (f : ForkToken → ForkToken) :
    (p.updateToken id f).tokens = p.tokens.map (fun u => if u.id = id then f u else u) :=
  Registry.update_eq_map hids

theorem pageIn_of_sealed (hids : (p.tokens.map ForkToken.id).Nodup) (ht : t ∈ p.tokens)
    (hstate : t.state ≠ .consumed) (hseal : t.ed25519Seal = t.expectedSeal) :
    (p.pageIn t.id).1.tokens = p.tokens.map (fun u =>
        if u.id = t.id then { u with state := .pagedIn, accessCount := u.accessCount + 1 }
        else u) ∧
      (p.pageIn t.id).2 = .success t.id t.rawSize t.memoryOffset := by
  unfold UpipPager.pageIn
  rw [Registry.lookup_of_mem hids ht]
  dsimp only
  rw [if_neg hstate, if_neg (not_not_intro hseal)]
  exact ⟨updateToken_tokens hids _ _, rfl⟩

/-- A `page_in` that finds a wrong seal takes the token out of use. -/
theorem pageIn_of_not_sealed (hids : (p.tokens.map ForkToken.id).Nodup) (ht : t ∈ p.tokens)
    (hstate : t.state ≠ .consumed) (hseal : t.ed25519Seal ≠ t.expectedSeal) :
    (p.pageIn t.id).1.tokens = p.tokens.map (fun u =>
        if u.id = t.id then { u with state := .invalid "Ed25519 signature mismatch" } else u) ∧
      (p.pageIn t.id).2 = .integrityViolation t.id t.expectedSeal t.ed25519Seal := by
  unfold UpipPager.pageIn
  rw [Registry.lookup_of_mem hids ht]
  dsimp only
  rw [if_neg hstate, if_pos hseal]
  exact ⟨updateToken_tokens hids _ _, rfl⟩

theorem consume_of_mem (hids : (p.tokens.map ForkToken.id).Nodup) (ht : t ∈ p.tokens) :
    (p.consume t.id).1.tokens =
      p.tokens.map (fun u => if u.id = t.id then { u with state := .consumed } else u) := by
  unfold UpipPager.consume
  rw [Registry.lookup_of_mem hids ht]
  exact updateToken_tokens hids _ _

theorem map_id_map {f : ForkToken → ForkToken} (hf : ∀ u, (f u).id = u.id) (l : List ForkToken) :
    (l.map f).map ForkToken.id = l.map ForkToken.id := by
  rw [List.map_map]
  exact List.map_congr_left fun u _ => hf u

end ById

/-! ## The loop -/

section Loop

variable {p : UpipPager}

/-- One round of the loop on a token that carries its seal. -/
theorem assembleLoop_cons (hids : (p.tokens.map ForkToken.id).Nodup) {t : ForkToken}
    (ht : t ∈ p.tokens) (hstate : t.state ≠ .consumed) (hseal : t.Sealed) (ids : List String)
    (totalBytes : Nat) :
    ∃ p₁ : UpipPager, p.assembleLoop (t.id :: ids) totalBytes =
        p₁.assembleLoop ids (totalBytes + t.rawSize) ∧
      p₁.tokens = p.tokens.map (fun u => if u.id = t.id then u.restored else u) := by
  obtain ⟨htokens, hresult⟩ := pageIn_of_sealed hids ht hstate hseal
  rw [UpipPager.assembleLoop]
  rcases heq : p.pageIn t.id with ⟨p₁, result⟩
  rw [heq] at htokens hresult
  cases hresult
  refine ⟨_, rfl, ?_⟩
  dsimp only at htokens
  have hids₁ : (p₁.tokens.map ForkToken.id).Nodup := by
    rw [htokens, map_id_map fun u => by split <;> rfl]
    exact hids
  have ht₁ : { t with state := .pagedIn, accessCount := t.accessCount + 1 } ∈ p₁.tokens := by
    rw [htokens]
    exact List.mem_map.mpr ⟨t, ht, if_pos rfl⟩
  rw [consume_of_mem hids₁ ht₁, htokens, List.map_map]
  apply List.map_congr_left
  intro u _
  by_cases hu : u.id = t.id
  · simp [hu, ForkToken.restored]
  · simp [hu]

/-- What the tokens become when those of some ids are restored. -/
def restoreIds (ids : List String) (tokens : List ForkToken) : List ForkToken :=
  tokens.map (fun u => if u.id ∈ ids then u.restored else u)

/-- A round leaves the ids distinct and does not touch the tokens of other ids. -/
theorem ids_of_round {p₁ : UpipPager} {id : String} (hids : (p.tokens.map ForkToken.id).Nodup)
    (h : p₁.tokens = p.tokens.map (fun u => if u.id = id then u.restored else u)) :
    (p₁.tokens.map ForkToken.id).Nodup ∧ ∀ u ∈ p.tokens, u.id ≠ id → u ∈ p₁.tokens := by
  rw [h]
  constructor
  · rw [map_id_map fun u => by split <;> rfl]
    exact hids
  · exact fun u hu hne => List.mem_map.mpr ⟨u, hu, if_neg hne⟩

theorem assembleLoop_sealed {tokens : List ForkToken} (hids : (p.tokens.map ForkToken.id).Nodup)
    (hmem : ∀ t ∈ tokens, t ∈ p.tokens ∧ t.state ≠ .consumed ∧ t.Sealed)
    (hnodup : (tokens.map ForkToken.id).Nodup) (totalBytes : Nat) :
    (p.assembleLoop (tokens.map ForkToken.id) totalBytes).1.tokens =
        restoreIds (tokens.map ForkToken.id) p.tokens ∧
      (p.assembleLoop (tokens.map ForkToken.id) totalBytes).2 =
        .ok (totalBytes + (tokens.map ForkToken.rawSize).sum) := by
  induction tokens generalizing p totalBytes with
  | nil => simp [UpipPager.assembleLoop, restoreIds]
  | cons t tokens ih =>
    rw [List.forall_mem_cons] at hmem
    rw [List.map_cons, List.nodup_cons] at hnodup
    obtain ⟨⟨ht, hstate, hseal⟩, hrest⟩ := hmem
    obtain ⟨p₁, heq, htokens⟩ := assembleLoop_cons hids ht hstate hseal
      (tokens.map ForkToken.id) totalBytes
    obtain ⟨hids₁, hkept⟩ := ids_of_round hids htokens
    have hmem₁ : ∀ u ∈ tokens, u ∈ p₁.tokens ∧ u.state ≠ .consumed ∧ u.Sealed := by
      intro u hu
      have hne : u.id ≠ t.id := fun heq => hnodup.1 (heq ▸ List.mem_map_of_mem hu)
      exact ⟨hkept u (hrest u hu).1 hne, (hrest u hu).2⟩
    obtain ⟨hfinal, hresult⟩ := ih hids₁ hmem₁ hnodup.2 (totalBytes + t.rawSize)
    rw [List.map_cons, heq]
    refine ⟨?_, ?_⟩
    · rw [hfinal, htokens]
      unfold restoreIds
      rw [List.map_map]
      apply List.map_congr_left
      intro u _
      by_cases hu : u.id = t.id
      · have hout : u.restored.id ∉ tokens.map ForkToken.id := fun hin => hnodup.1 (hu ▸ hin)
        have hin : u.id ∈ t.id :: tokens.map ForkToken.id := hu ▸ List.mem_cons_self
        rw [Function.comp_apply, if_pos hu, if_neg hout, if_pos hin]
      · simp [hu]
    · rw [hresult, List.map_cons, List.sum_cons, Nat.add_assoc]

theorem assembleLoop_not_sealed {tokens : List ForkToken}
    (hids : (p.tokens.map ForkToken.id).Nodup)
    (hmem : ∀ t ∈ tokens, t ∈ p.tokens ∧ t.state ≠ .consumed)
    (hnodup : (tokens.map ForkToken.id).Nodup) (hbad : ∃ t ∈ tokens, ¬ t.Sealed)
    (totalBytes : Nat) :
    ∃ failed, (p.assembleLoop (tokens.map ForkToken.id) totalBytes).2 = .error failed := by
  induction tokens generalizing p totalBytes with
  | nil => exact absurd hbad (by simp)
  | cons t tokens ih =>
    rw [List.forall_mem_cons] at hmem
    rw [List.map_cons, List.nodup_cons] at hnodup
    obtain ⟨⟨ht, hstate⟩, hrest⟩ := hmem
    by_cases hseal : t.Sealed
    · obtain ⟨p₁, heq, htokens⟩ := assembleLoop_cons hids ht hstate hseal
        (tokens.map ForkToken.id) totalBytes
      obtain ⟨hids₁, hkept⟩ := ids_of_round hids htokens
      have hmem₁ : ∀ u ∈ tokens, u ∈ p₁.tokens ∧ u.state ≠ .consumed := by
        intro u hu
        have hne : u.id ≠ t.id := fun heq => hnodup.1 (heq ▸ List.mem_map_of_mem hu)
        exact ⟨hkept u (hrest u hu).1 hne, (hrest u hu).2⟩
      have hbad₁ : ∃ u ∈ tokens, ¬ u.Sealed := by
        obtain ⟨u, hu, hun⟩ := hbad
        rcases List.mem_cons.mp hu with rfl | hu
        · exact absurd hseal hun
        · exact ⟨u, hu, hun⟩
      rw [List.map_cons, heq]
      exact ih hids₁ hmem₁ hnodup.2 hbad₁ _
    · obtain ⟨-, hresult⟩ := pageIn_of_not_sealed hids ht hstate hseal
      rw [List.map_cons, UpipPager.assembleLoop]
      rcases heq : p.pageIn t.id with ⟨p₁, result⟩
      rw [heq] at hresult
      cases hresult
      exact ⟨_, rfl⟩

/-- A change that counts one more access for the tokens of the given ids, and none for the others. -/
def Counts (ids : List String) (tokens tokens' : List ForkToken) : Prop :=
  List.Forall₂ (fun t t' => t'.accessCount = if t.id ∈ ids then t.accessCount + 1 else t.accessCount)
    tokens tokens'

/-- The loop restores the tokens in front of the first that does not carry its seal. -/
theorem assembleLoop_counts {tokens : List ForkToken} (hids : (p.tokens.map ForkToken.id).Nodup)
    (hmem : ∀ t ∈ tokens, t ∈ p.tokens ∧ t.state ≠ .consumed)
    (hnodup : (tokens.map ForkToken.id).Nodup) (totalBytes : Nat) :
    Counts ((tokens.takeWhile (fun t => t.Sealed)).map ForkToken.id) p.tokens
      (p.assembleLoop (tokens.map ForkToken.id) totalBytes).1.tokens := by
  induction tokens generalizing p totalBytes with
  | nil => exact List.forall₂_same.mpr fun t _ => rfl
  | cons t tokens ih =>
    rw [List.forall_mem_cons] at hmem
    rw [List.map_cons, List.nodup_cons] at hnodup
    obtain ⟨⟨ht, hstate⟩, hrest⟩ := hmem
    by_cases hseal : t.Sealed
    · obtain ⟨p₁, heq, htokens⟩ := assembleLoop_cons hids ht hstate hseal
        (tokens.map ForkToken.id) totalBytes
      obtain ⟨hids₁, hkept⟩ := ids_of_round hids htokens
      have hmem₁ : ∀ u ∈ tokens, u ∈ p₁.tokens ∧ u.state ≠ .consumed := by
        intro u hu
        have hne : u.id ≠ t.id := fun heq => hnodup.1 (heq ▸ List.mem_map_of_mem hu)
        exact ⟨hkept u (hrest u hu).1 hne, (hrest u hu).2⟩
      have hlater := ih hids₁ hmem₁ hnodup.2 (totalBytes + t.rawSize)
      unfold Counts at hlater ⊢
      rw [htokens, List.forall₂_map_left_iff] at hlater
      rw [List.map_cons, heq, List.takeWhile_cons_of_pos (by simpa using hseal), List.map_cons]
      refine hlater.imp fun u u' hcount => ?_
      have hout : t.id ∉ (tokens.takeWhile (fun t => t.Sealed)).map ForkToken.id := fun hin =>
        hnodup.1 ((List.takeWhile_sublist _).map _ |>.subset hin)
      by_cases hu : u.id = t.id
      · have hround : u.restored.id ∉ (tokens.takeWhile (fun t => t.Sealed)).map ForkToken.id := by
          rw [← hu] at hout
          exact hout
        rw [if_pos hu, if_neg hround] at hcount
        rw [hcount, if_pos (by rw [hu]; exact List.mem_cons_self)]
        rfl
      · rw [if_neg hu] at hcount
        rw [hcount]
        simp only [List.mem_cons, hu, false_or]
    · obtain ⟨htokens, hresult⟩ := pageIn_of_not_sealed hids ht hstate hseal
      rw [List.takeWhile_cons_of_neg (by simpa using hseal), List.map_cons, UpipPager.assembleLoop]
      rcases heq : p.pageIn t.id with ⟨p₁, result⟩
      rw [heq] at hresult htokens
      cases hresult
      show Counts [] p.tokens p₁.tokens
      unfold Counts
      rw [htokens, List.forall₂_map_right_iff]
      refine List.forall₂_same.mpr fun u _ => ?_
      rw [if_neg List.not_mem_nil]
      split <;> rfl

end Loop

/-! ## The task -/

section Task

variable {p : UpipPager} {intent : String} {busSeq : UInt64}

theorem assemble_none (hnone : ∀ t ∈ p.tokens, t.isLive intent busSeq = false) :
    p.assemble intent busSeq = (p, .incomplete 0 [0]) := by
  have hempty : p.tokens.filter (ForkToken.isLive intent busSeq) = [] :=
    List.filter_eq_nil_iff.mpr fun t ht => by simp [hnone t ht]
  unfold UpipPager.assemble
  rw [hempty]
  rfl

/-- A task with a live token is put together from its live tokens. -/
theorem assemble_some (hsome : ∃ t ∈ p.tokens, t.isLive intent busSeq = true) :
    p.assemble intent busSeq =
      match p.assembleLoop ((p.tokens.filter (ForkToken.isLive intent busSeq)).map ForkToken.id) 0 with
      | (p', .ok totalBytes) =>
          (p', .complete ((p.tokens.filter (ForkToken.isLive intent busSeq)).map ForkToken.id).length
            totalBytes true)
      | (p', .error failedChunk) =>
          (p', .integrityFailed failedChunk "Integrity verification failed during assembly") := by
  obtain ⟨t, ht, hlive⟩ := hsome
  have hne : ¬ ((p.tokens.filter (ForkToken.isLive intent busSeq)).map ForkToken.id).isEmpty = true := by
    rw [Bool.not_eq_true, List.isEmpty_eq_false_iff_exists_mem]
    exact ⟨t.id, List.mem_map_of_mem (List.mem_filter.mpr ⟨ht, hlive⟩)⟩
  exact if_neg hne

/-- When every live token of the task carries its seal, they are all restored. -/
theorem assemble_sealed (hids : (p.tokens.map ForkToken.id).Nodup)
    (hsome : ∃ t ∈ p.tokens, t.isLive intent busSeq = true)
    (hsealed : ∀ t ∈ p.tokens, t.isLive intent busSeq = true → t.Sealed) :
    (p.assemble intent busSeq).1.tokens =
        p.tokens.map (fun u => if u.isLive intent busSeq then u.restored else u) ∧
      (p.assemble intent busSeq).2 =
        .complete (p.tokens.filter (ForkToken.isLive intent busSeq)).length
          ((p.tokens.filter (ForkToken.isLive intent busSeq)).map ForkToken.rawSize).sum true := by
  have hmem : ∀ t ∈ p.tokens.filter (ForkToken.isLive intent busSeq),
      t ∈ p.tokens ∧ t.state ≠ .consumed ∧ t.Sealed := by
    intro t ht
    obtain ⟨ht, hlive⟩ := List.mem_filter.mp ht
    exact ⟨ht, (ForkToken.isLive_iff.mp hlive).2.2.1, hsealed t ht hlive⟩
  have hnodup : ((p.tokens.filter (ForkToken.isLive intent busSeq)).map ForkToken.id).Nodup :=
    (List.filter_sublist.map _).nodup hids
  obtain ⟨htokens, hresult⟩ := assembleLoop_sealed hids hmem hnodup 0
  rw [assemble_some hsome]
  rcases heq : p.assembleLoop _ 0 with ⟨p₁, result⟩
  rw [heq] at htokens hresult
  cases hresult
  refine ⟨?_, ?_⟩
  · dsimp only at htokens ⊢
    rw [htokens]
    apply List.map_congr_left
    intro u hu
    have hiff : u.id ∈ (p.tokens.filter (ForkToken.isLive intent busSeq)).map ForkToken.id ↔
        u.isLive intent busSeq = true := by
      refine ⟨fun hin => ?_, fun hlive => List.mem_map_of_mem (List.mem_filter.mpr ⟨hu, hlive⟩)⟩
      obtain ⟨v, hv, heq⟩ := List.mem_map.mp hin
      obtain ⟨hv, hlive⟩ := List.mem_filter.mp hv
      rwa [List.inj_on_of_nodup_map hids hv hu heq] at hlive
    simp only [hiff]
  · simp

/-- When some live token of the task does not carry its seal, the assembly fails. -/
theorem assemble_not_sealed (hids : (p.tokens.map ForkToken.id).Nodup)
    (hbad : ∃ t ∈ p.tokens, t.isLive intent busSeq = true ∧ ¬ t.Sealed) :
    ∃ failed, (p.assemble intent busSeq).2 =
      .integrityFailed failed "Integrity verification failed during assembly" := by
  have hmem : ∀ t ∈ p.tokens.filter (ForkToken.isLive intent busSeq),
      t ∈ p.tokens ∧ t.state ≠ .consumed := by
    intro t ht
    obtain ⟨ht, hlive⟩ := List.mem_filter.mp ht
    exact ⟨ht, (ForkToken.isLive_iff.mp hlive).2.2.1⟩
  have hnodup : ((p.tokens.filter (ForkToken.isLive intent busSeq)).map ForkToken.id).Nodup :=
    (List.filter_sublist.map _).nodup hids
  obtain ⟨t, ht, hlive, hun⟩ := hbad
  obtain ⟨failed, hresult⟩ := assembleLoop_not_sealed hids hmem hnodup
    ⟨t, List.mem_filter.mpr ⟨ht, hlive⟩, hun⟩ 0
  rw [assemble_some ⟨t, ht, hlive⟩]
  rcases heq : p.assembleLoop _ 0 with ⟨p₁, result⟩
  rw [heq] at hresult
  cases hresult
  exact ⟨failed, rfl⟩

end Task

end Spaceshuttle.Upip
