import Mathlib.Data.UInt
import Mathlib.Tactic.FinCases
import Mathlib.Tactic.Ring
import Spaceshuttle.Xdp.Liquidator

/-!
# Accounts of classified packets

Classifying a packet never goes out of range, whatever its header lengths say, and comes to one of two
ends: the packet is counted and passed, or counted and dropped for a reason. The statistics follow
from that.
-/

namespace Spaceshuttle.Xdp

open Kernel (be16_isSome be32_isSome)

/-! ## Safety -/

section Safety

theorem getElem?_isSome (data : List UInt8) (i : Nat) (hi : i < data.length) : ∃ b, data[i]? = some b :=
  ⟨_, List.getElem?_eq_getElem hi⟩

theorem parseIp_isSome (data : List UInt8) : ∃ ip, parseIp data = some ip := by
  unfold parseIp
  split
  · exact ⟨_, rfl⟩
  · obtain ⟨ethertype, hethertype⟩ := be16_isSome data 12 (by omega)
    simp only [hethertype, Option.bind_eq_bind, Option.bind_some]
    split
    · exact ⟨_, rfl⟩
    · obtain ⟨versionIhl, hversion⟩ := getElem?_isSome data 14 (by omega)
      obtain ⟨protocol, hprotocol⟩ := getElem?_isSome data (14 + 9) (by omega)
      obtain ⟨srcIp, hsrc⟩ := be32_isSome data (14 + 12) (by omega)
      obtain ⟨dstIp, hdst⟩ := be32_isSome data (14 + 16) (by omega)
      obtain ⟨totalLen, htotal⟩ := be16_isSome data (14 + 2) (by omega)
      simp only [hversion, hprotocol, hsrc, hdst, htotal, Option.bind_some]
      split
      · exact ⟨_, rfl⟩
      · exact ⟨_, rfl⟩

theorem parseTcp_isSome (data : List UInt8) (ip : IpHeader) :
    ∃ headers, parseTcp data ip = some headers := by
  unfold parseTcp
  split
  · exact ⟨_, rfl⟩
  · obtain ⟨srcPort, hsrc⟩ := be16_isSome data ip.transportStart (by omega)
    obtain ⟨dstPort, hdst⟩ := be16_isSome data (ip.transportStart + 2) (by omega)
    obtain ⟨offsetByte, hoffset⟩ := getElem?_isSome data (ip.transportStart + 12)
      (by omega)
    obtain ⟨tcpFlags, hflags⟩ := getElem?_isSome data (ip.transportStart + 13)
      (by omega)
    simp only [hsrc, hdst, hoffset, hflags, Option.bind_eq_bind, Option.bind_some]
    exact ⟨_, rfl⟩

theorem parseUdp_isSome (data : List UInt8) (ip : IpHeader) :
    ∃ headers, parseUdp data ip = some headers := by
  unfold parseUdp
  split
  · exact ⟨_, rfl⟩
  · obtain ⟨srcPort, hsrc⟩ := be16_isSome data ip.transportStart (by omega)
    obtain ⟨dstPort, hdst⟩ := be16_isSome data (ip.transportStart + 2) (by omega)
    simp only [hsrc, hdst, Option.bind_eq_bind, Option.bind_some]
    exact ⟨_, rfl⟩

theorem parseHeaders_isSome (data : List UInt8) : ∃ headers, parseHeaders data = some headers := by
  obtain ⟨ip, hip⟩ := parseIp_isSome data
  unfold parseHeaders
  simp only [hip, Option.bind_eq_bind, Option.bind_some]
  cases ip with
  | none => exact ⟨_, rfl⟩
  | some ip =>
    dsimp only
    split_ifs
    · exact parseTcp_isSome data ip
    · exact parseUdp_isSome data ip
    · exact ⟨_, rfl⟩

theorem hasIntentMarker_isSome (payload : List UInt8) (dstPort : UInt16) :
    ∃ marked, hasIntentMarker payload dstPort = some marked := by
  unfold hasIntentMarker
  split
  · exact ⟨_, rfl⟩
  · next hempty =>
    have hpos : 0 < payload.length := List.length_pos_iff.mpr (by simpa using hempty)
    obtain ⟨b₀, hb₀⟩ := getElem?_isSome payload 0 hpos
    simp only [hb₀, Option.map_some, Option.bind_eq_bind, Option.bind_some]
    split_ifs with hmux hbrace hssh hhttp hmethod htls hpg
    · exact ⟨_, rfl⟩
    · exact ⟨_, rfl⟩
    · exact ⟨_, rfl⟩
    · exact ⟨_, rfl⟩
    · obtain ⟨b₁, hb₁⟩ := getElem?_isSome payload 1 (by omega)
      simp only [hb₁, Option.bind_some]
      exact ⟨_, rfl⟩
    · exact ⟨_, rfl⟩
    · obtain ⟨version, hversion⟩ := be32_isSome payload 4 (by omega)
      simp only [hversion, Option.map_some]
      exact ⟨_, rfl⟩
    all_goals exact ⟨_, rfl⟩

/-- The packet carries a signature where it is looked for. -/
def ExploitSeen (config : XdpConfig) (headers : PacketHeaders) (raw : List UInt8) : Prop :=
  config.checkExploitSignatures = true ∧ headers.tcpFlags &&& tcpPsh ≠ 0 ∧
    headers.payloadOffset < raw.length ∧
    (checkExploitSignatures (raw.drop headers.payloadOffset)).isSome = true

instance (config : XdpConfig) (headers : PacketHeaders) (raw : List UInt8) :
    Decidable (ExploitSeen config headers raw) :=
  inferInstanceAs (Decidable (_ ∧ _ ∧ _ ∧ _))

/-- The slice of the payload is in range where it is taken. -/
theorem exploitFound_eq (config : XdpConfig) (headers : PacketHeaders) (raw : List UInt8) :
    exploitFound config headers raw = some (decide (ExploitSeen config headers raw)) := by
  unfold exploitFound
  split
  · next h =>
    rw [bytesFrom, if_pos h.2.2.le]
    have hseen : ExploitSeen config headers raw ↔
        (checkExploitSignatures (raw.drop headers.payloadOffset)).isSome = true :=
      ⟨fun hall => hall.2.2.2, fun hsome => ⟨h.1, h.2.1, h.2.2, hsome⟩⟩
    simp only [Option.bind_eq_bind, Option.bind_some, hseen, Bool.decide_eq_true]
    rfl
  · next h =>
    rw [decide_eq_false fun hall => h ⟨hall.1, hall.2.1, hall.2.2.1⟩]

theorem intentMissing_isSome (config : XdpConfig) (headers : PacketHeaders) (raw : List UInt8) :
    ∃ missing, intentMissing config headers raw = some missing := by
  unfold intentMissing
  split
  · next h =>
    obtain ⟨marked, hmarked⟩ :=
      hasIntentMarker_isSome (raw.drop headers.payloadOffset) headers.dstPort
    rw [bytesFrom, if_pos h.2.2.2.2.le]
    simp only [Option.bind_eq_bind, Option.bind_some, hmarked]
    exact ⟨_, rfl⟩
  · exact ⟨_, rfl⟩

end Safety

/-! ## One packet -/

namespace XdpLiquidator

section Classify

variable {x : XdpLiquidator} {raw : List UInt8} {headers : PacketHeaders}

theorem classify_paused (h : x.active = false) : x.classify raw = some x.counted.passed := by
  unfold classify
  simp only [counted_active, h, Bool.not_false, if_true]

theorem classify_malformed (h : x.active = true) (hparse : parseHeaders raw = some none) :
    x.classify raw = some (x.counted.dropped .malformed) := by
  unfold classify
  simp only [counted_active, h, hparse, Bool.not_true, Bool.false_eq_true, if_false]
  rfl

/-- The chain of decisions about a packet that parses. -/
theorem classify_parsed (h : x.active = true) (hparse : parseHeaders raw = some (some headers))
    {missing : Bool} (hmissing : intentMissing x.config headers raw = some missing) :
    x.classify raw = some (
      if headers.srcIp ∈ x.allowSet then x.counted.passed
      else if headers.srcIp ∈ x.denySet then x.counted.dropped .denyListedIp
      else if x.protectedSet headers.dstPort = false then x.counted.dropped .unprotectedPort
      else if ExploitSeen x.config headers raw then x.counted.dropped .exploitSignature
      else if missing = true then x.counted.dropped .noIntent
      else x.counted.passed) := by
  unfold classify
  simp only [counted_active, counted_allowSet, counted_denySet, counted_protectedSet, counted_config, h,
    hparse, hmissing, exploitFound_eq, Option.bind_eq_bind, Option.bind_some, Bool.not_true,
    Bool.false_eq_true, if_false, Bool.not_eq_true', decide_eq_true_eq]
  split_ifs <;> rfl

/-- All that `classify` can do. -/
theorem classify_cases (x : XdpLiquidator) (raw : List UInt8) :
    x.classify raw = some x.counted.passed ∨
      ∃ reason, x.classify raw = some (x.counted.dropped reason) := by
  cases hactive : x.active with
  | false => exact .inl (classify_paused hactive)
  | true =>
    obtain ⟨headers, hparse⟩ := parseHeaders_isSome raw
    cases headers with
    | none => exact .inr ⟨.malformed, classify_malformed hactive hparse⟩
    | some headers =>
      obtain ⟨missing, hmissing⟩ := intentMissing_isSome x.config headers raw
      rw [classify_parsed hactive hparse hmissing]
      split_ifs
      · exact .inl rfl
      · exact .inr ⟨.denyListedIp, rfl⟩
      · exact .inr ⟨.unprotectedPort, rfl⟩
      · exact .inr ⟨.exploitSignature, rfl⟩
      · exact .inr ⟨.noIntent, rfl⟩
      · exact .inl rfl

end Classify

end XdpLiquidator

/-! ## Runs -/

/-- The packets that a history drops for a reason. -/
def dropsFor (reason : DropReason) (history : List (XdpOp × XdpOutcome)) : Nat :=
  history.countP (fun e => e.2 == .classified .drop (some reason))

/-- The statistics add up, and every reason has been counted as often as it was returned. -/
structure Accounted (x : XdpLiquidator) (history : List (XdpOp × XdpOutcome)) : Prop where
  total : x.packetsTotal = x.packetsDropped + x.packetsPassed + x.packetsTx
  reasons : x.packetsDropped = x.dropsByReason 0 + x.dropsByReason 1 + x.dropsByReason 2 +
    x.dropsByReason 3 + x.dropsByReason 4 + x.dropsByReason 5 + x.dropsByReason 6
  each : ∀ reason : DropReason,
    x.dropsByReason reason.index = UInt64.ofNat (dropsFor reason history)

section Accounts

open scoped UInt64.CommRing

variable {x : XdpLiquidator} {history : List (XdpOp × XdpOutcome)}

theorem index_injective : Function.Injective DropReason.index := by
  intro r r' h
  cases r <;> cases r' <;> first | rfl | cases h

theorem dropsFor_concat (reason : DropReason) (history : List (XdpOp × XdpOutcome))
    (e : XdpOp × XdpOutcome) : dropsFor reason (history ++ [e]) =
      dropsFor reason history + if e.2 = .classified .drop (some reason) then 1 else 0 := by
  unfold dropsFor
  rw [List.countP_append, List.countP_singleton]
  simp

theorem Accounted.pass (h : Accounted x history) (op : XdpOp) :
    Accounted x.counted.passed.1 (history ++ [(op, .classified .pass none)]) where
  total := by
    show x.packetsTotal + 1 = x.packetsDropped + (x.packetsPassed + 1) + x.packetsTx
    rw [h.total]
    ring
  reasons := h.reasons
  each := by
    intro reason
    rw [dropsFor_concat, if_neg (by simp)]
    exact h.each reason

theorem Accounted.drop (h : Accounted x history) (op : XdpOp) (reason : DropReason) :
    Accounted (x.counted.dropped reason).1 (history ++ [(op, .classified .drop (some reason))]) where
  total := by
    show x.packetsTotal + 1 = x.packetsDropped + 1 + x.packetsPassed + x.packetsTx
    rw [h.total]
    ring
  reasons := by
    have hreasons := h.reasons
    show x.packetsDropped + 1 = _
    rw [hreasons]
    cases reason <;> simp [XdpLiquidator.dropped, XdpLiquidator.recordDrop, XdpLiquidator.counted,
      DropReason.index] <;> ring
  each := by
    intro reason'
    rw [dropsFor_concat]
    show Function.update x.dropsByReason reason.index (x.dropsByReason reason.index + 1) _ = _
    by_cases hsame : reason' = reason
    · subst hsame
      rw [Function.update_self, if_pos rfl, h.each, UInt64.ofNat_add]
      rfl
    · rw [Function.update_of_ne (index_injective.ne hsame), if_neg (by simp [Ne.symm hsame]), h.each,
        Nat.add_zero]

theorem Accounted.step (h : Accounted x history) (op : XdpOp) :
    Accounted (xdpStep x op).1 (history ++ [(op, (xdpStep x op).2)]) := by
  cases op with
  | classify raw =>
    rw [xdpStep]
    rcases x.classify_cases raw with hpass | ⟨reason, hdrop⟩
    · rw [hpass]
      exact h.pass _
    · rw [hdrop]
      exact h.drop _ reason
  | pause =>
    refine ⟨h.total, h.reasons, fun reason => ?_⟩
    rw [dropsFor_concat, if_neg (by simp [xdpStep])]
    exact h.each reason
  | resume =>
    refine ⟨h.total, h.reasons, fun reason => ?_⟩
    rw [dropsFor_concat, if_neg (by simp [xdpStep])]
    exact h.each reason

theorem accounted_run (config : XdpConfig) (ops : List XdpOp) :
    Accounted (Machine.run xdpStep (.new config) ops) (Machine.history xdpStep (.new config) ops) := by
  induction ops using List.reverseRecOn with
  | nil => exact ⟨rfl, rfl, fun reason => rfl⟩
  | append_singleton ops op ih =>
    rw [Machine.run_concat, Machine.history_concat]
    exact ih.step op

end Accounts

/-- After every run from a new liquidator: `classify` returns on every byte sequence; the total is the
sum of the drops, passes and reflections; the drops are the sum of the seven counters; and the counter
of a reason has counted the packets that were dropped with that reason. -/
theorem classify_accounted (config : XdpConfig) (ops : List XdpOp) :
    let x := Machine.run xdpStep (.new config) ops
    let s := x.stats
    (∀ raw, (x.classify raw).isSome) ∧
      s.packetsTotal = s.packetsDropped + s.packetsPassed + s.packetsTx ∧
      s.packetsDropped = s.dropsNoIntent + s.dropsDenyList + s.dropsUnprotected + s.dropsMalformed +
        s.dropsRateLimit + s.dropsSynFlood + s.dropsExploit ∧
      ∀ reason : DropReason, x.dropsByReason reason.index =
        UInt64.ofNat (dropsFor reason (Machine.history xdpStep (.new config) ops)) := by
  intro x s
  have h := accounted_run config ops
  refine ⟨fun raw => ?_, h.total, h.reasons, h.each⟩
  rcases x.classify_cases raw with hpass | ⟨reason, hdrop⟩
  · rw [hpass]
    rfl
  · rw [hdrop]
    rfl

end Spaceshuttle.Xdp
