import Spaceshuttle.Xdp.Accounting

/-!
# Exploit signatures

The liquidator looks for signatures in data packets, and takes for these the TCP packets with the PSH
flag. A signature in any other packet is not looked at: such a packet is passed unless its source or
its port stops it.
-/

namespace Spaceshuttle.Xdp

open XdpLiquidator

/-- A signature occurs in the first 512 bytes of a payload. -/
def Exploits (payload : List UInt8) : Prop :=
  ∃ entry ∈ exploitSignatures, entry.1 <:+: payload.take 512

theorem checkExploitSignatures_isSome_iff (payload : List UInt8) :
    (checkExploitSignatures payload).isSome ↔ Exploits payload := by
  have hwindow : payload.take (min payload.length 512) = payload.take 512 := by
    rw [List.take_eq_take_iff]
    omega
  unfold checkExploitSignatures Exploits
  rw [hwindow]
  dsimp only
  rw [Option.isSome_map, List.find?_isSome]
  refine exists_congr fun entry => and_congr_right fun _ => ?_
  rw [Bool.and_eq_true, decide_eq_true_iff, List.any_eq_true, ← Window.mem_windows_iff]
  constructor
  · rintro ⟨-, window, hmem, heq⟩
    rwa [beq_iff_eq.mp heq] at hmem
  · intro hmem
    exact ⟨(Window.mem_windows_iff.mp hmem).length_le, entry.1, hmem, beq_self_eq_true _⟩

/-- No signature is empty, so what has one is not empty either. -/
theorem Exploits.ne_nil {payload : List UInt8} (h : Exploits payload) : payload ≠ [] := by
  rintro rfl
  obtain ⟨entry, hmem, hinfix⟩ := h
  rw [List.take_nil, List.infix_nil] at hinfix
  revert hmem hinfix
  generalize entry = e
  revert e
  decide

section Classify

variable {x : XdpLiquidator} {raw : List UInt8} {headers : PacketHeaders}

theorem intentMissing_without_psh (h : headers.tcpFlags &&& tcpPsh = 0) :
    intentMissing x.config headers raw = some false := by
  unfold intentMissing
  rw [if_neg fun hall => hall.2.2.1 h]

theorem parseTcp_protocol {ip : IpHeader} (hparse : parseTcp raw ip = some (some headers)) :
    headers.protocol = ip.protocol := by
  unfold parseTcp at hparse
  split at hparse
  · cases hparse
  · obtain ⟨srcPort, -, hparse⟩ := Option.bind_eq_some_iff.mp hparse
    obtain ⟨dstPort, -, hparse⟩ := Option.bind_eq_some_iff.mp hparse
    obtain ⟨offsetByte, -, hparse⟩ := Option.bind_eq_some_iff.mp hparse
    obtain ⟨tcpFlags, -, hparse⟩ := Option.bind_eq_some_iff.mp hparse
    cases hparse
    rfl

theorem parseUdp_tcpFlags {ip : IpHeader} (hparse : parseUdp raw ip = some (some headers)) :
    headers.tcpFlags = 0 := by
  unfold parseUdp at hparse
  split at hparse
  · cases hparse
  · obtain ⟨srcPort, -, hparse⟩ := Option.bind_eq_some_iff.mp hparse
    obtain ⟨dstPort, -, hparse⟩ := Option.bind_eq_some_iff.mp hparse
    cases hparse
    rfl

/-- The packets of UDP have no flags. -/
theorem tcpFlags_of_udp (hparse : parseHeaders raw = some (some headers))
    (hudp : headers.protocol = 17) : headers.tcpFlags = 0 := by
  unfold parseHeaders at hparse
  obtain ⟨ip, -, hparse⟩ := Option.bind_eq_some_iff.mp hparse
  cases ip with
  | none => cases hparse
  | some ip =>
    dsimp only at hparse
    split at hparse
    · next htcp =>
      rw [parseTcp_protocol hparse, htcp] at hudp
      cases hudp
    · split at hparse
      · exact parseUdp_tcpFlags hparse
      · cases hparse

end Classify

/-- A packet that parses, is not from the allow list and has an exploit in its payload: an active
liquidator that checks for signatures passes it if and only if its source is not on the deny list,
its port is protected, and it has no PSH flag. The packets of UDP never have the flag. -/
theorem exploit_passes_iff (x : XdpLiquidator) (hactive : x.active = true)
    (hcheck : x.config.checkExploitSignatures = true) (raw : List UInt8) (headers : PacketHeaders)
    (hparse : parseHeaders raw = some (some headers)) (hallow : headers.srcIp ∉ x.allowSet)
    (hexploit : Exploits (raw.drop headers.payloadOffset)) :
    ((x.classify raw).map (fun result => result.2.1) = some .pass ↔
      headers.srcIp ∉ x.denySet ∧ x.protectedSet headers.dstPort = true ∧
        headers.tcpFlags &&& tcpPsh = 0) ∧
    (headers.protocol = 17 → headers.tcpFlags &&& tcpPsh = 0) := by
  refine ⟨?_, fun hudp => by rw [tcpFlags_of_udp hparse hudp]; rfl⟩
  have hinside : headers.payloadOffset < raw.length := by
    have hne := hexploit.ne_nil
    rw [ne_eq, List.drop_eq_nil_iff] at hne
    omega
  have hseen : ExploitSeen x.config headers raw ↔ headers.tcpFlags &&& tcpPsh ≠ 0 :=
    ⟨fun h => h.2.1, fun h =>
      ⟨hcheck, h, hinside, (checkExploitSignatures_isSome_iff _).mpr hexploit⟩⟩
  obtain ⟨missing, hmissing⟩ := intentMissing_isSome x.config headers raw
  rw [classify_parsed hactive hparse hmissing, if_neg hallow]
  by_cases hdeny : headers.srcIp ∈ x.denySet
  · rw [if_pos hdeny]
    simp [dropped, hdeny]
  · rw [if_neg hdeny]
    cases hport : x.protectedSet headers.dstPort with
    | false => simp [dropped]
    | true =>
      rw [if_neg (by simp)]
      by_cases hpsh : headers.tcpFlags &&& tcpPsh = 0
      · obtain rfl := Option.some.inj (hmissing.symm.trans (intentMissing_without_psh hpsh))
        rw [if_neg (by rw [hseen]; exact not_not.mpr hpsh)]
        simp [passed, hdeny, hpsh]
      · rw [if_pos (hseen.mpr hpsh)]
        simp [dropped, hpsh]

/-! ## A packet that passes -/

/-- Two bytes, the more significant one first: `u16::to_be_bytes`. -/
def beBytes (n : UInt16) : List UInt8 := [(n >>> 8).toUInt8, n.toUInt8]

/-- `build_test_packet` (`xdp.rs:466-513`). -/
def buildTestPacket (srcIp dstIp : List UInt8) (srcPort dstPort : UInt16) (tcpFlags : UInt8)
    (payload : List UInt8) : List UInt8 :=
  let tcpHeaderLen : UInt8 := 20
  let ipTotalLen : UInt16 := 20 + (tcpHeaderLen.toUInt16 + UInt16.ofNat payload.length)
  let ethernet : List UInt8 :=
    [0xDE, 0xAD, 0xBE, 0xEF, 0x00, 0x01, 0xCA, 0xFE, 0xBA, 0xBE, 0x00, 0x02, 0x08, 0x00]
  let ipStart : List UInt8 := [0x45, 0x00]
  let ipRest : List UInt8 := [0x00, 0x00, 0x40, 0x00, 64, 6, 0x00, 0x00]
  let seqAck : List UInt8 := [0x00, 0x00, 0x00, 0x01, 0x00, 0x00, 0x00, 0x00]
  let offsetFlags : List UInt8 := [(tcpHeaderLen / 4) <<< 4, tcpFlags]
  let window : List UInt8 := [0xFF, 0xFF, 0x00, 0x00, 0x00, 0x00]
  ethernet ++ ipStart ++ beBytes ipTotalLen ++ ipRest ++ srcIp ++ dstIp ++ beBytes srcPort ++
    beBytes dstPort ++ seqAck ++ offsetFlags ++ window ++ payload

/-- `<?php` on the port of HTTP. -/
def phpPacket (tcpFlags : UInt8) : List UInt8 :=
  buildTestPacket [10, 0, 0, 1] [10, 0, 0, 2] 54321 80 tcpFlags (Kernel.ascii "<?php")

theorem phpPacket_parses : ∀ tcpFlags ∈ [tcpPsh ||| tcpAck, tcpAck],
    parseHeaders (phpPacket tcpFlags) =
      some (some ⟨0x0A000001, 0x0A000002, 54321, 80, 6, tcpFlags, 54, 45⟩) := by
  decide +kernel

theorem phpPacket_exploits (tcpFlags : UInt8) : Exploits ((phpPacket tcpFlags).drop 54) := by
  have hpayload : (phpPacket tcpFlags).drop 54 = Kernel.ascii "<?php" := rfl
  rw [hpayload]
  exact ⟨(Kernel.ascii "<?php", "php-injection"), by decide, List.infix_refl _⟩

theorem exploit_passes_iff_psh :
    ((XdpLiquidator.new .default).classify (phpPacket (tcpPsh ||| tcpAck))).map
      (fun result => result.2.1) ≠ some .pass := by
  rw [ne_eq, (exploit_passes_iff (.new .default) rfl rfl _ _ (phpPacket_parses _ (by decide))
    (by decide) (phpPacket_exploits _)).1]
  decide

/-- Without the PSH flag the same data is passed. -/
theorem php_without_psh_passed :
    parseHeaders (phpPacket tcpAck) =
        some (some ⟨0x0A000001, 0x0A000002, 54321, 80, 6, tcpAck, 54, 45⟩) ∧
      0x0A000001 ∉ (XdpLiquidator.new .default).allowSet ∧
      Exploits ((phpPacket tcpAck).drop 54) ∧
      ((XdpLiquidator.new .default).classify (phpPacket tcpAck)).map (fun result => result.2.1) =
        some .pass :=
  ⟨phpPacket_parses tcpAck (by decide), by decide, phpPacket_exploits tcpAck, by decide⟩

end Spaceshuttle.Xdp
