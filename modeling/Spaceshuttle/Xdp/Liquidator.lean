import Mathlib.Data.Fin.Tuple.Basic
import Spaceshuttle.Kernel.PortIntent
import Spaceshuttle.Lib.Machine
import Spaceshuttle.Lib.Window

/-!
# The XDP liquidator

`XdpLiquidator` of `crates/trust-kernel/src/xdp.rs`, which classifies raw packets before the network
stack sees them. A result of `none` is a panic: an index or a slice out of range. The counters of SYN
packets and their limit are never read, so they are left out.
-/

namespace Spaceshuttle.Xdp

open Kernel (ascii be16 be32 bytesStartWith)

/-! ## Headers -/

/-- `XdpVerdict` (`xdp.rs:24-32`). -/
inductive XdpVerdict where
  | drop
  | pass
  | tx
  deriving DecidableEq, Repr

/-- `DropReason` (`xdp.rs:34-50`). -/
inductive DropReason where
  | noIntent
  | denyListedIp
  | unprotectedPort
  | malformed
  | rateLimited
  | synFlood
  | exploitSignature
  deriving DecidableEq, Repr

/-- `PacketHeaders` (`xdp.rs:58-68`). -/
structure PacketHeaders where
  srcIp : UInt32
  dstIp : UInt32
  srcPort : UInt16
  dstPort : UInt16
  protocol : UInt8
  tcpFlags : UInt8
  payloadOffset : Nat
  totalLen : Nat
  deriving DecidableEq, Repr

/-- `TCP_ACK` (`xdp.rs:72`). -/
def tcpAck : UInt8 := 0x10

/-- `TCP_PSH` (`xdp.rs:75`). -/
def tcpPsh : UInt8 := 0x08

/-- What `parse_headers` reads of the IP header, and where the transport header starts. -/
structure IpHeader where
  protocol : UInt8
  srcIp : UInt32
  dstIp : UInt32
  totalLen : Nat
  transportStart : Nat
  deriving DecidableEq, Repr

/-- The Ethernet and IP headers of `parse_headers` (`xdp.rs:81-103`); the IP header starts at 14. -/
def parseIp (data : List UInt8) : Option (Option IpHeader) :=
  if data.length < 14 then some none
  else do
    let ethertype ← be16 data 12
    if ethertype ≠ 0x0800 ∨ data.length < 14 + 20 then return none
    else
      let versionIhl ← data[14]?
      let ihl := (versionIhl &&& 0x0F).toNat * 4
      if ihl < 20 ∨ data.length < 14 + ihl then return none
      else
        let protocol ← data[14 + 9]?
        let srcIp ← be32 data (14 + 12)
        let dstIp ← be32 data (14 + 16)
        let totalLen ← be16 data (14 + 2)
        return some ⟨protocol, UInt32.ofNat srcIp, UInt32.ofNat dstIp, totalLen, 14 + ihl⟩

/-- The case of TCP in `parse_headers` (`xdp.rs:106-118`). -/
def parseTcp (data : List UInt8) (ip : IpHeader) : Option (Option PacketHeaders) :=
  if data.length < ip.transportStart + 20 then some none
  else do
    let srcPort ← be16 data ip.transportStart
    let dstPort ← be16 data (ip.transportStart + 2)
    let offsetByte ← data[ip.transportStart + 12]?
    let dataOffset := (offsetByte >>> 4).toNat * 4
    let tcpFlags ← data[ip.transportStart + 13]?
    return some
      { srcIp := ip.srcIp, dstIp := ip.dstIp, srcPort := UInt16.ofNat srcPort
        dstPort := UInt16.ofNat dstPort, protocol := ip.protocol, tcpFlags
        payloadOffset := ip.transportStart + dataOffset, totalLen := ip.totalLen }

/-- The case of UDP in `parse_headers` (`xdp.rs:119-129`). -/
def parseUdp (data : List UInt8) (ip : IpHeader) : Option (Option PacketHeaders) :=
  if data.length < ip.transportStart + 8 then some none
  else do
    let srcPort ← be16 data ip.transportStart
    let dstPort ← be16 data (ip.transportStart + 2)
    return some
      { srcIp := ip.srcIp, dstIp := ip.dstIp, srcPort := UInt16.ofNat srcPort
        dstPort := UInt16.ofNat dstPort, protocol := ip.protocol, tcpFlags := 0
        payloadOffset := ip.transportStart + 8, totalLen := ip.totalLen }

/-- `parse_headers` (`xdp.rs:79-132`). -/
def parseHeaders (data : List UInt8) : Option (Option PacketHeaders) := do
  match ← parseIp data with
  | none => return none
  | some ip =>
      if ip.protocol = 6 then parseTcp data ip
      else if ip.protocol = 17 then parseUdp data ip
      else return none

/-! ## The engine -/

/-- `XdpConfig` (`xdp.rs:140-153`). -/
structure XdpConfig where
  protectedPorts : List UInt16
  requireIntentOnFirstData : Bool
  denyList : List UInt32
  allowList : List UInt32
  checkExploitSignatures : Bool
  deriving DecidableEq, Repr

/-- `XdpConfig::default` (`xdp.rs:155-166`). -/
def XdpConfig.default : XdpConfig where
  protectedPorts := [22, 80, 443, 4430, 5432, 3306, 6379, 8000, 8080, 11434]
  requireIntentOnFirstData := true
  denyList := []
  allowList := []
  checkExploitSignatures := true

/-- `XdpStats` (`xdp.rs:169-182`). -/
structure XdpStats where
  packetsTotal : UInt64
  packetsDropped : UInt64
  packetsPassed : UInt64
  packetsTx : UInt64
  dropsNoIntent : UInt64
  dropsDenyList : UInt64
  dropsUnprotected : UInt64
  dropsMalformed : UInt64
  dropsRateLimit : UInt64
  dropsSynFlood : UInt64
  dropsExploit : UInt64
  deriving DecidableEq, Repr

/-- `XdpLiquidator` (`xdp.rs:184-202`). The protected ports are an array of 65536 flags, so that every
`u16` is an index of it. -/
structure XdpLiquidator where
  config : XdpConfig
  packetsTotal : UInt64
  packetsDropped : UInt64
  packetsPassed : UInt64
  packetsTx : UInt64
  dropsByReason : Fin 7 → UInt64
  protectedSet : UInt16 → Bool
  denySet : List UInt32
  allowSet : List UInt32
  active : Bool

/-- `EXPLOIT_SIGNATURES` (`xdp.rs:206-225`). -/
def exploitSignatures : List (List UInt8 × String) :=
  [(ascii "() \x7b :;\x7d", "shellshock"), (ascii "$\x7bjndi:", "log4shell"),
    (ascii "<?php", "php-injection"), (ascii "/../../../", "path-traversal-deep"),
    (ascii "' OR '1'='1", "sqli-classic"), (ascii "'; DROP TABLE", "sqli-drop"),
    (ascii "SLAVEOF ", "redis-slaveof"), (ascii "CONFIG SET", "redis-config"),
    (ascii "$gt", "nosql-injection"), (List.replicate 16 0, "null-flood")]

/-- The index of a reason among the counters (`xdp.rs:424-432`). -/
def DropReason.index : DropReason → Fin 7
  | .noIntent => 0
  | .denyListedIp => 1
  | .unprotectedPort => 2
  | .malformed => 3
  | .rateLimited => 4
  | .synFlood => 5
  | .exploitSignature => 6

/-- `check_exploit_signatures` (`xdp.rs:404-420`): the name of the first signature in the first 512
bytes. Neither index can panic: the slice ends within the payload, and `windows` gets the length of a
signature, none of which is empty. -/
def checkExploitSignatures (payload : List UInt8) : Option String :=
  let scanWindow := payload.take (min payload.length 512)
  (exploitSignatures.find? (fun entry => decide (entry.1.length ≤ scanWindow.length) &&
    (Window.windows entry.1.length scanWindow).any (fun window => window == entry.1))).map Prod.snd

example : ∀ entry ∈ exploitSignatures, entry.1 ≠ [] := by decide

/-- `has_intent_marker` (`xdp.rs:342-401`). No test after the one for PostgreSQL is for its port. -/
def hasIntentMarker (payload : List UInt8) (dstPort : UInt16) : Option Bool :=
  if payload.isEmpty then some false
  else if dstPort = 4430 then
    if payload.length ≥ 2 then (payload[0]?).map (fun b => b == 0x7B) else some false
  else if dstPort = 22 ∧ bytesStartWith payload "SSH-" then some true
  else if dstPort ∈ [80, 443, 8000, 8080] then
    if ["GET ", "POST ", "PUT ", "DELETE ", "PATCH ", "HEAD ", "OPTIONS ", "CONNECT "].any
        (bytesStartWith payload) then some true
    else if payload.length ≥ 3 then do
      let b₀ ← payload[0]?
      let b₁ ← payload[1]?
      return b₀ == 0x16 && b₁ == 0x03
    else some false
  else if dstPort = 5432 ∧ payload.length ≥ 8 then
    (be32 payload 4).map (fun version => version == 196608 || version == 80877103)
  else if dstPort = 3306 ∧ payload.length ≥ 4 then some true
  else if dstPort = 6379 then
    (payload[0]?).map (fun b => b == 0x2A || b == 0x24 || b == 0x2B ||
      ["PING", "AUTH", "INFO", "QUIT"].any (bytesStartWith payload))
  else if dstPort = 11434 then
    some (["GET ", "POST ", "DELETE "].any (bytesStartWith payload))
  else some false

/-- `&raw_packet[offset..]`. -/
def bytesFrom (raw : List UInt8) (offset : Nat) : Option (List UInt8) :=
  if offset ≤ raw.length then some (raw.drop offset) else none

/-- The check for exploits (`xdp.rs:307-316`). -/
def exploitFound (config : XdpConfig) (headers : PacketHeaders) (raw : List UInt8) : Option Bool :=
  if config.checkExploitSignatures ∧ headers.tcpFlags &&& tcpPsh ≠ 0 ∧
      headers.payloadOffset < raw.length then do
    let payload ← bytesFrom raw headers.payloadOffset
    return (checkExploitSignatures payload).isSome
  else some false

/-- The check for an intent (`xdp.rs:319-330`). -/
def intentMissing (config : XdpConfig) (headers : PacketHeaders) (raw : List UInt8) : Option Bool :=
  if config.requireIntentOnFirstData ∧ headers.protocol = 6 ∧ headers.tcpFlags &&& tcpPsh ≠ 0 ∧
      headers.tcpFlags &&& tcpAck ≠ 0 ∧ headers.payloadOffset < raw.length then do
    let payload ← bytesFrom raw headers.payloadOffset
    let marked ← hasIntentMarker payload headers.dstPort
    return !marked
  else some false

namespace XdpLiquidator

/-- `XdpLiquidator::new` (`xdp.rs:228-254`). -/
def new (config : XdpConfig) : XdpLiquidator where
  config := config
  packetsTotal := 0
  packetsDropped := 0
  packetsPassed := 0
  packetsTx := 0
  dropsByReason := fun _ => 0
  protectedSet := fun port => config.protectedPorts.contains port
  denySet := config.denyList
  allowSet := config.allowList
  active := true

/-- `record_drop` (`xdp.rs:422-434`). -/
def recordDrop (x : XdpLiquidator) (reason : DropReason) : XdpLiquidator :=
  { x with
    packetsDropped := x.packetsDropped + 1
    dropsByReason := Function.update x.dropsByReason reason.index (x.dropsByReason reason.index + 1) }

/-- Count a packet. -/
def counted (x : XdpLiquidator) : XdpLiquidator := { x with packetsTotal := x.packetsTotal + 1 }

@[simp] theorem counted_config (x : XdpLiquidator) : x.counted.config = x.config := rfl

@[simp] theorem counted_protectedSet (x : XdpLiquidator) :
    x.counted.protectedSet = x.protectedSet := rfl

@[simp] theorem counted_denySet (x : XdpLiquidator) : x.counted.denySet = x.denySet := rfl

@[simp] theorem counted_allowSet (x : XdpLiquidator) : x.counted.allowSet = x.allowSet := rfl

@[simp] theorem counted_active (x : XdpLiquidator) : x.counted.active = x.active := rfl

/-- Pass a packet. -/
def passed (x : XdpLiquidator) : XdpLiquidator × XdpVerdict × Option DropReason :=
  ({ x with packetsPassed := x.packetsPassed + 1 }, .pass, none)

/-- Drop a packet for a reason. -/
def dropped (x : XdpLiquidator) (reason : DropReason) :
    XdpLiquidator × XdpVerdict × Option DropReason :=
  (x.recordDrop reason, .drop, some reason)

/-- `classify` (`xdp.rs:260-335`). -/
def classify (x : XdpLiquidator) (raw : List UInt8) :
    Option (XdpLiquidator × XdpVerdict × Option DropReason) :=
  let x := x.counted
  if !x.active then some x.passed
  else do
    match ← parseHeaders raw with
    | none => return x.dropped .malformed
    | some headers =>
        if headers.srcIp ∈ x.allowSet then return x.passed
        else if headers.srcIp ∈ x.denySet then return x.dropped .denyListedIp
        else if !x.protectedSet headers.dstPort then return x.dropped .unprotectedPort
        else if ← exploitFound x.config headers raw then return x.dropped .exploitSignature
        else if ← intentMissing x.config headers raw then return x.dropped .noIntent
        else return x.passed

/-- `stats` (`xdp.rs:436-450`). -/
def stats (x : XdpLiquidator) : XdpStats where
  packetsTotal := x.packetsTotal
  packetsDropped := x.packetsDropped
  packetsPassed := x.packetsPassed
  packetsTx := x.packetsTx
  dropsNoIntent := x.dropsByReason 0
  dropsDenyList := x.dropsByReason 1
  dropsUnprotected := x.dropsByReason 2
  dropsMalformed := x.dropsByReason 3
  dropsRateLimit := x.dropsByReason 4
  dropsSynFlood := x.dropsByReason 5
  dropsExploit := x.dropsByReason 6

/-- `pause` (`xdp.rs:452-454`). -/
def pause (x : XdpLiquidator) : XdpLiquidator := { x with active := false }

/-- `resume` (`xdp.rs:456-458`). -/
def resume (x : XdpLiquidator) : XdpLiquidator := { x with active := true }

end XdpLiquidator

/-! ## Runs -/

/-- The operations on a liquidator. -/
inductive XdpOp where
  | classify (raw : List UInt8)
  | pause
  | resume
  deriving DecidableEq, Repr

/-- What an operation returns. -/
inductive XdpOutcome where
  | classified (verdict : XdpVerdict) (reason : Option DropReason)
  | panicked
  | done
  deriving DecidableEq, Repr

/-- Run an operation. -/
def xdpStep (x : XdpLiquidator) : XdpOp → XdpLiquidator × XdpOutcome
  | .classify raw =>
      match x.classify raw with
      | none => (x, .panicked)
      | some (x, verdict, reason) => (x, .classified verdict reason)
  | .pause => (x.pause, .done)
  | .resume => (x.resume, .done)

end Spaceshuttle.Xdp
