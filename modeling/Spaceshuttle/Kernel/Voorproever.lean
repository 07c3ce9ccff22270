import Spaceshuttle.Kernel.Bus
import Spaceshuttle.Kernel.Snaft
import Spaceshuttle.Kernel.Watchdog

/-!
# Kernel A

`Voorproever` of `crates/trust-kernel/src/voorproever.rs`, with the parts of
`crates/trust-kernel/src/config.rs` that the pipeline reads.
-/

namespace Spaceshuttle.Kernel

/-- `FiraMode` (`config.rs:46-49`). -/
inductive FiraMode where
  | live
  | static
  deriving DecidableEq, Repr

/-- `TrustKernelConfig` (`config.rs:6-10`), flat. -/
structure TrustKernelConfig where
  voorproeverDryrun : Bool
  jisSigningPerAction : Bool
  firaScoring : FiraMode
  timeoutMs : UInt64
  maxMissedHeartbeats : UInt32
  maxPayloadBytes : Nat
  deriving DecidableEq, Repr

namespace TrustKernelConfig

/-- `TrustKernelConfig::paranoid` (`config.rs:71-91`). -/
def paranoid : TrustKernelConfig where
  voorproeverDryrun := true
  jisSigningPerAction := true
  firaScoring := .live
  timeoutMs := 50
  maxMissedHeartbeats := 3
  maxPayloadBytes := 1024 * 1024

/-- `TrustKernelConfig::balanced` (`config.rs:94-114`). -/
def balanced : TrustKernelConfig where
  voorproeverDryrun := true
  jisSigningPerAction := true
  firaScoring := .live
  timeoutMs := 100
  maxMissedHeartbeats := 5
  maxPayloadBytes := 2 * 1024 * 1024

/-- `TrustKernelConfig::fast` (`config.rs:117-137`). -/
def fast : TrustKernelConfig where
  voorproeverDryrun := false
  jisSigningPerAction := false
  firaScoring := .static
  timeoutMs := 500
  maxMissedHeartbeats := 10
  maxPayloadBytes := 4 * 1024 * 1024

end TrustKernelConfig

/-- `TibetMuxFrame` (`mux.rs:8-13`). -/
structure TibetMuxFrame where
  channelId : UInt32
  intent : String
  fromAint : String
  payload : String
  deriving DecidableEq, Repr

/-- `VoorproeverVerdict` (`voorproever.rs:25-43`), without the evaluation time. -/
inductive VoorproeverVerdict where
  | pass (busPayload : BusPayload) (syscallsChecked : Nat)
  | kill (reason : String) (violations observedSyscalls : List String)
  | reject (reason : String)

/-- The verdict is `Reject`. -/
def VoorproeverVerdict.isReject : VoorproeverVerdict → Bool
  | .reject _ => true
  | _ => false

namespace Voorproever

/-- The patterns of the dry run with the syscall each stands for (`voorproever.rs:133-154`). -/
def dangerousPatterns : List (String × String) :=
  [("os.system", "sys_socket"), ("subprocess", "sys_socket"), ("curl ", "sys_socket"),
    ("wget ", "sys_socket"), ("bash", "sys_socket"), ("/bin/sh", "sys_socket"),
    ("eval(", "sys_ptrace"), ("exec(", "sys_ptrace"), ("ptrace", "sys_ptrace"),
    ("mmap", "sys_mmap"), ("dlopen", "sys_dlopen"), ("LD_PRELOAD", "sys_dlopen"),
    ("fork(", "sys_fork"), ("clone(", "sys_clone"), ("mount(", "sys_mount"),
    ("reboot(", "sys_reboot"), ("kexec", "sys_kexec_load"), ("import socket", "sys_socket"),
    ("import os", "sys_fork"), ("__import__", "sys_dlopen")]

/-- The patterns of the fast mode (`voorproever.rs:176-182`). -/
def criticalPatterns : List (String × String) :=
  [("os.system", "sys_socket"), ("subprocess", "sys_socket"), ("eval(", "sys_ptrace"),
    ("ptrace", "sys_ptrace"), ("LD_PRELOAD", "sys_dlopen")]

/-- Log the syscall of every pattern that the payload contains. -/
def scanPatterns (patterns : List (String × String)) (payload : String) (m : SnaftMonitor) :
    SnaftMonitor :=
  patterns.foldl (fun m entry => if containsText payload entry.1 then m.logSyscall entry.2 else m) m

/-- `dry_run_syscalls` (`voorproever.rs:128-169`). -/
def dryRunSyscalls (payload : String) (m : SnaftMonitor) : SnaftMonitor :=
  let m := scanPatterns dangerousPatterns payload (m.logSyscall "sys_execve")
  if m.violations.isEmpty then
    (((m.logSyscall "sys_read").logSyscall "sys_write").logSyscall "sys_brk").logSyscall "sys_exit"
  else m

/-- `pattern_check_only` (`voorproever.rs:172-189`). -/
def patternCheckOnly (payload : String) (m : SnaftMonitor) : SnaftMonitor :=
  scanPatterns criticalPatterns payload (m.logSyscall "sys_execve")

/-- `compute_fira` (`voorproever.rs:193-205`). -/
def computeFira (cfg : TrustKernelConfig) : Float :=
  match cfg.firaScoring with
  | .live => 0.85
  | .static => 0.50

/-- The known intents (`voorproever.rs:208-243`). -/
def knownIntents : List String :=
  ["code:execute", "analyze_malware_sample", "file:scan", "call:voice", "call:video",
    "math_calculation", "data:transform", "data:validate", "shell:session", "shell:command",
    "http:get", "http:post", "http:put", "http:delete", "http:patch", "http:head", "http:options",
    "http:api", "http:auth", "http:upload", "http:webhook", "http:admin", "tls:handshake",
    "db:connect", "db:query", "db:redis", "dns:query", "dns:resolve", "mail:send", "ai:inference",
    "metrics:scrape", "mux:native"]

/-- `is_known_intent` (`voorproever.rs:207-246`). -/
def isKnownIntent (intent : String) : Bool := knownIntents.any (fun k => startsWith intent k)

/-- The monitor after the scan of a frame (`voorproever.rs:76-84`). -/
def monitorOf (cfg : TrustKernelConfig) (frame : TibetMuxFrame) : SnaftMonitor :=
  let m := SnaftMonitor.new frame.intent
  if cfg.voorproeverDryrun then dryRunSyscalls frame.payload m else patternCheckOnly frame.payload m

/-- `evaluate` (`voorproever.rs:65-125`). `stampedAtNs` and `respondedAtNs` are the clock readings
of the bus and the watchdog. A rejected intent returns before the watchdog is notified. -/
def evaluate (cfg : TrustKernelConfig) (bus : VirtualBus) (watchdog : Watchdog)
    (stampedAtNs respondedAtNs : UInt64) (frame : TibetMuxFrame) :
    VirtualBus × Watchdog × VoorproeverVerdict :=
  if !isKnownIntent frame.intent then
    (bus, watchdog, .reject s!"Unknown intent '{frame.intent}' — no safe execution path")
  else
    let monitor := monitorOf cfg frame
    if !monitor.violations.isEmpty then
      (bus, watchdog.kernelAResponded respondedAtNs,
        .kill s!"SNAFT: {monitor.violations.length} violation(s) detected" monitor.violations
          monitor.observedSyscalls)
    else
      let (bus, busPayload) := bus.stampPayload stampedAtNs frame.intent frame.payload
        frame.fromAint monitor.observedSyscalls (computeFira cfg)
      (bus, watchdog.kernelAResponded respondedAtNs,
        .pass busPayload monitor.observedSyscalls.length)

end Voorproever

end Spaceshuttle.Kernel
