import Mathlib.Data.List.Infix

/-!
# SNAFT

The syscall monitor of `crates/trust-kernel/src/snaft.rs`.
-/

namespace Spaceshuttle.Kernel

/-- `str::starts_with`. -/
def startsWith (text start : String) : Bool := start.toList.isPrefixOf text.toList

/-- `str::contains`. -/
def containsText (text pattern : String) : Bool := decide (pattern.toList <:+: text.toList)

/-- The extra syscalls of an intent: the first case that matches (`snaft.rs:10-27`). -/
def intentExtra (intent : String) : List String :=
  if intent = "analyze_malware_sample" then ["sys_open", "sys_stat", "sys_close"]
  else if intent = "code:execute" then ["sys_open", "sys_stat", "sys_close", "sys_getpid"]
  else if intent = "file:scan" then ["sys_open", "sys_stat", "sys_close", "sys_getdents"]
  else if startsWith intent "call:voice" then ["sys_sendto", "sys_recvfrom", "sys_ioctl"]
  else if startsWith intent "call:video" then
    ["sys_sendto", "sys_recvfrom", "sys_ioctl", "sys_mmap"]
  else if startsWith intent "shell:" then
    ["sys_open", "sys_stat", "sys_close", "sys_getpid", "sys_ioctl"]
  else if startsWith intent "http:" then
    ["sys_open", "sys_stat", "sys_close", "sys_sendto", "sys_recvfrom"]
  else if startsWith intent "tls:" then ["sys_open", "sys_stat", "sys_close"]
  else if startsWith intent "db:" then
    ["sys_open", "sys_stat", "sys_close", "sys_sendto", "sys_recvfrom"]
  else if startsWith intent "dns:" then ["sys_sendto", "sys_recvfrom"]
  else if startsWith intent "mail:" then ["sys_open", "sys_sendto", "sys_recvfrom"]
  else if startsWith intent "ai:" then
    ["sys_open", "sys_stat", "sys_close", "sys_sendto", "sys_recvfrom", "sys_mmap"]
  else if startsWith intent "metrics:" then ["sys_open", "sys_stat", "sys_sendto"]
  else if intent = "mux:native" then ["sys_open", "sys_stat", "sys_close"]
  else []

/-- `intent_allowlist` (`snaft.rs:6-34`), as a list. -/
def intentAllowlist (intent : String) : List String :=
  ["sys_execve", "sys_write", "sys_read", "sys_exit", "sys_brk", "sys_mprotect"] ++
    intentExtra intent

/-- `ALWAYS_DANGEROUS` (`snaft.rs:37-47`). -/
def alwaysDangerous : List String :=
  ["sys_ptrace", "sys_socket", "sys_connect", "sys_dlopen", "sys_fork", "sys_clone", "sys_mount",
    "sys_reboot", "sys_kexec_load"]

/-- `SnaftMonitor` (`snaft.rs:49-54`). -/
structure SnaftMonitor where
  intent : String
  observedSyscalls : List String
  violations : List String
  allowlist : List String
  deriving DecidableEq, Repr

namespace SnaftMonitor

/-- `SnaftMonitor::new` (`snaft.rs:70-77`). -/
def new (intent : String) : SnaftMonitor where
  intent := intent
  observedSyscalls := []
  violations := []
  allowlist := intentAllowlist intent

/-- `log_syscall` (`snaft.rs:84-104`). -/
def logSyscall (m : SnaftMonitor) (call : String) : SnaftMonitor :=
  let m := { m with observedSyscalls := m.observedSyscalls ++ [call] }
  if call ∈ alwaysDangerous then
    { m with violations := m.violations ++
        [s!"{call} (blocked: dangerous syscall for any intent)"] }
  else if call ∉ m.allowlist then
    { m with violations := m.violations ++ [s!"{call} (not allowed for intent '{m.intent}')"] }
  else m

end SnaftMonitor

end Spaceshuttle.Kernel
