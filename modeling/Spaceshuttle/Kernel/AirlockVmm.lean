import Spaceshuttle.Kernel.Verdicts
import Spaceshuttle.Lib.Prefixes

/-!
# The airlock

The microVM of `crates/trust-kernel/src/airlock_vmm.rs`: an intent is routed to a snapshot, and a payload
is executed under the monitor, which then triages (`snaft.rs:122-150`). The start of the machine, the
simulated injection of its memory and its stop are left out.

No route begins another, so an intent has one snapshot at most. What the dry run of Kernel A passes,
the machine executes.
-/

namespace Spaceshuttle.Kernel

/-! ## Routing -/

/-- `IntentRoute` (`airlock_vmm.rs:44-51`). -/
structure IntentRoute where
  ociImage : String
  snapshotName : String
  memorySizeMb : Nat
  hugepages : Bool
  deriving DecidableEq, Repr

/-- `INTENT_ROUTES` (`airlock_vmm.rs:53-115`). -/
def intentRoutes : List (String × IntentRoute) :=
  [("analyze_malware_sample",
      ⟨"humotica/airlock-python:latest", "python-safe-boot", 256, false⟩),
    ("call:voice", ⟨"humotica/airlock-sip:v2", "sip-ready", 128, true⟩),
    ("call:video", ⟨"humotica/airlock-webrtc:v1", "webrtc-ready", 256, true⟩),
    ("code:execute", ⟨"humotica/airlock-python:latest", "python-safe-boot", 256, false⟩),
    ("file:scan", ⟨"humotica/airlock-scanner:latest", "scanner-ready", 128, false⟩),
    ("shell:", ⟨"humotica/airlock-shell:latest", "shell-ready", 128, false⟩),
    ("http:", ⟨"humotica/airlock-http:latest", "http-ready", 128, false⟩),
    ("db:", ⟨"humotica/airlock-db:latest", "db-ready", 256, false⟩),
    ("ai:", ⟨"humotica/airlock-inference:latest", "inference-ready", 512, true⟩),
    ("math_calculation", ⟨"humotica/airlock-compute:latest", "compute-ready", 64, false⟩)]

/-- `InjectionMethod` (`airlock_vmm.rs:144-151`). -/
inductive InjectionMethod where
  | mmapRaw
  | zstdInject
  | zstdInjectWithUpip
  deriving DecidableEq, Repr

/-- `MemoryConfig` (`airlock_vmm.rs:131-140`). -/
structure MemoryConfig where
  guestMemoryBytes : Nat
  tzaPath : String
  hugepages : Bool
  method : InjectionMethod
  deriving DecidableEq, Repr

/-- `AirlockVmm` (`airlock_vmm.rs:121-127`). -/
structure AirlockVmm where
  intent : String
  ociImage : String
  snapshotPath : String
  memoryConfig : MemoryConfig
  deriving DecidableEq, Repr

namespace AirlockVmm

/-- `from_route` (`airlock_vmm.rs:224-237`). -/
def fromRoute (intent : String) (route : IntentRoute) : AirlockVmm :=
  let name := route.snapshotName
  { intent := intent
    ociImage := route.ociImage
    snapshotPath := s!"/var/lib/ignition/snapshots/{name}"
    memoryConfig :=
      { guestMemoryBytes := route.memorySizeMb * 1024 * 1024
        tzaPath := s!"/var/lib/ignition/snapshots/{name}.tza"
        hugepages := route.hugepages
        method := .zstdInjectWithUpip } }

/-- The two searches of `prepare_for_intent`, on a table of routes. -/
def prepareWith (routes : List (String × IntentRoute)) (intent : String) :
    Except String AirlockVmm :=
  match routes.find? (fun entry => decide (intent = entry.1)) with
  | some (_, route) => .ok (fromRoute intent route)
  | none =>
      match routes.find? (fun entry => startsWith intent entry.1) with
      | some (_, route) => .ok (fromRoute intent route)
      | none => .error
          s!"No safe snapshot for intent '{intent}'. Register one with `airlock register-intent`."

/-- `prepare_for_intent` (`airlock_vmm.rs:206-222`). -/
def prepareForIntent (intent : String) : Except String AirlockVmm := prepareWith intentRoutes intent

end AirlockVmm

/-! ## Execution -/

/-- The patterns of `execute_payload` (`airlock_vmm.rs:449-462`). -/
def executionPatterns : List (String × String) :=
  [("os.system", "sys_socket"), ("subprocess", "sys_socket"), ("curl ", "sys_socket"),
    ("wget ", "sys_socket"), ("bash", "sys_socket"), ("/bin/sh", "sys_socket"),
    ("eval(", "sys_ptrace"), ("exec(", "sys_ptrace"), ("ptrace", "sys_ptrace"),
    ("mmap", "sys_mmap"), ("dlopen", "sys_dlopen"), ("LD_PRELOAD", "sys_dlopen")]

/-- `RunningVm::execute_payload` (`airlock_vmm.rs:444-478`). -/
def executePayload (payload : String) (m : SnaftMonitor) : SnaftMonitor × Except String String :=
  let m := Voorproever.scanPatterns executionPatterns payload (m.logSyscall "sys_execve")
  if !m.violations.isEmpty then
    let joined := ", ".intercalate m.violations
    (m, .error s!"Execution violated intent bounds: {joined}")
  else
    ((m.logSyscall "sys_write").logSyscall "sys_exit",
      .ok s!"Output: payload executed safely within intent '{m.intent}'")

/-- `Decision` (`snaft.rs:56-61`). -/
structure Decision where
  isSafe : Bool
  reason : String
  violations : List String
  observedSyscalls : List String
  deriving DecidableEq, Repr

/-- `triage` (`snaft.rs:122-150`). -/
def SnaftMonitor.triage (m : SnaftMonitor) (executionResult : Except String String) : Decision :=
  match executionResult with
  | .error msg => ⟨false, msg, m.violations, m.observedSyscalls⟩
  | .ok _ =>
      if !m.violations.isEmpty then
        let count := m.violations.length
        let joined := "; ".intercalate m.violations
        ⟨false, s!"SNAFT detected {count} violation(s): {joined}", m.violations, m.observedSyscalls⟩
      else
        let count := m.observedSyscalls.length
        ⟨true, s!"All {count} syscalls within intent '{m.intent}' bounds", [], m.observedSyscalls⟩

/-! ## One snapshot for an intent -/

/-- No route begins another. -/
theorem intentRoutes_free : Prefixes.Free (fun entry => entry.1.toList) intentRoutes := by
  decide

namespace AirlockVmm

variable {intent : String} {routes : List (String × IntentRoute)}

/-- In a table where no route begins another, the exact match is the match by prefix. -/
theorem prepareWith_eq (hfree : Prefixes.Free (fun entry => entry.1.toList) routes) :
    prepareWith routes intent =
      match Prefixes.find (fun entry => entry.1.toList) intent.toList routes with
      | some (_, route) => .ok (fromRoute intent route)
      | none => .error
          s!"No safe snapshot for intent '{intent}'. Register one with `airlock register-intent`." := by
  unfold prepareWith
  cases hexact : routes.find? (fun entry => decide (intent = entry.1)) with
  | none => rfl
  | some entry =>
    have htext : intent = entry.1 := by simpa using List.find?_some hexact
    rw [hfree.find_exact (List.mem_of_find?_eq_some hexact) (congrArg String.toList htext.symm)]

theorem prepareForIntent_ok_iff {vmm : AirlockVmm} :
    prepareForIntent intent = .ok vmm ↔
      ∃ entry ∈ intentRoutes, startsWith intent entry.1 = true ∧
        vmm = fromRoute intent entry.2 := by
  have hfits : ∀ entry : String × IntentRoute, startsWith intent entry.1 = true ↔
      entry.1.toList <+: intent.toList := fun _ => List.isPrefixOf_iff_prefix
  rw [prepareForIntent, prepareWith_eq intentRoutes_free]
  cases hfind : Prefixes.find (fun entry => entry.1.toList) intent.toList intentRoutes with
  | none =>
    refine iff_of_false nofun ?_
    rintro ⟨entry, hmem, hstart, -⟩
    exact Prefixes.find_eq_none.mp hfind entry hmem ((hfits entry).mp hstart)
  | some found =>
    obtain ⟨hmem, hstart⟩ := Prefixes.find_some hfind
    constructor
    · intro h
      cases h
      exact ⟨found, hmem, (hfits found).mpr hstart, rfl⟩
    · rintro ⟨entry, hmem', hstart', rfl⟩
      rw [intentRoutes_free.unique hmem' hmem ((hfits entry).mp hstart') hstart]

end AirlockVmm

/-- The known intents that have no route. -/
def unroutedIntents : List String :=
  Voorproever.knownIntents.filter fun known =>
    !intentRoutes.any fun entry => startsWith known entry.1

theorem startsWith_trans {text start start' : String} (h : startsWith text start = true)
    (h' : startsWith start start' = true) : startsWith text start' = true := by
  unfold startsWith at *
  rw [List.isPrefixOf_iff_prefix] at *
  exact h'.trans h

/-- An intent that Kernel A knows has no route if and only if it begins with one of those that have
none. -/
theorem not_routed_iff {intent : String} (hknown : Voorproever.isKnownIntent intent = true) :
    (∀ entry ∈ intentRoutes, startsWith intent entry.1 = false) ↔
      ∃ known ∈ unroutedIntents, startsWith intent known = true := by
  constructor
  · intro hnone
    obtain ⟨known, hmem, hstart⟩ := List.any_eq_true.mp hknown
    refine ⟨known, List.mem_filter.mpr ⟨hmem, ?_⟩, hstart⟩
    rw [Bool.not_eq_true', List.any_eq_false]
    intro entry hentry hroute
    have hfits := startsWith_trans hstart hroute
    rw [hnone entry hentry] at hfits
    cases hfits
  · rintro ⟨known, hmem, hstart⟩ entry hentry
    have hshorter : ∀ known ∈ unroutedIntents, ∀ entry ∈ intentRoutes,
        startsWith known entry.1 = false ∧ startsWith entry.1 known = false := by
      decide
    obtain ⟨hno, hno'⟩ := hshorter known hmem entry hentry
    exact startsWith_exclusive hstart hno hno'

/-- An intent begins with the pattern of at most one route, and with this one it is prepared, whatever
the order of the routes; the exact match makes no difference. An intent that Kernel A knows has no route
if and only if it begins with one of those that have none. -/
theorem intent_routed_once (intent : String) :
    (∀ entry ∈ intentRoutes, ∀ entry' ∈ intentRoutes, startsWith intent entry.1 = true →
      startsWith intent entry'.1 = true → entry = entry') ∧
    (∀ routes : List (String × IntentRoute), routes.Perm intentRoutes →
      AirlockVmm.prepareWith routes intent = AirlockVmm.prepareForIntent intent) ∧
    (∀ vmm, AirlockVmm.prepareForIntent intent = .ok vmm ↔
      ∃ entry ∈ intentRoutes, startsWith intent entry.1 = true ∧
        vmm = AirlockVmm.fromRoute intent entry.2) ∧
    (Voorproever.isKnownIntent intent = true →
      ((∀ vmm, AirlockVmm.prepareForIntent intent ≠ .ok vmm) ↔
        ∃ known ∈ unroutedIntents, startsWith intent known = true)) := by
  refine ⟨fun entry hmem entry' hmem' hstart hstart' => ?_, fun routes hperm => ?_,
    fun vmm => AirlockVmm.prepareForIntent_ok_iff, fun hknown => ?_⟩
  · exact intentRoutes_free.unique hmem hmem' (List.isPrefixOf_iff_prefix.mp hstart)
      (List.isPrefixOf_iff_prefix.mp hstart')
  · have hfree : Prefixes.Free (fun entry => entry.1.toList) routes :=
      (hperm.pairwise_iff fun hne => ⟨hne.2, hne.1⟩).mpr intentRoutes_free
    rw [AirlockVmm.prepareForIntent, AirlockVmm.prepareWith_eq hfree,
      AirlockVmm.prepareWith_eq intentRoutes_free, intentRoutes_free.find_perm hperm]
  · rw [← not_routed_iff hknown]
    constructor
    · intro hnone entry hentry
      rw [← Bool.not_eq_true]
      exact fun hstart => hnone _ (AirlockVmm.prepareForIntent_ok_iff.mpr ⟨entry, hentry, hstart, rfl⟩)
    · intro hnone vmm hvmm
      obtain ⟨entry, hentry, hstart, -⟩ := AirlockVmm.prepareForIntent_ok_iff.mp hvmm
      rw [hnone entry hentry] at hstart
      cases hstart

/-- A frame that Kernel A can pass and that no machine is there for. -/
theorem intent_routed_once_native :
    ¬ ∃ vmm, AirlockVmm.prepareForIntent "mux:native" = .ok vmm := by
  rintro ⟨vmm, hvmm⟩
  exact ((intent_routed_once "mux:native").2.2.2 (by decide)).mpr
    ⟨"mux:native", by decide, by decide⟩ vmm hvmm

/-! ## Three gates -/

open SnaftMonitor (Blocked)

/-- The monitor of an intent after some syscalls. -/
def SnaftMonitor.after (intent : String) (calls : List String) : SnaftMonitor :=
  calls.foldl SnaftMonitor.logSyscall (.new intent)

theorem SnaftMonitor.after_allowlist (intent : String) (calls : List String) :
    (SnaftMonitor.after intent calls).allowlist = intentAllowlist intent := by
  unfold SnaftMonitor.after
  induction calls using List.reverseRecOn with
  | nil => rfl
  | append_singleton calls call ih =>
    rw [List.foldl_append]
    exact (SnaftMonitor.logSyscall_allowlist _ call).trans ih

/-- The monitor is clean if no syscall was blocked. -/
theorem SnaftMonitor.after_clean_iff (intent : String) (calls : List String) :
    (SnaftMonitor.after intent calls).violations = [] ↔
      ∀ call ∈ calls, ¬ Blocked (intentAllowlist intent) call := by
  induction calls using List.reverseRecOn with
  | nil => exact iff_of_true rfl (List.forall_mem_nil _)
  | append_singleton calls call ih =>
    have hconcat : SnaftMonitor.after intent (calls ++ [call]) =
        (SnaftMonitor.after intent calls).logSyscall call := List.foldl_append
    rw [hconcat, SnaftMonitor.logSyscall_clean_iff, ih, SnaftMonitor.after_allowlist]
    simp only [List.forall_mem_append, List.forall_mem_singleton]

/-- What is executed under a clean monitor is safe, and nothing else. -/
theorem executePayload_safe_iff {intent : String} {m : SnaftMonitor}
    (hm : m.allowlist = intentAllowlist intent) (payload : String) :
    let out := executePayload payload m
    ((out.1.triage out.2).isSafe = true ↔ m.violations = [] ∧ ∀ entry ∈ executionPatterns,
      containsText payload entry.1 = true → ¬ Blocked (intentAllowlist intent) entry.2) ∧
    ((out.1.triage out.2).isSafe = true ↔ ∃ output, out.2 = .ok output) := by
  intro out
  have hbase := base_not_blocked intent
  have hallowlist : (Voorproever.scanPatterns executionPatterns payload
      (m.logSyscall "sys_execve")).allowlist = intentAllowlist intent :=
    (Voorproever.scanPatterns_allowlist _ _ _).trans ((SnaftMonitor.logSyscall_allowlist _ _).trans hm)
  have hscan : (Voorproever.scanPatterns executionPatterns payload
      (m.logSyscall "sys_execve")).violations = [] ↔ m.violations = [] ∧
        ∀ entry ∈ executionPatterns, containsText payload entry.1 = true →
          ¬ Blocked (intentAllowlist intent) entry.2 := by
    rw [Voorproever.scanPatterns_clean_iff, SnaftMonitor.logSyscall_clean_iff,
      SnaftMonitor.logSyscall_allowlist, hm, and_iff_left (hbase "sys_execve" (by decide))]
  rw [← hscan]
  have hout : out = executePayload payload m := rfl
  unfold executePayload at hout
  dsimp only at hout
  generalize Voorproever.scanPatterns executionPatterns payload (m.logSyscall "sys_execve") = scanned
    at hallowlist hout ⊢
  cases hclean : scanned.violations with
  | nil =>
    rw [hclean, List.isEmpty_nil, Bool.not_true, if_neg Bool.false_ne_true] at hout
    have hend : ((scanned.logSyscall "sys_write").logSyscall "sys_exit").violations = [] := by
      rw [SnaftMonitor.logSyscall_allowed, SnaftMonitor.logSyscall_allowed, hclean]
      · rw [hallowlist]
        exact hbase "sys_write" (by decide)
      · rw [SnaftMonitor.logSyscall_allowlist, hallowlist]
        exact hbase "sys_exit" (by decide)
    have hsafe : (out.1.triage out.2).isSafe = true := by
      rw [hout]
      simp only [SnaftMonitor.triage, hend, List.isEmpty_nil, Bool.not_true, Bool.false_eq_true,
        if_false]
    exact ⟨iff_of_true hsafe rfl, iff_of_true hsafe ⟨_, congrArg Prod.snd hout⟩⟩
  | cons violation violations =>
    rw [hclean, List.isEmpty_cons, Bool.not_false, if_pos rfl] at hout
    have hunsafe : ¬ (out.1.triage out.2).isSafe = true := by
      rw [hout]
      exact Bool.false_ne_true
    refine ⟨iff_of_false hunsafe (List.cons_ne_nil _ _), iff_of_false hunsafe ?_⟩
    rintro ⟨output, hok⟩
    rw [hout] at hok
    cases hok

/-- What passes Kernel A. -/
theorem Voorproever.passes_iff (cfg : TrustKernelConfig) (frame : TibetMuxFrame) :
    Passes cfg frame ↔ isKnownIntent frame.intent = true ∧ ∀ entry ∈ configuredPatterns cfg,
      containsText frame.payload entry.1 = true → ¬ Blocked (intentAllowlist frame.intent) entry.2 := by
  rw [← monitorOf_clean_iff]
  exact ⟨fun h => ⟨h.known, h.clean⟩, fun h => ⟨h.1, h.2⟩⟩

/-- The exact condition of each gate, and how they lie in each other. Kernel A passes a frame if it knows
the intent and no pattern it looks for is blocked. In a machine whose monitor has seen some syscalls, a
payload is safe if and only if it is executed, and that is if and only if no syscall before it and no
pattern in it is blocked. So what the dry run passes is safe there unless an earlier syscall was blocked,
and what is safe there and for a known intent, the fast mode passes. -/
theorem gates_nested (cfg : TrustKernelConfig) (frame : TibetMuxFrame) (calls : List String) :
    let allowlist := intentAllowlist frame.intent
    let out := executePayload frame.payload (.after frame.intent calls)
    let decision := out.1.triage out.2
    (Voorproever.Passes cfg frame ↔ Voorproever.isKnownIntent frame.intent = true ∧
      ∀ entry ∈ Voorproever.configuredPatterns cfg, containsText frame.payload entry.1 = true →
        ¬ Blocked allowlist entry.2) ∧
    (decision.isSafe = true ↔ (∀ call ∈ calls, ¬ Blocked allowlist call) ∧
      ∀ entry ∈ executionPatterns, containsText frame.payload entry.1 = true →
        ¬ Blocked allowlist entry.2) ∧
    (decision.isSafe = true ↔ ∃ output, out.2 = .ok output) ∧
    (cfg.voorproeverDryrun = true → Voorproever.Passes cfg frame →
      (∀ call ∈ calls, ¬ Blocked allowlist call) → decision.isSafe = true) ∧
    (cfg.voorproeverDryrun = false → Voorproever.isKnownIntent frame.intent = true →
      decision.isSafe = true → Voorproever.Passes cfg frame) := by
  intro allowlist out decision
  obtain ⟨hsafe, hexecuted⟩ :=
    executePayload_safe_iff (SnaftMonitor.after_allowlist frame.intent calls) frame.payload
  rw [SnaftMonitor.after_clean_iff] at hsafe
  refine ⟨Voorproever.passes_iff cfg frame, hsafe, hexecuted, fun hdryrun hpasses hcalls => ?_,
    fun hfast hknown hdecision => ?_⟩
  · have hclean := ((Voorproever.passes_iff cfg frame).mp hpasses).2
    rw [Voorproever.configuredPatterns, if_pos hdryrun] at hclean
    have hsubset : ∀ entry ∈ executionPatterns, entry ∈ Voorproever.dangerousPatterns := by decide
    exact hsafe.mpr ⟨hcalls, fun entry hmem => hclean entry (hsubset entry hmem)⟩
  · have hsubset : ∀ entry ∈ Voorproever.criticalPatterns, entry ∈ executionPatterns := by decide
    rw [Voorproever.passes_iff, Voorproever.configuredPatterns, if_neg (Bool.eq_false_iff.mp hfast)]
    exact ⟨hknown, fun entry hmem => (hsafe.mp hdecision).2 entry (hsubset entry hmem)⟩

/-- A request that Kernel A passes is safe in a machine that has read a file, and is not executed in one
that was seen tracing a process. -/
theorem gates_nested_index :
    let after := fun calls => executePayload "GET /index.html" (.after "http:get" calls)
    ((after ["sys_read"]).1.triage (after ["sys_read"]).2).isSafe = true ∧
    ¬ ∃ output, (after ["sys_ptrace"]).2 = .ok output := by
  have hnone : ∀ entry ∈ Voorproever.dangerousPatterns,
      containsText "GET /index.html" entry.1 = false := by decide
  have hblocked : Blocked (intentAllowlist "http:get") "sys_ptrace" := by decide
  obtain ⟨hpasses, -, -, hdryrun, -⟩ :=
    gates_nested .balanced ⟨1, "http:get", "client.aint", "GET /index.html"⟩ ["sys_read"]
  obtain ⟨-, hsafe, hexecuted, -⟩ :=
    gates_nested .balanced ⟨1, "http:get", "client.aint", "GET /index.html"⟩ ["sys_ptrace"]
  refine ⟨hdryrun rfl (hpasses.mpr ⟨by decide, fun entry hmem hcontains => ?_⟩) (by decide), ?_⟩
  · rw [hnone entry hmem] at hcontains
    cases hcontains
  · intro houtput
    exact (hsafe.mp (hexecuted.mpr houtput)).1 _ List.mem_cons_self hblocked

end Spaceshuttle.Kernel
