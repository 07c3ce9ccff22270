import Spaceshuttle.Kernel.Inspection

/-!
# Verdicts

Kernel A kills a frame exactly if its payload contains a pattern whose syscall is blocked for the intent.
All that follows is about the pattern tables and the allowlists.
-/

namespace Spaceshuttle.Kernel

/-! ## The monitor -/

namespace SnaftMonitor

/-- A syscall that is a violation. -/
def Blocked (allowlist : List String) (call : String) : Prop := call ∈ alwaysDangerous ∨ call ∉ allowlist

instance (allowlist : List String) (call : String) : Decidable (Blocked allowlist call) :=
  inferInstanceAs (Decidable (_ ∨ _))

variable {m : SnaftMonitor} {call : String}

@[simp] theorem logSyscall_allowlist (m : SnaftMonitor) (call : String) :
    (m.logSyscall call).allowlist = m.allowlist := by
  unfold logSyscall
  dsimp only
  split
  · rfl
  · split <;> rfl

/-- A syscall that is not blocked adds no violation. -/
theorem logSyscall_allowed (h : ¬ Blocked m.allowlist call) :
    (m.logSyscall call).violations = m.violations := by
  unfold Blocked at h
  push Not at h
  unfold logSyscall
  dsimp only
  rw [if_neg h.1, if_neg (not_not.mpr h.2)]

theorem logSyscall_clean_iff : (m.logSyscall call).violations = [] ↔
    m.violations = [] ∧ ¬ Blocked m.allowlist call := by
  constructor
  · intro hclean
    refine ⟨List.prefix_nil.mp (hclean ▸ m.logSyscall_violations call), fun hblocked => ?_⟩
    unfold logSyscall at hclean
    dsimp only at hclean
    rcases hblocked with hdangerous | hmissing
    · rw [if_pos hdangerous] at hclean
      exact List.append_ne_nil_of_right_ne_nil _ (List.cons_ne_nil _ _) hclean
    · by_cases hdangerous : call ∈ alwaysDangerous
      · rw [if_pos hdangerous] at hclean
        exact List.append_ne_nil_of_right_ne_nil _ (List.cons_ne_nil _ _) hclean
      · rw [if_neg hdangerous, if_pos hmissing] at hclean
        exact List.append_ne_nil_of_right_ne_nil _ (List.cons_ne_nil _ _) hclean
  · rintro ⟨hclean, hallowed⟩
    rw [logSyscall_allowed hallowed, hclean]

end SnaftMonitor

/-! ## Allowlists -/

/-- The syscalls that every intent may make. -/
theorem mem_intentAllowlist_of_base {call : String} (intent : String)
    (h : call ∈ ["sys_execve", "sys_write", "sys_read", "sys_exit", "sys_brk", "sys_mprotect"]) :
    call ∈ intentAllowlist intent := List.mem_append_left _ h

theorem base_not_blocked (intent : String) :
    ∀ call ∈ ["sys_execve", "sys_read", "sys_write", "sys_brk", "sys_exit"],
      ¬ SnaftMonitor.Blocked (intentAllowlist intent) call := by
  intro call hcall
  have hbase : ∀ call ∈ ["sys_execve", "sys_read", "sys_write", "sys_brk", "sys_exit"],
      call ∉ alwaysDangerous ∧
        call ∈ ["sys_execve", "sys_write", "sys_read", "sys_exit", "sys_brk", "sys_mprotect"] := by
    decide
  obtain ⟨hsafe, hmem⟩ := hbase call hcall
  rintro (hdangerous | hmissing)
  · exact hsafe hdangerous
  · exact hmissing (mem_intentAllowlist_of_base intent hmem)

/-- A text does not begin with two texts of which neither begins the other. -/
theorem startsWith_exclusive {text start start' : String} (h : startsWith text start = true)
    (hne : startsWith start start' = false) (hne' : startsWith start' start = false) :
    startsWith text start' = false := by
  unfold startsWith at *
  rw [Bool.eq_false_iff, ne_eq, List.isPrefixOf_iff_prefix] at *
  intro h'
  rcases List.prefix_or_prefix_of_prefix h h' with hle | hle
  · exact hne' hle
  · exact hne hle

/-- The intents that may map memory. -/
def MayMap (intent : String) : Prop :=
  startsWith intent "call:video" = true ∨ startsWith intent "ai:" = true

theorem ne_of_startsWith {text other start : String} (h : startsWith text start = true)
    (hother : startsWith other start = false) : text ≠ other := by
  rintro rfl
  rw [h] at hother
  cases hother

theorem intentExtra_video {intent : String} (h : startsWith intent "call:video" = true) :
    "sys_mmap" ∈ intentExtra intent := by
  have hvoice : startsWith intent "call:voice" = false :=
    startsWith_exclusive h (by decide) (by decide)
  rw [intentExtra, if_neg (ne_of_startsWith h (by decide)), if_neg (ne_of_startsWith h (by decide)),
    if_neg (ne_of_startsWith h (by decide)), if_neg (Bool.eq_false_iff.mp hvoice), if_pos h]
  decide

theorem intentExtra_ai {intent : String} (h : startsWith intent "ai:" = true) :
    "sys_mmap" ∈ intentExtra intent := by
  have hother : ∀ start ∈ ["call:voice", "call:video", "shell:", "http:", "tls:", "db:", "dns:",
      "mail:"], ¬ startsWith intent start = true := by
    intro start hstart
    have hexclusive : ∀ start ∈ ["call:voice", "call:video", "shell:", "http:", "tls:", "db:", "dns:",
        "mail:"], startsWith "ai:" start = false ∧ startsWith start "ai:" = false := by
      decide
    obtain ⟨hne, hne'⟩ := hexclusive start hstart
    exact Bool.eq_false_iff.mp (startsWith_exclusive h hne hne')
  rw [intentExtra, if_neg (ne_of_startsWith h (by decide)), if_neg (ne_of_startsWith h (by decide)),
    if_neg (ne_of_startsWith h (by decide)), if_neg (hother _ (by simp)), if_neg (hother _ (by simp)),
    if_neg (hother _ (by simp)), if_neg (hother _ (by simp)), if_neg (hother _ (by simp)),
    if_neg (hother _ (by simp)), if_neg (hother _ (by simp)), if_neg (hother _ (by simp)), if_pos h]
  decide

theorem not_mem_ite {α : Type} {p : Prop} [Decidable p] {a : α} {l l' : List α} (h : a ∉ l)
    (h' : a ∉ l') : a ∉ if p then l else l' := by
  split
  · exact h
  · exact h'

/-- Only calls with video and AI intents may map memory. -/
theorem mem_intentExtra_mmap_iff {intent : String} :
    "sys_mmap" ∈ intentExtra intent ↔ MayMap intent := by
  constructor
  · intro hmem
    by_contra hno
    unfold MayMap at hno
    push Not at hno
    unfold intentExtra at hmem
    rw [if_neg hno.1, if_neg hno.2] at hmem
    refine absurd hmem ?_
    repeat refine not_mem_ite (by decide) ?_
    exact List.not_mem_nil
  · rintro (hvideo | hai)
    · exact intentExtra_video hvideo
    · exact intentExtra_ai hai

theorem mmap_blocked_iff {intent : String} :
    SnaftMonitor.Blocked (intentAllowlist intent) "sys_mmap" ↔ ¬ MayMap intent := by
  have hsafe : "sys_mmap" ∉ alwaysDangerous := by decide
  have hbase : "sys_mmap" ∉
      ["sys_execve", "sys_write", "sys_read", "sys_exit", "sys_brk", "sys_mprotect"] := by decide
  rw [SnaftMonitor.Blocked, or_iff_right hsafe, intentAllowlist, List.mem_append, or_iff_right hbase,
    mem_intentExtra_mmap_iff]

/-! ## Scans -/

namespace Voorproever

open SnaftMonitor (Blocked)

variable {intent payload payload' : String} {m : SnaftMonitor}

/-- A scan is clean if the monitor was, and no pattern of a blocked syscall is in the payload. -/
theorem scanPatterns_clean_iff (patterns : List (String × String)) :
    (scanPatterns patterns payload m).violations = [] ↔ m.violations = [] ∧
      ∀ entry ∈ patterns, containsText payload entry.1 = true → ¬ Blocked m.allowlist entry.2 := by
  induction patterns generalizing m with
  | nil => simp [scanPatterns]
  | cons entry patterns ih =>
    have hcons : scanPatterns (entry :: patterns) payload m = scanPatterns patterns payload
      (if containsText payload entry.1 then m.logSyscall entry.2 else m) := rfl
    rw [hcons, ih, List.forall_mem_cons]
    by_cases hcontains : containsText payload entry.1 = true
    · rw [if_pos hcontains, SnaftMonitor.logSyscall_clean_iff, SnaftMonitor.logSyscall_allowlist]
      simp [hcontains, and_assoc]
    · rw [if_neg hcontains]
      simp [hcontains]

theorem scanPatterns_allowlist (patterns : List (String × String)) (payload : String)
    (m : SnaftMonitor) : (scanPatterns patterns payload m).allowlist = m.allowlist := by
  induction patterns generalizing m with
  | nil => rfl
  | cons entry patterns ih =>
    have hcons : scanPatterns (entry :: patterns) payload m = scanPatterns patterns payload
      (if containsText payload entry.1 then m.logSyscall entry.2 else m) := rfl
    rw [hcons, ih]
    split
    · exact SnaftMonitor.logSyscall_allowlist m entry.2
    · rfl

/-- The monitor after the start of a process. -/
theorem started_clean (intent : String) :
    ((SnaftMonitor.new intent).logSyscall "sys_execve").violations = [] ∧
      ((SnaftMonitor.new intent).logSyscall "sys_execve").allowlist = intentAllowlist intent := by
  have hallowed : ¬ Blocked (SnaftMonitor.new intent).allowlist "sys_execve" :=
    base_not_blocked intent "sys_execve" (by decide)
  exact ⟨SnaftMonitor.logSyscall_allowed hallowed, SnaftMonitor.logSyscall_allowlist _ _⟩

/-- The clean syscalls that the dry run simulates add no violation. -/
theorem dryRunSyscalls_violations (intent payload : String) :
    (dryRunSyscalls payload (SnaftMonitor.new intent)).violations =
      (scanPatterns dangerousPatterns payload
        ((SnaftMonitor.new intent).logSyscall "sys_execve")).violations := by
  have hallowlist : (scanPatterns dangerousPatterns payload
      ((SnaftMonitor.new intent).logSyscall "sys_execve")).allowlist = intentAllowlist intent :=
    (scanPatterns_allowlist _ _ _).trans (started_clean intent).2
  unfold dryRunSyscalls
  dsimp only
  generalize scanPatterns dangerousPatterns payload ((SnaftMonitor.new intent).logSyscall "sys_execve") = m
    at hallowlist
  have hallowed : ∀ call ∈ ["sys_execve", "sys_read", "sys_write", "sys_brk", "sys_exit"],
      ¬ Blocked m.allowlist call := hallowlist ▸ base_not_blocked intent
  split
  · rw [SnaftMonitor.logSyscall_allowed, SnaftMonitor.logSyscall_allowed,
      SnaftMonitor.logSyscall_allowed, SnaftMonitor.logSyscall_allowed]
    all_goals try simp only [SnaftMonitor.logSyscall_allowlist]
    all_goals exact hallowed _ (by decide)
  · rfl

/-- What the monitor of a frame finds: the configured patterns of blocked syscalls. -/
theorem monitorOf_clean_iff (cfg : TrustKernelConfig) (frame : TibetMuxFrame) :
    (monitorOf cfg frame).violations = [] ↔ ∀ entry ∈ configuredPatterns cfg,
      containsText frame.payload entry.1 = true → ¬ Blocked (intentAllowlist frame.intent) entry.2 := by
  obtain ⟨hclean, hallowlist⟩ := started_clean frame.intent
  have hscan : ∀ patterns, (scanPatterns patterns frame.payload
      ((SnaftMonitor.new frame.intent).logSyscall "sys_execve")).violations = [] ↔
      ∀ entry ∈ patterns, containsText frame.payload entry.1 = true →
        ¬ Blocked (intentAllowlist frame.intent) entry.2 := by
    intro patterns
    rw [scanPatterns_clean_iff, hallowlist, and_iff_right hclean]
  unfold monitorOf configuredPatterns
  dsimp only
  split
  · rw [dryRunSyscalls_violations, hscan]
  · rw [patternCheckOnly, hscan]

end Voorproever

/-! ## Kills -/

/-- The verdict is `Kill`. -/
def VoorproeverVerdict.isKill : VoorproeverVerdict → Bool
  | .kill .. => true
  | _ => false

namespace Voorproever

open SnaftMonitor (Blocked)

/-- The verdict on a frame, whatever bus, watchdog and clocks are. -/
def Kills (cfg : TrustKernelConfig) (frame : TibetMuxFrame) : Prop :=
  ∀ bus watchdog stampedAtNs respondedAtNs,
    (evaluate cfg bus watchdog stampedAtNs respondedAtNs frame).2.2.isKill = true

variable {cfg cfg' : TrustKernelConfig} {frame : TibetMuxFrame}

theorem evaluate_isKill_iff (hknown : isKnownIntent frame.intent = true) (bus : VirtualBus)
    (watchdog : Watchdog) (stampedAtNs respondedAtNs : UInt64) :
    (evaluate cfg bus watchdog stampedAtNs respondedAtNs frame).2.2.isKill = true ↔
      ∃ entry ∈ configuredPatterns cfg, containsText frame.payload entry.1 = true ∧
        Blocked (intentAllowlist frame.intent) entry.2 := by
  have hclean : (∃ entry ∈ configuredPatterns cfg, containsText frame.payload entry.1 = true ∧
      Blocked (intentAllowlist frame.intent) entry.2) ↔ ¬ (monitorOf cfg frame).violations = [] := by
    rw [monitorOf_clean_iff]
    push Not
    rfl
  rw [hclean, evaluate, hknown]
  cases hviolations : (monitorOf cfg frame).violations with
  | nil => simp [VoorproeverVerdict.isKill, hviolations]
  | cons violation violations => simp [VoorproeverVerdict.isKill, hviolations]

theorem kills_iff (hknown : isKnownIntent frame.intent = true) : Kills cfg frame ↔
    ∃ entry ∈ configuredPatterns cfg, containsText frame.payload entry.1 = true ∧
      Blocked (intentAllowlist frame.intent) entry.2 := by
  constructor
  · intro hkills
    exact (evaluate_isKill_iff hknown (.new 0) (.new 0 0) 0 0).mp (hkills _ _ _ _)
  · intro hfound bus watchdog stampedAtNs respondedAtNs
    exact (evaluate_isKill_iff hknown bus watchdog stampedAtNs respondedAtNs).mpr hfound

/-- Every pattern but one stands for a syscall that no intent may make. -/
theorem dangerousPatterns_blocked_iff (intent : String) :
    ∀ entry ∈ dangerousPatterns, (Blocked (intentAllowlist intent) entry.2 ↔
      entry.1 ≠ "mmap" ∨ ¬ MayMap intent) := by
  intro entry hmem
  have hkinds : ∀ entry ∈ dangerousPatterns,
      entry.1 ≠ "mmap" ∧ entry.2 ∈ alwaysDangerous ∨ entry = ("mmap", "sys_mmap") := by decide
  rcases hkinds entry hmem with ⟨hpattern, hdangerous⟩ | rfl
  · exact iff_of_true (.inl hdangerous) (.inl hpattern)
  · rw [mmap_blocked_iff]
    exact ⟨.inr, fun h => h.resolve_left fun hne => hne rfl⟩

/-- The dry run kills what contains a pattern other than `mmap`, and `mmap` itself unless the intent may
map memory. -/
theorem kills_dryrun_iff (hknown : isKnownIntent frame.intent = true)
    (hdryrun : cfg.voorproeverDryrun = true) : Kills cfg frame ↔
      (∃ entry ∈ dangerousPatterns, entry.1 ≠ "mmap" ∧ containsText frame.payload entry.1 = true) ∨
        containsText frame.payload "mmap" = true ∧ ¬ MayMap frame.intent := by
  rw [kills_iff hknown, configuredPatterns, if_pos hdryrun]
  constructor
  · rintro ⟨entry, hmem, hcontains, hblocked⟩
    by_cases hpattern : entry.1 = "mmap"
    · rcases (dangerousPatterns_blocked_iff frame.intent entry hmem).mp hblocked with hne | hmap
      · exact absurd hpattern hne
      · exact .inr ⟨hpattern ▸ hcontains, hmap⟩
    · exact .inl ⟨entry, hmem, hpattern, hcontains⟩
  · rintro (⟨entry, hmem, hpattern, hcontains⟩ | ⟨hcontains, hmap⟩)
    · exact ⟨entry, hmem, hcontains,
        (dangerousPatterns_blocked_iff frame.intent entry hmem).mpr (.inl hpattern)⟩
    · exact ⟨("mmap", "sys_mmap"), by decide, hcontains, mmap_blocked_iff.mpr hmap⟩

/-- The fast mode looks for fewer patterns. -/
theorem kills_dryrun_of_fast (hknown : isKnownIntent frame.intent = true)
    (hfast : cfg.voorproeverDryrun = false) (hdryrun : cfg'.voorproeverDryrun = true)
    (h : Kills cfg frame) : Kills cfg' frame := by
  rw [kills_iff hknown, configuredPatterns] at *
  rw [if_neg (Bool.eq_false_iff.mp hfast)] at h
  rw [if_pos hdryrun]
  obtain ⟨entry, hmem, hfound⟩ := h
  have hsubset : ∀ entry ∈ criticalPatterns, entry ∈ dangerousPatterns := by decide
  exact ⟨entry, hsubset entry hmem, hfound⟩

/-- What is found in a payload is found in every payload that contains it. -/
theorem kills_of_contains (hknown : isKnownIntent frame.intent = true) {payload : String}
    (hcontains : containsText payload frame.payload = true) (h : Kills cfg frame) :
    Kills cfg { frame with payload := payload } := by
  obtain ⟨entry, hmem, hfound, hblocked⟩ := (kills_iff hknown).mp h
  have hknown' : isKnownIntent { frame with payload := payload }.intent = true := hknown
  refine (kills_iff hknown').mpr ⟨entry, hmem, ?_, hblocked⟩
  rw [containsText, decide_eq_true_iff] at *
  exact hfound.trans hcontains

/-- The verdicts on frames of known intents. They do not depend on the bus, the watchdog or the clocks.
In dry-run mode a frame is killed exactly if its payload contains a listed pattern other than `mmap`, or
`mmap` under an intent that may not map memory; the clean syscalls that are simulated add no violation.
What the fast mode kills, the dry run kills, and a kill on a payload is a kill on every payload that
contains it. -/
theorem verdict_policy (cfg : TrustKernelConfig) (frame : TibetMuxFrame)
    (hknown : isKnownIntent frame.intent = true) :
    (∀ bus watchdog stampedAtNs respondedAtNs,
      (evaluate cfg bus watchdog stampedAtNs respondedAtNs frame).2.2.isKill = true ↔
        Kills cfg frame) ∧
    (cfg.voorproeverDryrun = true → (Kills cfg frame ↔
      (∃ entry ∈ dangerousPatterns, entry.1 ≠ "mmap" ∧ containsText frame.payload entry.1 = true) ∨
        containsText frame.payload "mmap" = true ∧
          ¬ (startsWith frame.intent "call:video" = true ∨ startsWith frame.intent "ai:" = true))) ∧
    (dryRunSyscalls frame.payload (SnaftMonitor.new frame.intent)).violations =
      (scanPatterns dangerousPatterns frame.payload
        ((SnaftMonitor.new frame.intent).logSyscall "sys_execve")).violations ∧
    (∀ cfg', cfg.voorproeverDryrun = false → cfg'.voorproeverDryrun = true → Kills cfg frame →
      Kills cfg' frame) ∧
    ∀ payload, containsText payload frame.payload = true → Kills cfg frame →
      Kills cfg { frame with payload := payload } := by
  refine ⟨fun bus watchdog stampedAtNs respondedAtNs => ?_, kills_dryrun_iff hknown,
    dryRunSyscalls_violations frame.intent frame.payload,
    fun cfg' => kills_dryrun_of_fast hknown, fun payload => kills_of_contains hknown⟩
  rw [kills_iff hknown, evaluate_isKill_iff hknown]

/-- A frame that maps memory under an intent that may not. -/
def mappingFrame : TibetMuxFrame := ⟨0, "code:execute", "agent", "mmap(0)"⟩

theorem verdict_policy_mapping : isKnownIntent mappingFrame.intent = true ∧
    Kills .paranoid mappingFrame := by
  have hknown : isKnownIntent mappingFrame.intent = true := by decide
  refine ⟨hknown, ((verdict_policy .paranoid mappingFrame hknown).2.1 rfl).mpr (.inr ⟨?_, ?_⟩)⟩
  · decide
  · decide

end Voorproever

end Spaceshuttle.Kernel
