import Spaceshuttle.Kernel.PortMux

/-!
# What the port multiplexer inspects

Kernel A scans the preview of a connection, not its bytes. The monitor never forgets a violation,
so a dangerous pattern anywhere in the preview keeps the connection from the backend. The preview
holds the first characters of SSH, HTTP and Redis traffic; of other traffic it holds a description.
-/

namespace Spaceshuttle.Kernel

/-! ## The monitor -/

namespace SnaftMonitor

/-- The monitor only adds violations. -/
theorem logSyscall_violations (m : SnaftMonitor) (call : String) :
    m.violations <+: (m.logSyscall call).violations := by
  unfold logSyscall
  dsimp only
  split
  · exact List.prefix_append _ _
  · split
    · exact List.prefix_append _ _
    · exact List.prefix_rfl

/-- An always dangerous syscall is a violation under every intent. -/
theorem logSyscall_dangerous (m : SnaftMonitor) {call : String} (h : call ∈ alwaysDangerous) :
    (m.logSyscall call).violations ≠ [] := by
  unfold logSyscall
  dsimp only
  rw [if_pos h]
  exact List.append_ne_nil_of_right_ne_nil _ (List.cons_ne_nil _ _)

end SnaftMonitor

namespace Voorproever

theorem scanPatterns_violations (patterns : List (String × String)) (payload : String)
    (m : SnaftMonitor) : m.violations <+: (scanPatterns patterns payload m).violations := by
  unfold scanPatterns
  induction patterns generalizing m with
  | nil => exact List.prefix_rfl
  | cons entry patterns ih =>
    rw [List.foldl_cons]
    refine List.IsPrefix.trans ?_ (ih _)
    split
    · exact m.logSyscall_violations entry.2
    · exact List.prefix_rfl

/-- A pattern of a dangerous syscall anywhere in the payload is a violation. -/
theorem scanPatterns_dangerous {patterns : List (String × String)} {entry : String × String}
    (hmem : entry ∈ patterns) (hdangerous : entry.2 ∈ alwaysDangerous) {payload : String}
    (hcontains : containsText payload entry.1 = true) (m : SnaftMonitor) :
    (scanPatterns patterns payload m).violations ≠ [] := by
  obtain ⟨before, after, rfl⟩ := List.append_of_mem hmem
  unfold scanPatterns
  rw [List.foldl_append, List.foldl_cons, if_pos hcontains]
  have hlogged := SnaftMonitor.logSyscall_dangerous
    (List.foldl (fun m entry => if containsText payload entry.1 then m.logSyscall entry.2 else m) m
      before) hdangerous
  have hkept := scanPatterns_violations after payload (SnaftMonitor.logSyscall
    (List.foldl (fun m entry => if containsText payload entry.1 then m.logSyscall entry.2 else m) m
      before) entry.2)
  exact fun hnil => hlogged (List.prefix_nil.mp (hnil ▸ hkept))

/-- The patterns of the configured check. -/
def configuredPatterns (cfg : TrustKernelConfig) : List (String × String) :=
  if cfg.voorproeverDryrun then dangerousPatterns else criticalPatterns

/-- Kernel A does not pass a frame with a dangerous pattern in its payload. -/
theorem not_passes_of_pattern {cfg : TrustKernelConfig} {frame : TibetMuxFrame}
    {entry : String × String} (hmem : entry ∈ configuredPatterns cfg)
    (hdangerous : entry.2 ∈ alwaysDangerous)
    (hcontains : containsText frame.payload entry.1 = true) : ¬ Passes cfg frame := by
  intro h
  have hclean := h.clean
  unfold monitorOf at hclean
  unfold configuredPatterns at hmem
  cases hdryrun : cfg.voorproeverDryrun with
  | true =>
    rw [hdryrun, if_pos rfl] at hmem
    have hscan := scanPatterns_dangerous hmem hdangerous hcontains
      ((SnaftMonitor.new frame.intent).logSyscall "sys_execve")
    simp only [hdryrun, if_true, dryRunSyscalls, List.isEmpty_iff, hscan, if_false] at hclean
  | false =>
    rw [hdryrun, if_neg Bool.false_ne_true] at hmem
    have hscan := scanPatterns_dangerous hmem hdangerous hcontains
      ((SnaftMonitor.new frame.intent).logSyscall "sys_execve")
    simp only [hdryrun, Bool.false_eq_true, if_false] at hclean
    exact hscan hclean

end Voorproever

/-! ## The preview -/

/-- The text that stands for the first bytes of a connection: a slice of the decoded bytes, or a
description of them. -/
def previewText (port : UInt16) (bytes : List UInt8) : Option (List Char) :=
  match detect port bytes with
  | .ssh => Text.sliceAtMost (Text.fromUtf8Lossy (bytes.take 256)) 128
  | .http => Text.sliceAtMost (Text.fromUtf8Lossy (bytes.take 2048)) 256
  | .redis => Text.sliceAtMost (Text.fromUtf8Lossy (bytes.take 128)) 64
  | .tls => some (bytesPreview "[TLS ClientHello, " bytes.length)
  | .postgresql =>
      some ("[PG startup, user=".toList ++
        extractPgUser (Text.fromUtf8Lossy ((bytes.take 256).drop 8)) ++ "]".toList)
  | .mysql => some (bytesPreview "[MySQL handshake, " bytes.length)
  | .dns => some (bytesPreview "[DNS query, " bytes.length)
  | .unknown => some (rawPreview bytes)

theorem inferIntent_preview {port : UInt16} {bytes : List UInt8} {portMap : PortMap}
    {inferred : InferredIntent} (h : inferIntent port bytes portMap = some inferred) :
    previewText port bytes = some inferred.payloadPreview.toList := by
  unfold inferIntent at h
  unfold previewText
  cases hdetect : detect port bytes with
  | ssh | redis =>
    rw [hdetect] at h
    obtain ⟨preview, hpreview, h⟩ := Option.bind_eq_some_iff.mp h
    obtain rfl := Option.some.inj h
    simp only [hpreview, String.toList_ofList]
  | http =>
    rw [hdetect] at h
    obtain ⟨userAgent, -, h⟩ := Option.bind_eq_some_iff.mp h
    obtain ⟨preview, hpreview, h⟩ := Option.bind_eq_some_iff.mp h
    obtain rfl := Option.some.inj h
    simp only [hpreview, String.toList_ofList]
  | tls =>
    rw [hdetect] at h
    obtain ⟨sni, -, h⟩ := Option.bind_eq_some_iff.mp h
    obtain ⟨version, -, h⟩ := Option.bind_eq_some_iff.mp h
    obtain rfl := Option.some.inj h
    simp only [String.toList_ofList]
  | postgresql | mysql | dns | unknown =>
    rw [hdetect] at h
    obtain rfl := Option.some.inj h
    simp only [String.toList_ofList]

/-- A connection whose preview contains a pattern that the configured check maps to a dangerous
syscall is not forwarded, whatever the state of the kernels. -/
theorem preview_pattern_blocks (cfg : TrustKernelConfig) (portMap : PortMap) (k : TrustKernel)
    (conn : Connection) (bytes : List UInt8) (hread : conn.firstRead = some bytes)
    (text : List Char) (htext : previewText conn.listenPort bytes = some text)
    (entry : String × String) (hmem : entry ∈ Voorproever.configuredPatterns cfg)
    (hdangerous : entry.2 ∈ alwaysDangerous) (hcontains : textContains text entry.1 = true) :
    (wrapConnection cfg portMap k conn).2.forwarded = none := by
  refine wrapConnection_not_reaches ?_ k
  intro frame hreaches
  refine Voorproever.not_passes_of_pattern hmem hdangerous ?_ hreaches.passes
  obtain ⟨bytes', hinspected⟩ := hreaches.inspected
  unfold Connection.inspected at hinspected
  rw [hread] at hinspected
  cases bytes with
  | nil => cases hinspected
  | cons b bytes =>
    obtain ⟨inferred, hinferred, hframe⟩ := Option.map_eq_some_iff.mp hinspected
    obtain ⟨-, rfl⟩ := Prod.mk.inj hframe
    rw [inferIntent_preview hinferred] at htext
    obtain rfl := Option.some.inj htext
    exact hcontains

/-- A Redis `PING` with `os.system` behind it. -/
def pingConnection : Connection where
  listenPort := 6379
  peerIp := "127.0.0.1"
  firstRead := some [80, 73, 78, 71, 32, 111, 115, 46, 115, 121, 115, 116, 101, 109]
  backendUp := true
  stampedAtNs := 0
  respondedAtNs := 0

theorem ping_pattern_blocks :
    (wrapConnection .balanced defaultPortMap ⟨VirtualBus.new 1024, Watchdog.new 100 5⟩
      pingConnection).2.forwarded = none := by
  refine preview_pattern_blocks .balanced defaultPortMap _ pingConnection _ rfl
    ['P', 'I', 'N', 'G', ' ', 'o', 's', '.', 's', 'y', 's', 't', 'e', 'm'] ?_
    ("os.system", "sys_socket") (by decide) (by decide) (by decide)
  decide

/-- Bytes that are not in the preview are forwarded uninspected. -/
theorem hidden_pattern_forwarded :
    textContains (Text.fromUtf8Lossy [111, 115, 46, 115, 121, 115, 116, 101, 109]) "os.system" ∧
      ("os.system", "sys_socket") ∈ Voorproever.configuredPatterns .balanced ∧
      "sys_socket" ∈ alwaysDangerous ∧
      (wrapConnection .balanced defaultPortMap ⟨VirtualBus.new 1024, Watchdog.new 100 5⟩
        shellConnection).2.forwarded.isSome := by
  refine ⟨by decide, by decide, by decide, ?_⟩
  exact (wrapConnection_reaches shell_reaches _).1

end Spaceshuttle.Kernel
