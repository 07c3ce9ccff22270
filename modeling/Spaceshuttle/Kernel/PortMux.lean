import Spaceshuttle.Kernel.Pipeline
import Spaceshuttle.Kernel.PortIntent

/-!
# The port multiplexer

The task that `PortMux::wrap_port` of `crates/trust-kernel/src/portmux.rs:252-376` spawns for every
connection to a wrapped port. It runs the pipeline of the frame handler on a frame made from the
first bytes, but drops the result of Kernel B: what Kernel A passes reaches the backend.
-/

namespace Spaceshuttle.Kernel

/-- A connection to a wrapped port: what the first read gives (`none` if it fails), whether the
backend can be reached, and the clock readings of the bus and the watchdog. -/
structure Connection where
  listenPort : UInt16
  peerIp : String
  firstRead : Option (List UInt8)
  backendUp : Bool
  stampedAtNs : UInt64
  respondedAtNs : UInt64
  deriving DecidableEq, Repr

namespace Connection

/-- The frame made from the inferred intent (`portmux.rs:305-310`). -/
def frameOf (conn : Connection) (inferred : InferredIntent) : TibetMuxFrame where
  channelId := conn.listenPort.toUInt32
  intent := inferred.intent
  fromAint := inferred.clientId ++ "@" ++ conn.peerIp
  payload := inferred.payloadPreview

/-- The bytes of the first read and the frame made from them. There is none if nothing was read
or if `infer_intent` panics, which drops the connection. -/
def inspected (conn : Connection) (portMap : PortMap) : Option (List UInt8 × TibetMuxFrame) :=
  match conn.firstRead with
  | none => none
  | some [] => none
  | some bytes =>
      (inferIntent conn.listenPort bytes portMap).map (fun inferred => (bytes, conn.frameOf inferred))

end Connection

/-- What became of a connection: the verdict of Kernel A, the result of Kernel B, and the bytes
written to the backend. -/
structure Wrapped where
  verdict : Option VoorproeverVerdict
  kernelB : Option ArchivarisResult
  forwarded : Option (List UInt8)

/-- The task of one connection (`portmux.rs:284-371`). -/
def wrapConnection (cfg : TrustKernelConfig) (portMap : PortMap) (k : TrustKernel)
    (conn : Connection) : TrustKernel × Wrapped :=
  match conn.inspected portMap with
  | none => (k, ⟨none, none, none⟩)
  | some (firstBytes, frame) =>
      let (bus, watchdog, verdict) :=
        Voorproever.evaluate cfg k.bus k.watchdog conn.stampedAtNs conn.respondedAtNs frame
      match verdict with
      | .reject reason => (⟨bus, watchdog⟩, ⟨some (.reject reason), none, none⟩)
      | .kill reason violations observed =>
          (⟨bus, watchdog⟩, ⟨some (.kill reason violations observed), none, none⟩)
      | .pass busPayload checked =>
          let (_, bus, result) := Archivaris.process cfg ⟨[]⟩ bus busPayload frame
          (⟨bus, watchdog⟩, ⟨some (.pass busPayload checked), some result,
            if conn.backendUp then some firstBytes else none⟩)

/-! ## Forwarding -/

section Forwarding

variable {cfg : TrustKernelConfig} {portMap : PortMap} {k : TrustKernel} {conn : Connection}

/-- The connection has this frame, Kernel A passes it and the backend can be reached. -/
structure Reaches (cfg : TrustKernelConfig) (portMap : PortMap) (conn : Connection)
    (frame : TibetMuxFrame) : Prop where
  inspected : ∃ bytes, conn.inspected portMap = some (bytes, frame)
  passes : Voorproever.Passes cfg frame
  backendUp : conn.backendUp = true

/-- Bytes are forwarded only after a success of Kernel B. -/
def Wrapped.Guarded (w : Wrapped) : Prop :=
  w.forwarded.isSome → ∃ result, w.kernelB = some result ∧ result.isArchived = true

/-- A passed connection is forwarded whatever Kernel B says. -/
theorem wrapConnection_reaches {frame : TibetMuxFrame} (h : Reaches cfg portMap conn frame)
    (k : TrustKernel) :
    (wrapConnection cfg portMap k conn).2.forwarded.isSome ∧
      ∃ result, (wrapConnection cfg portMap k conn).2.kernelB = some result ∧
        (result.isArchived = true ↔ Archivable cfg k.bus frame) := by
  obtain ⟨bytes, hinspected⟩ := h.inspected
  have heval := Voorproever.evaluate_pass h.passes k.bus k.watchdog conn.stampedAtNs
    conn.respondedAtNs
  unfold wrapConnection
  simp only [hinspected, heval, h.backendUp, if_true, Option.isSome_some, true_and]
  refine ⟨_, rfl, ?_⟩
  exact (Archivaris.process_isArchived_iff _ _ _ frame).trans
    (accepts_stamped_iff cfg k.bus frame _ _)

theorem wrapConnection_not_reaches (h : ∀ frame, ¬ Reaches cfg portMap conn frame)
    (k : TrustKernel) : (wrapConnection cfg portMap k conn).2.forwarded = none := by
  unfold wrapConnection
  cases hinspected : conn.inspected portMap with
  | none => rfl
  | some inspected =>
    obtain ⟨bytes, frame⟩ := inspected
    by_cases hpass : Voorproever.Passes cfg frame
    · have hdown : conn.backendUp = false := by
        cases hup : conn.backendUp with
        | false => rfl
        | true => exact absurd ⟨⟨bytes, hinspected⟩, hpass, hup⟩ (h frame)
      have heval := Voorproever.evaluate_pass hpass k.bus k.watchdog conn.stampedAtNs
        conn.respondedAtNs
      simp only [heval, hdown, Bool.false_eq_true, if_false]
    · obtain ⟨watchdog, verdict, heval, hverdict⟩ := Voorproever.evaluate_refuse hpass k.bus
        k.watchdog conn.stampedAtNs conn.respondedAtNs
      simp only [heval]
      rcases hverdict with ⟨reason, rfl⟩ | ⟨reason, violations, observed, rfl⟩ <;> rfl

theorem inspected_unique {frame frame' : TibetMuxFrame} (h : Reaches cfg portMap conn frame)
    (h' : Reaches cfg portMap conn frame') : frame = frame' := by
  obtain ⟨bytes, hbytes⟩ := h.inspected
  obtain ⟨bytes', hbytes'⟩ := h'.inspected
  rw [hbytes] at hbytes'
  exact (Prod.mk.inj (Option.some.inj hbytes')).2

theorem wrapConnection_guarded_iff (k : TrustKernel) (conn : Connection) :
    (wrapConnection cfg portMap k conn).2.Guarded ↔
      ∀ frame, Reaches cfg portMap conn frame → Archivable cfg k.bus frame := by
  by_cases hreaches : ∃ frame, Reaches cfg portMap conn frame
  · obtain ⟨frame, h⟩ := hreaches
    obtain ⟨hforwarded, result, hresult, harchived⟩ := wrapConnection_reaches h k
    constructor
    · intro hguarded frame' h'
      obtain ⟨result', hresult', harchived'⟩ := hguarded hforwarded
      rw [hresult] at hresult'
      obtain rfl := Option.some.inj hresult'
      rw [← inspected_unique h h']
      exact harchived.mp harchived'
    · intro harchivable _
      exact ⟨result, hresult, harchived.mpr (harchivable frame h)⟩
  · rw [not_exists] at hreaches
    constructor
    · exact fun _ frame h => absurd h (hreaches frame)
    · intro _ hforwarded
      rw [wrapConnection_not_reaches hreaches k] at hforwarded
      cases hforwarded

theorem forwarded_eq_none_iff (k : TrustKernel) (conn : Connection) :
    (wrapConnection cfg portMap k conn).2.forwarded = none ↔
      ∀ frame, ¬ Reaches cfg portMap conn frame := by
  constructor
  · intro hnone frame h
    have hforwarded := (wrapConnection_reaches h k).1
    rw [hnone] at hforwarded
    cases hforwarded
  · exact fun h => wrapConnection_not_reaches h k

/-- What a list of connections does in turn: none is forwarded exactly if none could be. -/
theorem connections_forwarded_iff (k : TrustKernel) (conns : List Connection) :
    (∀ e ∈ Machine.history (wrapConnection cfg portMap) k conns, e.2.forwarded = none) ↔
      ∀ conn ∈ conns, ∀ frame, ¬ Reaches cfg portMap conn frame := by
  induction conns generalizing k with
  | nil => simp [Machine.history]
  | cons conn conns ih =>
    rw [Machine.history, List.forall_mem_cons, List.forall_mem_cons, ih, forwarded_eq_none_iff]

/-- A connection is forwarded only after a success of Kernel B if and only if Kernel B accepts
whatever Kernel A passes; and after a shutdown no connection is forwarded if and only if Kernel A
passes none whose backend can be reached. -/
theorem forwards_archived_iff (cfg : TrustKernelConfig) (portMap : PortMap) :
    (∀ k conn, (wrapConnection cfg portMap k conn).2.Guarded ↔
      ∀ frame, Reaches cfg portMap conn frame → Archivable cfg k.bus frame) ∧
    (∀ (k : TrustKernel) conns,
      (∀ e ∈ Machine.history (wrapConnection cfg portMap) { k with bus := k.bus.shutdown } conns,
        e.2.forwarded = none) ↔ ∀ conn ∈ conns, ∀ frame, ¬ Reaches cfg portMap conn frame) :=
  ⟨wrapConnection_guarded_iff, fun _ conns => connections_forwarded_iff _ conns⟩

end Forwarding

/-- A first read of `os.system` on the PostgreSQL port. -/
def shellConnection : Connection where
  listenPort := 5432
  peerIp := "127.0.0.1"
  firstRead := some [111, 115, 46, 115, 121, 115, 116, 101, 109]
  backendUp := true
  stampedAtNs := 0
  respondedAtNs := 0

/-- The frame made of it shows eight of the bytes in hexadecimal. -/
def shellFrame : TibetMuxFrame where
  channelId := 5432
  intent := "db:query"
  fromAint := "@127.0.0.1"
  payload := "[raw bytes, 9 len, head=0x[6f, 73, 2e, 73, 79, 73, 74, 65]]"

theorem shell_inspected : shellConnection.inspected defaultPortMap =
    some ([111, 115, 46, 115, 121, 115, 116, 101, 109], shellFrame) := by
  have hdetect : detect 5432 [111, 115, 46, 115, 121, 115, 116, 101, 109] = .unknown := by
    decide
  have hraw : String.ofList (rawPreview [111, 115, 46, 115, 121, 115, 116, 101, 109]) =
      shellFrame.payload := by
    decide
  unfold Connection.inspected inferIntent
  simp only [shellConnection, hdetect, hraw]
  rfl

theorem shell_reaches : Reaches .balanced defaultPortMap shellConnection shellFrame where
  inspected := ⟨_, shell_inspected⟩
  passes := ⟨by decide +kernel, by decide +kernel⟩
  backendUp := rfl

/-- With the bus closed, Kernel B refuses the payload and the connection is forwarded. -/
theorem closed_bus_forwards :
    ¬ (wrapConnection .balanced defaultPortMap
      ⟨(VirtualBus.new 1024).shutdown, Watchdog.new 100 5⟩ shellConnection).2.Guarded := by
  rw [wrapConnection_guarded_iff]
  intro h
  have hopen := (h shellFrame shell_reaches).isOpen
  exact absurd hopen (by decide)

end Spaceshuttle.Kernel
