import Spaceshuttle.Lib.Machine
import Spaceshuttle.Overlay.Resolver

/-!
# The overlay MUX

`establish` and `migrate` of `OverlayMux` (`crates/trust-kernel/src/overlay_mux.rs:401-671`). Both
give up control at every `.await`, so each is a sequence of phases, and a phase is what runs from
one await to the next. No lock is held from one phase to another, except that of the connections
while a live one is touched; tasks that run in the meantime find it unchanged or wait.
-/

namespace Spaceshuttle.Overlay

open Cluster (MuxError)

/-- `PeerConnection` (`overlay_mux.rs:329-338`): where the connection goes, and whether it has a
`close_reason`. -/
structure PeerConnection where
  idd : String
  endpoint : String
  trustScore : Float
  closed : Bool

/-- `OverlayMux` (`overlay_mux.rs:401-416`), with whether the QUIC endpoint is bound. -/
structure OverlayMux where
  resolver : OverlayResolver
  peers : StringMap PeerConnection
  quicEndpoint : Bool
  peersConnected : UInt64
  migrationsTotal : UInt64

/-- What the world outside answers while a phase runs: the clock, the API, the binding of the local
socket, and the address and handshake of a connection. -/
structure Answer where
  now : Nat
  api : Except MuxError ResolveResult
  bound : Except MuxError Unit
  connected : Except MuxError Unit

/-! ## `establish` -/

/-- What a call of `establish` waits for, or what it returned. -/
inductive Establish where
  /-- `peers.read()` -/
  | findPeer
  /-- `last_activity.lock()` of a live connection -/
  | touch (peer : PeerConnection)
  /-- `local_registry.read()` in `resolve` -/
  | lookLocal
  /-- `cache.read()` in `resolve` -/
  | lookCache
  /-- `resolve_via_api` -/
  | askApi
  /-- `cache.write()` in `resolve` -/
  | cacheAnswer (result : ResolveResult)
  /-- `quic_endpoint.lock()` -/
  | bind (result : ResolveResult)
  /-- the handshake -/
  | connect (result : ResolveResult)
  /-- `peers.write()` -/
  | store (result : ResolveResult)
  | returned (result : Except MuxError PeerConnection)

namespace OverlayMux

/-- `OverlayMux::new` (`overlay_mux.rs:421-432`). -/
def new : OverlayMux where
  resolver := OverlayResolver.new
  peers := fun _ => none
  quicEndpoint := false
  peersConnected := 0
  migrationsTotal := 0

/-- A call of `resolve` begins. -/
def countResolve (mux : OverlayMux) : OverlayMux := { mux with resolver := mux.resolver.count }

/-- The connection that `establish` stores (`overlay_mux.rs:497-506`). -/
def newPeer (idd : String) (result : ResolveResult) : PeerConnection :=
  ⟨idd, result.endpoint, result.trustScore, false⟩

/-- Store a connection (`overlay_mux.rs:508-509`). -/
def insertPeer (mux : OverlayMux) (idd : String) (peer : PeerConnection) : OverlayMux :=
  { mux with
    peers := Function.update mux.peers idd (some peer)
    peersConnected := mux.peersConnected + 1 }

/-- Remove a connection (`overlay_mux.rs:617-618`). -/
def dropPeer (mux : OverlayMux) (idd : String) : OverlayMux :=
  { mux with
    peers := Function.update mux.peers idd none
    migrationsTotal := mux.migrationsTotal + 1 }

/-- The connection to a peer dies. -/
def closePeer (mux : OverlayMux) (idd : String) : OverlayMux :=
  { mux with
    peers := Function.update mux.peers idd
      ((mux.peers idd).map fun peer => { peer with closed := true }) }

end OverlayMux

open OverlayResolver (normalize)

/-- One phase of `establish` (`overlay_mux.rs:465-512`), with `resolve` and `get_quic_endpoint`. -/
def Establish.step (mux : OverlayMux) (idd : String) (a : Answer) :
    Establish → OverlayMux × Establish
  | .findPeer =>
    match mux.peers idd with
    | some peer => if peer.closed then (mux.countResolve, .lookLocal) else (mux, .touch peer)
    | none => (mux.countResolve, .lookLocal)
  | .touch peer => (mux, .returned (.ok peer))
  | .lookLocal =>
    match mux.resolver.lookupLocal (normalize idd) with
    | some result => ({ mux with resolver := mux.resolver.hit }, .bind result)
    | none => (mux, .lookCache)
  | .lookCache =>
    match mux.resolver.lookupCache a.now (normalize idd) with
    | some result => ({ mux with resolver := mux.resolver.hit }, .bind result)
    | none =>
      ({ mux with resolver := mux.resolver.miss },
        if mux.resolver.apiEndpoint.isSome then .askApi
        else .returned (.error (OverlayResolver.unresolved (normalize idd))))
  | .askApi =>
    match OverlayResolver.accepted a.api with
    | some result => (mux, .cacheAnswer result)
    | none => (mux, .returned (.error (OverlayResolver.unresolved (normalize idd))))
  | .cacheAnswer result =>
    ({ mux with resolver := mux.resolver.remember a.now (normalize idd) result }, .bind result)
  | .bind result =>
    if mux.quicEndpoint then (mux, .connect result)
    else
      match a.bound with
      | .ok () => ({ mux with quicEndpoint := true }, .connect result)
      | .error e => (mux, .returned (.error e))
  | .connect result =>
    match a.connected with
    | .ok () => (mux, .store result)
    | .error e => (mux, .returned (.error e))
  | .store result =>
    let peer := OverlayMux.newPeer idd result
    (mux.insertPeer idd peer, .returned (.ok peer))
  | .returned result => (mux, .returned result)

/-! ## `migrate` -/

/-- What a call of `migrate` waits for, or what it returned. -/
inductive Migrate where
  /-- not called yet -/
  | idle
  /-- `local_registry.write()` in `update_endpoint` -/
  | updateRegistry
  /-- `cache.write()` in `update_endpoint` -/
  | updateCache
  /-- `peers.write()` -/
  | dropPeer
  | establish (phase : Establish)
  | returned (result : Except MuxError Unit)

/-- How `migrate` goes on after a phase of its call of `establish`. -/
def Migrate.ofEstablish : Establish → Migrate
  | .returned (.ok _) => .returned (.ok ())
  | .returned (.error e) => .returned (.error e)
  | phase => .establish phase

/-- One phase of `migrate` (`overlay_mux.rs:610-625`). -/
def Migrate.step (mux : OverlayMux) (idd newEndpoint : String) (a : Answer) :
    Migrate → OverlayMux × Migrate
  | .idle => (mux, .idle)
  | .updateRegistry =>
    ({ mux with resolver := mux.resolver.updateRegistry idd newEndpoint }, .updateCache)
  | .updateCache =>
    ({ mux with resolver := mux.resolver.updateCache a.now idd newEndpoint }, .dropPeer)
  | .dropPeer => (mux.dropPeer idd, .establish .findPeer)
  | .establish phase =>
    let (mux, phase) := phase.step mux idd a
    (mux, ofEstablish phase)
  | .returned result => (mux, .returned result)

/-! ## Tasks -/

/-- A `send`: to whom, whether `migrate` had returned `Ok` when it started, and its call of
`establish`. The connection that call returns is the one the send uses. -/
structure Send where
  toIdd : String
  afterMigration : Bool
  phase : Establish

/-- A MUX with the tasks that use it: any number of sends, and one migration. -/
structure Tasks where
  mux : OverlayMux
  sends : List Send
  migrate : Migrate

/-- What happens next: a send starts, the migration starts, a send or the migration runs to its next
await, or a connection dies. -/
inductive Event where
  | send (toIdd : String)
  | callMigrate
  | runSend (i : Nat) (a : Answer)
  | runMigrate (a : Answer)
  | close (idd : String)

namespace Tasks

/-- `migrate` has returned `Ok`. -/
def migrated (s : Tasks) : Bool :=
  match s.migrate with
  | .returned (.ok ()) => true
  | _ => false

/-- One event, where the migration is `migrate(idd, newEndpoint)`. -/
def step (idd newEndpoint : String) (s : Tasks) : Event → Tasks
  | .send toIdd => { s with sends := s.sends ++ [⟨toIdd, s.migrated, .findPeer⟩] }
  | .callMigrate =>
    match s.migrate with
    | .idle => { s with migrate := .updateRegistry }
    | _ => s
  | .runSend i a =>
    match s.sends[i]? with
    | some send =>
      let (mux, phase) := send.phase.step s.mux send.toIdd a
      { s with mux, sends := s.sends.set i { send with phase } }
    | none => s
  | .runMigrate a =>
    let (mux, migrate) := s.migrate.step s.mux idd newEndpoint a
    { s with mux, migrate }
  | .close name => { s with mux := s.mux.closePeer name }

/-- A MUX after a run of events. -/
def after (mux : OverlayMux) (idd newEndpoint : String) (events : List Event) : Tasks :=
  events.foldl (step idd newEndpoint) ⟨mux, [], .idle⟩

end Tasks

/-! ## What a phase does -/

/-- No phase of `establish` writes the registry. -/
theorem Establish.step_localRegistry (mux : OverlayMux) (idd : String) (a : Answer)
    (e : Establish) : (e.step mux idd a).1.resolver.localRegistry = mux.resolver.localRegistry := by
  cases e <;> simp only [step] <;> (repeat' split) <;> rfl

/-- A phase of `establish` writes the connections only when it stores one. -/
theorem Establish.step_peers (mux : OverlayMux) (idd : String) (a : Answer) (e : Establish) :
    (e.step mux idd a).1.peers =
      match e with
      | .store result => Function.update mux.peers idd (some (OverlayMux.newPeer idd result))
      | _ => mux.peers := by
  cases e <;> simp only [step] <;> (repeat' split) <;> rfl

/-- `establish` alone, for a number of phases. -/
def Establish.alone (idd : String) (a : Answer) : Nat → OverlayMux → Establish →
    OverlayMux × Establish
  | 0, mux, e => (mux, e)
  | phases + 1, mux, e => alone idd a phases (e.step mux idd a).1 (e.step mux idd a).2

/-- Uninterrupted, the phases from `lookLocal` on are the lookups of `resolve`: `establish` goes on
with their result or returns their error. -/
theorem Establish.alone_lookup (mux : OverlayMux) (idd : String) (a : Answer) :
    ∃ phases, alone idd a phases mux .lookLocal =
      ({ mux with
          resolver := (mux.resolver.lookup a.now (fun _ _ => a.api) (normalize idd)).1 },
        match (mux.resolver.lookup a.now (fun _ _ => a.api) (normalize idd)).2 with
        | .ok result => .bind result
        | .error e => .returned (.error e)) := by
  unfold OverlayResolver.lookup
  cases hfound : mux.resolver.lookupLocal (normalize idd) with
  | some result => exact ⟨1, by simp only [alone, step, hfound]⟩
  | none =>
    cases hcached : mux.resolver.lookupCache a.now (normalize idd) with
    | some result => exact ⟨2, by simp only [alone, step, hfound, hcached]⟩
    | none =>
      cases hapi : mux.resolver.apiEndpoint with
      | none =>
        refine ⟨2, ?_⟩
        simp [alone, step, hfound, hcached, hapi, OverlayResolver.miss]
      | some apiUrl =>
        cases hanswer : OverlayResolver.accepted a.api with
        | none =>
          refine ⟨3, ?_⟩
          simp [alone, step, hfound, hcached, hapi, hanswer, OverlayResolver.miss]
        | some result =>
          refine ⟨4, ?_⟩
          simp [alone, step, hfound, hcached, hapi, hanswer, OverlayResolver.miss]

end Spaceshuttle.Overlay
