import Spaceshuttle.Overlay.Mux

/-!
# Sends after a migration

`migrate` changes the endpoint of an identity, removes its connection and establishes a new one. A
call of `establish` that resolved the identity before the change still connects to the old endpoint,
and stores that connection whenever it gets to it; every later `establish`, the one of `migrate`
included, then takes it for the live one. If no such connection is stored after the removal, every
send that starts after the migration goes to the new endpoint, whatever else runs in between.
-/

namespace Spaceshuttle.Overlay

open OverlayResolver (normalize)

/-- The local socket is bound and connections succeed. -/
def Answer.Succeeds (a : Answer) : Prop := a.bound = .ok () ∧ a.connected = .ok ()

/-- The answer that a task gets at its await is no failure. -/
def Event.Succeeds : Event → Prop
  | .runSend _ a => a.Succeeds
  | .runMigrate a => a.Succeeds
  | _ => True

/-- The registry has the new endpoint. -/
def Migrate.hasUpdated : Migrate → Bool
  | .idle => false
  | .updateRegistry => false
  | _ => true

/-- The old connection is removed. -/
def Migrate.hasDropped : Migrate → Bool
  | .establish _ => true
  | .returned _ => true
  | _ => false

/-- No send to the identity stores a connection to another endpoint after the migration has removed
the old one. -/
def Tasks.Timely (idd newEndpoint : String) (s : Tasks) : Event → Prop
  | .runSend i _ => ∀ send, s.sends[i]? = some send → send.toIdd = idd →
      s.migrate.hasDropped = true → ∀ result, send.phase = .store result →
        result.endpoint = newEndpoint
  | _ => True

/-! ## One call of `establish` -/

/-- A call of `establish` that can only end with a connection to the endpoint. -/
def Establish.Fresh (endpoint : String) : Establish → Prop
  | .findPeer => True
  | .touch peer => peer.endpoint = endpoint
  | .lookLocal => True
  | .lookCache => False
  | .askApi => False
  | .cacheAnswer _ => False
  | .bind result => result.endpoint = endpoint
  | .connect result => result.endpoint = endpoint
  | .store result => result.endpoint = endpoint
  | .returned (.ok peer) => peer.endpoint = endpoint
  | .returned (.error _) => False

/-- The identity resolves to the endpoint. -/
def OverlayMux.ResolvesTo (mux : OverlayMux) (idd endpoint : String) : Prop :=
  ∃ trustScore, mux.resolver.localRegistry (normalize idd) = some (endpoint, trustScore)

/-- A connection to the identity goes to the endpoint. -/
def OverlayMux.ConnectsTo (mux : OverlayMux) (idd endpoint : String) : Prop :=
  ∀ peer, mux.peers idd = some peer → peer.endpoint = endpoint

variable {mux : OverlayMux} {idd endpoint : String} {a : Answer} {e : Establish}

theorem Establish.Fresh.step (hresolves : mux.ResolvesTo idd endpoint)
    (hconnects : mux.ConnectsTo idd endpoint) (ha : a.Succeeds) (he : e.Fresh endpoint) :
    (e.step mux idd a).2.Fresh endpoint := by
  cases e with
  | findPeer =>
    simp only [Establish.step]
    cases hpeer : mux.peers idd with
    | none => trivial
    | some peer =>
      dsimp only
      split
      · trivial
      · exact hconnects peer hpeer
  | touch peer => exact he
  | lookLocal =>
    obtain ⟨trustScore, hentry⟩ := hresolves
    simp only [Establish.step, OverlayResolver.lookupLocal, hentry, Option.map_some]
    rfl
  | lookCache => exact he.elim
  | askApi => exact he.elim
  | cacheAnswer result => exact he.elim
  | bind result =>
    simp only [Establish.step, ha.1]
    split
    · exact he
    · exact he
  | connect result =>
    simp only [Establish.step, ha.2]
    exact he
  | store result => exact he
  | returned result => exact he

/-- A phase keeps the connection of the identity, unless it stores one to another endpoint. -/
theorem OverlayMux.ConnectsTo.step (hconnects : mux.ConnectsTo idd endpoint) {name : String}
    (hstore : name = idd → ∀ result, e = .store result → result.endpoint = endpoint) :
    (e.step mux name a).1.ConnectsTo idd endpoint := by
  intro peer hpeer
  rw [Establish.step_peers] at hpeer
  cases e with
  | store result =>
    replace hpeer : Function.update mux.peers name (some (OverlayMux.newPeer name result)) idd =
      some peer := hpeer
    by_cases hname : name = idd
    · subst hname
      rw [Function.update_self] at hpeer
      cases hpeer
      exact hstore rfl result rfl
    · rw [Function.update_of_ne (Ne.symm hname)] at hpeer
      exact hconnects peer hpeer
  | _ => exact hconnects peer hpeer

theorem OverlayMux.ResolvesTo.step (hresolves : mux.ResolvesTo idd endpoint) (name : String) :
    (e.step mux name a).1.ResolvesTo idd endpoint := by
  obtain ⟨trustScore, hentry⟩ := hresolves
  exact ⟨trustScore, by rw [Establish.step_localRegistry, hentry]⟩

/-- `resolve` looks up the identity as it is, or under a name that has the endpoint anyway. -/
def OverlayMux.Named (mux : OverlayMux) (idd endpoint : String) : Prop :=
  normalize idd = idd ∧ (∃ entry, mux.resolver.localRegistry idd = some entry) ∨
    normalize idd ≠ idd ∧ mux.ResolvesTo idd endpoint

theorem OverlayMux.Named.step (hnamed : mux.Named idd endpoint) (name : String) :
    (e.step mux name a).1.Named idd endpoint := by
  rcases hnamed with ⟨hname, hentry⟩ | ⟨hname, hresolves⟩
  · refine Or.inl ⟨hname, ?_⟩
    rw [Establish.step_localRegistry]
    exact hentry
  · exact Or.inr ⟨hname, hresolves.step name⟩

/-- The migration writes the endpoint where `resolve` looks the identity up. -/
theorem OverlayMux.Named.updateRegistry (hnamed : mux.Named idd endpoint) :
    ({ mux with resolver := mux.resolver.updateRegistry idd endpoint } :
      OverlayMux).ResolvesTo idd endpoint := by
  rcases hnamed with ⟨hname, entry, hentry⟩ | ⟨hname, trustScore, hentry⟩
  · refine ⟨entry.2, ?_⟩
    show Function.update mux.resolver.localRegistry idd _ (normalize idd) = _
    rw [hname, Function.update_self, hentry]
    rfl
  · refine ⟨trustScore, ?_⟩
    show Function.update mux.resolver.localRegistry idd _ (normalize idd) = _
    rw [Function.update_of_ne hname, hentry]

/-- An identity that resolves to the endpoint is looked up somewhere. -/
theorem OverlayMux.ResolvesTo.named (hresolves : mux.ResolvesTo idd endpoint) :
    mux.Named idd endpoint := by
  by_cases hname : normalize idd = idd
  · obtain ⟨trustScore, hentry⟩ := hresolves
    rw [hname] at hentry
    exact Or.inl ⟨hname, _, hentry⟩
  · exact Or.inr ⟨hname, hresolves⟩

/-! ## The invariant -/

variable {newEndpoint : String}

/-- What holds in every state of a timely run. -/
structure Tasks.Moving (idd newEndpoint : String) (s : Tasks) : Prop where
  named : s.mux.Named idd newEndpoint
  updated : s.migrate.hasUpdated = true → s.mux.ResolvesTo idd newEndpoint
  dropped : s.migrate.hasDropped = true → s.mux.ConnectsTo idd newEndpoint
  migrate : ∀ phase, s.migrate = .establish phase → phase.Fresh newEndpoint
  sends : ∀ send ∈ s.sends, send.afterMigration = true →
    s.migrated = true ∧ (send.toIdd = idd → send.phase.Fresh newEndpoint)

namespace Tasks

variable {s : Tasks}

theorem migrated_iff (s : Tasks) : s.migrated = true ↔ s.migrate = .returned (.ok ()) := by
  unfold migrated
  split
  · simp_all
  · simp_all

theorem hasUpdated_of_hasDropped {m : Migrate} (h : m.hasDropped = true) : m.hasUpdated = true := by
  cases m with
  | establish phase => rfl
  | returned result => rfl
  | _ => cases h

theorem hasDropped_of_migrated (h : s.migrated = true) : s.migrate.hasDropped = true := by
  rw [(migrated_iff s).mp h]
  rfl

/-- While the migration runs, no send has started after it. -/
theorem Moving.not_afterMigration (h : s.Moving idd newEndpoint)
    (hrunning : s.migrate ≠ .returned (.ok ())) {send : Send} (hsend : send ∈ s.sends) :
    send.afterMigration ≠ true := by
  intro hafter
  exact hrunning ((migrated_iff s).mp (h.sends send hsend hafter).1)

/-- A send starts. -/
theorem Moving.send (h : s.Moving idd newEndpoint) (toIdd : String) :
    (s.step idd newEndpoint (.send toIdd)).Moving idd newEndpoint := by
  refine ⟨h.named, h.updated, h.dropped, h.migrate, fun send hsend hafter => ?_⟩
  rcases List.mem_append.mp hsend with hsend | hsend
  · exact h.sends send hsend hafter
  · obtain rfl := List.mem_singleton.mp hsend
    exact ⟨hafter, fun _ => trivial⟩

/-- The migration starts. -/
theorem Moving.callMigrate (h : s.Moving idd newEndpoint) :
    (s.step idd newEndpoint .callMigrate).Moving idd newEndpoint := by
  simp only [step]
  split
  · next hidle =>
    have hrunning : s.migrate ≠ .returned (.ok ()) := by
      rw [hidle]
      intro heq
      cases heq
    refine ⟨h.named, ?_, ?_, ?_, ?_⟩
    · intro hupdated
      cases hupdated
    · intro hdropped
      cases hdropped
    · intro phase hphase
      cases hphase
    · exact fun send hsend hafter => absurd hafter (h.not_afterMigration hrunning hsend)
  · exact h

/-- A send runs. -/
theorem Moving.runSend (h : s.Moving idd newEndpoint) {i : Nat} {a : Answer}
    (ha : a.Succeeds) (htimely : s.Timely idd newEndpoint (.runSend i a)) :
    (s.step idd newEndpoint (.runSend i a)).Moving idd newEndpoint := by
  simp only [step]
  cases hsend : s.sends[i]? with
  | none => exact h
  | some send =>
    have hmem : send ∈ s.sends := List.mem_of_getElem? hsend
    refine ⟨h.named.step send.toIdd, ?_, ?_, h.migrate, ?_⟩
    · intro hupdated
      exact (h.updated hupdated).step send.toIdd
    · intro hdropped
      apply (h.dropped hdropped).step
      intro hto result hresult
      exact htimely send hsend hto hdropped result hresult
    · intro other hother hafter
      rcases List.mem_or_eq_of_mem_set hother with hother | rfl
      · exact h.sends other hother hafter
      · obtain ⟨hmigrated, hfresh⟩ := h.sends send hmem hafter
        refine ⟨hmigrated, fun hto => ?_⟩
        replace hto : send.toIdd = idd := hto
        have hdropped := hasDropped_of_migrated hmigrated
        have hresolves := h.updated (hasUpdated_of_hasDropped hdropped)
        have hconnects := h.dropped hdropped
        rw [← hto] at hresolves hconnects
        exact Establish.Fresh.step hresolves hconnects ha (hfresh hto)

theorem ofEstablish_fresh {phase : Establish} (hphase : phase.Fresh newEndpoint) {phase' : Establish}
    (h : Migrate.ofEstablish phase = .establish phase') : phase'.Fresh newEndpoint := by
  cases phase with
  | returned result =>
    cases result with
    | ok peer => cases h
    | error e => cases h
  | _ =>
    cases h
    exact hphase

/-- The migration runs. -/
theorem Moving.runMigrate (h : s.Moving idd newEndpoint) {a : Answer} (ha : a.Succeeds) :
    (s.step idd newEndpoint (.runMigrate a)).Moving idd newEndpoint := by
  simp only [step]
  cases hmigrate : s.migrate with
  | idle =>
    have hsame : s = { s with migrate := .idle } := by rw [← hmigrate]
    exact hsame ▸ h
  | updateRegistry =>
    have hrunning : s.migrate ≠ .returned (.ok ()) := by rw [hmigrate]; intro heq; cases heq
    have hresolves := h.named.updateRegistry
    refine ⟨hresolves.named, fun _ => hresolves, fun hdropped => ?_, fun phase hphase => ?_, ?_⟩
    · cases hdropped
    · cases hphase
    · exact fun send hsend hafter => absurd hafter (h.not_afterMigration hrunning hsend)
  | updateCache =>
    have hrunning : s.migrate ≠ .returned (.ok ()) := by rw [hmigrate]; intro heq; cases heq
    refine ⟨h.named, fun _ => h.updated (by rw [hmigrate]; rfl), fun hdropped => ?_,
      fun phase hphase => ?_, ?_⟩
    · cases hdropped
    · cases hphase
    · exact fun send hsend hafter => absurd hafter (h.not_afterMigration hrunning hsend)
  | dropPeer =>
    have hrunning : s.migrate ≠ .returned (.ok ()) := by rw [hmigrate]; intro heq; cases heq
    refine ⟨h.named, fun _ => h.updated (by rw [hmigrate]; rfl), fun _ peer hpeer => ?_,
      fun phase hphase => ?_, ?_⟩
    · replace hpeer : Function.update s.mux.peers idd none idd = some peer := hpeer
      rw [Function.update_self] at hpeer
      cases hpeer
    · cases hphase
      trivial
    · exact fun send hsend hafter => absurd hafter (h.not_afterMigration hrunning hsend)
  | establish phase =>
    have hrunning : s.migrate ≠ .returned (.ok ()) := by rw [hmigrate]; intro heq; cases heq
    have hresolves := h.updated (by rw [hmigrate]; rfl)
    have hconnects := h.dropped (by rw [hmigrate]; rfl)
    have hfresh := h.migrate phase hmigrate
    refine ⟨h.named.step idd, fun _ => hresolves.step idd, fun _ => ?_, fun phase' hphase' => ?_,
      ?_⟩
    · apply hconnects.step
      rintro - result rfl
      exact hfresh
    · exact ofEstablish_fresh (hfresh.step hresolves hconnects ha) hphase'
    · exact fun send hsend hafter => absurd hafter (h.not_afterMigration hrunning hsend)
  | returned result =>
    have hsame : s = { s with migrate := .returned result } := by rw [← hmigrate]
    exact hsame ▸ h

/-- A connection dies. -/
theorem Moving.close (h : s.Moving idd newEndpoint) (name : String) :
    (s.step idd newEndpoint (.close name)).Moving idd newEndpoint := by
  refine ⟨h.named, h.updated, fun hdropped peer hpeer => ?_, h.migrate, h.sends⟩
  replace hpeer : Function.update s.mux.peers name
    ((s.mux.peers name).map fun peer => { peer with closed := true }) idd = some peer := hpeer
  by_cases hname : idd = name
  · subst hname
    rw [Function.update_self] at hpeer
    obtain ⟨old, hold, rfl⟩ := Option.map_eq_some_iff.mp hpeer
    exact h.dropped hdropped old hold
  · rw [Function.update_of_ne hname] at hpeer
    exact h.dropped hdropped peer hpeer

theorem Moving.step (h : s.Moving idd newEndpoint) {e : Event} (hsucceeds : e.Succeeds)
    (htimely : s.Timely idd newEndpoint e) :
    (s.step idd newEndpoint e).Moving idd newEndpoint := by
  cases e with
  | send toIdd => exact h.send toIdd
  | callMigrate => exact h.callMigrate
  | runSend i a => exact h.runSend hsucceeds htimely
  | runMigrate a => exact h.runMigrate hsucceeds
  | close name => exact h.close name

theorem after_concat (mux : OverlayMux) (idd newEndpoint : String) (events : List Event)
    (e : Event) :
    after mux idd newEndpoint (events ++ [e]) =
      (after mux idd newEndpoint events).step idd newEndpoint e :=
  List.foldl_concat _ _ e events

/-- Whatever runs in between: if no send stores a connection to another endpoint after the migration
has removed the old one, every send to the identity that starts after the migration has returned
`Ok` uses a connection to the new endpoint. -/
theorem sends_use_new_endpoint (mux : OverlayMux) (idd newEndpoint : String)
    (hregistered : ∃ entry, mux.resolver.localRegistry idd = some entry)
    (hname : normalize idd = idd ∨ mux.ResolvesTo idd newEndpoint) (events : List Event)
    (hsucceeds : ∀ e ∈ events, e.Succeeds)
    (htimely : Machine.AtEach (fun before e =>
      (after mux idd newEndpoint before).Timely idd newEndpoint e) events) :
    ∀ send ∈ (after mux idd newEndpoint events).sends, send.toIdd = idd →
      send.afterMigration = true → ∀ result, send.phase = .returned result →
        ∃ peer, result = .ok peer ∧ peer.endpoint = newEndpoint := by
  have hstart : (after mux idd newEndpoint []).Moving idd newEndpoint := by
    refine ⟨?_, ?_, ?_, ?_, ?_⟩
    · rcases hname with hsame | hresolves
      · exact Or.inl ⟨hsame, hregistered⟩
      · exact hresolves.named
    · intro hupdated
      cases hupdated
    · intro hdropped
      cases hdropped
    · intro phase hphase
      cases hphase
    · intro send hsend
      cases hsend
  have hmoving : (after mux idd newEndpoint events).Moving idd newEndpoint := by
    have hboth : Machine.AtEach (fun before e =>
        e.Succeeds ∧ (after mux idd newEndpoint before).Timely idd newEndpoint e) events := by
      intro before e later heq
      exact ⟨hsucceeds e (by simp [heq]), htimely before e later heq⟩
    refine Machine.run_of_atEach (q := fun events =>
      (after mux idd newEndpoint events).Moving idd newEndpoint) hstart ?_ hboth
    intro before e he hbefore
    rw [after_concat]
    exact hbefore.step he.1 he.2
  intro send hsend hto hafter result hresult
  have hfresh := (hmoving.sends send hsend hafter).2 hto
  rw [hresult] at hfresh
  cases result with
  | ok peer => exact ⟨peer, rfl, hfresh⟩
  | error e => exact hfresh.elim

namespace Demo

/-- Every answer is a success. -/
def yes : Answer := ⟨0, .error .notConnected, .ok (), .ok ()⟩

/-- A MUX that knows one device. -/
def pixel : OverlayMux :=
  { OverlayMux.new with
    resolver := OverlayResolver.new.register "jis:pixel" "10.0.0.42:7150" 0.95 }

/-- The device moves, and a message is sent to it. -/
def moved : List Event :=
  .callMigrate :: List.replicate 8 (.runMigrate yes) ++
    [.send "jis:pixel", .runSend 0 yes, .runSend 0 yes]

/-- The device moves while a message to its old endpoint waits for the handshake; then another
message is sent. -/
def overtaken : List Event :=
  [.send "jis:pixel", .runSend 0 yes, .runSend 0 yes, .runSend 0 yes, .runSend 0 yes,
    .callMigrate, .runMigrate yes, .runMigrate yes, .runMigrate yes, .runSend 0 yes,
    .runMigrate yes, .runMigrate yes, .send "jis:pixel", .runSend 1 yes, .runSend 1 yes]

theorem moved_timely : Machine.AtEach (fun before e =>
    (after pixel "jis:pixel" "10.28.0.77:7150" before).Timely "jis:pixel" "10.28.0.77:7150" e)
    moved := by
  simp only [moved, List.replicate, List.cons_append, List.nil_append, Machine.atEach_cons]
  refine ⟨trivial, trivial, trivial, trivial, trivial, trivial, trivial, trivial, trivial, trivial,
    ?_, ?_, Machine.atEach_nil⟩
  · intro send hsend _ _ result hresult
    cases hsend
    replace hresult : Establish.findPeer = .store result := hresult
    cases hresult
  · intro send hsend _ _ result hresult
    cases hsend
    replace hresult : Establish.touch ⟨"jis:pixel", "10.28.0.77:7150", 0.95, false⟩ =
      .store result := hresult
    cases hresult

end Demo

open Demo

/-- The message after the migration goes to the new endpoint. -/
theorem sends_use_new_endpoint_moved :
    ∃ send ∈ (after pixel "jis:pixel" "10.28.0.77:7150" moved).sends,
      send.afterMigration = true ∧
        ∃ peer, send.phase = .returned (.ok peer) ∧ peer.endpoint = "10.28.0.77:7150" := by
  have hyes : ∀ e ∈ moved, e.Succeeds := by
    simp [moved, Event.Succeeds, Answer.Succeeds, yes]
  let send : Send := ⟨"jis:pixel", true, .returned
    (.ok ⟨"jis:pixel", "10.28.0.77:7150", 0.95, false⟩)⟩
  have hsend : send ∈ (after pixel "jis:pixel" "10.28.0.77:7150" moved).sends :=
    List.mem_singleton.mpr rfl
  obtain ⟨peer, hpeer, hendpoint⟩ := sends_use_new_endpoint pixel "jis:pixel" "10.28.0.77:7150"
    ⟨("10.0.0.42:7150", 0.95), rfl⟩ (Or.inl (by decide)) moved hyes moved_timely send hsend rfl rfl
    _ rfl
  exact ⟨send, hsend, rfl, peer, congrArg Establish.returned hpeer, hendpoint⟩

/-- The connection of the first message is stored between the removal and the look-up of `migrate`:
the second message, sent after `migrate` has returned `Ok`, goes to the old endpoint. -/
theorem sends_use_old_endpoint :
    (∀ e ∈ overtaken, e.Succeeds) ∧
      (after pixel "jis:pixel" "10.28.0.77:7150" overtaken).migrated = true ∧
      ∃ send ∈ (after pixel "jis:pixel" "10.28.0.77:7150" overtaken).sends,
        send.toIdd = "jis:pixel" ∧ send.afterMigration = true ∧
          ∃ peer, send.phase = .returned (.ok peer) ∧ peer.endpoint ≠ "10.28.0.77:7150" := by
  refine ⟨by simp [overtaken, Event.Succeeds, Answer.Succeeds, yes], by decide, ?_⟩
  refine ⟨⟨"jis:pixel", true, .returned (.ok ⟨"jis:pixel", "10.0.0.42:7150", 0.95, false⟩)⟩, ?_,
    rfl, rfl, ⟨"jis:pixel", "10.0.0.42:7150", 0.95, false⟩, rfl, by decide⟩
  apply List.mem_of_getElem? (i := 1)
  rfl

end Tasks

end Spaceshuttle.Overlay
