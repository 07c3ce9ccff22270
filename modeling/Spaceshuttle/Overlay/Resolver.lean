import Mathlib.Data.List.Induction
import Spaceshuttle.Cluster.MuxClient

/-!
# The overlay resolver

`OverlayResolver` of `crates/trust-kernel/src/overlay_mux.rs:112-321`: a local registry, a cache and
an optional API map identities to endpoints. `resolve` adds a `jis:` prefix to some identities;
`register` and `update_endpoint` take every identity as it is. Readings of the clock and the answer
of the API are inputs; the time stamp of a result is left out.
-/

namespace Spaceshuttle.Overlay

open Cluster (MuxError)

/-- `HashMap<String, _>`. -/
abbrev StringMap (α : Type) := String → Option α

/-- `ResolveResult` (`overlay_mux.rs:118-125`). -/
structure ResolveResult where
  idd : String
  resolved : Bool
  endpoint : String
  trustScore : Float
  method : String
  deriving DecidableEq

/-- `CachedResolve` (`overlay_mux.rs:142-147`), with times in nanoseconds. -/
structure CachedResolve where
  endpoint : String
  trustScore : Float
  resolvedAt : Nat
  ttl : Nat

/-- `CachedResolve::is_valid` (`overlay_mux.rs:150-152`). -/
def CachedResolve.isValid (c : CachedResolve) (now : Nat) : Bool := now - c.resolvedAt < c.ttl

/-- `OverlayResolver` (`overlay_mux.rs:157-170`). -/
structure OverlayResolver where
  localRegistry : StringMap (String × Float)
  cache : StringMap CachedResolve
  apiEndpoint : Option String
  defaultTtl : Nat
  cacheHits : UInt64
  cacheMisses : UInt64
  resolvesTotal : UInt64

/-- The answer of the API at a URL to a request for an identity. -/
abbrev Api := String → String → Except MuxError ResolveResult

namespace OverlayResolver

/-- `OverlayResolver::new` (`overlay_mux.rs:173-183`). -/
def new : OverlayResolver where
  localRegistry := fun _ => none
  cache := fun _ => none
  apiEndpoint := none
  defaultTtl := 300 * 1000000000
  cacheHits := 0
  cacheMisses := 0
  resolvesTotal := 0

/-- `OverlayResolver::register` (`overlay_mux.rs:193-196`). -/
def register (r : OverlayResolver) (idd endpoint : String) (trustScore : Float) : OverlayResolver :=
  { r with localRegistry := Function.update r.localRegistry idd (some (endpoint, trustScore)) }

/-- The first half of `update_endpoint`, under the lock of the registry. -/
def updateRegistry (r : OverlayResolver) (idd newEndpoint : String) : OverlayResolver :=
  { r with
    localRegistry := Function.update r.localRegistry idd
      ((r.localRegistry idd).map fun entry => (newEndpoint, entry.2)) }

/-- The second half of `update_endpoint`, under the lock of the cache. -/
def updateCache (r : OverlayResolver) (now : Nat) (idd newEndpoint : String) : OverlayResolver :=
  { r with
    cache := Function.update r.cache idd
      ((r.cache idd).map fun entry => { entry with endpoint := newEndpoint, resolvedAt := now }) }

/-- `OverlayResolver::update_endpoint` (`overlay_mux.rs:199-209`). -/
def updateEndpoint (r : OverlayResolver) (now : Nat) (idd newEndpoint : String) :
    OverlayResolver :=
  (r.updateRegistry idd newEndpoint).updateCache now idd newEndpoint

/-- An identity that `resolve` takes as it is. -/
def isQualified (idd : String) : Bool :=
  idd.toList.contains ':' || ".aint".toList.isSuffixOf idd.toList

/-- The identity that `resolve` looks up (`overlay_mux.rs:217-221`). -/
def normalize (idd : String) : String := if isQualified idd then idd else "jis:" ++ idd

/-- Resolution from the local registry (`overlay_mux.rs:224-234`). -/
def lookupLocal (r : OverlayResolver) (idd : String) : Option ResolveResult :=
  (r.localRegistry idd).map fun (endpoint, trustScore) =>
    { idd, resolved := true, endpoint, trustScore, method := "local" }

/-- Resolution from the cache (`overlay_mux.rs:237-249`). -/
def lookupCache (r : OverlayResolver) (now : Nat) (idd : String) : Option ResolveResult :=
  ((r.cache idd).filter fun cached => cached.isValid now).map fun cached =>
    { idd, resolved := true, endpoint := cached.endpoint, trustScore := cached.trustScore,
      method := "cache" }

/-- An answer of the API goes to the cache (`overlay_mux.rs:258-263`). -/
def remember (r : OverlayResolver) (now : Nat) (idd : String) (result : ResolveResult) :
    OverlayResolver :=
  { r with
    cache := Function.update r.cache idd
      (some ⟨result.endpoint, result.trustScore, now, r.defaultTtl⟩) }

/-- Count a lookup that was answered here. -/
def hit (r : OverlayResolver) : OverlayResolver := { r with cacheHits := r.cacheHits + 1 }

/-- Count one that was not. -/
def miss (r : OverlayResolver) : OverlayResolver := { r with cacheMisses := r.cacheMisses + 1 }

/-- The error of an identity that nothing resolves (`overlay_mux.rs:270-272`). -/
def unresolved (idd : String) : MuxError :=
  .connect s!"Could not resolve DID: {idd} (tried: local, cache, api)"

/-- An answer of the API that `resolve` accepts (`overlay_mux.rs:255-267`). -/
def accepted (answer : Except MuxError ResolveResult) : Option ResolveResult :=
  match answer with
  | .ok result => if result.resolved then some result else none
  | .error _ => none

/-- Count a call of `resolve`. -/
def count (r : OverlayResolver) : OverlayResolver :=
  { r with resolvesTotal := r.resolvesTotal + 1 }

/-- The lookups of `resolve`, in order (`overlay_mux.rs:223-272`). -/
def lookup (r : OverlayResolver) (now : Nat) (api : Api) (idd : String) :
    OverlayResolver × Except MuxError ResolveResult :=
  match r.lookupLocal idd with
  | some result => (r.hit, .ok result)
  | none =>
    match r.lookupCache now idd with
    | some result => (r.hit, .ok result)
    | none =>
      let r := r.miss
      match r.apiEndpoint.bind fun apiUrl => accepted (api apiUrl idd) with
      | some result => (r.remember now idd result, .ok result)
      | none => (r, .error (unresolved idd))

/-- `OverlayResolver::resolve` (`overlay_mux.rs:213-273`). -/
def resolve (r : OverlayResolver) (now : Nat) (api : Api) (idd : String) :
    OverlayResolver × Except MuxError ResolveResult :=
  r.count.lookup now api (normalize idd)

/-! ## Runs without an API -/

/-- A call of the resolver. -/
inductive Call where
  | register (idd endpoint : String) (trustScore : Float)
  | updateEndpoint (now : Nat) (idd newEndpoint : String)
  | resolve (now : Nat) (api : Api) (idd : String)

/-- The resolver after a call. -/
def perform (r : OverlayResolver) : Call → OverlayResolver
  | .register idd endpoint trustScore => r.register idd endpoint trustScore
  | .updateEndpoint now idd newEndpoint => r.updateEndpoint now idd newEndpoint
  | .resolve now api idd => (r.resolve now api idd).1

/-- A new resolver after a run of calls. -/
def after (calls : List Call) : OverlayResolver := calls.foldl perform new

/-- The identity was registered in a run. -/
def Registered (calls : List Call) (idd : String) : Prop :=
  ∃ endpoint trustScore, Call.register idd endpoint trustScore ∈ calls

/-- The endpoint a call gives for an identity. -/
def Call.endpointFor (idd : String) : Call → Option String
  | .register name endpoint _ => if name = idd then some endpoint else none
  | .updateEndpoint _ name newEndpoint => if name = idd then some newEndpoint else none
  | .resolve _ _ _ => none

/-- The endpoint that the most recent call gave for an identity. -/
def latest (calls : List Call) (idd : String) : Option String :=
  (calls.filterMap (Call.endpointFor idd)).getLast?

theorem after_concat (calls : List Call) (c : Call) :
    after (calls ++ [c]) = (after calls).perform c :=
  List.foldl_concat perform new c calls

theorem latest_concat (calls : List Call) (c : Call) (idd : String) :
    latest (calls ++ [c]) idd = (c.endpointFor idd).or (latest calls idd) := by
  rw [latest, List.filterMap_append, List.getLast?_append, latest]
  congr 1
  rw [List.filterMap_cons, List.filterMap_nil]
  cases c.endpointFor idd <;> rfl

theorem registered_concat (calls : List Call) (c : Call) (idd : String) :
    Registered (calls ++ [c]) idd ↔
      Registered calls idd ∨ ∃ endpoint trustScore, c = .register idd endpoint trustScore := by
  simp only [Registered, List.mem_append, List.mem_singleton, exists_or, eq_comm]

/-- A resolver that has no API has nothing in its cache. -/
structure Offline (r : OverlayResolver) : Prop where
  api : r.apiEndpoint = none
  cache : ∀ idd, r.cache idd = none

/-- Without an API only the registry resolves an identity. -/
theorem Offline.lookup {r : OverlayResolver} (h : r.Offline) (now : Nat) (api : Api)
    (idd : String) :
    r.lookup now api idd =
      match r.lookupLocal idd with
      | some result => (r.hit, .ok result)
      | none => (r.miss, .error (unresolved idd)) := by
  unfold OverlayResolver.lookup
  cases r.lookupLocal idd with
  | some result => rfl
  | none => simp [lookupCache, h.cache, miss, h.api]

theorem Offline.resolve_snd {r : OverlayResolver} (h : r.Offline) (now : Nat) (api : Api)
    (idd : String) :
    (r.resolve now api idd).2 =
      match r.lookupLocal (normalize idd) with
      | some result => .ok result
      | none => .error (unresolved (normalize idd)) := by
  have hcount : r.count.Offline := ⟨h.api, h.cache⟩
  have hlocal : r.count.lookupLocal (normalize idd) = r.lookupLocal (normalize idd) := rfl
  rw [resolve, hcount.lookup, hlocal]
  cases r.lookupLocal (normalize idd) <;> rfl

theorem lookup_localRegistry (r : OverlayResolver) (now : Nat) (api : Api) (idd : String) :
    (r.lookup now api idd).1.localRegistry = r.localRegistry := by
  unfold lookup
  split
  · rfl
  · split
    · rfl
    · dsimp only
      split <;> rfl

theorem resolve_localRegistry (r : OverlayResolver) (now : Nat) (api : Api) (idd : String) :
    (r.resolve now api idd).1.localRegistry = r.localRegistry :=
  r.count.lookup_localRegistry now api (normalize idd)

theorem Offline.perform {r : OverlayResolver} (h : r.Offline) (c : Call) : (r.perform c).Offline := by
  cases c with
  | register idd endpoint trustScore => exact ⟨h.api, h.cache⟩
  | updateEndpoint now idd newEndpoint =>
    refine ⟨h.api, fun name => ?_⟩
    show Function.update r.cache idd ((r.cache idd).map _) name = none
    by_cases hname : name = idd
    · rw [hname, Function.update_self, h.cache]
      rfl
    · rw [Function.update_of_ne hname, h.cache]
  | resolve now api idd =>
    have hcount : r.count.Offline := ⟨h.api, h.cache⟩
    show (r.count.lookup now api (normalize idd)).1.Offline
    rw [hcount.lookup]
    split
    · exact ⟨h.api, h.cache⟩
    · exact ⟨h.api, h.cache⟩

theorem offline_after (calls : List Call) : (after calls).Offline := by
  induction calls using List.reverseRecOn with
  | nil => exact ⟨rfl, fun _ => rfl⟩
  | append_singleton calls c ih =>
    rw [after_concat]
    exact ih.perform c

/-- What the registry has for an identity: the latest endpoint if the identity was registered, and
nothing otherwise. -/
theorem localRegistry_after (calls : List Call) (idd : String) :
    (Registered calls idd → ∃ endpoint trustScore,
        (after calls).localRegistry idd = some (endpoint, trustScore) ∧
          latest calls idd = some endpoint) ∧
      (¬ Registered calls idd → (after calls).localRegistry idd = none) := by
  induction calls using List.reverseRecOn with
  | nil =>
    refine ⟨?_, fun _ => rfl⟩
    rintro ⟨endpoint, trustScore, hmem⟩
    cases hmem
  | append_singleton calls c ih =>
    rw [after_concat, latest_concat, registered_concat]
    cases c with
    | register name endpoint trustScore =>
      show (_ → ∃ e t, Function.update _ name _ idd = _ ∧ _) ∧ (_ → Function.update _ name _ idd = _)
      by_cases hname : name = idd
      · subst hname
        rw [Function.update_self]
        refine ⟨fun _ => ⟨endpoint, trustScore, rfl, by simp [Call.endpointFor]⟩, fun hno => ?_⟩
        exact absurd (Or.inr ⟨endpoint, trustScore, rfl⟩) hno
      · rw [Function.update_of_ne (Ne.symm hname)]
        simpa [Call.endpointFor, hname] using ih
    | updateEndpoint now name newEndpoint =>
      show (_ → ∃ e t, Function.update _ name _ idd = _ ∧ _) ∧ (_ → Function.update _ name _ idd = _)
      by_cases hname : name = idd
      · subst hname
        rw [Function.update_self]
        constructor
        · intro hreg
          have hbefore : Registered calls name := by simpa using hreg
          obtain ⟨endpoint, trustScore, hentry, -⟩ := ih.1 hbefore
          exact ⟨newEndpoint, trustScore, by rw [hentry]; rfl, by simp [Call.endpointFor]⟩
        · intro hno
          rw [ih.2 fun hreg => hno (Or.inl hreg)]
          rfl
      · rw [Function.update_of_ne (Ne.symm hname)]
        simpa [Call.endpointFor, hname] using ih
    | resolve now api name =>
      rw [show ((after calls).perform (.resolve now api name)).localRegistry =
        (after calls).localRegistry from resolve_localRegistry _ now api name]
      simpa [Call.endpointFor] using ih

/-- For an identity that was registered, `resolve` gives the endpoint of the most recent call for it
if and only if `resolve` takes the identity as it is, or the identity with the prefix was registered
too and its most recent endpoint is the same. -/
theorem resolve_latest_iff (calls : List Call) (now : Nat) (api : Api) (idd : String)
    (hregistered : Registered calls idd) :
    (∃ result, ((after calls).resolve now api idd).2 = .ok result ∧
        latest calls idd = some result.endpoint) ↔
      isQualified idd = true ∨
        Registered calls ("jis:" ++ idd) ∧ latest calls ("jis:" ++ idd) = latest calls idd := by
  obtain ⟨endpoint, trustScore, hentry, hlatest⟩ := (localRegistry_after calls idd).1 hregistered
  rw [(offline_after calls).resolve_snd]
  by_cases hqualified : isQualified idd = true
  · refine iff_of_true ?_ (Or.inl hqualified)
    rw [normalize, if_pos hqualified, lookupLocal, hentry]
    exact ⟨_, rfl, hlatest⟩
  · rw [normalize, if_neg hqualified, or_iff_right hqualified]
    obtain ⟨hfound, hmissing⟩ := localRegistry_after calls ("jis:" ++ idd)
    by_cases hprefixed : Registered calls ("jis:" ++ idd)
    · obtain ⟨endpoint', trustScore', hentry', hlatest'⟩ := hfound hprefixed
      rw [lookupLocal, hentry', hlatest', hlatest]
      constructor
      · rintro ⟨result, hresult, hsame⟩
        cases hresult
        exact ⟨hprefixed, hsame.symm⟩
      · rintro ⟨-, hsame⟩
        exact ⟨_, rfl, hsame.symm⟩
    · rw [lookupLocal, hmissing hprefixed]
      constructor
      · rintro ⟨result, hresult, -⟩
        cases hresult
      · rintro ⟨hreg, -⟩
        exact absurd hreg hprefixed

/-- A device that moved is found at its new endpoint. -/
theorem resolve_latest_mobile :
    let calls : List Call := [.register "jis:mobile" "192.168.1.42:7150" 0.95,
      .updateEndpoint 1 "jis:mobile" "10.28.0.77:7150"]
    ∃ result, ((after calls).resolve 2 (fun _ _ => .error .notConnected) "jis:mobile").2 =
        .ok result ∧ latest calls "jis:mobile" = some result.endpoint := by
  intro calls
  have hregistered : Registered calls "jis:mobile" := ⟨"192.168.1.42:7150", 0.95, by simp [calls]⟩
  exact (resolve_latest_iff calls 2 _ "jis:mobile" hregistered).mpr (Or.inl (by decide))

/-- A device that was registered without a prefix is not found. -/
theorem resolve_misses_plain :
    Registered [.register "pixel" "10.0.0.42:7150" 0.95] "pixel" ∧
      ¬ ∃ result, ((after [.register "pixel" "10.0.0.42:7150" 0.95]).resolve 0
        (fun _ _ => .error .notConnected) "pixel").2 = .ok result := by
  refine ⟨⟨"10.0.0.42:7150", 0.95, by simp⟩, ?_⟩
  rintro ⟨result, hresult⟩
  have hname : normalize "pixel" = "jis:pixel" := by decide
  rw [(offline_after _).resolve_snd, hname] at hresult
  cases hresult

end OverlayResolver

end Spaceshuttle.Overlay
