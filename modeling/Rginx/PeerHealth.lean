-- The health of the peers of an upstream, from `health/registry/state.rs`, and the
-- keys of their endpoints, from `resolver/endpoint.rs`. An endpoint that is seen
-- for the first time shares the health of its peer.
import Rginx.PeerSelection
import Rginx.RustText

open rust_net

namespace rginx.proxy

/-! ## The health of a peer -/

structure PeerHealthPolicy where
  unhealthy_after_failures : Nat
  cooldown : Nat
  deriving DecidableEq

structure PassiveHealthState where
  consecutive_failures : Nat
  unhealthy_until : Option Nat
  pending_recovery : Bool
  deriving DecidableEq

def PassiveHealthState.default : PassiveHealthState := ⟨0, none, false⟩

structure ActiveHealthState where
  unhealthy : Bool
  consecutive_successes : Nat
  deriving DecidableEq

def ActiveHealthState.default : ActiveHealthState := ⟨false, 0⟩

structure PeerHealth where
  passive : PassiveHealthState
  active : ActiveHealthState
  active_requests : Nat
  deriving DecidableEq

def PeerHealth.default : PeerHealth := ⟨.default, .default, 0⟩

structure PeerFailureStatus where
  consecutive_failures : Nat
  entered_cooldown : Bool
  deriving DecidableEq

structure ActiveProbeStatus where
  healthy : Bool
  recovered : Bool
  consecutive_successes : Nat
  deriving DecidableEq

def PeerHealth.is_available (health : PeerHealth) (now : Nat) : Bool :=
  let passive_available := health.passive.unhealthy_until.all fun deadline => deadline ≤ now
  passive_available && !health.active.unhealthy

def PeerHealth.record_success (health : PeerHealth) : PeerHealth × Bool :=
  ({ health with passive := .default }, health.passive.pending_recovery)

def PeerHealth.record_failure (policy : PeerHealthPolicy) (now : Nat) (health : PeerHealth) :
    PeerHealth × PeerFailureStatus :=
  let passive :=
    if health.passive.unhealthy_until.any fun deadline => deadline ≤ now then
      { health.passive with unhealthy_until := none, consecutive_failures := 0 }
    else health.passive
  let already_in_cooldown := passive.unhealthy_until.any fun deadline => deadline > now
  let consecutive_failures := passive.consecutive_failures + 1
  let entered_cooldown := !already_in_cooldown &&
    decide (policy.unhealthy_after_failures ≤ consecutive_failures)
  let passive := { passive with consecutive_failures }
  let passive :=
    if entered_cooldown then
      { passive with unhealthy_until := some (now + policy.cooldown), pending_recovery := true }
    else if already_in_cooldown then
      { passive with unhealthy_until := some (now + policy.cooldown) }
    else passive
  ({ health with passive }, ⟨consecutive_failures, entered_cooldown⟩)

def PeerHealth.record_active_success (healthy_successes_required : Nat) (health : PeerHealth) :
    PeerHealth × ActiveProbeStatus :=
  if !health.active.unhealthy then (health, ⟨true, false, 0⟩)
  else
    let consecutive_successes := health.active.consecutive_successes + 1
    let recovered := decide (healthy_successes_required ≤ consecutive_successes)
    let active := if recovered then .default else { health.active with consecutive_successes }
    ({ health with active }, ⟨recovered, recovered, consecutive_successes⟩)

def PeerHealth.record_active_failure (health : PeerHealth) : PeerHealth × Bool :=
  ({ health with active := ⟨true, 0⟩ }, !health.active.unhealthy)

def PeerHealth.increment_active_requests (health : PeerHealth) : PeerHealth × Bool :=
  ({ health with active_requests := health.active_requests + 1 },
    decide (health.active_requests = 0))

def PeerHealth.decrement_active_requests (health : PeerHealth) : PeerHealth × Bool :=
  ({ health with active_requests := health.active_requests - 1 },
    decide (0 < health.active_requests) && decide (health.active_requests - 1 = 0))

/-! ## The registry -/

/-- What an `Arc` of the registry points to: the health of a peer, or one that was made for an
endpoint. -/
inductive HealthCell
  | logical (peer_url : String)
  | own (endpoint_key : String)
  deriving DecidableEq

/-- The registry, of one upstream. -/
structure PeerHealthRegistry where
  policy : PeerHealthPolicy
  peers : List String
  endpoint_peers : String → Option HealthCell
  health : HealthCell → PeerHealth

namespace PeerHealthRegistry

def from_config (policy : PeerHealthPolicy) (peer_urls : List String) : PeerHealthRegistry :=
  ⟨policy, peer_urls, fun _ => none, fun _ => .default⟩

variable (registry : PeerHealthRegistry)

def get_logical_peer (peer_url : String) : Option HealthCell :=
  if peer_url ∈ registry.peers then some (.logical peer_url) else none

def get_health (peer_url : String) : Option HealthCell :=
  (registry.endpoint_peers peer_url).or (registry.get_logical_peer peer_url)

/-- `.or_insert_with` of the logical peer, or of a new one. -/
def ensure_endpoint (endpoint_key logical_peer_url : String) : PeerHealthRegistry :=
  match registry.endpoint_peers endpoint_key with
  | some _ => registry
  | none =>
    { registry with
      endpoint_peers := Function.update registry.endpoint_peers endpoint_key
        (some ((registry.get_logical_peer logical_peer_url).getD (.own endpoint_key))) }

/-- `get_health(..).map(..)`, with what it gives when there is no health. -/
def with_health {α : Type} (peer_url : String) (run : PeerHealth → PeerHealth × α) (missing : α) :
    PeerHealthRegistry × α :=
  match registry.get_health peer_url with
  | none => (registry, missing)
  | some cell =>
    let (health, result) := run (registry.health cell)
    ({ registry with health := Function.update registry.health cell health }, result)

def record_success (peer_url : String) : PeerHealthRegistry × Bool :=
  registry.with_health peer_url PeerHealth.record_success false

def record_failure (peer_url : String) (now : Nat) : PeerHealthRegistry × PeerFailureStatus :=
  registry.with_health peer_url (PeerHealth.record_failure registry.policy now) ⟨0, false⟩

def record_active_success (peer_url : String) (healthy_successes_required : Nat) :
    PeerHealthRegistry × ActiveProbeStatus :=
  registry.with_health peer_url (PeerHealth.record_active_success healthy_successes_required)
    ⟨true, false, 0⟩

def record_active_failure (peer_url : String) : PeerHealthRegistry × Bool :=
  registry.with_health peer_url PeerHealth.record_active_failure false

def is_available (peer_url : String) (now : Nat) : Bool :=
  (registry.get_health peer_url).all fun cell => (registry.health cell).is_available now

def active_requests (peer_url : String) : Nat :=
  ((registry.get_health peer_url).map fun cell => (registry.health cell).active_requests).getD 0

/-- The guard holds the health it counts in. -/
def track_active_request (peer_url : String) : PeerHealthRegistry × Option HealthCell :=
  ((registry.with_health peer_url PeerHealth.increment_active_requests false).1,
    registry.get_health peer_url)

def drop_guard (guard : Option HealthCell) : PeerHealthRegistry :=
  match guard with
  | none => registry
  | some cell =>
    { registry with
      health := Function.update registry.health cell
        (registry.health cell).decrement_active_requests.1 }

def ensure_endpoints (endpoints : List ResolvedUpstreamPeer) : PeerHealthRegistry :=
  endpoints.foldl (fun registry endpoint =>
    registry.ensure_endpoint endpoint.endpoint_key endpoint.logical_peer_url) registry

def endpoint_is_selectable (endpoint : ResolvedUpstreamPeer) (active_requests now : Nat) : Bool :=
  if !registry.is_available endpoint.endpoint_key now then false
  else endpoint.max_conns.all fun max_conns => active_requests < max_conns

/-- The endpoints of a peer as the selection finds them. -/
def peer_endpoints (endpoints : List ResolvedUpstreamPeer) (now : Nat) : PeerEndpoints :=
  let registry := registry.ensure_endpoints endpoints
  let active_requests := fun endpoint : ResolvedUpstreamPeer =>
    registry.active_requests endpoint.logical_peer_url
  let sorted := endpoints.mergeSort fun left right =>
    (compare (active_requests left) (active_requests right)).then
      (compare left.dial_authority right.dial_authority) != .gt
  let available := sorted.filter fun endpoint =>
    registry.endpoint_is_selectable endpoint (active_requests endpoint) now
  ⟨available.map fun endpoint => (active_requests endpoint, endpoint),
    sorted.length - available.length⟩

end PeerHealthRegistry

/-! ## The keys of the endpoints -/

structure PeerAddressing where
  host : String
  port : Nat
  authority : String
  logical_peer_url : String
  weight : Nat
  max_conns : Option Nat
  deriving DecidableEq

def socket_addr_authority (ip : IpAddr) (port : Nat) : String :=
  match ip with
  | .V4 _ => String.ofList ip.to_string ++ ":" ++ toString port
  | .V6 _ => "[" ++ String.ofList ip.to_string ++ "]:" ++ toString port

def build_endpoint (addressing : PeerAddressing) (ip : IpAddr) : ResolvedUpstreamPeer :=
  let dial_authority := socket_addr_authority ip addressing.port
  let endpoint_key :=
    if addressing.authority = dial_authority then addressing.logical_peer_url
    else addressing.logical_peer_url ++ "|" ++ dial_authority
  { logical_peer_url := addressing.logical_peer_url
    endpoint_key := endpoint_key
    dial_authority := dial_authority
    weight := addressing.weight
    max_conns := addressing.max_conns }

/-- The key of an endpoint is the URL of its peer if its authority spells the address. -/
theorem endpoint_key_eq_iff (addressing : PeerAddressing) (ip : IpAddr) :
    (build_endpoint addressing ip).endpoint_key = addressing.logical_peer_url ↔
      addressing.authority = socket_addr_authority ip addressing.port := by
  unfold build_endpoint
  dsimp only
  split
  · rename_i hsame
    simp [hsame]
  · rename_i hother
    refine ⟨fun h => ?_, fun h => absurd h hother⟩
    have hlength := congrArg String.length h
    simp only [String.length_append] at hlength
    have hbar : "|".length = 1 := rfl
    omega

/-! ## Runs of the registry -/

/-- The result of a request, or of a probe. -/
inductive PeerResult
  | success
  | failure (now : Nat)
  | active_success (healthy_successes_required : Nat)
  | active_failure
  deriving DecidableEq

inductive RegistryCall
  | select_peers (endpoints : List ResolvedUpstreamPeer)
  | record (peer_url : String) (result : PeerResult)

def PeerHealth.record (policy : PeerHealthPolicy) (health : PeerHealth) : PeerResult → PeerHealth
  | .success => health.record_success.1
  | .failure now => (health.record_failure policy now).1
  | .active_success required => (health.record_active_success required).1
  | .active_failure => health.record_active_failure.1

def RegistryCall.run (registry : PeerHealthRegistry) : RegistryCall → PeerHealthRegistry
  | .select_peers endpoints => registry.ensure_endpoints endpoints
  | .record peer_url .success => (registry.record_success peer_url).1
  | .record peer_url (.failure now) => (registry.record_failure peer_url now).1
  | .record peer_url (.active_success required) =>
    (registry.record_active_success peer_url required).1
  | .record peer_url .active_failure => (registry.record_active_failure peer_url).1

def after_calls (registry : PeerHealthRegistry) (calls : List RegistryCall) : PeerHealthRegistry :=
  calls.foldl RegistryCall.run registry

/-- A health that only the results of one key are recorded in. -/
def own_record (policy : PeerHealthPolicy) (key : String) (health : PeerHealth) :
    RegistryCall → PeerHealth
  | .select_peers _ => health
  | .record peer_url result => if peer_url = key then health.record policy result else health

@[simp] theorem own_record_record (policy : PeerHealthPolicy) (key : String) (health : PeerHealth)
    (peer_url : String) (result : PeerResult) :
    own_record policy key health (.record peer_url result) =
      if peer_url = key then health.record policy result else health := rfl

/-- The health that the results recorded under one key make. -/
def own_health (policy : PeerHealthPolicy) (key : String) (calls : List RegistryCall) :
    PeerHealth :=
  calls.foldl (own_record policy key) .default

/-- The endpoints that the addresses of the peers give. -/
def endpoints_of (peers : List PeerAddressing) (addresses : PeerAddressing → Set IpAddr) :
    Set ResolvedUpstreamPeer :=
  { endpoint | ∃ peer ∈ peers, ∃ ip ∈ addresses peer, endpoint = build_endpoint peer ip }

/-- Every endpoint is as available as the results say that were recorded under its own key. -/
def HealthIsOwn (policy : PeerHealthPolicy) (peers : List PeerAddressing)
    (addresses : PeerAddressing → Set IpAddr) : Prop :=
  ∀ calls : List RegistryCall,
    (∀ endpoints, .select_peers endpoints ∈ calls →
      ∀ endpoint ∈ endpoints, endpoint ∈ endpoints_of peers addresses) →
    ∀ endpoint ∈ endpoints_of peers addresses, ∀ now : Nat,
      (after_calls (.from_config policy (peers.map PeerAddressing.logical_peer_url)) calls).is_available
          endpoint.endpoint_key now =
        (own_health policy endpoint.endpoint_key calls).is_available now

section Own

variable {registry : PeerHealthRegistry}

theorem record_eq (registry : PeerHealthRegistry) (peer_url : String) (result : PeerResult) :
    RegistryCall.run registry (.record peer_url result) =
      match registry.get_health peer_url with
      | none => registry
      | some cell =>
        { registry with
          health := Function.update registry.health cell
            ((registry.health cell).record registry.policy result) } := by
  cases result <;>
  · simp only [RegistryCall.run, PeerHealthRegistry.record_success,
      PeerHealthRegistry.record_failure, PeerHealthRegistry.record_active_success,
      PeerHealthRegistry.record_active_failure, PeerHealthRegistry.with_health]
    split <;> rfl

/-- The keys of the registry are the URLs of the peers, each for the peer itself. -/
structure Literal (registry : PeerHealthRegistry) : Prop where
  keys : ∀ key cell, registry.endpoint_peers key = some cell →
    cell = .logical key ∧ key ∈ registry.peers

theorem Literal.get_health (h : Literal registry) (key : String) :
    registry.get_health key = if key ∈ registry.peers then some (.logical key) else none := by
  unfold PeerHealthRegistry.get_health PeerHealthRegistry.get_logical_peer
  rcases hcell : registry.endpoint_peers key with _ | cell
  · rfl
  · obtain ⟨rfl, hmem⟩ := h.keys key cell hcell
    rw [if_pos hmem]
    rfl

theorem Literal.ensure (h : Literal registry) {key : String} (hmem : key ∈ registry.peers) :
    Literal (registry.ensure_endpoint key key) ∧
      (registry.ensure_endpoint key key).peers = registry.peers ∧
      (registry.ensure_endpoint key key).policy = registry.policy ∧
      (registry.ensure_endpoint key key).health = registry.health := by
  unfold PeerHealthRegistry.ensure_endpoint
  split
  · exact ⟨h, rfl, rfl, rfl⟩
  · refine ⟨⟨?_⟩, rfl, rfl, rfl⟩
    intro other cell hcell
    dsimp only at hcell ⊢
    by_cases hkey : other = key
    · subst hkey
      rw [Function.update_self] at hcell
      obtain rfl := Option.some.inj hcell
      refine ⟨?_, hmem⟩
      unfold PeerHealthRegistry.get_logical_peer
      rw [if_pos hmem]
      rfl
    · rw [Function.update_of_ne hkey] at hcell
      exact h.keys other cell hcell

theorem Literal.ensure_all (h : Literal registry) (endpoints : List ResolvedUpstreamPeer)
    (hendpoints : ∀ endpoint ∈ endpoints, endpoint.endpoint_key = endpoint.logical_peer_url ∧
      endpoint.logical_peer_url ∈ registry.peers) :
    Literal (registry.ensure_endpoints endpoints) ∧
      (registry.ensure_endpoints endpoints).peers = registry.peers ∧
      (registry.ensure_endpoints endpoints).policy = registry.policy ∧
      (registry.ensure_endpoints endpoints).health = registry.health := by
  induction endpoints generalizing registry with
  | nil => exact ⟨h, rfl, rfl, rfl⟩
  | cons endpoint endpoints ih =>
    obtain ⟨hkey, hmem⟩ := hendpoints endpoint List.mem_cons_self
    obtain ⟨hliteral, hpeers, hpolicy, hhealth⟩ := h.ensure hmem
    unfold PeerHealthRegistry.ensure_endpoints at ih ⊢
    rw [List.foldl_cons, hkey]
    obtain ⟨hliteral', hpeers', hpolicy', hhealth'⟩ := ih hliteral (by
      intro other hother
      rw [hpeers]
      exact hendpoints other (List.mem_cons_of_mem _ hother))
    exact ⟨hliteral', hpeers'.trans hpeers, hpolicy'.trans hpolicy, hhealth'.trans hhealth⟩

/-- With literal keys, the health of a peer is the one that its own results make. -/
theorem literal_run {policy : PeerHealthPolicy} {peer_urls : List String}
    (calls : List RegistryCall)
    (hcalls : ∀ endpoints, .select_peers endpoints ∈ calls → ∀ endpoint ∈ endpoints,
      endpoint.endpoint_key = endpoint.logical_peer_url ∧ endpoint.logical_peer_url ∈ peer_urls) :
    Literal (after_calls (.from_config policy peer_urls) calls) ∧
      (after_calls (.from_config policy peer_urls) calls).peers = peer_urls ∧
      (after_calls (.from_config policy peer_urls) calls).policy = policy ∧
      ∀ key ∈ peer_urls, (after_calls (.from_config policy peer_urls) calls).health (.logical key) =
        own_health policy key calls := by
  induction calls using List.reverseRecOn with
  | nil => exact ⟨⟨nofun⟩, rfl, rfl, fun _ _ => rfl⟩
  | append_singleton calls call ih =>
    obtain ⟨hliteral, hpeers, hpolicy, hhealth⟩ := ih fun endpoints hmem =>
      hcalls endpoints (List.mem_append_left _ hmem)
    unfold after_calls own_health at *
    simp only [List.foldl_append, List.foldl_cons, List.foldl_nil]
    generalize calls.foldl RegistryCall.run _ = registry at *
    subst hpeers
    cases call with
    | select_peers endpoints =>
      have hendpoints := hcalls endpoints (List.mem_append_right _ (List.mem_singleton_self _))
      obtain ⟨hliteral', hpeers', hpolicy', hhealth'⟩ := hliteral.ensure_all endpoints hendpoints
      refine ⟨hliteral', hpeers', hpolicy'.trans hpolicy, ?_⟩
      intro key hkey
      change (registry.ensure_endpoints endpoints).health (.logical key) = _
      rw [hhealth', hhealth key hkey]
      rfl
    | record peer_url result =>
      rw [record_eq, hliteral.get_health]
      by_cases hknown : peer_url ∈ registry.peers
      · rw [if_pos hknown]
        refine ⟨⟨hliteral.keys⟩, rfl, hpolicy, ?_⟩
        intro key hkey
        rw [own_record_record, ← hhealth key hkey]
        dsimp only
        by_cases hsame : peer_url = key
        · rw [if_pos hsame, hsame, Function.update_self, hpolicy]
        · rw [if_neg hsame, Function.update_of_ne (by simpa using Ne.symm hsame)]
      · rw [if_neg hknown]
        refine ⟨hliteral, rfl, hpolicy, ?_⟩
        intro key hkey
        have hne : peer_url ≠ key := by
          rintro rfl
          exact hknown hkey
        rw [own_record_record, hhealth key hkey, if_neg hne]

/-- An endpoint that does not have its peer's URL for a key takes a result that is recorded under
its key for nothing, at the latest when it is seen for the first time. -/
theorem result_is_lost {policy : PeerHealthPolicy} {peer_urls : List String}
    {endpoint : ResolvedUpstreamPeer} (hmem : endpoint.logical_peer_url ∈ peer_urls)
    (hkey : endpoint.endpoint_key ≠ endpoint.logical_peer_url) (now : Nat) :
    (after_calls (.from_config policy peer_urls)
      [.record endpoint.endpoint_key .active_failure, .select_peers [endpoint]]).is_available
        endpoint.endpoint_key now = true := by
  set started := PeerHealthRegistry.from_config policy peer_urls with hstarted
  have hfirst : ∃ health, RegistryCall.run started (.record endpoint.endpoint_key .active_failure) =
      { started with health } ∧ health (.logical endpoint.logical_peer_url) = .default := by
    rw [record_eq]
    unfold PeerHealthRegistry.get_health PeerHealthRegistry.get_logical_peer
    by_cases hother : endpoint.endpoint_key ∈ peer_urls
    · have hne : HealthCell.logical endpoint.logical_peer_url ≠ .logical endpoint.endpoint_key := by
        simpa using Ne.symm hkey
      refine ⟨Function.update started.health (.logical endpoint.endpoint_key)
        ((started.health (.logical endpoint.endpoint_key)).record policy .active_failure), ?_, ?_⟩
      · simp [hstarted, PeerHealthRegistry.from_config, hother]
      · rw [Function.update_of_ne hne]
        rfl
    · refine ⟨started.health, ?_, rfl⟩
      simp [hstarted, PeerHealthRegistry.from_config, hother]
  obtain ⟨health, hrun, hdefault⟩ := hfirst
  unfold after_calls
  rw [List.foldl_cons, hrun, List.foldl_cons, List.foldl_nil]
  -- the endpoint is new, and shares the health of its peer, which has no failure
  simp [RegistryCall.run, PeerHealthRegistry.ensure_endpoints, PeerHealthRegistry.ensure_endpoint,
    PeerHealthRegistry.is_available, PeerHealthRegistry.get_health,
    PeerHealthRegistry.get_logical_peer, hstarted, PeerHealthRegistry.from_config, hmem, hdefault]
  rfl

/-- Every endpoint has a health of its own if and only if the peers are addresses: each one only
resolves to the address and the port that its authority spells. -/
theorem health_is_own_iff (policy : PeerHealthPolicy) (peers : List PeerAddressing)
    (addresses : PeerAddressing → Set IpAddr) :
    HealthIsOwn policy peers addresses ↔
      ∀ peer ∈ peers, ∀ ip ∈ addresses peer,
        peer.authority = socket_addr_authority ip peer.port := by
  have hurl : ∀ peer ∈ peers, peer.logical_peer_url ∈ peers.map PeerAddressing.logical_peer_url :=
    fun peer hpeer => List.mem_map_of_mem hpeer
  constructor
  · intro hown peer hpeer ip hip
    by_contra hname
    have hkey : (build_endpoint peer ip).endpoint_key ≠ (build_endpoint peer ip).logical_peer_url :=
      fun h => hname ((endpoint_key_eq_iff peer ip).mp h)
    have hendpoint : build_endpoint peer ip ∈ endpoints_of peers addresses :=
      ⟨peer, hpeer, ip, hip, rfl⟩
    have hsame := hown [.record (build_endpoint peer ip).endpoint_key .active_failure,
      .select_peers [build_endpoint peer ip]] (by simpa using hendpoint) _ hendpoint 0
    rw [result_is_lost (hurl peer hpeer) hkey 0] at hsame
    simp [own_health, own_record, PeerHealth.record, PeerHealth.record_active_failure,
      PeerHealth.is_available] at hsame
  · intro hliteral calls hcalls endpoint hendpoint now
    have hkeys : ∀ endpoint ∈ endpoints_of peers addresses,
        endpoint.endpoint_key = endpoint.logical_peer_url ∧
          endpoint.logical_peer_url ∈ peers.map PeerAddressing.logical_peer_url := by
      rintro endpoint ⟨peer, hpeer, ip, hip, rfl⟩
      exact ⟨(endpoint_key_eq_iff peer ip).mpr (hliteral peer hpeer ip hip), hurl peer hpeer⟩
    have hrun : Literal (after_calls (.from_config policy
        (peers.map PeerAddressing.logical_peer_url)) calls) ∧ _ := literal_run calls
      fun endpoints hmem endpoint hendpoint => hkeys endpoint (hcalls endpoints hmem endpoint hendpoint)
    obtain ⟨hregistry, hpeers, -, hhealth⟩ := hrun
    obtain ⟨hkey, hmem⟩ := hkeys endpoint hendpoint
    unfold PeerHealthRegistry.is_available
    rw [hregistry.get_health, hpeers, hkey, if_pos hmem, ← hhealth _ hmem]
    rfl

end Own

/-! ## Two addresses of one name -/

def api : PeerAddressing :=
  ⟨"api.internal", 80, "api.internal:80", "http://api.internal", 1, none⟩

def api_addresses : Set IpAddr := {.V4 0x0a000001, .V4 0x0a000002}

def first_endpoint : ResolvedUpstreamPeer := build_endpoint api (.V4 0x0a000001)

def second_endpoint : ResolvedUpstreamPeer := build_endpoint api (.V4 0x0a000002)

def three_failures : PeerHealthPolicy := ⟨3, 10⟩

/-- The failed probe of one address makes the other one unavailable, and one before the first
request is forgotten. -/
theorem a_probe_speaks_for_the_other_address :
    (after_calls (.from_config three_failures [api.logical_peer_url])
      [.select_peers [first_endpoint, second_endpoint],
        .record first_endpoint.endpoint_key .active_failure]).is_available
          second_endpoint.endpoint_key 0 = false ∧
    (after_calls (.from_config three_failures [api.logical_peer_url])
      [.record first_endpoint.endpoint_key .active_failure,
        .select_peers [first_endpoint, second_endpoint]]).is_available
          first_endpoint.endpoint_key 0 = true ∧
    ¬ HealthIsOwn three_failures [api] fun _ => api_addresses := by
  refine ⟨by decide +kernel, by decide +kernel, ?_⟩
  intro hown
  have hsame := hown [.select_peers [first_endpoint, second_endpoint],
    .record first_endpoint.endpoint_key .active_failure] ?_ second_endpoint
    ⟨api, List.mem_singleton_self _, .V4 0x0a000002, .inr rfl, rfl⟩ 0
  · exact absurd hsame (by decide +kernel)
  · intro endpoints hmem endpoint hendpoint
    simp at hmem
    subst hmem
    rcases List.mem_pair.mp hendpoint with rfl | rfl
    · exact ⟨api, List.mem_singleton_self _, .V4 0x0a000001, .inl rfl, rfl⟩
    · exact ⟨api, List.mem_singleton_self _, .V4 0x0a000002, .inr rfl, rfl⟩

end rginx.proxy
