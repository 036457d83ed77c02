-- The active requests of the peers of an upstream, from `health/registry/state.rs`, `guards.rs` and
-- `snapshot.rs`. Guards count under the keys of endpoints, in the cell of the peer; a snapshot adds the
-- cells of the endpoints up, although they are one.
import Rginx.PeerAddresses
import Rginx.PeerConnections

open rust_net rust_text

namespace rginx.proxy

/-! ## Snapshots -/

structure PeerHealthSnapshot where
  peer_url : String
  backup : Bool
  weight : Nat
  available : Bool
  passive_consecutive_failures : Nat
  passive_cooldown_remaining_ms : Option Nat
  passive_pending_recovery : Bool
  active_unhealthy : Bool
  active_consecutive_successes : Nat
  active_requests : Nat
  deriving DecidableEq

structure ResolvedEndpointHealthSnapshot where
  endpoint_key : String
  logical_peer_url : String
  display_url : String
  dial_addr : Text
  server_name : String
  backup : Bool
  weight : Nat
  available : Bool
  passive_consecutive_failures : Nat
  passive_cooldown_remaining_ms : Option Nat
  passive_pending_recovery : Bool
  active_unhealthy : Bool
  active_consecutive_successes : Nat
  active_requests : Nat
  deriving DecidableEq

/-- `UpstreamHealthSnapshot`, less what is not of the peers. -/
structure UpstreamHealthSnapshot where
  upstream_name : String
  unhealthy_after_failures : Nat
  cooldown_ms : Nat
  peers : List PeerHealthSnapshot
  endpoints : List ResolvedEndpointHealthSnapshot
  deriving DecidableEq

/-- `Duration::as_millis`, of nanoseconds, as far as a `u64` goes. -/
def as_millis (nanos : Nat) : Nat := min (nanos / 1000000) U64_MAX

def PeerHealth.cooldown_remaining (health : PeerHealth) (now : Nat) : Option Nat :=
  (health.passive.unhealthy_until.filter fun until_time => now ≤ until_time).map fun until_time =>
    as_millis (until_time - now)

def PeerHealth.snapshot (health : PeerHealth) (peer : UpstreamPeer) (now : Nat) :
    PeerHealthSnapshot where
  peer_url := peer.url
  backup := peer.backup
  weight := peer.weight
  available := health.is_available now
  passive_consecutive_failures := health.passive.consecutive_failures
  passive_cooldown_remaining_ms := health.cooldown_remaining now
  passive_pending_recovery := health.passive.pending_recovery
  active_unhealthy := health.active.unhealthy
  active_consecutive_successes := health.active.consecutive_successes
  active_requests := health.active_requests

def PeerHealth.snapshot_endpoint (health : PeerHealth) (endpoint : ResolvedEndpoint) (now : Nat) :
    ResolvedEndpointHealthSnapshot where
  endpoint_key := endpoint.endpoint_key
  logical_peer_url := endpoint.logical_peer_url
  display_url := endpoint.display_url
  dial_addr := endpoint.socket_addr.to_string
  server_name := endpoint.server_name
  backup := endpoint.backup
  weight := endpoint.weight
  available := health.is_available now
  passive_consecutive_failures := health.passive.consecutive_failures
  passive_cooldown_remaining_ms := health.cooldown_remaining now
  passive_pending_recovery := health.passive.pending_recovery
  active_unhealthy := health.active.unhealthy
  active_consecutive_successes := health.active.consecutive_successes
  active_requests := health.active_requests

def default_peer_snapshot (peer : UpstreamPeer) (available : Bool) : PeerHealthSnapshot where
  peer_url := peer.url
  backup := peer.backup
  weight := peer.weight
  available := available
  passive_consecutive_failures := 0
  passive_cooldown_remaining_ms := none
  passive_pending_recovery := false
  active_unhealthy := false
  active_consecutive_successes := 0
  active_requests := 0

def default_endpoint_snapshot (endpoint : ResolvedEndpoint) : ResolvedEndpointHealthSnapshot where
  endpoint_key := endpoint.endpoint_key
  logical_peer_url := endpoint.logical_peer_url
  display_url := endpoint.display_url
  dial_addr := endpoint.socket_addr.to_string
  server_name := endpoint.server_name
  backup := endpoint.backup
  weight := endpoint.weight
  available := true
  passive_consecutive_failures := 0
  passive_cooldown_remaining_ms := none
  passive_pending_recovery := false
  active_unhealthy := false
  active_consecutive_successes := 0
  active_requests := 0

def aggregate_peer_snapshot (peer : UpstreamPeer)
    (endpoints : List ResolvedEndpointHealthSnapshot) : PeerHealthSnapshot where
  peer_url := peer.url
  backup := peer.backup
  weight := peer.weight
  available := endpoints.any fun endpoint => endpoint.available
  passive_consecutive_failures :=
    ((endpoints.map fun endpoint => endpoint.passive_consecutive_failures).max?).getD 0
  passive_cooldown_remaining_ms :=
    (endpoints.filterMap fun endpoint => endpoint.passive_cooldown_remaining_ms).max?
  passive_pending_recovery := endpoints.any fun endpoint => endpoint.passive_pending_recovery
  active_unhealthy := endpoints.all fun endpoint => endpoint.active_unhealthy
  active_consecutive_successes :=
    ((endpoints.map fun endpoint => endpoint.active_consecutive_successes).max?).getD 0
  active_requests := (endpoints.map fun endpoint => endpoint.active_requests).sum

section Snapshots

variable (parse : String → Except String HttpUri) (registry : PeerHealthRegistry)

def peer_is_hostname (peer : UpstreamPeer) : Bool :=
  match parse peer.url with
  | .error _ => false
  | .ok uri => uri.host.any fun host => (IpAddr.parse host.toList).isNone

def endpoint_snapshot (now : Nat) (endpoint : ResolvedEndpoint) : ResolvedEndpointHealthSnapshot :=
  match registry.get_health endpoint.endpoint_key with
  | some cell => (registry.health cell).snapshot_endpoint endpoint now
  | none => default_endpoint_snapshot endpoint

def peer_snapshot (endpoint_snapshots : List ResolvedEndpointHealthSnapshot) (now : Nat)
    (peer : UpstreamPeer) : PeerHealthSnapshot :=
  let peer_endpoints := endpoint_snapshots.filter fun endpoint =>
    endpoint.logical_peer_url = peer.url
  if peer_endpoints ≠ [] then aggregate_peer_snapshot peer peer_endpoints
  else
    match registry.get_logical_peer peer.url with
    | some cell => (registry.health cell).snapshot peer now
    | none => default_peer_snapshot peer (!peer_is_hostname parse peer)

def snapshot_for_upstream (upstream : Upstream) (endpoints : List ResolvedEndpoint) (now : Nat) :
    UpstreamHealthSnapshot :=
  let endpoint_snapshots := endpoints.map (endpoint_snapshot registry now)
  { upstream_name := upstream.name
    unhealthy_after_failures := registry.policy.unhealthy_after_failures
    cooldown_ms := as_millis registry.policy.cooldown
    peers := upstream.peers.map (peer_snapshot parse registry endpoint_snapshots now)
    endpoints := endpoint_snapshots }

end Snapshots

/-! ## Requests and their guards -/

/-- `ActivePeerGuard`, with the endpoint that it was taken for, and whether the registry knew the
key of the endpoint then. -/
structure LiveGuard where
  endpoint : ResolvedUpstreamPeer
  known : Bool
  peer : Option HealthCell
  deriving DecidableEq

inductive ActiveEvent
  | ensure_endpoint (endpoint : ResolvedUpstreamPeer)
  | track_active_request (endpoint : ResolvedUpstreamPeer)
  | drop (guard : LiveGuard)

/-- The registry knows the key: it is that of an endpoint, or the URL of the peer itself. -/
def PeerHealthRegistry.knows (registry : PeerHealthRegistry) (endpoint : ResolvedUpstreamPeer) :
    Bool :=
  (registry.endpoint_peers endpoint.endpoint_key).isSome ||
    endpoint.endpoint_key = endpoint.logical_peer_url

structure ActiveWorld where
  registry : PeerHealthRegistry
  guards : List LiveGuard

namespace ActiveWorld

def start (policy : PeerHealthPolicy) (upstream : Upstream) : ActiveWorld :=
  ⟨.from_config policy (upstream.peers.map UpstreamPeer.url), []⟩

/-- A guard that is not alive is not dropped. -/
def step (world : ActiveWorld) : ActiveEvent → ActiveWorld
  | .ensure_endpoint endpoint =>
    { world with
      registry := world.registry.ensure_endpoint endpoint.endpoint_key endpoint.logical_peer_url }
  | .track_active_request endpoint =>
    let (registry, peer) := world.registry.track_active_request endpoint.endpoint_key
    { registry, guards := ⟨endpoint, world.registry.knows endpoint, peer⟩ :: world.guards }
  | .drop guard =>
    if guard ∈ world.guards then
      { registry := world.registry.drop_guard guard.peer, guards := world.guards.erase guard }
    else world

def run (policy : PeerHealthPolicy) (upstream : Upstream) (events : List ActiveEvent) :
    ActiveWorld :=
  events.foldl step (start policy upstream)

/-- The live guards of a peer. -/
def live (world : ActiveWorld) (peer_url : String) : Nat :=
  world.guards.countP fun guard => guard.endpoint.logical_peer_url = peer_url

end ActiveWorld

/-- What the peers of the upstream resolve to. -/
def resolved_endpoints (parse : String → Except String HttpUri) (upstream : Upstream) :
    Set ResolvedUpstreamPeer :=
  { endpoint | ∃ peer ∈ upstream.peers, ∃ addressing ip,
    parse_peer_addressing parse peer = .ok addressing ∧
      endpoint = build_endpoint addressing.toPeerAddressing ip }

/-- The events are about these endpoints. -/
def EventsOf (endpoints : Set ResolvedUpstreamPeer) (events : List ActiveEvent) : Prop :=
  ∀ event ∈ events, match event with
    | .ensure_endpoint endpoint => endpoint ∈ endpoints
    | .track_active_request endpoint => endpoint ∈ endpoints
    | .drop _ => True

/-- The count of a peer is that of its live guards, in the registry and in its snapshot, and no
guard takes it below zero. -/
structure Accounted (parse : String → Except String HttpUri) (upstream : Upstream)
    (world : ActiveWorld) (endpoints : List ResolvedEndpoint) (now : Nat) (peer : UpstreamPeer) :
    Prop where
  active_requests : world.registry.active_requests peer.url = world.live peer.url
  above_zero : ∀ guard ∈ world.guards, ∀ cell ∈ guard.peer,
    0 < (world.registry.health cell).active_requests
  snapshot : ∀ row ∈ (snapshot_for_upstream parse world.registry upstream endpoints now).peers,
    row.peer_url = peer.url → row.active_requests = world.live peer.url

/-! ## The cells -/

section Cells

variable {peer_urls : List String} {endpoints : Set ResolvedUpstreamPeer}
  {registry : PeerHealthRegistry}

/-- The key of an endpoint leads to the cell of its peer where the registry knows it. -/
theorem RegistryOk.get_health_eq (h : RegistryOk peer_urls endpoints registry)
    (hkeys : KeysSeparate peer_urls endpoints) {endpoint : ResolvedUpstreamPeer}
    (hendpoint : endpoint ∈ endpoints) :
    registry.get_health endpoint.endpoint_key =
      if registry.knows endpoint then some (.logical endpoint.logical_peer_url) else none := by
  cases hcell : registry.endpoint_peers endpoint.endpoint_key with
  | some cell =>
    have hknown : registry.knows endpoint = true := by simp [PeerHealthRegistry.knows, hcell]
    rw [hknown, if_pos rfl]
    exact h.get_health hkeys hendpoint (by rw [hcell]; rfl)
  | none =>
    unfold PeerHealthRegistry.get_health PeerHealthRegistry.get_logical_peer
      PeerHealthRegistry.knows
    rw [hcell, h.peers]
    by_cases hkey : endpoint.endpoint_key = endpoint.logical_peer_url
    · have hmem : endpoint.endpoint_key ∈ peer_urls := hkey ▸ hkeys.urls endpoint hendpoint
      simp [hkey, hkey ▸ hmem]
    · have hnot : endpoint.endpoint_key ∉ peer_urls := fun hmem =>
        hkey (hkeys.logical endpoint hendpoint _ hmem rfl).symm
      simp [hkey, hnot]

/-! ## The invariant -/

/-- A guard counts in the cell of its peer, where the registry knew its key. -/
structure ActiveWorld.Ok (peer_urls : List String) (endpoints : Set ResolvedUpstreamPeer)
    (world : ActiveWorld) : Prop where
  registry : RegistryOk peer_urls endpoints world.registry
  counts : ∀ peer_url, (world.registry.health (.logical peer_url)).active_requests =
    world.guards.countP fun guard => guard.peer = some (.logical peer_url)
  guards : ∀ guard ∈ world.guards, guard.endpoint ∈ endpoints ∧
    guard.peer = if guard.known then some (.logical guard.endpoint.logical_peer_url) else none

variable {world : ActiveWorld}

theorem ActiveWorld.Ok.ensure (h : world.Ok peer_urls endpoints)
    (hkeys : KeysSeparate peer_urls endpoints) {endpoint : ResolvedUpstreamPeer}
    (hendpoint : endpoint ∈ endpoints) :
    (world.step (.ensure_endpoint endpoint)).Ok peer_urls endpoints := by
  obtain ⟨hregistry, hhealth, -⟩ := h.registry.ensure hkeys hendpoint
  refine ⟨hregistry, ?_, h.guards⟩
  intro peer_url
  change ((world.registry.ensure_endpoint _ _).health _).active_requests = _
  rw [hhealth]
  exact h.counts peer_url

theorem ActiveWorld.Ok.track (h : world.Ok peer_urls endpoints)
    (hkeys : KeysSeparate peer_urls endpoints) {endpoint : ResolvedUpstreamPeer}
    (hendpoint : endpoint ∈ endpoints) :
    (world.step (.track_active_request endpoint)).Ok peer_urls endpoints := by
  have hcell := h.registry.get_health_eq hkeys hendpoint
  unfold step
  dsimp only
  unfold PeerHealthRegistry.track_active_request PeerHealthRegistry.with_health
  cases hknown : world.registry.knows endpoint with
  | false =>
    rw [hknown] at hcell
    rw [hcell]
    refine ⟨h.registry, ?_, ?_⟩
    · intro peer_url
      rw [List.countP_cons_of_neg (by simp)]
      exact h.counts peer_url
    · intro guard hguard
      rcases List.mem_cons.mp hguard with rfl | hguard
      · exact ⟨hendpoint, rfl⟩
      · exact h.guards guard hguard
  | true =>
    rw [hknown, if_pos rfl] at hcell
    rw [hcell]
    refine ⟨⟨h.registry.peers, h.registry.cells⟩, ?_, ?_⟩
    · intro peer_url
      have hbefore := h.counts peer_url
      dsimp only
      rw [List.countP_cons]
      by_cases hsame : endpoint.logical_peer_url = peer_url
      · subst hsame
        rw [Function.update_self, PeerHealth.increment_active_requests]
        simp [hbefore]
      · rw [Function.update_of_ne (by simpa using Ne.symm hsame), hbefore]
        simp [hsame]
    · intro guard hguard
      rcases List.mem_cons.mp hguard with rfl | hguard
      · exact ⟨hendpoint, rfl⟩
      · exact h.guards guard hguard

/-- A guard that counts is among those of its cell. -/
theorem ActiveWorld.Ok.positive (h : world.Ok peer_urls endpoints) {guard : LiveGuard}
    (hguard : guard ∈ world.guards) {cell : HealthCell} (hcell : guard.peer = some cell) :
    0 < (world.registry.health cell).active_requests := by
  have hpeer := (h.guards guard hguard).2
  rw [hcell] at hpeer
  split at hpeer
  · obtain rfl := Option.some.inj hpeer
    rw [h.counts, List.countP_pos_iff]
    exact ⟨guard, hguard, by simp [hcell]⟩
  · cases hpeer

theorem ActiveWorld.Ok.drop (h : world.Ok peer_urls endpoints) (guard : LiveGuard) :
    (world.step (.drop guard)).Ok peer_urls endpoints := by
  unfold step
  dsimp only
  split_ifs with hguard
  · have hcount : ∀ peer_url,
        world.guards.countP (fun guard => guard.peer = some (.logical peer_url)) =
          (world.guards.erase guard).countP (fun guard => guard.peer = some (.logical peer_url)) +
            if guard.peer = some (.logical peer_url) then 1 else 0 := by
      intro peer_url
      rw [(List.perm_cons_erase hguard).countP_eq, List.countP_cons]
      simp
    have hothers : ∀ other ∈ world.guards.erase guard, other.endpoint ∈ endpoints ∧
        other.peer = if other.known then some (.logical other.endpoint.logical_peer_url) else none :=
      fun other hother => h.guards other (List.mem_of_mem_erase hother)
    cases hpeer : guard.peer with
    | none =>
      refine ⟨h.registry, ?_, hothers⟩
      intro peer_url
      have hbefore := hcount peer_url
      rw [hpeer] at hbefore
      change (world.registry.health _).active_requests = _
      rw [h.counts, hbefore]
      simp
    | some cell =>
      refine ⟨⟨h.registry.peers, h.registry.cells⟩, ?_, hothers⟩
      intro peer_url
      have hbefore := h.counts peer_url
      rw [hcount peer_url, hpeer] at hbefore
      simp only [PeerHealthRegistry.drop_guard]
      by_cases hsame : HealthCell.logical peer_url = cell
      · subst hsame
        rw [Function.update_self, PeerHealth.decrement_active_requests]
        simp only [if_true] at hbefore
        dsimp only
        omega
      · rw [Function.update_of_ne hsame, hbefore]
        simp [Ne.symm hsame]
  · exact h

theorem ActiveWorld.start_ok (policy : PeerHealthPolicy) (upstream : Upstream) :
    (ActiveWorld.start policy upstream).Ok (upstream.peers.map UpstreamPeer.url) endpoints :=
  ⟨⟨rfl, nofun⟩, fun _ => rfl, nofun⟩

theorem ActiveWorld.run_ok {policy : PeerHealthPolicy} {upstream : Upstream}
    (hkeys : KeysSeparate (upstream.peers.map UpstreamPeer.url) endpoints)
    {events : List ActiveEvent} (hevents : EventsOf endpoints events) :
    (ActiveWorld.run policy upstream events).Ok (upstream.peers.map UpstreamPeer.url) endpoints := by
  unfold run
  apply List.foldlRecOn (motive := fun world : ActiveWorld =>
    world.Ok (upstream.peers.map UpstreamPeer.url) endpoints)
  · exact start_ok policy upstream
  · intro world hworld event hevent
    have hof := hevents event hevent
    cases event with
    | ensure_endpoint endpoint => exact hworld.ensure hkeys hof
    | track_active_request endpoint => exact hworld.track hkeys hof
    | drop guard => exact hworld.drop guard

end Cells

/-! ## What is counted and what is shown -/

section Shown

variable {parse : String → Except String HttpUri} {upstream : Upstream}
  {peer_urls : List String} {endpoints : Set ResolvedUpstreamPeer} {world : ActiveWorld}

/-- The guards that count for a peer. -/
theorem ActiveWorld.Ok.count_eq (h : world.Ok peer_urls endpoints)
    (hkeys : KeysSeparate peer_urls endpoints) {peer_url : String} (hpeer : peer_url ∈ peer_urls) :
    world.registry.active_requests peer_url =
      world.guards.countP fun guard => guard.endpoint.logical_peer_url = peer_url ∧ guard.known := by
  rw [h.registry.active_requests hkeys hpeer, h.counts]
  apply List.countP_congr
  intro guard hguard
  rw [decide_eq_true_eq, decide_eq_true_eq, (h.guards guard hguard).2]
  cases guard.known <;> simp

theorem countP_and_eq_iff {α : Type} {p q : α → Bool} {items : List α} :
    (items.countP fun item => p item && q item) = items.countP p ↔
      ∀ item ∈ items, p item = true → q item = true := by
  have hfilter : (items.countP fun item => p item && q item) = (items.filter p).countP q := by
    rw [List.countP_filter]
    simp only [Bool.and_comm]
  rw [hfilter, @List.countP_eq_length_filter _ p, List.countP_eq_length]
  simp only [List.mem_filter, and_imp]

/-- All live guards of a peer count if and only if the registry knew the key of each. -/
theorem ActiveWorld.Ok.count_eq_live_iff (h : world.Ok peer_urls endpoints)
    (hkeys : KeysSeparate peer_urls endpoints) {peer_url : String} (hpeer : peer_url ∈ peer_urls) :
    world.registry.active_requests peer_url = world.live peer_url ↔
      ∀ guard ∈ world.guards, guard.endpoint.logical_peer_url = peer_url → guard.known = true := by
  rw [h.count_eq hkeys hpeer]
  unfold ActiveWorld.live
  have hiff := @countP_and_eq_iff LiveGuard
    (fun guard => guard.endpoint.logical_peer_url = peer_url) LiveGuard.known world.guards
  simpa using hiff

variable (world) in
/-- How many of the resolved endpoints of a peer have a key that the registry knows. -/
def shown (endpoints : List ResolvedEndpoint) (peer_url : String) : Nat :=
  endpoints.countP fun endpoint => endpoint.logical_peer_url = peer_url ∧
    world.registry.knows endpoint.toResolvedUpstreamPeer

theorem ActiveWorld.Ok.row_eq (h : world.Ok peer_urls endpoints)
    (hkeys : KeysSeparate peer_urls endpoints) {endpoint : ResolvedEndpoint}
    (hendpoint : endpoint.toResolvedUpstreamPeer ∈ endpoints) (now : Nat) :
    (endpoint_snapshot world.registry now endpoint).logical_peer_url = endpoint.logical_peer_url ∧
      (endpoint_snapshot world.registry now endpoint).active_requests =
        if world.registry.knows endpoint.toResolvedUpstreamPeer then
          world.registry.active_requests endpoint.logical_peer_url
        else 0 := by
  have hcount := h.registry.active_requests hkeys (hkeys.urls _ hendpoint)
  unfold endpoint_snapshot
  rw [h.registry.get_health_eq hkeys hendpoint]
  cases world.registry.knows endpoint.toResolvedUpstreamPeer with
  | false => exact ⟨rfl, rfl⟩
  | true => exact ⟨rfl, hcount.symm⟩

/-- The sum of the cells of the endpoints of a peer. -/
theorem ActiveWorld.Ok.sum_eq (h : world.Ok peer_urls endpoints)
    (hkeys : KeysSeparate peer_urls endpoints) (peer_url : String) {resolved : List ResolvedEndpoint}
    (hresolved : ∀ endpoint ∈ resolved, endpoint.toResolvedUpstreamPeer ∈ endpoints) (now : Nat) :
    (((resolved.map (endpoint_snapshot world.registry now)).filter fun endpoint =>
        endpoint.logical_peer_url = peer_url).map fun endpoint => endpoint.active_requests).sum =
      shown world resolved peer_url * world.registry.active_requests peer_url := by
  induction resolved with
  | nil => simp [shown]
  | cons endpoint resolved ih =>
    have hrest := ih fun other hother => hresolved other (List.mem_cons_of_mem _ hother)
    obtain ⟨hurl, hrow⟩ := h.row_eq hkeys (hresolved endpoint List.mem_cons_self) now
    unfold shown at hrest ⊢
    rw [List.map_cons, List.filter_cons, List.countP_cons, hurl]
    by_cases hsame : endpoint.logical_peer_url = peer_url
    · rw [if_pos (by simpa using hsame), List.map_cons, List.sum_cons, hrest, hrow, hsame,
        Nat.add_mul, Nat.add_comm]
      cases world.registry.knows endpoint.toResolvedUpstreamPeer <;> simp
    · rw [if_neg (by simpa using hsame), hrest]
      simp [hsame]

/-- What the snapshot shows of a peer. -/
theorem ActiveWorld.Ok.peer_snapshot_eq (h : world.Ok peer_urls endpoints)
    (hkeys : KeysSeparate peer_urls endpoints) {peer : UpstreamPeer} (hpeer : peer.url ∈ peer_urls)
    {resolved : List ResolvedEndpoint}
    (hresolved : ∀ endpoint ∈ resolved, endpoint.toResolvedUpstreamPeer ∈ endpoints) (now : Nat) :
    (peer_snapshot parse world.registry (resolved.map (endpoint_snapshot world.registry now)) now
        peer).active_requests =
      if ∃ endpoint ∈ resolved, endpoint.logical_peer_url = peer.url then
        shown world resolved peer.url * world.registry.active_requests peer.url
      else world.registry.active_requests peer.url := by
  have hnil : ((resolved.map (endpoint_snapshot world.registry now)).filter fun endpoint =>
      endpoint.logical_peer_url = peer.url) ≠ [] ↔
        ∃ endpoint ∈ resolved, endpoint.logical_peer_url = peer.url := by
    rw [Ne, List.filter_eq_nil_iff]
    simp only [List.mem_map, decide_eq_true_eq, not_forall, not_not]
    constructor
    · rintro ⟨_, ⟨endpoint, hendpoint, rfl⟩, hurl⟩
      rw [(h.row_eq hkeys (hresolved endpoint hendpoint) now).1] at hurl
      exact ⟨endpoint, hendpoint, hurl⟩
    · rintro ⟨endpoint, hendpoint, hurl⟩
      refine ⟨_, ⟨endpoint, hendpoint, rfl⟩, ?_⟩
      rw [(h.row_eq hkeys (hresolved endpoint hendpoint) now).1, hurl]
  unfold peer_snapshot
  dsimp only
  simp only [hnil]
  split_ifs with hsome
  · exact h.sum_eq hkeys peer.url hresolved now
  · rw [h.registry.active_requests hkeys hpeer]
    unfold PeerHealthRegistry.get_logical_peer
    rw [h.registry.peers, if_pos hpeer]
    rfl

theorem peer_snapshot_url (registry : PeerHealthRegistry)
    (rows : List ResolvedEndpointHealthSnapshot) (now : Nat) (peer : UpstreamPeer) :
    (peer_snapshot parse registry rows now peer).peer_url = peer.url := by
  unfold peer_snapshot
  dsimp only
  split
  · rfl
  · split <;> rfl

/-- URLs without a bar keep the keys of what they resolve to apart. -/
theorem resolved_keys_separate (hbars : ∀ peer ∈ upstream.peers, '|' ∉ peer.url.toList) :
    KeysSeparate (upstream.peers.map UpstreamPeer.url) (resolved_endpoints parse upstream) := by
  let addressing_or : UpstreamPeer → PeerAddressing := fun peer =>
    match parse_peer_addressing parse peer with
    | .ok addressing => addressing.toPeerAddressing
    | .error _ => ⟨"", 0, "", peer.url, peer.weight, peer.max_conns⟩
  have hurl : ∀ peer : UpstreamPeer, (addressing_or peer).logical_peer_url = peer.url := by
    intro peer
    simp only [addressing_or]
    split
    · rename_i addressing hok
      exact parse_peer_addressing_url hok
    · rfl
  have hkeys := @keys_separate (upstream.peers.map addressing_or) (fun _ => Set.univ) (by
    intro addressing haddressing
    obtain ⟨peer, hpeer, rfl⟩ := List.mem_map.mp haddressing
    rw [hurl]
    exact hbars peer hpeer)
  have hsub : ∀ endpoint ∈ resolved_endpoints parse upstream,
      endpoint ∈ endpoints_of (upstream.peers.map addressing_or) fun _ => Set.univ := by
    rintro endpoint ⟨peer, hpeer, addressing, ip, hok, rfl⟩
    refine ⟨addressing_or peer, List.mem_map_of_mem hpeer, ip, trivial, ?_⟩
    simp only [addressing_or, hok]
  have hurls : (upstream.peers.map addressing_or).map PeerAddressing.logical_peer_url =
      upstream.peers.map UpstreamPeer.url := by
    rw [List.map_map]
    exact List.map_congr_left fun peer _ => hurl peer
  rw [hurls] at hkeys
  exact ⟨fun endpoint hendpoint => hkeys.urls endpoint (hsub endpoint hendpoint),
    fun endpoint hendpoint other hother =>
      hkeys.keys endpoint (hsub endpoint hendpoint) other (hsub other hother),
    fun endpoint hendpoint => hkeys.logical endpoint (hsub endpoint hendpoint)⟩

/-- The active requests of a peer are its live guards, in the registry and in a snapshot, if and
only if the registry knew the key of each of them when it was taken, and, where there are any, the
snapshot has one endpoint of the peer with a key that the registry knows, or no endpoint of it. -/
theorem accounted_iff (parse : String → Except String HttpUri) (policy : PeerHealthPolicy)
    (upstream : Upstream) (hbars : ∀ peer ∈ upstream.peers, '|' ∉ peer.url.toList)
    (events : List ActiveEvent) (hevents : EventsOf (resolved_endpoints parse upstream) events)
    (peer : UpstreamPeer) (hpeer : peer ∈ upstream.peers) (resolved : List ResolvedEndpoint)
    (hresolved : ∀ endpoint ∈ resolved,
      endpoint.toResolvedUpstreamPeer ∈ resolved_endpoints parse upstream) (now : Nat) :
    Accounted parse upstream (.run policy upstream events) resolved now peer ↔
      (∀ guard ∈ (ActiveWorld.run policy upstream events).guards,
        guard.endpoint.logical_peer_url = peer.url → guard.known = true) ∧
      ((ActiveWorld.run policy upstream events).live peer.url = 0 ∨
        shown (.run policy upstream events) resolved peer.url = 1 ∨
        ∀ endpoint ∈ resolved, endpoint.logical_peer_url ≠ peer.url) := by
  have hkeys := @resolved_keys_separate parse upstream hbars
  have hok := @ActiveWorld.run_ok _ policy upstream hkeys events hevents
  have hurl : peer.url ∈ upstream.peers.map UpstreamPeer.url := List.mem_map_of_mem hpeer
  generalize ActiveWorld.run policy upstream events = world at hok ⊢
  have hcount := hok.count_eq_live_iff hkeys hurl
  have hrow : ∀ other ∈ upstream.peers, other.url = peer.url →
      (peer_snapshot parse world.registry (resolved.map (endpoint_snapshot world.registry now)) now
        other).active_requests =
      if ∃ endpoint ∈ resolved, endpoint.logical_peer_url = peer.url then
        shown world resolved peer.url * world.registry.active_requests peer.url
      else world.registry.active_requests peer.url := by
    intro other hother hsame
    rw [hok.peer_snapshot_eq hkeys (List.mem_map_of_mem hother) hresolved, hsame]
  constructor
  · rintro ⟨hactive, -, hsnapshot⟩
    refine ⟨hcount.mp hactive, ?_⟩
    have hpeer_row := hsnapshot _ (List.mem_map_of_mem hpeer) (peer_snapshot_url _ _ _ _)
    rw [hrow peer hpeer rfl, hactive] at hpeer_row
    split_ifs at hpeer_row with hsome
    · rcases Nat.eq_zero_or_pos (world.live peer.url) with hzero | hpos
      · exact .inl hzero
      · exact .inr (.inl (Nat.eq_of_mul_eq_mul_right hpos (by rw [hpeer_row, Nat.one_mul])))
    · push Not at hsome
      exact .inr (.inr hsome)
  · rintro ⟨hknown, hshown⟩
    have hactive := hcount.mpr hknown
    refine ⟨hactive, fun guard hguard cell hcell => hok.positive hguard hcell, ?_⟩
    intro row hmem hrow_url
    obtain ⟨other, hother, rfl⟩ := List.mem_map.mp hmem
    rw [peer_snapshot_url] at hrow_url
    rw [hrow other hother hrow_url, hactive]
    split_ifs with hsome
    · rcases hshown with hzero | hone | hnone
      · rw [hzero, Nat.mul_zero]
      · rw [hone, Nat.one_mul]
      · obtain ⟨endpoint, hendpoint, hsame⟩ := hsome
        exact absurd hsame (hnone endpoint hendpoint)
    · rfl

end Shown

/-! ## Two addresses, one request -/

/-- The parts of the URL of a peer with a name. -/
def named_url : String → Except String HttpUri
  | "http://api.internal" =>
    .ok ⟨some "http", some "api.internal", some "api.internal", none, "/", none⟩
  | _ => .error "invalid uri character"

def named_peer : UpstreamPeer := ⟨"http://api.internal", "http", "api.internal", 1, false, none⟩

def named_upstream : Upstream := ⟨"backend", [named_peer], .RoundRobin⟩

def named_endpoint (bits : BitVec 32) : ResolvedEndpoint :=
  build_resolved_endpoint
    { host := "api.internal", port := 80, authority := "api.internal",
      logical_peer_url := "http://api.internal", weight := 1, max_conns := none,
      scheme := "http", backup := false } (.V4 bits)

/-- Both endpoints are ensured, and one request goes to the first. -/
def one_request : List ActiveEvent :=
  [.ensure_endpoint (named_endpoint 0x0a000001).toResolvedUpstreamPeer,
    .ensure_endpoint (named_endpoint 0x0a000002).toResolvedUpstreamPeer,
    .track_active_request (named_endpoint 0x0a000001).toResolvedUpstreamPeer]

theorem named_endpoint_mem (bits : BitVec 32) : (named_endpoint bits).toResolvedUpstreamPeer ∈
    resolved_endpoints named_url named_upstream :=
  ⟨named_peer, List.mem_singleton_self _, _, .V4 bits, rfl, rfl⟩

theorem one_request_events : EventsOf (resolved_endpoints named_url named_upstream) one_request := by
  intro event hevent
  simp only [one_request, List.mem_cons, List.not_mem_nil, or_false] at hevent
  rcases hevent with rfl | rfl | rfl <;> exact named_endpoint_mem _

theorem accounted_iff_one_endpoint :
    Accounted named_url named_upstream (.run three_failures named_upstream one_request)
        [named_endpoint 0x0a000001] 0 named_peer ↔
      (∀ guard ∈ (ActiveWorld.run three_failures named_upstream one_request).guards,
        guard.endpoint.logical_peer_url = named_peer.url → guard.known = true) ∧
      ((ActiveWorld.run three_failures named_upstream one_request).live named_peer.url = 0 ∨
        shown (.run three_failures named_upstream one_request) [named_endpoint 0x0a000001]
          named_peer.url = 1 ∨
        ∀ endpoint ∈ [named_endpoint 0x0a000001], endpoint.logical_peer_url ≠ named_peer.url) :=
  accounted_iff named_url three_failures named_upstream (by decide) one_request one_request_events
    named_peer (List.mem_singleton_self _) [named_endpoint 0x0a000001]
    (List.forall_mem_singleton.mpr (named_endpoint_mem _)) 0

/-- The snapshot shows the one request once for each of the two addresses. -/
theorem one_request_shown_twice :
    (ActiveWorld.run three_failures named_upstream one_request).registry.active_requests
      named_peer.url = 1 ∧
    (snapshot_for_upstream named_url
      (ActiveWorld.run three_failures named_upstream one_request).registry named_upstream
      [named_endpoint 0x0a000001, named_endpoint 0x0a000002] 0).peers.map
        PeerHealthSnapshot.active_requests = [2] ∧
    ¬ Accounted named_url named_upstream (.run three_failures named_upstream one_request)
      [named_endpoint 0x0a000001, named_endpoint 0x0a000002] 0 named_peer := by
  refine ⟨by decide +kernel, by decide +kernel, ?_⟩
  intro haccounted
  have hrow := haccounted.snapshot _ (List.mem_singleton_self _) (by decide +kernel)
  revert hrow
  decide +kernel

end rginx.proxy
