-- What the snapshots show (`state/lifecycle/status.rs` and `mtls.rs`, `state/traffic/snapshot.rs`,
-- `state/upstreams/snapshot.rs`, `cache/runtime/zone.rs`): the data behind each component and
-- target, and which of them a change of the data reaches.
import Rginx.InactiveCleanup
import Rginx.ListenerConfigs
import Rginx.PeerHealth
import Rginx.SnapshotCounters
import Rginx.SnapshotVersions

open rginx.cache rginx.config rginx.proxy

namespace rginx.state

/-! ## The data -/

structure SharedIndexMetrics where
  shm_capacity_bytes : Nat := 0
  shm_used_bytes : Nat := 0
  entry_count : Nat := 0
  current_size_bytes : Nat := 0
  operation_ring_capacity : Nat := 0
  operation_ring_used : Nat := 0
  lock_contention_total : Nat := 0
  full_reload_total : Nat := 0
  rebuild_total : Nat := 0
  stale_fill_lock_cleanup_total : Nat := 0
  capacity_rejection_total : Nat := 0
  deriving DecidableEq

/-- The generation that the zone knows, and the metrics that the segment has. -/
structure SharedIndexStatus where
  generation : Nat := 0
  metrics : SharedIndexMetrics := {}
  deriving DecidableEq

/-- `CacheZoneRuntime`, with the values of its configuration that its operations read. -/
structure CacheZoneRuntime where
  max_size_bytes : Option Nat := none
  inactive_ms : Nat := 0
  inactive_cleanup_interval_ms : Nat := 0
  manager_batch_entries : Nat := 1
  last_inactive_cleanup_unix_ms : Nat := 0
  index : CacheIndex := {}
  stats : CacheZoneStats := {}
  shared_index : SharedIndexStatus := {}

/-- The counters of the process, and the maps to those of its parts. -/
structure SnapshotData where
  counters : HttpCounters := {}
  active_connections : UInt64 := 0
  listener_active_connections : String → Option UInt64
  listeners : String → Option ListenerTrafficCounters
  vhosts : String → Option RequestTrafficCounters
  routes : String → Option RouteTrafficCounters
  upstream_stats : String → Option UpstreamStatsEntry
  peer_health : String → Option PeerHealthRegistry
  zones : String → Option CacheZoneRuntime

/-- What the status reads of a listener of the configuration. -/
structure SnapshotListener where
  id : String
  http3 : Bool
  client_auth : Option ServerClientAuthMode

structure SnapshotConfig where
  listeners : List SnapshotListener
  vhosts : List String
  routes : List String
  upstreams : List String
  cache_zones : List String

/-- The targets of a configuration. -/
def SnapshotConfig.names (config : SnapshotConfig) : TargetKind → List String
  | .listeners => config.listeners.map SnapshotListener.id
  | .vhosts => config.vhosts
  | .routes => config.routes
  | .peer_health | .upstreams => config.upstreams
  | .cache => config.cache_zones

/-! ## The status -/

structure Http3ListenerRuntimeSnapshot where
  active_connections : UInt64
  active_request_streams : UInt64
  retry_issued_total : UInt64
  retry_failed_total : UInt64
  request_accept_errors_total : UInt64
  request_resolve_errors_total : UInt64
  request_body_stream_errors_total : UInt64
  response_stream_errors_total : UInt64
  connection_close_version_mismatch_total : UInt64
  connection_close_transport_error_total : UInt64
  connection_close_connection_closed_total : UInt64
  connection_close_application_closed_total : UInt64
  connection_close_reset_total : UInt64
  connection_close_timed_out_total : UInt64
  connection_close_locally_closed_total : UInt64
  connection_close_cids_exhausted_total : UInt64
  deriving DecidableEq

def ListenerTrafficCounters.http3_runtime (counters : ListenerTrafficCounters) :
    Http3ListenerRuntimeSnapshot where
  active_connections := counters.active_http3_connections
  active_request_streams := counters.active_http3_request_streams
  retry_issued_total := counters.http3_retry_issued_total
  retry_failed_total := counters.http3_retry_failed_total
  request_accept_errors_total := counters.http3_request_accept_errors_total
  request_resolve_errors_total := counters.http3_request_resolve_errors_total
  request_body_stream_errors_total := counters.http3_request_body_stream_errors_total
  response_stream_errors_total := counters.http3_response_stream_errors_total
  connection_close_version_mismatch_total := counters.http3_connection_close_version_mismatch_total
  connection_close_transport_error_total := counters.http3_connection_close_transport_error_total
  connection_close_connection_closed_total :=
    counters.http3_connection_close_connection_closed_total
  connection_close_application_closed_total :=
    counters.http3_connection_close_application_closed_total
  connection_close_reset_total := counters.http3_connection_close_reset_total
  connection_close_timed_out_total := counters.http3_connection_close_timed_out_total
  connection_close_locally_closed_total := counters.http3_connection_close_locally_closed_total
  connection_close_cids_exhausted_total := counters.http3_connection_close_cids_exhausted_total

def http3_runtime_snapshot (http3_enabled : Bool) (counters : Option ListenerTrafficCounters) :
    Option Http3ListenerRuntimeSnapshot :=
  if http3_enabled then counters.map ListenerTrafficCounters.http3_runtime else none

structure MtlsStatusSnapshot where
  configured_listeners : Nat := 0
  optional_listeners : Nat := 0
  required_listeners : Nat := 0
  authenticated_connections : UInt64 := 0
  authenticated_requests : UInt64 := 0
  anonymous_requests : UInt64 := 0
  handshake_failures_total : UInt64 := 0
  handshake_failures_missing_client_cert : UInt64 := 0
  handshake_failures_unknown_ca : UInt64 := 0
  handshake_failures_bad_certificate : UInt64 := 0
  handshake_failures_certificate_revoked : UInt64 := 0
  handshake_failures_verify_depth_exceeded : UInt64 := 0
  handshake_failures_other : UInt64 := 0
  deriving DecidableEq

namespace MtlsStatusSnapshot

variable (snapshot : MtlsStatusSnapshot)

def add_mode (mode : ServerClientAuthMode) : MtlsStatusSnapshot :=
  let snapshot := { snapshot with configured_listeners := snapshot.configured_listeners + 1 }
  match mode with
  | .Optional => { snapshot with optional_listeners := snapshot.optional_listeners + 1 }
  | .Required => { snapshot with required_listeners := snapshot.required_listeners + 1 }

def add_counters (counters : ListenerTrafficCounters) : MtlsStatusSnapshot :=
  { snapshot with
    authenticated_connections :=
      snapshot.authenticated_connections + counters.downstream_mtls_authenticated_connections
    authenticated_requests :=
      snapshot.authenticated_requests + counters.downstream_mtls_authenticated_requests
    anonymous_requests := snapshot.anonymous_requests + counters.downstream_mtls_anonymous_requests
    handshake_failures_total :=
      snapshot.handshake_failures_total + counters.downstream_tls_handshake_failures
    handshake_failures_missing_client_cert :=
      snapshot.handshake_failures_missing_client_cert +
        counters.downstream_tls_handshake_failures_missing_client_cert
    handshake_failures_unknown_ca :=
      snapshot.handshake_failures_unknown_ca + counters.downstream_tls_handshake_failures_unknown_ca
    handshake_failures_bad_certificate :=
      snapshot.handshake_failures_bad_certificate +
        counters.downstream_tls_handshake_failures_bad_certificate
    handshake_failures_certificate_revoked :=
      snapshot.handshake_failures_certificate_revoked +
        counters.downstream_tls_handshake_failures_certificate_revoked
    handshake_failures_verify_depth_exceeded :=
      snapshot.handshake_failures_verify_depth_exceeded +
        counters.downstream_tls_handshake_failures_verify_depth_exceeded
    handshake_failures_other :=
      snapshot.handshake_failures_other + counters.downstream_tls_handshake_failures_other }

end MtlsStatusSnapshot

/-- `CacheZoneRuntimeSnapshot`, less what is of the configuration. -/
structure CacheZoneRuntimeSnapshot where
  entry_count : Nat
  current_size_bytes : Nat
  stats : CacheZoneStats
  active_invalidation_rules : Nat
  shared_index : SharedIndexStatus
  deriving DecidableEq

def CacheZoneRuntime.snapshot (zone : CacheZoneRuntime) : CacheZoneRuntimeSnapshot where
  entry_count := zone.index.entries.size
  current_size_bytes := zone.index.current_size_bytes
  stats := zone.stats
  active_invalidation_rules := zone.index.invalidations.length
  shared_index := zone.shared_index

/-- `RuntimeStatusSnapshot`, less what only a reload or a task of the certificates changes. -/
structure RuntimeStatusSnapshot where
  http3_runtimes : List (Option Http3ListenerRuntimeSnapshot)
  http3_active_connections : UInt64
  http3_active_request_streams : UInt64
  http3_retry_issued_total : UInt64
  http3_retry_failed_total : UInt64
  http3_request_accept_errors_total : UInt64
  http3_request_resolve_errors_total : UInt64
  http3_request_body_stream_errors_total : UInt64
  http3_response_stream_errors_total : UInt64
  http3_early_data_accepted_requests : UInt64
  http3_early_data_rejected_requests : UInt64
  mtls : MtlsStatusSnapshot
  cache : List CacheZoneRuntimeSnapshot
  active_connections : UInt64
  deriving DecidableEq

namespace SnapshotConfig

variable (config : SnapshotConfig) (data : SnapshotData)

def mtls_status_snapshot : MtlsStatusSnapshot :=
  config.listeners.foldl (fun snapshot listener =>
    match listener.client_auth with
    | none => snapshot
    | some mode =>
      match data.listeners listener.id with
      | none => snapshot.add_mode mode
      | some counters => (snapshot.add_mode mode).add_counters counters) {}

def status_snapshot : RuntimeStatusSnapshot :=
  let counted := config.listeners.filterMap fun listener =>
    (data.listeners listener.id).map ListenerTrafficCounters.http3_runtime
  { http3_runtimes := config.listeners.map fun listener =>
      http3_runtime_snapshot listener.http3 (data.listeners listener.id)
    http3_active_connections := (counted.map (·.active_connections)).sum
    http3_active_request_streams := (counted.map (·.active_request_streams)).sum
    http3_retry_issued_total := (counted.map (·.retry_issued_total)).sum
    http3_retry_failed_total := (counted.map (·.retry_failed_total)).sum
    http3_request_accept_errors_total := (counted.map (·.request_accept_errors_total)).sum
    http3_request_resolve_errors_total := (counted.map (·.request_resolve_errors_total)).sum
    http3_request_body_stream_errors_total := (counted.map (·.request_body_stream_errors_total)).sum
    http3_response_stream_errors_total := (counted.map (·.response_stream_errors_total)).sum
    http3_early_data_accepted_requests :=
      data.counters.downstream_http3_early_data_accepted_requests
    http3_early_data_rejected_requests :=
      data.counters.downstream_http3_early_data_rejected_requests
    mtls := config.mtls_status_snapshot data
    cache := config.cache_zones.filterMap fun zone_name =>
      (data.zones zone_name).map CacheZoneRuntime.snapshot
    active_connections := data.active_connections }

end SnapshotConfig

/-! ## Cells and their data -/

/-- Nothing that a cell shows has changed. The status shows what it reads; of the other cells all
counters count, also those that only the status shows. -/
def SnapshotCell.Same (config : SnapshotConfig) (before later : SnapshotData) :
    SnapshotCell → Prop
  | .component .Status => config.status_snapshot before = config.status_snapshot later
  | .component .Counters => before.counters = later.counters
  | .component .Traffic =>
    before.listeners = later.listeners ∧
      before.listener_active_connections = later.listener_active_connections ∧
      before.vhosts = later.vhosts ∧ before.routes = later.routes
  | .component .PeerHealth => before.peer_health = later.peer_health
  | .component .Upstreams => before.upstream_stats = later.upstream_stats
  | .component .Cache => ∀ zone_name, (before.zones zone_name).map CacheZoneRuntime.snapshot =
      (later.zones zone_name).map CacheZoneRuntime.snapshot
  | .target .listeners id =>
    before.listeners id = later.listeners id ∧
      before.listener_active_connections id = later.listener_active_connections id
  | .target .vhosts id => before.vhosts id = later.vhosts id
  | .target .routes id => before.routes id = later.routes id
  | .target .peer_health name => before.peer_health name = later.peer_health name
  | .target .upstreams name => before.upstream_stats name = later.upstream_stats name
  | .target .cache name => (before.zones name).map CacheZoneRuntime.snapshot =
      (later.zones name).map CacheZoneRuntime.snapshot

theorem SnapshotCell.Same.refl {config : SnapshotConfig} {data : SnapshotData}
    (cell : SnapshotCell) : cell.Same config data data := by
  cases cell with
  | component module => cases module <;> simp [SnapshotCell.Same]
  | target kind name => cases kind <;> simp [SnapshotCell.Same]

theorem SnapshotCell.Same.trans {config : SnapshotConfig} {first second third : SnapshotData}
    {cell : SnapshotCell} (h : cell.Same config first second)
    (h' : cell.Same config second third) : cell.Same config first third := by
  cases cell with
  | component module =>
    cases module with
    | Traffic => exact ⟨h.1.trans h'.1, h.2.1.trans h'.2.1, h.2.2.1.trans h'.2.2.1,
        h.2.2.2.trans h'.2.2.2⟩
    | Cache => exact fun zone_name => (h zone_name).trans (h' zone_name)
    | _ => exact Eq.trans h h'
  | target kind name =>
    cases kind with
    | listeners => exact ⟨h.1.trans h'.1, h.2.trans h'.2⟩
    | _ => exact Eq.trans h h'

/-- A change reaches no cell but these. -/
def Touches (config : SnapshotConfig) (cells : List SnapshotCell) (before later : SnapshotData) :
    Prop :=
  ∀ cell, cell ∉ cells → cell.Same config before later

section Touches

variable {config : SnapshotConfig} {cells : List SnapshotCell} {data : SnapshotData}

theorem Touches.refl : Touches config cells data data := fun cell _ => SnapshotCell.Same.refl cell

theorem Touches.trans {second third : SnapshotData} (h : Touches config cells data second)
    (h' : Touches config cells second third) : Touches config cells data third :=
  fun cell hcell => (h cell hcell).trans (h' cell hcell)

end Touches

/-! ## Changes of one part -/

/-- A change of the entry under a name, if there is one. -/
def modify {α : Type} (entries : String → Option α) (name : String) (change : α → α) :
    String → Option α :=
  Function.update entries name ((entries name).map change)

theorem modify_apply {α : Type} (entries : String → Option α) (name other : String)
    (change : α → α) :
    modify entries name change other =
      if other = name then (entries name).map change else entries other := by
  unfold modify
  by_cases h : other = name
  · rw [h, Function.update_self, if_pos rfl]
  · rw [Function.update_of_ne h, if_neg h]

theorem modify_of_ne {α : Type} (entries : String → Option α) {name other : String}
    (h : other ≠ name) (change : α → α) : modify entries name change other = entries other :=
  Function.update_of_ne h _ _

/-- What a change keeps of every entry, it keeps under every name. -/
theorem map_modify {α β : Type} (show_entry : α → β) {change : α → α}
    (h : ∀ entry, show_entry (change entry) = show_entry entry) (entries : String → Option α)
    (name other : String) :
    (modify entries name change other).map show_entry = (entries other).map show_entry := by
  rw [modify_apply]
  split
  · rename_i hname
    subst hname
    rw [Option.map_map]
    exact congrArg (Option.map · (entries other)) (funext h)
  · rfl

namespace SnapshotData

variable (data : SnapshotData)

def count (change : HttpCounters → HttpCounters) : SnapshotData :=
  { data with counters := change data.counters }

def with_listener (listener_id : String)
    (change : ListenerTrafficCounters → ListenerTrafficCounters) : SnapshotData :=
  { data with listeners := modify data.listeners listener_id change }

def with_vhost (vhost_id : String) (change : RequestTrafficCounters → RequestTrafficCounters) :
    SnapshotData :=
  { data with vhosts := modify data.vhosts vhost_id change }

def with_route (route_id : Option String) (change : RouteTrafficCounters → RouteTrafficCounters) :
    SnapshotData :=
  match route_id with
  | none => data
  | some route_id => { data with routes := modify data.routes route_id change }

/-- Both counts of the connections that are active. -/
def with_connections (listener_id : String) (change : UInt64 → UInt64) : SnapshotData :=
  { data with
    active_connections := change data.active_connections
    listener_active_connections := modify data.listener_active_connections listener_id change }

def with_upstream (upstream_name : String) (change : UpstreamStatsEntry → UpstreamStatsEntry) :
    SnapshotData :=
  { data with upstream_stats := modify data.upstream_stats upstream_name change }

def with_registry (upstream_name : String) (change : PeerHealthRegistry → PeerHealthRegistry) :
    SnapshotData :=
  { data with peer_health := modify data.peer_health upstream_name change }

def with_zone (zone_name : String) (change : CacheZoneRuntime → CacheZoneRuntime) : SnapshotData :=
  { data with zones := modify data.zones zone_name change }

end SnapshotData

/-- A change of a listener's counters that the status does not show. -/
structure KeepsStatus (change : ListenerTrafficCounters → ListenerTrafficCounters) : Prop where
  http3_runtime : ∀ counters, (change counters).http3_runtime = counters.http3_runtime
  mtls : ∀ counters (snapshot : MtlsStatusSnapshot),
    snapshot.add_counters (change counters) = snapshot.add_counters counters

section Parts

variable {config : SnapshotConfig} {cells : List SnapshotCell} (data : SnapshotData)

theorem touches_count {change : HttpCounters → HttpCounters}
    (hcounters : .component .Counters ∈ cells)
    (hstatus : .component .Status ∈ cells ∨ ∀ counters,
      (change counters).downstream_http3_early_data_accepted_requests =
          counters.downstream_http3_early_data_accepted_requests ∧
        (change counters).downstream_http3_early_data_rejected_requests =
          counters.downstream_http3_early_data_rejected_requests) :
    Touches config cells data (data.count change) := by
  intro cell hcell
  cases cell with
  | component module =>
    cases module with
    | Status =>
      obtain ⟨haccepted, hrejected⟩ := hstatus.resolve_left hcell data.counters
      unfold SnapshotCell.Same SnapshotConfig.status_snapshot SnapshotData.count
      simp only [haccepted, hrejected]
      rfl
    | Counters => exact absurd hcounters hcell
    | Traffic => exact ⟨rfl, rfl, rfl, rfl⟩
    | Cache => exact fun _ => rfl
    | _ => rfl
  | target kind name =>
    cases kind with
    | listeners => exact ⟨rfl, rfl⟩
    | _ => rfl

/-- The status is the same where it shows the same of each listener. -/
theorem status_with_listener {change : ListenerTrafficCounters → ListenerTrafficCounters}
    (h : KeepsStatus change) (listener_id : String) :
    config.status_snapshot data = config.status_snapshot (data.with_listener listener_id change) := by
  have hruntime : ∀ id, ((data.with_listener listener_id change).listeners id).map
      ListenerTrafficCounters.http3_runtime =
        (data.listeners id).map ListenerTrafficCounters.http3_runtime :=
    map_modify _ h.http3_runtime data.listeners listener_id
  have hmtls : config.mtls_status_snapshot (data.with_listener listener_id change) =
      config.mtls_status_snapshot data := by
    unfold SnapshotConfig.mtls_status_snapshot
    congr 1
    funext snapshot listener
    cases listener.client_auth with
    | none => rfl
    | some mode =>
      have hadd := map_modify (snapshot.add_mode mode).add_counters
        (fun counters => h.mtls counters _) data.listeners listener_id listener.id
      change (((data.with_listener listener_id change).listeners listener.id).map _ = _) at hadd
      cases hold : data.listeners listener.id <;>
        cases hnew : (data.with_listener listener_id change).listeners listener.id <;>
        simp_all
  unfold SnapshotConfig.status_snapshot http3_runtime_snapshot
  simp only [hruntime, hmtls]
  rfl

theorem touches_listener {listener_id : String}
    {change : ListenerTrafficCounters → ListenerTrafficCounters}
    (htraffic : .component .Traffic ∈ cells) (hlistener : .target .listeners listener_id ∈ cells)
    (hstatus : .component .Status ∈ cells ∨ KeepsStatus change) :
    Touches config cells data (data.with_listener listener_id change) := by
  intro cell hcell
  cases cell with
  | component module =>
    cases module with
    | Status => exact status_with_listener data (hstatus.resolve_left hcell) listener_id
    | Traffic => exact absurd htraffic hcell
    | Cache => exact fun _ => rfl
    | _ => rfl
  | target kind name =>
    cases kind with
    | listeners =>
      refine ⟨(modify_of_ne data.listeners ?_ change).symm, rfl⟩
      rintro rfl
      exact hcell hlistener
    | _ => rfl

theorem touches_vhost {vhost_id : String} {change : RequestTrafficCounters → RequestTrafficCounters}
    (htraffic : .component .Traffic ∈ cells) (hvhost : .target .vhosts vhost_id ∈ cells) :
    Touches config cells data (data.with_vhost vhost_id change) := by
  intro cell hcell
  cases cell with
  | component module =>
    cases module with
    | Traffic => exact absurd htraffic hcell
    | Cache => exact fun _ => rfl
    | _ => rfl
  | target kind name =>
    cases kind with
    | listeners => exact ⟨rfl, rfl⟩
    | vhosts =>
      refine (modify_of_ne data.vhosts ?_ change).symm
      rintro rfl
      exact hcell hvhost
    | _ => rfl

theorem touches_route {route_id : Option String} {change : RouteTrafficCounters → RouteTrafficCounters}
    (htraffic : .component .Traffic ∈ cells)
    (hroute : ∀ id, route_id = some id → .target .routes id ∈ cells) :
    Touches config cells data (data.with_route route_id change) := by
  cases route_id with
  | none => exact Touches.refl
  | some id =>
    intro cell hcell
    cases cell with
    | component module =>
      cases module with
      | Traffic => exact absurd htraffic hcell
      | Cache => exact fun _ => rfl
      | _ => rfl
    | target kind name =>
      cases kind with
      | listeners => exact ⟨rfl, rfl⟩
      | routes =>
        refine (modify_of_ne data.routes ?_ change).symm
        rintro rfl
        exact hcell (hroute _ rfl)
      | _ => rfl

theorem touches_connections {listener_id : String} {change : UInt64 → UInt64}
    (hstatus : .component .Status ∈ cells) (htraffic : .component .Traffic ∈ cells)
    (hlistener : .target .listeners listener_id ∈ cells) :
    Touches config cells data (data.with_connections listener_id change) := by
  intro cell hcell
  cases cell with
  | component module =>
    cases module with
    | Status => exact absurd hstatus hcell
    | Traffic => exact absurd htraffic hcell
    | Cache => exact fun _ => rfl
    | _ => rfl
  | target kind name =>
    cases kind with
    | listeners =>
      refine ⟨rfl, (modify_of_ne data.listener_active_connections ?_ change).symm⟩
      rintro rfl
      exact hcell hlistener
    | _ => rfl

theorem touches_upstream {upstream_name : String} {change : UpstreamStatsEntry → UpstreamStatsEntry}
    (hupstreams : .component .Upstreams ∈ cells)
    (hupstream : .target .upstreams upstream_name ∈ cells) :
    Touches config cells data (data.with_upstream upstream_name change) := by
  intro cell hcell
  cases cell with
  | component module =>
    cases module with
    | Upstreams => exact absurd hupstreams hcell
    | Traffic => exact ⟨rfl, rfl, rfl, rfl⟩
    | Cache => exact fun _ => rfl
    | _ => rfl
  | target kind name =>
    cases kind with
    | listeners => exact ⟨rfl, rfl⟩
    | upstreams =>
      refine (modify_of_ne data.upstream_stats ?_ change).symm
      rintro rfl
      exact hcell hupstream
    | _ => rfl

theorem touches_registry {upstream_name : String} {change : PeerHealthRegistry → PeerHealthRegistry}
    (hhealth : .component .PeerHealth ∈ cells)
    (hupstream : .target .peer_health upstream_name ∈ cells) :
    Touches config cells data (data.with_registry upstream_name change) := by
  intro cell hcell
  cases cell with
  | component module =>
    cases module with
    | PeerHealth => exact absurd hhealth hcell
    | Traffic => exact ⟨rfl, rfl, rfl, rfl⟩
    | Cache => exact fun _ => rfl
    | _ => rfl
  | target kind name =>
    cases kind with
    | listeners => exact ⟨rfl, rfl⟩
    | peer_health =>
      refine (modify_of_ne data.peer_health ?_ change).symm
      rintro rfl
      exact hcell hupstream
    | _ => rfl

theorem touches_zone {zone_name : String} {change : CacheZoneRuntime → CacheZoneRuntime}
    (hstatus : .component .Status ∈ cells) (hcache : .component .Cache ∈ cells)
    (hzone : .target .cache zone_name ∈ cells) :
    Touches config cells data (data.with_zone zone_name change) := by
  intro cell hcell
  cases cell with
  | component module =>
    cases module with
    | Status => exact absurd hstatus hcell
    | Cache => exact absurd hcache hcell
    | Traffic => exact ⟨rfl, rfl, rfl, rfl⟩
    | _ => rfl
  | target kind name =>
    cases kind with
    | listeners => exact ⟨rfl, rfl⟩
    | cache =>
      refine congrArg (Option.map CacheZoneRuntime.snapshot) (modify_of_ne data.zones ?_ change).symm
      rintro rfl
      exact hcell hzone
    | _ => rfl

end Parts

/-- A change of a zone that its snapshot does not show. -/
theorem same_with_zone {config : SnapshotConfig} (data : SnapshotData) {zone_name : String}
    {change : CacheZoneRuntime → CacheZoneRuntime}
    (h : ∀ zone, data.zones zone_name = some zone → (change zone).snapshot = zone.snapshot)
    (cells : List SnapshotCell) : Touches config cells data (data.with_zone zone_name change) := by
  have hzones : ∀ name, ((data.with_zone zone_name change).zones name).map CacheZoneRuntime.snapshot =
      (data.zones name).map CacheZoneRuntime.snapshot := by
    intro name
    change (modify data.zones zone_name change name).map _ = _
    rw [modify_apply]
    split
    · rename_i hname
      subst hname
      cases hzone : data.zones name with
      | none => rfl
      | some zone => exact congrArg some (h zone hzone)
    · rfl
  intro cell _
  cases cell with
  | component module =>
    cases module with
    | Status =>
      unfold SnapshotCell.Same SnapshotConfig.status_snapshot
      simp only [hzones]
      rfl
    | Traffic => exact ⟨rfl, rfl, rfl, rfl⟩
    | Cache => exact fun name => (hzones name).symm
    | _ => rfl
  | target kind name =>
    cases kind with
    | listeners => exact ⟨rfl, rfl⟩
    | cache => exact (hzones name).symm
    | _ => rfl

end rginx.state
