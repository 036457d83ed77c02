-- The operations that change what the snapshots show, from `state/traffic/record.rs`,
-- `state/connections`, `state/upstreams/record.rs`, `health/registry/state.rs` and `guards.rs`, and
-- `cache/store/maintenance`: the data that each of them changes, and what it marks as changed.
import Rginx.CacheLookup
import Rginx.SnapshotData

open rginx.cache rginx.counters rginx.proxy

namespace rginx.state

/-- The operations. Those that read a clock of their own have its time as an argument; the seconds
of the recent counters are an argument of the update. -/
inductive RecordingOperation
  -- `state/traffic/record.rs`
  | record_downstream_request (listener_id vhost_id : String) (route_id : Option String)
  | record_mtls_request (listener_id : String) (authenticated : Bool)
  | record_downstream_response (listener_id vhost_id : String) (route_id : Option String)
      (status : Nat)
  | record_route_access_denied (route_id : String)
  | record_route_rate_limited (route_id : String)
  | record_grpc_request (listener_id vhost_id : String) (route_id : Option String)
      (protocol : String)
  | record_grpc_status (listener_id vhost_id : String) (route_id : Option String)
      (status : Option String)
  -- `state/connections/operations/record.rs`
  | record_connection_accepted (listener_id : String)
  | record_mtls_handshake_success (listener_id : String) (authenticated : Bool)
  | record_tls_handshake_failure (listener_id : String) (reason : TlsHandshakeFailureReason)
  | record_connection_rejected (listener_id : String)
  | record_http3_early_data_accepted_request (listener_id : String)
  | record_http3_early_data_rejected_request (listener_id : String)
  | record_http3_retry_issued (listener_id : String)
  | record_http3_retry_failed (listener_id : String)
  | record_http3_request_accept_error (listener_id : String)
  | record_http3_request_resolve_error (listener_id : String)
  | record_http3_request_body_stream_error (listener_id : String)
  | record_http3_response_stream_error (listener_id : String)
  | record_http3_connection_close (listener_id : String) (reason : ConnectionError)
  -- `state/connections/operations/acquire.rs` and `guards.rs`
  | try_acquire_connection (listener_id : String) (limit : Option Nat)
  | retain_connection_slot (listener_id : String)
  | retain_http3_connection (listener_id : String)
  | retain_http3_request_stream (listener_id : String)
  | drop_active_connection_guard (listener_id : String)
  | drop_active_http3_connection_guard (listener_id : String)
  | drop_active_http3_request_stream_guard (listener_id : String)
  -- `state/upstreams/record.rs`
  | record_upstream_request (upstream_name : String)
  | record_upstream_peer_attempt (upstream_name peer_url : String)
  | record_upstream_peer_success (upstream_name peer_url : String)
  | record_upstream_peer_failure (upstream_name peer_url : String)
  | record_upstream_peer_timeout (upstream_name peer_url : String)
  | record_upstream_failover (upstream_name : String)
  | record_upstream_completed_response (upstream_name : String)
  | record_upstream_bad_gateway_response (upstream_name : String)
  | record_upstream_gateway_timeout_response (upstream_name : String)
  | record_upstream_bad_request_response (upstream_name : String)
  | record_upstream_payload_too_large_response (upstream_name : String)
  | record_upstream_unsupported_media_type_response (upstream_name : String)
  | record_upstream_no_healthy_peers (upstream_name : String)
  | record_upstream_peer_failure_class (upstream_name failure_class : String)
  -- `health/registry/state.rs` and `guards.rs`
  | record_success (upstream_name peer_url : String)
  | record_failure (upstream_name peer_url : String) (now : Nat)
  | record_active_success (upstream_name peer_url : String) (healthy_successes_required : Nat)
  | record_active_failure (upstream_name peer_url : String)
  | track_active_request (upstream_name peer_url : String)
  | drop_active_peer_guard (upstream_name : String) (peer : Option HealthCell)
  | ensure_endpoint (upstream_name endpoint_key logical_peer_url : String)
  -- `cache/store/maintenance`: `shared_index` is what a publication to the segment leaves.
  | update_index_after_store (zone_name : String) (hot_entries : HotEntries) (key : String)
      (entry : CacheIndexEntry) (replaced_entry : Option (String × CacheIndexEntry))
      (shared_index : SharedIndexStatus)
  | remove_zone_index_entry_if_matches (zone_name key : String) (expected_entry : CacheIndexEntry)
      (shared_index : SharedIndexStatus)
  | cleanup_inactive_entries_in_zone (zone_name : String) (hot_entries : HotEntries) (now : Nat)
      (shared_index : SharedIndexStatus)
  | purge_zone_entries (zone_name : String) (order : HashOrder) (selector : PurgeSelector)
      (shared_index : SharedIndexStatus)
  | invalidate_zone_entries (zone_name : String) (rule : CacheInvalidationRule)
      (shared_index : SharedIndexStatus)
  | clear_zone_invalidations (zone_name : String) (shared_index : SharedIndexStatus)
  -- The counters of `cache/runtime/zone.rs`.
  | record_hit (zone_name : String)
  | record_miss (zone_name : String)
  | record_bypass (zone_name : String)
  | record_expired (zone_name : String)
  | record_stale (zone_name : String)
  | record_updating (zone_name : String)
  | record_revalidated (zone_name : String)
  | record_write_success (zone_name : String)
  | record_write_error (zone_name : String)
  -- What else changes an index or its segment: the admission of a key, its access, the
  -- synchronisation with the segment, and whatever another process or a fill lock writes there.
  | record_cache_admission_attempt (zone_name key : String) (min_uses : Nat)
      (shared_index : SharedIndexStatus)
  | record_zone_shared_entry_access (zone_name key : String) (last_access_unix_ms : Nat)
      (shared_index : SharedIndexStatus)
  | sync_zone_shared_index_if_needed (zone_name : String) (index : CacheIndex)
      (shared_index : SharedIndexStatus)

/-! ## The zones -/

namespace CacheZoneRuntime

variable (zone : CacheZoneRuntime)

/-- `apply_zone_shared_index_operations_locked`: without operations nothing is published. -/
def publish (operations : List SharedIndexOperation) (shared_index : SharedIndexStatus) :
    CacheZoneRuntime :=
  if operations.isEmpty then zone else { zone with shared_index }

def after_store (hot_entries : HotEntries) (key : String) (entry : CacheIndexEntry)
    (replaced_entry : Option (String × CacheIndexEntry)) (shared_index : SharedIndexStatus) :
    CacheZoneRuntime :=
  let update :=
    update_index_after_store hot_entries zone.max_size_bytes zone.index key entry replaced_entry
  { { zone with index := update.index }.publish update.shared_operations shared_index with
    stats := zone.stats.record_evictions update.eviction_count }

def after_removal (key : String) (expected_entry : CacheIndexEntry)
    (shared_index : SharedIndexStatus) : CacheZoneRuntime × Option RemovedIndexEntry :=
  let (index, operations, removed) :=
    remove_zone_index_entry_if_matches zone.index key expected_entry
  ({ zone with index }.publish operations shared_index, removed)

/-- What the cleanup reads of the zone. -/
def cleanup_zone (hot_entries : HotEntries) : CleanupZone where
  inactive_ms := zone.inactive_ms
  inactive_cleanup_interval_ms := zone.inactive_cleanup_interval_ms
  manager_batch_entries := zone.manager_batch_entries
  last_inactive_cleanup_unix_ms := zone.last_inactive_cleanup_unix_ms
  index := zone.index
  hot_entries
  shared_operations := []

/-- With the number of entries that were removed. -/
def after_cleanup (hot_entries : HotEntries) (now : Nat) (shared_index : SharedIndexStatus) :
    CacheZoneRuntime × Nat :=
  let (cleaned, batches) := cleanup_inactive_entries_in_zone now (zone.cleanup_zone hot_entries)
  let total_removed := batches.flatten.length
  let index := cleaned.index
  let last_inactive_cleanup_unix_ms := cleaned.last_inactive_cleanup_unix_ms
  ({ { zone with index, last_inactive_cleanup_unix_ms }.publish cleaned.shared_operations
      shared_index with
    stats := zone.stats.record_inactive_cleanup total_removed },
    total_removed)

/-- With the number of entries that were removed. -/
def after_purge (order : HashOrder) (selector : PurgeSelector) (shared_index : SharedIndexStatus) :
    CacheZoneRuntime × Nat :=
  let (index, operations, removed) := purge_zone_entries order zone.index selector
  ({ { zone with index }.publish operations shared_index with
    stats := zone.stats.record_purge removed.length },
    removed.length)

def after_invalidation (rule : CacheInvalidationRule) (shared_index : SharedIndexStatus) :
    CacheZoneRuntime :=
  let affected_entries := (zone.index.entries.toList.filter fun (key, entry) =>
    invalidation_rule_matches_entry rule key entry).length
  let (index, operations) := add_invalidation zone.index rule
  { { zone with index }.publish operations shared_index with
    stats := zone.stats.record_invalidation affected_entries }

def after_clear (shared_index : SharedIndexStatus) : CacheZoneRuntime :=
  let (index, operations) := clear_zone_invalidations zone.index
  { zone with index }.publish operations shared_index

def after_admission_attempt (key : String) (min_uses : Nat) (shared_index : SharedIndexStatus) :
    CacheZoneRuntime :=
  let (index, operations, _) := record_cache_admission_attempt zone.index key min_uses
  { zone with index }.publish operations shared_index

def after_access (key : String) (last_access_unix_ms : Nat) (shared_index : SharedIndexStatus) :
    CacheZoneRuntime :=
  let (index, operations) := record_zone_shared_entry_access zone.index key last_access_unix_ms
  { zone with index }.publish operations shared_index

def count (change : CacheZoneStats → CacheZoneStats) : CacheZoneRuntime :=
  { zone with stats := change zone.stats }

end CacheZoneRuntime

/-! ## The data that an operation changes -/

namespace SnapshotData

variable (data : SnapshotData)

def upstream_stats_counters (upstream_name : String) : Option UpstreamStats :=
  (data.upstream_stats upstream_name).map UpstreamStatsEntry.counters

def upstream_stats_peer_counters (upstream_name peer_url : String) :
    Option (UpstreamStats × UpstreamPeerStats) := do
  let entry ← data.upstream_stats upstream_name
  let peer ← entry.peers peer_url
  return (entry.counters, peer)

/-- The counters of an upstream, if it is known. -/
def count_upstream (upstream_name : String) (change : UpstreamStats → UpstreamStats) :
    SnapshotData :=
  data.with_upstream upstream_name fun entry => { entry with counters := change entry.counters }

/-- The counters of an upstream and of a peer of it, if both are known. -/
def count_peer (upstream_name peer_url : String) (change : UpstreamStats → UpstreamStats)
    (change_peer : UpstreamPeerStats → UpstreamPeerStats) : SnapshotData :=
  data.with_upstream upstream_name fun entry =>
    match entry.peers peer_url with
    | none => entry
    | some _ =>
      { counters := change entry.counters, peers := modify entry.peers peer_url change_peer }

def count_zone (zone_name : String) (change : CacheZoneStats → CacheZoneStats) : SnapshotData :=
  data.with_zone zone_name (CacheZoneRuntime.count · change)

/-- The health that a key of an upstream stands for. -/
def get_health (upstream_name peer_url : String) : Option PeerHealth := do
  let registry ← data.peer_health upstream_name
  let cell ← registry.get_health peer_url
  return registry.health cell

/-- The health that a guard holds. -/
def guarded_health (upstream_name : String) (peer : Option HealthCell) : Option PeerHealth := do
  let registry ← data.peer_health upstream_name
  let cell ← peer
  return registry.health cell

end SnapshotData

/-- The classes of failures that have a counter. -/
def UpstreamStats.record_failure_class (counters : UpstreamStats) (failure_class : String) :
    Option UpstreamStats :=
  match failure_class with
  | "unknown_ca" =>
    some { counters with tls_failures_unknown_ca_total := counters.tls_failures_unknown_ca_total + 1 }
  | "bad_certificate" =>
    some
      { counters with
        tls_failures_bad_certificate_total := counters.tls_failures_bad_certificate_total + 1 }
  | "certificate_revoked" =>
    some
      { counters with
        tls_failures_certificate_revoked_total := counters.tls_failures_certificate_revoked_total + 1 }
  | "verify_depth_exceeded" =>
    some
      { counters with
        tls_failures_verify_depth_exceeded_total :=
          counters.tls_failures_verify_depth_exceeded_total + 1 }
  | _ => none

/-- The cells that are marked, if it comes to that. -/
def marked_cells (marked : Option Recording) : List SnapshotCell :=
  (marked.map Recording.cells).getD []

namespace SnapshotData

section Updates

variable (data : SnapshotData) (second : Nat)

/-! ### Traffic -/

def record_downstream_request (listener_id vhost_id : String) (route_id : Option String) :
    SnapshotData :=
  data.count (fun counters =>
      { counters with downstream_requests := counters.downstream_requests + 1 })
    |>.with_listener listener_id (fun counters =>
      let counters :=
        { counters with
          downstream_requests := counters.downstream_requests + 1
          recent_60s := counters.recent_60s.record_downstream_request second }
      if route_id.isNone then
        { counters with unmatched_requests_total := counters.unmatched_requests_total + 1 }
      else counters)
    |>.with_vhost vhost_id (fun counters =>
      let counters :=
        { counters with
          downstream_requests := counters.downstream_requests + 1
          recent_60s := counters.recent_60s.record_downstream_request second }
      if route_id.isNone then
        { counters with unmatched_requests_total := counters.unmatched_requests_total + 1 }
      else counters)
    |>.with_route route_id (fun counters =>
      { counters with
        downstream_requests := counters.downstream_requests + 1
        recent_60s := counters.recent_60s.record_downstream_request second })

def record_mtls_request (listener_id : String) (authenticated : Bool) : SnapshotData :=
  data.count (HttpCounters.record_mtls_request · authenticated)
    |>.with_listener listener_id (ListenerTrafficCounters.record_mtls_request · authenticated)

def record_downstream_response (listener_id vhost_id : String) (route_id : Option String)
    (status : Nat) : SnapshotData :=
  data.count (HttpCounters.record_response · status)
    |>.with_listener listener_id (fun counters =>
      { counters with
        responses := counters.responses.record status
        recent_60s := counters.recent_60s.record_downstream_response second status })
    |>.with_vhost vhost_id (fun counters =>
      { counters with
        responses := counters.responses.record status
        recent_60s := counters.recent_60s.record_downstream_response second status })
    |>.with_route route_id (fun counters =>
      { counters with
        responses := counters.responses.record status
        recent_60s := counters.recent_60s.record_downstream_response second status })

def record_route_access_denied (route_id : String) : SnapshotData :=
  data.with_route (some route_id) fun counters =>
    { counters with access_denied_total := counters.access_denied_total + 1 }

def record_route_rate_limited (route_id : String) : SnapshotData :=
  data.with_route (some route_id) fun counters =>
    { counters with rate_limited_total := counters.rate_limited_total + 1 }

def record_grpc_request (listener_id vhost_id : String) (route_id : Option String)
    (protocol : String) : SnapshotData :=
  data.with_listener listener_id (fun counters =>
      { counters with
        grpc := counters.grpc.record_request protocol
        recent_60s := counters.recent_60s.record_grpc_request second })
    |>.with_vhost vhost_id (fun counters =>
      { counters with
        grpc := counters.grpc.record_request protocol
        recent_60s := counters.recent_60s.record_grpc_request second })
    |>.with_route route_id (fun counters =>
      { counters with
        grpc := counters.grpc.record_request protocol
        recent_60s := counters.recent_60s.record_grpc_request second })

def record_grpc_status (listener_id vhost_id : String) (route_id : Option String)
    (status : Option String) : SnapshotData :=
  data.with_listener listener_id (fun counters =>
      { counters with grpc := counters.grpc.record_status status })
    |>.with_vhost vhost_id (fun counters =>
      { counters with grpc := counters.grpc.record_status status })
    |>.with_route route_id (fun counters =>
      { counters with grpc := counters.grpc.record_status status })

/-! ### Connections -/

def record_connection_accepted (listener_id : String) : SnapshotData :=
  data.count (fun counters =>
      { counters with
        downstream_connections_accepted := counters.downstream_connections_accepted + 1 })
    |>.with_listener listener_id (fun counters =>
      { counters with
        downstream_connections_accepted := counters.downstream_connections_accepted + 1 })

def record_mtls_handshake_success (listener_id : String) (authenticated : Bool) : SnapshotData :=
  if !authenticated then data
  else
    data.count (fun counters =>
        { counters with
          downstream_mtls_authenticated_connections :=
            counters.downstream_mtls_authenticated_connections + 1 })
      |>.with_listener listener_id (fun counters =>
        { counters with
          downstream_mtls_authenticated_connections :=
            counters.downstream_mtls_authenticated_connections + 1 })

def record_tls_handshake_failure (listener_id : String) (reason : TlsHandshakeFailureReason) :
    SnapshotData :=
  data.count (HttpCounters.record_handshake_failure · reason)
    |>.with_listener listener_id (ListenerTrafficCounters.record_handshake_failure · reason)

def record_connection_rejected (listener_id : String) : SnapshotData :=
  data.count (fun counters =>
      { counters with
        downstream_connections_rejected := counters.downstream_connections_rejected + 1 })
    |>.with_listener listener_id (fun counters =>
      { counters with
        downstream_connections_rejected := counters.downstream_connections_rejected + 1 })

def record_http3_early_data_accepted_request (listener_id : String) : SnapshotData :=
  data.count (fun counters =>
      { counters with
        downstream_http3_early_data_accepted_requests :=
          counters.downstream_http3_early_data_accepted_requests + 1 })
    |>.with_listener listener_id (fun counters =>
      { counters with
        downstream_http3_early_data_accepted_requests :=
          counters.downstream_http3_early_data_accepted_requests + 1 })

def record_http3_early_data_rejected_request (listener_id : String) : SnapshotData :=
  data.count (fun counters =>
      { counters with
        downstream_http3_early_data_rejected_requests :=
          counters.downstream_http3_early_data_rejected_requests + 1 })
    |>.with_listener listener_id (fun counters =>
      { counters with
        downstream_http3_early_data_rejected_requests :=
          counters.downstream_http3_early_data_rejected_requests + 1 })

def record_http3_retry_issued (listener_id : String) : SnapshotData :=
  data.with_listener listener_id fun counters =>
    { counters with http3_retry_issued_total := counters.http3_retry_issued_total + 1 }

def record_http3_retry_failed (listener_id : String) : SnapshotData :=
  data.with_listener listener_id fun counters =>
    { counters with http3_retry_failed_total := counters.http3_retry_failed_total + 1 }

def record_http3_request_accept_error (listener_id : String) : SnapshotData :=
  data.with_listener listener_id fun counters =>
    { counters with
      http3_request_accept_errors_total := counters.http3_request_accept_errors_total + 1 }

def record_http3_request_resolve_error (listener_id : String) : SnapshotData :=
  data.with_listener listener_id fun counters =>
    { counters with
      http3_request_resolve_errors_total := counters.http3_request_resolve_errors_total + 1 }

def record_http3_request_body_stream_error (listener_id : String) : SnapshotData :=
  data.with_listener listener_id fun counters =>
    { counters with
      http3_request_body_stream_errors_total :=
        counters.http3_request_body_stream_errors_total + 1 }

def record_http3_response_stream_error (listener_id : String) : SnapshotData :=
  data.with_listener listener_id fun counters =>
    { counters with
      http3_response_stream_errors_total := counters.http3_response_stream_errors_total + 1 }

def record_http3_connection_close (listener_id : String) (reason : ConnectionError) :
    SnapshotData :=
  data.with_listener listener_id (ListenerTrafficCounters.record_connection_close · reason)

/-- A listener that is not registered has no slots; a full one has none left. -/
def try_acquire_connection (listener_id : String) (limit : Option Nat) : SnapshotData :=
  match data.listener_active_connections listener_id with
  | none => data
  | some current =>
    if limit.any fun limit => limit ≤ current.toNat then data
    else data.with_connections listener_id (· + 1)

def retain_connection_slot (listener_id : String) : SnapshotData :=
  -- `expect`: without the listener there is a panic before anything is counted.
  if (data.listener_active_connections listener_id).isNone then data
  else data.with_connections listener_id (· + 1)

def retain_http3_connection (listener_id : String) : SnapshotData :=
  data.with_listener listener_id fun counters =>
    { counters with active_http3_connections := counters.active_http3_connections + 1 }

def retain_http3_request_stream (listener_id : String) : SnapshotData :=
  data.with_listener listener_id fun counters =>
    { counters with active_http3_request_streams := counters.active_http3_request_streams + 1 }

def drop_active_connection_guard (listener_id : String) : SnapshotData :=
  data.with_connections listener_id (· - 1)

def drop_active_http3_connection_guard (listener_id : String) : SnapshotData :=
  data.with_listener listener_id fun counters =>
    { counters with active_http3_connections := counters.active_http3_connections - 1 }

def drop_active_http3_request_stream_guard (listener_id : String) : SnapshotData :=
  data.with_listener listener_id fun counters =>
    { counters with active_http3_request_streams := counters.active_http3_request_streams - 1 }

/-! ### Upstreams -/

def record_upstream_request (upstream_name : String) : SnapshotData :=
  data.count_upstream upstream_name fun counters =>
    { counters with
      downstream_requests_total := counters.downstream_requests_total + 1
      recent_60s.downstream_requests_total :=
        counters.recent_60s.downstream_requests_total.increment_at second }

def record_upstream_peer_attempt (upstream_name peer_url : String) : SnapshotData :=
  data.count_peer upstream_name peer_url
    (fun counters =>
      { counters with
        peer_attempts_total := counters.peer_attempts_total + 1
        recent_60s.peer_attempts_total :=
          counters.recent_60s.peer_attempts_total.increment_at second })
    fun peer => { peer with attempts_total := peer.attempts_total + 1 }

def record_upstream_peer_success (upstream_name peer_url : String) : SnapshotData :=
  data.count_peer upstream_name peer_url
    (fun counters => { counters with peer_successes_total := counters.peer_successes_total + 1 })
    fun peer => { peer with successes_total := peer.successes_total + 1 }

def record_upstream_peer_failure (upstream_name peer_url : String) : SnapshotData :=
  data.count_peer upstream_name peer_url
    (fun counters => { counters with peer_failures_total := counters.peer_failures_total + 1 })
    fun peer => { peer with failures_total := peer.failures_total + 1 }

def record_upstream_peer_timeout (upstream_name peer_url : String) : SnapshotData :=
  data.count_peer upstream_name peer_url
    (fun counters => { counters with peer_timeouts_total := counters.peer_timeouts_total + 1 })
    fun peer => { peer with timeouts_total := peer.timeouts_total + 1 }

def record_upstream_failover (upstream_name : String) : SnapshotData :=
  data.count_upstream upstream_name fun counters =>
    { counters with
      failovers_total := counters.failovers_total + 1
      recent_60s.failovers_total := counters.recent_60s.failovers_total.increment_at second }

def record_upstream_completed_response (upstream_name : String) : SnapshotData :=
  data.count_upstream upstream_name fun counters =>
    { counters with
      completed_responses_total := counters.completed_responses_total + 1
      recent_60s.completed_responses_total :=
        counters.recent_60s.completed_responses_total.increment_at second }

def record_upstream_bad_gateway_response (upstream_name : String) : SnapshotData :=
  data.count_upstream upstream_name fun counters =>
    { counters with
      bad_gateway_responses_total := counters.bad_gateway_responses_total + 1
      recent_60s.bad_gateway_responses_total :=
        counters.recent_60s.bad_gateway_responses_total.increment_at second }

def record_upstream_gateway_timeout_response (upstream_name : String) : SnapshotData :=
  data.count_upstream upstream_name fun counters =>
    { counters with
      gateway_timeout_responses_total := counters.gateway_timeout_responses_total + 1
      recent_60s.gateway_timeout_responses_total :=
        counters.recent_60s.gateway_timeout_responses_total.increment_at second }

def record_upstream_bad_request_response (upstream_name : String) : SnapshotData :=
  data.count_upstream upstream_name fun counters =>
    { counters with
      bad_request_responses_total := counters.bad_request_responses_total + 1 }

def record_upstream_payload_too_large_response (upstream_name : String) : SnapshotData :=
  data.count_upstream upstream_name fun counters =>
    { counters with
      payload_too_large_responses_total := counters.payload_too_large_responses_total + 1 }

def record_upstream_unsupported_media_type_response (upstream_name : String) : SnapshotData :=
  data.count_upstream upstream_name fun counters =>
    { counters with
      unsupported_media_type_responses_total :=
        counters.unsupported_media_type_responses_total + 1 }

def record_upstream_no_healthy_peers (upstream_name : String) : SnapshotData :=
  data.count_upstream upstream_name fun counters =>
    { counters with no_healthy_peers_total := counters.no_healthy_peers_total + 1 }

def record_upstream_peer_failure_class (upstream_name failure_class : String) : SnapshotData :=
  data.count_upstream upstream_name fun counters =>
    (counters.record_failure_class failure_class).getD counters

/-! ### The health of the peers -/

def record_success (upstream_name peer_url : String) : SnapshotData :=
  data.with_registry upstream_name fun registry => (registry.record_success peer_url).1

def record_failure (upstream_name peer_url : String) (now : Nat) : SnapshotData :=
  data.with_registry upstream_name fun registry => (registry.record_failure peer_url now).1

def record_active_success (upstream_name peer_url : String) (healthy_successes_required : Nat) :
    SnapshotData :=
  data.with_registry upstream_name fun registry =>
    (registry.record_active_success peer_url healthy_successes_required).1

def record_active_failure (upstream_name peer_url : String) : SnapshotData :=
  data.with_registry upstream_name fun registry => (registry.record_active_failure peer_url).1

def track_active_request (upstream_name peer_url : String) : SnapshotData :=
  data.with_registry upstream_name fun registry => (registry.track_active_request peer_url).1

def drop_active_peer_guard (upstream_name : String) (peer : Option HealthCell) : SnapshotData :=
  data.with_registry upstream_name fun registry => registry.drop_guard peer

def ensure_endpoint (upstream_name endpoint_key logical_peer_url : String) : SnapshotData :=
  data.with_registry upstream_name fun registry =>
    registry.ensure_endpoint endpoint_key logical_peer_url

/-! ### Cache zones -/

def update_index_after_store (zone_name : String) (hot_entries : HotEntries) (key : String)
    (entry : CacheIndexEntry) (replaced_entry : Option (String × CacheIndexEntry))
    (shared_index : SharedIndexStatus) : SnapshotData :=
  data.with_zone zone_name (·.after_store hot_entries key entry replaced_entry shared_index)

def remove_zone_index_entry_if_matches (zone_name key : String) (expected_entry : CacheIndexEntry)
    (shared_index : SharedIndexStatus) : SnapshotData :=
  data.with_zone zone_name fun zone => (zone.after_removal key expected_entry shared_index).1

def cleanup_inactive_entries_in_zone (zone_name : String) (hot_entries : HotEntries) (now : Nat)
    (shared_index : SharedIndexStatus) : SnapshotData :=
  data.with_zone zone_name fun zone => (zone.after_cleanup hot_entries now shared_index).1

def purge_zone_entries (zone_name : String) (order : HashOrder) (selector : PurgeSelector)
    (shared_index : SharedIndexStatus) : SnapshotData :=
  data.with_zone zone_name fun zone => (zone.after_purge order selector shared_index).1

def invalidate_zone_entries (zone_name : String) (rule : CacheInvalidationRule)
    (shared_index : SharedIndexStatus) : SnapshotData :=
  data.with_zone zone_name (·.after_invalidation rule shared_index)

def clear_zone_invalidations (zone_name : String) (shared_index : SharedIndexStatus) :
    SnapshotData :=
  data.with_zone zone_name (·.after_clear shared_index)

def record_hit (zone_name : String) : SnapshotData :=
  data.count_zone zone_name CacheZoneStats.record_hit

def record_miss (zone_name : String) : SnapshotData :=
  data.count_zone zone_name CacheZoneStats.record_miss

def record_bypass (zone_name : String) : SnapshotData :=
  data.count_zone zone_name CacheZoneStats.record_bypass

def record_expired (zone_name : String) : SnapshotData :=
  data.count_zone zone_name CacheZoneStats.record_expired

def record_stale (zone_name : String) : SnapshotData :=
  data.count_zone zone_name CacheZoneStats.record_stale

def record_updating (zone_name : String) : SnapshotData :=
  data.count_zone zone_name CacheZoneStats.record_updating

def record_revalidated (zone_name : String) : SnapshotData :=
  data.count_zone zone_name CacheZoneStats.record_revalidated

def record_write_success (zone_name : String) : SnapshotData :=
  data.count_zone zone_name CacheZoneStats.record_write_success

def record_write_error (zone_name : String) : SnapshotData :=
  data.count_zone zone_name CacheZoneStats.record_write_error

def record_cache_admission_attempt (zone_name key : String) (min_uses : Nat)
    (shared_index : SharedIndexStatus) : SnapshotData :=
  data.with_zone zone_name (·.after_admission_attempt key min_uses shared_index)

def record_zone_shared_entry_access (zone_name key : String) (last_access_unix_ms : Nat)
    (shared_index : SharedIndexStatus) : SnapshotData :=
  data.with_zone zone_name (·.after_access key last_access_unix_ms shared_index)

def sync_zone_shared_index_if_needed (zone_name : String) (index : CacheIndex)
    (shared_index : SharedIndexStatus) : SnapshotData :=
  data.with_zone zone_name fun zone => { zone with index, shared_index }

end Updates

end SnapshotData

namespace RecordingOperation

/-- The data after the operation, which counts what is recent under a second. -/
def update (second : Nat) (data : SnapshotData) : RecordingOperation → SnapshotData
  | .record_downstream_request listener_id vhost_id route_id =>
    data.record_downstream_request second listener_id vhost_id route_id
  | .record_mtls_request listener_id authenticated =>
    data.record_mtls_request listener_id authenticated
  | .record_downstream_response listener_id vhost_id route_id status =>
    data.record_downstream_response second listener_id vhost_id route_id status
  | .record_route_access_denied route_id => data.record_route_access_denied route_id
  | .record_route_rate_limited route_id => data.record_route_rate_limited route_id
  | .record_grpc_request listener_id vhost_id route_id protocol =>
    data.record_grpc_request second listener_id vhost_id route_id protocol
  | .record_grpc_status listener_id vhost_id route_id status =>
    data.record_grpc_status listener_id vhost_id route_id status
  | .record_connection_accepted listener_id => data.record_connection_accepted listener_id
  | .record_mtls_handshake_success listener_id authenticated =>
    data.record_mtls_handshake_success listener_id authenticated
  | .record_tls_handshake_failure listener_id reason =>
    data.record_tls_handshake_failure listener_id reason
  | .record_connection_rejected listener_id => data.record_connection_rejected listener_id
  | .record_http3_early_data_accepted_request listener_id =>
    data.record_http3_early_data_accepted_request listener_id
  | .record_http3_early_data_rejected_request listener_id =>
    data.record_http3_early_data_rejected_request listener_id
  | .record_http3_retry_issued listener_id => data.record_http3_retry_issued listener_id
  | .record_http3_retry_failed listener_id => data.record_http3_retry_failed listener_id
  | .record_http3_request_accept_error listener_id =>
    data.record_http3_request_accept_error listener_id
  | .record_http3_request_resolve_error listener_id =>
    data.record_http3_request_resolve_error listener_id
  | .record_http3_request_body_stream_error listener_id =>
    data.record_http3_request_body_stream_error listener_id
  | .record_http3_response_stream_error listener_id =>
    data.record_http3_response_stream_error listener_id
  | .record_http3_connection_close listener_id reason =>
    data.record_http3_connection_close listener_id reason
  | .try_acquire_connection listener_id limit => data.try_acquire_connection listener_id limit
  | .retain_connection_slot listener_id => data.retain_connection_slot listener_id
  | .retain_http3_connection listener_id => data.retain_http3_connection listener_id
  | .retain_http3_request_stream listener_id => data.retain_http3_request_stream listener_id
  | .drop_active_connection_guard listener_id => data.drop_active_connection_guard listener_id
  | .drop_active_http3_connection_guard listener_id =>
    data.drop_active_http3_connection_guard listener_id
  | .drop_active_http3_request_stream_guard listener_id =>
    data.drop_active_http3_request_stream_guard listener_id
  | .record_upstream_request upstream_name => data.record_upstream_request second upstream_name
  | .record_upstream_peer_attempt upstream_name peer_url =>
    data.record_upstream_peer_attempt second upstream_name peer_url
  | .record_upstream_peer_success upstream_name peer_url =>
    data.record_upstream_peer_success upstream_name peer_url
  | .record_upstream_peer_failure upstream_name peer_url =>
    data.record_upstream_peer_failure upstream_name peer_url
  | .record_upstream_peer_timeout upstream_name peer_url =>
    data.record_upstream_peer_timeout upstream_name peer_url
  | .record_upstream_failover upstream_name => data.record_upstream_failover second upstream_name
  | .record_upstream_completed_response upstream_name =>
    data.record_upstream_completed_response second upstream_name
  | .record_upstream_bad_gateway_response upstream_name =>
    data.record_upstream_bad_gateway_response second upstream_name
  | .record_upstream_gateway_timeout_response upstream_name =>
    data.record_upstream_gateway_timeout_response second upstream_name
  | .record_upstream_bad_request_response upstream_name =>
    data.record_upstream_bad_request_response upstream_name
  | .record_upstream_payload_too_large_response upstream_name =>
    data.record_upstream_payload_too_large_response upstream_name
  | .record_upstream_unsupported_media_type_response upstream_name =>
    data.record_upstream_unsupported_media_type_response upstream_name
  | .record_upstream_no_healthy_peers upstream_name =>
    data.record_upstream_no_healthy_peers upstream_name
  | .record_upstream_peer_failure_class upstream_name failure_class =>
    data.record_upstream_peer_failure_class upstream_name failure_class
  | .record_success upstream_name peer_url => data.record_success upstream_name peer_url
  | .record_failure upstream_name peer_url now => data.record_failure upstream_name peer_url now
  | .record_active_success upstream_name peer_url healthy_successes_required =>
    data.record_active_success upstream_name peer_url healthy_successes_required
  | .record_active_failure upstream_name peer_url =>
    data.record_active_failure upstream_name peer_url
  | .track_active_request upstream_name peer_url => data.track_active_request upstream_name peer_url
  | .drop_active_peer_guard upstream_name peer => data.drop_active_peer_guard upstream_name peer
  | .ensure_endpoint upstream_name endpoint_key logical_peer_url =>
    data.ensure_endpoint upstream_name endpoint_key logical_peer_url
  | .update_index_after_store zone_name hot_entries key entry replaced_entry shared_index =>
    data.update_index_after_store zone_name hot_entries key entry replaced_entry shared_index
  | .remove_zone_index_entry_if_matches zone_name key expected_entry shared_index =>
    data.remove_zone_index_entry_if_matches zone_name key expected_entry shared_index
  | .cleanup_inactive_entries_in_zone zone_name hot_entries now shared_index =>
    data.cleanup_inactive_entries_in_zone zone_name hot_entries now shared_index
  | .purge_zone_entries zone_name order selector shared_index =>
    data.purge_zone_entries zone_name order selector shared_index
  | .invalidate_zone_entries zone_name rule shared_index =>
    data.invalidate_zone_entries zone_name rule shared_index
  | .clear_zone_invalidations zone_name shared_index =>
    data.clear_zone_invalidations zone_name shared_index
  | .record_hit zone_name => data.record_hit zone_name
  | .record_miss zone_name => data.record_miss zone_name
  | .record_bypass zone_name => data.record_bypass zone_name
  | .record_expired zone_name => data.record_expired zone_name
  | .record_stale zone_name => data.record_stale zone_name
  | .record_updating zone_name => data.record_updating zone_name
  | .record_revalidated zone_name => data.record_revalidated zone_name
  | .record_write_success zone_name => data.record_write_success zone_name
  | .record_write_error zone_name => data.record_write_error zone_name
  | .record_cache_admission_attempt zone_name key min_uses shared_index =>
    data.record_cache_admission_attempt zone_name key min_uses shared_index
  | .record_zone_shared_entry_access zone_name key last_access_unix_ms shared_index =>
    data.record_zone_shared_entry_access zone_name key last_access_unix_ms shared_index
  | .sync_zone_shared_index_if_needed zone_name index shared_index =>
    data.sync_zone_shared_index_if_needed zone_name index shared_index

section Recording

variable (data : SnapshotData)

/-- What the operation marks, if it comes to that: what it does not find it returns for at once, and
some operations mark nothing. -/
def recording : RecordingOperation → Option Recording
  | .record_downstream_request listener_id vhost_id route_id
  | .record_downstream_response listener_id vhost_id route_id _ =>
    some (traffic_recording false true (some listener_id) (some vhost_id) route_id)
  | .record_grpc_request listener_id vhost_id route_id _
  | .record_grpc_status listener_id vhost_id route_id _ =>
    some (traffic_recording false false (some listener_id) (some vhost_id) route_id)
  | .record_route_access_denied route_id
  | .record_route_rate_limited route_id =>
    some (traffic_recording false false none none (some route_id))
  | .record_mtls_request listener_id _
  | .record_connection_accepted listener_id
  | .record_tls_handshake_failure listener_id _
  | .record_connection_rejected listener_id
  | .record_http3_early_data_accepted_request listener_id
  | .record_http3_early_data_rejected_request listener_id =>
    some (traffic_recording true true (some listener_id) none none)
  | .record_mtls_handshake_success listener_id authenticated =>
    if !authenticated then none else some (traffic_recording true true (some listener_id) none none)
  | .record_http3_retry_issued listener_id
  | .record_http3_retry_failed listener_id
  | .record_http3_request_accept_error listener_id
  | .record_http3_request_resolve_error listener_id
  | .record_http3_request_body_stream_error listener_id
  | .record_http3_response_stream_error listener_id
  | .record_http3_connection_close listener_id _ =>
    some (traffic_recording true false (some listener_id) none none)
  | .try_acquire_connection .. => none
  | .retain_connection_slot listener_id =>
    (data.listener_active_connections listener_id).map fun _ =>
      traffic_recording true false (some listener_id) none none
  | .retain_http3_connection listener_id
  | .retain_http3_request_stream listener_id =>
    (data.listeners listener_id).map fun _ =>
      traffic_recording true false (some listener_id) none none
  | .drop_active_connection_guard listener_id
  | .drop_active_http3_connection_guard listener_id
  | .drop_active_http3_request_stream_guard listener_id => some (guard_recording listener_id)
  | .record_upstream_request upstream_name
  | .record_upstream_failover upstream_name
  | .record_upstream_completed_response upstream_name
  | .record_upstream_bad_gateway_response upstream_name
  | .record_upstream_gateway_timeout_response upstream_name
  | .record_upstream_bad_request_response upstream_name
  | .record_upstream_payload_too_large_response upstream_name
  | .record_upstream_unsupported_media_type_response upstream_name
  | .record_upstream_no_healthy_peers upstream_name =>
    (data.upstream_stats_counters upstream_name).map fun _ => upstream_recording upstream_name
  | .record_upstream_peer_attempt upstream_name peer_url
  | .record_upstream_peer_success upstream_name peer_url
  | .record_upstream_peer_failure upstream_name peer_url
  | .record_upstream_peer_timeout upstream_name peer_url =>
    (data.upstream_stats_peer_counters upstream_name peer_url).map fun _ =>
      upstream_recording upstream_name
  | .record_upstream_peer_failure_class upstream_name failure_class =>
    (data.upstream_stats_counters upstream_name).bind fun counters =>
      (counters.record_failure_class failure_class).map fun _ => upstream_recording upstream_name
  | .record_success upstream_name peer_url
  | .record_failure upstream_name peer_url _
  | .record_active_success upstream_name peer_url _
  | .record_active_failure upstream_name peer_url =>
    (data.get_health upstream_name peer_url).map fun _ => peer_health_recording upstream_name
  | .track_active_request upstream_name peer_url =>
    (data.get_health upstream_name peer_url).bind fun health =>
      let transitioned_from_idle := health.increment_active_requests.2
      if transitioned_from_idle then some (peer_health_recording upstream_name) else none
  | .drop_active_peer_guard upstream_name peer =>
    (data.guarded_health upstream_name peer).bind fun health =>
      let transitioned_to_idle := health.decrement_active_requests.2
      if transitioned_to_idle then some (peer_health_recording upstream_name) else none
  | .ensure_endpoint .. => none
  | .update_index_after_store zone_name ..
  | .invalidate_zone_entries zone_name ..
  | .clear_zone_invalidations zone_name _ =>
    (data.zones zone_name).map fun _ => cache_recording zone_name
  | .remove_zone_index_entry_if_matches zone_name key expected_entry shared_index =>
    (data.zones zone_name).bind fun zone =>
      (zone.after_removal key expected_entry shared_index).2.map fun _ => cache_recording zone_name
  | .cleanup_inactive_entries_in_zone zone_name hot_entries now shared_index =>
    (data.zones zone_name).bind fun zone =>
      if (zone.after_cleanup hot_entries now shared_index).2 = 0 then none
      else some (cache_recording zone_name)
  | .purge_zone_entries zone_name order selector shared_index =>
    (data.zones zone_name).bind fun zone =>
      if (zone.after_purge order selector shared_index).2 = 0 then none
      else some (cache_recording zone_name)
  | .record_hit _ | .record_miss _ | .record_bypass _ | .record_expired _ | .record_stale _
  | .record_updating _ | .record_revalidated _ | .record_write_success _ | .record_write_error _ =>
    none
  | .record_cache_admission_attempt .. | .record_zone_shared_entry_access ..
  | .sync_zone_shared_index_if_needed .. => none

def cells (operation : RecordingOperation) : List SnapshotCell :=
  marked_cells (operation.recording data)

/-- The operations that change data and mark nothing: the slot of a connection that is to be
accepted, a request to a peer that has others, the health of a new endpoint, the counters of a
zone's lookups and writes, and what only reaches its segment or comes from there. -/
def Silent : RecordingOperation → Prop
  | .try_acquire_connection .. => True
  | .track_active_request upstream_name peer_url =>
    ∃ health, data.get_health upstream_name peer_url = some health ∧ health.active_requests ≠ 0
  | .drop_active_peer_guard upstream_name peer =>
    ∃ health, data.guarded_health upstream_name peer = some health ∧ 1 < health.active_requests
  | .ensure_endpoint .. => True
  | .record_hit _ | .record_miss _ | .record_bypass _ | .record_expired _ | .record_stale _
  | .record_updating _ | .record_revalidated _ | .record_write_success _ | .record_write_error _ =>
    True
  | .record_cache_admission_attempt .. | .record_zone_shared_entry_access ..
  | .sync_zone_shared_index_if_needed .. => True
  | _ => False

end Recording

end RecordingOperation

/-! ## Operations without effect -/

/-- A change that changes no entry under the name. -/
theorem modify_eq_self {α : Type} {entries : String → Option α} {name : String} {change : α → α}
    (h : ∀ entry, entries name = some entry → change entry = entry) :
    modify entries name change = entries := by
  have hentry : (entries name).map change = entries name := by
    cases hname : entries name with
    | none => rfl
    | some entry => exact congrArg some (h entry hname)
  unfold modify
  rw [hentry]
  exact Function.update_eq_self name entries

/-- The index is as it was, but for the schedule of its entries. -/
structure Rescheduled (index later : CacheIndex) : Prop where
  entries : later.entries = index.entries
  size : later.current_size_bytes = index.current_size_bytes
  rules : later.invalidations = index.invalidations

theorem Rescheduled.refl (index : CacheIndex) : Rescheduled index index := ⟨rfl, rfl, rfl⟩

theorem Rescheduled.trans {first second third : CacheIndex} (h : Rescheduled first second)
    (h' : Rescheduled second third) : Rescheduled first third :=
  ⟨h'.entries.trans h.entries, h'.size.trans h.size, h'.rules.trans h.rules⟩

theorem rescheduled_access (index : CacheIndex) (key : String) (last_access_unix_ms : Nat) :
    Rescheduled index (index.reschedule_entry_access key last_access_unix_ms) := by
  unfold CacheIndex.reschedule_entry_access
  split
  · unfold CacheIndex.schedule_entry_access CacheIndex.unschedule_entry_access
    dsimp only
    split <;> exact ⟨rfl, rfl, rfl⟩
  · exact Rescheduled.refl index

/-- A turn that takes no entry. -/
theorem rescheduled_turn {hot : HotEntries} {later : Nat → Nat → Bool} {index index' : CacheIndex}
    (h : schedule_turn hot later index = .Kept index') : Rescheduled index index' := by
  unfold schedule_turn at h
  split at h
  · cases h
  · rename_i key scheduled popped hpop
    have hpopped : Rescheduled index popped := by
      unfold CacheIndex.pop_oldest_scheduled_entry at hpop
      obtain ⟨oldest, -, heq⟩ := Option.map_eq_some_iff.mp hpop
      cases heq
      exact ⟨rfl, rfl, rfl⟩
    split at h
    · cases h
      exact hpopped
    · rename_i entry hentry
      dsimp only at h
      split at h
      · cases h
        exact hpopped.trans (rescheduled_access popped key _)
      · unfold CacheIndex.remove_entry at h
        rw [hentry] at h
        cases h

/-- A loop that takes no entry. -/
theorem rescheduled_loop {hot : HotEntries} {later : Nat → Nat → Bool}
    {goes_on : CacheIndex → Nat → Bool} {turns : Nat} {index : CacheIndex} {count : Nat}
    (h : (schedule_loop hot later goes_on turns index count).2 = []) :
    Rescheduled index (schedule_loop hot later goes_on turns index count).1 := by
  induction turns generalizing index count with
  | zero => exact Rescheduled.refl index
  | succ turns ih =>
    rw [schedule_loop] at h ⊢
    split
    · rename_i hgo
      rw [if_pos hgo] at h
      cases hturn : schedule_turn hot later index with
      | Stopped => exact Rescheduled.refl index
      | Kept kept =>
        rw [hturn] at h
        exact (rescheduled_turn hturn).trans (ih h)
      | Removed left key entry =>
        rw [hturn] at h
        cases h
    · exact Rescheduled.refl index

/-- A round that removes nothing publishes nothing. -/
theorem rescheduled_round {now : Nat} {zone : CleanupZone} (h : (cleanup_round now zone).2.1 = []) :
    Rescheduled zone.index (cleanup_round now zone).1.index ∧
      (cleanup_round now zone).1.shared_operations = zone.shared_operations := by
  have hbatch : max zone.manager_batch_entries 1 ≠ 0 := by omega
  unfold cleanup_round cleanup_inactive_batch inactive_cleanup_candidates at h ⊢
  rw [if_neg hbatch] at h ⊢
  dsimp only at h ⊢
  have hloop := rescheduled_loop h
  rw [h]
  exact ⟨⟨hloop.entries, hloop.size, hloop.rules⟩, List.append_nil _⟩

theorem rescheduled_rounds {now rounds : Nat} {zone : CleanupZone}
    (h : (cleanup_loop now rounds zone).2.flatten = []) :
    Rescheduled zone.index (cleanup_loop now rounds zone).1.index ∧
      (cleanup_loop now rounds zone).1.shared_operations = zone.shared_operations := by
  induction rounds generalizing zone with
  | zero => exact ⟨Rescheduled.refl zone.index, rfl⟩
  | succ rounds ih =>
    unfold cleanup_loop at h ⊢
    dsimp only at h ⊢
    split
    · rename_i hmore
      rw [if_pos hmore] at h
      obtain ⟨hround, hrest⟩ := List.append_eq_nil_iff.mp h
      obtain ⟨hindex, hoperations⟩ := rescheduled_round hround
      obtain ⟨hindex', hoperations'⟩ := ih hrest
      exact ⟨hindex.trans hindex', hoperations'.trans hoperations⟩
    · rename_i hmore
      rw [if_neg hmore] at h
      exact rescheduled_round (List.append_eq_nil_iff.mp h).1

/-- A cleanup that removes nothing is not seen in the snapshot. -/
theorem snapshot_after_cleanup {zone : CacheZoneRuntime} {hot_entries : HotEntries} {now : Nat}
    {shared_index : SharedIndexStatus}
    (h : (zone.after_cleanup hot_entries now shared_index).2 = 0) :
    (zone.after_cleanup hot_entries now shared_index).1.snapshot = zone.snapshot := by
  have hremoved : (cleanup_inactive_entries_in_zone now
      (zone.cleanup_zone hot_entries)).2.flatten = [] := List.length_eq_zero_iff.mp h
  have hleft : Rescheduled zone.index (cleanup_inactive_entries_in_zone now
        (zone.cleanup_zone hot_entries)).1.index ∧
      (cleanup_inactive_entries_in_zone now
        (zone.cleanup_zone hot_entries)).1.shared_operations = [] := by
    unfold cleanup_inactive_entries_in_zone at hremoved ⊢
    split
    · exact ⟨Rescheduled.refl _, rfl⟩
    · rename_i hrecently
      rw [if_neg hrecently] at hremoved
      exact rescheduled_rounds hremoved
  obtain ⟨⟨hentries, hsize, hrules⟩, hoperations⟩ := hleft
  unfold CacheZoneRuntime.after_cleanup CacheZoneRuntime.publish CacheZoneRuntime.snapshot
  simp [hremoved, hoperations, hentries, hsize, hrules, CacheZoneStats.record_inactive_cleanup]

theorem drop_entries_eq_self {index : CacheIndex} {keys : List String}
    (h : (drop_entries index keys).2 = []) : (drop_entries index keys).1 = index := by
  induction keys with
  | nil => rfl
  | cons key keys ih =>
    cases hkey : index.entries[key]? with
    | none =>
      rw [drop_entries_cons_of_none keys hkey] at h ⊢
      exact ih h
    | some entry =>
      rw [drop_entries_cons_of_some keys hkey] at h
      cases h

/-- A purge that removes nothing is not seen in the snapshot. -/
theorem snapshot_after_purge {zone : CacheZoneRuntime} {order : HashOrder} {selector : PurgeSelector}
    {shared_index : SharedIndexStatus} (h : (zone.after_purge order selector shared_index).2 = 0) :
    (zone.after_purge order selector shared_index).1.snapshot = zone.snapshot := by
  have hremoved : (purge_zone_entries order zone.index selector).2.2 = [] :=
    List.length_eq_zero_iff.mp h
  have hindex : (purge_zone_entries order zone.index selector).1 = zone.index :=
    drop_entries_eq_self hremoved
  have hoperations : (purge_zone_entries order zone.index selector).2.1 = [] := by
    change dropped_operations (purge_zone_entries order zone.index selector).2.2 = []
    rw [hremoved]
    rfl
  unfold CacheZoneRuntime.after_purge CacheZoneRuntime.publish CacheZoneRuntime.snapshot
  simp [hremoved, hindex, hoperations, CacheZoneStats.record_purge]

/-- An entry that does not match stays, and nothing is published. -/
theorem after_removal_of_none {zone : CacheZoneRuntime} {key : String}
    {expected_entry : CacheIndexEntry} {shared_index : SharedIndexStatus}
    (h : (zone.after_removal key expected_entry shared_index).2 = none) :
    (zone.after_removal key expected_entry shared_index).1 = zone := by
  unfold CacheZoneRuntime.after_removal remove_zone_index_entry_if_matches at h ⊢
  cases hkey : zone.index.entries[key]? with
  | none => rfl
  | some current =>
    rw [hkey] at h
    dsimp only at h ⊢
    split
    · rename_i hmatches
      rw [if_pos hmatches, drop_entry_of_some hkey] at h
      cases h
    · rfl

/-! ## What is changed is marked -/

section Marks

variable {config : SnapshotConfig} (data : SnapshotData)

theorem traffic_mem (status counters : Bool) (listener_id vhost_id route_id : Option String) :
    .component .Traffic ∈ (traffic_recording status counters listener_id vhost_id route_id).cells := by
  cases status <;> cases counters <;> simp [Recording.cells, traffic_recording,
    mark_snapshot_changed_components, mark_snapshot_changed_components_with_cache]

theorem status_mem (counters : Bool) (listener_id vhost_id route_id : Option String) :
    .component .Status ∈ (traffic_recording true counters listener_id vhost_id route_id).cells := by
  simp [Recording.cells, traffic_recording, mark_snapshot_changed_components,
    mark_snapshot_changed_components_with_cache]

theorem counters_mem (status : Bool) (listener_id vhost_id route_id : Option String) :
    .component .Counters ∈ (traffic_recording status true listener_id vhost_id route_id).cells := by
  cases status <;> simp [Recording.cells, traffic_recording, mark_snapshot_changed_components,
    mark_snapshot_changed_components_with_cache]

theorem listener_mem (status counters : Bool) (listener_id : String)
    (vhost_id route_id : Option String) :
    .target .listeners listener_id ∈
      (traffic_recording status counters (some listener_id) vhost_id route_id).cells := by
  simp [Recording.cells, traffic_recording, mark_traffic_targets_changed]

theorem vhost_mem (status counters : Bool) (listener_id route_id : Option String)
    (vhost_id : String) :
    .target .vhosts vhost_id ∈
      (traffic_recording status counters listener_id (some vhost_id) route_id).cells := by
  simp [Recording.cells, traffic_recording, mark_traffic_targets_changed]

theorem route_mem (status counters : Bool) (listener_id vhost_id route_id : Option String) :
    ∀ id, route_id = some id →
      .target .routes id ∈
        (traffic_recording status counters listener_id vhost_id route_id).cells := by
  rintro id rfl
  simp [Recording.cells, traffic_recording, mark_traffic_targets_changed]

/-- Requests, responses and gRPC calls: their counters are no part of the status. -/
theorem touches_traffic (counters : Bool) (listener_id vhost_id : String)
    (route_id : Option String)
    {change_listener : ListenerTrafficCounters → ListenerTrafficCounters}
    (hlistener : KeepsStatus change_listener)
    (change_vhost : RequestTrafficCounters → RequestTrafficCounters)
    (change_route : RouteTrafficCounters → RouteTrafficCounters) :
    Touches config
      (traffic_recording false counters (some listener_id) (some vhost_id) route_id).cells data
      (data.with_listener listener_id change_listener |>.with_vhost vhost_id change_vhost
        |>.with_route route_id change_route) := by
  have htraffic := traffic_mem false counters (some listener_id) (some vhost_id) route_id
  have hlisteners : Touches config _ data (data.with_listener listener_id change_listener) :=
    touches_listener data htraffic
      (listener_mem false counters listener_id (some vhost_id) route_id) (.inr hlistener)
  have hvhosts : Touches config _ (data.with_listener listener_id change_listener)
      (data.with_listener listener_id change_listener |>.with_vhost vhost_id change_vhost) :=
    touches_vhost _ htraffic (vhost_mem false counters (some listener_id) route_id vhost_id)
  exact (hlisteners.trans hvhosts).trans (touches_route _ htraffic (route_mem _ _ _ _ _))

/-- What is counted for the process and for a listener. -/
theorem touches_listener_and_process (listener_id : String)
    (change : HttpCounters → HttpCounters)
    (change_listener : ListenerTrafficCounters → ListenerTrafficCounters) :
    Touches config (traffic_recording true true (some listener_id) none none).cells data
      (data.count change |>.with_listener listener_id change_listener) :=
  (touches_count data (counters_mem _ _ _ _) (.inl (status_mem _ _ _ _))).trans
    (touches_listener _ (traffic_mem _ _ _ _ _) (listener_mem _ _ _ _ _)
      (.inl (status_mem _ _ _ _)))

theorem touches_listener_only (listener_id : String)
    (change : ListenerTrafficCounters → ListenerTrafficCounters) :
    Touches config (traffic_recording true false (some listener_id) none none).cells data
      (data.with_listener listener_id change) :=
  touches_listener data (traffic_mem _ _ _ _ _) (listener_mem _ _ _ _ _) (.inl (status_mem _ _ _ _))

theorem touches_guard_counters (listener_id : String)
    (change : ListenerTrafficCounters → ListenerTrafficCounters) :
    Touches config (guard_recording listener_id).cells data
      (data.with_listener listener_id change) :=
  touches_listener data (by simp [Recording.cells, guard_recording])
    (by simp [Recording.cells, guard_recording]) (.inl (by simp [Recording.cells, guard_recording]))

/-- An operation that may return at once: where it marks nothing it has changed nothing. -/
theorem touches_if {later : SnapshotData} {marked : Option Recording} {recording : Recording}
    (hmarked : ∀ other, marked = some other → other = recording)
    (hnone : marked = none → later = data) (htouches : Touches config recording.cells data later) :
    Touches config (marked_cells marked) data later := by
  cases hcase : marked with
  | none =>
    rw [hnone hcase]
    exact Touches.refl
  | some other =>
    obtain rfl := hmarked other hcase
    exact htouches

/-- A listener without counters: nothing is changed, and nothing is marked. -/
theorem touches_known_listener (listener_id : String)
    (change : ListenerTrafficCounters → ListenerTrafficCounters) :
    Touches config
      (marked_cells ((data.listeners listener_id).map fun _ =>
        traffic_recording true false (some listener_id) none none))
      data (data.with_listener listener_id change) := by
  refine touches_if data ?_ ?_ (touches_listener_only data listener_id change)
  · rintro recording hsome
    obtain ⟨-, -, rfl⟩ := Option.map_eq_some_iff.mp hsome
    rfl
  · intro hnone
    have hunknown := Option.map_eq_none_iff.mp hnone
    unfold SnapshotData.with_listener
    rw [modify_eq_self (by simp [hunknown])]

/-! ### Upstreams -/

section Upstreams

variable {upstream_name : String} {marked : Option Recording}

/-- An operation on the counters of an upstream that marks nothing changes nothing. -/
theorem touches_upstream_if {change : UpstreamStatsEntry → UpstreamStatsEntry}
    (hmarked : ∀ recording, marked = some recording → recording = upstream_recording upstream_name)
    (hnone : marked = none → ∀ entry, data.upstream_stats upstream_name = some entry →
      change entry = entry) :
    Touches config (marked_cells marked) data (data.with_upstream upstream_name change) := by
  refine touches_if data hmarked ?_ ?_
  · intro hunmarked
    unfold SnapshotData.with_upstream
    rw [modify_eq_self (hnone hunmarked)]
  · exact touches_upstream data (by simp [Recording.cells, upstream_recording,
      mark_snapshot_changed_components, mark_snapshot_changed_components_with_cache])
      (by simp [Recording.cells, upstream_recording])

theorem touches_count_upstream (change : UpstreamStats → UpstreamStats) :
    Touches config
      (marked_cells ((data.upstream_stats_counters upstream_name).map fun _ =>
        upstream_recording upstream_name))
      data (data.count_upstream upstream_name change) := by
  refine touches_upstream_if data ?_ ?_
  · rintro recording hsome
    obtain ⟨-, -, rfl⟩ := Option.map_eq_some_iff.mp hsome
    rfl
  · intro hnone entry hentry
    simp [SnapshotData.upstream_stats_counters, hentry] at hnone

theorem touches_count_peer (peer_url : String) (change : UpstreamStats → UpstreamStats)
    (change_peer : UpstreamPeerStats → UpstreamPeerStats) :
    Touches config
      (marked_cells ((data.upstream_stats_peer_counters upstream_name peer_url).map fun _ =>
        upstream_recording upstream_name))
      data (data.count_peer upstream_name peer_url change change_peer) := by
  refine touches_upstream_if data ?_ ?_
  · rintro recording hsome
    obtain ⟨-, -, rfl⟩ := Option.map_eq_some_iff.mp hsome
    rfl
  · intro hnone entry hentry
    have hpeer : entry.peers peer_url = none := by
      refine Option.eq_none_iff_forall_ne_some.mpr ?_
      simpa [SnapshotData.upstream_stats_peer_counters, hentry] using hnone
    rw [hpeer]

/-- A class that has no counter is neither counted nor marked. -/
theorem touches_failure_class (failure_class : String) :
    Touches config
      (marked_cells ((data.upstream_stats_counters upstream_name).bind fun counters =>
        (counters.record_failure_class failure_class).map fun _ =>
          upstream_recording upstream_name))
      data (data.count_upstream upstream_name fun counters =>
        (counters.record_failure_class failure_class).getD counters) := by
  refine touches_upstream_if data ?_ ?_
  · rintro recording hsome
    obtain ⟨counters, -, hclass⟩ := Option.bind_eq_some_iff.mp hsome
    obtain ⟨-, -, rfl⟩ := Option.map_eq_some_iff.mp hclass
    rfl
  · intro hnone entry hentry
    have hclass : entry.counters.record_failure_class failure_class = none := by
      simpa [SnapshotData.upstream_stats_counters, hentry] using hnone
    dsimp only
    rw [hclass]
    rfl

end Upstreams

/-! ### The health of the peers -/

section Health

variable {upstream_name : String} {marked : Option Recording}

/-- An operation on the health of a peer that marks nothing changes nothing. -/
theorem touches_registry_if {change : PeerHealthRegistry → PeerHealthRegistry}
    (hmarked : ∀ recording, marked = some recording →
      recording = peer_health_recording upstream_name)
    (hnone : marked = none → ∀ registry, data.peer_health upstream_name = some registry →
      change registry = registry) :
    Touches config (marked_cells marked) data (data.with_registry upstream_name change) := by
  refine touches_if data hmarked ?_ ?_
  · intro hunmarked
    unfold SnapshotData.with_registry
    rw [modify_eq_self (hnone hunmarked)]
  · exact touches_registry data (by simp [Recording.cells, peer_health_recording])
      (by simp [Recording.cells, peer_health_recording])

/-- Where a key stands for no health, `with_health` changes nothing. -/
theorem with_health_eq_self {α : Type} {peer_url : String} {registry : PeerHealthRegistry}
    (hregistry : data.peer_health upstream_name = some registry)
    (hnone : data.get_health upstream_name peer_url = none) (run : PeerHealth → PeerHealth × α)
    (missing : α) : (registry.with_health peer_url run missing).1 = registry := by
  have hcell : registry.get_health peer_url = none := by
    refine Option.eq_none_iff_forall_ne_some.mpr ?_
    simpa [SnapshotData.get_health, hregistry] using hnone
  unfold PeerHealthRegistry.with_health
  rw [hcell]

theorem touches_health {α : Type} (peer_url : String)
    (run : PeerHealthRegistry → PeerHealth → PeerHealth × α) (missing : α) :
    Touches config
      (marked_cells ((data.get_health upstream_name peer_url).map fun _ =>
        peer_health_recording upstream_name))
      data (data.with_registry upstream_name fun registry =>
        (registry.with_health peer_url (run registry) missing).1) := by
  refine touches_registry_if data ?_ ?_
  · rintro recording hsome
    obtain ⟨-, -, rfl⟩ := Option.map_eq_some_iff.mp hsome
    rfl
  · intro hnone registry hregistry
    exact with_health_eq_self data hregistry (Option.map_eq_none_iff.mp hnone) _ _

/-- A request is marked where it is the first or the last. -/
theorem transition_recording {health : Option PeerHealth} {transitioned : PeerHealth → Bool}
    {recording other : Recording}
    (h : (health.bind fun health => if transitioned health then some recording else none) =
      some other) : other = recording := by
  obtain ⟨health, -, hmarked⟩ := Option.bind_eq_some_iff.mp h
  split at hmarked
  · exact (Option.some.inj hmarked).symm
  · cases hmarked

/-- The first request to an idle peer is marked. -/
theorem touches_track {peer_url : String}
    (h : ¬ ∃ health, data.get_health upstream_name peer_url = some health ∧
      health.active_requests ≠ 0) :
    Touches config
      (marked_cells ((data.get_health upstream_name peer_url).bind fun health =>
        if health.increment_active_requests.2 then some (peer_health_recording upstream_name)
        else none))
      data (data.with_registry upstream_name fun registry =>
        (registry.track_active_request peer_url).1) := by
  refine touches_registry_if data (fun _ => transition_recording) ?_
  intro hnone registry hregistry
  cases hhealth : data.get_health upstream_name peer_url with
  | none =>
    exact with_health_eq_self data hregistry hhealth PeerHealth.increment_active_requests false
  | some health =>
    have hidle : health.active_requests = 0 := by
      by_contra hactive
      exact h ⟨health, hhealth, hactive⟩
    simp [hhealth, PeerHealth.increment_active_requests, hidle] at hnone

/-- The end of the last request to a peer is marked; a count of zero stays. -/
theorem touches_drop_guard {peer : Option HealthCell}
    (h : ¬ ∃ health, data.guarded_health upstream_name peer = some health ∧
      1 < health.active_requests) :
    Touches config
      (marked_cells ((data.guarded_health upstream_name peer).bind fun health =>
        if health.decrement_active_requests.2 then some (peer_health_recording upstream_name)
        else none))
      data (data.with_registry upstream_name fun registry => registry.drop_guard peer) := by
  refine touches_registry_if data (fun _ => transition_recording) ?_
  intro hnone registry hregistry
  cases peer with
  | none => rfl
  | some cell =>
    have hguarded : data.guarded_health upstream_name (some cell) = some (registry.health cell) := by
      simp [SnapshotData.guarded_health, hregistry]
    have hfew : (registry.health cell).active_requests ≤ 1 := by
      by_contra hmany
      exact h ⟨_, hguarded, Nat.not_le.mp hmany⟩
    have hzero : (registry.health cell).active_requests = 0 := by
      rw [hguarded, Option.bind_some] at hnone
      by_contra hactive
      have hone : (registry.health cell).active_requests = 1 := by omega
      simp [PeerHealth.decrement_active_requests, hone] at hnone
    have hsame : (registry.health cell).decrement_active_requests.1 = registry.health cell := by
      unfold PeerHealth.decrement_active_requests
      dsimp only
      rw [hzero]
      exact congrArg (fun active_requests => { registry.health cell with active_requests })
        hzero.symm
    unfold PeerHealthRegistry.drop_guard
    dsimp only
    rw [hsame, Function.update_eq_self]

end Health

/-! ### Cache zones -/

section Zones

variable {zone_name : String}

/-- An operation on a zone that marks nothing leaves what the snapshot of the zone shows. -/
theorem touches_zone_if {change : CacheZoneRuntime → CacheZoneRuntime}
    {marked : CacheZoneRuntime → Option Recording}
    (hmarked : ∀ zone recording, marked zone = some recording →
      recording = cache_recording zone_name)
    (hnone : ∀ zone, marked zone = none → (change zone).snapshot = zone.snapshot) :
    Touches config (marked_cells ((data.zones zone_name).bind marked)) data
      (data.with_zone zone_name change) := by
  cases hzone : data.zones zone_name with
  | none => exact same_with_zone data (by simp [hzone]) _
  | some zone =>
    rw [Option.bind_some]
    cases hcase : marked zone with
    | none =>
      refine same_with_zone data ?_ _
      intro other hother
      obtain rfl := Option.some.inj (hzone.symm.trans hother)
      exact hnone zone hcase
    | some recording =>
      obtain rfl := hmarked zone recording hcase
      exact touches_zone data (by simp [marked_cells, Recording.cells, cache_recording])
        (by simp [marked_cells, Recording.cells, cache_recording])
        (by simp [marked_cells, Recording.cells, cache_recording])

theorem touches_known_zone (change : CacheZoneRuntime → CacheZoneRuntime) :
    Touches config
      (marked_cells ((data.zones zone_name).map fun _ => cache_recording zone_name)) data
      (data.with_zone zone_name change) := by
  rw [Option.map_eq_bind]
  exact touches_zone_if data (fun _ _ hsome => (Option.some.inj hsome).symm) (by simp)

/-- The cleanup and the purge count what they remove, and mark where that is not nothing. -/
theorem touches_zone_unless_none {change : CacheZoneRuntime → CacheZoneRuntime × Nat}
    (hnone : ∀ zone, (change zone).2 = 0 → (change zone).1.snapshot = zone.snapshot) :
    Touches config
      (marked_cells ((data.zones zone_name).bind fun zone =>
        if (change zone).2 = 0 then none else some (cache_recording zone_name))) data
      (data.with_zone zone_name fun zone => (change zone).1) := by
  refine touches_zone_if data ?_ ?_
  · intro zone recording hsome
    split at hsome
    · cases hsome
    · exact (Option.some.inj hsome).symm
  · intro zone hcase
    refine hnone zone ?_
    by_contra hsome
    rw [if_neg hsome] at hcase
    cases hcase

end Zones

/-! ### All operations -/

/-- The counters of the process that a response changes are none that the status shows. -/
theorem record_response_early_data (counters : HttpCounters) (status : Nat) :
    (counters.record_response status).downstream_http3_early_data_accepted_requests =
        counters.downstream_http3_early_data_accepted_requests ∧
      (counters.record_response status).downstream_http3_early_data_rejected_requests =
        counters.downstream_http3_early_data_rejected_requests := by
  unfold HttpCounters.record_response
  dsimp only
  split <;> exact ⟨rfl, rfl⟩

theorem touches_downstream_request (second : Nat) (listener_id vhost_id : String)
    (route_id : Option String) :
    Touches config
      (traffic_recording false true (some listener_id) (some vhost_id) route_id).cells data
      (data.record_downstream_request second listener_id vhost_id route_id) := by
  unfold SnapshotData.record_downstream_request
  refine Touches.trans ?_ (touches_traffic _ true listener_id vhost_id route_id ⟨?_, ?_⟩ _ _)
  · exact touches_count data (counters_mem _ _ _ _) (.inr fun _ => ⟨rfl, rfl⟩)
  · intro counters
    dsimp only
    split <;> rfl
  · intro counters snapshot
    dsimp only
    split <;> rfl

theorem touches_downstream_response (second : Nat) (listener_id vhost_id : String)
    (route_id : Option String) (status : Nat) :
    Touches config
      (traffic_recording false true (some listener_id) (some vhost_id) route_id).cells data
      (data.record_downstream_response second listener_id vhost_id route_id status) := by
  unfold SnapshotData.record_downstream_response
  refine Touches.trans ?_ (touches_traffic _ true listener_id vhost_id route_id ⟨?_, ?_⟩ _ _)
  · exact touches_count data (counters_mem _ _ _ _)
      (.inr fun counters => record_response_early_data counters status)
  · exact fun _ => rfl
  · exact fun _ _ => rfl

theorem touches_grpc_request (second : Nat) (listener_id vhost_id : String)
    (route_id : Option String) (protocol : String) :
    Touches config
      (traffic_recording false false (some listener_id) (some vhost_id) route_id).cells data
      (data.record_grpc_request second listener_id vhost_id route_id protocol) := by
  unfold SnapshotData.record_grpc_request
  refine touches_traffic data false listener_id vhost_id route_id ⟨?_, ?_⟩ _ _
  · exact fun _ => rfl
  · exact fun _ _ => rfl

theorem touches_grpc_status (listener_id vhost_id : String) (route_id : Option String)
    (status : Option String) :
    Touches config
      (traffic_recording false false (some listener_id) (some vhost_id) route_id).cells data
      (data.record_grpc_status listener_id vhost_id route_id status) := by
  unfold SnapshotData.record_grpc_status
  refine touches_traffic data false listener_id vhost_id route_id ⟨?_, ?_⟩ _ _
  · exact fun _ => rfl
  · exact fun _ _ => rfl

theorem touches_retain_connection_slot (listener_id : String) :
    Touches config
      (marked_cells ((data.listener_active_connections listener_id).map fun _ =>
        traffic_recording true false (some listener_id) none none))
      data (data.retain_connection_slot listener_id) := by
  unfold SnapshotData.retain_connection_slot
  cases hknown : data.listener_active_connections listener_id with
  | none => exact Touches.refl
  | some current =>
    change Touches config (traffic_recording true false (some listener_id) none none).cells data
      (data.with_connections listener_id (· + 1))
    exact touches_connections data (status_mem _ _ _ _) (traffic_mem _ _ _ _ _)
      (listener_mem _ _ _ _ _)

theorem touches_drop_connection_guard (listener_id : String) :
    Touches config (guard_recording listener_id).cells data
      (data.drop_active_connection_guard listener_id) := by
  refine touches_connections data ?_ ?_ ?_ <;> simp [Recording.cells, guard_recording]

/-- What an operation changes it marks, unless it is one of those that are silent. -/
theorem marks_what_it_changes (config : SnapshotConfig) (second : Nat) (data : SnapshotData)
    {operation : RecordingOperation} (h : ¬ operation.Silent data) :
    Touches config (operation.cells data) data (operation.update second data) := by
  cases operation with
  | record_downstream_request listener_id vhost_id route_id =>
    exact touches_downstream_request data second listener_id vhost_id route_id
  | record_downstream_response listener_id vhost_id route_id status =>
    exact touches_downstream_response data second listener_id vhost_id route_id status
  | record_grpc_request listener_id vhost_id route_id protocol =>
    exact touches_grpc_request data second listener_id vhost_id route_id protocol
  | record_grpc_status listener_id vhost_id route_id status =>
    exact touches_grpc_status data listener_id vhost_id route_id status
  | record_route_access_denied route_id =>
    exact touches_route data (traffic_mem _ _ _ _ _) (route_mem _ _ _ _ _)
  | record_route_rate_limited route_id =>
    exact touches_route data (traffic_mem _ _ _ _ _) (route_mem _ _ _ _ _)
  | record_mtls_handshake_success listener_id authenticated =>
    cases authenticated with
    | false => exact Touches.refl
    | true => exact touches_listener_and_process data listener_id _ _
  | record_mtls_request listener_id authenticated =>
    exact touches_listener_and_process data listener_id _ _
  | record_connection_accepted listener_id =>
    exact touches_listener_and_process data listener_id _ _
  | record_tls_handshake_failure listener_id reason =>
    exact touches_listener_and_process data listener_id _ _
  | record_connection_rejected listener_id =>
    exact touches_listener_and_process data listener_id _ _
  | record_http3_early_data_accepted_request listener_id =>
    exact touches_listener_and_process data listener_id _ _
  | record_http3_early_data_rejected_request listener_id =>
    exact touches_listener_and_process data listener_id _ _
  | record_http3_retry_issued listener_id => exact touches_listener_only data listener_id _
  | record_http3_retry_failed listener_id => exact touches_listener_only data listener_id _
  | record_http3_request_accept_error listener_id => exact touches_listener_only data listener_id _
  | record_http3_request_resolve_error listener_id =>
    exact touches_listener_only data listener_id _
  | record_http3_request_body_stream_error listener_id =>
    exact touches_listener_only data listener_id _
  | record_http3_response_stream_error listener_id =>
    exact touches_listener_only data listener_id _
  | record_http3_connection_close listener_id reason =>
    exact touches_listener_only data listener_id _
  | retain_connection_slot listener_id => exact touches_retain_connection_slot data listener_id
  | retain_http3_connection listener_id => exact touches_known_listener data listener_id _
  | retain_http3_request_stream listener_id => exact touches_known_listener data listener_id _
  | drop_active_connection_guard listener_id =>
    exact touches_drop_connection_guard data listener_id
  | drop_active_http3_connection_guard listener_id =>
    exact touches_guard_counters data listener_id _
  | drop_active_http3_request_stream_guard listener_id =>
    exact touches_guard_counters data listener_id _
  | record_upstream_request upstream_name => exact touches_count_upstream data _
  | record_upstream_failover upstream_name => exact touches_count_upstream data _
  | record_upstream_completed_response upstream_name => exact touches_count_upstream data _
  | record_upstream_bad_gateway_response upstream_name => exact touches_count_upstream data _
  | record_upstream_gateway_timeout_response upstream_name => exact touches_count_upstream data _
  | record_upstream_bad_request_response upstream_name => exact touches_count_upstream data _
  | record_upstream_payload_too_large_response upstream_name =>
    exact touches_count_upstream data _
  | record_upstream_unsupported_media_type_response upstream_name =>
    exact touches_count_upstream data _
  | record_upstream_no_healthy_peers upstream_name => exact touches_count_upstream data _
  | record_upstream_peer_attempt upstream_name peer_url => exact touches_count_peer data _ _ _
  | record_upstream_peer_success upstream_name peer_url => exact touches_count_peer data _ _ _
  | record_upstream_peer_failure upstream_name peer_url => exact touches_count_peer data _ _ _
  | record_upstream_peer_timeout upstream_name peer_url => exact touches_count_peer data _ _ _
  | record_upstream_peer_failure_class upstream_name failure_class =>
    exact touches_failure_class data failure_class
  | record_success upstream_name peer_url =>
    exact touches_health data peer_url (fun _ => PeerHealth.record_success) false
  | record_failure upstream_name peer_url now =>
    exact touches_health data peer_url
      (fun registry => PeerHealth.record_failure registry.policy now) ⟨0, false⟩
  | record_active_success upstream_name peer_url healthy_successes_required =>
    exact touches_health data peer_url
      (fun _ => PeerHealth.record_active_success healthy_successes_required) ⟨true, false, 0⟩
  | record_active_failure upstream_name peer_url =>
    exact touches_health data peer_url (fun _ => PeerHealth.record_active_failure) false
  | track_active_request upstream_name peer_url => exact touches_track data h
  | drop_active_peer_guard upstream_name peer => exact touches_drop_guard data h
  | update_index_after_store zone_name => exact touches_known_zone data _
  | invalidate_zone_entries zone_name => exact touches_known_zone data _
  | clear_zone_invalidations zone_name => exact touches_known_zone data _
  | remove_zone_index_entry_if_matches zone_name key expected_entry shared_index =>
    refine touches_zone_if data ?_ ?_
    · intro zone recording hsome
      obtain ⟨-, -, rfl⟩ := Option.map_eq_some_iff.mp hsome
      rfl
    · intro zone hnone
      rw [after_removal_of_none (Option.map_eq_none_iff.mp hnone)]
  | cleanup_inactive_entries_in_zone zone_name hot_entries now shared_index =>
    exact touches_zone_unless_none data fun _ => snapshot_after_cleanup
  | purge_zone_entries zone_name order selector shared_index =>
    exact touches_zone_unless_none data fun _ => snapshot_after_purge
  | _ => exact absurd trivial h

end Marks

/-- The silent operations mark nothing. -/
theorem silent_marks_nothing {operation : RecordingOperation} {data : SnapshotData}
    (h : operation.Silent data) : operation.recording data = none := by
  cases operation with
  | track_active_request upstream_name peer_url =>
    obtain ⟨health, hhealth, hactive⟩ := h
    unfold RecordingOperation.recording
    dsimp only
    rw [hhealth, Option.bind_some]
    exact if_neg (by simpa [PeerHealth.increment_active_requests] using hactive)
  | drop_active_peer_guard upstream_name peer =>
    obtain ⟨health, hhealth, hmany⟩ := h
    have hstays : health.decrement_active_requests.2 = false := by
      unfold PeerHealth.decrement_active_requests
      dsimp only
      rw [decide_eq_false (show ¬ health.active_requests - 1 = 0 by omega), Bool.and_false]
    unfold RecordingOperation.recording
    dsimp only
    rw [hhealth, Option.bind_some, hstays]
    rfl
  | try_acquire_connection | ensure_endpoint | record_hit | record_miss | record_bypass
  | record_expired | record_stale | record_updating | record_revalidated | record_write_success
  | record_write_error | record_cache_admission_attempt | record_zone_shared_entry_access
  | sync_zone_shared_index_if_needed => rfl
  | _ => exact False.elim h

end rginx.state
