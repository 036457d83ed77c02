-- The counters that the snapshots show, from `state/counters`, with the functions that
-- count in them. An atomic counter is a `UInt64`; `fetch_add` and `fetch_sub` wrap.
import Rginx.RollingCounters

open rginx.counters

namespace rginx.state

/-! ## The process -/

inductive TlsHandshakeFailureReason
  | MissingClientCert | UnknownCa | BadCertificate | CertificateRevoked | VerifyDepthExceeded
  | Other
  deriving DecidableEq

structure HttpCounters where
  downstream_connections_accepted : UInt64 := 0
  downstream_connections_rejected : UInt64 := 0
  downstream_requests : UInt64 := 0
  downstream_responses : UInt64 := 0
  downstream_responses_1xx : UInt64 := 0
  downstream_responses_2xx : UInt64 := 0
  downstream_responses_3xx : UInt64 := 0
  downstream_responses_4xx : UInt64 := 0
  downstream_responses_5xx : UInt64 := 0
  downstream_mtls_authenticated_connections : UInt64 := 0
  downstream_mtls_authenticated_requests : UInt64 := 0
  downstream_mtls_anonymous_requests : UInt64 := 0
  downstream_tls_handshake_failures : UInt64 := 0
  downstream_tls_handshake_failures_missing_client_cert : UInt64 := 0
  downstream_tls_handshake_failures_unknown_ca : UInt64 := 0
  downstream_tls_handshake_failures_bad_certificate : UInt64 := 0
  downstream_tls_handshake_failures_certificate_revoked : UInt64 := 0
  downstream_tls_handshake_failures_verify_depth_exceeded : UInt64 := 0
  downstream_tls_handshake_failures_other : UInt64 := 0
  downstream_http3_early_data_accepted_requests : UInt64 := 0
  downstream_http3_early_data_rejected_requests : UInt64 := 0
  deriving DecidableEq

namespace HttpCounters

variable (counters : HttpCounters)

/-- The part of `record_downstream_response` that counts for the process. -/
def record_response (status : Nat) : HttpCounters :=
  let counters := { counters with downstream_responses := counters.downstream_responses + 1 }
  match status / 100 with
  | 1 => { counters with downstream_responses_1xx := counters.downstream_responses_1xx + 1 }
  | 2 => { counters with downstream_responses_2xx := counters.downstream_responses_2xx + 1 }
  | 3 => { counters with downstream_responses_3xx := counters.downstream_responses_3xx + 1 }
  | 4 => { counters with downstream_responses_4xx := counters.downstream_responses_4xx + 1 }
  | 5 => { counters with downstream_responses_5xx := counters.downstream_responses_5xx + 1 }
  | _ => counters

/-- The part of `record_mtls_request` that counts for the process. -/
def record_mtls_request (authenticated : Bool) : HttpCounters :=
  if authenticated then
    { counters with
      downstream_mtls_authenticated_requests := counters.downstream_mtls_authenticated_requests + 1 }
  else
    { counters with
      downstream_mtls_anonymous_requests := counters.downstream_mtls_anonymous_requests + 1 }

/-- The part of `record_tls_handshake_failure` that counts for the process. -/
def record_handshake_failure (reason : TlsHandshakeFailureReason) : HttpCounters :=
  let counters :=
    { counters with
      downstream_tls_handshake_failures := counters.downstream_tls_handshake_failures + 1 }
  match reason with
  | .MissingClientCert =>
    { counters with
      downstream_tls_handshake_failures_missing_client_cert :=
        counters.downstream_tls_handshake_failures_missing_client_cert + 1 }
  | .UnknownCa =>
    { counters with
      downstream_tls_handshake_failures_unknown_ca :=
        counters.downstream_tls_handshake_failures_unknown_ca + 1 }
  | .BadCertificate =>
    { counters with
      downstream_tls_handshake_failures_bad_certificate :=
        counters.downstream_tls_handshake_failures_bad_certificate + 1 }
  | .CertificateRevoked =>
    { counters with
      downstream_tls_handshake_failures_certificate_revoked :=
        counters.downstream_tls_handshake_failures_certificate_revoked + 1 }
  | .VerifyDepthExceeded =>
    { counters with
      downstream_tls_handshake_failures_verify_depth_exceeded :=
        counters.downstream_tls_handshake_failures_verify_depth_exceeded + 1 }
  | .Other =>
    { counters with
      downstream_tls_handshake_failures_other :=
        counters.downstream_tls_handshake_failures_other + 1 }

end HttpCounters

/-! ## Responses, recent traffic and gRPC -/

structure ResponseCounters where
  downstream_responses : UInt64 := 0
  downstream_responses_1xx : UInt64 := 0
  downstream_responses_2xx : UInt64 := 0
  downstream_responses_3xx : UInt64 := 0
  downstream_responses_4xx : UInt64 := 0
  downstream_responses_5xx : UInt64 := 0
  deriving DecidableEq

def ResponseCounters.record (counters : ResponseCounters) (status : Nat) : ResponseCounters :=
  let counters := { counters with downstream_responses := counters.downstream_responses + 1 }
  match status / 100 with
  | 1 => { counters with downstream_responses_1xx := counters.downstream_responses_1xx + 1 }
  | 2 => { counters with downstream_responses_2xx := counters.downstream_responses_2xx + 1 }
  | 3 => { counters with downstream_responses_3xx := counters.downstream_responses_3xx + 1 }
  | 4 => { counters with downstream_responses_4xx := counters.downstream_responses_4xx + 1 }
  | 5 => { counters with downstream_responses_5xx := counters.downstream_responses_5xx + 1 }
  | _ => counters

structure RecentTrafficStatsCounters where
  downstream_requests_total : RollingCounter := ⟨[]⟩
  downstream_responses_total : RollingCounter := ⟨[]⟩
  downstream_responses_2xx_total : RollingCounter := ⟨[]⟩
  downstream_responses_4xx_total : RollingCounter := ⟨[]⟩
  downstream_responses_5xx_total : RollingCounter := ⟨[]⟩
  grpc_requests_total : RollingCounter := ⟨[]⟩
  deriving DecidableEq

namespace RecentTrafficStatsCounters

variable (counters : RecentTrafficStatsCounters) (second : Nat)

def record_downstream_request : RecentTrafficStatsCounters :=
  { counters with
    downstream_requests_total := counters.downstream_requests_total.increment_at second }

def record_downstream_response (status : Nat) : RecentTrafficStatsCounters :=
  let counters :=
    { counters with
      downstream_responses_total := counters.downstream_responses_total.increment_at second }
  match status / 100 with
  | 2 =>
    { counters with
      downstream_responses_2xx_total := counters.downstream_responses_2xx_total.increment_at second }
  | 4 =>
    { counters with
      downstream_responses_4xx_total := counters.downstream_responses_4xx_total.increment_at second }
  | 5 =>
    { counters with
      downstream_responses_5xx_total := counters.downstream_responses_5xx_total.increment_at second }
  | _ => counters

def record_grpc_request : RecentTrafficStatsCounters :=
  { counters with grpc_requests_total := counters.grpc_requests_total.increment_at second }

end RecentTrafficStatsCounters

structure GrpcTrafficCounters where
  requests_total : UInt64 := 0
  protocol_grpc_total : UInt64 := 0
  protocol_grpc_web_total : UInt64 := 0
  protocol_grpc_web_text_total : UInt64 := 0
  status_0_total : UInt64 := 0
  status_1_total : UInt64 := 0
  status_3_total : UInt64 := 0
  status_4_total : UInt64 := 0
  status_7_total : UInt64 := 0
  status_8_total : UInt64 := 0
  status_12_total : UInt64 := 0
  status_14_total : UInt64 := 0
  status_other_total : UInt64 := 0
  deriving DecidableEq

namespace GrpcTrafficCounters

variable (counters : GrpcTrafficCounters)

def record_request (protocol : String) : GrpcTrafficCounters :=
  let counters := { counters with requests_total := counters.requests_total + 1 }
  match protocol with
  | "grpc" => { counters with protocol_grpc_total := counters.protocol_grpc_total + 1 }
  | "grpc-web" => { counters with protocol_grpc_web_total := counters.protocol_grpc_web_total + 1 }
  | "grpc-web-text" =>
    { counters with protocol_grpc_web_text_total := counters.protocol_grpc_web_text_total + 1 }
  | _ => counters

def record_status (status : Option String) : GrpcTrafficCounters :=
  match status with
  | some "0" => { counters with status_0_total := counters.status_0_total + 1 }
  | some "1" => { counters with status_1_total := counters.status_1_total + 1 }
  | some "3" => { counters with status_3_total := counters.status_3_total + 1 }
  | some "4" => { counters with status_4_total := counters.status_4_total + 1 }
  | some "7" => { counters with status_7_total := counters.status_7_total + 1 }
  | some "8" => { counters with status_8_total := counters.status_8_total + 1 }
  | some "12" => { counters with status_12_total := counters.status_12_total + 1 }
  | some "14" => { counters with status_14_total := counters.status_14_total + 1 }
  | _ => { counters with status_other_total := counters.status_other_total + 1 }

end GrpcTrafficCounters

/-! ## Listeners, virtual hosts and routes -/

structure RequestTrafficCounters where
  downstream_requests : UInt64 := 0
  unmatched_requests_total : UInt64 := 0
  responses : ResponseCounters := {}
  recent_60s : RecentTrafficStatsCounters := {}
  grpc : GrpcTrafficCounters := {}
  deriving DecidableEq

structure RouteTrafficCounters where
  downstream_requests : UInt64 := 0
  responses : ResponseCounters := {}
  access_denied_total : UInt64 := 0
  rate_limited_total : UInt64 := 0
  recent_60s : RecentTrafficStatsCounters := {}
  grpc : GrpcTrafficCounters := {}
  deriving DecidableEq

structure ListenerTrafficCounters where
  downstream_connections_accepted : UInt64 := 0
  downstream_connections_rejected : UInt64 := 0
  active_http3_connections : UInt64 := 0
  active_http3_request_streams : UInt64 := 0
  http3_retry_issued_total : UInt64 := 0
  http3_retry_failed_total : UInt64 := 0
  http3_request_accept_errors_total : UInt64 := 0
  http3_request_resolve_errors_total : UInt64 := 0
  http3_request_body_stream_errors_total : UInt64 := 0
  http3_response_stream_errors_total : UInt64 := 0
  http3_connection_close_version_mismatch_total : UInt64 := 0
  http3_connection_close_transport_error_total : UInt64 := 0
  http3_connection_close_connection_closed_total : UInt64 := 0
  http3_connection_close_application_closed_total : UInt64 := 0
  http3_connection_close_reset_total : UInt64 := 0
  http3_connection_close_timed_out_total : UInt64 := 0
  http3_connection_close_locally_closed_total : UInt64 := 0
  http3_connection_close_cids_exhausted_total : UInt64 := 0
  downstream_mtls_authenticated_connections : UInt64 := 0
  downstream_tls_handshake_failures : UInt64 := 0
  downstream_tls_handshake_failures_missing_client_cert : UInt64 := 0
  downstream_tls_handshake_failures_unknown_ca : UInt64 := 0
  downstream_tls_handshake_failures_bad_certificate : UInt64 := 0
  downstream_tls_handshake_failures_certificate_revoked : UInt64 := 0
  downstream_tls_handshake_failures_verify_depth_exceeded : UInt64 := 0
  downstream_tls_handshake_failures_other : UInt64 := 0
  downstream_http3_early_data_accepted_requests : UInt64 := 0
  downstream_http3_early_data_rejected_requests : UInt64 := 0
  downstream_requests : UInt64 := 0
  downstream_mtls_authenticated_requests : UInt64 := 0
  downstream_mtls_anonymous_requests : UInt64 := 0
  unmatched_requests_total : UInt64 := 0
  responses : ResponseCounters := {}
  recent_60s : RecentTrafficStatsCounters := {}
  grpc : GrpcTrafficCounters := {}
  deriving DecidableEq

/-- `quinn::ConnectionError`. -/
inductive ConnectionError
  | VersionMismatch | TransportError | ConnectionClosed | ApplicationClosed | Reset | TimedOut
  | LocallyClosed | CidsExhausted
  deriving DecidableEq

namespace ListenerTrafficCounters

variable (counters : ListenerTrafficCounters)

/-- The part of `record_mtls_request` that counts for the listener. -/
def record_mtls_request (authenticated : Bool) : ListenerTrafficCounters :=
  if authenticated then
    { counters with
      downstream_mtls_authenticated_requests := counters.downstream_mtls_authenticated_requests + 1 }
  else
    { counters with
      downstream_mtls_anonymous_requests := counters.downstream_mtls_anonymous_requests + 1 }

/-- The part of `record_tls_handshake_failure` that counts for the listener. -/
def record_handshake_failure (reason : TlsHandshakeFailureReason) : ListenerTrafficCounters :=
  let counters := match reason with
    | .MissingClientCert =>
      { counters with
        downstream_tls_handshake_failures_missing_client_cert :=
          counters.downstream_tls_handshake_failures_missing_client_cert + 1 }
    | .UnknownCa =>
      { counters with
        downstream_tls_handshake_failures_unknown_ca :=
          counters.downstream_tls_handshake_failures_unknown_ca + 1 }
    | .BadCertificate =>
      { counters with
        downstream_tls_handshake_failures_bad_certificate :=
          counters.downstream_tls_handshake_failures_bad_certificate + 1 }
    | .CertificateRevoked =>
      { counters with
        downstream_tls_handshake_failures_certificate_revoked :=
          counters.downstream_tls_handshake_failures_certificate_revoked + 1 }
    | .VerifyDepthExceeded =>
      { counters with
        downstream_tls_handshake_failures_verify_depth_exceeded :=
          counters.downstream_tls_handshake_failures_verify_depth_exceeded + 1 }
    | .Other =>
      { counters with
        downstream_tls_handshake_failures_other :=
          counters.downstream_tls_handshake_failures_other + 1 }
  { counters with
    downstream_tls_handshake_failures := counters.downstream_tls_handshake_failures + 1 }

/-- The part of `record_http3_connection_close` that counts. -/
def record_connection_close (reason : ConnectionError) : ListenerTrafficCounters :=
  match reason with
  | .VersionMismatch =>
    { counters with
      http3_connection_close_version_mismatch_total :=
        counters.http3_connection_close_version_mismatch_total + 1 }
  | .TransportError =>
    { counters with
      http3_connection_close_transport_error_total :=
        counters.http3_connection_close_transport_error_total + 1 }
  | .ConnectionClosed =>
    { counters with
      http3_connection_close_connection_closed_total :=
        counters.http3_connection_close_connection_closed_total + 1 }
  | .ApplicationClosed =>
    { counters with
      http3_connection_close_application_closed_total :=
        counters.http3_connection_close_application_closed_total + 1 }
  | .Reset =>
    { counters with
      http3_connection_close_reset_total := counters.http3_connection_close_reset_total + 1 }
  | .TimedOut =>
    { counters with
      http3_connection_close_timed_out_total := counters.http3_connection_close_timed_out_total + 1 }
  | .LocallyClosed =>
    { counters with
      http3_connection_close_locally_closed_total :=
        counters.http3_connection_close_locally_closed_total + 1 }
  | .CidsExhausted =>
    { counters with
      http3_connection_close_cids_exhausted_total :=
        counters.http3_connection_close_cids_exhausted_total + 1 }

end ListenerTrafficCounters

/-! ## Upstreams -/

structure RecentUpstreamStatsCounters where
  downstream_requests_total : RollingCounter := ⟨[]⟩
  peer_attempts_total : RollingCounter := ⟨[]⟩
  completed_responses_total : RollingCounter := ⟨[]⟩
  bad_gateway_responses_total : RollingCounter := ⟨[]⟩
  gateway_timeout_responses_total : RollingCounter := ⟨[]⟩
  failovers_total : RollingCounter := ⟨[]⟩
  deriving DecidableEq

structure UpstreamStats where
  downstream_requests_total : UInt64 := 0
  peer_attempts_total : UInt64 := 0
  peer_successes_total : UInt64 := 0
  peer_failures_total : UInt64 := 0
  peer_timeouts_total : UInt64 := 0
  failovers_total : UInt64 := 0
  completed_responses_total : UInt64 := 0
  bad_gateway_responses_total : UInt64 := 0
  gateway_timeout_responses_total : UInt64 := 0
  bad_request_responses_total : UInt64 := 0
  payload_too_large_responses_total : UInt64 := 0
  unsupported_media_type_responses_total : UInt64 := 0
  no_healthy_peers_total : UInt64 := 0
  tls_failures_unknown_ca_total : UInt64 := 0
  tls_failures_bad_certificate_total : UInt64 := 0
  tls_failures_certificate_revoked_total : UInt64 := 0
  tls_failures_verify_depth_exceeded_total : UInt64 := 0
  recent_60s : RecentUpstreamStatsCounters := {}
  deriving DecidableEq

structure UpstreamPeerStats where
  attempts_total : UInt64 := 0
  successes_total : UInt64 := 0
  failures_total : UInt64 := 0
  timeouts_total : UInt64 := 0
  deriving DecidableEq

/-- The counters of `UpstreamStatsEntry`. -/
structure UpstreamStatsEntry where
  counters : UpstreamStats := {}
  peers : String → Option UpstreamPeerStats := fun _ => none

/-! ## Cache zones -/

structure CacheZoneStats where
  hit_total : UInt64 := 0
  miss_total : UInt64 := 0
  bypass_total : UInt64 := 0
  expired_total : UInt64 := 0
  stale_total : UInt64 := 0
  updating_total : UInt64 := 0
  revalidated_total : UInt64 := 0
  write_success_total : UInt64 := 0
  write_error_total : UInt64 := 0
  eviction_total : UInt64 := 0
  purge_total : UInt64 := 0
  invalidation_total : UInt64 := 0
  inactive_cleanup_total : UInt64 := 0
  deriving DecidableEq

namespace CacheZoneStats

variable (stats : CacheZoneStats)

def record_hit : CacheZoneStats := { stats with hit_total := stats.hit_total + 1 }

def record_miss : CacheZoneStats := { stats with miss_total := stats.miss_total + 1 }

def record_bypass : CacheZoneStats := { stats with bypass_total := stats.bypass_total + 1 }

def record_expired : CacheZoneStats := { stats with expired_total := stats.expired_total + 1 }

def record_stale : CacheZoneStats := { stats with stale_total := stats.stale_total + 1 }

def record_updating : CacheZoneStats := { stats with updating_total := stats.updating_total + 1 }

def record_revalidated : CacheZoneStats :=
  { stats with revalidated_total := stats.revalidated_total + 1 }

def record_write_success : CacheZoneStats :=
  { stats with write_success_total := stats.write_success_total + 1 }

def record_write_error : CacheZoneStats :=
  { stats with write_error_total := stats.write_error_total + 1 }

/-- The four that count more than one thing at a time do nothing for none. -/
def record_evictions (count : Nat) : CacheZoneStats :=
  if 0 < count then { stats with eviction_total := stats.eviction_total + .ofNat count } else stats

def record_purge (count : Nat) : CacheZoneStats :=
  if 0 < count then { stats with purge_total := stats.purge_total + .ofNat count } else stats

def record_invalidation (count : Nat) : CacheZoneStats :=
  if 0 < count then { stats with invalidation_total := stats.invalidation_total + .ofNat count }
  else stats

def record_inactive_cleanup (count : Nat) : CacheZoneStats :=
  if 0 < count then
    { stats with inactive_cleanup_total := stats.inactive_cleanup_total + .ofNat count }
  else stats

end CacheZoneStats

end rginx.state
