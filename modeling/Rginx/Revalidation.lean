-- The requests that revalidate an entry, from `cache/runtime/context.rs`,
-- `proxy/forward` and `proxy/common.rs`: the headers that reach the upstream,
-- and which answers refresh the entry. A client sends conditions of its own,
-- and those of the entry take their place only where the entry has them.
import Rginx.StaleServing
import Rginx.RangeRequests

open rust_text

namespace rginx.cache

def CONNECTION : HeaderName := ⟨"connection", by decide⟩
def ETAG : HeaderName := ⟨"etag", by decide⟩
def IF_MODIFIED_SINCE : HeaderName := ⟨"if-modified-since", by decide⟩
def IF_NONE_MATCH : HeaderName := ⟨"if-none-match", by decide⟩
def KEEP_ALIVE : HeaderName := ⟨"keep-alive", by decide⟩
def LAST_MODIFIED : HeaderName := ⟨"last-modified", by decide⟩
def PROXY_AUTHENTICATE : HeaderName := ⟨"proxy-authenticate", by decide⟩
def PROXY_AUTHORIZATION : HeaderName := ⟨"proxy-authorization", by decide⟩
def PROXY_CONNECTION : HeaderName := ⟨"proxy-connection", by decide⟩
def TE : HeaderName := ⟨"te", by decide⟩
def TRAILER : HeaderName := ⟨"trailer", by decide⟩
def TRANSFER_ENCODING : HeaderName := ⟨"transfer-encoding", by decide⟩
def UPGRADE : HeaderName := ⟨"upgrade", by decide⟩
def X_FORWARDED_HOST : HeaderName := ⟨"x-forwarded-host", by decide⟩
def X_FORWARDED_PROTO : HeaderName := ⟨"x-forwarded-proto", by decide⟩
def X_GRPC_WEB : HeaderName := ⟨"x-grpc-web", by decide⟩

def NOT_MODIFIED : StatusCode := 304

/-! ## The conditions of an entry -/

structure CacheConditionalHeaders where
  if_none_match : Option HeaderValue
  if_modified_since : Option HeaderValue
  deriving DecidableEq

def build_conditional_headers (headers : HeaderMap) : Option CacheConditionalHeaders :=
  let if_none_match := (headers.get_str ETAG).bind HeaderValue.from_str
  let if_modified_since := (headers.get_str LAST_MODIFIED).bind HeaderValue.from_str
  if if_none_match.isSome || if_modified_since.isSome then
    some ⟨if_none_match, if_modified_since⟩
  else none

/-- `prepare_cached_response_head` builds them when it reads the headers. -/
def PreparedCacheResponseHead.conditional_headers (head : PreparedCacheResponseHead) :
    Option CacheConditionalHeaders :=
  build_conditional_headers head.headers

/-- A `CacheStoreContext` with the fields that make the request to the upstream. -/
structure UpstreamContext extends CacheStoreContext where
  request : CacheRequest
  store_response : Bool

namespace UpstreamContext

def apply_upstream_request_headers (context : UpstreamContext) (headers : HeaderMap) :
    HeaderMap :=
  apply_upstream_range_headers context.request.method headers context.policy

def apply_conditional_request_headers (context : UpstreamContext) (headers : HeaderMap) :
    HeaderMap :=
  match context.cached_response_head.bind PreparedCacheResponseHead.conditional_headers with
  | none => headers
  | some conditional_headers =>
    let headers :=
      match conditional_headers.if_none_match with
      | some value => headers.insert IF_NONE_MATCH value
      | none => headers
    match conditional_headers.if_modified_since with
    | some value => headers.insert IF_MODIFIED_SINCE value
    | none => headers

def should_refresh_from_not_modified (context : UpstreamContext) (status : StatusCode) : Bool :=
  context.cached_entry.isSome && status = NOT_MODIFIED

/-- The headers of the request before it is prepared for a peer, in `forward_request` (which
leaves a request alone whose response is not stored) or in the refresh in the background. -/
def forwarded_headers (context : UpstreamContext) (background : Bool) : HeaderMap :=
  if background || context.store_response then
    context.apply_conditional_request_headers
      (context.apply_upstream_request_headers context.request.headers)
  else context.request.headers

end UpstreamContext

/-! ## The headers for a peer -/

inductive UpstreamProtocol
  | Auto
  | Http1
  | Http2
  | H2c
  | Http3
  deriving DecidableEq

inductive ProxyHeaderOverride
  | Set (name : HeaderName) (value : HeaderValue)
  | Remove (name : HeaderName)

def ProxyHeaderOverride.name : ProxyHeaderOverride → HeaderName
  | .Set name _ => name
  | .Remove name => name

/-- The values that the override leaves for its name. -/
def ProxyHeaderOverride.values : ProxyHeaderOverride → List HeaderValue
  | .Set _ value => [value]
  | .Remove _ => []

def ProxyHeaderOverride.apply (headers : HeaderMap) : ProxyHeaderOverride → HeaderMap
  | .Set name value => headers.insert name value
  | .Remove name => headers.remove name

/-- What the headers for a peer are made from, beside the headers of the request. The overrides
of the route are rendered. -/
structure PeerTarget where
  upstream_authority : Text
  scheme : Text
  protocol : UpstreamProtocol
  forwarded_for : Text
  forwarded_proto : Text
  preserve_host : Bool
  proxy_header_overrides : List ProxyHeaderOverride
  /-- The `upstream_content_type` of a gRPC-Web request. -/
  grpc_web_mode : Option HeaderValue

/-- The items of the `Connection` headers. -/
def connection_items (headers : HeaderMap) : List Text :=
  ((headers.get_all CONNECTION).filterMap HeaderValue.to_str).flatMap fun value =>
    (split ',' value).map trim

def connection_header_contains_token (headers : HeaderMap) (token : Text) : Bool :=
  (connection_items headers).any fun item => eq_ignore_ascii_case item token

def extract_upgrade_protocol (headers : HeaderMap) : Option HeaderValue :=
  if connection_header_contains_token headers "upgrade".toList then headers.get UPGRADE else none

/-- `HeaderValue::from_static("trailers")`. -/
def TRAILERS : HeaderValue := ⟨"trailers".toList.flatMap String.utf8EncodeChar, by decide +kernel⟩

def preserved_te_trailers_value (headers : HeaderMap) : Option HeaderValue := do
  let values ← (headers.get_all TE).mapM HeaderValue.to_str
  let tokens := (values.flatMap fun value => (split ',' value).map trim).filter (· ≠ [])
  if tokens ≠ [] ∧ tokens.all fun token => eq_ignore_ascii_case token "trailers".toList then
    some TRAILERS
  else none

/-- The names that the `Connection` headers give. -/
def connection_names (headers : HeaderMap) : List HeaderName :=
  ((connection_items headers).filter (· ≠ [])).filterMap fun item =>
    HeaderName.parse (String.ofList item)

def remove_all (headers : HeaderMap) (names : List HeaderName) : HeaderMap :=
  names.foldl HeaderMap.remove headers

def hop_by_hop_names : List HeaderName :=
  [CONNECTION, PROXY_AUTHENTICATE, PROXY_AUTHORIZATION, TE, TRAILER, TRANSFER_ENCODING, UPGRADE]

def remove_hop_by_hop_headers (headers : HeaderMap) (preserve_upgrade : Bool) : HeaderMap :=
  let extra_headers := (connection_names headers).filter fun name =>
    !(preserve_upgrade && name = UPGRADE)
  let names := hop_by_hop_names.filter fun name =>
    !(preserve_upgrade && (name = CONNECTION || name = UPGRADE))
  ((remove_all (remove_all headers extra_headers) names).remove KEEP_ALIVE).remove
    PROXY_CONNECTION

/-- The headers that tell the upstream whom the request is for and where it comes from. -/
def insert_forwarding_headers (headers : HeaderMap) (original_host : Option HeaderValue)
    (host forwarded_proto forwarded_for : HeaderValue) : HeaderMap :=
  let headers := (headers.insert HOST host).insert X_FORWARDED_PROTO forwarded_proto
  let headers :=
    match original_host with
    | some host => headers.insert X_FORWARDED_HOST host
    | none => headers
  headers.insert X_FORWARDED_FOR forwarded_for

/-- The type of a gRPC-Web request, and the trailers that it takes. -/
def insert_trailers_headers (headers : HeaderMap) (te_trailers grpc_web_mode : Option HeaderValue) :
    HeaderMap :=
  match grpc_web_mode with
  | some upstream_content_type =>
    let headers := ((headers.insert CONTENT_TYPE upstream_content_type).remove
      CONTENT_LENGTH).remove X_GRPC_WEB
    if (headers.get TE).isNone then headers.insert TE TRAILERS else headers
  | none =>
    match te_trailers with
    | some te_trailers => if (headers.get TE).isNone then headers.insert TE te_trailers else headers
    | none => headers

/-- `HeaderValue::from_static("upgrade")`. -/
def CONNECTION_UPGRADE : HeaderValue :=
  ⟨"upgrade".toList.flatMap String.utf8EncodeChar, by decide +kernel⟩

def insert_upgrade_headers (headers : HeaderMap) : Option HeaderValue → HeaderMap
  | some upgrade_protocol =>
    (headers.insert CONNECTION CONNECTION_UPGRADE).insert UPGRADE upgrade_protocol
  | none => headers

def upstream_host (original_host : Option HeaderValue) (target : PeerTarget) :
    Option HeaderValue :=
  if target.preserve_host then original_host.or (HeaderValue.from_str target.upstream_authority)
  else HeaderValue.from_str target.upstream_authority

/-- Nothing stands for a text that is no header value. -/
def sanitize_request_headers (headers : HeaderMap) (original_host : Option HeaderValue)
    (target : PeerTarget) : Option HeaderMap := do
  let upgrade_protocol := extract_upgrade_protocol headers
  let te_trailers := preserved_te_trailers_value headers
  let headers := remove_hop_by_hop_headers headers upgrade_protocol.isSome
  let host ← upstream_host original_host target
  let forwarded_proto ← HeaderValue.from_str target.forwarded_proto
  let forwarded_for ← HeaderValue.from_str target.forwarded_for
  let headers := insert_forwarding_headers headers original_host host forwarded_proto forwarded_for
  let headers := insert_trailers_headers headers te_trailers target.grpc_web_mode
  let headers := insert_upgrade_headers headers upgrade_protocol
  return target.proxy_header_overrides.foldl ProxyHeaderOverride.apply headers

def may_use_authority_pseudo_header (target : PeerTarget) : Bool :=
  target.protocol = .Http2 || target.protocol = .H2c || target.protocol = .Http3 ||
    (target.protocol = .Auto && target.scheme = "https".toList)

/-- `u8::to_ascii_lowercase`. -/
def ascii_lowercase_byte (b : UInt8) : UInt8 := if 65 ≤ b ∧ b ≤ 90 then b + 32 else b

def remove_redundant_host_header_for_authority_pseudo_header (headers : HeaderMap)
    (target : PeerTarget) : HeaderMap :=
  if !may_use_authority_pseudo_header target then headers
  else
    match headers.get HOST with
    | none => headers
    | some host =>
      if host.as_bytes.map ascii_lowercase_byte =
          (target.upstream_authority.flatMap String.utf8EncodeChar).map ascii_lowercase_byte then
        headers.remove HOST
      else headers

/-- The headers of the request that `build_for_peer` builds. -/
def build_for_peer (headers : HeaderMap) (target : PeerTarget) : Option HeaderMap := do
  let headers ← sanitize_request_headers headers (headers.get HOST) target
  return remove_redundant_host_header_for_authority_pseudo_header headers target

/-- The headers that are sent upstream for a context. -/
def UpstreamContext.sent_headers (context : UpstreamContext) (background : Bool)
    (target : PeerTarget) : Option HeaderMap :=
  build_for_peer (context.forwarded_headers background) target

/-! ## What becomes of a header -/

/-- The names that the proxy sets or removes for itself. -/
def proxy_names : List HeaderName :=
  hop_by_hop_names ++ [KEEP_ALIVE, PROXY_CONNECTION, HOST, X_FORWARDED_FOR, X_FORWARDED_HOST,
    X_FORWARDED_PROTO, CONTENT_TYPE, CONTENT_LENGTH, X_GRPC_WEB]

/-- The last override of a name. -/
def last_override (name : HeaderName) : List ProxyHeaderOverride → Option ProxyHeaderOverride
  | [] => none
  | override :: overrides =>
    (last_override name overrides).or (if override.name = name then some override else none)

section Header

variable {name : HeaderName} (hname : name ∉ proxy_names)

theorem ne_of_mem_proxy_names {name other : HeaderName} (hname : name ∉ proxy_names)
    (hother : other ∈ proxy_names) : name ≠ other := by
  rintro rfl
  exact hname hother

theorem get_all_remove_all (names : List HeaderName) (headers : HeaderMap) :
    (remove_all headers names).get_all name = if name ∈ names then [] else headers.get_all name := by
  induction names generalizing headers with
  | nil => rfl
  | cons removed names ih =>
    have hstep : remove_all headers (removed :: names) =
      remove_all (headers.remove removed) names := rfl
    rw [hstep, ih]
    by_cases hrest : name ∈ names
    · simp [hrest]
    by_cases hremoved : name = removed
    · subst hremoved
      simp [HeaderMap.get_all_remove_self]
    · simp [hrest, hremoved, HeaderMap.get_all_remove_of_ne headers hremoved]

include hname in
theorem get_all_remove_hop_by_hop (headers : HeaderMap) (preserve_upgrade : Bool) :
    (remove_hop_by_hop_headers headers preserve_upgrade).get_all name =
      if name ∈ connection_names headers then [] else headers.get_all name := by
  have hfixed : name ∉ hop_by_hop_names.filter fun name =>
      !(preserve_upgrade && (name = CONNECTION || name = UPGRADE)) := by
    intro hmem
    exact hname (List.mem_append_left _ (List.mem_filter.mp hmem).1)
  have hupgrade : name ≠ UPGRADE := ne_of_mem_proxy_names hname (by decide)
  have hkept : (name ∈ (connection_names headers).filter fun name =>
      !(preserve_upgrade && name = UPGRADE)) ↔ name ∈ connection_names headers := by
    simp [List.mem_filter, hupgrade]
  unfold remove_hop_by_hop_headers
  rw [HeaderMap.get_all_remove_of_ne _ (ne_of_mem_proxy_names hname (by decide)),
    HeaderMap.get_all_remove_of_ne _ (ne_of_mem_proxy_names hname (by decide)),
    get_all_remove_all, if_neg hfixed, get_all_remove_all]
  simp only [hkept]

theorem get_all_overrides (overrides : List ProxyHeaderOverride) (headers : HeaderMap) :
    HeaderMap.get_all (overrides.foldl ProxyHeaderOverride.apply headers) name =
      ((last_override name overrides).map ProxyHeaderOverride.values).getD
        (headers.get_all name) := by
  induction overrides generalizing headers with
  | nil => rfl
  | cons override overrides ih =>
    have hlast : last_override name (override :: overrides) = (last_override name overrides).or
      (if override.name = name then some override else none) := rfl
    rw [List.foldl_cons, ih, hlast]
    rcases last_override name overrides with _ | last
    · by_cases hsame : override.name = name
      · rw [if_pos hsame]
        subst hsame
        cases override with
        | Set name value => simp [ProxyHeaderOverride.apply, ProxyHeaderOverride.name,
            ProxyHeaderOverride.values]
        | Remove name => simp [ProxyHeaderOverride.apply, ProxyHeaderOverride.name,
            ProxyHeaderOverride.values, HeaderMap.get_all_remove_self]
      · rw [if_neg hsame]
        cases override with
        | Set other value =>
          exact HeaderMap.get_all_insert_of_ne headers value (Ne.symm hsame)
        | Remove other => exact HeaderMap.get_all_remove_of_ne headers (Ne.symm hsame)
    · rfl

include hname in
theorem get_all_insert_forwarding (headers : HeaderMap) (original_host : Option HeaderValue)
    (host forwarded_proto forwarded_for : HeaderValue) :
    (insert_forwarding_headers headers original_host host forwarded_proto
      forwarded_for).get_all name = headers.get_all name := by
  have hhost : name ≠ HOST := ne_of_mem_proxy_names hname (by decide)
  have hproto : name ≠ X_FORWARDED_PROTO := ne_of_mem_proxy_names hname (by decide)
  have hforwarded : name ≠ X_FORWARDED_FOR := ne_of_mem_proxy_names hname (by decide)
  have horiginal : name ≠ X_FORWARDED_HOST := ne_of_mem_proxy_names hname (by decide)
  unfold insert_forwarding_headers
  rw [HeaderMap.get_all_insert_of_ne _ _ hforwarded]
  cases original_host with
  | none =>
    dsimp only
    rw [HeaderMap.get_all_insert_of_ne _ _ hproto, HeaderMap.get_all_insert_of_ne _ _ hhost]
  | some original =>
    dsimp only
    rw [HeaderMap.get_all_insert_of_ne _ _ horiginal, HeaderMap.get_all_insert_of_ne _ _ hproto,
      HeaderMap.get_all_insert_of_ne _ _ hhost]

include hname in
theorem get_all_insert_trailers (headers : HeaderMap)
    (te_trailers grpc_web_mode : Option HeaderValue) :
    (insert_trailers_headers headers te_trailers grpc_web_mode).get_all name =
      headers.get_all name := by
  have hte : name ≠ TE := ne_of_mem_proxy_names hname (by decide)
  have htype : name ≠ CONTENT_TYPE := ne_of_mem_proxy_names hname (by decide)
  have hlength : name ≠ CONTENT_LENGTH := ne_of_mem_proxy_names hname (by decide)
  have hweb : name ≠ X_GRPC_WEB := ne_of_mem_proxy_names hname (by decide)
  unfold insert_trailers_headers
  cases grpc_web_mode with
  | some upstream_content_type =>
    have htyped : (((headers.insert CONTENT_TYPE upstream_content_type).remove
        CONTENT_LENGTH).remove X_GRPC_WEB).get_all name = headers.get_all name := by
      rw [HeaderMap.get_all_remove_of_ne _ hweb, HeaderMap.get_all_remove_of_ne _ hlength,
        HeaderMap.get_all_insert_of_ne _ _ htype]
    dsimp only
    split
    · rw [HeaderMap.get_all_insert_of_ne _ _ hte, htyped]
    · exact htyped
  | none =>
    cases te_trailers with
    | none => rfl
    | some te_trailers =>
      dsimp only
      split
      · exact HeaderMap.get_all_insert_of_ne _ _ hte
      · rfl

include hname in
theorem get_all_insert_upgrade (headers : HeaderMap) (upgrade_protocol : Option HeaderValue) :
    (insert_upgrade_headers headers upgrade_protocol).get_all name = headers.get_all name := by
  have hconnection : name ≠ CONNECTION := ne_of_mem_proxy_names hname (by decide)
  have hupgrade : name ≠ UPGRADE := ne_of_mem_proxy_names hname (by decide)
  cases upgrade_protocol with
  | none => rfl
  | some protocol =>
    unfold insert_upgrade_headers
    rw [HeaderMap.get_all_insert_of_ne _ _ hupgrade,
      HeaderMap.get_all_insert_of_ne _ _ hconnection]

include hname in
/-- A header that is none of the proxy's own reaches the peer unless `Connection` names it or the
route overrides it. -/
theorem get_all_sanitize {headers sent : HeaderMap} {original_host : Option HeaderValue}
    {target : PeerTarget} (h : sanitize_request_headers headers original_host target = some sent) :
    sent.get_all name =
      ((last_override name target.proxy_header_overrides).map ProxyHeaderOverride.values).getD
        (if name ∈ connection_names headers then [] else headers.get_all name) := by
  unfold sanitize_request_headers at h
  simp only [Option.bind_eq_bind, Option.bind_eq_some_iff, Option.pure_def] at h
  obtain ⟨host, -, proto, -, forwarded, -, hsent⟩ := h
  obtain rfl := Option.some.inj hsent
  rw [get_all_overrides, get_all_insert_upgrade hname, get_all_insert_trailers hname,
    get_all_insert_forwarding hname, get_all_remove_hop_by_hop hname]

include hname in
theorem get_all_build_for_peer {headers sent : HeaderMap} {target : PeerTarget}
    (h : build_for_peer headers target = some sent) :
    sent.get_all name =
      ((last_override name target.proxy_header_overrides).map ProxyHeaderOverride.values).getD
        (if name ∈ connection_names headers then [] else headers.get_all name) := by
  have hhost : name ≠ HOST := ne_of_mem_proxy_names hname (by decide)
  unfold build_for_peer at h
  simp only [Option.bind_eq_bind, Option.bind_eq_some_iff, Option.pure_def] at h
  obtain ⟨sanitized, hsanitized, hsent⟩ := h
  obtain rfl := Option.some.inj hsent
  rw [← get_all_sanitize hname hsanitized]
  unfold remove_redundant_host_header_for_authority_pseudo_header
  split
  · rfl
  · split
    · rfl
    · split
      · exact HeaderMap.get_all_remove_of_ne _ hhost
      · rfl

theorem get_all_range_headers (hrange : name ≠ RANGE) (method : Method) (headers : HeaderMap)
    (policy : RouteCachePolicy) :
    (apply_upstream_range_headers method headers policy).get_all name = headers.get_all name := by
  unfold apply_upstream_range_headers
  split
  · rfl
  · split
    · rw [HeaderMap.get_all_insert_of_ne _ _ hrange, HeaderMap.get_all_remove_of_ne _ hrange]
    · rfl

end Header

/-! ## The conditions that are sent -/

namespace UpstreamContext

/-- What the entry says for a condition. -/
def if_none_match (context : UpstreamContext) : Option HeaderValue :=
  (context.cached_response_head.bind PreparedCacheResponseHead.conditional_headers).bind
    CacheConditionalHeaders.if_none_match

def if_modified_since (context : UpstreamContext) : Option HeaderValue :=
  (context.cached_response_head.bind PreparedCacheResponseHead.conditional_headers).bind
    CacheConditionalHeaders.if_modified_since

theorem get_all_conditional_none_match (context : UpstreamContext) (headers : HeaderMap) :
    (context.apply_conditional_request_headers headers).get_all IF_NONE_MATCH =
      (context.if_none_match.map fun value => [value]).getD (headers.get_all IF_NONE_MATCH) := by
  have hne : IF_NONE_MATCH ≠ IF_MODIFIED_SINCE := by decide
  unfold apply_conditional_request_headers if_none_match
  rcases context.cached_response_head.bind PreparedCacheResponseHead.conditional_headers with
    _ | ⟨if_none_match, if_modified_since⟩
  · rfl
  · dsimp only [Option.bind_some]
    rcases if_modified_since with _ | since <;> rcases if_none_match with _ | etag
    · rfl
    · simp
    · simp [HeaderMap.get_all_insert_of_ne _ _ hne]
    · simp [HeaderMap.get_all_insert_of_ne _ _ hne]

theorem get_all_conditional_modified_since (context : UpstreamContext) (headers : HeaderMap) :
    (context.apply_conditional_request_headers headers).get_all IF_MODIFIED_SINCE =
      (context.if_modified_since.map fun value => [value]).getD
        (headers.get_all IF_MODIFIED_SINCE) := by
  have hne : IF_MODIFIED_SINCE ≠ IF_NONE_MATCH := by decide
  unfold apply_conditional_request_headers if_modified_since
  rcases context.cached_response_head.bind PreparedCacheResponseHead.conditional_headers with
    _ | ⟨if_none_match, if_modified_since⟩
  · rfl
  · dsimp only [Option.bind_some]
    rcases if_modified_since with _ | since <;> rcases if_none_match with _ | etag
    · rfl
    · simp [HeaderMap.get_all_insert_of_ne _ _ hne]
    · simp
    · simp

theorem get_all_conditional_of_ne (context : UpstreamContext) (headers : HeaderMap)
    {name : HeaderName} (hmatch : name ≠ IF_NONE_MATCH) (hsince : name ≠ IF_MODIFIED_SINCE) :
    (context.apply_conditional_request_headers headers).get_all name = headers.get_all name := by
  unfold apply_conditional_request_headers
  split
  · rfl
  · dsimp only
    split <;> split <;> simp [HeaderMap.get_all_insert_of_ne _ _ hmatch,
      HeaderMap.get_all_insert_of_ne _ _ hsince]

/-- Only the entry has a say in the conditions that are sent. -/
def OnlyValidators (context : UpstreamContext) (sent : HeaderMap) : Prop :=
  (∀ value ∈ sent.get_all IF_NONE_MATCH, context.if_none_match = some value) ∧
    ∀ value ∈ sent.get_all IF_MODIFIED_SINCE, context.if_modified_since = some value

/-- What the client says for a condition does not reach the upstream: the route overrides it,
`Connection` names it, the entry has a validator that takes its place, or there is nothing but
that validator. -/
def Superseded (context : UpstreamContext) (background : Bool) (target : PeerTarget)
    (name : HeaderName) (validator : Option HeaderValue) : Prop :=
  match last_override name target.proxy_header_overrides with
  | some override => ∀ value ∈ override.values, validator = some value
  | none =>
    name ∈ connection_names context.request.headers ∨
      ((background = true ∨ context.store_response = true) ∧ validator.isSome) ∨
      ∀ value ∈ context.request.headers.get_all name, validator = some value

theorem connection_names_forwarded (context : UpstreamContext) (background : Bool) :
    connection_names (context.forwarded_headers background) =
      connection_names context.request.headers := by
  have hsame : (context.forwarded_headers background).get_all CONNECTION =
      context.request.headers.get_all CONNECTION := by
    unfold forwarded_headers
    split
    · rw [get_all_conditional_of_ne _ _ (by decide) (by decide)]
      exact get_all_range_headers (by decide) _ _ _
    · rfl
  unfold connection_names connection_items
  rw [hsame]

/-- The validator of the entry stands in the place of the values of the client. -/
theorem get_all_forwarded {context : UpstreamContext} {name : HeaderName}
    {validator : Option HeaderValue} (hrange : name ≠ RANGE)
    (hconditional : ∀ headers, (context.apply_conditional_request_headers headers).get_all name =
      (validator.map fun value => [value]).getD (headers.get_all name)) (background : Bool) :
    (context.forwarded_headers background).get_all name =
      if background || context.store_response then
        (validator.map fun value => [value]).getD (context.request.headers.get_all name)
      else context.request.headers.get_all name := by
  unfold forwarded_headers
  split
  · rw [hconditional]
    congr 1
    exact get_all_range_headers hrange _ _ _
  · rfl

theorem sent_only_iff {context : UpstreamContext} {background : Bool} {target : PeerTarget}
    {sent : HeaderMap} (hsent : context.sent_headers background target = some sent)
    {name : HeaderName} {validator : Option HeaderValue} (hname : name ∉ proxy_names)
    (hforwarded : (context.forwarded_headers background).get_all name =
      if background || context.store_response then
        (validator.map fun value => [value]).getD (context.request.headers.get_all name)
      else context.request.headers.get_all name) :
    (∀ value ∈ sent.get_all name, validator = some value) ↔
      context.Superseded background target name validator := by
  unfold sent_headers at hsent
  rw [get_all_build_for_peer hname hsent, connection_names_forwarded, hforwarded]
  unfold Superseded
  rcases last_override name target.proxy_header_overrides with _ | override
  · dsimp only [Option.map_none, Option.getD_none]
    by_cases hnamed : name ∈ connection_names context.request.headers
    · simp [hnamed]
    rw [if_neg hnamed]
    simp only [hnamed, false_or]
    by_cases hprepared : background = true ∨ context.store_response = true
    · rw [if_pos (by simpa using hprepared)]
      rcases validator with _ | validator
      · simp
      · simp [hprepared]
    · rw [if_neg (by simpa using hprepared)]
      simp [hprepared]
  · rfl

/-- A 304 refreshes the entry that it confirms. The conditions that are sent are those of the
entry, for each of the two where nothing else of the client's gets through. -/
theorem a_refresh_confirms_the_entry (context : UpstreamContext) (background : Bool)
    (target : PeerTarget) (sent : HeaderMap)
    (hsent : context.sent_headers background target = some sent) :
    (∀ status, context.should_refresh_from_not_modified status = true →
        context.OnlyValidators sent) ↔
      (context.cached_entry.isSome = true →
        context.Superseded background target IF_NONE_MATCH context.if_none_match ∧
          context.Superseded background target IF_MODIFIED_SINCE context.if_modified_since) := by
  have hmatch := sent_only_iff hsent (by decide)
    (get_all_forwarded (by decide) context.get_all_conditional_none_match background)
  have hsince := sent_only_iff hsent (by decide)
    (get_all_forwarded (by decide) context.get_all_conditional_modified_since background)
  constructor
  · intro hrefresh hentry
    obtain ⟨hnone, hmodified⟩ :=
      hrefresh NOT_MODIFIED (by simp [should_refresh_from_not_modified, hentry])
    exact ⟨hmatch.mp hnone, hsince.mp hmodified⟩
  · intro hsuperseded status hrefresh
    have hentry : context.cached_entry.isSome = true := by
      unfold should_refresh_from_not_modified at hrefresh
      exact (Bool.and_eq_true_iff.mp hrefresh).1
    obtain ⟨hnone, hmodified⟩ := hsuperseded hentry
    exact ⟨hmatch.mpr hnone, hsince.mpr hmodified⟩

end UpstreamContext

/-- An upstream without any overrides. -/
def plainPeer : PeerTarget :=
  { upstream_authority := "127.0.0.1:9000".toList
    scheme := "http".toList
    protocol := .Http1
    forwarded_for := "192.0.2.1".toList
    forwarded_proto := "http".toList
    preserve_host := false
    proxy_header_overrides := []
    grpc_web_mode := none }

/-- The expired entry of a `GET`, with these headers. -/
def expiredContext (headers : HeaderMap) (request : CacheRequest) : UpstreamContext :=
  { policy := plainPolicy true
    cached_entry := some
      { kind := .Response, hash := "a", base_key := "a", stored_at_unix_ms := 0, vary := []
        tags := [], body_size_bytes := 1, expires_at_unix_ms := 0, grace_until_unix_ms := none
        keep_until_unix_ms := none, stale_if_error_until_unix_ms := none
        stale_while_revalidate_until_unix_ms := none, requires_revalidation := false
        must_revalidate := false, last_access_unix_ms := 0 }
    cached_response_head := some ⟨"a", 200, headers⟩
    request_forces_revalidation := false
    request
    store_response := true }

/-- An entry with both validators, and a client with one of its own. -/
def bothValidators : UpstreamContext :=
  expiredContext [(ETAG, plainValue "\"v2\""), (LAST_MODIFIED, plainValue "Tue")]
    (plainGet [(IF_NONE_MATCH, plainValue "\"v1\"")])

theorem both_validators_are_sent :
    ∃ sent, bothValidators.sent_headers false plainPeer = some sent ∧
      ∀ status, bothValidators.should_refresh_from_not_modified status = true →
        bothValidators.OnlyValidators sent := by
  obtain ⟨sent, hsent⟩ : ∃ sent, bothValidators.sent_headers false plainPeer = some sent :=
    Option.isSome_iff_exists.mp (by decide +kernel)
  refine ⟨sent, hsent, ?_⟩
  refine (bothValidators.a_refresh_confirms_the_entry false plainPeer sent hsent).mpr ?_
  intro _
  exact ⟨.inr (.inl ⟨.inr rfl, by decide +kernel⟩), .inr (.inl ⟨.inr rfl, by decide +kernel⟩)⟩

/-- An entry that has no `ETag`, and a client that sends one. -/
def missingEtag : UpstreamContext :=
  expiredContext [(LAST_MODIFIED, plainValue "Tue")]
    (plainGet [(IF_NONE_MATCH, plainValue "\"v1\"")])

/-- The tag of the client goes to the upstream, and the answer to it refreshes the entry. -/
theorem a_client_tag_refreshes_the_entry :
    ∃ sent, missingEtag.sent_headers false plainPeer = some sent ∧
      missingEtag.should_refresh_from_not_modified NOT_MODIFIED = true ∧
      plainValue "\"v1\"" ∈ sent.get_all IF_NONE_MATCH ∧ ¬ missingEtag.OnlyValidators sent := by
  have hsent : (missingEtag.sent_headers false plainPeer).map
      (fun sent => HeaderMap.get_all sent IF_NONE_MATCH) = some [plainValue "\"v1\""] := by
    decide +kernel
  obtain ⟨sent, hsent, hvalues⟩ := Option.map_eq_some_iff.mp hsent
  have hmem : plainValue "\"v1\"" ∈ sent.get_all IF_NONE_MATCH := by simp [hvalues]
  refine ⟨sent, hsent, by decide +kernel, hmem, ?_⟩
  rintro ⟨hnone, -⟩
  have hvalidator : missingEtag.if_none_match = none := by decide +kernel
  rw [hvalidator] at hnone
  exact nomatch hnone _ hmem

end rginx.cache
