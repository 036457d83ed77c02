-- The endpoints of a peer whose URL has an address for its host, from `compile/upstream/peer.rs` of the
-- crate `rginx-config` and `resolver/endpoint.rs` and `resolver/runtime.rs` of the crate `rginx-http`.
-- `http::Uri` writes the host of an IPv6 URL with its brackets, `IpAddr::from_str` reads it without.
import Rginx.HostResolver
import Rginx.PeerHealth

open rust_net rust_text

namespace rginx.proxy

/-! ## Peers and their URLs -/

/-- The parts of an `http::Uri`. -/
structure HttpUri where
  scheme_str : Option String
  authority : Option String
  host : Option String
  port_u16 : Option Nat
  path : String
  query : Option String
  deriving DecidableEq

/-- `PeerAddressing` with the fields that only the endpoints of a request read. -/
structure PeerUrlAddressing extends PeerAddressing where
  scheme : String
  backup : Bool

/-- `ResolvedUpstreamPeer` with all its fields. -/
structure ResolvedEndpoint extends ResolvedUpstreamPeer where
  url : String
  display_url : String
  scheme : String
  upstream_authority : String
  socket_addr : SocketAddr
  server_name : String
  backup : Bool
  deriving DecidableEq

section Urls

variable (parse : String → Except String HttpUri)

def compile_peer (upstream_name url : String) (weight : Nat) (backup : Bool)
    (max_conns : Option Nat) : Except String UpstreamPeer :=
  match parse url with
  | .error error => .error error
  | .ok uri =>
    match uri.scheme_str, uri.authority with
    | none, _ => .error s!"upstream `{upstream_name}` peer `{url}` must include a scheme"
    | some _, none => .error s!"upstream `{upstream_name}` peer `{url}` must include an authority"
    | some scheme, some authority =>
      if scheme ≠ "http" ∧ scheme ≠ "https" then
        .error s!"upstream `{upstream_name}` peer `{url}` uses unsupported scheme `{scheme}`; only `http` and `https` are supported in this build"
      else if uri.path ≠ "/" ∧ uri.path ≠ "" then
        .error s!"upstream `{upstream_name}` peer `{url}` must not contain a path"
      else if uri.query.isSome then
        .error s!"upstream `{upstream_name}` peer `{url}` must not contain a query"
      else .ok { url, scheme, authority, weight, backup, max_conns }

def parse_peer_addressing (peer : UpstreamPeer) : Except String PeerUrlAddressing :=
  match parse peer.url with
  | .error error => .error s!"failed to parse upstream peer url `{peer.url}`: {error}"
  | .ok uri =>
    match uri.host with
    | none => .error s!"upstream peer `{peer.url}` is missing a hostname"
    | some host =>
      .ok
        { host
          port := uri.port_u16.getD (if peer.scheme = "https" then 443 else 80)
          scheme := peer.scheme
          authority := peer.authority
          logical_peer_url := peer.url
          weight := peer.weight
          backup := peer.backup
          max_conns := peer.max_conns }

def build_resolved_endpoint (addressing : PeerUrlAddressing) (ip : IpAddr) : ResolvedEndpoint :=
  { build_endpoint addressing.toPeerAddressing ip with
    url := addressing.logical_peer_url
    display_url := addressing.scheme ++ "://" ++ socket_addr_authority ip addressing.port
    scheme := addressing.scheme
    upstream_authority := addressing.authority
    socket_addr := ⟨ip, addressing.port⟩
    server_name := addressing.host
    backup := addressing.backup }

/-! ## The endpoints of a peer -/

/-- The cache by hostname, and how many times a host was to be resolved. -/
structure UpstreamResolver where
  cache : String → Option CacheEntry
  resolve_requests_total : Nat

/-- The rest of `resolve_host`: what it answers for a host, and the cache after it. -/
abbrev HostAnswer :=
  String → (String → Option CacheEntry) → Except String (List IpAddr) × (String → Option CacheEntry)

def resolve_host (answer : HostAnswer) (host : String) (resolver : UpstreamResolver) :
    Except String (List IpAddr) × UpstreamResolver :=
  let (addresses, cache) := answer host resolver.cache
  (addresses, ⟨cache, resolver.resolve_requests_total + 1⟩)

def resolve_peer (answer : HostAnswer) (peer : UpstreamPeer) (resolver : UpstreamResolver) :
    Except String (List ResolvedEndpoint) × UpstreamResolver :=
  match parse_peer_addressing parse peer with
  | .error error => (.error error, resolver)
  | .ok addressing =>
    match IpAddr.parse addressing.host.toList with
    | some ip => (.ok [build_resolved_endpoint addressing ip], resolver)
    | none =>
      let (addresses, resolver) := resolve_host answer addressing.host resolver
      (addresses.map fun addresses => addresses.map (build_resolved_endpoint addressing), resolver)

def cached_peer_endpoints (peer : UpstreamPeer) (resolver : UpstreamResolver) (now : Nat) :
    Except String (List ResolvedEndpoint) :=
  match parse_peer_addressing parse peer with
  | .error error => .error error
  | .ok addressing =>
    match IpAddr.parse addressing.host.toList with
    | some ip => .ok [build_resolved_endpoint addressing ip]
    | none =>
      match resolver.cache addressing.host with
      | none => .ok []
      | some entry =>
        if entry.negative || entry.addresses.isEmpty || decide (entry.stale_until < now) then .ok []
        else .ok (entry.addresses.map (build_resolved_endpoint addressing))

end Urls

/-! ## Addresses for hosts -/

/-- The host of a URL is an address: IPv4 as it stands, IPv6 in brackets. -/
inductive HostLiteral (host : String) : IpAddr → Prop
  | v4 {bits : BitVec 32} (h : IpAddr.parse host.toList = some (.V4 bits)) :
    HostLiteral host (.V4 bits)
  | v6 {bits : BitVec 128} {inner : Text} (hbrackets : host.toList = '[' :: inner ++ [']'])
    (h : IpAddr.parse inner = some (.V6 bits)) : HostLiteral host (.V6 bits)

/-- No reader takes anything from a text that starts with a bracket. -/
theorem parse_bracket (rest : Text) : IpAddr.parse ('[' :: rest) = none := by
  have hnumber : ∀ radix max_digits allow_zero bound,
      read_number radix max_digits allow_zero bound ('[' :: rest) = none := by
    intro radix max_digits allow_zero bound
    have hdigit : to_digit radix '[' = none := by simp [to_digit]
    simp [read_number, hdigit]
  have hv4 : read_ipv4_addr ('[' :: rest) = none := by
    have hoctet : read_octet true ('[' :: rest) = none := hnumber 10 (some 3) false 256
    unfold read_ipv4_addr
    rw [hoctet]
    rfl
  have hgroups : read_groups 8 true ('[' :: rest) = ([], false, '[' :: rest) := by
    simp [read_groups, read_separator, hv4, hnumber]
  have hv6 : read_ipv6_addr ('[' :: rest) = none := by
    simp [read_ipv6_addr, hgroups, read_given_char]
  simp [IpAddr.parse, parse_with, read_ip_addr, hv4, hv6]

section Literals

variable {parse : String → Except String HttpUri} {answer : HostAnswer} {peer : UpstreamPeer}
  {uri : HttpUri} {host : String}

/-- The port of the URL, or the one of its scheme. -/
def dialed_port (uri : HttpUri) (scheme : String) : Nat :=
  uri.port_u16.getD (if scheme = "https" then 443 else 80)

def addressing_of (peer : UpstreamPeer) (uri : HttpUri) (host : String) : PeerUrlAddressing :=
  { host
    port := dialed_port uri peer.scheme
    scheme := peer.scheme
    authority := peer.authority
    logical_peer_url := peer.url
    weight := peer.weight
    backup := peer.backup
    max_conns := peer.max_conns }

theorem parse_peer_addressing_eq (hparse : parse peer.url = .ok uri) (hhost : uri.host = some host) :
    parse_peer_addressing parse peer = .ok (addressing_of peer uri host) := by
  unfold parse_peer_addressing
  rw [hparse]
  dsimp only
  rw [hhost]
  rfl

theorem parse_peer_addressing_url {addressing : PeerUrlAddressing}
    (h : parse_peer_addressing parse peer = .ok addressing) :
    addressing.logical_peer_url = peer.url := by
  unfold parse_peer_addressing at h
  split at h
  · cases h
  · split at h
    · cases h
    · obtain rfl := Except.ok.inj h
      rfl

theorem compile_peer_url {upstream_name url : String} {weight : Nat} {backup : Bool}
    {max_conns : Option Nat}
    (h : compile_peer parse upstream_name url weight backup max_conns = .ok peer) :
    peer.url = url := by
  unfold compile_peer at h
  split at h
  · cases h
  · split at h
    · cases h
    · cases h
    · split_ifs at h
      obtain rfl := Except.ok.inj h
      rfl

variable (parse answer peer) in
/-- The peer has one endpoint, of this address and port, and no host is resolved for it. -/
def DialedDirectly (resolver : UpstreamResolver) (now : Nat) (addr : SocketAddr) : Prop :=
  ∃ endpoint, resolve_peer parse answer peer resolver = (.ok [endpoint], resolver) ∧
    cached_peer_endpoints parse peer resolver now = .ok [endpoint] ∧
    endpoint.socket_addr = addr ∧
    (peer.authority = socket_addr_authority addr.ip addr.port → endpoint.endpoint_key = peer.url)

theorem dialed_directly_v4 {bits : BitVec 32} (hparse : parse peer.url = .ok uri)
    (hhost : uri.host = some host) (h : IpAddr.parse host.toList = some (.V4 bits))
    (resolver : UpstreamResolver) (now : Nat) :
    DialedDirectly parse answer peer resolver now ⟨.V4 bits, dialed_port uri peer.scheme⟩ := by
  have haddressing := parse_peer_addressing_eq hparse hhost
  have hip : IpAddr.parse (addressing_of peer uri host).host.toList = some (.V4 bits) := h
  refine ⟨build_resolved_endpoint (addressing_of peer uri host) (.V4 bits), ?_, ?_, rfl, ?_⟩
  · unfold resolve_peer
    rw [haddressing]
    dsimp only
    rw [hip]
  · unfold cached_peer_endpoints
    rw [haddressing]
    dsimp only
    rw [hip]
  · exact fun hspelled => (endpoint_key_eq_iff _ _).mpr hspelled

/-- A host in brackets is resolved as a name. -/
theorem not_dialed_directly_brackets {rest : Text} (hparse : parse peer.url = .ok uri)
    (hhost : uri.host = some host) (h : host.toList = '[' :: rest) (resolver : UpstreamResolver)
    (now : Nat) (addr : SocketAddr) : ¬ DialedDirectly parse answer peer resolver now addr := by
  rintro ⟨endpoint, hresolve, -⟩
  have hip : IpAddr.parse (addressing_of peer uri host).host.toList = none := by
    change IpAddr.parse host.toList = none
    rw [h, parse_bracket]
  unfold resolve_peer at hresolve
  rw [parse_peer_addressing_eq hparse hhost] at hresolve
  dsimp only at hresolve
  rw [hip] at hresolve
  have hcount := congrArg UpstreamResolver.resolve_requests_total (Prod.mk.inj hresolve).2
  exact absurd hcount (Nat.succ_ne_self _)

/-- A peer with an address for its host is dialed at that address, with no host resolved, if and
only if the address is one of IPv4. -/
theorem dialed_directly_iff {upstream_name url : String} {weight : Nat} {backup : Bool}
    {max_conns : Option Nat} {ip : IpAddr}
    (hcompile : compile_peer parse upstream_name url weight backup max_conns = .ok peer)
    (hparse : parse url = .ok uri) (hhost : uri.host = some host) (hliteral : HostLiteral host ip)
    (resolver : UpstreamResolver) (now : Nat) :
    DialedDirectly parse answer peer resolver now ⟨ip, dialed_port uri peer.scheme⟩ ↔
      is_ipv4 ip = true := by
  have hurl : parse peer.url = .ok uri := by rw [compile_peer_url hcompile, hparse]
  cases hliteral with
  | v4 h => exact iff_of_true (dialed_directly_v4 hurl hhost h resolver now) rfl
  | v6 hbrackets h =>
    refine iff_of_false ?_ (by simp [is_ipv4])
    exact not_dialed_directly_brackets hurl hhost hbrackets resolver now _

end Literals

/-! ## One address of each kind -/

/-- The parts of two URLs, as `http::Uri` gives them. -/
def two_urls : String → Except String HttpUri
  | "http://10.0.0.1" => .ok ⟨some "http", some "10.0.0.1", some "10.0.0.1", none, "/", none⟩
  | "http://[::1]:9000" =>
    .ok ⟨some "http", some "[::1]:9000", some "[::1]", some 9000, "/", none⟩
  | _ => .error "invalid uri character"

/-- A resolver that finds no host. -/
def no_hosts : HostAnswer := fun host cache =>
  (.error s!"failed to resolve upstream hostname `{host}`: no records found", cache)

theorem dialed_directly_iff_default_port :
    DialedDirectly two_urls no_hosts ⟨"http://10.0.0.1", "http", "10.0.0.1", 1, false, none⟩
      ⟨fun _ => none, 0⟩ 0 ⟨.V4 0x0a000001, 80⟩ ↔ is_ipv4 (.V4 0x0a000001) = true :=
  @dialed_directly_iff two_urls no_hosts ⟨"http://10.0.0.1", "http", "10.0.0.1", 1, false, none⟩
    ⟨some "http", some "10.0.0.1", some "10.0.0.1", none, "/", none⟩ "10.0.0.1" "backend"
    "http://10.0.0.1" 1 false none (.V4 0x0a000001) rfl rfl rfl (.v4 (by decide +kernel)) _ 0

def loopback_peer : UpstreamPeer := ⟨"http://[::1]:9000", "http", "[::1]:9000", 1, false, none⟩

/-- The IPv6 loopback with a port is looked up as the name `[::1]`. -/
theorem loopback_v6_is_resolved :
    compile_peer two_urls "backend" "http://[::1]:9000" 1 false none = .ok loopback_peer ∧
    HostLiteral "[::1]" (.V6 1) ∧
    (resolve_peer two_urls no_hosts loopback_peer ⟨fun _ => none, 0⟩).1 =
      .error "failed to resolve upstream hostname `[::1]`: no records found" ∧
    ¬ DialedDirectly two_urls no_hosts loopback_peer ⟨fun _ => none, 0⟩ 0 ⟨.V6 1, 9000⟩ := by
  refine ⟨rfl, @HostLiteral.v6 _ 1 "::1".toList rfl (by decide +kernel), by decide +kernel, ?_⟩
  exact @not_dialed_directly_brackets two_urls no_hosts loopback_peer
    ⟨some "http", some "[::1]:9000", some "[::1]", some 9000, "/", none⟩ "[::1]" "::1]".toList
    rfl rfl rfl _ 0 _

end rginx.proxy
