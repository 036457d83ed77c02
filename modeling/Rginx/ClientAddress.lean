-- The address of the client, from `client_ip.rs`: which of the socket peer,
-- the source of the PROXY protocol and the addresses in the headers is taken
-- for the client, and how far a header can decide it.
import Rginx.NetAddress
import Rginx.CacheRequest

open rust_text rust_net rginx.cache

namespace rginx.client

/-! ## The model -/

inductive ClientIpSource
  | SocketPeer
  | XForwardedFor
  | ClientIpHeader
  deriving DecidableEq, Repr

structure ClientAddress where
  peer_addr : SocketAddr
  client_ip : IpAddr
  forwarded_for : Text
  source : ClientIpSource
  deriving DecidableEq

/-- The addresses of a connection. -/
structure ConnectionPeerAddrs where
  socket_peer_addr : SocketAddr
  proxy_protocol_source_addr : Option SocketAddr

/-- What the resolution reads of a server. -/
structure Server where
  trusted_proxies : List IpNet
  client_ip_header : Option HeaderName

def Server.is_trusted_proxy (server : Server) (ip : IpAddr) : Bool :=
  server.trusted_proxies.any fun cidr => cidr.contains ip

def parse_forwarded_ip (token : Text) : Option IpAddr :=
  match IpAddr.parse token with
  | some ip => some ip
  | none => (SocketAddr.parse token).map SocketAddr.ip

/-- The first token that is not empty has to be an address. -/
def parse_client_ip_header (headers : HeaderMap) (header_name : HeaderName) : Option IpAddr := do
  let value ← headers.get_str header_name
  let token ← ((split ',' (trim value)).map trim).find? (· ≠ [])
  parse_forwarded_ip token

def forwarded_token (token : Text) : Option IpAddr :=
  if trim token = [] then none else parse_forwarded_ip (trim token)

/-- The addresses of one header line. -/
def forwarded_line (value : HeaderValue) : Option (List IpAddr) := do
  let text ← value.to_str
  (split ',' text).mapM forwarded_token

/-- The addresses of all lines: one token that is not an address spoils them all. -/
def forwarded_lines (values : List HeaderValue) : Option (List IpAddr) :=
  (values.mapM forwarded_line).map List.flatten

def parse_x_forwarded_for (headers : HeaderMap) : Option (List IpAddr) :=
  (forwarded_lines (headers.get_all X_FORWARDED_FOR)).filter (· ≠ [])

/-- The last address of the chain that is not trusted, then the peer itself, and the first
address of the chain when all are trusted. -/
def select_client_ip_with_immediate_peer (chain : List IpAddr) (immediate_peer : IpAddr)
    (server : Server) : IpAddr :=
  ((chain.reverse ++ [immediate_peer]).find? fun ip => !server.is_trusted_proxy ip).getD
    (chain.headD immediate_peer)

def direct_peer (peer_addr : SocketAddr) : ClientAddress :=
  { peer_addr
    client_ip := peer_addr.ip
    forwarded_for := peer_addr.ip.to_string
    source := .SocketPeer }

def proxied_peer (peer_addr : SocketAddr) (client_ip : IpAddr) : ClientAddress :=
  { peer_addr
    client_ip
    forwarded_for := client_ip.to_string
    source := .SocketPeer }

def ConnectionPeerAddrs.immediate_peer (connection : ConnectionPeerAddrs) : SocketAddr :=
  connection.proxy_protocol_source_addr.getD connection.socket_peer_addr

def resolve_client_address (headers : HeaderMap) (server : Server)
    (connection : ConnectionPeerAddrs) : ClientAddress :=
  let peer_addr := connection.socket_peer_addr
  if !server.is_trusted_proxy peer_addr.ip then direct_peer peer_addr
  else
    let immediate_peer := connection.immediate_peer.ip
    match server.client_ip_header.bind (parse_client_ip_header headers) with
    | some client_ip =>
      { peer_addr
        client_ip
        forwarded_for := client_ip.to_string ++ [',', ' '] ++ immediate_peer.to_string
        source := .ClientIpHeader }
    | none =>
      match parse_x_forwarded_for headers with
      | none => proxied_peer peer_addr immediate_peer
      | some chain =>
        { peer_addr
          client_ip := select_client_ip_with_immediate_peer chain immediate_peer server
          forwarded_for :=
            joined [',', ' '] (chain.map IpAddr.to_string) ++ [',', ' '] ++
              immediate_peer.to_string
          source := .XForwardedFor }

/-! ## The hops of a request -/

/-- The hops that the connection itself names, from the server outwards. -/
def ConnectionPeerAddrs.hops (connection : ConnectionPeerAddrs) : List IpAddr :=
  connection.socket_peer_addr.ip :: (connection.proxy_protocol_source_addr.map (·.ip)).toList

/-- All hops of a request, from the server outwards. -/
def request_hops (headers : HeaderMap) (connection : ConnectionPeerAddrs) : List IpAddr :=
  connection.hops ++ ((parse_x_forwarded_for headers).getD []).reverse

def nearest_untrusted (server : Server) (hops : List IpAddr) : Option IpAddr :=
  hops.find? fun ip => !server.is_trusted_proxy ip

/-- The headers have no say: two maps of headers give one answer, and it is the nearest hop
that is not trusted. -/
def HeadersIgnored (server : Server) (connection : ConnectionPeerAddrs) : Prop :=
  ∀ headers headers' : HeaderMap,
    let client := resolve_client_address headers server connection
    let client' := resolve_client_address headers' server connection
    client.client_ip = client'.client_ip ∧ client.source = client'.source ∧
      nearest_untrusted server (request_hops headers connection) = some client.client_ip

theorem resolve_of_untrusted_peer {server : Server} {connection : ConnectionPeerAddrs}
    (h : server.is_trusted_proxy connection.socket_peer_addr.ip = false) (headers : HeaderMap) :
    resolve_client_address headers server connection =
      direct_peer connection.socket_peer_addr := by
  simp [resolve_client_address, h]

theorem headers_ignored_of_untrusted_peer {server : Server} {connection : ConnectionPeerAddrs}
    (h : server.is_trusted_proxy connection.socket_peer_addr.ip = false) :
    HeadersIgnored server connection := by
  intro headers headers'
  rw [resolve_of_untrusted_peer h headers, resolve_of_untrusted_peer h headers']
  refine ⟨rfl, rfl, ?_⟩
  simp [nearest_untrusted, request_hops, ConnectionPeerAddrs.hops, h, direct_peer]

/-- Without headers, a trusted peer leaves the answer to the connection. -/
theorem resolve_source_of_no_headers {server : Server} {connection : ConnectionPeerAddrs} :
    (resolve_client_address [] server connection).source = .SocketPeer := by
  have hheader : server.client_ip_header.bind (parse_client_ip_header []) = none := by
    cases server.client_ip_header <;> rfl
  have hchain : parse_x_forwarded_for [] = none := rfl
  unfold resolve_client_address
  rw [hheader, hchain]
  dsimp only
  split <;> rfl

/-- A line with one address. -/
def spoofed : HeaderMap := [(X_FORWARDED_FOR, plainValue "192.0.2.1")]

theorem parse_spoofed : parse_x_forwarded_for spoofed = some [.V4 0xC0000201#32] := by
  decide +kernel

/-- Behind a trusted peer, a line of the client decides where the address comes from. -/
theorem resolve_source_of_spoofed {server : Server} {connection : ConnectionPeerAddrs}
    (h : server.is_trusted_proxy connection.socket_peer_addr.ip = true) :
    (resolve_client_address spoofed server connection).source ≠ .SocketPeer := by
  unfold resolve_client_address
  dsimp only
  rw [parse_spoofed, h, if_neg (by simp)]
  split <;> simp

/-- The headers are ignored behind an untrusted peer. Behind an untrusted hop of the connection
the headers have no say, except where the peer is trusted and the source of the PROXY protocol
is not: that source is looked at only after them. -/
theorem headers_are_ignored_behind_an_untrusted_peer (server : Server)
    (connection : ConnectionPeerAddrs) :
    ((∃ ip ∈ connection.hops, server.is_trusted_proxy ip = false) →
        HeadersIgnored server connection) ↔
      server.is_trusted_proxy connection.socket_peer_addr.ip = false ∨
        ∀ source ∈ connection.proxy_protocol_source_addr,
          server.is_trusted_proxy source.ip = true := by
  constructor
  · intro hignored
    by_contra hboth
    push Not at hboth
    obtain ⟨htrusted, source, hsource, huntrusted⟩ := hboth
    rw [Option.mem_def] at hsource
    have hhop : source.ip ∈ connection.hops := by simp [ConnectionPeerAddrs.hops, hsource]
    have hfalse : server.is_trusted_proxy source.ip = false := by simpa using huntrusted
    obtain ⟨-, hsame, -⟩ := hignored ⟨source.ip, hhop, hfalse⟩ spoofed []
    rw [resolve_source_of_no_headers] at hsame
    exact resolve_source_of_spoofed (by simpa using htrusted) hsame
  · rintro (huntrusted | hsources) ⟨ip, hip, hfalse⟩
    · exact headers_ignored_of_untrusted_peer huntrusted
    · apply headers_ignored_of_untrusted_peer
      rcases List.mem_cons.mp hip with rfl | hsource
      · exact hfalse
      · obtain ⟨source, hmem, rfl⟩ := Option.mem_map.mp (Option.mem_toList.mp hsource)
        rw [hsources source hmem] at hfalse
        cases hfalse

/-- A server that trusts the addresses of `10.0.0.0/8`. -/
def tenServer : Server := ⟨[.V4 0x0A000000#32 8], none⟩

/-- A trusted peer that forwards a connection of a client outside. -/
def proxiedClient : ConnectionPeerAddrs :=
  ⟨⟨.V4 0x0A000001#32, 4000⟩, some ⟨.V4 0xCB007107#32, 1234⟩⟩

/-- The client behind the proxy writes the address that it wants to have. -/
theorem a_proxied_client_chooses_its_address :
    (∃ ip ∈ proxiedClient.hops, tenServer.is_trusted_proxy ip = false) ∧
      ¬ HeadersIgnored tenServer proxiedClient := by
  refine ⟨⟨.V4 0xCB007107#32, by decide, by decide⟩, ?_⟩
  intro hignored
  obtain ⟨hsame, -, -⟩ := hignored spoofed []
  revert hsame
  decide +kernel

/-! ## What a client can write -/

/-- A proxy adds its own text to a line. -/
def appended (value added : HeaderValue) : HeaderValue where
  as_bytes := value.as_bytes ++ 44 :: added.as_bytes
  valid := by
    intro b hb
    rcases List.mem_append.mp hb with hb | hb
    · exact value.valid b hb
    · rcases List.mem_cons.mp hb with rfl | hb
      · decide
      · exact added.valid b hb

/-- The line in which the part of the proxies begins: it may begin with text of the client. -/
def shared_line : Option HeaderValue → HeaderValue → HeaderValue
  | none, added => added
  | some value, added => appended value added

/-- The last address that is not trusted. -/
def last_untrusted (server : Server) (chain : List IpAddr) : Option IpAddr :=
  chain.reverse.find? fun ip => !server.is_trusted_proxy ip

theorem to_str_appended (value added : HeaderValue) :
    (appended value added).to_str = do
      let text ← value.to_str
      let text' ← added.to_str
      return text ++ ',' :: text' := by
  unfold HeaderValue.to_str
  by_cases hvalue : ∀ b ∈ value.as_bytes, (32 ≤ b ∧ b < 127) ∨ b = 9
  · by_cases hadded : ∀ b ∈ added.as_bytes, (32 ≤ b ∧ b < 127) ∨ b = 9
    · have hboth : ∀ b ∈ (appended value added).as_bytes, (32 ≤ b ∧ b < 127) ∨ b = 9 := by
        intro b hb
        rcases List.mem_append.mp hb with hb | hb
        · exact hvalue b hb
        · rcases List.mem_cons.mp hb with rfl | hb
          · decide
          · exact hadded b hb
      rw [if_pos hvalue, if_pos hadded, if_pos hboth]
      simp [appended]
    · have hboth : ¬ ∀ b ∈ (appended value added).as_bytes, (32 ≤ b ∧ b < 127) ∨ b = 9 := by
        intro hall
        exact hadded fun b hb => hall b (by simp [appended, hb])
      rw [if_pos hvalue, if_neg hadded, if_neg hboth]
      rfl
  · have hboth : ¬ ∀ b ∈ (appended value added).as_bytes, (32 ≤ b ∧ b < 127) ∨ b = 9 := by
      intro hall
      exact hvalue fun b hb => hall b (by simp [appended, hb])
    rw [if_neg hvalue, if_neg hboth]
    rfl

theorem forwarded_line_appended (value added : HeaderValue) :
    forwarded_line (appended value added) = do
      let chain ← forwarded_line value
      let chain' ← forwarded_line added
      return chain ++ chain' := by
  unfold forwarded_line
  rw [to_str_appended]
  rcases value.to_str with _ | text
  · rfl
  · rcases added.to_str with _ | text'
    · simp
    · simp [split, List.splitOn_append_cons_self]

theorem forwarded_lines_append (values values' : List HeaderValue) :
    forwarded_lines (values ++ values') = do
      let chain ← forwarded_lines values
      let chain' ← forwarded_lines values'
      return chain ++ chain' := by
  unfold forwarded_lines
  rw [List.mapM_append]
  rcases values.mapM forwarded_line with _ | chains
  · rfl
  · rcases values'.mapM forwarded_line with _ | chains'
    · rfl
    · simp

/-- The lines are the part of the client and then the part of the proxies. -/
theorem forwarded_lines_shared (before : List HeaderValue) (start : Option HeaderValue)
    (added : HeaderValue) (after : List HeaderValue) :
    forwarded_lines (before ++ shared_line start added :: after) = do
      let chain ← forwarded_lines (before ++ start.toList)
      let chain' ← forwarded_lines (added :: after)
      return chain ++ chain' := by
  have hsplit : forwarded_lines (shared_line start added :: after) = do
      let chain ← forwarded_lines start.toList
      let chain' ← forwarded_lines (added :: after)
      return chain ++ chain' := by
    cases start with
    | none =>
      rcases hadded : forwarded_lines (added :: after) with _ | chain <;>
        simp [forwarded_lines, shared_line] at hadded ⊢
      · exact hadded
      · exact hadded
    | some value =>
      unfold forwarded_lines shared_line
      simp only [List.mapM_cons, List.mapM_nil, Option.toList_some, forwarded_line_appended]
      rcases forwarded_line value with _ | chain
      · rfl
      · rcases forwarded_line added with _ | chain'
        · rfl
        · rcases after.mapM forwarded_line with _ | chains
          · rfl
          · simp
  rw [forwarded_lines_append, forwarded_lines_append, hsplit]
  rcases forwarded_lines before with _ | chain
  · rfl
  · rcases forwarded_lines start.toList with _ | chain'
    · rfl
    · rcases forwarded_lines (added :: after) with _ | chain''
      · rfl
      · simp

theorem select_of_last_untrusted {server : Server} {chain chain' : List IpAddr} {client : IpAddr}
    (h : last_untrusted server chain' = some client) (immediate_peer : IpAddr) :
    select_client_ip_with_immediate_peer (chain ++ chain') immediate_peer server = client := by
  unfold last_untrusted at h
  unfold select_client_ip_with_immediate_peer
  rw [List.reverse_append, List.append_assoc, List.find?_append, h]
  rfl

/-- The client spoils the chain or has no say. Behind trusted hops, with a chain that trusted
proxies end with an untrusted address, the part that stands before decides nothing as long as
it is made of addresses: the client is the last untrusted address of the proxies. One token in
it that is not an address makes the whole chain void, and the client is the immediate peer. -/
theorem the_client_is_the_last_untrusted_address (server : Server)
    (hheader : server.client_ip_header = none) (connection : ConnectionPeerAddrs)
    (htrusted : ∀ ip ∈ connection.hops, server.is_trusted_proxy ip = true)
    (headers : HeaderMap) (before : List HeaderValue) (start : Option HeaderValue)
    (added : HeaderValue) (after : List HeaderValue)
    (hlines : headers.get_all X_FORWARDED_FOR = before ++ shared_line start added :: after)
    (chain : List IpAddr) (hchain : forwarded_lines (added :: after) = some chain)
    (client : IpAddr) (hclient : last_untrusted server chain = some client) :
    (resolve_client_address headers server connection).client_ip =
      if (forwarded_lines (before ++ start.toList)).isSome then client
      else connection.immediate_peer.ip := by
  have hpeer : server.is_trusted_proxy connection.socket_peer_addr.ip = true :=
    htrusted _ List.mem_cons_self
  have hne : chain ≠ [] := by
    rintro rfl
    cases hclient
  have hlines := (congrArg forwarded_lines hlines).trans
    (forwarded_lines_shared before start added after)
  rw [hchain] at hlines
  unfold resolve_client_address parse_x_forwarded_for
  dsimp only
  rw [hheader, hpeer, if_neg (by simp), hlines]
  rcases forwarded_lines (before ++ start.toList) with _ | written
  · rfl
  · have hfilter : (written ++ chain ≠ []) := by simp [hne]
    simp only [Option.bind_some, Option.bind_none, Option.pure_def, Option.bind_eq_bind,
      Option.isSome_some, if_true, Option.filter_some, hfilter, ne_eq, not_false_eq_true,
      decide_true]
    exact select_of_last_untrusted hclient _

/-- A trusted peer and nothing more. -/
def insidePeer : ConnectionPeerAddrs := ⟨⟨.V4 0x0A000001#32, 4000⟩, none⟩

/-- The proxy adds the address of its client behind the one that the client wrote. -/
theorem a_written_address_has_no_say :
    (resolve_client_address
      [(X_FORWARDED_FOR, appended (plainValue "192.0.2.1") (plainValue "203.0.113.7"))]
      tenServer insidePeer).client_ip = .V4 0xCB007107#32 := by
  have hwritten : (forwarded_lines [plainValue "192.0.2.1"]).isSome = true := by decide +kernel
  have hclient := the_client_is_the_last_untrusted_address tenServer rfl insidePeer (by decide)
    [(X_FORWARDED_FOR, appended (plainValue "192.0.2.1") (plainValue "203.0.113.7"))] []
    (some (plainValue "192.0.2.1")) (plainValue "203.0.113.7") []
    (by simp [HeaderMap.get_all, shared_line]) [.V4 0xCB007107#32] (by decide +kernel)
    (.V4 0xCB007107#32) (by decide)
  rw [hclient]
  exact if_pos hwritten

/-- With a token that is not an address, the client passes for the proxy. -/
theorem a_malformed_token_hides_the_client :
    ¬ ∀ (server : Server) (connection : ConnectionPeerAddrs)
        (start start' added : HeaderValue) (chain : List IpAddr) (client : IpAddr),
      server.client_ip_header = none →
      (∀ ip ∈ connection.hops, server.is_trusted_proxy ip = true) →
      forwarded_line added = some chain → last_untrusted server chain = some client →
      (resolve_client_address [(X_FORWARDED_FOR, appended start added)] server
          connection).client_ip =
        (resolve_client_address [(X_FORWARDED_FOR, appended start' added)] server
          connection).client_ip := by
  intro h
  have hsame := h tenServer insidePeer (plainValue "192.0.2.1") (plainValue "unknown")
    (plainValue "203.0.113.7") [.V4 0xCB007107#32] (.V4 0xCB007107#32) rfl (by decide)
    (by decide +kernel) (by decide)
  revert hsame
  decide +kernel

end rginx.client
