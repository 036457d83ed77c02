-- The listeners of a configuration, from `validate/server/listener`, `validate/vhost.rs`
-- and `compile/server/listener.rs` of the crate `rginx-config`: the three ways to
-- declare them, and the listeners that each compiles to. The addresses and the
-- certificates of a raw configuration stand here as their fields compile.
import Mathlib.Data.List.Nodup
import Rginx.NetAddress
import Rginx.ResultChains

open rust_text rust_net rust_result

namespace rginx.config

/-! ## TLS settings -/

inductive OcspNonceMode
  | Disabled | Preferred | Required
  deriving DecidableEq

inductive OcspResponderPolicy
  | IssuerOnly | IssuerOrDelegated
  deriving DecidableEq

structure OcspConfig where
  nonce : OcspNonceMode := .Disabled
  responder_policy : OcspResponderPolicy := .IssuerOrDelegated
  deriving DecidableEq

structure ServerCertificateBundle where
  cert_path : String
  key_path : String
  ocsp_staple_path : Option String
  ocsp : OcspConfig
  deriving DecidableEq

inductive TlsVersion
  | Tls12 | Tls13
  deriving DecidableEq

inductive TlsCipherSuite
  | Tls13Aes256GcmSha384 | Tls13Aes128GcmSha256 | Tls13Chacha20Poly1305Sha256
  | TlsEcdheEcdsaWithAes256GcmSha384 | TlsEcdheEcdsaWithAes128GcmSha256
  | TlsEcdheEcdsaWithChacha20Poly1305Sha256 | TlsEcdheRsaWithAes256GcmSha384
  | TlsEcdheRsaWithAes128GcmSha256 | TlsEcdheRsaWithChacha20Poly1305Sha256
  deriving DecidableEq

inductive TlsKeyExchangeGroup
  | X25519 | Secp256r1 | Secp384r1 | X25519Mlkem768 | Secp256r1Mlkem768 | Mlkem768 | Mlkem1024
  deriving DecidableEq

inductive ServerClientAuthMode
  | Optional | Required
  deriving DecidableEq

structure ServerClientAuthPolicy where
  mode : ServerClientAuthMode
  ca_cert_path : String
  verify_depth : Option Nat
  crl_path : Option String
  deriving DecidableEq

structure ServerTls where
  cert_path : String
  key_path : String
  additional_certificates : List ServerCertificateBundle := []
  versions : Option (List TlsVersion) := none
  cipher_suites : Option (List TlsCipherSuite) := none
  key_exchange_groups : Option (List TlsKeyExchangeGroup) := none
  alpn_protocols : Option (List String) := none
  ocsp_staple_path : Option String := none
  ocsp : OcspConfig := {}
  session_resumption : Option Bool := none
  session_tickets : Option Bool := none
  session_cache_size : Option Nat := none
  session_ticket_count : Option Nat := none
  client_auth : Option ServerClientAuthPolicy := none
  deriving DecidableEq

structure VirtualHostTls where
  cert_path : String
  key_path : String
  additional_certificates : List ServerCertificateBundle := []
  ocsp_staple_path : Option String := none
  ocsp : OcspConfig := {}
  deriving DecidableEq

/-! ## The raw configuration -/

structure Http3Config where
  listen : Option SocketAddr := none
  advertise_alt_svc : Option Bool := none
  alt_svc_max_age_secs : Option Nat := none
  max_concurrent_streams : Option Nat := none
  stream_buffer_size_bytes : Option Nat := none
  active_connection_id_limit : Option Nat := none
  retry : Option Bool := none
  host_key_path : Option String := none
  gso : Option Bool := none
  early_data : Option Bool := none
  deriving DecidableEq

structure ListenerConfig where
  name : String
  listen : SocketAddr
  default_certificate : Option String
  tls : Option ServerTls
  http3 : Option Http3Config

structure ParsedVhostListen where
  addr : SocketAddr
  ssl : Bool
  http3 : Bool
  proxy_protocol : Bool

structure VirtualHostConfig where
  listen : List ParsedVhostListen
  server_names : List String
  tls : Option VirtualHostTls
  http3 : Option Http3Config

structure ServerConfig where
  listen : Option SocketAddr
  proxy_protocol : Option Bool
  default_certificate : Option String
  server_names : List String
  tls : Option ServerTls
  http3 : Option Http3Config

structure RuntimeSettings where
  worker_threads : Option Nat
  accept_workers : Nat
  deriving DecidableEq

structure Config where
  runtime : RuntimeSettings
  listeners : List ListenerConfig
  server : ServerConfig
  servers : List VirtualHostConfig

/-! ## Validation -/

inductive ListenerTransportKind
  | Tcp | Udp
  deriving DecidableEq

def written (addr : SocketAddr) : String := String.ofList addr.to_string

def any_vhost_listen (vhosts : List VirtualHostConfig) : Bool :=
  vhosts.any fun vhost => !vhost.listen.isEmpty

def legacy_server_listener_fields (server : ServerConfig) : Bool :=
  server.listen.isSome || server.default_certificate.isSome || server.tls.isSome ||
    server.http3.isSome

def validate_server_fields_for_vhost_listen (server : ServerConfig) : Except String Unit :=
  if server.listen.isSome || server.proxy_protocol.isSome || server.http3.isSome then
    .error "server listen, proxy_protocol, and http3 cannot be used together with servers[].listen; use servers[].listen for bindings and keep server.tls/default_certificate only as global TLS defaults"
  else .ok ()

structure VhostListenerBinding where
  ssl : Bool
  http3 : Option Http3Config
  proxy_protocol : Bool
  default_certificate : Option String

/-- The bindings so far, in the order in which their addresses came. -/
abbrev VhostBindings := List (SocketAddr × VhostListenerBinding)

def VhostBindings.get (bindings : VhostBindings) (addr : SocketAddr) :
    Option VhostListenerBinding :=
  (bindings.find? fun binding => binding.1 = addr).map Prod.snd

/-- One address has one kind of binding, at whichever virtual hosts it stands. -/
def validate_vhost_listener_merge (addr : SocketAddr) (binding : VhostListenerBinding)
    (ssl proxy_protocol : Bool) (http3 : Option Http3Config) : Except String Unit :=
  if binding.ssl ≠ ssl then
    .error s!"servers[].listen `{written addr}` mixes ssl and non-ssl bindings"
  else if binding.proxy_protocol ≠ proxy_protocol then
    .error s!"servers[].listen `{written addr}` mixes proxy_protocol and non-proxy_protocol bindings"
  else if binding.http3 ≠ http3 then
    .error s!"servers[].listen `{written addr}` must use consistent http3 settings across vhosts"
  else .ok ()

/-- The entry of one listen; the first name of a virtual host with a certificate stays. -/
def add_vhost_listen (vhost : VirtualHostConfig) (bindings : VhostBindings)
    (parsed : ParsedVhostListen) : Except String VhostBindings := do
  let http3 := if parsed.http3 then some (vhost.http3.getD {}) else none
  let default_certificate := if parsed.ssl then vhost.server_names.head? else none
  match bindings.get parsed.addr with
  | none =>
    return bindings ++ [(parsed.addr, ⟨parsed.ssl, http3, parsed.proxy_protocol, default_certificate⟩)]
  | some binding =>
    validate_vhost_listener_merge parsed.addr binding parsed.ssl parsed.proxy_protocol http3
    return bindings.map fun (addr, binding) =>
      if addr = parsed.addr then
        (addr, { binding with
          default_certificate := binding.default_certificate.or default_certificate })
      else (addr, binding)

def vhost_listener_bindings (vhosts : List VirtualHostConfig) : Except String VhostBindings :=
  vhosts.foldlM (fun bindings vhost => vhost.listen.foldlM (add_vhost_listen vhost) bindings) []

/-- The loop over explicit listeners, with the names and the bindings seen so far. -/
def validate_listener_list (index : Nat) (names : List Text)
    (bindings : List (ListenerTransportKind × SocketAddr)) :
    List ListenerConfig → Except String Unit
  | [] => .ok ()
  | listener :: listeners =>
    let normalized_name := to_ascii_lowercase (trim listener.name.toList)
    if normalized_name = [] then .error s!"listeners[{index}] name must not be empty"
    else if normalized_name ∈ names then
      .error s!"duplicate listener name `{listener.name}` across listeners"
    else if (.Tcp, listener.listen) ∈ bindings then
      .error s!"duplicate tcp listener bind `{written listener.listen}` across listeners"
    else
      let bindings := (.Tcp, listener.listen) :: bindings
      match listener.http3 with
      | none => validate_listener_list (index + 1) (normalized_name :: names) bindings listeners
      | some http3 =>
        let udp_listen_addr := http3.listen.getD listener.listen
        if (.Udp, udp_listen_addr) ∈ bindings then
          .error s!"duplicate udp listener bind `{written udp_listen_addr}` across listeners"
        else
          validate_listener_list (index + 1) (normalized_name :: names)
            ((.Udp, udp_listen_addr) :: bindings) listeners

def validate_listeners (listeners : List ListenerConfig) (server : ServerConfig)
    (vhosts : List VirtualHostConfig) : Except String Unit := do
  if any_vhost_listen vhosts then
    if !listeners.isEmpty then
      .error "servers[].listen cannot be used together with top-level listeners"
    else
      validate_server_fields_for_vhost_listen server
      let _ ← vhost_listener_bindings vhosts
  else if listeners.isEmpty then
    if server.listen.isNone then
      .error "at least one listen must be configured in server.listen, listeners, or servers[].listen"
    else .ok ()
  else if legacy_server_listener_fields server then
    .error "server legacy listener fields cannot be used together with listeners"
  else
    validate_listener_list 0 [] [] listeners
    if vhosts.any (·.tls.isSome) && !listeners.any (·.tls.isSome) then
      .error "vhost TLS requires at least one listener with tls to be configured"
    else .ok ()

def validate_vhost_listens (vhost_label : String) (vhost : VirtualHostConfig)
    (require_vhost_listen : Bool) : Except String Unit :=
  if require_vhost_listen && vhost.listen.isEmpty then
    .error s!"{vhost_label} must define at least one listen when servers[].listen is used; once any vhost uses servers[].listen, every vhost must declare listen explicitly"
  else
    let has_ssl_listen := vhost.listen.any (·.ssl)
    let has_http3_listen := vhost.listen.any (·.http3)
    if has_ssl_listen && vhost.tls.isNone then .error s!"{vhost_label} ssl listen requires tls"
    else if require_vhost_listen && vhost.tls.isSome && !has_ssl_listen then
      .error s!"{vhost_label} TLS requires an ssl listen"
    else if vhost.http3.isSome && !has_http3_listen then
      .error s!"{vhost_label} http3 requires an http3 listen"
    else .ok ()

def validate_virtual_host (require_vhost_listen : Bool) (idx : Nat) (vhost : VirtualHostConfig) :
    Except String Unit := do
  let vhost_label := s!"servers[{idx}]"
  validate_vhost_listens vhost_label vhost require_vhost_listen
  if vhost.server_names.isEmpty then
    if vhost.tls.isSome then .error s!"{vhost_label} TLS requires at least one server_name"
    else .error s!"{vhost_label} must define at least one server_name"
  else .ok ()

def validate_virtual_hosts (require_vhost_listen : Bool) :
    Nat → List VirtualHostConfig → Except String Unit
  | _, [] => .ok ()
  | idx, vhost :: vhosts => do
    validate_virtual_host require_vhost_listen idx vhost
    validate_virtual_hosts require_vhost_listen (idx + 1) vhosts

/-- The checks that the listeners depend on; the others refuse more. -/
def validate (config : Config) : Except String Unit := do
  validate_listeners config.listeners config.server config.servers
  validate_virtual_hosts (any_vhost_listen config.servers) 0 config.servers

/-! ## The compiled configuration -/

structure ListenerHttp3 where
  listen_addr : SocketAddr
  deriving DecidableEq

structure Server where
  listen_addr : SocketAddr
  default_certificate : Option String
  tls : Option ServerTls
  deriving DecidableEq

structure Listener where
  id : String
  name : String
  server : Server
  tls_termination_enabled : Bool
  http3 : Option ListenerHttp3
  deriving DecidableEq

def Listener.tls_enabled (listener : Listener) : Bool := listener.tls_termination_enabled

structure VirtualHost where
  id : String
  server_names : List String
  tls : Option VirtualHostTls
  deriving DecidableEq

structure ConfigSnapshot where
  runtime : RuntimeSettings
  listeners : List Listener
  default_vhost : VirtualHost
  vhosts : List VirtualHost
  deriving DecidableEq

def ConfigSnapshot.listener (config : ConfigSnapshot) (id : String) : Option Listener :=
  config.listeners.find? fun listener => listener.id = id

def Listener.transport_bindings (listener : Listener) : List (ListenerTransportKind × SocketAddr) :=
  (.Tcp, listener.server.listen_addr) ::
    (listener.http3.map fun http3 => (ListenerTransportKind.Udp, http3.listen_addr)).toList

/-! ## Compilation -/

def compile_http3 (http3 : Option Http3Config) (tcp_listen_addr : SocketAddr) (tls_enabled : Bool) :
    Except String (Option ListenerHttp3) :=
  match http3 with
  | none => .ok none
  | some http3 =>
    if tls_enabled then .ok (some ⟨http3.listen.getD tcp_listen_addr⟩)
    else .error "http3 requires tls to be configured on the same listener"

def compile_legacy_server (server : ServerConfig) (any_vhost_tls : Bool) :
    Except String Listener := do
  match server.listen with
  | none => .error "legacy server listen should be validated before compile"
  | some listen =>
    let tls_enabled := server.tls.isSome || any_vhost_tls
    let http3 ← compile_http3 server.http3 listen tls_enabled
    return ⟨"default", "default", ⟨listen, server.default_certificate, server.tls⟩, tls_enabled, http3⟩

def explicit_listener_id (name : String) : String :=
  "listener:" ++ String.ofList (to_ascii_lowercase (trim name.toList))

def compile_listener (listener : ListenerConfig) : Except String Listener := do
  let http3 ← compile_http3 listener.http3 listener.listen listener.tls.isSome
  return ⟨explicit_listener_id listener.name, listener.name,
    ⟨listener.listen, listener.default_certificate, listener.tls⟩, listener.tls.isSome, http3⟩

def vhost_listener_id (listen_addr : SocketAddr) : String := "vhost-listen:" ++ written listen_addr

def vhost_listener_name (listen_addr : SocketAddr) : String := "vhost:" ++ written listen_addr

def compile_vhost_listener (server_defaults : ServerConfig)
    (row : SocketAddr × VhostListenerBinding) : Except String Listener := do
  let (listen_addr, binding) := row
  let tls := if binding.ssl then server_defaults.tls else none
  let default_certificate :=
    if binding.ssl then
      server_defaults.default_certificate.or
        (if server_defaults.tls.isNone then binding.default_certificate else none)
    else none
  let http3 ← compile_http3 binding.http3 listen_addr binding.ssl
  return ⟨vhost_listener_id listen_addr, vhost_listener_name listen_addr,
    ⟨listen_addr, default_certificate, tls⟩, binding.ssl, http3⟩

def compile_vhost_listeners (vhosts : List VirtualHostConfig) (server_defaults : ServerConfig) :
    Except String (List Listener) := do
  let bindings ← vhost_listener_bindings vhosts
  bindings.mapM (compile_vhost_listener server_defaults)

def compile_virtual_host (vhost_id : String) (vhost : VirtualHostConfig) : VirtualHost :=
  ⟨vhost_id, vhost.server_names, vhost.tls⟩

def compile_all_listeners (config : Config) : Except String (List Listener) :=
  if any_vhost_listen config.servers then compile_vhost_listeners config.servers config.server
  else if config.listeners.isEmpty then do
    return [← compile_legacy_server config.server (config.servers.any (·.tls.isSome))]
  else config.listeners.mapM compile_listener

def compile (config : Config) : Except String ConfigSnapshot := do
  validate config
  let listeners ← compile_all_listeners config
  return {
    runtime := config.runtime
    listeners
    default_vhost := ⟨"server", config.server.server_names, none⟩
    vhosts := config.servers.mapIdx fun index vhost =>
      compile_virtual_host s!"servers[{index}]" vhost }

/-- A configuration that was accepted: some raw one compiles to it. -/
def ConfigSnapshot.Accepted (snapshot : ConfigSnapshot) : Prop :=
  ∃ config, compile config = .ok snapshot

/-! ## What is accepted -/

theorem compile_http3_ok {http3 : Option Http3Config} {addr : SocketAddr} {tls_enabled : Bool}
    {result : Option ListenerHttp3} (h : compile_http3 http3 addr tls_enabled = .ok result) :
    result = http3.map fun http3 => ⟨http3.listen.getD addr⟩ := by
  unfold compile_http3 at h
  split at h
  · exact (Except.ok.inj h).symm
  · split at h
    · exact (Except.ok.inj h).symm
    · cases h

/-- The bindings that a listener declares. -/
def declared (addr : SocketAddr) (http3 : Option Http3Config) :
    List (ListenerTransportKind × SocketAddr) :=
  (.Tcp, addr) ::
    (http3.map fun http3 => (ListenerTransportKind.Udp, http3.listen.getD addr)).toList

theorem compile_listener_ok {raw : ListenerConfig} {listener : Listener}
    (h : compile_listener raw = .ok listener) :
    listener.id = explicit_listener_id raw.name ∧ listener.server.listen_addr = raw.listen ∧
      listener.transport_bindings = declared raw.listen raw.http3 ∧
      listener.tls_enabled = raw.tls.isSome ∧ listener.server.tls = raw.tls := by
  unfold compile_listener at h
  rw [bind_eq_ok] at h
  obtain ⟨http3, hhttp3, h⟩ := h
  obtain rfl := Except.ok.inj h
  refine ⟨rfl, rfl, ?_, rfl, rfl⟩
  rw [compile_http3_ok hhttp3, Listener.transport_bindings, Option.map_map]
  rfl

theorem compile_vhost_listener_ok {server_defaults : ServerConfig}
    {row : SocketAddr × VhostListenerBinding} {listener : Listener}
    (h : compile_vhost_listener server_defaults row = .ok listener) :
    listener.id = vhost_listener_id row.1 ∧ listener.server.listen_addr = row.1 ∧
      listener.transport_bindings = declared row.1 row.2.http3 ∧
      listener.tls_enabled = row.2.ssl := by
  unfold compile_vhost_listener at h
  dsimp only at h
  rw [bind_eq_ok] at h
  obtain ⟨http3, hhttp3, h⟩ := h
  obtain rfl := Except.ok.inj h
  refine ⟨rfl, rfl, ?_, rfl⟩
  rw [compile_http3_ok hhttp3, Listener.transport_bindings, Option.map_map]
  rfl

theorem compile_legacy_server_ok {server : ServerConfig} {any_vhost_tls : Bool}
    {listener : Listener} (h : compile_legacy_server server any_vhost_tls = .ok listener) :
    listener.tls_enabled = (server.tls.isSome || any_vhost_tls) ∧
      listener.server.tls = server.tls := by
  unfold compile_legacy_server at h
  split at h
  · cases h
  · dsimp only at h
    rw [bind_eq_ok] at h
    obtain ⟨http3, hhttp3, h⟩ := h
    obtain rfl := Except.ok.inj h
    exact ⟨rfl, rfl⟩

/-! ## The names and the addresses of listeners -/

def ListenerConfig.normalized_name (listener : ListenerConfig) : Text :=
  to_ascii_lowercase (trim listener.name.toList)

def ListenerConfig.bindings (listener : ListenerConfig) :
    List (ListenerTransportKind × SocketAddr) :=
  declared listener.listen listener.http3

/-- The listeners have names of their own and bindings of their own. -/
structure ListenersApart (names : List Text)
    (bindings : List (ListenerTransportKind × SocketAddr)) (listeners : List ListenerConfig) :
    Prop where
  names_apart : (listeners.map ListenerConfig.normalized_name).Nodup
  names_new : ∀ listener ∈ listeners, listener.normalized_name ∉ names
  bindings_apart : (listeners.flatMap ListenerConfig.bindings).Nodup
  bindings_new : ∀ listener ∈ listeners, ∀ binding ∈ listener.bindings, binding ∉ bindings

theorem ListenersApart.nil (names : List Text)
    (bindings : List (ListenerTransportKind × SocketAddr)) : ListenersApart names bindings [] :=
  ⟨List.nodup_nil, List.forall_mem_nil _, List.nodup_nil, List.forall_mem_nil _⟩

theorem ListenersApart.cons {names : List Text}
    {bindings : List (ListenerTransportKind × SocketAddr)} {listener : ListenerConfig}
    {listeners : List ListenerConfig}
    (h : ListenersApart (listener.normalized_name :: names)
      (listener.bindings.reverse ++ bindings) listeners)
    (hname : listener.normalized_name ∉ names) (hnodup : listener.bindings.Nodup)
    (hfresh : ∀ binding ∈ listener.bindings, binding ∉ bindings) :
    ListenersApart names bindings (listener :: listeners) := by
  refine ⟨?_, ?_, ?_, ?_⟩
  · rw [List.map_cons, List.nodup_cons]
    refine ⟨?_, h.names_apart⟩
    intro hmem
    obtain ⟨other, hmember, hsame⟩ := List.mem_map.mp hmem
    exact h.names_new other hmember (hsame ▸ List.mem_cons_self)
  · intro other hmember
    rcases List.mem_cons.mp hmember with rfl | hrest
    · exact hname
    · exact fun hmem => h.names_new other hrest (List.mem_cons_of_mem _ hmem)
  · rw [List.flatMap_cons, List.nodup_append]
    refine ⟨hnodup, h.bindings_apart, ?_⟩
    rintro binding hbinding other hmember rfl
    obtain ⟨later, hlater, hdeclares⟩ := List.mem_flatMap.mp hmember
    exact h.bindings_new later hlater binding hdeclares
      (List.mem_append_left _ (List.mem_reverse.mpr hbinding))
  · intro other hmember binding hbinding
    rcases List.mem_cons.mp hmember with rfl | hrest
    · exact hfresh binding hbinding
    · exact fun hmem => h.bindings_new other hrest binding hbinding (List.mem_append_right _ hmem)

/-- The loop accepts only listeners that are apart, from each other and from those before. -/
theorem validate_listener_list_ok {listeners : List ListenerConfig} {index : Nat}
    {names : List Text} {bindings : List (ListenerTransportKind × SocketAddr)}
    (h : validate_listener_list index names bindings listeners = .ok ()) :
    ListenersApart names bindings listeners := by
  induction listeners generalizing index names bindings with
  | nil => exact .nil names bindings
  | cons listener listeners ih =>
    unfold validate_listener_list at h
    dsimp only at h
    split_ifs at h with hempty hname htcp
    cases hhttp3 : listener.http3 with
    | none =>
      have hbindings : listener.bindings = [(.Tcp, listener.listen)] := by
        simp only [ListenerConfig.bindings, declared, hhttp3, Option.map_none, Option.toList_none]
      simp only [hhttp3] at h
      refine .cons (hbindings ▸ ih h) hname (hbindings ▸ List.nodup_singleton _) ?_
      intro binding hbinding
      rw [hbindings, List.mem_singleton] at hbinding
      exact hbinding ▸ htcp
    | some http3 =>
      have hbindings : listener.bindings =
          [(.Tcp, listener.listen), (.Udp, http3.listen.getD listener.listen)] := by
        simp only [ListenerConfig.bindings, declared, hhttp3, Option.map_some, Option.toList_some]
      simp only [hhttp3] at h
      split_ifs at h with hudp
      refine .cons (hbindings ▸ ih h) hname (by simp [hbindings]) ?_
      intro binding hbinding
      rw [hbindings] at hbinding
      rcases List.mem_cons.mp hbinding with rfl | hlast
      · exact htcp
      · rw [List.mem_singleton.mp hlast]
        exact fun hmem => hudp (List.mem_cons_of_mem _ hmem)

/-! ## The bindings of virtual hosts -/

/-- What every step of a fold keeps, the fold keeps. -/
theorem foldlM_keeps {α β : Type} {P : β → Prop} {f : β → α → Except String β} {items : List α}
    (hstep : ∀ item ∈ items, ∀ b b', f b item = .ok b' → P b → P b') {b b' : β}
    (h : items.foldlM f b = .ok b') (hP : P b) : P b' := by
  induction items generalizing b with
  | nil =>
    obtain rfl := Except.ok.inj h
    exact hP
  | cons item items ih =>
    rw [List.foldlM_cons, bind_eq_ok] at h
    obtain ⟨middle, hmiddle, hrest⟩ := h
    exact ih (fun other hmem => hstep other (List.mem_cons_of_mem _ hmem)) hrest
      (hstep item List.mem_cons_self b middle hmiddle hP)

/-- A listen opens a binding for its address, or keeps the one that is there. -/
theorem add_vhost_listen_ok {vhost : VirtualHostConfig} {bindings bindings' : VhostBindings}
    {parsed : ParsedVhostListen} (h : add_vhost_listen vhost bindings parsed = .ok bindings') :
    (∃ binding, parsed.addr ∉ bindings.map Prod.fst ∧ binding.ssl = parsed.ssl ∧
        bindings' = bindings ++ [(parsed.addr, binding)]) ∨
      bindings'.map (fun row => (row.1, row.2.ssl)) = bindings.map fun row => (row.1, row.2.ssl) := by
  unfold add_vhost_listen at h
  dsimp only at h
  cases hget : bindings.get parsed.addr with
  | none =>
    rw [hget] at h
    obtain rfl := Except.ok.inj h
    refine .inl ⟨_, ?_, rfl, rfl⟩
    intro hmem
    obtain ⟨row, hrow, haddr⟩ := List.mem_map.mp hmem
    have hfind := Option.map_eq_none_iff.mp hget
    have hdiffer := List.find?_eq_none.mp hfind row hrow
    exact hdiffer (decide_eq_true haddr)
  | some binding =>
    rw [hget] at h
    obtain ⟨_, _, h⟩ := bind_eq_ok.mp h
    obtain rfl := Except.ok.inj h
    refine .inr ?_
    rw [List.map_map]
    refine List.map_congr_left fun row _ => ?_
    dsimp only [Function.comp]
    split <;> rfl

theorem vhost_listener_bindings_keep {P : VhostBindings → Prop} {vhosts : List VirtualHostConfig}
    {bindings : VhostBindings} (h : vhost_listener_bindings vhosts = .ok bindings) (hnil : P [])
    (hstep : ∀ vhost ∈ vhosts, ∀ parsed ∈ vhost.listen, ∀ before after,
      add_vhost_listen vhost before parsed = .ok after → P before → P after) : P bindings :=
  foldlM_keeps (fun vhost hvhost _ _ hfold =>
    foldlM_keeps (fun parsed hparsed => hstep vhost hvhost parsed hparsed) hfold) h hnil

/-- The bindings are by address. -/
theorem vhost_listener_bindings_nodup {vhosts : List VirtualHostConfig} {bindings : VhostBindings}
    (h : vhost_listener_bindings vhosts = .ok bindings) : (bindings.map Prod.fst).Nodup := by
  refine vhost_listener_bindings_keep (P := fun bindings => (bindings.map Prod.fst).Nodup) h
    List.nodup_nil ?_
  intro vhost _ parsed _ before after hadd hnodup
  rcases add_vhost_listen_ok hadd with ⟨binding, hnew, _, rfl⟩ | hsame
  · rw [List.map_append, List.map_singleton]
    exact List.nodup_append.mpr ⟨hnodup, List.nodup_singleton _, by
      rintro addr haddr other hother rfl
      obtain rfl := List.mem_singleton.mp hother
      exact hnew haddr⟩
  · have haddrs := congrArg (List.map Prod.fst) hsame
    rw [List.map_map, List.map_map] at haddrs
    exact (show after.map Prod.fst = before.map Prod.fst from haddrs) ▸ hnodup

/-- A binding with TLS was declared so by a virtual host. -/
theorem vhost_listener_bindings_ssl {vhosts : List VirtualHostConfig} {bindings : VhostBindings}
    (h : vhost_listener_bindings vhosts = .ok bindings) :
    ∀ row ∈ bindings, row.2.ssl = true → ∃ vhost ∈ vhosts, vhost.listen.any (·.ssl) = true := by
  refine vhost_listener_bindings_keep (P := fun bindings => ∀ row ∈ bindings, row.2.ssl = true →
    ∃ vhost ∈ vhosts, vhost.listen.any (·.ssl) = true) h (List.forall_mem_nil _) ?_
  intro vhost hvhost parsed hparsed before after hadd hbefore row hrow hssl
  rcases add_vhost_listen_ok hadd with ⟨binding, _, hbinding, rfl⟩ | hsame
  · rcases List.mem_append.mp hrow with hold | hnew
    · exact hbefore row hold hssl
    · rw [List.mem_singleton.mp hnew] at hssl
      exact ⟨vhost, hvhost, List.any_eq_true.mpr ⟨parsed, hparsed, hbinding ▸ hssl⟩⟩
  · have hmem : (row.1, row.2.ssl) ∈ before.map fun row => (row.1, row.2.ssl) :=
      hsame ▸ List.mem_map_of_mem hrow
    obtain ⟨old, hold, hsame⟩ := List.mem_map.mp hmem
    exact hbefore old hold ((Prod.mk.inj hsame).2.trans hssl)

/-! ## The listeners of an accepted configuration -/

theorem vhost_listener_id_injective : Function.Injective vhost_listener_id := by
  intro addr addr' h
  have hwritten : written addr = written addr' := String.append_right_inj _ |>.mp h
  exact socket_to_string_injective (String.ofList_injective hwritten)

/-- The three ways in which the listeners of a configuration are declared. -/
inductive Declares (config : Config) (listeners : List Listener) : Prop
  | vhosts (bindings : VhostBindings)
      (hvhost : any_vhost_listen config.servers = true)
      (hbindings : vhost_listener_bindings config.servers = .ok bindings)
      (hlisteners : bindings.mapM (compile_vhost_listener config.server) = .ok listeners)
  | legacy (listener : Listener)
      (hvhost : any_vhost_listen config.servers = false)
      (hlistener : compile_legacy_server config.server (config.servers.any (·.tls.isSome)) =
        .ok listener)
      (hlisteners : listeners = [listener])
  | explicit (hvhost : any_vhost_listen config.servers = false)
      (hapart : ListenersApart [] [] config.listeners)
      (hlisteners : config.listeners.mapM compile_listener = .ok listeners)

theorem validate_listeners_explicit {config : Config}
    (h : validate_listeners config.listeners config.server config.servers = .ok ())
    (hvhost : any_vhost_listen config.servers = false)
    (hlisteners : config.listeners.isEmpty = false) : ListenersApart [] [] config.listeners := by
  unfold validate_listeners at h
  rw [hvhost, hlisteners] at h
  simp only [Bool.false_eq_true, if_false] at h
  split at h
  · cases h
  obtain ⟨_, hlist, _⟩ := bind_eq_ok.mp h
  exact validate_listener_list_ok hlist

theorem compile_ok {config : Config} {snapshot : ConfigSnapshot}
    (h : compile config = .ok snapshot) :
    validate config = .ok () ∧ Declares config snapshot.listeners ∧
      snapshot.vhosts = config.servers.mapIdx fun index vhost =>
        compile_virtual_host s!"servers[{index}]" vhost := by
  unfold compile at h
  obtain ⟨_, hvalid, h⟩ := bind_eq_ok.mp h
  obtain ⟨listeners, hlisteners, h⟩ := bind_eq_ok.mp h
  obtain rfl := Except.ok.inj h
  refine ⟨hvalid, ?_, rfl⟩
  unfold compile_all_listeners at hlisteners
  split at hlisteners
  · rename_i hvhost
    unfold compile_vhost_listeners at hlisteners
    obtain ⟨bindings, hbindings, hcompiled⟩ := bind_eq_ok.mp hlisteners
    exact .vhosts bindings hvhost hbindings hcompiled
  rename_i hvhost
  rw [Bool.not_eq_true] at hvhost
  split at hlisteners
  · obtain ⟨listener, hlistener, h⟩ := bind_eq_ok.mp hlisteners
    exact .legacy listener hvhost hlistener (Except.ok.inj h).symm
  · rename_i hnonempty
    unfold validate at hvalid
    obtain ⟨_, hvalidated, _⟩ := bind_eq_ok.mp hvalid
    exact .explicit hvhost
      (validate_listeners_explicit hvalidated hvhost (Bool.eq_false_iff.mpr hnonempty)) hlisteners

theorem compile_default_vhost {config : Config} {snapshot : ConfigSnapshot}
    (h : compile config = .ok snapshot) :
    snapshot.default_vhost = ⟨"server", config.server.server_names, none⟩ := by
  unfold compile at h
  obtain ⟨_, _, h⟩ := bind_eq_ok.mp h
  obtain ⟨listeners, _, h⟩ := bind_eq_ok.mp h
  obtain rfl := Except.ok.inj h
  rfl

/-- No two listeners of an accepted configuration have the same id. -/
theorem accepted_ids_nodup {snapshot : ConfigSnapshot} (h : snapshot.Accepted) :
    (snapshot.listeners.map Listener.id).Nodup := by
  obtain ⟨config, hcompile⟩ := h
  obtain ⟨_, hdeclares, _⟩ := compile_ok hcompile
  cases hdeclares with
  | vhosts bindings _ hbindings hlisteners =>
    rw [map_eq_of_mapM hlisteners fun _ _ hrow => (compile_vhost_listener_ok hrow).1,
      ← Function.comp_def, ← List.map_map]
    exact (vhost_listener_bindings_nodup hbindings).map vhost_listener_id_injective
  | legacy listener _ _ hlisteners =>
    rw [hlisteners]
    exact List.nodup_singleton _
  | explicit _ hapart hlisteners =>
    have hinj : Function.Injective fun name : Text => "listener:" ++ String.ofList name :=
      fun _ _ hsame => String.ofList_injective (String.append_right_inj _ |>.mp hsame)
    rw [map_eq_of_mapM hlisteners fun _ _ hrow => (compile_listener_ok hrow).1]
    have hids := hapart.names_apart.map hinj
    rwa [List.map_map] at hids

/-- Where keys are apart, a row is found by its key. -/
theorem find_of_nodup {α κ : Type} [DecidableEq κ] {key : α → κ} {rows : List α}
    (h : (rows.map key).Nodup) {row : α} (hmem : row ∈ rows) :
    rows.find? (fun other => key other = key row) = some row := by
  cases hfind : rows.find? fun other => key other = key row with
  | none => exact absurd (by simp) (List.find?_eq_none.mp hfind row hmem)
  | some other =>
    have hsame : key other = key row := by simpa using List.find?_some hfind
    rw [List.inj_on_of_nodup_map h (List.mem_of_find?_eq_some hfind) hmem hsame]

/-- A listener of an accepted configuration is found by its id. -/
theorem accepted_listener {snapshot : ConfigSnapshot} (h : snapshot.Accepted) {listener : Listener}
    (hmem : listener ∈ snapshot.listeners) : snapshot.listener listener.id = some listener :=
  find_of_nodup (accepted_ids_nodup h) hmem

/-- No two listeners of an accepted configuration have the same TCP address. -/
theorem accepted_tcp_nodup {snapshot : ConfigSnapshot} (h : snapshot.Accepted) :
    (snapshot.listeners.map fun listener => listener.server.listen_addr).Nodup := by
  obtain ⟨config, hcompile⟩ := h
  obtain ⟨_, hdeclares, _⟩ := compile_ok hcompile
  cases hdeclares with
  | vhosts bindings _ hbindings hlisteners =>
    rw [map_eq_of_mapM hlisteners fun _ _ hrow => (compile_vhost_listener_ok hrow).2.1]
    exact vhost_listener_bindings_nodup hbindings
  | legacy listener _ _ hlisteners =>
    rw [hlisteners]
    exact List.nodup_singleton _
  | explicit _ hapart hlisteners =>
    rw [map_eq_of_mapM hlisteners fun _ _ hrow => (compile_listener_ok hrow).2.1]
    have hpairwise := (List.nodup_flatMap.mp hapart.bindings_apart).2
    refine List.pairwise_map.mpr (hpairwise.imp ?_)
    intro listener other hdisjoint hsame
    refine hdisjoint List.mem_cons_self ?_
    rw [ListenerConfig.bindings, hsame]
    exact List.mem_cons_self

theorem validate_virtual_hosts_ok {require_vhost_listen : Bool} {idx : Nat}
    {vhosts : List VirtualHostConfig}
    (h : validate_virtual_hosts require_vhost_listen idx vhosts = .ok ()) :
    ∀ vhost ∈ vhosts, vhost.server_names ≠ [] ∧
      (vhost.listen.any (·.ssl) = true → vhost.tls.isSome = true) := by
  induction vhosts generalizing idx with
  | nil => exact List.forall_mem_nil _
  | cons vhost vhosts ih =>
    obtain ⟨_, hvhost, hrest⟩ := bind_eq_ok.mp h
    refine List.forall_mem_cons.mpr ⟨?_, ih hrest⟩
    unfold validate_virtual_host at hvhost
    obtain ⟨_, hlistens, hnames⟩ := bind_eq_ok.mp hvhost
    constructor
    · intro hempty
      rw [hempty] at hnames
      simp only [List.isEmpty_nil, if_true] at hnames
      split_ifs at hnames
    · intro hssl
      unfold validate_vhost_listens at hlistens
      rw [hssl] at hlistens
      by_contra hnone
      rw [Bool.not_eq_true, Option.isSome_eq_false_iff] at hnone
      simp only [hnone, Bool.and_self, if_true] at hlistens
      split_ifs at hlistens

/-- Where TLS is enabled, there is a certificate to serve, with a name to serve it under. -/
theorem accepted_tls {snapshot : ConfigSnapshot} (h : snapshot.Accepted) {listener : Listener}
    (hmem : listener ∈ snapshot.listeners) (htls : listener.tls_enabled = true) :
    listener.server.tls.isSome = true ∨
      ∃ vhost ∈ snapshot.vhosts, vhost.tls.isSome = true ∧ vhost.server_names ≠ [] := by
  obtain ⟨config, hcompile⟩ := h
  obtain ⟨hvalid, hdeclares, hvhosts⟩ := compile_ok hcompile
  obtain ⟨_, _, hvalid⟩ := bind_eq_ok.mp hvalid
  have hnamed := validate_virtual_hosts_ok hvalid
  have hcompiled : ∀ vhost ∈ config.servers, vhost.tls.isSome = true →
      ∃ vhost ∈ snapshot.vhosts, vhost.tls.isSome = true ∧ vhost.server_names ≠ [] := by
    intro vhost hvhost hsome
    obtain ⟨index, hindex, rfl⟩ := List.mem_iff_getElem.mp hvhost
    refine ⟨compile_virtual_host s!"servers[{index}]" config.servers[index], ?_, hsome,
      (hnamed _ hvhost).1⟩
    rw [hvhosts, List.mem_mapIdx]
    exact ⟨index, hindex, rfl⟩
  cases hdeclares with
  | vhosts bindings _ hbindings hlisteners =>
    obtain ⟨row, hrow, hlistener⟩ := forall₂_mem (forall₂_of_mapM hlisteners) hmem
    have hssl := (compile_vhost_listener_ok hlistener).2.2.2 ▸ htls
    obtain ⟨vhost, hvhost, hlisten⟩ := vhost_listener_bindings_ssl hbindings row hrow hssl
    exact .inr (hcompiled vhost hvhost ((hnamed vhost hvhost).2 hlisten))
  | legacy only _ honly hlisteners =>
    rw [hlisteners, List.mem_singleton] at hmem
    subst hmem
    obtain ⟨henabled, htls'⟩ := compile_legacy_server_ok honly
    rw [henabled, Bool.or_eq_true] at htls
    rcases htls with hserver | hany
    · exact .inl (htls' ▸ hserver)
    · obtain ⟨vhost, hvhost, hsome⟩ := List.any_eq_true.mp hany
      exact .inr (hcompiled vhost hvhost hsome)
  | explicit _ _ hlisteners =>
    obtain ⟨raw, _, hlistener⟩ := forall₂_mem (forall₂_of_mapM hlisteners) hmem
    obtain ⟨_, _, _, henabled, htls'⟩ := compile_listener_ok hlistener
    exact .inl (htls' ▸ henabled ▸ htls)

theorem transport_bindings_nodup (listener : Listener) : listener.transport_bindings.Nodup := by
  unfold Listener.transport_bindings
  cases listener.http3 with
  | none => exact List.nodup_singleton _
  | some http3 =>
    refine List.nodup_cons.mpr ⟨?_, List.nodup_singleton _⟩
    rw [Option.map_some, Option.toList_some, List.mem_singleton]
    exact fun hsame => nomatch (Prod.mk.inj hsame).1

/-- Where no virtual host has a listen of its own, the bindings are apart, over UDP too. -/
theorem bindings_nodup_of_no_vhost_listen {config : Config} {snapshot : ConfigSnapshot}
    (h : compile config = .ok snapshot) (hvhost : any_vhost_listen config.servers = false) :
    (snapshot.listeners.flatMap Listener.transport_bindings).Nodup := by
  obtain ⟨_, hdeclares, _⟩ := compile_ok h
  cases hdeclares with
  | vhosts bindings htrue =>
    rw [hvhost] at htrue
    cases htrue
  | legacy listener _ _ hlisteners =>
    rw [hlisteners, List.flatMap_singleton]
    exact transport_bindings_nodup listener
  | explicit _ hapart hlisteners =>
    have hsame := map_eq_of_mapM hlisteners fun _ _ hrow => (compile_listener_ok hrow).2.2.1
    rw [List.flatMap_def, hsame, ← List.flatMap_def]
    exact hapart.bindings_apart

end rginx.config
