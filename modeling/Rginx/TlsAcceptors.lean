-- The TLS acceptors of the listeners, from `tls/acceptor.rs`, `tls/certificates.rs`,
-- `tls/sni.rs` and `state/helpers.rs` of the crate `rginx-http`. What `rustls` and the
-- certificate files give is a parameter.
import Mathlib.Logic.Function.Basic
import Rginx.ListenerConfigs

open rust_text rust_result rginx.config

namespace rginx.http

/-! ## Building an acceptor -/

/-- What the acceptors take from elsewhere: the lower case of a name, the certificate and
the key that files hold, and the other parts of a server configuration. -/
structure TlsLibrary (Files Key Policy : Type) where
  to_lowercase : String → String
  load_certified_key_bundle : Files → ServerCertificateBundle → Except String Key
  build_server_config : Files → Option ServerTls → Except String Policy

abbrev CertificatesByName (Key : Type) := List (String × List Key)

structure TlsAcceptor (Key Policy : Type) where
  default_certs : List Key
  all_certs : CertificatesByName Key
  alpn_protocols : List String
  policy : Policy
  deriving DecidableEq

variable {Files Key Policy : Type}

def CertificatesByName.get (all_certs : CertificatesByName Key) (name : String) :
    Option (List Key) :=
  (all_certs.find? fun row => row.1 = name).map Prod.snd

/-- `entry(name).or_default().extend(certs)`. -/
def CertificatesByName.extend (all_certs : CertificatesByName Key) (name : String)
    (certs : List Key) : CertificatesByName Key :=
  if all_certs.any fun row => row.1 = name then
    all_certs.map fun row => if row.1 = name then (row.1, row.2 ++ certs) else row
  else all_certs ++ [(name, certs)]

section Build

variable (library : TlsLibrary Files Key Policy)

def register_server_name_certificates (all_certs : CertificatesByName Key)
    (server_names : List String) (certs : List Key) : CertificatesByName Key :=
  server_names.foldl (fun all_certs name => all_certs.extend (library.to_lowercase name) certs)
    all_certs

def load_certified_keys_from_material (files : Files) (cert_path key_path : String)
    (additional_certificates : List ServerCertificateBundle) (ocsp_staple_path : Option String)
    (ocsp : OcspConfig) : Except String (List Key) :=
  (⟨cert_path, key_path, ocsp_staple_path, ocsp⟩ :: additional_certificates).mapM
    (library.load_certified_key_bundle files)

def load_certified_keys (files : Files) (tls : ServerTls) : Except String (List Key) :=
  load_certified_keys_from_material library files tls.cert_path tls.key_path
    tls.additional_certificates tls.ocsp_staple_path tls.ocsp

def load_vhost_certified_keys (files : Files) (tls : VirtualHostTls) : Except String (List Key) :=
  load_certified_keys_from_material library files tls.cert_path tls.key_path
    tls.additional_certificates tls.ocsp_staple_path tls.ocsp

def register_vhost (files : Files) (all_certs : CertificatesByName Key) (vhost : VirtualHost) :
    Except String (CertificatesByName Key) :=
  match vhost.tls with
  | none => .ok all_certs
  | some tls => do
    let cert_keys ← load_vhost_certified_keys library files tls
    return register_server_name_certificates library all_certs vhost.server_names cert_keys

def load_listener_default_certs (files : Files) (default_tls : Option ServerTls) :
    Except String (List Key) :=
  match default_tls with
  | none => .ok []
  | some tls => load_certified_keys library files tls

/-- The certificates that a listener can serve: its own, and those by name. -/
def load_all_certs (files : Files) (default_tls : Option ServerTls) (default_vhost : VirtualHost)
    (vhosts : List VirtualHost) : Except String (List Key × CertificatesByName Key) := do
  let listener_default_certs ← load_listener_default_certs library files default_tls
  let all_certs := if default_tls.isSome then
      register_server_name_certificates library [] default_vhost.server_names listener_default_certs
    else []
  let all_certs ← register_vhost library files all_certs default_vhost
  let all_certs ← vhosts.foldlM (register_vhost library files) all_certs
  return (listener_default_certs, all_certs)

/-- The certificates of the name in `default_certificate`. -/
def named_certs (all_certs : CertificatesByName Key) (default_certificate : Option String) :
    Except String (List Key) :=
  match (default_certificate.map fun name => trim name.toList).filter (· ≠ []) with
  | none => .ok []
  | some name =>
    let default_certificate := String.ofList name
    match all_certs.get (library.to_lowercase default_certificate) with
    | some certs => .ok certs
    | none => .error s!"default_certificate `{default_certificate}` does not match any TLS-enabled server_name"

def default_certs_of (named listener_default_certs : List Key)
    (all_certs : CertificatesByName Key) : List Key :=
  let default_certs := if named.isEmpty then listener_default_certs else named
  if default_certs.isEmpty && all_certs.length == 1 then
    ((all_certs.head?.map Prod.snd).getD [])
  else default_certs

def build_tls_acceptor (files : Files) (default_tls : Option ServerTls)
    (default_certificate : Option String) (tls_termination_enabled : Bool)
    (default_vhost : VirtualHost) (vhosts : List VirtualHost) :
    Except String (Option (TlsAcceptor Key Policy)) :=
  if !tls_termination_enabled then .ok none
  else do
    let (listener_default_certs, all_certs) ←
      load_all_certs library files default_tls default_vhost vhosts
    let named ← named_certs library all_certs default_certificate
    let default_certs := default_certs_of named listener_default_certs all_certs
    if default_certs.isEmpty && all_certs.isEmpty then return none
    else
      let policy ← library.build_server_config files default_tls
      return some {
        default_certs
        all_certs
        alpn_protocols := (default_tls.bind (·.alpn_protocols)).getD ["h2", "http/1.1"]
        policy }

/-! ## The acceptors of a configuration -/

def build_listener_tls_acceptor (files : Files) (config : ConfigSnapshot) (listener : Listener) :
    Except String (Option (TlsAcceptor Key Policy)) :=
  build_tls_acceptor library files listener.server.tls listener.server.default_certificate
    listener.tls_enabled config.default_vhost config.vhosts

/-- `HashMap<String, Option<TlsAcceptor>>`. -/
abbrev ListenerTlsAcceptors (Key Policy : Type) := String → Option (Option (TlsAcceptor Key Policy))

/-- `collect` into a map, where a later row takes the place of an earlier one. -/
def collect_acceptors (rows : List (String × Option (TlsAcceptor Key Policy))) :
    ListenerTlsAcceptors Key Policy :=
  rows.foldl (fun acceptors row => Function.update acceptors row.1 (some row.2)) fun _ => none

def prepare_listener_tls_acceptors (files : Files) (config : ConfigSnapshot) :
    Except String (ListenerTlsAcceptors Key Policy) := do
  let rows ← config.listeners.mapM fun listener => do
    let tls_acceptor ← build_listener_tls_acceptor library files config listener
    return (listener.id, tls_acceptor)
  return collect_acceptors rows

end Build

/-! ## Where TLS is enabled there is an acceptor -/

theorem extend_ne_nil (all_certs : CertificatesByName Key) (name : String) (certs : List Key) :
    all_certs.extend name certs ≠ [] := by
  unfold CertificatesByName.extend
  split
  · rename_i hany
    obtain ⟨row, hrow, _⟩ := List.any_eq_true.mp hany
    exact fun hnil => List.ne_nil_of_mem hrow (List.map_eq_nil_iff.mp hnil)
  · exact List.append_ne_nil_of_right_ne_nil _ (List.cons_ne_nil _ _)

variable {library : TlsLibrary Files Key Policy}

theorem register_ne_nil {all_certs : CertificatesByName Key} {server_names : List String}
    {certs : List Key} (h : all_certs ≠ [] ∨ server_names ≠ []) :
    register_server_name_certificates library all_certs server_names certs ≠ [] := by
  unfold register_server_name_certificates
  induction server_names generalizing all_certs with
  | nil => exact h.resolve_right fun hne => hne rfl
  | cons name server_names ih => exact ih (.inl (extend_ne_nil _ _ _))

theorem load_certified_keys_ne_nil {files : Files} {tls : ServerTls} {certs : List Key}
    (h : load_certified_keys library files tls = .ok certs) : certs ≠ [] := by
  cases forall₂_of_mapM h with
  | cons _ _ => exact List.cons_ne_nil _ _

/-- A virtual host takes no certificate away, and adds those of its own. -/
theorem register_vhost_ne_nil {files : Files} {all_certs all_certs' : CertificatesByName Key}
    {vhost : VirtualHost} (h : register_vhost library files all_certs vhost = .ok all_certs')
    (hcerts : all_certs ≠ [] ∨ vhost.tls.isSome = true ∧ vhost.server_names ≠ []) :
    all_certs' ≠ [] := by
  unfold register_vhost at h
  cases htls : vhost.tls with
  | none =>
    rw [htls] at h hcerts
    obtain rfl := Except.ok.inj h
    exact hcerts.resolve_right fun hsome => nomatch hsome.1
  | some tls =>
    rw [htls] at h
    obtain ⟨cert_keys, _, h⟩ := bind_eq_ok.mp h
    obtain rfl := Except.ok.inj h
    exact register_ne_nil (hcerts.imp_right And.right)

theorem register_vhosts_ne_nil {files : Files} {vhosts : List VirtualHost}
    {all_certs all_certs' : CertificatesByName Key}
    (h : vhosts.foldlM (register_vhost library files) all_certs = .ok all_certs')
    (hcerts : all_certs ≠ [] ∨
      ∃ vhost ∈ vhosts, vhost.tls.isSome = true ∧ vhost.server_names ≠ []) : all_certs' ≠ [] := by
  induction vhosts generalizing all_certs with
  | nil =>
    obtain rfl := Except.ok.inj h
    exact hcerts.resolve_right fun ⟨_, hmem, _⟩ => nomatch hmem
  | cons vhost vhosts ih =>
    rw [List.foldlM_cons, bind_eq_ok] at h
    obtain ⟨middle, hmiddle, hrest⟩ := h
    refine ih hrest ?_
    rcases hcerts with hcerts | ⟨other, hother, hserves⟩
    · exact .inl (register_vhost_ne_nil hmiddle (.inl hcerts))
    · rcases List.mem_cons.mp hother with rfl | hlater
      · exact .inl (register_vhost_ne_nil hmiddle (.inr hserves))
      · exact .inr ⟨other, hlater, hserves⟩

theorem default_certs_of_ne_nil {named listener_default_certs : List Key}
    (all_certs : CertificatesByName Key) (h : listener_default_certs ≠ []) :
    default_certs_of named listener_default_certs all_certs ≠ [] := by
  have hdefault : (if named.isEmpty then listener_default_certs else named) ≠ [] := by
    split
    · exact h
    · rename_i hnamed
      exact fun hnil => hnamed (List.isEmpty_iff.mpr hnil)
  unfold default_certs_of
  dsimp only
  rw [if_neg]
  · exact hdefault
  · intro hempty
    exact hdefault (List.isEmpty_iff.mp (Bool.and_eq_true_iff.mp hempty).1)

/-- With a certificate of the listener, or of a named virtual host, there is an acceptor. -/
theorem build_tls_acceptor_isSome {files : Files} {default_tls : Option ServerTls}
    {default_certificate : Option String} {default_vhost : VirtualHost} {vhosts : List VirtualHost}
    {tls_acceptor : Option (TlsAcceptor Key Policy)}
    (h : build_tls_acceptor library files default_tls default_certificate true default_vhost vhosts =
      .ok tls_acceptor)
    (hcerts : default_tls.isSome = true ∨
      ∃ vhost ∈ vhosts, vhost.tls.isSome = true ∧ vhost.server_names ≠ []) :
    tls_acceptor.isSome = true := by
  unfold build_tls_acceptor at h
  rw [if_neg (by decide)] at h
  obtain ⟨⟨listener_default_certs, all_certs⟩, hload, h⟩ := bind_eq_ok.mp h
  obtain ⟨named, _, h⟩ := bind_eq_ok.mp h
  dsimp only at h
  split at h
  · rename_i hempty
    obtain ⟨hdefault, hall⟩ := Bool.and_eq_true_iff.mp hempty
    exfalso
    unfold load_all_certs at hload
    obtain ⟨own, hown, hload⟩ := bind_eq_ok.mp hload
    obtain ⟨first, hfirst, hload⟩ := bind_eq_ok.mp hload
    obtain ⟨last, hlast, hload⟩ := bind_eq_ok.mp hload
    obtain ⟨rfl, rfl⟩ := Prod.mk.inj (Except.ok.inj hload)
    rcases hcerts with htls | hvhost
    · obtain ⟨tls, rfl⟩ := Option.isSome_iff_exists.mp htls
      exact default_certs_of_ne_nil last (load_certified_keys_ne_nil hown)
        (List.isEmpty_iff.mp hdefault)
    · exact register_vhosts_ne_nil hlast (.inr hvhost) (List.isEmpty_iff.mp hall)
  · obtain ⟨policy, _, h⟩ := bind_eq_ok.mp h
    obtain rfl := Except.ok.inj h
    rfl

/-- A listener of an accepted configuration with TLS gets an acceptor. -/
theorem accepted_build_isSome {files : Files} {config : ConfigSnapshot} {listener : Listener}
    {tls_acceptor : Option (TlsAcceptor Key Policy)} (haccepted : config.Accepted)
    (hmem : listener ∈ config.listeners) (htls : listener.tls_enabled = true)
    (h : build_listener_tls_acceptor library files config listener = .ok tls_acceptor) :
    tls_acceptor.isSome = true := by
  unfold build_listener_tls_acceptor at h
  rw [htls] at h
  exact build_tls_acceptor_isSome h (accepted_tls haccepted hmem htls)

theorem collect_acceptors_append (rows : List (String × Option (TlsAcceptor Key Policy)))
    (row : String × Option (TlsAcceptor Key Policy)) :
    collect_acceptors (rows ++ [row]) =
      Function.update (collect_acceptors rows) row.1 (some row.2) :=
  List.foldl_append

theorem collect_acceptors_of_notMem {rows : List (String × Option (TlsAcceptor Key Policy))}
    {id : String} (h : id ∉ rows.map Prod.fst) : collect_acceptors rows id = none := by
  induction rows using List.reverseRecOn with
  | nil => rfl
  | append_singleton rows row ih =>
    rw [List.map_append, List.mem_append, not_or] at h
    rw [collect_acceptors_append, Function.update_of_ne]
    · exact ih h.1
    · exact fun hsame => h.2 (List.mem_singleton.mpr hsame)

theorem collect_acceptors_of_mem {rows : List (String × Option (TlsAcceptor Key Policy))}
    (hnodup : (rows.map Prod.fst).Nodup) {row : String × Option (TlsAcceptor Key Policy)}
    (hmem : row ∈ rows) : collect_acceptors rows row.1 = some row.2 := by
  induction rows using List.reverseRecOn with
  | nil => cases hmem
  | append_singleton rows last ih =>
    rw [List.map_append, List.nodup_append] at hnodup
    obtain ⟨hrows, _, hapart⟩ := hnodup
    rw [collect_acceptors_append]
    rcases List.mem_append.mp hmem with hbefore | hlast
    · rw [Function.update_of_ne]
      · exact ih hrows hbefore
      · exact hapart row.1 (List.mem_map_of_mem hbefore) last.1 (List.mem_singleton_self _)
    · rw [List.mem_singleton.mp hlast, Function.update_self]

end rginx.http
