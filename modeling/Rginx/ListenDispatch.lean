-- Which virtual host serves a request that came at an address: the listens of the virtual
-- hosts decide where the server is bound, from `compile/server/listener.rs` of the crate
-- `rginx-config`, and the host of the request alone decides who serves it, from
-- `handler/dispatch` of the crate `rginx-http`.
import Rginx.VirtualHosts

open rust_text rust_net rust_result rginx.config rginx.cache selection

namespace rginx.config

/-! ## The addresses of the listeners -/

def VirtualHostConfig.listens_on (vhost : VirtualHostConfig) (addr : SocketAddr) : Bool :=
  vhost.listen.any (·.addr = addr)

/-- Where each step of a fold adds the members of its item, the fold adds those of all items. -/
theorem foldlM_adds {α β γ : Type} {f : β → α → Except String β} {Holds : β → γ → Prop}
    {Adds : α → γ → Prop} {items : List α}
    (hstep : ∀ item ∈ items, ∀ b b', f b item = .ok b' →
      ∀ member, Holds b' member ↔ Holds b member ∨ Adds item member)
    {b b' : β} (h : items.foldlM f b = .ok b') (member : γ) :
    Holds b' member ↔ Holds b member ∨ ∃ item ∈ items, Adds item member := by
  induction items generalizing b with
  | nil =>
    obtain rfl := Except.ok.inj h
    simp
  | cons item items ih =>
    rw [List.foldlM_cons, bind_eq_ok] at h
    obtain ⟨middle, hmiddle, hrest⟩ := h
    rw [ih (fun other hother => hstep other (List.mem_cons_of_mem _ hother)) hrest,
      hstep item List.mem_cons_self b middle hmiddle]
    simp [or_assoc]

def VhostBindings.Binds (bindings : VhostBindings) (addr : SocketAddr) : Prop :=
  addr ∈ bindings.map Prod.fst

theorem add_vhost_listen_binds {vhost : VirtualHostConfig} {bindings bindings' : VhostBindings}
    {parsed : ParsedVhostListen} (h : add_vhost_listen vhost bindings parsed = .ok bindings')
    (addr : SocketAddr) : bindings'.Binds addr ↔ bindings.Binds addr ∨ parsed.addr = addr := by
  unfold add_vhost_listen at h
  dsimp only at h
  cases hget : bindings.get parsed.addr with
  | none =>
    rw [hget] at h
    obtain rfl := Except.ok.inj h
    unfold VhostBindings.Binds
    rw [List.map_append, List.map_singleton, List.mem_append, List.mem_singleton, eq_comm]
  | some binding =>
    rw [hget] at h
    obtain ⟨_, _, h⟩ := bind_eq_ok.mp h
    have hkept : bindings'.map Prod.fst = bindings.map Prod.fst := by
      rw [← Except.ok.inj h, List.map_map]
      refine List.map_congr_left fun row _ => ?_
      dsimp only [Function.comp]
      split <;> rfl
    unfold VhostBindings.Binds
    rw [hkept]
    refine (or_iff_left_of_imp ?_).symm
    rintro rfl
    obtain ⟨row, hfind, _⟩ := Option.map_eq_some_iff.mp hget
    have haddr : row.1 = parsed.addr := by simpa using List.find?_some hfind
    exact haddr ▸ List.mem_map_of_mem (List.mem_of_find?_eq_some hfind)

/-- The bindings are at the addresses of the listens. -/
theorem vhost_listener_bindings_binds {vhosts : List VirtualHostConfig} {bindings : VhostBindings}
    (h : vhost_listener_bindings vhosts = .ok bindings) (addr : SocketAddr) :
    bindings.Binds addr ↔ ∃ vhost ∈ vhosts, vhost.listens_on addr = true := by
  have hvhost : ∀ vhost ∈ vhosts, ∀ before after,
      vhost.listen.foldlM (add_vhost_listen vhost) before = .ok after →
      ∀ addr, VhostBindings.Binds after addr ↔ before.Binds addr ∨
        ∃ parsed ∈ vhost.listen, parsed.addr = addr :=
    fun vhost _ _ _ hfold => foldlM_adds (fun _ _ _ _ hadd => add_vhost_listen_binds hadd) hfold
  rw [foldlM_adds hvhost h addr]
  simp [VhostBindings.Binds, VirtualHostConfig.listens_on]

/-- The server is bound where some virtual host listens, and nowhere else. -/
theorem listener_addresses {config : Config} {snapshot : ConfigSnapshot}
    (h : compile config = .ok snapshot) (hvhost : any_vhost_listen config.servers = true)
    (addr : SocketAddr) :
    (∃ listener ∈ snapshot.listeners, listener.server.listen_addr = addr) ↔
      ∃ vhost ∈ config.servers, vhost.listens_on addr = true := by
  obtain ⟨_, hdeclares, _⟩ := compile_ok h
  cases hdeclares with
  | legacy _ hnone => simp [hvhost] at hnone
  | explicit hnone => simp [hvhost] at hnone
  | vhosts bindings _ hbindings hlisteners =>
    have haddrs := map_eq_of_mapM hlisteners fun _ _ hrow => (compile_vhost_listener_ok hrow).2.1
    rw [← vhost_listener_bindings_binds hbindings, VhostBindings.Binds, ← haddrs, List.mem_map]

/-! ## Who serves a host -/

/-- The declaration at this place has the best match, and those before it have a worse one. -/
abbrev Serves (vhosts : List VirtualHostConfig) (host : Text) (index : Nat)
    (vhost : VirtualHostConfig) : Prop :=
  FirstOffer VirtualHostConfig.server_names vhosts host index vhost

/-- No name of any virtual host matches. -/
abbrev Unserved (vhosts : List VirtualHostConfig) (host : Text) : Prop :=
  NoOffer VirtualHostConfig.server_names vhosts host

/-- The declaration that serves a host, or none where no name matches. -/
def ServedBy (vhosts : List VirtualHostConfig) (host : Text) : Option VirtualHostConfig → Prop
  | some vhost => ∃ index, Serves vhosts host index vhost
  | none => Unserved vhosts host

theorem servedBy_iff {vhosts : List VirtualHostConfig} {host : Text}
    {served : Option VirtualHostConfig} :
    ServedBy vhosts host served ↔
      (select (fun vhost => rank host vhost.server_names) vhosts).map Prod.snd = served := by
  cases served with
  | some vhost =>
    rw [ServedBy, exists_firstOffer_iff, Option.map_eq_some_iff]
    exact ⟨fun ⟨priority, h⟩ => ⟨_, h, rfl⟩, fun ⟨best, h, hbest⟩ => ⟨best.1, hbest ▸ h⟩⟩
  | none =>
    rw [ServedBy, Unserved, noOffer_iff, Option.map_eq_none_iff, select_eq_none]

theorem exists_servedBy (vhosts : List VirtualHostConfig) (host : Text) :
    ∃ served, ServedBy vhosts host served :=
  ⟨_, servedBy_iff.mpr rfl⟩

theorem ServedBy.unique {vhosts : List VirtualHostConfig} {host : Text}
    {served served' : Option VirtualHostConfig} (h : ServedBy vhosts host served)
    (h' : ServedBy vhosts host served') : served = served' :=
  (servedBy_iff.mp h).symm.trans (servedBy_iff.mp h')

/-- Declarations that match nothing may be left out. -/
theorem servedBy_filter {vhosts vhosts' : List VirtualHostConfig} {keep : VirtualHostConfig → Bool}
    {host : Text} (hsame : vhosts.filter keep = vhosts'.filter keep)
    (h : Unserved (vhosts.filter (!keep ·)) host) (h' : Unserved (vhosts'.filter (!keep ·)) host)
    {served : Option VirtualHostConfig} :
    ServedBy vhosts host served ↔ ServedBy vhosts' host served := by
  have hdropped : ∀ vhosts : List VirtualHostConfig, Unserved (vhosts.filter (!keep ·)) host →
      select (fun vhost => rank host vhost.server_names) (vhosts.filter keep) =
        select (fun vhost => rank host vhost.server_names) vhosts := by
    intro vhosts hunserved
    refine select_filter vhosts fun other hother hkeep => ?_
    exact noOffer_iff.mp hunserved other (List.mem_filter.mpr ⟨hother, by simp [hkeep]⟩)
  rw [servedBy_iff, servedBy_iff, ← hdropped vhosts h, ← hdropped vhosts' h', hsame]

end rginx.config

namespace rginx.http

/-- `handle`, up to the virtual host: the listener is the one at which the request came. -/
def handle_vhost (config : ConfigSnapshot) (listener_id : String) (headers : HeaderMap)
    (authority : Option Text) : Option (Listener × VirtualHost) :=
  (config.listener listener_id).map fun listener =>
    (listener, select_vhost_for_request config headers authority)

/-- The selection among compiled virtual hosts is that among their declarations. -/
theorem select_vhost_serves (vhosts : List VirtualHostConfig) (id : Nat → String)
    (default : VirtualHost) (host : Text) :
    (∃ index vhost, Serves vhosts host index vhost ∧
      select_vhost (vhosts.mapIdx fun index vhost => compile_virtual_host (id index) vhost) default
        host = compile_virtual_host (id index) vhost) ∨
    (Unserved vhosts host ∧
      select_vhost (vhosts.mapIdx fun index vhost => compile_virtual_host (id index) vhost) default
        host = default) := by
  have hcompiled : ∀ (index : Nat) vhost, vhosts[index]? = some vhost →
      (vhosts.mapIdx fun index vhost => compile_virtual_host (id index) vhost)[index]? =
        some (compile_virtual_host (id index) vhost) := by
    intro index vhost hindex
    rw [List.getElem?_mapIdx, hindex]
    rfl
  rcases select_vhost_spec (vhosts.mapIdx fun index vhost => compile_virtual_host (id index) vhost)
    default host with ⟨index, hselected⟩ | ⟨hnone, hselected⟩
  · have hdeclared := hselected.declared
    rw [List.getElem?_mapIdx] at hdeclared
    obtain ⟨vhost, hindex, hvhost⟩ := Option.map_eq_some_iff.mp hdeclared
    obtain ⟨priority, hoffers, hothers⟩ := hselected.best
    refine .inl ⟨index, vhost, ⟨hindex, priority, ?_, ?_⟩, hvhost.symm⟩
    · rw [← hvhost] at hoffers
      exact hoffers
    · exact fun other_index other hother => hothers other_index _ (hcompiled other_index other hother)
  · refine .inr ⟨fun vhost hvhost => ?_, hselected⟩
    obtain ⟨index, hindex⟩ := List.mem_iff_getElem?.mp hvhost
    exact hnone (compile_virtual_host (id index) vhost)
      (List.mem_iff_getElem?.mpr ⟨index, hcompiled index vhost hindex⟩)

/-- Every listener of the configuration hands a request to the same virtual host. -/
theorem handle_vhost_eq {snapshot : ConfigSnapshot} (h : snapshot.Accepted) {listener : Listener}
    (hmem : listener ∈ snapshot.listeners) (headers : HeaderMap) (authority : Option Text) :
    handle_vhost snapshot listener.id headers authority =
      some (listener, select_vhost snapshot.vhosts snapshot.default_vhost
        (request_host headers authority)) := by
  rw [handle_vhost, accepted_listener h hmem]
  rfl

/-- The request is handled by a virtual host as it was declared, or by the default one. -/
def HandledBy (config : Config) (snapshot : ConfigSnapshot) (listener : Listener)
    (headers : HeaderMap) (authority : Option Text) : Option VirtualHostConfig → Prop
  | some vhost => ∃ index : Nat, config.servers[index]? = some vhost ∧
      handle_vhost snapshot listener.id headers authority =
        some (listener, compile_virtual_host s!"servers[{index}]" vhost)
  | none => handle_vhost snapshot listener.id headers authority =
      some (listener, snapshot.default_vhost)

/-- Every listener leaves a request to the declaration that serves its host. -/
theorem handledBy_of_servedBy {config : Config} {snapshot : ConfigSnapshot}
    (h : compile config = .ok snapshot) {headers : HeaderMap} {authority : Option Text}
    {served : Option VirtualHostConfig}
    (hserved : ServedBy config.servers (request_host headers authority) served)
    {listener : Listener} (hmem : listener ∈ snapshot.listeners) :
    HandledBy config snapshot listener headers authority served := by
  have hhandle := handle_vhost_eq ⟨config, h⟩ hmem headers authority
  rw [(compile_ok h).2.2] at hhandle
  rcases select_vhost_serves config.servers (fun index => s!"servers[{index}]")
    snapshot.default_vhost (request_host headers authority) with
    ⟨index, vhost, hserves, hselect⟩ | ⟨hunserved, hselect⟩
  · have hselected : ServedBy config.servers (request_host headers authority) (some vhost) :=
      ⟨index, hserves⟩
    obtain rfl := hselected.unique hserved
    exact ⟨index, hserves.declared, by rw [hhandle, hselect]⟩
  · have hselected : ServedBy config.servers (request_host headers authority) none := hunserved
    obtain rfl := hselected.unique hserved
    rw [hselect] at hhandle
    exact hhandle

/-- The listens say where the server is bound. Who handles a request is decided by its host
among all virtual hosts, at whichever address it came; those that do not listen there
make no difference where they do not match. -/
theorem listens_bind_and_hosts_select {config : Config} {snapshot : ConfigSnapshot}
    (hcompile : compile config = .ok snapshot) (hvhost : any_vhost_listen config.servers = true) :
    (∀ addr, (∃ listener ∈ snapshot.listeners, listener.server.listen_addr = addr) ↔
      ∃ vhost ∈ config.servers, vhost.listens_on addr = true) ∧
    (∀ headers authority, ∃ served,
      ServedBy config.servers (request_host headers authority) served ∧
        ∀ listener ∈ snapshot.listeners,
          HandledBy config snapshot listener headers authority served) ∧
    ∀ config' snapshot', compile config' = .ok snapshot' → config'.server = config.server →
      snapshot'.default_vhost = snapshot.default_vhost ∧
      ∀ addr, config.servers.filter (·.listens_on addr) = config'.servers.filter (·.listens_on addr) →
      ∀ headers authority,
      Unserved (config.servers.filter (!·.listens_on addr)) (request_host headers authority) →
      Unserved (config'.servers.filter (!·.listens_on addr)) (request_host headers authority) →
      ∃ served, (∀ listener ∈ snapshot.listeners,
          HandledBy config snapshot listener headers authority served) ∧
        ∀ listener ∈ snapshot'.listeners,
          HandledBy config' snapshot' listener headers authority served := by
  refine ⟨listener_addresses hcompile hvhost, ?_, ?_⟩
  · intro headers authority
    obtain ⟨served, hserved⟩ := exists_servedBy config.servers (request_host headers authority)
    exact ⟨served, hserved, fun listener hmem => handledBy_of_servedBy hcompile hserved hmem⟩
  · intro config' snapshot' hcompile' hserver
    refine ⟨?_, ?_⟩
    · rw [compile_default_vhost hcompile', compile_default_vhost hcompile, hserver]
    · intro addr hsame headers authority hothers hothers'
      obtain ⟨served, hserved⟩ := exists_servedBy config.servers (request_host headers authority)
      have hserved' := (servedBy_filter hsame hothers hothers').mp hserved
      exact ⟨served, fun listener hmem => handledBy_of_servedBy hcompile hserved hmem,
        fun listener hmem => handledBy_of_servedBy hcompile' hserved' hmem⟩

/-! ## Two sites at two addresses -/

def local_addr (port : Nat) : SocketAddr := ⟨.V4 0x7f000001#32, port⟩

def site (port : Nat) (name : String) : VirtualHostConfig :=
  ⟨[⟨local_addr port, false, false, false⟩], [name], none, none⟩

def sites (servers : List VirtualHostConfig) : Config :=
  ⟨⟨none, 1⟩, [], ⟨none, none, none, [], none, none⟩, servers⟩

def site_listener (port : Nat) : Listener :=
  ⟨vhost_listener_id (local_addr port), vhost_listener_name (local_addr port),
    ⟨local_addr port, none, none⟩, false, none⟩

def compiled_sites (servers : List VirtualHostConfig) (listeners : List Listener) :
    ConfigSnapshot :=
  ⟨⟨none, 1⟩, listeners, ⟨"server", [], none⟩,
    servers.mapIdx fun index vhost => compile_virtual_host s!"servers[{index}]" vhost⟩

theorem listens_bind_and_hosts_select_two_sites : ∃ served,
    ServedBy [site 8080 "a.example", site 9090 "b.example"]
        (request_host [] (some "b.example".toList)) served ∧
      ∀ listener ∈ [site_listener 8080, site_listener 9090],
        HandledBy (sites [site 8080 "a.example", site 9090 "b.example"])
          (compiled_sites [site 8080 "a.example", site 9090 "b.example"]
            [site_listener 8080, site_listener 9090]) listener [] (some "b.example".toList) served :=
  (@listens_bind_and_hosts_select (sites [site 8080 "a.example", site 9090 "b.example"]) _ rfl
    (by decide)).2.1 [] (some "b.example".toList)

/-- The site that listens on port 9090 alone serves its host on port 8080 as well, where
without it the default virtual host would. -/
theorem another_address_serves : ∃ host : HeaderValue, host.to_str = some "b.example".toList ∧
    compile (sites [site 8080 "a.example", site 9090 "b.example"]) =
      .ok (compiled_sites [site 8080 "a.example", site 9090 "b.example"]
        [site_listener 8080, site_listener 9090]) ∧
    handle_vhost (compiled_sites [site 8080 "a.example", site 9090 "b.example"]
        [site_listener 8080, site_listener 9090]) (site_listener 8080).id [(HOST, host)] none =
      some (site_listener 8080, compile_virtual_host "servers[1]" (site 9090 "b.example")) ∧
    (site 9090 "b.example").listens_on (site_listener 8080).server.listen_addr = false ∧
    compile (sites [site 8080 "a.example"]) =
      .ok (compiled_sites [site 8080 "a.example"] [site_listener 8080]) ∧
    handle_vhost (compiled_sites [site 8080 "a.example"] [site_listener 8080])
        (site_listener 8080).id [(HOST, host)] none =
      some (site_listener 8080, ⟨"server", [], none⟩) := by
  obtain ⟨host, _, hhost⟩ := HeaderValue.from_str_visible (s := "b.example".toList) (by simp)
  have hrequest : request_host [(HOST, host)] none = "b.example".toList := by
    simp [request_host, HeaderMap.get_str, HeaderMap.get, HeaderMap.get_all, hhost]
  refine ⟨host, hhost, rfl, ?_, by decide, rfl, ?_⟩
  · rw [handle_vhost, select_vhost_for_request, hrequest]
    rfl
  · rw [handle_vhost, select_vhost_for_request, hrequest]
    rfl

end rginx.http
