-- The transport bindings of an accepted configuration, over TCP and over UDP. Explicit listeners are
-- checked for both; the listens of virtual hosts are merged by their TCP address, and the UDP address
-- of each comes from the HTTP/3 settings of its virtual host.
import Rginx.ListenerConfigs

open rust_net rust_result

namespace rginx.config

/-! ## What a fold of listens declares -/

/-- What an item brings into a fold and every later item keeps, the fold ends with. -/
theorem foldlM_establishes {α β : Type} {Q : α → β → Prop} {f : β → α → Except String β}
    (hestablishes : ∀ item b b', f b item = .ok b' → Q item b')
    (hkeeps : ∀ item other b b', f b item = .ok b' → Q other b → Q other b') {items : List α}
    {b b' : β} (h : items.foldlM f b = .ok b') : ∀ item ∈ items, Q item b' := by
  induction items generalizing b with
  | nil => exact List.forall_mem_nil _
  | cons item items ih =>
    rw [List.foldlM_cons, bind_eq_ok] at h
    obtain ⟨middle, hmiddle, hrest⟩ := h
    refine List.forall_mem_cons.mpr ⟨?_, ih hrest⟩
    exact foldlM_keeps (fun other _ => hkeeps other item) hrest (hestablishes item b middle hmiddle)

/-- The HTTP/3 settings of a listen. -/
def listen_http3 (vhost : VirtualHostConfig) (parsed : ParsedVhostListen) : Option Http3Config :=
  if parsed.http3 then some (vhost.http3.getD {}) else none

/-- The bindings have an entry for the listen. -/
def Has (vhost : VirtualHostConfig) (parsed : ParsedVhostListen) (bindings : VhostBindings) : Prop :=
  ∃ row ∈ bindings, row.1 = parsed.addr ∧ row.2.http3 = listen_http3 vhost parsed

theorem mem_of_get {bindings : VhostBindings} {addr : SocketAddr} {binding : VhostListenerBinding}
    (h : bindings.get addr = some binding) : (addr, binding) ∈ bindings := by
  obtain ⟨row, hfind, rfl⟩ := Option.map_eq_some_iff.mp h
  have haddr : row.1 = addr := by simpa using List.find?_some hfind
  rw [← haddr]
  exact List.mem_of_find?_eq_some hfind

theorem validate_vhost_listener_merge_ok {addr : SocketAddr} {binding : VhostListenerBinding}
    {ssl proxy_protocol : Bool} {http3 : Option Http3Config}
    (h : validate_vhost_listener_merge addr binding ssl proxy_protocol http3 = .ok ()) :
    binding.http3 = http3 := by
  unfold validate_vhost_listener_merge at h
  split_ifs at h with _ _ hhttp3
  exact not_not.mp hhttp3

/-- A listen has its entry from its turn on, and no entry changes its HTTP/3 settings. -/
theorem add_vhost_listen_http3 {vhost : VirtualHostConfig} {bindings bindings' : VhostBindings}
    {parsed : ParsedVhostListen} (h : add_vhost_listen vhost bindings parsed = .ok bindings') :
    Has vhost parsed bindings' ∧
      (∀ row ∈ bindings, ∃ row' ∈ bindings', row'.1 = row.1 ∧ row'.2.http3 = row.2.http3) ∧
      ∀ row' ∈ bindings', (row'.1 = parsed.addr ∧ row'.2.http3 = listen_http3 vhost parsed) ∨
        ∃ row ∈ bindings, row'.1 = row.1 ∧ row'.2.http3 = row.2.http3 := by
  unfold add_vhost_listen at h
  dsimp only at h
  cases hget : bindings.get parsed.addr with
  | none =>
    rw [hget] at h
    obtain rfl := Except.ok.inj h
    refine ⟨⟨_, List.mem_append_right _ (List.mem_singleton_self _), rfl, rfl⟩, ?_, ?_⟩
    · exact fun row hrow => ⟨row, List.mem_append_left _ hrow, rfl, rfl⟩
    · intro row' hrow'
      rcases List.mem_append.mp hrow' with hold | hnew
      · exact .inr ⟨row', hold, rfl, rfl⟩
      · rw [List.mem_singleton.mp hnew]
        exact .inl ⟨rfl, rfl⟩
  | some binding =>
    rw [hget] at h
    obtain ⟨_, hmerge, h⟩ := bind_eq_ok.mp h
    obtain rfl := Except.ok.inj h
    have hsame := validate_vhost_listener_merge_ok hmerge
    have hmap : ∀ row : SocketAddr × VhostListenerBinding, ∀ row',
        row' = (if row.1 = parsed.addr then (row.1, { row.2 with
          default_certificate := row.2.default_certificate.or
            (if parsed.ssl then vhost.server_names.head? else none) }) else (row.1, row.2)) →
        row'.1 = row.1 ∧ row'.2.http3 = row.2.http3 := by
      rintro row row' rfl
      split <;> exact ⟨rfl, rfl⟩
    refine ⟨?_, ?_, ?_⟩
    · obtain ⟨haddr, hhttp3⟩ := hmap (parsed.addr, binding) _ rfl
      exact ⟨_, List.mem_map_of_mem (mem_of_get hget), haddr, hhttp3.trans hsame⟩
    · exact fun row hrow => ⟨_, List.mem_map_of_mem hrow, hmap row _ rfl⟩
    · intro row' hrow'
      obtain ⟨row, hrow, rfl⟩ := List.mem_map.mp hrow'
      exact .inr ⟨row, hrow, hmap row _ rfl⟩

/-- Every listen has its entry. -/
theorem vhost_listener_bindings_has {vhosts : List VirtualHostConfig} {bindings : VhostBindings}
    (h : vhost_listener_bindings vhosts = .ok bindings) :
    ∀ vhost ∈ vhosts, ∀ parsed ∈ vhost.listen, Has vhost parsed bindings := by
  have hkeep : ∀ {vhost other : VirtualHostConfig} {parsed other_parsed : ParsedVhostListen}
      {before after : VhostBindings}, add_vhost_listen vhost before parsed = .ok after →
        Has other other_parsed before → Has other other_parsed after := by
    rintro vhost other parsed other_parsed before after hadd ⟨row, hrow, haddr, hhttp3⟩
    obtain ⟨row', hrow', haddr', hhttp3'⟩ := (add_vhost_listen_http3 hadd).2.1 row hrow
    exact ⟨row', hrow', haddr'.trans haddr, hhttp3'.trans hhttp3⟩
  refine foldlM_establishes (Q := fun vhost bindings =>
    ∀ parsed ∈ vhost.listen, Has vhost parsed bindings) ?_ ?_ h
  · intro vhost before after hfold
    exact foldlM_establishes (Q := Has vhost) (fun _ _ _ hadd => (add_vhost_listen_http3 hadd).1)
      (fun _ _ _ _ hadd => hkeep hadd) hfold
  · intro vhost other before after hfold hother parsed hparsed
    exact foldlM_keeps (fun _ _ _ _ hadd => hkeep hadd) hfold (hother parsed hparsed)

/-- Every entry is there for a listen. -/
theorem vhost_listener_bindings_of {vhosts : List VirtualHostConfig} {bindings : VhostBindings}
    (h : vhost_listener_bindings vhosts = .ok bindings) :
    ∀ row ∈ bindings, ∃ vhost ∈ vhosts, ∃ parsed ∈ vhost.listen,
      row.1 = parsed.addr ∧ row.2.http3 = listen_http3 vhost parsed := by
  refine vhost_listener_bindings_keep (P := fun bindings => ∀ row ∈ bindings, ∃ vhost ∈ vhosts,
    ∃ parsed ∈ vhost.listen, row.1 = parsed.addr ∧ row.2.http3 = listen_http3 vhost parsed) h
    (List.forall_mem_nil _) ?_
  intro vhost hvhost parsed hparsed before after hadd hbefore row hrow
  rcases (add_vhost_listen_http3 hadd).2.2 row hrow with ⟨haddr, hhttp3⟩ | ⟨old, hold, haddr, hhttp3⟩
  · exact ⟨vhost, hvhost, parsed, hparsed, haddr, hhttp3⟩
  · obtain ⟨other, hother, other_parsed, hother_parsed, haddr', hhttp3'⟩ := hbefore old hold
    exact ⟨other, hother, other_parsed, hother_parsed, haddr.trans haddr', hhttp3.trans hhttp3'⟩

/-! ## The addresses over UDP -/

/-- The UDP address of a listen with HTTP/3. -/
def udp_listen_addr (vhost : VirtualHostConfig) (parsed : ParsedVhostListen) : SocketAddr :=
  (vhost.http3.bind (·.listen)).getD parsed.addr

/-- Listens with HTTP/3 at two TCP addresses have two UDP addresses. -/
def UdpListensApart (config : Config) : Prop :=
  ∀ vhost ∈ config.servers, ∀ parsed ∈ vhost.listen, parsed.http3 = true →
    ∀ other ∈ config.servers, ∀ other_parsed ∈ other.listen, other_parsed.http3 = true →
      parsed.addr ≠ other_parsed.addr →
        udp_listen_addr vhost parsed ≠ udp_listen_addr other other_parsed

theorem mem_declared {addr : SocketAddr} {http3 : Option Http3Config}
    {binding : ListenerTransportKind × SocketAddr} : binding ∈ declared addr http3 ↔
      binding = (.Tcp, addr) ∨ ∃ settings, http3 = some settings ∧
        binding = (.Udp, settings.listen.getD addr) := by
  cases http3 with
  | none => simp [declared]
  | some settings => simp [declared]

theorem declared_nodup (addr : SocketAddr) (http3 : Option Http3Config) :
    (declared addr http3).Nodup := by
  cases http3 <;> simp [declared]

/-- The settings of a listen give its UDP address. -/
theorem listen_http3_some {vhost : VirtualHostConfig} {parsed : ParsedVhostListen}
    {settings : Http3Config} : listen_http3 vhost parsed = some settings →
      parsed.http3 = true ∧ settings.listen.getD parsed.addr = udp_listen_addr vhost parsed := by
  intro h
  unfold listen_http3 at h
  split_ifs at h with hhttp3
  obtain rfl := Option.some.inj h
  refine ⟨hhttp3, ?_⟩
  unfold udp_listen_addr
  cases vhost.http3 <;> rfl

theorem listen_http3_of_http3 {vhost : VirtualHostConfig} {parsed : ParsedVhostListen}
    (h : parsed.http3 = true) : ∃ settings, listen_http3 vhost parsed = some settings :=
  ⟨_, if_pos h⟩

/-- The bindings of two TCP addresses meet only over UDP. -/
theorem declared_disjoint_iff {addr addr' : SocketAddr} {http3 http3' : Option Http3Config}
    (hne : addr ≠ addr') : (declared addr http3).Disjoint (declared addr' http3') ↔
      ∀ settings, http3 = some settings → ∀ settings', http3' = some settings' →
        settings.listen.getD addr ≠ settings'.listen.getD addr' := by
  constructor
  · intro h settings hsettings settings' hsettings' hsame
    apply h (mem_declared.mpr (.inr ⟨settings, hsettings, rfl⟩))
    exact mem_declared.mpr (.inr ⟨settings', hsettings', by rw [hsame]⟩)
  · intro h binding hmem hmem'
    rcases mem_declared.mp hmem with rfl | ⟨settings, hsettings, rfl⟩
    · rcases mem_declared.mp hmem' with hsame | ⟨_, _, hsame⟩
      · exact hne (Prod.mk.inj hsame).2
      · cases (Prod.mk.inj hsame).1
    · rcases mem_declared.mp hmem' with hsame | ⟨settings', hsettings', hsame⟩
      · cases (Prod.mk.inj hsame).1
      · exact h settings hsettings settings' hsettings' (Prod.mk.inj hsame).2

theorem vhost_bindings_nodup_iff {config : Config} {bindings : VhostBindings}
    (h : vhost_listener_bindings config.servers = .ok bindings) :
    (bindings.flatMap fun row => declared row.1 row.2.http3).Nodup ↔ UdpListensApart config := by
  have hrows : bindings.Nodup := List.Nodup.of_map _ (vhost_listener_bindings_nodup h)
  have hfst : ∀ row ∈ bindings, ∀ other ∈ bindings, row ≠ other → row.1 ≠ other.1 :=
    fun row hrow other hother hne hsame =>
      hne (List.inj_on_of_nodup_map (vhost_listener_bindings_nodup h) hrow hother hsame)
  rw [List.nodup_flatMap]
  constructor
  · rintro ⟨-, hpairwise⟩ vhost hvhost parsed hparsed hhttp3 other hother other_parsed hother_parsed
      hother_http3 hne
    obtain ⟨row, hrow, haddr, hsettings⟩ := vhost_listener_bindings_has h vhost hvhost parsed hparsed
    obtain ⟨row', hrow', haddr', hsettings'⟩ :=
      vhost_listener_bindings_has h other hother other_parsed hother_parsed
    obtain ⟨settings, hsome⟩ := @listen_http3_of_http3 vhost _ hhttp3
    obtain ⟨settings', hsome'⟩ := @listen_http3_of_http3 other _ hother_http3
    have hdifferent : row ≠ row' := fun hsame => hne (haddr.symm.trans (hsame ▸ haddr'))
    have hsymm : Std.Symm (Function.onFun List.Disjoint fun row : SocketAddr ×
        VhostListenerBinding => declared row.1 row.2.http3) := ⟨fun _ _ hdisjoint => hdisjoint.symm⟩
    have hdisjoint := hpairwise.forall hrow hrow' hdifferent
    have hapart := (declared_disjoint_iff (hfst row hrow row' hrow' hdifferent)).mp hdisjoint
      settings (hsettings.trans hsome) settings' (hsettings'.trans hsome')
    rwa [haddr, haddr', (listen_http3_some hsome).2, (listen_http3_some hsome').2] at hapart
  · intro hapart
    refine ⟨fun row _ => declared_nodup _ _, hrows.pairwise_of_forall_ne ?_⟩
    intro row hrow row' hrow' hdifferent
    refine (declared_disjoint_iff (hfst row hrow row' hrow' hdifferent)).mpr ?_
    intro settings hsettings settings' hsettings'
    obtain ⟨vhost, hvhost, parsed, hparsed, haddr, hhttp3⟩ := vhost_listener_bindings_of h row hrow
    obtain ⟨other, hother, other_parsed, hother_parsed, haddr', hhttp3'⟩ :=
      vhost_listener_bindings_of h row' hrow'
    obtain ⟨hon, hudp⟩ := listen_http3_some (hhttp3.symm.trans hsettings)
    obtain ⟨hon', hudp'⟩ := listen_http3_some (hhttp3'.symm.trans hsettings')
    rw [haddr, haddr', hudp, hudp']
    apply hapart vhost hvhost parsed hparsed hon other hother other_parsed hother_parsed hon'
    rw [← haddr, ← haddr']
    exact hfst row hrow row' hrow' hdifferent

/-- The bindings of an accepted configuration are apart exactly where listens of virtual hosts at
two TCP addresses have two UDP addresses; the ids always are. -/
theorem accepted_listeners_apart_iff {config : Config} {snapshot : ConfigSnapshot}
    (h : compile config = .ok snapshot) :
    ((snapshot.listeners.map Listener.id).Nodup ∧
      (snapshot.listeners.flatMap Listener.transport_bindings).Nodup) ↔ UdpListensApart config := by
  rw [and_iff_right (accepted_ids_nodup ⟨config, h⟩)]
  by_cases hvhost : any_vhost_listen config.servers = true
  · obtain ⟨-, hdeclares, -⟩ := compile_ok h
    cases hdeclares with
    | vhosts bindings _ hbindings hlisteners =>
      have hsame := map_eq_of_mapM hlisteners fun _ _ hrow => (compile_vhost_listener_ok hrow).2.2.1
      rw [List.flatMap_def, hsame, ← List.flatMap_def]
      exact vhost_bindings_nodup_iff hbindings
    | legacy _ hnone => exact absurd (hvhost.symm.trans hnone) (by simp)
    | explicit hnone => exact absurd (hvhost.symm.trans hnone) (by simp)
  · have hnone : any_vhost_listen config.servers = false := by simpa using hvhost
    refine iff_of_true (bindings_nodup_of_no_vhost_listen h hnone) ?_
    intro vhost hserver parsed hparsed
    have hempty : vhost.listen.isEmpty = true := by
      simpa using (List.any_eq_false.mp hnone) vhost hserver
    rw [List.isEmpty_iff.mp hempty] at hparsed
    cases hparsed

def secure_addr (port : Nat) : SocketAddr := ⟨.V4 0x7f000001#32, port⟩

/-- One virtual host with HTTP/3 at two ports, and an address for HTTP/3. -/
def two_ports (http3_listen : Option SocketAddr) : Config :=
  ⟨⟨none, 2⟩, [], ⟨none, none, none, [], none, none⟩,
    [⟨[⟨secure_addr 8443, true, true, false⟩, ⟨secure_addr 9443, true, true, false⟩], ["example.com"],
      some { cert_path := "cert.pem", key_path := "key.pem" },
      some { listen := http3_listen }⟩]⟩

def secure_listener_at (port : Nat) (http3_listen : SocketAddr) : Listener :=
  ⟨vhost_listener_id (secure_addr port), vhost_listener_name (secure_addr port),
    ⟨secure_addr port, some "example.com", none⟩, true, some ⟨http3_listen⟩⟩

def two_ports_compiled (first second : SocketAddr) : ConfigSnapshot :=
  ⟨⟨none, 2⟩, [secure_listener_at 8443 first, secure_listener_at 9443 second], ⟨"server", [], none⟩,
    [⟨"servers[0]", ["example.com"], some { cert_path := "cert.pem", key_path := "key.pem" }⟩]⟩

/-- Without an address for HTTP/3, each listener has its own. -/
theorem accepted_listeners_apart_iff_two_ports :
    (((two_ports_compiled (secure_addr 8443) (secure_addr 9443)).listeners.map Listener.id).Nodup ∧
      ((two_ports_compiled (secure_addr 8443) (secure_addr 9443)).listeners.flatMap
        Listener.transport_bindings).Nodup) ↔ UdpListensApart (two_ports none) :=
  @accepted_listeners_apart_iff (two_ports none)
    (two_ports_compiled (secure_addr 8443) (secure_addr 9443)) rfl

/-- Both listeners of an accepted configuration are bound to UDP port 7443. -/
theorem one_udp_address_twice :
    compile (two_ports (some (secure_addr 7443))) =
      .ok (two_ports_compiled (secure_addr 7443) (secure_addr 7443)) ∧
    ¬ ((two_ports_compiled (secure_addr 7443) (secure_addr 7443)).listeners.flatMap
      Listener.transport_bindings).Nodup := by
  exact ⟨rfl, by decide⟩

end rginx.config
