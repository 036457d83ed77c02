-- Runs of reloads and drains: the groups stay those of the configuration, whatever fails, and no
-- address is bound twice as long as no configuration has one address of HTTP/3 twice.
import Rginx.ListenerBindings
import Rginx.ListenerLifecycle

open rust_result rust_net rginx.config step_runs

namespace rginx.bootstrap

/-! ## Addresses -/

/-- No address is bound by two groups. -/
def RuntimeListeners.BoundApart (state : RuntimeListeners) : Prop :=
  (state.groups.map (·.bound)).Pairwise List.Disjoint

/-- No two listeners have HTTP/3 at one address. -/
def Apart (config : ConfigSnapshot) : Prop := (config.listeners.filterMap http3_listen).Nodup

theorem mem_transport_bindings {listener : Listener} {key : ListenerTransportKind × SocketAddr} :
    key ∈ listener.transport_bindings ↔ key = (.Tcp, listener.server.listen_addr) ∨
      ∃ addr, http3_listen listener = some addr ∧ key = (.Udp, addr) := by
  unfold Listener.transport_bindings http3_listen
  cases listener.http3 with
  | none => simp
  | some http3 => simp

/-- Two listeners of an accepted configuration can only meet at an address of HTTP/3. -/
theorem bindings_apart_iff {config : ConfigSnapshot} (h : config.Accepted) :
    (config.listeners.map Listener.transport_bindings).Pairwise List.Disjoint ↔ Apart config := by
  unfold Apart List.Nodup
  rw [List.pairwise_map, List.pairwise_filterMap]
  have htcp := List.pairwise_map.mp (accepted_tcp_nodup h)
  constructor
  · intro hbindings
    refine hbindings.imp ?_
    rintro listener other hdisjoint addr haddr addr' haddr' rfl
    exact hdisjoint (mem_transport_bindings.mpr (.inr ⟨addr, haddr, rfl⟩))
      (mem_transport_bindings.mpr (.inr ⟨addr, haddr', rfl⟩))
  · intro hudp
    refine (htcp.and hudp).imp ?_
    rintro listener other ⟨htcp, hudp⟩ key hkey hkey'
    rcases mem_transport_bindings.mp hkey with rfl | ⟨addr, haddr, rfl⟩
    · rcases mem_transport_bindings.mp hkey' with hsame | ⟨addr', -, hsame⟩
      · exact htcp (Prod.mk.inj hsame).2
      · cases (Prod.mk.inj hsame).1
    · rcases mem_transport_bindings.mp hkey' with hsame | ⟨addr', haddr', hsame⟩
      · cases (Prod.mk.inj hsame).1
      · exact hudp addr haddr addr' haddr' (Prod.mk.inj hsame).2

/-- Every listener of the configuration has its group. -/
theorem RuntimeListeners.Ok.group_of {state : RuntimeListeners} (h : state.Ok) {listener : Listener}
    (hmem : listener ∈ state.config.listeners) :
    ∃ group ∈ state.groups, group.listener = listener ∧ group.bound = listener.transport_bindings := by
  obtain ⟨row, hrow, hid⟩ := List.mem_map.mp (h.grouped _ (List.mem_map_of_mem hmem))
  have hsame : row.2.listener = listener := by
    refine List.inj_on_of_nodup_map (accepted_ids_nodup h.accepted) (h.current row hrow) hmem ?_
    rw [h.keys row hrow, hid]
  have hgroup : row.2 ∈ state.groups := List.mem_append_left _ (List.mem_map_of_mem hrow)
  exact ⟨row.2, hgroup, hsame, hsame ▸ h.bound row.2 hgroup⟩

/-- Listeners that meet make two groups that meet. -/
theorem RuntimeListeners.Ok.apart {state : RuntimeListeners} (h : state.Ok)
    (hbound : state.BoundApart) : Apart state.config := by
  have hlisteners : state.config.listeners.Nodup :=
    List.Nodup.of_map _ (accepted_ids_nodup h.accepted)
  rw [← bindings_apart_iff h.accepted, List.pairwise_map]
  refine hlisteners.pairwise_of_forall_ne ?_
  intro listener hlistener other hother hne
  obtain ⟨group, hgroup, hsame, hbindings⟩ := h.group_of hlistener
  obtain ⟨group', hgroup', hsame', hbindings'⟩ := h.group_of hother
  have hgroups : group ≠ group' := by
    rintro rfl
    exact hne (hsame.symm.trans hsame')
  have hsymm : Std.Symm fun a b : ListenerWorkerGroup => List.Disjoint a.bound b.bound :=
    ⟨fun _ _ h => h.symm⟩
  rw [← hbindings, ← hbindings']
  exact (List.pairwise_map.mp hbound).forall hgroup hgroup' hgroups

/-- The new groups are bound apart from the ones that are there, and from each other where the
configuration is apart. -/
theorem Activating.bound_apart {before state : RuntimeListeners} {next : ConfigSnapshot}
    {additions : List ListenerWorkerGroup} (h : Activating before next additions [] state)
    (hbefore : before.Kept) (hnext : next.Accepted)
    (hadded : Added before.active_listener_groups before.draining_listener_groups next.listeners
      additions)
    (hbound : before.BoundApart) (hapart : Apart next) : state.BoundApart := by
  have hbounds := h.bounds
  rw [List.append_nil, List.map_append] at hbounds
  refine (hbounds.pairwise_iff fun h => h.symm).mpr (List.pairwise_append.mpr ⟨hbound, ?_, ?_⟩)
  · rw [hadded.additions, List.map_map]
    exact ((bindings_apart_iff hnext).mpr hapart).sublist (List.filter_sublist.map _)
  · intro bound hin bound' hin'
    obtain ⟨group, hgroup, rfl⟩ := List.mem_map.mp hin
    obtain ⟨addition, haddition, rfl⟩ := List.mem_map.mp hin'
    rw [hadded.additions] at haddition
    obtain ⟨listener, hlistener, rfl⟩ := List.mem_map.mp haddition
    obtain ⟨hmem, hnew⟩ := List.mem_filter.mp hlistener
    intro key hkey hkey'
    obtain ⟨hactive, hdraining⟩ := (hadded.free listener hmem (by simpa using hnew)).2 key hkey'
    rw [hbefore.bound group hgroup] at hkey
    rcases List.mem_append.mp hgroup with hin | hin
    · exact hactive (List.mem_flatMap.mpr ⟨group, hin, hkey⟩)
    · exact hdraining (List.mem_flatMap.mpr ⟨group, hin, hkey⟩)

/-! ## Calls -/

/-- What a reload has ready before the first change. -/
structure Prepares (signal : ReloadSignal) (state : RuntimeListeners)
    (prepared : PreparedReload) : Prop where
  accepted : prepared.next.Accepted
  same : validate_config_transition state.config prepared.next = .ok ()
  added : Added state.active_listener_groups state.draining_listener_groups
    prepared.next.listeners prepared.prepared_additions
  retired : prepared.retired_listeners = retired_by state.config prepared.next

theorem prepare_ok {signal : ReloadSignal} {state : RuntimeListeners} {prepared : PreparedReload}
    (h : prepare signal state = .ok prepared) : Prepares signal state prepared := by
  unfold prepare at h
  obtain ⟨next, hnext, h⟩ := bind_eq_ok.mp h
  obtain ⟨additions, hadditions, h⟩ := bind_eq_ok.mp h
  obtain ⟨retired, hretired, h⟩ := bind_eq_ok.mp h
  obtain rfl := Except.ok.inj h
  unfold prepare_reload at hnext
  obtain ⟨config, _, hnext⟩ := bind_eq_ok.mp hnext
  obtain ⟨compiled, hcompiled, hnext⟩ := bind_eq_ok.mp hnext
  obtain ⟨_, hsame, hnext⟩ := bind_eq_ok.mp hnext
  obtain rfl := Except.ok.inj hnext
  unfold prepare_replacement at hretired
  obtain ⟨_, _, hretired⟩ := bind_eq_ok.mp hretired
  split at hretired
  · cases hretired
  · exact ⟨⟨config, hcompiled⟩, hsame, prepare_added_listener_bindings_ok hadditions,
      (Except.ok.inj hretired).symm⟩

/-- The changes of a reload go through. -/
theorem reload_passes {signal : ReloadSignal} {state : RuntimeListeners} {prepared : PreparedReload}
    (h : state.Ok) (hprepared : Prepares signal state prepared) :
    Passes RuntimeListeners.Kept
      (Activating state prepared.next prepared.prepared_additions []) (prepared.changes state)
      state := by
  unfold PreparedReload.changes reconcile_listener_worker_groups
  rw [hprepared.retired]
  refine (commit_passes h).append fun committed hcommitted => ?_
  refine (retire_passes hcommitted).append fun retired hretired => ?_
  refine (update_passes hretired h hprepared.accepted hprepared.same hprepared.added).append
    fun updated hupdated => ?_
  exact activate_passes hupdated

theorem Activating.ok {before state : RuntimeListeners} {next : ConfigSnapshot}
    {additions : List ListenerWorkerGroup} (h : Activating before next additions [] state)
    (hnext : next.Accepted) : state.Ok where
  toKept := h.toKept
  accepted := h.config ▸ hnext
  current := h.config ▸ h.current
  grouped id hid := (h.grouped id (h.config ▸ hid)).resolve_right (by simp)

/-- The configuration that the call puts in use is apart. -/
def Call.Apart (state : RuntimeListeners) : Call → Prop
  | .reload signal => ∀ prepared, prepare signal state = .ok prepared →
      rginx.bootstrap.Apart prepared.next
  | .drained _ => True

/-- No `expect` fails while the call runs, and a reload that fails changes nothing. -/
structure Call.Kept (state : RuntimeListeners) (call : Call) : Prop where
  serves : ∀ between ∈ (run_call state call).1, ∀ id ∈ between.group_ids, between.Serves id
  no_panic : (run_call state call).2 ≠ .Panicked
  failed : ∀ error, (run_call state call).2 = .Failed error → step state call = state

/-- What a call does to a state in order. -/
structure Call.Steps (state : RuntimeListeners) (call : Call) : Prop where
  kept : call.Kept state
  ok : (step state call).Ok
  bound_apart : state.BoundApart → ((step state call).BoundApart ↔ call.Apart state)

theorem RuntimeListeners.BoundApart.sublist {state state' : RuntimeListeners}
    (h : state.BoundApart) (hleft : state'.groups.Sublist state.groups) : state'.BoundApart :=
  List.Pairwise.sublist (hleft.map _) h

theorem drained_steps {state : RuntimeListeners} (h : state.Ok)
    (is_finished : ListenerWorkerGroup → Bool) : (Call.drained is_finished).Steps state := by
  have hpasses := prune_passes h is_finished
  obtain ⟨last, hlast, hpruned⟩ := hpasses.ends
  have hstep : step state (.drained is_finished) = last := passed_getLastD hlast
  constructor
  case kept =>
    constructor
    case serves => exact fun between hbetween => (hpasses.good between hbetween).serves
    case no_panic => simp [run_call]
    case failed => simp [run_call]
  case ok => exact hstep ▸ hpruned.toOk
  case bound_apart =>
    intro hbound
    exact iff_of_true (hstep ▸ hbound.sublist hpruned.left) trivial

theorem reload_steps {state : RuntimeListeners} (h : state.Ok) (signal : ReloadSignal) :
    (Call.reload signal).Steps state := by
  cases hprepare : prepare signal state with
  | error error =>
    have hcall : run_call state (.reload signal) = ([], .Failed error) := by
      simp [run_call, handle_reload_signal, hprepare]
    have hstep : step state (.reload signal) = state := by
      rw [step, hcall]
      rfl
    have hok : (step state (.reload signal)).Ok := by
      rw [hstep]
      exact h
    constructor
    case kept =>
      constructor
      case serves => simp [hcall]
      case no_panic => simp [hcall]
      case failed => exact fun _ _ => hstep
    case ok => exact hok
    case bound_apart =>
      intro hbound
      constructor
      · intro _ prepared hprepared
        rw [hprepare] at hprepared
        cases hprepared
      · intro _
        rw [hstep]
        exact hbound
  | ok prepared =>
    have hprepared := prepare_ok hprepare
    have hpasses := reload_passes h hprepared
    obtain ⟨reconciled, hreconciled, hactivated⟩ := hpasses.ends
    have hok := hactivated.ok hprepared.accepted
    have hprunes := prune_passes hok signal.is_finished
    obtain ⟨last, hlast, hpruned⟩ := hprunes.ends
    have hcall : run_call state (.reload signal) =
        ((passed (prepared.changes state) state).1 ++
          (passed (prune_draining_listener_groups signal.is_finished reconciled) reconciled).1,
          .Reloaded prepared.next) := by
      unfold run_call handle_reload_signal
      dsimp only
      rw [hprepare]
      dsimp only
      rw [show passed (prepared.changes state) state =
        ((passed (prepared.changes state) state).1, some reconciled) from Prod.ext rfl hreconciled]
    have hstep : step state (.reload signal) = last := by
      rw [step, hcall]
      dsimp only
      rw [List.getLastD_eq_getLast?, List.getLast?_append, Option.getD_or,
        ← List.getLastD_eq_getLast?, ← List.getLastD_eq_getLast?, passed_getLastD hreconciled]
      exact passed_getLastD hlast
    have hconfig : last.config = prepared.next := hpruned.config.trans hactivated.config
    constructor
    case kept =>
      constructor
      case serves =>
        intro between hbetween
        rw [hcall] at hbetween
        rcases List.mem_append.mp hbetween with hchanged | hleft
        · exact (hpasses.good between hchanged).serves
        · exact (hprunes.good between hleft).serves
      case no_panic => simp [hcall]
      case failed => simp [hcall]
    case ok => exact hstep ▸ hpruned.toOk
    case bound_apart =>
      intro hbound
      rw [hstep]
      constructor
      · intro hlast_bound other hother
        obtain rfl := Except.ok.inj (hprepare.symm.trans hother)
        exact hconfig ▸ hpruned.toOk.apart hlast_bound
      · intro hapart
        have hall := hactivated.bound_apart h.toKept hprepared.accepted hprepared.added hbound
          (hapart prepared hprepare)
        exact hall.sublist hpruned.left

theorem call_steps {state : RuntimeListeners} (h : state.Ok) (call : Call) : call.Steps state := by
  cases call with
  | reload signal => exact reload_steps h signal
  | drained is_finished => exact drained_steps h is_finished

/-! ## Runs -/

/-- The first groups, in the order of their listeners. -/
theorem build_initial_listener_groups_ok {bind_error : Listener → Option String}
    {config : ConfigSnapshot} {groups : ListenerGroupMap} (haccepted : config.Accepted)
    (h : build_initial_listener_groups bind_error config = .ok groups) :
    groups = config.listeners.map fun listener =>
      (listener.id, ⟨listener, listener.transport_bindings⟩) := by
  have hall : ∀ (listeners : List Listener) (before : ListenerGroupMap),
      (before.keys ++ listeners.map Listener.id).Nodup →
      listeners.foldlM (fun groups listener => do
        let group ← prepare_listener_worker_group bind_error listener
        return groups.insert listener.id group) before = .ok groups →
      groups = before ++ listeners.map fun listener =>
        (listener.id, ⟨listener, listener.transport_bindings⟩) := by
    intro listeners
    induction listeners with
    | nil =>
      intro before _ hfold
      rw [List.map_nil, List.append_nil]
      exact (Except.ok.inj hfold).symm
    | cons listener listeners ih =>
      intro before hapart hfold
      rw [List.foldlM_cons, bind_eq_ok] at hfold
      obtain ⟨middle, hmiddle, hrest⟩ := hfold
      obtain ⟨group, hgroup, hinsert⟩ := bind_eq_ok.mp hmiddle
      unfold prepare_listener_worker_group at hgroup
      split at hgroup
      · cases hgroup
      obtain rfl := Except.ok.inj hgroup
      have hnew : listener.id ∉ before.keys := fun hin =>
        (List.nodup_append.mp hapart).2.2 _ hin _ List.mem_cons_self rfl
      obtain rfl : before ++ [(listener.id, ⟨listener, listener.transport_bindings⟩)] = middle := by
        rw [← insert_new hnew]
        exact Except.ok.inj hinsert
      rw [ih _ _ hrest, List.map_cons, List.append_assoc]
      · rfl
      · unfold ListenerGroupMap.keys at hapart ⊢
        rw [List.map_append, List.append_assoc]
        exact hapart
  have hids : (ListenerGroupMap.keys [] ++ config.listeners.map Listener.id).Nodup :=
    accepted_ids_nodup haccepted
  exact hall config.listeners [] hids h

theorem start_ok {bind_error : Listener → Option String} {config : ConfigSnapshot}
    {state : RuntimeListeners} (haccepted : config.Accepted)
    (h : start bind_error config = .ok state) :
    state.Ok ∧ (state.BoundApart ↔ Apart config) := by
  unfold start at h
  obtain ⟨groups, hgroups, h⟩ := bind_eq_ok.mp h
  obtain rfl := Except.ok.inj h
  obtain rfl := build_initial_listener_groups_ok haccepted hgroups
  clear hgroups h
  have hkeys : ListenerGroupMap.keys (config.listeners.map fun listener =>
      (listener.id, (⟨listener, listener.transport_bindings⟩ : ListenerWorkerGroup))) =
      listener_ids config := by
    unfold ListenerGroupMap.keys
    rw [List.map_map]
    rfl
  refine ⟨⟨⟨?_, ?_, ?_, ?_, List.forall_mem_nil _, ?_⟩, haccepted, ?_, ?_⟩, ?_⟩
  · intro row hrow
    obtain ⟨listener, _, rfl⟩ := List.mem_map.mp hrow
    rfl
  · unfold RuntimeListeners.group_ids
    rw [hkeys, List.map_nil, List.append_nil]
    exact accepted_ids_nodup haccepted
  · intro group hgroup
    unfold RuntimeListeners.groups at hgroup
    rw [List.append_nil, List.map_map] at hgroup
    obtain ⟨listener, _, rfl⟩ := List.mem_map.mp hgroup
    rfl
  · intro id hid
    rw [hkeys] at hid
    exact current_listener_isSome.mpr (.inl (listener_isSome.mpr hid))
  · intro id hid
    unfold RuntimeListeners.group_ids at hid
    rw [hkeys, List.map_nil, List.append_nil] at hid
    obtain ⟨listener, hlistener, rfl⟩ := List.mem_map.mp hid
    exact List.any_eq_true.mpr ⟨listener, hlistener, decide_eq_true rfl⟩
  · intro row hrow
    obtain ⟨listener, hlistener, rfl⟩ := List.mem_map.mp hrow
    exact hlistener
  · intro id hid
    rw [hkeys]
    exact hid
  · rw [← bindings_apart_iff haccepted]
    unfold RuntimeListeners.BoundApart RuntimeListeners.groups
    rw [List.append_nil, List.map_map, List.map_map]
    rfl

/-- What holds of the groups between the calls. -/
structure RuntimeListeners.InOrder (state : RuntimeListeners) : Prop where
  active_ids : ∀ id, id ∈ state.active_listener_groups.keys ↔ id ∈ listener_ids state.config
  ids_apart : state.group_ids.Nodup
  bound_apart : state.BoundApart
  serves : ∀ id ∈ state.group_ids, state.Serves id

theorem RuntimeListeners.Ok.in_order {state : RuntimeListeners} (h : state.Ok)
    (hbound : state.BoundApart) : state.InOrder :=
  ⟨fun id => ⟨h.mem_ids, h.grouped id⟩, h.ids_apart, hbound, h.toKept.serves⟩

/-- The groups follow the configurations through every run of reloads, whatever fails, and of drains,
exactly while no configuration that comes into use has HTTP/3 twice at one address. -/
theorem listener_lifecycle_iff {bind_error : Listener → Option String} {config : ConfigSnapshot}
    {state : RuntimeListeners} (haccepted : config.Accepted)
    (hstart : start bind_error config = .ok state) (calls : List Call) :
    (state.InOrder ∧
        Along step (fun state call => call.Kept state ∧ (step state call).InOrder) state calls) ↔
      Apart config ∧ Along step (fun state call => call.Apart state) state calls := by
  obtain ⟨hok, hbound⟩ := start_ok haccepted hstart
  constructor
  · rintro ⟨horder, hrun⟩
    refine ⟨hbound.mp horder.bound_apart, ?_⟩
    refine @along_of_along _ _ step (fun state => state.Ok ∧ state.BoundApart) _ _ ?_ ?_ state
      ⟨hok, horder.bound_apart⟩ calls hrun
    · intro state call hstate hcall
      exact ⟨(call_steps hstate.1 call).ok, hcall.2.bound_apart⟩
    · intro state call hstate hcall
      exact ((call_steps hstate.1 call).bound_apart hstate.2).mp hcall.2.bound_apart
  · rintro ⟨hapart, hrun⟩
    have hstate := hbound.mpr hapart
    refine ⟨hok.in_order hstate, ?_⟩
    refine @along_of_along _ _ step (fun state => state.Ok ∧ state.BoundApart) _ _ ?_ ?_ state
      ⟨hok, hstate⟩ calls hrun
    · intro state call hstate hcall
      have hsteps := call_steps hstate.1 call
      exact ⟨hsteps.ok, (hsteps.bound_apart hstate.2).mpr hcall⟩
    · intro state call hstate hcall
      have hsteps := call_steps hstate.1 call
      exact ⟨hsteps.kept, hsteps.ok.in_order ((hsteps.bound_apart hstate.2).mpr hcall)⟩

/-- The state that the configuration of `two_ports` is started in. -/
def two_ports_started (first second : SocketAddr) : RuntimeListeners :=
  { config := two_ports_compiled first second
    retired_listeners := fun _ => none
    listener_active_connections := fun id =>
      (two_ports_compiled first second).listeners.any (·.id = id)
    active_listener_groups := (two_ports_compiled first second).listeners.map fun listener =>
      (listener.id, ⟨listener, listener.transport_bindings⟩)
    draining_listener_groups := [] }

/-- The file of `two_ports` with port 10443 in place of 9443. -/
def moved_port : Config :=
  ⟨⟨none, 2⟩, [], ⟨none, none, none, [], none, none⟩,
    [⟨[⟨secure_addr 8443, true, true, false⟩, ⟨secure_addr 10443, true, true, false⟩],
      ["example.com"], some { cert_path := "cert.pem", key_path := "key.pem" },
      some { listen := none }⟩]⟩

def moved_port_compiled : ConfigSnapshot :=
  ⟨⟨none, 2⟩, [secure_listener_at 8443 (secure_addr 8443),
    secure_listener_at 10443 (secure_addr 10443)], ⟨"server", [], none⟩,
    [⟨"servers[0]", ["example.com"], some { cert_path := "cert.pem", key_path := "key.pem" }⟩]⟩

def reload_moved_port : ReloadSignal :=
  ⟨.ok moved_port, fun _ => none, none, fun _ => false⟩

theorem prepare_moved_port {prepared : PreparedReload}
    (h : prepare reload_moved_port (two_ports_started (secure_addr 8443) (secure_addr 9443)) =
      .ok prepared) : prepared.next = moved_port_compiled := by
  have hnext : (prepare reload_moved_port
      (two_ports_started (secure_addr 8443) (secure_addr 9443))).map PreparedReload.next =
        .ok moved_port_compiled := rfl
  rw [h] at hnext
  exact Except.ok.inj hnext

/-- A listener is added and another one removed, and then the group of the removed one is drained. -/
theorem listener_lifecycle_iff_moved_port :
    let started := two_ports_started (secure_addr 8443) (secure_addr 9443)
    let reloaded := step started (.reload reload_moved_port)
    (reloaded.active_listener_groups.keys =
        [vhost_listener_id (secure_addr 8443), vhost_listener_id (secure_addr 10443)] ∧
      reloaded.draining_listener_groups.map (·.listener.id) =
        [vhost_listener_id (secure_addr 9443)] ∧
      (step reloaded (.drained fun _ => true)).draining_listener_groups.length = 0) ∧
    started.InOrder ∧
      Along step (fun state call => call.Kept state ∧ (step state call).InOrder) started
        [.reload reload_moved_port, .drained fun _ => true] := by
  intro started reloaded
  refine ⟨⟨by decide +kernel, by decide +kernel, by decide +kernel⟩, ?_⟩
  refine (@listener_lifecycle_iff (fun _ => none)
    (two_ports_compiled (secure_addr 8443) (secure_addr 9443)) started ⟨two_ports none, rfl⟩ rfl
    _).mpr ⟨?_, ?_, trivial, trivial⟩
  · unfold Apart
    decide
  · intro prepared hprepared
    rw [prepare_moved_port hprepared]
    unfold Apart
    decide

/-- Both groups of an accepted configuration are bound to UDP port 7443. -/
theorem two_groups_at_one_address :
    (two_ports_compiled (secure_addr 7443) (secure_addr 7443)).Accepted ∧
    start (fun _ => none) (two_ports_compiled (secure_addr 7443) (secure_addr 7443)) =
      .ok (two_ports_started (secure_addr 7443) (secure_addr 7443)) ∧
    ¬ (two_ports_started (secure_addr 7443) (secure_addr 7443)).InOrder := by
  refine ⟨⟨two_ports (some (secure_addr 7443)), rfl⟩, rfl, fun h => ?_⟩
  obtain ⟨hfirst, -⟩ := List.pairwise_cons.mp h.bound_apart
  have hdisjoint : List.Disjoint
      (secure_listener_at 8443 (secure_addr 7443)).transport_bindings
      (secure_listener_at 9443 (secure_addr 7443)).transport_bindings :=
    hfirst _ List.mem_cons_self
  have hbound : (ListenerTransportKind.Udp, secure_addr 7443) ∈
      (secure_listener_at 8443 (secure_addr 7443)).transport_bindings := by decide
  have hbound' : (ListenerTransportKind.Udp, secure_addr 7443) ∈
      (secure_listener_at 9443 (secure_addr 7443)).transport_bindings := by decide
  exact hdisjoint hbound hbound'

end rginx.bootstrap
