-- The groups of accept loops over a run of reloads and drains: what each part of a reload keeps, and
-- what holds of the groups, the configuration and the maps when it is over.
import Rginx.ListenerGroups

open rust_result rust_net rginx.config step_runs

namespace rginx.bootstrap

/-! ## The map of groups -/

section Map

variable {groups : ListenerGroupMap} {id : String} {group : ListenerWorkerGroup}

theorem mem_of_get (h : groups.get id = some group) : (id, group) ∈ groups := by
  obtain ⟨row, hrow, rfl⟩ := Option.map_eq_some_iff.mp h
  have hid : row.1 = id := by simpa using List.find?_some hrow
  rw [← hid]
  exact List.mem_of_find?_eq_some hrow

theorem not_mem_of_get (h : groups.get id = none) : id ∉ groups.keys := by
  intro hmem
  obtain ⟨row, hrow, hid⟩ := List.mem_map.mp hmem
  have hnone := List.find?_eq_none.mp (Option.map_eq_none_iff.mp h) row hrow
  exact hnone (decide_eq_true hid)

@[simp] theorem mem_remove {row : String × ListenerWorkerGroup} :
    row ∈ groups.remove id ↔ row ∈ groups ∧ row.1 ≠ id := by
  simp [ListenerGroupMap.remove]

theorem perm_remove (h : groups.keys.Nodup) (hmem : (id, group) ∈ groups) :
    groups.Perm ((id, group) :: groups.remove id) := by
  have hnodup : ((id, group) :: groups.remove id).Nodup := by
    refine List.nodup_cons.mpr ⟨?_, (List.Nodup.of_map Prod.fst h).filter _⟩
    intro hin
    exact (mem_remove.mp hin).2 rfl
  refine (List.perm_ext_iff_of_nodup (List.Nodup.of_map Prod.fst h) hnodup).mpr fun row => ?_
  rw [List.mem_cons, mem_remove]
  constructor
  · intro hrow
    by_cases hid : row.1 = id
    · exact .inl (List.inj_on_of_nodup_map h hrow hmem hid)
    · exact .inr ⟨hrow, hid⟩
  · rintro (rfl | ⟨hrow, -⟩)
    · exact hmem
    · exact hrow

theorem insert_new (h : id ∉ groups.keys) : groups.insert id group = groups ++ [(id, group)] := by
  unfold ListenerGroupMap.insert ListenerGroupMap.remove
  rw [List.filter_eq_self.mpr]
  intro row hrow
  refine decide_eq_true fun hid => h ?_
  rw [← hid]
  exact List.mem_map_of_mem hrow

end Map

/-! ## What is ready before the first change -/

theorem prepare_added_listener_ok {bind_error : Listener → Option String}
    {active_listener_groups : ListenerGroupMap} {draining_listener_groups : List ListenerWorkerGroup}
    {listener : Listener} {prepared : Option ListenerWorkerGroup}
    (h : prepare_added_listener bind_error active_listener_groups draining_listener_groups listener =
      .ok prepared) :
    (listener.id ∈ active_listener_groups.keys ∧ prepared = none) ∨
    (listener.id ∉ active_listener_groups.keys ∧
      prepared = some ⟨listener, listener.transport_bindings⟩ ∧
      listener.id ∉ draining_listener_groups.map (·.listener.id) ∧
      ∀ key ∈ listener.transport_bindings,
        key ∉ listen_addrs (active_listener_groups.map Prod.snd) ∧
        key ∉ listen_addrs draining_listener_groups) := by
  unfold prepare_added_listener at h
  split_ifs at h with hactive hdraining
  · exact .inl ⟨hactive, (Except.ok.inj h).symm⟩
  refine .inr ⟨hactive, ?_⟩
  split at h
  · cases h
  · rename_i hnone
    obtain ⟨group, hgroup, rfl⟩ := map_eq_ok.mp h
    unfold prepare_listener_worker_group at hgroup
    split at hgroup
    · cases hgroup
    obtain rfl := Except.ok.inj hgroup
    refine ⟨rfl, hdraining, ?_⟩
    intro key hkey
    have hfree := List.find?_eq_none.mp hnone key hkey
    rw [decide_eq_true_eq, not_or] at hfree
    exact hfree

/-- The listeners that come anew, and what they do not take from the groups that are there. -/
structure Added (active_listener_groups : ListenerGroupMap)
    (draining_listener_groups : List ListenerWorkerGroup) (next_listeners : List Listener)
    (additions : List ListenerWorkerGroup) : Prop where
  additions : additions =
    (next_listeners.filter fun listener => listener.id ∉ active_listener_groups.keys).map
      fun listener => ⟨listener, listener.transport_bindings⟩
  free : ∀ listener ∈ next_listeners, listener.id ∉ active_listener_groups.keys →
    listener.id ∉ draining_listener_groups.map (·.listener.id) ∧
    ∀ key ∈ listener.transport_bindings,
      key ∉ listen_addrs (active_listener_groups.map Prod.snd) ∧
      key ∉ listen_addrs draining_listener_groups

theorem prepare_added_listener_bindings_ok {bind_error : Listener → Option String}
    {active_listener_groups : ListenerGroupMap} {draining_listener_groups : List ListenerWorkerGroup}
    {next_listeners : List Listener} {additions : List ListenerWorkerGroup}
    (h : prepare_added_listener_bindings bind_error active_listener_groups draining_listener_groups
      next_listeners = .ok additions) :
    Added active_listener_groups draining_listener_groups next_listeners additions := by
  unfold prepare_added_listener_bindings at h
  obtain ⟨prepared, hprepared, hadditions⟩ := bind_eq_ok.mp h
  obtain rfl := Except.ok.inj hadditions
  have hrows := forall₂_of_mapM hprepared
  clear h hprepared hadditions
  induction hrows with
  | nil => exact ⟨rfl, List.forall_mem_nil _⟩
  | cons hlistener _ ih =>
    rcases prepare_added_listener_ok hlistener with ⟨hactive, rfl⟩ | ⟨hactive, rfl, hfree⟩
    · constructor
      · rw [List.filter_cons_of_neg (by simpa using hactive)]
        exact ih.additions
      · exact List.forall_mem_cons.mpr ⟨fun hnot => absurd hactive hnot, ih.free⟩
    · constructor
      · rw [List.filter_cons_of_pos (by simpa using hactive), List.map_cons, ← ih.additions]
        rfl
      · exact List.forall_mem_cons.mpr ⟨fun _ => hfree, ih.free⟩

/-- A listener that stays keeps its addresses. -/
theorem same_bindings {current next : ConfigSnapshot}
    (h : validate_config_transition current next = .ok ()) {listener next_listener : Listener}
    (hmem : listener ∈ current.listeners)
    (hnext : next_by_id next.listeners listener.id = some next_listener) :
    next_listener.transport_bindings = listener.transport_bindings := by
  have hnone : plan_config_transition current next = [] := by
    unfold validate_config_transition at h
    dsimp only at h
    split at h
    · assumption
    · cases h
  unfold plan_config_transition at hnone
  rw [List.append_eq_nil_iff, List.append_eq_nil_iff, List.flatMap_eq_nil_iff] at hnone
  have hsame := hnone.1.1 listener hmem
  rw [hnext] at hsame
  dsimp only at hsame
  unfold listener_changes at hsame
  rw [List.append_eq_nil_iff] at hsame
  obtain ⟨htcp, hudp⟩ := hsame
  have htcp : listener.server.listen_addr = next_listener.server.listen_addr := by
    by_contra hne
    rw [if_pos hne] at htcp
    cases htcp
  have hudp : http3_listen listener = http3_listen next_listener := by
    by_contra hne
    rw [if_pos hne] at hudp
    cases hudp
  have hbindings : ∀ listener : Listener, listener.transport_bindings =
      (.Tcp, listener.server.listen_addr) ::
        ((http3_listen listener).map fun addr => (ListenerTransportKind.Udp, addr)).toList := by
    intro listener
    unfold Listener.transport_bindings http3_listen
    rw [Option.map_map]
    rfl
  rw [hbindings, hbindings, htcp, hudp]

/-! ## The parts of a reload -/

/-- Between the calls the groups are those of the configuration. -/
structure RuntimeListeners.Ok (state : RuntimeListeners) : Prop extends state.Kept where
  accepted : state.config.Accepted
  current : ∀ row ∈ state.active_listener_groups, row.2.listener ∈ state.config.listeners
  grouped : ∀ id ∈ listener_ids state.config, id ∈ state.active_listener_groups.keys

theorem RuntimeListeners.Ok.mem_ids {state : RuntimeListeners} (h : state.Ok) {id : String}
    (hid : id ∈ state.active_listener_groups.keys) : id ∈ listener_ids state.config := by
  obtain ⟨row, hrow, rfl⟩ := List.mem_map.mp hid
  rw [← h.keys row hrow]
  exact List.mem_map_of_mem (h.current row hrow)

/-- The groups of `pending` have not been retired yet. -/
structure Retiring (before : RuntimeListeners) (next : ConfigSnapshot) (pending : List String)
    (state : RuntimeListeners) : Prop extends state.Kept where
  config : state.config = next
  groups : state.groups.Perm before.groups
  rows : ∀ row, row ∈ state.active_listener_groups ↔
    row ∈ before.active_listener_groups ∧ (row.1 ∈ listener_ids next ∨ row.1 ∈ pending)
  gone : ∀ id ∈ pending, id ∉ listener_ids next
  pending_nodup : pending.Nodup
  next_counters : ∀ id ∈ listener_ids next, state.listener_active_connections id

/-- The groups of `pending` are not in the map yet. -/
structure Activating (before : RuntimeListeners) (next : ConfigSnapshot)
    (additions pending : List ListenerWorkerGroup) (state : RuntimeListeners) : Prop
    extends state.Kept where
  config : state.config = next
  current : ∀ row ∈ state.active_listener_groups, row.2.listener ∈ next.listeners
  grouped : ∀ id ∈ listener_ids next,
    id ∈ state.active_listener_groups.keys ∨ id ∈ pending.map (·.listener.id)
  apart : ((state.groups ++ pending).map (·.listener.id)).Nodup
  bounds : ((state.groups ++ pending).map (·.bound)).Perm
    ((before.groups ++ additions).map (·.bound))
  prepared : ∀ group ∈ pending,
    group.listener ∈ next.listeners ∧ group.bound = group.listener.transport_bindings
  next_counters : ∀ id ∈ listener_ids next, state.listener_active_connections id

section Reload

variable {before state : RuntimeListeners} {next : ConfigSnapshot}

theorem mem_removed_ids {groups : ListenerGroupMap} {id : String} :
    id ∈ removed_ids next groups ↔ id ∈ groups.keys ∧ id ∉ listener_ids next := by
  unfold removed_ids
  rw [List.mem_filter, ← next_by_id_isSome]
  simp

/-- What leaves the configuration is in the map of retired listeners before the configuration
is swapped. -/
theorem commit_passes (h : before.Ok) :
    Passes RuntimeListeners.Kept
      (Retiring before next (removed_ids next before.active_listener_groups))
      (commit_prepared next (retired_by before.config next)) before := by
  let retired := (retired_by before.config next).foldl
    (fun state listener => insert_retired listener state) before
  let synced := sync_listener_active_connections next retired
  have hretired : before.Grows retired :=
    foldl_grows (fun state listener => insert_retired_grows listener state) _ _
  have hsynced : retired.Grows synced :=
    foldl_grows (fun state listener => ensure_counter_grows listener.id state) _ _
  have hkept : synced.Kept := h.toKept.of_grows (hretired.trans hsynced)
  have hactive : synced.active_listener_groups = before.active_listener_groups :=
    (hretired.trans hsynced).active
  have hdraining : synced.draining_listener_groups = before.draining_listener_groups :=
    (hretired.trans hsynced).draining
  have hcounters : ∀ id ∈ listener_ids next, synced.listener_active_connections id := by
    intro id hid
    obtain ⟨listener, hlistener, rfl⟩ := List.mem_map.mp hid
    exact foldl_brings (P := fun state id => state.listener_active_connections id)
      (fun state listener => ensure_counter_grows listener.id state)
      (fun _ _ => update_counter.mpr (.inl rfl)) (fun _ _ id hgrows => hgrows.counters id) _ hlistener
  have hleft : ∀ id ∈ before.active_listener_groups.keys, id ∉ listener_ids next →
      (synced.retired_listeners id).isSome := by
    intro id hid hnot
    obtain ⟨listener, hlistener, rfl⟩ := List.mem_map.mp (h.mem_ids hid)
    apply hsynced.retired
    have hmem : listener ∈ retired_by before.config next := by
      refine List.mem_filter.mpr ⟨hlistener, ?_⟩
      rw [← listener_isSome] at hnot
      simpa using hnot
    exact foldl_brings (P := fun state id => (state.retired_listeners id).isSome)
      (fun state listener => insert_retired_grows listener state)
      (fun _ _ => update_isSome.mpr (.inl rfl)) (fun _ _ id hgrows => hgrows.retired id) _ hmem
  let swapped : RuntimeListeners := { synced with config := next }
  have hswapped : swapped.Kept := by
    constructor
    case active =>
      intro id hid
      rw [current_listener_isSome, listener_isSome]
      by_cases hnext : id ∈ listener_ids next
      · exact .inl hnext
      · exact .inr (hleft id (hactive ▸ hid) hnext)
    case keys => exact hkept.keys
    case ids_apart => exact hkept.ids_apart
    case bound => exact hkept.bound
    case draining => exact hkept.draining
    case counters => exact hkept.counters
  refine Passes.cons rfl (h.toKept.of_grows hretired) (Passes.cons rfl hkept
    (Passes.cons rfl hswapped (Passes.nil ⟨hswapped, rfl, ?_, ?_, ?_, ?_, hcounters⟩)))
  · have hgroups : swapped.groups = before.groups := by
      show synced.active_listener_groups.map Prod.snd ++ synced.draining_listener_groups = _
      rw [hactive, hdraining]
      rfl
    exact hgroups ▸ List.Perm.refl _
  · intro row
    show row ∈ synced.active_listener_groups ↔ _
    rw [hactive, mem_removed_ids]
    constructor
    · intro hrow
      refine ⟨hrow, ?_⟩
      by_cases hnext : row.1 ∈ listener_ids next
      · exact .inl hnext
      · exact .inr ⟨List.mem_map_of_mem hrow, hnext⟩
    · exact And.left
  · exact fun id hid => (mem_removed_ids.mp hid).2
  · have hkeys : before.active_listener_groups.keys.Nodup := (List.nodup_append.mp h.ids_apart).1
    exact hkeys.filter _

/-- The group leaves the map for the list, and its listener stays retired. -/
theorem Retiring.retire {removed_id : String} {pending : List String}
    (h : Retiring before next (removed_id :: pending) state) :
    Retiring before next pending (retire_group removed_id state) := by
  have hgone := List.forall_mem_cons.mp h.gone
  obtain ⟨hnew, hnodup⟩ := List.nodup_cons.mp h.pending_nodup
  have hkeys : state.active_listener_groups.keys.Nodup := (List.nodup_append.mp h.ids_apart).1
  unfold retire_group
  cases hget : state.active_listener_groups.get removed_id with
  | none =>
    dsimp only
    have hnot := not_mem_of_get hget
    refine ⟨h.toKept, h.config, h.groups, ?_, hgone.2, hnodup, h.next_counters⟩
    intro row
    constructor
    · intro hrow
      obtain ⟨hbefore, hplace⟩ := (h.rows row).mp hrow
      refine ⟨hbefore, hplace.imp_right fun hpending => ?_⟩
      refine (List.mem_cons.mp hpending).resolve_left fun hid => hnot ?_
      rw [← hid]
      exact List.mem_map_of_mem hrow
    · rintro ⟨hbefore, hplace⟩
      exact (h.rows row).mpr ⟨hbefore, hplace.imp_right (List.mem_cons_of_mem _)⟩
  | some group =>
    dsimp only
    have hmem := mem_of_get hget
    have hid : group.listener.id = removed_id := h.keys _ hmem
    have hperm := perm_remove hkeys hmem
    let retired := retire_listener_runtime group.listener state
    have hgrows : state.Grows retired :=
      (insert_retired_grows _ _).trans (ensure_counter_grows _ _)
    let moved : RuntimeListeners :=
      { retired with
        active_listener_groups := state.active_listener_groups.remove removed_id
        draining_listener_groups := state.draining_listener_groups ++ [group] }
    have hgroups : moved.groups.Perm state.groups := by
      show ((state.active_listener_groups.remove removed_id).map Prod.snd ++
        (state.draining_listener_groups ++ [group])).Perm
          (state.active_listener_groups.map Prod.snd ++ state.draining_listener_groups)
      refine List.Perm.trans ?_ ((hperm.map Prod.snd).append_right _).symm
      rw [← List.append_assoc]
      exact List.perm_append_comm
    have hmoved_keys : ∀ row ∈ moved.active_listener_groups, row.2.listener.id = row.1 :=
      fun row hrow => h.keys row (mem_remove.mp hrow).1
    have hids : moved.group_ids.Perm state.group_ids := by
      rw [group_ids_eq hmoved_keys, group_ids_eq h.keys]
      exact hgroups.map _
    refine ⟨⟨hmoved_keys, hids.nodup_iff.mpr h.ids_apart, ?_, ?_, ?_, ?_⟩, h.config,
      hgroups.trans h.groups, ?_, hgone.2, hnodup, ?_⟩
    · exact fun other hother => h.bound other (hgroups.mem_iff.mp hother)
    · intro id hactive
      obtain ⟨row, hrow, rfl⟩ := List.mem_map.mp hactive
      have hcurrent := h.active row.1 (List.mem_map_of_mem (mem_remove.mp hrow).1)
      exact current_listener_isSome.mpr
        ((current_listener_isSome.mp hcurrent).imp_right (hgrows.retired _))
    · intro other hother
      rcases List.mem_append.mp hother with hold | hlast
      · exact hgrows.retired _ (h.draining other hold)
      · rw [List.mem_singleton.mp hlast]
        exact update_isSome.mpr (.inl rfl)
    · exact fun id hin => hgrows.counters id (h.counters id (hids.mem_iff.mp hin))
    · intro row
      show row ∈ state.active_listener_groups.remove removed_id ↔ _
      rw [mem_remove, h.rows]
      constructor
      · rintro ⟨⟨hbefore, hplace⟩, hother⟩
        exact ⟨hbefore, hplace.imp_right fun hpending =>
          (List.mem_cons.mp hpending).resolve_left hother⟩
      · rintro ⟨hbefore, hplace⟩
        refine ⟨⟨hbefore, hplace.imp_right (List.mem_cons_of_mem _)⟩, ?_⟩
        rintro rfl
        rcases hplace with hnext | hpending
        · exact hgone.1 hnext
        · exact hnew hpending
    · exact fun id hin => hgrows.counters id (h.next_counters id hin)

theorem retire_passes {removed_ids : List String} (h : Retiring before next removed_ids state) :
    Passes RuntimeListeners.Kept (Retiring before next [])
      (removed_ids.map fun removed_id state => some (retire_group removed_id state)) state := by
  apply Passes.each _ h
  intro removed_id pending state hretiring
  exact ⟨_, rfl, hretiring.retire.toKept, hretiring.retire⟩

theorem mapM_eq_some {α β : Type} {f : α → Option β} {g : α → β} {rows : List α}
    (h : ∀ row ∈ rows, f row = some (g row)) : rows.mapM f = some (rows.map g) := by
  induction rows with
  | nil => rfl
  | cons row rows ih =>
    obtain ⟨hrow, hrows⟩ := List.forall_mem_cons.mp h
    rw [List.mapM_cons, hrow, ih hrows]
    rfl

/-- Every active group is left with a listener of the new configuration, which keeps its addresses:
the `expect` does not fail. -/
theorem update_passes {additions : List ListenerWorkerGroup} (h : Retiring before next [] state)
    (hbefore : before.Ok) (hnext : next.Accepted)
    (hsame : validate_config_transition before.config next = .ok ())
    (hadded : Added before.active_listener_groups before.draining_listener_groups next.listeners
      additions) :
    Passes RuntimeListeners.Kept (Activating before next additions additions) [update_groups next]
      state := by
  let updated (row : String × ListenerWorkerGroup) : String × ListenerWorkerGroup :=
    (row.1, { row.2 with listener := (next_by_id next.listeners row.1).getD row.2.listener })
  have hrow : ∀ row ∈ state.active_listener_groups,
      update_group next row = some (updated row) ∧ (updated row).2.listener ∈ next.listeners ∧
        (updated row).2.listener.id = row.1 ∧
        (updated row).2.listener.transport_bindings = row.2.listener.transport_bindings := by
    intro row hrow
    obtain ⟨hold, hplace⟩ := (h.rows row).mp hrow
    have hid : row.1 ∈ listener_ids next := hplace.resolve_right (by simp)
    obtain ⟨listener, hlistener⟩ := Option.isSome_iff_exists.mp (next_by_id_isSome.mpr hid)
    obtain ⟨hmem, hlistener_id⟩ := next_by_id_eq_some hlistener
    have hupdated : (updated row).2.listener = listener := by
      show (next_by_id next.listeners row.1).getD row.2.listener = listener
      rw [hlistener, Option.getD_some]
    refine ⟨?_, hupdated ▸ hmem, hupdated ▸ hlistener_id, ?_⟩
    · unfold update_group
      rw [hlistener, Option.map_some, ← hupdated]
    · rw [hupdated]
      refine same_bindings hsame (hbefore.current row hold) ?_
      rw [hbefore.keys row hold]
      exact hlistener
  let state' : RuntimeListeners :=
    { state with active_listener_groups := state.active_listener_groups.map updated }
  have hupdate : update_groups next state = some state' := by
    unfold update_groups
    rw [mapM_eq_some fun row hmem => (hrow row hmem).1]
    rfl
  have hkeys : state'.active_listener_groups.keys = state.active_listener_groups.keys := by
    show (state.active_listener_groups.map updated).map Prod.fst = _
    rw [List.map_map]
    rfl
  have hids : state'.group_ids = state.group_ids := by
    unfold RuntimeListeners.group_ids
    rw [hkeys]
  have hbounds : state'.groups.map (·.bound) = state.groups.map (·.bound) := by
    show ((state.active_listener_groups.map updated).map Prod.snd ++
      state.draining_listener_groups).map (·.bound) = _
    unfold RuntimeListeners.groups
    rw [List.map_append, List.map_append, List.map_map, List.map_map, List.map_map]
    rfl
  have hkept : state'.Kept := by
    constructor
    case keys =>
      intro row hmem
      obtain ⟨old, hold, rfl⟩ := List.mem_map.mp hmem
      exact (hrow old hold).2.2.1
    case ids_apart => exact hids ▸ h.ids_apart
    case bound =>
      intro group hgroup
      rcases List.mem_append.mp hgroup with hactive | hdraining
      · obtain ⟨row, hmem, rfl⟩ := List.mem_map.mp hactive
        obtain ⟨old, hold, rfl⟩ := List.mem_map.mp hmem
        have hbound := h.bound old.2 (List.mem_append_left _ (List.mem_map_of_mem hold))
        exact hbound.trans (hrow old hold).2.2.2.symm
      · exact h.bound group (List.mem_append_right _ hdraining)
    case active => exact hkeys ▸ h.active
    case draining => exact h.draining
    case counters => exact hids ▸ h.counters
  have hbefore_ids : ∀ id ∈ state'.groups.map (·.listener.id), id ∈ before.group_ids := by
    intro id hid
    rw [← group_ids_eq hkept.keys, hids, group_ids_eq h.keys] at hid
    rw [group_ids_eq hbefore.keys]
    exact (h.groups.map _).mem_iff.mp hid
  have hprepared : ∀ group ∈ additions, group.listener ∈ next.listeners ∧
      group.listener.id ∉ before.active_listener_groups.keys ∧
      group.bound = group.listener.transport_bindings := by
    intro group hgroup
    rw [hadded.additions] at hgroup
    obtain ⟨listener, hlistener, rfl⟩ := List.mem_map.mp hgroup
    obtain ⟨hmem, hnew⟩ := List.mem_filter.mp hlistener
    exact ⟨hmem, by simpa using hnew, rfl⟩
  refine Passes.cons hupdate hkept (Passes.nil ⟨hkept, h.config, ?_, ?_, ?_, ?_, ?_, h.next_counters⟩)
  · intro row hmem
    obtain ⟨old, hold, rfl⟩ := List.mem_map.mp hmem
    exact (hrow old hold).2.1
  · intro id hid
    rw [hkeys]
    by_cases hold : id ∈ before.active_listener_groups.keys
    · obtain ⟨row, hmem, rfl⟩ := List.mem_map.mp hold
      exact .inl (List.mem_map_of_mem ((h.rows row).mpr ⟨hmem, .inl hid⟩))
    · obtain ⟨listener, hlistener, rfl⟩ := List.mem_map.mp hid
      refine .inr ?_
      rw [hadded.additions, List.map_map]
      exact List.mem_map_of_mem (List.mem_filter.mpr ⟨hlistener, by simpa using hold⟩)
  · rw [List.map_append]
    refine List.nodup_append.mpr ⟨?_, ?_, ?_⟩
    · rw [← group_ids_eq hkept.keys]
      exact hkept.ids_apart
    · rw [hadded.additions, List.map_map]
      exact (accepted_ids_nodup hnext).sublist (List.filter_sublist.map _)
    · rintro id hid other hother rfl
      obtain ⟨group, hgroup, rfl⟩ := List.mem_map.mp hother
      obtain ⟨hmem, hnew, -⟩ := hprepared group hgroup
      rcases List.mem_append.mp (hbefore_ids _ hid) with hactive | hdraining
      · exact hnew hactive
      · exact (hadded.free _ hmem hnew).1 hdraining
  · rw [List.map_append, List.map_append, hbounds]
    exact (h.groups.map _).append_right _
  · intro group hgroup
    obtain ⟨hmem, -, hbound⟩ := hprepared group hgroup
    exact ⟨hmem, hbound⟩

/-- A group comes into the map under an id that no other one has. -/
theorem Activating.activate {additions pending : List ListenerWorkerGroup}
    {group : ListenerWorkerGroup} (h : Activating before next additions (group :: pending) state) :
    Activating before next additions pending (activate_group group state) := by
  obtain ⟨hlistener, hbound⟩ := h.prepared group List.mem_cons_self
  have hid : group.listener.id ∈ listener_ids next := List.mem_map_of_mem hlistener
  have hapart := h.apart
  rw [List.map_append, ← group_ids_eq h.keys] at hapart
  have hnew : group.listener.id ∉ state.active_listener_groups.keys := fun hin =>
    (List.nodup_append.mp hapart).2.2 _ (List.mem_append_left _ hin) _ List.mem_cons_self rfl
  have hinsert : (activate_group group state).active_listener_groups =
      state.active_listener_groups ++ [(group.listener.id, group)] := insert_new hnew
  have hgroups : (activate_group group state).groups.Perm (group :: state.groups) := by
    unfold RuntimeListeners.groups
    rw [hinsert, List.map_append]
    have hlast : (state.active_listener_groups.map Prod.snd ++ [group]).Perm
        ([group] ++ state.active_listener_groups.map Prod.snd) := List.perm_append_comm
    exact hlast.append_right _
  have hall : ((activate_group group state).groups ++ pending).Perm
      (state.groups ++ group :: pending) :=
    (hgroups.append_right _).trans List.perm_middle.symm
  have hkeys : ∀ row ∈ (activate_group group state).active_listener_groups,
      row.2.listener.id = row.1 := by
    intro row hrow
    rw [hinsert] at hrow
    rcases List.mem_append.mp hrow with hold | hlast
    · exact h.keys row hold
    · rw [List.mem_singleton.mp hlast]
  have hnodup : (((activate_group group state).groups ++ pending).map (·.listener.id)).Nodup :=
    (hall.map _).nodup_iff.mpr h.apart
  refine ⟨⟨hkeys, ?_, ?_, ?_, h.draining, ?_⟩, h.config, ?_, ?_, hnodup, (hall.map _).trans h.bounds,
    fun other hother => h.prepared other (List.mem_cons_of_mem _ hother), h.next_counters⟩
  · rw [group_ids_eq hkeys]
    rw [List.map_append] at hnodup
    exact (List.nodup_append.mp hnodup).1
  · intro other hother
    rcases List.mem_cons.mp (hgroups.mem_iff.mp hother) with rfl | hold
    · exact hbound
    · exact h.bound other hold
  · intro id hactive
    unfold ListenerGroupMap.keys at hactive
    rw [hinsert, List.map_append] at hactive
    rcases List.mem_append.mp hactive with hold | hlast
    · exact h.active id hold
    · rw [List.mem_singleton.mp hlast]
      refine current_listener_isSome.mpr (.inl (listener_isSome.mpr ?_))
      exact (show (activate_group group state).config = next from h.config) ▸ hid
  · intro id hin
    rw [group_ids_eq hkeys] at hin
    rcases List.mem_cons.mp ((hgroups.map _).mem_iff.mp hin) with rfl | hold
    · exact h.next_counters _ hid
    · rw [← group_ids_eq h.keys] at hold
      exact h.counters id hold
  · intro row hrow
    rw [hinsert] at hrow
    rcases List.mem_append.mp hrow with hold | hlast
    · exact h.current row hold
    · rw [List.mem_singleton.mp hlast]
      exact hlistener
  · intro id hin
    unfold ListenerGroupMap.keys
    rw [hinsert, List.map_append]
    rcases h.grouped id hin with hold | hpending
    · exact .inl (List.mem_append_left _ hold)
    · rcases List.mem_cons.mp hpending with rfl | hlater
      · exact .inl (List.mem_append_right _ List.mem_cons_self)
      · exact .inr hlater

theorem activate_passes {additions : List ListenerWorkerGroup}
    (h : Activating before next additions additions state) :
    Passes RuntimeListeners.Kept (Activating before next additions [])
      (additions.map fun group state => some (activate_group group state)) state := by
  apply Passes.each _ h
  intro group pending state hactivating
  exact ⟨_, rfl, hactivating.activate.toKept, hactivating.activate⟩

end Reload

/-! ## Pruning -/

/-- The groups of `pending` have drained, but are still in the list. -/
structure Pruning (before : RuntimeListeners) (pending : List ListenerWorkerGroup)
    (state : RuntimeListeners) : Prop extends state.Ok where
  there : ∀ group ∈ pending, group ∈ state.draining_listener_groups
  pending_nodup : pending.Nodup
  config : state.config = before.config
  left : state.groups.Sublist before.groups

/-- No other group has the id whose entries go. -/
theorem Pruning.remove {before state : RuntimeListeners} {group : ListenerWorkerGroup}
    {pending : List ListenerWorkerGroup} (h : Pruning before (group :: pending) state) :
    Pruning before pending (remove_drained group state) := by
  obtain ⟨hthere, hrest⟩ := List.forall_mem_cons.mp h.there
  obtain ⟨hnew, hnodup⟩ := List.nodup_cons.mp h.pending_nodup
  have hperm := List.perm_cons_erase hthere
  obtain ⟨-, hdraining, hdisjoint⟩ := List.nodup_append.mp h.ids_apart
  have hactive : ∀ id ∈ state.active_listener_groups.keys, id ≠ group.listener.id :=
    fun id hid => hdisjoint id hid _ (List.mem_map_of_mem hthere)
  have hother : ∀ other ∈ state.draining_listener_groups.erase group,
      other.listener.id ≠ group.listener.id := by
    intro other hmem hsame
    have hids := (hperm.map (·.listener.id)).nodup_iff.mp hdraining
    exact (List.nodup_cons.mp hids).1 (List.mem_map.mpr ⟨other, hmem, hsame⟩)
  have hleft : (remove_drained group state).groups.Sublist state.groups :=
    List.Sublist.append_left List.erase_sublist _
  have hids : (remove_drained group state).group_ids.Sublist state.group_ids :=
    List.Sublist.append_left (List.erase_sublist.map _) _
  refine ⟨⟨⟨h.keys, h.ids_apart.sublist hids, ?_, ?_, ?_, ?_⟩, h.accepted, h.current, h.grouped⟩,
    ?_, hnodup, h.config, hleft.trans h.left⟩
  · exact fun other hmem => h.bound other (hleft.subset hmem)
  · intro id hid
    exact current_listener_isSome.mpr (.inl (listener_isSome.mpr (h.toOk.mem_ids hid)))
  · intro other hmem
    show (Function.update state.retired_listeners group.listener.id none other.listener.id).isSome
    rw [Function.update_of_ne (hother other hmem)]
    exact h.draining other (List.mem_of_mem_erase hmem)
  · intro id hid
    show Function.update state.listener_active_connections group.listener.id false id = true
    have hne : id ≠ group.listener.id := by
      rcases List.mem_append.mp hid with hin | hin
      · exact hactive id hin
      · obtain ⟨other, hmem, rfl⟩ := List.mem_map.mp hin
        exact hother other hmem
    rw [Function.update_of_ne hne]
    exact h.counters id (hids.subset hid)
  · intro other hmem
    refine (List.mem_erase_of_ne ?_).mpr (hrest other hmem)
    rintro rfl
    exact hnew hmem

theorem prune_passes {state : RuntimeListeners} (h : state.Ok)
    (is_finished : ListenerWorkerGroup → Bool) :
    Passes RuntimeListeners.Kept (Pruning state [])
      (prune_draining_listener_groups is_finished state) state := by
  have hnodup : (state.draining_listener_groups.filter is_finished).Nodup :=
    (List.Nodup.of_map _ (List.nodup_append.mp h.ids_apart).2.1).filter _
  have hpruning : Pruning state (state.draining_listener_groups.filter is_finished) state :=
    ⟨h, fun _ hgroup => (List.mem_filter.mp hgroup).1, hnodup, rfl, .refl _⟩
  apply Passes.each _ hpruning
  intro group pending between hbetween
  exact ⟨_, rfl, hbetween.remove.toKept, hbetween.remove⟩

end rginx.bootstrap
