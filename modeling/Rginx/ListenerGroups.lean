-- The groups of accept loops that the main loop keeps for the listeners, from `bootstrap/listeners`
-- and `bootstrap/reload.rs` of the crate `rginx-runtime`, beside the maps of `rginx-http` that the
-- loops read (`state/lifecycle`, `transition.rs`). A reload goes through its changes one by one; it
-- fails before the first of them or not at all.
import Mathlib.Logic.Function.Basic
import Rginx.ListenerConfigs
import Rginx.StepRuns

open rust_net rginx.config step_runs

namespace rginx.bootstrap

/-! ## The state -/

/-- A group with its sockets, which it keeps when its listener changes. -/
structure ListenerWorkerGroup where
  listener : Listener
  bound : List (ListenerTransportKind × SocketAddr)
  deriving DecidableEq

/-- `HashMap<String, ListenerWorkerGroup>`, in the order in which it is iterated. -/
abbrev ListenerGroupMap := List (String × ListenerWorkerGroup)

def ListenerGroupMap.keys (groups : ListenerGroupMap) : List String := groups.map Prod.fst

def ListenerGroupMap.get (groups : ListenerGroupMap) (id : String) : Option ListenerWorkerGroup :=
  (groups.find? fun row => row.1 = id).map Prod.snd

def ListenerGroupMap.remove (groups : ListenerGroupMap) (id : String) : ListenerGroupMap :=
  groups.filter fun row => row.1 ≠ id

def ListenerGroupMap.insert (groups : ListenerGroupMap) (id : String)
    (group : ListenerWorkerGroup) : ListenerGroupMap :=
  groups.remove id ++ [(id, group)]

/-- The configuration, the maps beside it, and the groups. Of the counters of connections, only
whether there is one. -/
structure RuntimeListeners where
  config : ConfigSnapshot
  retired_listeners : String → Option Listener
  listener_active_connections : String → Bool
  active_listener_groups : ListenerGroupMap
  draining_listener_groups : List ListenerWorkerGroup

def RuntimeListeners.current_listener (state : RuntimeListeners) (listener_id : String) :
    Option Listener :=
  (state.config.listener listener_id).or (state.retired_listeners listener_id)

/-! ## Transition -/

def RESTART_REQUIRED_FIELDS : List String :=
  ["listen", "server.http3.listen", "listeners[].listen", "listeners[].http3.listen",
    "servers[].listen", "runtime.worker_threads", "runtime.accept_workers"]

/-- `collect` into a map by id, where a later listener takes the place of an earlier one. -/
def next_by_id (listeners : List Listener) (id : String) : Option Listener :=
  listeners.reverse.find? fun listener => listener.id = id

def http3_listen (listener : Listener) : Option SocketAddr := listener.http3.map (·.listen_addr)

def listener_changes (current_listener next_listener : Listener) : List String :=
  (if current_listener.server.listen_addr ≠ next_listener.server.listen_addr then
    [current_listener.id ++ ".listen " ++ written current_listener.server.listen_addr ++ " -> " ++
      written next_listener.server.listen_addr]
  else []) ++
  if http3_listen current_listener ≠ http3_listen next_listener then
    [current_listener.id ++ ".http3.listen " ++
      ((http3_listen current_listener).map written).getD "-" ++ " -> " ++
      ((http3_listen next_listener).map written).getD "-"]
  else []

def debug_count : Option Nat → String
  | some count => "Some(" ++ toString count ++ ")"
  | none => "None"

/-- `changed_restart_required_fields` of `plan_config_transition`. -/
def plan_config_transition (current next : ConfigSnapshot) : List String :=
  (current.listeners.flatMap fun current_listener =>
    match next_by_id next.listeners current_listener.id with
    | some next_listener => listener_changes current_listener next_listener
    | none => []) ++
  (if current.runtime.worker_threads ≠ next.runtime.worker_threads then
    ["runtime.worker_threads " ++ debug_count current.runtime.worker_threads ++ " -> " ++
      debug_count next.runtime.worker_threads]
  else []) ++
  if current.runtime.accept_workers ≠ next.runtime.accept_workers then
    ["runtime.accept_workers " ++ toString current.runtime.accept_workers ++ " -> " ++
      toString next.runtime.accept_workers]
  else []

def validate_config_transition (current next : ConfigSnapshot) : Except String Unit :=
  let changes := plan_config_transition current next
  if changes = [] then .ok ()
  else .error ("reload requires restart because these startup-boundary fields changed " ++
    "(restart-boundary: " ++ ", ".intercalate RESTART_REQUIRED_FIELDS ++ "): " ++
    "; ".intercalate changes)

/-! ## Preparing groups -/

def ListenerTransportKind.as_str : ListenerTransportKind → String
  | .Tcp => "tcp"
  | .Udp => "udp"

section Prepare

-- What binding the sockets of a listener, or making its endpoints, fails with.
variable (bind_error : Listener → Option String)

def prepare_listener_worker_group (listener : Listener) : Except String ListenerWorkerGroup :=
  match bind_error listener with
  | some error => .error error
  | none => .ok ⟨listener, listener.transport_bindings⟩

def build_initial_listener_groups (config : ConfigSnapshot) : Except String ListenerGroupMap :=
  config.listeners.foldlM (fun groups listener => do
    let group ← prepare_listener_worker_group bind_error listener
    return groups.insert listener.id group) []

variable (active_listener_groups : ListenerGroupMap)
  (draining_listener_groups : List ListenerWorkerGroup)

instance : LawfulBEq (ListenerTransportKind × SocketAddr) :=
  inferInstanceAs (LawfulBEq (ListenerTransportKind × SocketAddr))

/-- The addresses that the listeners of groups are bound to. -/
def listen_addrs (groups : List ListenerWorkerGroup) : List (ListenerTransportKind × SocketAddr) :=
  groups.flatMap fun group => group.listener.transport_bindings

/-- One turn of the loop: a listener with a group is passed over. -/
def prepare_added_listener (listener : Listener) : Except String (Option ListenerWorkerGroup) :=
  if listener.id ∈ active_listener_groups.keys then .ok none
  else if listener.id ∈ draining_listener_groups.map (·.listener.id) then
    .error ("listener `" ++ listener.name ++
      "` cannot be re-added until the previous generation has drained")
  else
    match listener.transport_bindings.find? fun key =>
      key ∈ listen_addrs (active_listener_groups.map Prod.snd) ∨
        key ∈ listen_addrs draining_listener_groups with
    | some (kind, listen_addr) =>
      .error ("listener `" ++ listener.name ++ "` reuses " ++ ListenerTransportKind.as_str kind ++
        " listen address `" ++ written listen_addr ++
        "` with a different listener identity during reload")
    | none => (prepare_listener_worker_group bind_error listener).map some

def prepare_added_listener_bindings (next_listeners : List Listener) :
    Except String (List ListenerWorkerGroup) := do
  let prepared ← next_listeners.mapM
    (prepare_added_listener bind_error active_listener_groups draining_listener_groups)
  return prepared.reduceOption

end Prepare

/-! ## The changes of a reload -/

/-- A change of the state; none where an `expect` fails. -/
abbrev Change := RuntimeListeners → Option RuntimeListeners

def insert_retired (listener : Listener) (state : RuntimeListeners) : RuntimeListeners :=
  { state with
    retired_listeners := Function.update state.retired_listeners listener.id (some listener) }

def ensure_counter (id : String) (state : RuntimeListeners) : RuntimeListeners :=
  { state with
    listener_active_connections := Function.update state.listener_active_connections id true }

def retire_listener_runtime (listener : Listener) (state : RuntimeListeners) : RuntimeListeners :=
  ensure_counter listener.id (insert_retired listener state)

/-- The acceptor of the listener goes too. -/
def remove_retired_listener_runtime (id : String) (state : RuntimeListeners) : RuntimeListeners :=
  { state with
    retired_listeners := Function.update state.retired_listeners id none
    listener_active_connections := Function.update state.listener_active_connections id false }

def sync_listener_active_connections (config : ConfigSnapshot) (state : RuntimeListeners) :
    RuntimeListeners :=
  config.listeners.foldl (fun state listener => ensure_counter listener.id state) state

/-- The listeners that `prepare_replacement` retires. -/
def retired_by (current next : ConfigSnapshot) : List Listener :=
  current.listeners.filter fun listener => (next.listener listener.id).isNone

/-- `commit_prepared`, less what a configuration brings beside its listeners. -/
def commit_prepared (next : ConfigSnapshot) (retired_listeners : List Listener) : List Change :=
  [fun state => some (retired_listeners.foldl (fun state listener => insert_retired listener state)
      state),
    fun state => some (sync_listener_active_connections next state),
    fun state => some { state with config := next }]

def removed_ids (next : ConfigSnapshot) (active_listener_groups : ListenerGroupMap) : List String :=
  active_listener_groups.keys.filter fun id => (next_by_id next.listeners id).isNone

def retire_group (removed_id : String) (state : RuntimeListeners) : RuntimeListeners :=
  match state.active_listener_groups.get removed_id with
  | some group =>
    { retire_listener_runtime group.listener state with
      active_listener_groups := state.active_listener_groups.remove removed_id
      draining_listener_groups := state.draining_listener_groups ++ [group] }
  | none => state

def update_group (next : ConfigSnapshot) (row : String × ListenerWorkerGroup) :
    Option (String × ListenerWorkerGroup) :=
  (next_by_id next.listeners row.1).map fun next_listener =>
    (row.1, { row.2 with listener := next_listener })

def update_groups (next : ConfigSnapshot) : Change := fun state =>
  (state.active_listener_groups.mapM (update_group next)).map fun active_listener_groups =>
    { state with active_listener_groups }

def activate_group (group : ListenerWorkerGroup) (state : RuntimeListeners) : RuntimeListeners :=
  { state with
    active_listener_groups := state.active_listener_groups.insert group.listener.id group }

/-- One turn of the loop of `prune_draining_listener_groups` at a group that is finished. -/
def remove_drained (group : ListenerWorkerGroup) (state : RuntimeListeners) : RuntimeListeners :=
  remove_retired_listener_runtime group.listener.id
    { state with draining_listener_groups := state.draining_listener_groups.erase group }

def prune_draining_listener_groups (is_finished : ListenerWorkerGroup → Bool)
    (state : RuntimeListeners) : List Change :=
  (state.draining_listener_groups.filter is_finished).map fun group state =>
    some (remove_drained group state)

/-- `reconcile_listener_worker_groups` up to the pruning. -/
def reconcile_listener_worker_groups (next : ConfigSnapshot)
    (prepared_additions : List ListenerWorkerGroup) (removed_ids : List String) : List Change :=
  removed_ids.map (fun removed_id state => some (retire_group removed_id state)) ++
    ([update_groups next] ++
      prepared_additions.map fun group state => some (activate_group group state))

/-! ## Calls -/

/-- What a reload meets: the file as it is read, what binding a listener fails with, what preparing
the state fails with, and the groups that have drained when it prunes. -/
structure ReloadSignal where
  loaded : Except String Config
  bind_error : Listener → Option String
  prepare_state_error : Option String
  is_finished : ListenerWorkerGroup → Bool

inductive CallOutcome
  | Reloaded (next : ConfigSnapshot)
  | Failed (error : String)
  | Pruned
  | Panicked

def prepare_reload (signal : ReloadSignal) (current : ConfigSnapshot) :
    Except String ConfigSnapshot := do
  let config ← signal.loaded
  let next ← compile config
  validate_config_transition current next
  return next

def prepare_replacement (signal : ReloadSignal) (current next : ConfigSnapshot) :
    Except String (List Listener) := do
  validate_config_transition current next
  match signal.prepare_state_error with
  | some error => .error error
  | none => .ok (retired_by current next)

/-- What a reload has ready when it begins to change the state. -/
structure PreparedReload where
  next : ConfigSnapshot
  prepared_additions : List ListenerWorkerGroup
  retired_listeners : List Listener

def prepare (signal : ReloadSignal) (state : RuntimeListeners) : Except String PreparedReload := do
  let next ← prepare_reload signal state.config
  let prepared_additions ← prepare_added_listener_bindings signal.bind_error
    state.active_listener_groups state.draining_listener_groups next.listeners
  let retired_listeners ← prepare_replacement signal state.config next
  return ⟨next, prepared_additions, retired_listeners⟩

def PreparedReload.changes (prepared : PreparedReload) (state : RuntimeListeners) : List Change :=
  commit_prepared prepared.next prepared.retired_listeners ++
    reconcile_listener_worker_groups prepared.next prepared.prepared_additions
      (removed_ids prepared.next state.active_listener_groups)

/-- The states that a call passes through, and its outcome. -/
def handle_reload_signal (signal : ReloadSignal) (state : RuntimeListeners) :
    List RuntimeListeners × CallOutcome :=
  match prepare signal state with
  | .error error => ([], .Failed error)
  | .ok prepared =>
    match passed (prepared.changes state) state with
    | (states, none) => (states, .Panicked)
    | (states, some reconciled) =>
      let pruned := passed (prune_draining_listener_groups signal.is_finished reconciled) reconciled
      (states ++ pruned.1, .Reloaded prepared.next)

inductive Call
  | reload (signal : ReloadSignal)
  | drained (is_finished : ListenerWorkerGroup → Bool)

def run_call (state : RuntimeListeners) : Call → List RuntimeListeners × CallOutcome
  | .reload signal => handle_reload_signal signal state
  | .drained is_finished =>
    ((passed (prune_draining_listener_groups is_finished state) state).1, .Pruned)

def step (state : RuntimeListeners) (call : Call) : RuntimeListeners :=
  (run_call state call).1.getLastD state

def start (bind_error : Listener → Option String) (config : ConfigSnapshot) :
    Except String RuntimeListeners := do
  let active_listener_groups ← build_initial_listener_groups bind_error config
  return {
    config
    retired_listeners := fun _ => none
    listener_active_connections := fun id => config.listeners.any (·.id = id)
    active_listener_groups
    draining_listener_groups := [] }

/-! ## What the accept loops expect -/

def RuntimeListeners.groups (state : RuntimeListeners) : List ListenerWorkerGroup :=
  state.active_listener_groups.map Prod.snd ++ state.draining_listener_groups

def RuntimeListeners.group_ids (state : RuntimeListeners) : List String :=
  state.active_listener_groups.keys ++ state.draining_listener_groups.map (·.listener.id)

def listener_ids (config : ConfigSnapshot) : List String := config.listeners.map Listener.id

/-- The accept loops of a listener find it, and its counter of connections. -/
def RuntimeListeners.Serves (state : RuntimeListeners) (id : String) : Prop :=
  (state.current_listener id).isSome ∧ state.listener_active_connections id

/-- What holds of the groups in the middle of a reload too. -/
structure RuntimeListeners.Kept (state : RuntimeListeners) : Prop where
  keys : ∀ row ∈ state.active_listener_groups, row.2.listener.id = row.1
  ids_apart : state.group_ids.Nodup
  bound : ∀ group ∈ state.groups, group.bound = group.listener.transport_bindings
  active : ∀ id ∈ state.active_listener_groups.keys, (state.current_listener id).isSome
  draining : ∀ group ∈ state.draining_listener_groups,
    (state.retired_listeners group.listener.id).isSome
  counters : ∀ id ∈ state.group_ids, state.listener_active_connections id

theorem current_listener_isSome {state : RuntimeListeners} {id : String} :
    (state.current_listener id).isSome ↔
      (state.config.listener id).isSome ∨ (state.retired_listeners id).isSome := by
  unfold RuntimeListeners.current_listener
  rw [Option.isSome_or, Bool.or_eq_true]

theorem listener_isSome {config : ConfigSnapshot} {id : String} :
    (config.listener id).isSome ↔ id ∈ listener_ids config := by
  simp [ConfigSnapshot.listener, listener_ids, List.find?_isSome]

theorem next_by_id_eq_some {listeners : List Listener} {id : String} {listener : Listener}
    (h : next_by_id listeners id = some listener) : listener ∈ listeners ∧ listener.id = id := by
  unfold next_by_id at h
  have hid := List.find?_some h
  exact ⟨List.mem_reverse.mp (List.mem_of_find?_eq_some h), by simpa using hid⟩

theorem next_by_id_isSome {config : ConfigSnapshot} {id : String} :
    (next_by_id config.listeners id).isSome ↔ id ∈ listener_ids config := by
  simp [next_by_id, listener_ids, List.find?_isSome]

section Groups

variable {state : RuntimeListeners}

theorem group_ids_eq (h : ∀ row ∈ state.active_listener_groups, row.2.listener.id = row.1) :
    state.group_ids = state.groups.map (·.listener.id) := by
  unfold RuntimeListeners.group_ids RuntimeListeners.groups ListenerGroupMap.keys
  rw [List.map_append, List.map_map]
  congr 1
  exact List.map_congr_left fun row hrow => (h row hrow).symm

theorem RuntimeListeners.Kept.serves (h : state.Kept) : ∀ id ∈ state.group_ids, state.Serves id := by
  intro id hid
  refine ⟨?_, h.counters id hid⟩
  rcases List.mem_append.mp hid with hactive | hdraining
  · exact h.active id hactive
  · obtain ⟨group, hgroup, rfl⟩ := List.mem_map.mp hdraining
    exact current_listener_isSome.mpr (.inr (h.draining group hgroup))

end Groups

/-! ## The maps of the listeners -/

@[simp] theorem update_isSome {retired_listeners : String → Option Listener} {listener : Listener}
    {id other : String} :
    (Function.update retired_listeners id (some listener) other).isSome ↔
      other = id ∨ (retired_listeners other).isSome := by
  by_cases hother : other = id
  · simp [hother]
  · simp [hother]

@[simp] theorem update_counter {counters : String → Bool} {id other : String} :
    Function.update counters id true other = true ↔ other = id ∨ counters other = true := by
  by_cases hother : other = id
  · simp [hother]
  · simp [hother]

/-- The maps beside the configuration have at least the entries that they had. -/
structure RuntimeListeners.Grows (state state' : RuntimeListeners) : Prop where
  config : state'.config = state.config
  active : state'.active_listener_groups = state.active_listener_groups
  draining : state'.draining_listener_groups = state.draining_listener_groups
  retired : ∀ id, (state.retired_listeners id).isSome → (state'.retired_listeners id).isSome
  counters : ∀ id, state.listener_active_connections id → state'.listener_active_connections id

theorem RuntimeListeners.Grows.refl (state : RuntimeListeners) : state.Grows state :=
  ⟨rfl, rfl, rfl, fun _ h => h, fun _ h => h⟩

theorem RuntimeListeners.Grows.trans {state state' state'' : RuntimeListeners}
    (h : state.Grows state') (h' : state'.Grows state'') : state.Grows state'' where
  config := h'.config.trans h.config
  active := h'.active.trans h.active
  draining := h'.draining.trans h.draining
  retired id hid := h'.retired id (h.retired id hid)
  counters id hid := h'.counters id (h.counters id hid)

theorem insert_retired_grows (listener : Listener) (state : RuntimeListeners) :
    state.Grows (insert_retired listener state) :=
  ⟨rfl, rfl, rfl, fun _ h => update_isSome.mpr (.inr h), fun _ h => h⟩

theorem ensure_counter_grows (id : String) (state : RuntimeListeners) :
    state.Grows (ensure_counter id state) :=
  ⟨rfl, rfl, rfl, fun _ h => h, fun _ h => update_counter.mpr (.inr h)⟩

/-- Additions to the maps, one for each listener. -/
theorem foldl_grows {add : RuntimeListeners → Listener → RuntimeListeners}
    (hadd : ∀ (state : RuntimeListeners) listener, state.Grows (add state listener))
    (listeners : List Listener) (state : RuntimeListeners) :
    state.Grows (listeners.foldl add state) := by
  induction listeners generalizing state with
  | nil => exact .refl state
  | cons listener listeners ih => exact (hadd state listener).trans (ih _)

/-- What each addition brings is there at the end. -/
theorem foldl_brings {add : RuntimeListeners → Listener → RuntimeListeners}
    {P : RuntimeListeners → String → Prop}
    (hadd : ∀ (state : RuntimeListeners) listener, state.Grows (add state listener))
    (hbrings : ∀ state listener, P (add state listener) listener.id)
    (hgrows : ∀ (state state' : RuntimeListeners) id,
      state.Grows state' → P state id → P state' id)
    {listeners : List Listener} (state : RuntimeListeners) {listener : Listener}
    (hmem : listener ∈ listeners) : P (listeners.foldl add state) listener.id := by
  induction listeners generalizing state with
  | nil => cases hmem
  | cons first listeners ih =>
    rcases List.mem_cons.mp hmem with rfl | hlater
    · exact hgrows _ _ _ (foldl_grows hadd listeners _) (hbrings state _)
    · exact ih _ hlater

theorem RuntimeListeners.Kept.of_grows {state state' : RuntimeListeners} (h : state.Kept)
    (hgrows : state.Grows state') : state'.Kept := by
  have hids : state'.group_ids = state.group_ids := by
    unfold RuntimeListeners.group_ids
    rw [hgrows.active, hgrows.draining]
  have hgroups : state'.groups = state.groups := by
    unfold RuntimeListeners.groups
    rw [hgrows.active, hgrows.draining]
  constructor
  case keys => exact hgrows.active ▸ h.keys
  case ids_apart => exact hids ▸ h.ids_apart
  case bound => exact hgroups ▸ h.bound
  case active =>
    intro id hid
    rw [hgrows.active] at hid
    rw [current_listener_isSome, hgrows.config]
    exact (current_listener_isSome.mp (h.active id hid)).imp_right (hgrows.retired id)
  case draining =>
    intro group hgroup
    rw [hgrows.draining] at hgroup
    exact hgrows.retired _ (h.draining group hgroup)
  case counters =>
    intro id hid
    rw [hids] at hid
    exact hgrows.counters id (h.counters id hid)

end rginx.bootstrap
