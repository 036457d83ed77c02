-- The map of TLS acceptors and the tasks that write it, from `state/lifecycle/reload.rs`,
-- `state/lifecycle/status.rs` and `state/helpers.rs` of the crate `rginx-http`. The main loop commits
-- reloads and removes what has drained, one after the other; the refreshes of the ACME and OCSP tasks
-- run beside it. Each turn is what a task does between two looks at what is shared.
import Rginx.ListenerBindings
import Rginx.ListenerGroups
import Rginx.TlsAcceptors

open rginx.config rginx.bootstrap step_runs

namespace rginx.http

/-! ## The tasks -/

variable {Files Key Policy : Type}

/-- Less the clients and the cache. -/
structure PreparedState (Key Policy : Type) where
  config : ConfigSnapshot
  listener_tls_acceptors : ListenerTlsAcceptors Key Policy
  retired_listeners : List Listener

/-- Where the main loop stands, with what it holds there: between the sections of
`commit_prepared`, and before the groups of the retired listeners are told to drain. -/
inductive MainPhase (Key Policy : Type)
  | Idle
  | ReadAcceptors (prepared : PreparedState Key Policy)
  | SwapConfig (prepared : PreparedState Key Policy)
      (merged_acceptors : ListenerTlsAcceptors Key Policy)
  | WriteAcceptors (previous_config : ConfigSnapshot) (retired_listeners : List Listener)
      (merged_acceptors : ListenerTlsAcceptors Key Policy)
  | RetireGroups (retired_listeners : List Listener)

/-- Where a call of `refresh_tls_acceptors_from_current_config` stands. -/
inductive RefreshPhase (Key Policy : Type)
  | Preparing (config : ConfigSnapshot)
  | Writing (config : ConfigSnapshot) (listener_tls_acceptors : ListenerTlsAcceptors Key Policy)
  | Returned

/-- The configuration and the map, the files of the certificates, the ids of the groups that drain,
and where each task stands. -/
structure AcceptorState (Files Key Policy : Type) where
  files : Files
  config : ConfigSnapshot
  listener_tls_acceptors : ListenerTlsAcceptors Key Policy
  draining : List String
  main : MainPhase Key Policy
  refreshes : List (RefreshPhase Key Policy)

def AcceptorState.tls_acceptor (state : AcceptorState Files Key Policy) (listener_id : String) :
    Option (TlsAcceptor Key Policy) :=
  (state.listener_tls_acceptors listener_id).join

inductive AcceptorEvent (Files : Type)
  | write_files (files : Files)
  -- The file of the configuration, and what binding the added listeners, or preparing the clients
  -- and the cache, fails with.
  | reload (loaded : Config) (error : Option String)
  | main
  | drained (listener_id : String)
  | refresh_tls_acceptors_from_current_config
  | refresh (index : Nat)

/-- Whether a listener comes back while its group still drains. The active groups are those of the
listeners of the current configuration. -/
def is_draining_again (current next : ConfigSnapshot) (draining : List String) : Bool :=
  next.listeners.any fun listener =>
    listener.id ∉ listener_ids current && decide (listener.id ∈ draining)

def merged_acceptors (existing_acceptors : ListenerTlsAcceptors Key Policy)
    (prepared : PreparedState Key Policy) : ListenerTlsAcceptors Key Policy :=
  prepared.retired_listeners.foldl (fun merged_acceptors listener =>
    match existing_acceptors listener.id with
    | some acceptor => Function.update merged_acceptors listener.id (some acceptor)
    | none => merged_acceptors) prepared.listener_tls_acceptors

section Step

variable (library : TlsLibrary Files Key Policy)

/-- A reload up to its commit: it reads the configuration, checks the transition and prepares. -/
def prepare_reload (files : Files) (current : ConfigSnapshot) (draining : List String)
    (loaded : Config) (error : Option String) : Except String (PreparedState Key Policy) := do
  let next ← compile loaded
  validate_config_transition current next
  if is_draining_again current next draining then
    .error "cannot be re-added until the previous generation has drained"
  else
    match error with
    | some error => .error error
    | none =>
      let listener_tls_acceptors ← prepare_listener_tls_acceptors library files next
      return ⟨next, listener_tls_acceptors, retired_by current next⟩

namespace AcceptorState

def main_turn (state : AcceptorState Files Key Policy) : AcceptorState Files Key Policy :=
  match state.main with
  | .Idle => state
  | .ReadAcceptors prepared =>
    { state with
      main := .SwapConfig prepared (merged_acceptors state.listener_tls_acceptors prepared) }
  | .SwapConfig prepared merged_acceptors =>
    { state with
      config := prepared.config
      main := .WriteAcceptors state.config prepared.retired_listeners merged_acceptors }
  | .WriteAcceptors _ retired_listeners merged_acceptors =>
    { state with
      listener_tls_acceptors := merged_acceptors
      main := .RetireGroups retired_listeners }
  | .RetireGroups retired_listeners =>
    { state with draining := state.draining ++ retired_listeners.map Listener.id, main := .Idle }

def refresh_turn (state : AcceptorState Files Key Policy) (index : Nat) :
    AcceptorState Files Key Policy :=
  match state.refreshes[index]? with
  | some (.Preparing config) =>
    match prepare_listener_tls_acceptors library state.files config with
    | .ok listener_tls_acceptors =>
      { state with refreshes := state.refreshes.set index (.Writing config listener_tls_acceptors) }
    | .error _ => { state with refreshes := state.refreshes.set index .Returned }
  | some (.Writing _ listener_tls_acceptors) =>
    { state with listener_tls_acceptors, refreshes := state.refreshes.set index .Returned }
  | _ => state

/-- A reload begins where the main loop has nothing else to do. -/
def reload (state : AcceptorState Files Key Policy) (loaded : Config) (error : Option String) :
    AcceptorState Files Key Policy :=
  match state.main, prepare_reload library state.files state.config state.draining loaded error with
  | .Idle, .ok prepared => { state with main := .ReadAcceptors prepared }
  | _, _ => state

/-- The main loop removes a group that has drained. -/
def remove_retired_listener_runtime (state : AcceptorState Files Key Policy)
    (listener_id : String) : AcceptorState Files Key Policy :=
  match state.main, decide (listener_id ∈ state.draining) with
  | .Idle, true =>
    { state with
      draining := state.draining.erase listener_id
      listener_tls_acceptors := Function.update state.listener_tls_acceptors listener_id none }
  | _, _ => state

def step (state : AcceptorState Files Key Policy) :
    AcceptorEvent Files → AcceptorState Files Key Policy
  | .write_files files => { state with files }
  | .reload loaded error => state.reload library loaded error
  | .main => state.main_turn
  | .drained listener_id => state.remove_retired_listener_runtime listener_id
  | .refresh_tls_acceptors_from_current_config =>
    { state with refreshes := state.refreshes ++ [.Preparing state.config] }
  | .refresh index => state.refresh_turn library index

/-- `SharedState::from_config`. -/
def new (files : Files) (config : ConfigSnapshot)
    (listener_tls_acceptors : ListenerTlsAcceptors Key Policy) : AcceptorState Files Key Policy :=
  ⟨files, config, listener_tls_acceptors, [], .Idle, []⟩

end AcceptorState

end Step

/-! ## The acceptors of one configuration -/

section Maps

variable {library : TlsLibrary Files Key Policy} {config : ConfigSnapshot}
  {listener_tls_acceptors : ListenerTlsAcceptors Key Policy}

/-- The map has an acceptor of its own making for each listener of the configuration. -/
def HoldsAcceptors (library : TlsLibrary Files Key Policy) (config : ConfigSnapshot)
    (listener_tls_acceptors : ListenerTlsAcceptors Key Policy) : Prop :=
  ∀ listener ∈ config.listeners, ∃ files tls_acceptor,
    build_listener_tls_acceptor library files config listener = .ok tls_acceptor ∧
      listener_tls_acceptors listener.id = some tls_acceptor

/-- The map was built from the configuration. -/
def BuiltFrom (library : TlsLibrary Files Key Policy) (config : ConfigSnapshot)
    (listener_tls_acceptors : ListenerTlsAcceptors Key Policy) : Prop :=
  ∃ files, prepare_listener_tls_acceptors library files config = .ok listener_tls_acceptors

theorem BuiltFrom.rows (h : BuiltFrom library config listener_tls_acceptors) :
    ∃ files rows, listener_tls_acceptors = collect_acceptors rows ∧
      rows.map Prod.fst = listener_ids config ∧
      List.Forall₂ (fun listener row =>
        build_listener_tls_acceptor library files config listener = .ok row.2 ∧
          row.1 = listener.id) config.listeners rows := by
  obtain ⟨files, h⟩ := h
  obtain ⟨rows, hrows, h⟩ := rust_result.bind_eq_ok.mp h
  have heach : ∀ (listener : Listener) (row : String × Option (TlsAcceptor Key Policy)),
      (do
        let tls_acceptor ← build_listener_tls_acceptor library files config listener
        return (listener.id, tls_acceptor)) = .ok row →
      build_listener_tls_acceptor library files config listener = .ok row.2 ∧
        row.1 = listener.id := by
    intro listener row hrow
    obtain ⟨tls_acceptor, hbuild, hrow⟩ := rust_result.bind_eq_ok.mp hrow
    obtain rfl := Except.ok.inj hrow
    exact ⟨hbuild, rfl⟩
  refine ⟨files, rows, (Except.ok.inj h).symm, ?_, ?_⟩
  · exact rust_result.map_eq_of_mapM hrows fun listener row hrow => (heach listener row hrow).2
  · exact (rust_result.forall₂_of_mapM hrows).imp heach

theorem BuiltFrom.holds (h : BuiltFrom library config listener_tls_acceptors)
    (haccepted : config.Accepted) : HoldsAcceptors library config listener_tls_acceptors := by
  obtain ⟨files, rows, rfl, hids, hrows⟩ := h.rows
  have hapart : (rows.map Prod.fst).Nodup := hids ▸ accepted_ids_nodup haccepted
  intro listener hlistener
  obtain ⟨row, hrow, hbuild, hid⟩ := rust_result.forall₂_mem hrows.flip hlistener
  exact ⟨files, row.2, hbuild, hid ▸ collect_acceptors_of_mem hapart hrow⟩

theorem BuiltFrom.absent (h : BuiltFrom library config listener_tls_acceptors) {id : String}
    (hid : id ∉ listener_ids config) : listener_tls_acceptors id = none := by
  obtain ⟨files, rows, rfl, hids, _⟩ := h.rows
  exact collect_acceptors_of_notMem (hids ▸ hid)

/-- Where TLS is enabled, the acceptor is not missing. -/
theorem HoldsAcceptors.isSome (h : HoldsAcceptors library config listener_tls_acceptors)
    (haccepted : config.Accepted) {listener : Listener} (hlistener : listener ∈ config.listeners)
    (htls : listener.tls_enabled = true) :
    (listener_tls_acceptors listener.id).join.isSome = true := by
  obtain ⟨files, tls_acceptor, hbuild, hid⟩ := h listener hlistener
  rw [hid]
  exact accepted_build_isSome haccepted hlistener htls hbuild

theorem HoldsAcceptors.congr {other : ListenerTlsAcceptors Key Policy}
    (h : HoldsAcceptors library config listener_tls_acceptors)
    (hsame : ∀ id ∈ listener_ids config, other id = listener_tls_acceptors id) :
    HoldsAcceptors library config other := by
  intro listener hlistener
  rw [hsame listener.id (List.mem_map_of_mem hlistener)]
  exact h listener hlistener

/-- What is merged: the acceptors of the retired listeners over those that were prepared. -/
theorem merged_acceptors_apply (existing_acceptors : ListenerTlsAcceptors Key Policy)
    (prepared : PreparedState Key Policy) (id : String) :
    merged_acceptors existing_acceptors prepared id =
      if id ∈ prepared.retired_listeners.map Listener.id then
        (existing_acceptors id).or (prepared.listener_tls_acceptors id)
      else prepared.listener_tls_acceptors id := by
  unfold merged_acceptors
  generalize prepared.listener_tls_acceptors = first
  induction prepared.retired_listeners generalizing first with
  | nil => rfl
  | cons listener listeners ih =>
    rw [List.foldl_cons, ih, List.map_cons]
    cases hexisting : existing_acceptors listener.id with
    | none => grind
    | some acceptor => grind [Function.update_apply]

end Maps

/-! ## One port and two -/

/-- A bundle of files is known by the path of its certificate. -/
def keys_by_path : TlsLibrary Unit String Unit :=
  ⟨id, fun _ bundle => .ok bundle.cert_path, fun _ _ => .ok ()⟩

def one_port : Config :=
  ⟨⟨none, 2⟩, [], ⟨none, none, none, [], none, none⟩,
    [⟨[⟨secure_addr 8443, true, true, false⟩], ["example.com"],
      some { cert_path := "cert.pem", key_path := "key.pem" }, some { listen := none }⟩]⟩

def one_port_compiled : ConfigSnapshot :=
  ⟨⟨none, 2⟩, [secure_listener_at 8443 (secure_addr 8443)], ⟨"server", [], none⟩,
    [⟨"servers[0]", ["example.com"], some { cert_path := "cert.pem", key_path := "key.pem" }⟩]⟩

def two_ports_apart : ConfigSnapshot :=
  two_ports_compiled (secure_addr 8443) (secure_addr 9443)

def one_acceptor : TlsAcceptor String Unit :=
  ⟨["cert.pem"], [("example.com", ["cert.pem"])], ["h2", "http/1.1"], ()⟩

def acceptors_at (ports : List Nat) : ListenerTlsAcceptors String Unit :=
  collect_acceptors (ports.map fun port => (vhost_listener_id (secure_addr port), some one_acceptor))

theorem one_port_accepted : one_port_compiled.Accepted := ⟨one_port, rfl⟩

/-! ## What every run keeps -/

section Runs

variable {library : TlsLibrary Files Key Policy}

/-- The configuration that comes, with its acceptors and without what drains. -/
structure Coming (library : TlsLibrary Files Key Policy) (config : ConfigSnapshot)
    (draining : List String) (prepared : PreparedState Key Policy) : Prop where
  accepted : prepared.config.Accepted
  built : BuiltFrom library prepared.config prepared.listener_tls_acceptors
  retired : prepared.retired_listeners = retired_by config prepared.config
  draining : ∀ id ∈ draining, id ∉ listener_ids prepared.config

/-- The retired listeners are none of the configuration. -/
def AreGone (config : ConfigSnapshot) (retired_listeners : List Listener) : Prop :=
  ∀ listener ∈ retired_listeners, listener.id ∉ listener_ids config

def MainPhase.Stands (library : TlsLibrary Files Key Policy) (config : ConfigSnapshot)
    (draining : List String) : MainPhase Key Policy → Prop
  | .Idle => True
  | .ReadAcceptors prepared => Coming library config draining prepared
  | .SwapConfig prepared _ => Coming library config draining prepared
  | .WriteAcceptors previous_config retired_listeners _ =>
    previous_config.Accepted ∧ AreGone config retired_listeners
  | .RetireGroups retired_listeners => AreGone config retired_listeners

def RefreshPhase.Stands (library : TlsLibrary Files Key Policy) : RefreshPhase Key Policy → Prop
  | .Preparing config => config.Accepted
  | .Writing config listener_tls_acceptors =>
    config.Accepted ∧ BuiltFrom library config listener_tls_acceptors
  | .Returned => True

/-- What holds in every order of the turns. -/
structure AcceptorState.Kept (library : TlsLibrary Files Key Policy)
    (state : AcceptorState Files Key Policy) : Prop where
  accepted : state.config.Accepted
  draining : ∀ id ∈ state.draining, id ∉ listener_ids state.config
  main : state.main.Stands library state.config state.draining
  refreshes : ∀ refresh ∈ state.refreshes, refresh.Stands library

theorem retired_are_gone (current next : ConfigSnapshot) : AreGone next (retired_by current next) := by
  intro listener hlistener hid
  obtain ⟨_, hnone⟩ := List.mem_filter.mp hlistener
  have hsome := listener_isSome.mpr hid
  rw [Option.isNone_iff_eq_none.mp hnone] at hsome
  cases hsome

theorem prepare_reload_ok {files : Files} {current : ConfigSnapshot} {draining : List String}
    {loaded : Config} {error : Option String} {prepared : PreparedState Key Policy}
    (h : prepare_reload library files current draining loaded error = .ok prepared)
    (hdraining : ∀ id ∈ draining, id ∉ listener_ids current) :
    Coming library current draining prepared := by
  obtain ⟨next, hnext, h⟩ := rust_result.bind_eq_ok.mp h
  obtain ⟨_, _, h⟩ := rust_result.bind_eq_ok.mp h
  split at h
  · cases h
  rename_i hagain
  cases error with
  | some error => cases h
  | none =>
    obtain ⟨listener_tls_acceptors, hbuilt, h⟩ := rust_result.bind_eq_ok.mp h
    obtain rfl := Except.ok.inj h
    refine ⟨⟨loaded, hnext⟩, ⟨files, hbuilt⟩, rfl, ?_⟩
    intro id hid hmem
    obtain ⟨listener, hlistener, rfl⟩ := List.mem_map.mp hmem
    refine hagain (List.any_eq_true.mpr ⟨listener, hlistener, ?_⟩)
    simpa [hid] using hdraining _ hid

namespace AcceptorState

variable {state : AcceptorState Files Key Policy}

theorem Kept.main_turn (h : state.Kept library) : state.main_turn.Kept library := by
  obtain ⟨haccepted, hdraining, hmain, hrefreshes⟩ := h
  unfold AcceptorState.main_turn
  split
  case h_1 => exact ⟨haccepted, hdraining, hmain, hrefreshes⟩
  case h_2 prepared heq =>
    rw [heq] at hmain
    exact ⟨haccepted, hdraining, hmain, hrefreshes⟩
  case h_3 prepared merged heq =>
    rw [heq] at hmain
    refine ⟨hmain.accepted, hmain.draining, ⟨haccepted, ?_⟩, hrefreshes⟩
    exact hmain.retired ▸ retired_are_gone _ _
  case h_4 previous retired merged heq =>
    rw [heq] at hmain
    exact ⟨haccepted, hdraining, hmain.2, hrefreshes⟩
  case h_5 retired heq =>
    rw [heq] at hmain
    refine ⟨haccepted, ?_, trivial, hrefreshes⟩
    intro id hid
    rcases List.mem_append.mp hid with hbefore | hretired
    · exact hdraining id hbefore
    · obtain ⟨listener, hlistener, rfl⟩ := List.mem_map.mp hretired
      exact hmain listener hlistener

theorem Kept.refresh_turn (h : state.Kept library) (index : Nat) :
    (state.refresh_turn library index).Kept library := by
  obtain ⟨haccepted, hdraining, hmain, hrefreshes⟩ := h
  have hset : ∀ refresh : RefreshPhase Key Policy, refresh.Stands library →
      ∀ other ∈ state.refreshes.set index refresh, other.Stands library := by
    intro refresh hstands other hother
    rcases List.mem_or_eq_of_mem_set hother with hbefore | rfl
    · exact hrefreshes other hbefore
    · exact hstands
  unfold AcceptorState.refresh_turn
  split
  case h_1 config heq =>
    have hconfig : config.Accepted := hrefreshes _ (List.mem_of_getElem? heq)
    split
    case h_1 listener_tls_acceptors hbuilt =>
      exact ⟨haccepted, hdraining, hmain, hset _ ⟨hconfig, _, hbuilt⟩⟩
    case h_2 => exact ⟨haccepted, hdraining, hmain, hset _ trivial⟩
  case h_2 => exact ⟨haccepted, hdraining, hmain, hset _ trivial⟩
  case h_3 => exact ⟨haccepted, hdraining, hmain, hrefreshes⟩

theorem Kept.step (state : AcceptorState Files Key Policy) (event : AcceptorEvent Files)
    (h : state.Kept library) : (state.step library event).Kept library := by
  cases event with
  | write_files files => exact ⟨h.accepted, h.draining, h.main, h.refreshes⟩
  | reload loaded error =>
    change (state.reload library loaded error).Kept library
    unfold AcceptorState.reload
    split
    · rename_i prepared _ hprepared
      exact ⟨h.accepted, h.draining, prepare_reload_ok hprepared h.draining, h.refreshes⟩
    · exact h
  | main => exact h.main_turn
  | drained listener_id =>
    change (state.remove_retired_listener_runtime listener_id).Kept library
    unfold AcceptorState.remove_retired_listener_runtime
    split
    · rename_i hidle _
      refine ⟨h.accepted, fun id hid => h.draining id (List.mem_of_mem_erase hid), ?_, h.refreshes⟩
      rw [hidle]
      trivial
    · exact h
  | refresh_tls_acceptors_from_current_config =>
    refine ⟨h.accepted, h.draining, h.main, ?_⟩
    intro refresh hrefresh
    rcases List.mem_append.mp hrefresh with hbefore | hnew
    · exact h.refreshes refresh hbefore
    · obtain rfl := List.mem_singleton.mp hnew
      exact h.accepted
  | refresh index => exact h.refresh_turn index

theorem Kept.new {files : Files} {config : ConfigSnapshot}
    {listener_tls_acceptors : ListenerTlsAcceptors Key Policy} (haccepted : config.Accepted) :
    (AcceptorState.new files config listener_tls_acceptors).Kept library :=
  ⟨haccepted, List.forall_mem_nil _, trivial, List.forall_mem_nil _⟩

/-! ## Refreshes of the current configuration -/

/-- Where a refresh writes, it has read the configuration that is current. -/
def RefreshIsCurrent (state : AcceptorState Files Key Policy) (event : AcceptorEvent Files) : Prop :=
  ∀ index config listener_tls_acceptors, event = .refresh index →
    state.refreshes[index]? = some (.Writing config listener_tls_acceptors) → config = state.config

/-- What the map holds at each place of the main loop. -/
def PhaseServes (library : TlsLibrary Files Key Policy) (config : ConfigSnapshot)
    (listener_tls_acceptors : ListenerTlsAcceptors Key Policy) : MainPhase Key Policy → Prop
  | .SwapConfig prepared merged_acceptors =>
    HoldsAcceptors library config listener_tls_acceptors ∧
      HoldsAcceptors library prepared.config merged_acceptors
  | .WriteAcceptors previous_config _ merged_acceptors =>
    (HoldsAcceptors library previous_config listener_tls_acceptors ∨
        HoldsAcceptors library config listener_tls_acceptors) ∧
      HoldsAcceptors library config merged_acceptors
  | _ => HoldsAcceptors library config listener_tls_acceptors

/-- The map of a refresh that is current takes the place of any other. -/
theorem PhaseServes.overwrite {config : ConfigSnapshot} {before after : ListenerTlsAcceptors Key Policy}
    {main : MainPhase Key Policy} (h : PhaseServes library config before main)
    (hafter : HoldsAcceptors library config after) : PhaseServes library config after main := by
  cases main with
  | SwapConfig prepared merged_acceptors => exact ⟨hafter, h.2⟩
  | WriteAcceptors previous_config retired_listeners merged_acceptors =>
    exact ⟨.inr hafter, h.2⟩
  | _ => exact hafter

def MapServes (library : TlsLibrary Files Key Policy) (state : AcceptorState Files Key Policy) :
    Prop :=
  PhaseServes library state.config state.listener_tls_acceptors state.main

structure Serves (library : TlsLibrary Files Key Policy) (state : AcceptorState Files Key Policy) :
    Prop extends state.Kept library where
  serves : state.MapServes library

theorem Serves.main_turn (h : state.Serves library) : state.main_turn.MapServes library := by
  have hmain := h.main
  have hserves := h.serves
  unfold MapServes at hserves
  unfold AcceptorState.main_turn
  split
  case h_1 => exact hserves
  case h_2 prepared heq =>
    rw [heq] at hmain hserves
    refine ⟨hserves, (hmain.built.holds hmain.accepted).congr ?_⟩
    intro id hid
    rw [merged_acceptors_apply, if_neg]
    intro hretired
    obtain ⟨listener, hlistener, rfl⟩ := List.mem_map.mp hretired
    exact retired_are_gone _ _ listener (hmain.retired ▸ hlistener) hid
  case h_3 prepared merged heq =>
    rw [heq] at hserves
    exact ⟨.inl hserves.1, hserves.2⟩
  case h_4 previous retired merged heq =>
    rw [heq] at hserves
    exact hserves.2
  case h_5 retired heq =>
    rw [heq] at hserves
    exact hserves

theorem Serves.step (state : AcceptorState Files Key Policy) (event : AcceptorEvent Files)
    (h : state.Serves library) (hcurrent : RefreshIsCurrent state event) :
    (state.step library event).Serves library := by
  refine ⟨h.toKept.step state event, ?_⟩
  have hserves := h.serves
  cases event with
  | write_files files => exact hserves
  | reload loaded error =>
    change (state.reload library loaded error).MapServes library
    unfold AcceptorState.reload
    split
    · rename_i hidle _
      rw [MapServes, hidle] at hserves
      exact hserves
    · exact hserves
  | main => exact h.main_turn
  | drained listener_id =>
    change (state.remove_retired_listener_runtime listener_id).MapServes library
    unfold AcceptorState.remove_retired_listener_runtime
    split
    · rename_i hidle hdraining
      have hholds : HoldsAcceptors library state.config state.listener_tls_acceptors := by
        rwa [MapServes, hidle] at hserves
      refine PhaseServes.overwrite hserves (hholds.congr ?_)
      intro id hid
      refine Function.update_of_ne ?_ _ _
      rintro rfl
      exact h.draining id (of_decide_eq_true hdraining) hid
    · exact hserves
  | refresh_tls_acceptors_from_current_config => exact hserves
  | refresh index =>
    change (state.refresh_turn library index).MapServes library
    unfold AcceptorState.refresh_turn
    split
    case h_1 config heq =>
      split
      · exact hserves
      · exact hserves
    case h_2 config listener_tls_acceptors heq =>
      obtain ⟨haccepted, hbuilt⟩ := h.refreshes _ (List.mem_of_getElem? heq)
      rw [hcurrent index config _ rfl heq] at haccepted hbuilt
      exact PhaseServes.overwrite hserves (hbuilt.holds haccepted)
    case h_3 => exact hserves

end AcceptorState

/-- A reload with all its turns. -/
def reloadWhole (loaded : Config) : List (AcceptorEvent Files) :=
  .reload loaded none :: List.replicate 4 .main

/-- In every order of the turns of reloads, refreshes and removals where no refresh writes what a
configuration of the past gives: between the reloads and in each of them but for one moment, every
listener of the configuration has the acceptor that was built for it from that configuration. At that
moment too, with the configuration swapped and the map not yet written, no listener is without TLS that
has had it before. -/
theorem listeners_have_their_acceptors {files : Files} {config : ConfigSnapshot}
    {listener_tls_acceptors : ListenerTlsAcceptors Key Policy} (haccepted : config.Accepted)
    (hprepared : prepare_listener_tls_acceptors library files config = .ok listener_tls_acceptors)
    (events : List (AcceptorEvent Files))
    (hcurrent : Along (AcceptorState.step library) AcceptorState.RefreshIsCurrent
      (.new files config listener_tls_acceptors) events) :
    let state := after (AcceptorState.step library) (.new files config listener_tls_acceptors) events
    ∀ listener ∈ state.config.listeners,
      ((∀ previous_config retired_listeners merged_acceptors,
          state.main ≠ .WriteAcceptors previous_config retired_listeners merged_acceptors) →
        ∃ files tls_acceptor,
          build_listener_tls_acceptor library files state.config listener = .ok tls_acceptor ∧
            state.tls_acceptor listener.id = tls_acceptor) ∧
      (listener.tls_enabled = true →
        (∀ previous_config retired_listeners merged_acceptors,
          state.main = .WriteAcceptors previous_config retired_listeners merged_acceptors →
            ∃ previous ∈ previous_config.listeners,
              previous.id = listener.id ∧ previous.tls_enabled = true) →
        (state.tls_acceptor listener.id).isSome = true) := by
  intro state listener hlistener
  have hbuilt : BuiltFrom library config listener_tls_acceptors := ⟨files, hprepared⟩
  have h : state.Serves library :=
    after_of_along AcceptorState.Serves.step ⟨.new haccepted, hbuilt.holds haccepted⟩ hcurrent
  have hmain := h.main
  have hserves := h.serves
  unfold AcceptorState.MapServes at hserves
  cases hphase : state.main with
  | WriteAcceptors previous_config retired_listeners merged_acceptors =>
    rw [hphase] at hmain hserves
    refine ⟨fun hnot => absurd rfl (hnot _ _ _), fun htls hprevious => ?_⟩
    rcases hserves.1 with hold | hnew
    · obtain ⟨previous, hmem, hid, hprevious⟩ := hprevious _ _ _ rfl
      rw [AcceptorState.tls_acceptor, ← hid]
      exact hold.isSome hmain.1 hmem hprevious
    · exact hnew.isSome h.accepted hlistener htls
  | _ =>
    rw [hphase] at hserves
    have hholds : HoldsAcceptors library state.config state.listener_tls_acceptors := by
      first | exact hserves | exact hserves.1
    refine ⟨fun _ => ?_, fun htls _ => hholds.isSome h.accepted hlistener htls⟩
    obtain ⟨files, tls_acceptor, hbuild, hid⟩ := hholds listener hlistener
    exact ⟨files, tls_acceptor, hbuild, by rw [AcceptorState.tls_acceptor, hid]; rfl⟩

/-- A port that comes with a reload. -/
theorem two_ports_have_their_acceptors :
    let state := after (AcceptorState.step keys_by_path)
      (.new () one_port_compiled (acceptors_at [8443])) (reloadWhole (two_ports none))
    ∀ listener ∈ state.config.listeners, listener.tls_enabled = true →
      (state.tls_acceptor listener.id).isSome = true := by
  intro state listener hlistener htls
  have hcurrent : Along (AcceptorState.step keys_by_path) AcceptorState.RefreshIsCurrent
      (.new () one_port_compiled (acceptors_at [8443])) (reloadWhole (two_ports none)) :=
    along_of_mem (by simp [reloadWhole, AcceptorState.RefreshIsCurrent]) _
  refine (listeners_have_their_acceptors one_port_accepted rfl _ hcurrent listener hlistener).2 htls ?_
  intro _ _ _ hwrites
  cases hwrites

/-! ## Listeners that drain -/

namespace AcceptorState

/-- No reload begins, no refresh writes the map, and the listener is not removed. -/
def LeavesAcceptor (library : TlsLibrary Files Key Policy) (listener_id : String)
    (state : AcceptorState Files Key Policy) : AcceptorEvent Files → Prop
  | .reload loaded error => state.main = .Idle → ∀ prepared,
    prepare_reload library state.files state.config state.draining loaded error ≠ .ok prepared
  | .drained other => other ≠ listener_id
  | .refresh index => ∀ config listener_tls_acceptors,
    state.refreshes[index]? ≠ some (.Writing config listener_tls_acceptors)
  | _ => True

/-- The map that a commit is about to write has the acceptor too. -/
def PhaseKeeps (listener_id : String) (acceptor : Option (Option (TlsAcceptor Key Policy))) :
    MainPhase Key Policy → Prop
  | .ReadAcceptors prepared =>
    listener_id ∈ prepared.retired_listeners.map Listener.id ∧
      prepared.listener_tls_acceptors listener_id = none
  | .SwapConfig _ merged_acceptors => merged_acceptors listener_id = acceptor
  | .WriteAcceptors _ _ merged_acceptors => merged_acceptors listener_id = acceptor
  | _ => True

structure KeepsAcceptor (listener_id : String) (acceptor : Option (Option (TlsAcceptor Key Policy)))
    (state : AcceptorState Files Key Policy) : Prop where
  held : state.listener_tls_acceptors listener_id = acceptor
  main : PhaseKeeps listener_id acceptor state.main

theorem KeepsAcceptor.main_turn {listener_id : String}
    {acceptor : Option (Option (TlsAcceptor Key Policy))} {state : AcceptorState Files Key Policy}
    (h : state.KeepsAcceptor listener_id acceptor) :
    state.main_turn.KeepsAcceptor listener_id acceptor := by
  obtain ⟨hheld, hmain⟩ := h
  unfold AcceptorState.main_turn
  split
  case h_1 => exact ⟨hheld, hmain⟩
  case h_2 prepared heq =>
    rw [heq] at hmain
    refine ⟨hheld, ?_⟩
    change merged_acceptors _ _ _ = _
    rw [merged_acceptors_apply, if_pos hmain.1, hmain.2, Option.or_none, hheld]
  case h_3 prepared merged heq =>
    rw [heq] at hmain
    exact ⟨hheld, hmain⟩
  case h_4 previous retired merged heq =>
    rw [heq] at hmain
    exact ⟨hmain, trivial⟩
  case h_5 retired heq => exact ⟨hheld, trivial⟩

theorem KeepsAcceptor.step {listener_id : String}
    {acceptor : Option (Option (TlsAcceptor Key Policy))} (state : AcceptorState Files Key Policy)
    (event : AcceptorEvent Files) (h : state.KeepsAcceptor listener_id acceptor)
    (hleaves : LeavesAcceptor library listener_id state event) :
    (state.step library event).KeepsAcceptor listener_id acceptor := by
  cases event with
  | write_files files => exact ⟨h.held, h.main⟩
  | reload loaded error =>
    change (state.reload library loaded error).KeepsAcceptor listener_id acceptor
    unfold AcceptorState.reload
    split
    · rename_i prepared hidle hprepared
      exact absurd hprepared (hleaves hidle prepared)
    · exact h
  | main => exact h.main_turn
  | drained other =>
    change (state.remove_retired_listener_runtime other).KeepsAcceptor listener_id acceptor
    unfold AcceptorState.remove_retired_listener_runtime
    split
    · refine ⟨?_, h.main⟩
      exact (Function.update_of_ne (Ne.symm hleaves) _ _).trans h.held
    · exact h
  | refresh_tls_acceptors_from_current_config => exact ⟨h.held, h.main⟩
  | refresh index =>
    change (state.refresh_turn library index).KeepsAcceptor listener_id acceptor
    unfold AcceptorState.refresh_turn
    split
    case h_1 config heq =>
      split
      · exact ⟨h.held, h.main⟩
      · exact ⟨h.held, h.main⟩
    case h_2 config listener_tls_acceptors heq => exact absurd heq (hleaves config _)
    case h_3 => exact h

end AcceptorState

/-- In every order of the turns: from the moment at which a reload is about to commit, a listener that
it retires keeps the acceptor that the map has for it, while the commit goes on and while its group
drains, until it is removed, the next reload begins or a refresh writes the map. -/
theorem a_retired_listener_keeps_its_acceptor {files : Files} {config : ConfigSnapshot}
    {listener_tls_acceptors : ListenerTlsAcceptors Key Policy} (haccepted : config.Accepted)
    (before later : List (AcceptorEvent Files)) {prepared : PreparedState Key Policy}
    (hcommits : (after (AcceptorState.step library) (.new files config listener_tls_acceptors)
      before).main = .ReadAcceptors prepared)
    {listener : Listener} (hretired : listener ∈ prepared.retired_listeners)
    (hleaves : Along (AcceptorState.step library)
      (AcceptorState.LeavesAcceptor library listener.id)
      (after (AcceptorState.step library) (.new files config listener_tls_acceptors) before) later) :
    let start := AcceptorState.new files config listener_tls_acceptors
    (after (AcceptorState.step library) start (before ++ later)).tls_acceptor listener.id =
      (after (AcceptorState.step library) start before).tls_acceptor listener.id := by
  intro start
  have hkept : (after (AcceptorState.step library) start before).Kept library :=
    after_of_invariant AcceptorState.Kept.step (.new haccepted) before
  have hcoming := hkept.main
  rw [hcommits] at hcoming
  have hgone : listener.id ∉ listener_ids prepared.config :=
    retired_are_gone _ _ listener (hcoming.retired ▸ hretired)
  have hkeeps := after_of_along AcceptorState.KeepsAcceptor.step
    (⟨rfl, by
      rw [hcommits]
      exact ⟨List.mem_map_of_mem hretired, hcoming.built.absent hgone⟩⟩ :
        (after (AcceptorState.step library) start before).KeepsAcceptor listener.id _) hleaves
  rw [after_append]
  exact congrArg Option.join hkeeps.held

/-- A port that goes with a reload keeps its acceptor over the turns of the commit. -/
theorem a_retired_port_keeps_its_acceptor :
    let start := AcceptorState.new () two_ports_apart (acceptors_at [8443, 9443])
    (after (AcceptorState.step keys_by_path) start
        ([.reload one_port none] ++ List.replicate 4 .main)).tls_acceptor
          (vhost_listener_id (secure_addr 9443)) =
      (after (AcceptorState.step keys_by_path) start
        [.reload one_port none]).tls_acceptor (vhost_listener_id (secure_addr 9443)) :=
  @a_retired_listener_keeps_its_acceptor Unit String Unit keys_by_path () two_ports_apart
    (acceptors_at [8443, 9443]) ⟨two_ports none, rfl⟩ [.reload one_port none]
    (List.replicate 4 .main)
    ⟨one_port_compiled, acceptors_at [8443], retired_by two_ports_apart one_port_compiled⟩ rfl
    (secure_listener_at 9443 (secure_addr 9443)) (by decide)
    (along_of_mem (by simp [AcceptorState.LeavesAcceptor]) _)

/-! ## Listeners that lose their acceptor -/

/-- A refresh that reads the configuration before a reload, and writes after it. -/
def refreshAround (loaded : Config) : List (AcceptorEvent Files) :=
  [.refresh_tls_acceptors_from_current_config, .refresh 0] ++ (reloadWhole loaded ++ [.refresh 0])

/-- A refresh after a reload. -/
def refreshLater (loaded : Config) : List (AcceptorEvent Files) :=
  reloadWhole loaded ++ [.refresh_tls_acceptors_from_current_config, .refresh 0, .refresh 0]

/-- What a configuration changes to itself needs no restart. -/
theorem validate_config_transition_self {config : ConfigSnapshot} (h : config.Accepted) :
    validate_config_transition config config = .ok () := by
  have heach : ∀ listener ∈ config.listeners,
      next_by_id config.listeners listener.id = some listener := by
    intro listener hlistener
    have hapart : (config.listeners.reverse.map Listener.id).Nodup := by
      rw [List.map_reverse, List.nodup_reverse]
      exact accepted_ids_nodup h
    exact find_of_nodup hapart (List.mem_reverse.mpr hlistener)
  have hnone : plan_config_transition config config = [] := by
    unfold plan_config_transition
    simp only [ne_eq, not_true_eq_false, if_false, List.append_nil, List.flatMap_eq_nil_iff]
    intro listener hlistener
    rw [heach listener hlistener]
    simp [listener_changes]
  simp [validate_config_transition, hnone]

section Drops

variable {files : Files} {loaded : Config} {next : ConfigSnapshot}
  {next_acceptors : ListenerTlsAcceptors Key Policy}

theorem after_reload {state : AcceptorState Files Key Policy} (hidle : state.main = .Idle)
    (hnext : compile loaded = .ok next)
    (hvalid : validate_config_transition state.config next = .ok ())
    (hagain : is_draining_again state.config next state.draining = false)
    (hprepared : prepare_listener_tls_acceptors library state.files next = .ok next_acceptors) :
    after (AcceptorState.step library) state (reloadWhole loaded) =
      { state with
        config := next
        listener_tls_acceptors := merged_acceptors state.listener_tls_acceptors
          ⟨next, next_acceptors, retired_by state.config next⟩
        draining := state.draining ++ (retired_by state.config next).map Listener.id
        main := .Idle } := by
  have hreload : prepare_reload library state.files state.config state.draining loaded none =
      .ok ⟨next, next_acceptors, retired_by state.config next⟩ := by
    unfold prepare_reload
    rw [hnext, rust_result.ok_bind, hvalid, rust_result.ok_bind, hagain, hprepared]
    rfl
  have hbegins : state.step library (.reload loaded none) =
      { state with main := .ReadAcceptors ⟨next, next_acceptors, retired_by state.config next⟩ } := by
    change state.reload library loaded none = _
    unfold AcceptorState.reload
    rw [hidle, hreload]
  change after (AcceptorState.step library) (state.step library (.reload loaded none))
    (List.replicate 4 .main) = _
  rw [hbegins]
  rfl

theorem after_refresh {state : AcceptorState Files Key Policy}
    (hprepared : prepare_listener_tls_acceptors library state.files state.config =
      .ok next_acceptors) (hrefreshes : state.refreshes = []) :
    after (AcceptorState.step library) state
        [.refresh_tls_acceptors_from_current_config, .refresh 0, .refresh 0] =
      { state with listener_tls_acceptors := next_acceptors, refreshes := [.Returned] } := by
  simp [after, AcceptorState.step, AcceptorState.refresh_turn, hrefreshes, hprepared]

/-- The listeners that come back are those of the configuration. -/
theorem is_draining_again_self (config : ConfigSnapshot) (draining : List String) :
    is_draining_again config config draining = false := by
  simp only [is_draining_again, List.any_eq_false]
  intro listener hlistener
  simp [listener_ids, List.mem_map_of_mem hlistener]

theorem mem_retired_by {current next : ConfigSnapshot} {listener : Listener} :
    listener ∈ retired_by current next ↔
      listener ∈ current.listeners ∧ listener.id ∉ listener_ids next := by
  rw [retired_by, List.mem_filter, ← listener_isSome, Bool.not_eq_true, Option.isSome_eq_false_iff]

section Losses

variable {config : ConfigSnapshot} {listener_tls_acceptors : ListenerTlsAcceptors Key Policy}
  (hnext : compile loaded = .ok next) (hvalid : validate_config_transition config next = .ok ())
  (hcoming : prepare_listener_tls_acceptors library files next = .ok next_acceptors)

/-- What a reload of a state without groups that drain ends in. -/
def reloaded (files : Files) (config next : ConfigSnapshot)
    (listener_tls_acceptors next_acceptors : ListenerTlsAcceptors Key Policy)
    (refreshes : List (RefreshPhase Key Policy)) : AcceptorState Files Key Policy :=
  ⟨files, next,
    merged_acceptors listener_tls_acceptors ⟨next, next_acceptors, retired_by config next⟩,
    (retired_by config next).map Listener.id, .Idle, refreshes⟩

include hnext hvalid hcoming

theorem after_first_reload (refreshes : List (RefreshPhase Key Policy)) :
    after (AcceptorState.step library) ⟨files, config, listener_tls_acceptors, [], .Idle, refreshes⟩
        (reloadWhole loaded) =
      reloaded files config next listener_tls_acceptors next_acceptors refreshes := by
  have hnew : is_draining_again config next [] = false := by simp [is_draining_again]
  rw [@after_reload Files Key Policy library loaded next next_acceptors
    ⟨files, config, listener_tls_acceptors, [], .Idle, refreshes⟩ rfl hnext hvalid hnew hcoming]
  rfl

theorem after_refresh_around
    (hprepared : prepare_listener_tls_acceptors library files config = .ok listener_tls_acceptors) :
    after (AcceptorState.step library) (.new files config listener_tls_acceptors)
        (refreshAround loaded) =
      { reloaded files config next listener_tls_acceptors next_acceptors [.Returned] with
        listener_tls_acceptors } := by
  have hbegun : after (AcceptorState.step library) (.new files config listener_tls_acceptors)
      [.refresh_tls_acceptors_from_current_config, .refresh 0] =
      ⟨files, config, listener_tls_acceptors, [], .Idle,
        [.Writing config listener_tls_acceptors]⟩ := by
    simp [after, AcceptorState.step, AcceptorState.refresh_turn, AcceptorState.new, hprepared]
  rw [refreshAround, after_append, hbegun, after_append, after_first_reload hnext hvalid hcoming]
  rfl

theorem after_refresh_later :
    after (AcceptorState.step library) (.new files config listener_tls_acceptors)
        (refreshLater loaded) =
      { reloaded files config next listener_tls_acceptors next_acceptors [.Returned] with
        listener_tls_acceptors := next_acceptors } := by
  rw [refreshLater, after_append, AcceptorState.new, after_first_reload hnext hvalid hcoming]
  exact after_refresh hcoming rfl

theorem after_second_reload :
    after (AcceptorState.step library) (.new files config listener_tls_acceptors)
        (reloadWhole loaded ++ reloadWhole loaded) =
      { reloaded files config next listener_tls_acceptors next_acceptors [] with
        listener_tls_acceptors := next_acceptors } := by
  have hnone : retired_by next next = [] := by
    refine List.eq_nil_iff_forall_not_mem.mpr fun listener hlistener => ?_
    obtain ⟨hmem, hid⟩ := mem_retired_by.mp hlistener
    exact hid (List.mem_map_of_mem hmem)
  rw [after_append, AcceptorState.new, after_first_reload hnext hvalid hcoming]
  have hsecond := @after_reload Files Key Policy library loaded next next_acceptors
    (reloaded files config next listener_tls_acceptors next_acceptors []) rfl hnext
    (validate_config_transition_self ⟨loaded, hnext⟩) (is_draining_again_self _ _) hcoming
  rw [hsecond]
  change AcceptorState.mk _ _ (merged_acceptors _ ⟨_, _, retired_by next next⟩)
    (_ ++ (retired_by next next).map _) _ _ = _
  rw [hnone, List.map_nil, List.append_nil]
  rfl

end Losses

/-- Neither of the laws holds without its conditions. A refresh around a reload leaves the listeners
that come with the reload without an acceptor; a refresh after a reload, and a second reload of the
same file, those that drain. Then nothing is in progress any more. -/
theorem a_refresh_or_a_reload_drops_acceptors {config : ConfigSnapshot}
    {listener_tls_acceptors : ListenerTlsAcceptors Key Policy} (hnext : compile loaded = .ok next)
    (hvalid : validate_config_transition config next = .ok ())
    (hprepared : prepare_listener_tls_acceptors library files config = .ok listener_tls_acceptors)
    (hcoming : prepare_listener_tls_acceptors library files next = .ok next_acceptors) :
    let start := AcceptorState.new files config listener_tls_acceptors
    let around := after (AcceptorState.step library) start (refreshAround loaded)
    let later := after (AcceptorState.step library) start (refreshLater loaded)
    let again := after (AcceptorState.step library) start (reloadWhole loaded ++ reloadWhole loaded)
    (around.main = .Idle ∧ around.config = next ∧ around.refreshes = [.Returned] ∧
      ∀ listener ∈ next.listeners, listener.id ∉ listener_ids config →
        around.tls_acceptor listener.id = none) ∧
    ∀ state, state = later ∨ state = again →
      state.main = .Idle ∧ state.config = next ∧ (∀ refresh ∈ state.refreshes, refresh = .Returned) ∧
        ∀ listener ∈ config.listeners, listener.id ∉ listener_ids next →
          listener.id ∈ state.draining ∧ state.tls_acceptor listener.id = none := by
  intro start around later again
  have hbuilt : BuiltFrom library config listener_tls_acceptors := ⟨files, hprepared⟩
  have hbuilt' : BuiltFrom library next next_acceptors := ⟨files, hcoming⟩
  have hdrains : ∀ listener ∈ config.listeners, listener.id ∉ listener_ids next →
      listener.id ∈ (retired_by config next).map Listener.id :=
    fun listener hlistener hid => List.mem_map_of_mem (mem_retired_by.mpr ⟨hlistener, hid⟩)
  constructor
  · unfold around
    rw [after_refresh_around hnext hvalid hcoming hprepared]
    refine ⟨rfl, rfl, rfl, fun listener _ hid => ?_⟩
    exact congrArg Option.join (hbuilt.absent hid)
  rintro state (rfl | rfl)
  · unfold later
    rw [after_refresh_later hnext hvalid hcoming]
    refine ⟨rfl, rfl, fun refresh hrefresh => List.mem_singleton.mp hrefresh, ?_⟩
    intro listener hlistener hid
    exact ⟨hdrains listener hlistener hid, congrArg Option.join (hbuilt'.absent hid)⟩
  · unfold again
    rw [after_second_reload hnext hvalid hcoming]
    refine ⟨rfl, rfl, List.forall_mem_nil _, ?_⟩
    intro listener hlistener hid
    exact ⟨hdrains listener hlistener hid, congrArg Option.join (hbuilt'.absent hid)⟩

/-- The second port comes with the reload, and has no acceptor when all is done. -/
theorem a_second_port_is_without_an_acceptor :
    (after (AcceptorState.step keys_by_path) (.new () one_port_compiled (acceptors_at [8443]))
      (refreshAround (two_ports none))).tls_acceptor (vhost_listener_id (secure_addr 9443)) = none :=
  (@a_refresh_or_a_reload_drops_acceptors Unit String Unit keys_by_path () (two_ports none)
    two_ports_apart (acceptors_at [8443, 9443]) one_port_compiled (acceptors_at [8443]) rfl (by decide)
    rfl rfl).1.2.2.2 (secure_listener_at 9443 (secure_addr 9443)) (by decide) (by decide)

end Drops

end Runs

end rginx.http
