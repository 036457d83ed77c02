-- The versions of `state/snapshot_bus.rs`, of the components of a snapshot and of their
-- targets, and what a recorder marks under them once it has taken a version
-- (`state/helpers.rs`, `state/traffic/snapshot.rs`).
import Rginx.TreeMaps
import Rginx.VersionFeeds

open Std version_feeds

namespace rginx.state

/-! ## The versions -/

/-- The modules of a snapshot; each has a component version of its name. -/
inductive SnapshotModule
  | Status | Counters | Traffic | PeerHealth | Upstreams | Cache
  deriving DecidableEq

def SnapshotModule.ALL : List SnapshotModule :=
  [.Status, .Counters, .Traffic, .PeerHealth, .Upstreams, .Cache]

def SnapshotModule.normalize (include_modules : Option (List SnapshotModule)) :
    List SnapshotModule :=
  let requested := include_modules.getD SnapshotModule.ALL
  SnapshotModule.ALL.filter (requested.contains ·)

/-- The maps of target versions: those of `TrafficComponentVersions`, and the three of names. -/
inductive TargetKind
  | listeners | vhosts | routes | peer_health | upstreams | cache
  deriving DecidableEq

def TargetKind.module : TargetKind → SnapshotModule
  | .listeners | .vhosts | .routes => .Traffic
  | .peer_health => .PeerHealth
  | .upstreams => .Upstreams
  | .cache => .Cache

inductive SnapshotCell
  | component (module : SnapshotModule)
  | target (kind : TargetKind) (name : String)
  deriving DecidableEq

def SnapshotCell.module : SnapshotCell → SnapshotModule
  | .component module => module
  | .target kind _ => kind.module

structure SnapshotVersions where
  components : SnapshotModule → Nat
  targets : TargetKind → ExtTreeMap String Nat compare

namespace SnapshotVersions

/-- The versions of a process that starts, with the targets of its configuration. -/
def start (names : TargetKind → List String) : SnapshotVersions :=
  ⟨fun _ => 0, fun kind => (names kind).foldl (fun versions name => versions.insert name 0) ∅⟩

def store (versions : SnapshotVersions) (version : Nat) : SnapshotCell → SnapshotVersions
  | .component module =>
    { versions with components := Function.update versions.components module version }
  | .target kind name =>
    { versions with
      targets := Function.update versions.targets kind ((versions.targets kind).insert name version) }

/-- The version of a cell; a target that is in no map has not changed. -/
def version_of (versions : SnapshotVersions) : SnapshotCell → Nat
  | .component module => versions.components module
  | .target kind name => (versions.targets kind)[name]?.getD 0

def write (versions : SnapshotVersions) (cells : List SnapshotCell) (version : Nat) :
    SnapshotVersions :=
  cells.foldl (fun versions cell => versions.store version cell) versions

theorem version_of_store (versions : SnapshotVersions) (version : Nat)
    (cell other : SnapshotCell) :
    (versions.store version cell).version_of other =
      if other = cell then version else versions.version_of other := by
  cases cell with
  | component module =>
    cases other with
    | component module' =>
      by_cases h : module' = module
      · subst h
        simp [store, version_of]
      · simp [store, version_of, h]
    | target kind name => rfl
  | target kind name =>
    cases other with
    | component module => rfl
    | target kind' name' =>
      by_cases h : kind' = kind
      · subst h
        by_cases hname : name = name'
        · subst hname
          simp [store, version_of]
        · simp [store, version_of, tree_maps.getElem?_insert_eq, hname, Ne.symm hname]
      · simp [store, version_of, h]

theorem version_of_write (versions : SnapshotVersions) (cells : List SnapshotCell) (version : Nat)
    (other : SnapshotCell) :
    (versions.write cells version).version_of other =
      if other ∈ cells then version else versions.version_of other := by
  induction cells generalizing versions with
  | nil => rfl
  | cons cell cells ih =>
    have hrest := ih (versions.store version cell)
    rw [version_of_store] at hrest
    refine hrest.trans ?_
    by_cases hmem : other ∈ cells
    · simp [hmem]
    · by_cases hcell : other = cell
      · simp [hcell]
      · simp [hmem, hcell]

theorem version_of_start (names : TargetKind → List String) (cell : SnapshotCell) :
    (start names).version_of cell = 0 := by
  have hzero : ∀ (names : List String) (versions : ExtTreeMap String Nat compare)
      (name : String),
      versions[name]?.getD 0 = 0 →
        (names.foldl (fun versions name => versions.insert name 0) versions)[name]?.getD 0 = 0 := by
    intro names
    induction names with
    | nil => exact fun _ _ h => h
    | cons first names ih =>
      intro versions name h
      refine ih _ name ?_
      rw [tree_maps.getElem?_insert_eq]
      split
      · rfl
      · exact h
  cases cell with
  | component module => rfl
  | target kind name => exact hzero (names kind) ∅ name (by simp)

end SnapshotVersions

def snapshot_cells : Cells SnapshotVersions SnapshotCell :=
  ⟨SnapshotVersions.version_of, SnapshotVersions.write, SnapshotVersions.version_of_write⟩

/-! ## Recording -/

/-- The components that are marked, in the order of the stores. -/
def mark_snapshot_changed_components_with_cache
    (status counters traffic peer_health upstreams cache : Bool) : List SnapshotModule :=
  [(status, SnapshotModule.Status), (counters, .Counters), (traffic, .Traffic),
    (peer_health, .PeerHealth), (upstreams, .Upstreams), (cache, .Cache)].filterMap
      fun (marked, module) => if marked then some module else none

def mark_snapshot_changed_components (status counters traffic peer_health upstreams : Bool) :
    List SnapshotModule :=
  mark_snapshot_changed_components_with_cache status counters traffic peer_health upstreams false

def mark_traffic_targets_changed (listener_id vhost_id route_id : Option String) :
    List (TargetKind × String) :=
  (listener_id.map (TargetKind.listeners, ·)).toList ++
    (vhost_id.map (TargetKind.vhosts, ·)).toList ++ (route_id.map (TargetKind.routes, ·)).toList

theorem mark_nodup : ∀ status counters traffic peer_health upstreams cache : Bool,
    (mark_snapshot_changed_components_with_cache status counters traffic peer_health upstreams
      cache).Nodup := by decide

theorem mark_traffic_nodup (listener_id vhost_id route_id : Option String) :
    (mark_traffic_targets_changed listener_id vhost_id route_id).Nodup := by
  cases listener_id <;> cases vhost_id <;> cases route_id <;> simp [mark_traffic_targets_changed]

/-- What an operation marks once it has taken its version: components one by one, and then targets
under the lock of their maps. -/
structure Recording where
  components : List SnapshotModule
  targets : List (TargetKind × String)
  components_nodup : components.Nodup
  targets_nodup : targets.Nodup

def traffic_recording (status counters : Bool) (listener_id vhost_id route_id : Option String) :
    Recording :=
  ⟨mark_snapshot_changed_components status counters true false false,
    mark_traffic_targets_changed listener_id vhost_id route_id,
    mark_nodup _ _ _ _ _ _, mark_traffic_nodup _ _ _⟩

def upstream_recording (upstream_name : String) : Recording :=
  ⟨mark_snapshot_changed_components false false false false true,
    [(.upstreams, upstream_name)], mark_nodup _ _ _ _ _ _, List.nodup_singleton _⟩

/-- What the drop of a guard of a connection stores, by itself. -/
def guard_recording (listener_id : String) : Recording :=
  ⟨[.Status, .Traffic], [(.listeners, listener_id)],
    mark_nodup true false true false false false, List.nodup_singleton _⟩

/-- What the notifier of `build_peer_health_notifier` stores. -/
def peer_health_recording (upstream_name : String) : Recording :=
  ⟨[.PeerHealth], [(.peer_health, upstream_name)],
    mark_nodup false false false true false false, List.nodup_singleton _⟩

/-- What the notifier of `build_cache_notifier` stores. -/
def cache_recording (zone_name : String) : Recording :=
  ⟨[.Status, .Cache], [(.cache, zone_name)],
    mark_nodup true false false false false true, List.nodup_singleton _⟩

namespace Recording

variable (recording : Recording)

def cells : List SnapshotCell :=
  recording.components.map .component ++
    recording.targets.map fun target => .target target.1 target.2

def sections : List (List SnapshotCell) :=
  recording.components.map (fun module => [.component module]) ++
    [recording.targets.map fun target => .target target.1 target.2]

theorem flatten_sections : recording.sections.flatten = recording.cells := by
  have hcomponents : ∀ components : List SnapshotModule,
      (components.map fun module => [SnapshotCell.component module]).flatten =
        components.map .component := by
    intro components
    induction components with
    | nil => rfl
    | cons module components ih => simp [ih]
  unfold sections cells
  rw [List.flatten_append, hcomponents, List.flatten_singleton]

theorem cells_nodup : recording.cells.Nodup := by
  unfold cells
  rw [List.nodup_append]
  refine ⟨?_, ?_, ?_⟩
  · exact recording.components_nodup.map fun _ _ h => SnapshotCell.component.inj h
  · refine recording.targets_nodup.map ?_
    rintro ⟨kind, name⟩ ⟨kind', name'⟩ h
    simpa using h
  · intro cell hcell other hother hsame
    obtain ⟨module, -, rfl⟩ := List.mem_map.mp hcell
    obtain ⟨target, -, rfl⟩ := List.mem_map.mp hother
    cases hsame

/-- The sections of a recorder, in which no cell comes twice. -/
def plan : WritePlan SnapshotCell where
  sections := recording.sections
  nodup := recording.flatten_sections ▸ recording.cells_nodup

end Recording

end rginx.state
