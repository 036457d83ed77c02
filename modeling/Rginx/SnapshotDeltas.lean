-- The deltas of the snapshots, from `state/snapshot_bus.rs`: what a poller is told has changed since
-- the version it has, beside any number of operations that change the data and mark their changes
-- step by step.
import Rginx.RecordingOperations
import Rginx.StepRuns

open Std version_feeds

namespace rginx.state

/-! ## Deltas -/

/-- What the loads of a delta have found so far. -/
structure SnapshotReading where
  component_versions : SnapshotModule → Nat
  components_changed : SnapshotModule → Bool
  targets_changed : TargetKind → List String

/-- The loads: each component version, and the maps that are under one lock. -/
inductive SnapshotPart
  | component (module : SnapshotModule)
  | targets (kinds : List TargetKind)

def SnapshotPart.covers : SnapshotPart → SnapshotCell → Prop
  | .component module, .component module' => module = module'
  | .targets kinds, .target kind _ => kind ∈ kinds
  | _, _ => False

/-- The names of a map whose versions are newer, sorted, as the map is. -/
def changed_named_component_targets_since (versions : ExtTreeMap String Nat compare)
    (since_version : Nat) : List String :=
  versions.toList.filterMap fun (name, version) => if version > since_version then some name else none

def SnapshotReading.read (versions : SnapshotVersions) (since_version : Nat) (reading : SnapshotReading) :
    SnapshotPart → SnapshotReading
  | .component module =>
    let version := versions.components module
    { reading with
      component_versions := Function.update reading.component_versions module version
      components_changed :=
        Function.update reading.components_changed module (decide (version > since_version)) }
  | .targets kinds =>
    { reading with
      targets_changed := fun kind =>
        if kind ∈ kinds then changed_named_component_targets_since (versions.targets kind) since_version
        else reading.targets_changed kind }

def SnapshotReading.sees (reading : SnapshotReading) : SnapshotCell → Prop
  | .component module => reading.components_changed module = true
  | .target kind name => name ∈ reading.targets_changed kind

theorem mem_changed_named (versions : ExtTreeMap String Nat compare) (since_version : Nat)
    (name : String) :
    name ∈ changed_named_component_targets_since versions since_version ↔
      since_version < versions[name]?.getD 0 := by
  unfold changed_named_component_targets_since
  rw [List.mem_filterMap]
  constructor
  · rintro ⟨⟨other, version⟩, hmem, hsome⟩
    dsimp only at hsome
    split at hsome
    · rename_i hlt
      obtain rfl := Option.some.inj hsome
      rw [ExtTreeMap.mem_toList_iff_getElem?_eq_some.mp hmem]
      exact hlt
    · cases hsome
  · intro hlt
    cases hversion : versions[name]? with
    | none =>
      rw [hversion] at hlt
      cases hlt
    | some version =>
      rw [hversion] at hlt
      exact ⟨(name, version), ExtTreeMap.mem_toList_iff_getElem?_eq_some.mpr hversion, if_pos hlt⟩

theorem sees_read (versions : SnapshotVersions) (since_version : Nat) (reading : SnapshotReading)
    {part : SnapshotPart} {cell : SnapshotCell} (hcovers : part.covers cell) :
    (reading.read versions since_version part).sees cell ↔
      since_version < versions.version_of cell := by
  cases part with
  | component module =>
    cases cell with
    | component module' =>
      obtain rfl : module = module' := hcovers
      simp [SnapshotReading.read, SnapshotReading.sees, SnapshotVersions.version_of]
    | target kind name => exact hcovers.elim
  | targets kinds =>
    cases cell with
    | component module => exact hcovers.elim
    | target kind name =>
      have hkind : kind ∈ kinds := hcovers
      simp only [SnapshotReading.read, SnapshotReading.sees, if_pos hkind, mem_changed_named]
      exact Iff.rfl

theorem sees_other (versions : SnapshotVersions) (since_version : Nat) (reading : SnapshotReading)
    {part : SnapshotPart} {cell : SnapshotCell} (hcovers : ¬ part.covers cell) :
    (reading.read versions since_version part).sees cell ↔ reading.sees cell := by
  cases part with
  | component module =>
    cases cell with
    | component module' =>
      have hne : module' ≠ module := fun h => hcovers h.symm
      simp [SnapshotReading.read, SnapshotReading.sees, Function.update_of_ne hne]
    | target kind name => exact Iff.rfl
  | targets kinds =>
    cases cell with
    | component module => exact Iff.rfl
    | target kind name =>
      have hkind : kind ∉ kinds := hcovers
      simp only [SnapshotReading.read, SnapshotReading.sees, if_neg hkind]

def snapshot_parts : List SnapshotPart :=
  [.component .Status, .component .Counters, .component .Traffic, .component .PeerHealth,
    .component .Upstreams, .component .Cache, .targets [.listeners, .vhosts, .routes],
    .targets [.peer_health], .targets [.upstreams], .targets [.cache]]

def snapshot_reader : Reader snapshot_cells SnapshotPart SnapshotReading where
  parts := snapshot_parts
  covers := SnapshotPart.covers
  empty := ⟨fun _ => 0, fun _ => false, fun _ => []⟩
  read versions since_version part reading := reading.read versions since_version part
  sees := SnapshotReading.sees
  covered cell := by
    cases cell with
    | component module => cases module <;> simp [snapshot_parts, SnapshotPart.covers]
    | target kind name => cases kind <;> simp [snapshot_parts, SnapshotPart.covers]
  sees_read versions since_version _ reading _ hcovers := sees_read versions since_version reading hcovers
  sees_other versions since_version _ reading _ hcovers := sees_other versions since_version reading hcovers

structure SnapshotDeltaSnapshot where
  schema_version : Nat
  since_version : Nat
  current_snapshot_version : Nat
  included_modules : List SnapshotModule
  recent_window_secs : Option Nat
  status_version : Option Nat
  counters_version : Option Nat
  traffic_version : Option Nat
  peer_health_version : Option Nat
  upstreams_version : Option Nat
  cache_version : Option Nat
  status_changed : Option Bool
  counters_changed : Option Bool
  traffic_changed : Option Bool
  traffic_recent_changed : Option Bool
  peer_health_changed : Option Bool
  upstreams_changed : Option Bool
  cache_changed : Option Bool
  upstreams_recent_changed : Option Bool
  changed_listener_ids : Option (List String)
  changed_vhost_ids : Option (List String)
  changed_route_ids : Option (List String)
  changed_recent_listener_ids : Option (List String)
  changed_recent_vhost_ids : Option (List String)
  changed_recent_route_ids : Option (List String)
  changed_peer_health_upstream_names : Option (List String)
  changed_upstream_names : Option (List String)
  changed_recent_upstream_names : Option (List String)
  changed_cache_zone_names : Option (List String)

def then_some {α : Type} (condition : Bool) (value : α) : Option α :=
  if condition then some value else none

/-- The record that `snapshot_delta_since` returns, from what its loads have found. -/
def snapshot_delta (include_modules : Option (List SnapshotModule)) (window_secs : Option Nat)
    (since_version current_snapshot_version : Nat) (reading : SnapshotReading) :
    SnapshotDeltaSnapshot :=
  let included_modules := SnapshotModule.normalize include_modules
  let included (module : SnapshotModule) := included_modules.contains module
  let recent (module : SnapshotModule) := included module && window_secs.isSome
  { schema_version := 3
    since_version
    current_snapshot_version
    included_modules
    recent_window_secs := window_secs
    status_version := then_some (included .Status) (reading.component_versions .Status)
    counters_version := then_some (included .Counters) (reading.component_versions .Counters)
    traffic_version := then_some (included .Traffic) (reading.component_versions .Traffic)
    peer_health_version := then_some (included .PeerHealth) (reading.component_versions .PeerHealth)
    upstreams_version := then_some (included .Upstreams) (reading.component_versions .Upstreams)
    cache_version := then_some (included .Cache) (reading.component_versions .Cache)
    status_changed := then_some (included .Status) (reading.components_changed .Status)
    counters_changed := then_some (included .Counters) (reading.components_changed .Counters)
    traffic_changed := then_some (included .Traffic) (reading.components_changed .Traffic)
    traffic_recent_changed := then_some (recent .Traffic) (reading.components_changed .Traffic)
    peer_health_changed := then_some (included .PeerHealth) (reading.components_changed .PeerHealth)
    upstreams_changed := then_some (included .Upstreams) (reading.components_changed .Upstreams)
    cache_changed := then_some (included .Cache) (reading.components_changed .Cache)
    upstreams_recent_changed := then_some (recent .Upstreams) (reading.components_changed .Upstreams)
    changed_listener_ids := then_some (included .Traffic) (reading.targets_changed .listeners)
    changed_vhost_ids := then_some (included .Traffic) (reading.targets_changed .vhosts)
    changed_route_ids := then_some (included .Traffic) (reading.targets_changed .routes)
    changed_recent_listener_ids := then_some (recent .Traffic) (reading.targets_changed .listeners)
    changed_recent_vhost_ids := then_some (recent .Traffic) (reading.targets_changed .vhosts)
    changed_recent_route_ids := then_some (recent .Traffic) (reading.targets_changed .routes)
    changed_peer_health_upstream_names :=
      then_some (included .PeerHealth) (reading.targets_changed .peer_health)
    changed_upstream_names := then_some (included .Upstreams) (reading.targets_changed .upstreams)
    changed_recent_upstream_names :=
      then_some (recent .Upstreams) (reading.targets_changed .upstreams)
    changed_cache_zone_names := then_some (included .Cache) (reading.targets_changed .cache) }

namespace SnapshotDeltaSnapshot

def component_changed (delta : SnapshotDeltaSnapshot) : SnapshotModule → Option Bool
  | .Status => delta.status_changed
  | .Counters => delta.counters_changed
  | .Traffic => delta.traffic_changed
  | .PeerHealth => delta.peer_health_changed
  | .Upstreams => delta.upstreams_changed
  | .Cache => delta.cache_changed

def changed_targets (delta : SnapshotDeltaSnapshot) : TargetKind → Option (List String)
  | .listeners => delta.changed_listener_ids
  | .vhosts => delta.changed_vhost_ids
  | .routes => delta.changed_route_ids
  | .peer_health => delta.changed_peer_health_upstream_names
  | .upstreams => delta.changed_upstream_names
  | .cache => delta.changed_cache_zone_names

/-- The delta says that the cell has changed. -/
def Reports (delta : SnapshotDeltaSnapshot) : SnapshotCell → Prop
  | .component module => delta.component_changed module = some true
  | .target kind name => ∃ names, delta.changed_targets kind = some names ∧ name ∈ names

end SnapshotDeltaSnapshot

/-- A delta reports the cells of its modules that its loads have found to be newer. -/
theorem delta_reports_iff {include_modules : Option (List SnapshotModule)}
    (window_secs : Option Nat) (since_version current_snapshot_version : Nat)
    (reading : SnapshotReading) {cell : SnapshotCell}
    (hmodule : cell.module ∈ SnapshotModule.normalize include_modules) :
    (snapshot_delta include_modules window_secs since_version current_snapshot_version
      reading).Reports cell ↔ reading.sees cell := by
  have hincluded : (SnapshotModule.normalize include_modules).contains cell.module = true :=
    List.contains_iff_mem.mpr hmodule
  cases cell with
  | component module =>
    have hchanged : (snapshot_delta include_modules window_secs since_version
        current_snapshot_version reading).component_changed module =
        some (reading.components_changed module) := by
      cases module <;> exact if_pos hincluded
    unfold SnapshotDeltaSnapshot.Reports
    dsimp only
    rw [hchanged]
    exact ⟨Option.some.inj, congrArg some⟩
  | target kind name =>
    have hchanged : (snapshot_delta include_modules window_secs since_version
        current_snapshot_version reading).changed_targets kind =
        some (reading.targets_changed kind) := by
      cases kind <;> exact if_pos hincluded
    unfold SnapshotDeltaSnapshot.Reports
    dsimp only
    rw [hchanged]
    constructor
    · rintro ⟨names, hnames, hname⟩
      rw [← Option.some.inj hnames] at hname
      exact hname
    · exact fun hname => ⟨_, rfl, hname⟩

/-! ## Recorders beside a poller -/

/-- A change of the data: the operation, when it was, and the data it found. -/
structure SnapshotChange where
  id : Nat
  operation : RecordingOperation
  second : Nat
  changed_at : Nat
  before : SnapshotData

namespace SnapshotChange

variable (change : SnapshotChange)

def later : SnapshotData := change.operation.update change.second change.before

/-- What a cell shows is not what it was. -/
def Changes (config : SnapshotConfig) (cell : SnapshotCell) : Prop :=
  ¬ cell.Same config change.before change.later

def Silent : Prop := change.operation.Silent change.before

end SnapshotChange

structure SnapshotWorld where
  feed : Feed SnapshotVersions SnapshotCell SnapshotPart SnapshotReading
  data : SnapshotData
  changes : List SnapshotChange

/-- The steps of the recorders and of the poller. -/
inductive SnapshotEvent
  | update (id second : Nat) (operation : RecordingOperation)
  | fetch_add (id : Nat)
  | store (id : Nat)
  | load_version
  | load_part
  | return_delta

namespace SnapshotWorld

/-- The process has started, and the poller comes with a version of its own. -/
def start (config : SnapshotConfig) (data : SnapshotData) (since_version : Nat) : SnapshotWorld :=
  ⟨Feed.start (SnapshotVersions.start config.names) since_version, data, []⟩

variable (world : SnapshotWorld)

/-- What a step is for the versions. An update begins a recorder, if it marks anything. -/
def feed_event : SnapshotEvent → FeedEvent SnapshotCell
  | .update id _ operation =>
    match operation.recording world.data with
    | none => .pass
    | some recording => .change id recording.plan
  | .fetch_add id => .take_version id
  | .store id => .write id
  | .load_version => .start_poll
  | .load_part => .read_part
  | .return_delta => .finish_poll

/-- A recorder that has begun does not begin again. -/
def step (event : SnapshotEvent) : SnapshotWorld :=
  let feed := Feed.step snapshot_reader world.feed (world.feed_event event)
  match event with
  | .update id second operation =>
    match world.feed.writers id with
    | some _ => { world with feed }
    | none =>
      { feed
        data := operation.update second world.data
        changes := ⟨id, operation, second, world.feed.time, world.data⟩ :: world.changes }
  | _ => { world with feed }

/-- A recorder stores its version into a cell before any later one is stored there, and before a
poll that has taken the version, or a later one, has gone past the cell. -/
def StoresInTime (event : SnapshotEvent) : Prop :=
  world.feed.Meets snapshot_reader (world.feed_event event)

/-- No version decreases. -/
def VersionsIncrease (event : SnapshotEvent) : Prop :=
  ∀ cell, world.feed.store.version_of cell ≤ (world.step event).feed.store.version_of cell

/-- The operation of a change is done; one that marks nothing is done at once. -/
def FinishedAt (change : SnapshotChange) (finished : Nat) : Prop :=
  match change.operation.recording change.before with
  | none => finished = change.changed_at
  | some _ =>
    ∃ writer, world.feed.writers change.id = some writer ∧ writer.finished_at = some finished

/-- A delta that started after the time is complete. -/
def PolledAfter (time : Nat) : Prop := ∃ report ∈ world.feed.reports, time < report.started_at

instance (time : Nat) : Decidable (world.PolledAfter time) :=
  inferInstanceAs (Decidable (∃ report ∈ world.feed.reports, time < report.started_at))

/-- A delta that started after the time says that the cell has changed. -/
def ReportedAfter (include_modules : Option (List SnapshotModule)) (window_secs : Option Nat)
    (time : Nat) (cell : SnapshotCell) : Prop :=
  ∃ report ∈ world.feed.reports, time < report.started_at ∧
    (snapshot_delta include_modules window_secs report.since report.current report.reading).Reports
      cell

/-- The changes are reported: that of an operation that is not silent once the operation is done, and
any other with the next recorder that marks the cell. The silent operations mark nothing. -/
structure DeltasReport (config : SnapshotConfig) (include_modules : Option (List SnapshotModule))
    (window_secs : Option Nat) : Prop where
  changes : ∀ change ∈ world.changes, ¬ change.Silent → ∀ cell, change.Changes config cell →
    cell.module ∈ SnapshotModule.normalize include_modules →
      ∀ finished, world.FinishedAt change finished → world.PolledAfter finished →
        world.ReportedAfter include_modules window_secs change.changed_at cell
  unmarked : ∀ change ∈ world.changes, change.Silent →
    change.operation.recording change.before = none
  silent_changes : ∀ change ∈ world.changes, ∀ cell, change.Changes config cell →
    cell.module ∈ SnapshotModule.normalize include_modules →
      ∀ id recorder finished, world.feed.writers id = some recorder →
        change.changed_at < recorder.changed_at → cell ∈ recorder.plan.sections.flatten →
          recorder.finished_at = some finished → world.PolledAfter finished →
            world.ReportedAfter include_modules window_secs change.changed_at cell

/-- Each change that marks something has its recorder. -/
structure Ok : Prop where
  feed : world.feed.Ok snapshot_reader
  recorders : ∀ change ∈ world.changes, ∀ recording,
    change.operation.recording change.before = some recording →
      ∃ writer, world.feed.writers change.id = some writer ∧ writer.plan = recording.plan ∧
        writer.changed_at = change.changed_at

end SnapshotWorld

theorem SnapshotWorld.start_ok (config : SnapshotConfig) (data : SnapshotData)
    (since_version : Nat) : (SnapshotWorld.start config data since_version).Ok :=
  ⟨Feed.start_ok (SnapshotVersions.version_of_start config.names) since_version,
    fun _ hchange => absurd hchange List.not_mem_nil⟩

section Runs

variable {config : SnapshotConfig} {include_modules : Option (List SnapshotModule)}
  {window_secs : Option Nat} {world : SnapshotWorld} {event : SnapshotEvent}

theorem SnapshotWorld.step_feed (world : SnapshotWorld) (event : SnapshotEvent) :
    (world.step event).feed = Feed.step snapshot_reader world.feed (world.feed_event event) := by
  cases event with
  | update id second operation =>
    unfold SnapshotWorld.step
    dsimp only
    cases world.feed.writers id <;> rfl
  | _ => rfl

/-- The changes that a step makes: none, or that of an update whose recorder is new. -/
theorem SnapshotWorld.step_changes (world : SnapshotWorld) (event : SnapshotEvent) :
    (world.step event).changes = world.changes ∨
      ∃ id second operation, event = .update id second operation ∧
        world.feed.writers id = none ∧
        (world.step event).changes =
          ⟨id, operation, second, world.feed.time, world.data⟩ :: world.changes := by
  cases event with
  | update id second operation =>
    unfold SnapshotWorld.step
    dsimp only
    cases hwriter : world.feed.writers id with
    | some writer => exact .inl rfl
    | none => exact .inr ⟨id, second, operation, rfl, hwriter, rfl⟩
  | _ => exact .inl rfl

theorem SnapshotWorld.Ok.step (h : world.Ok) (hmeets : world.StoresInTime event) :
    (world.step event).Ok := by
  have hfeed : (world.step event).feed.Ok snapshot_reader := by
    rw [world.step_feed event]
    exact h.feed.step hmeets
  have hkept : ∀ change ∈ world.changes, ∀ recording,
      change.operation.recording change.before = some recording →
        ∃ writer, (world.step event).feed.writers change.id = some writer ∧
          writer.plan = recording.plan ∧ writer.changed_at = change.changed_at := by
    intro change hchange recording hrecording
    obtain ⟨writer, hwriter, hplan, hchanged⟩ := h.recorders change hchange recording hrecording
    obtain ⟨later, hlater, hplan', hchanged'⟩ :=
      (acts snapshot_reader world.feed (world.feed_event event)).kept hwriter
    rw [world.step_feed event]
    exact ⟨later, hlater, hplan'.trans hplan, hchanged'.trans hchanged⟩
  refine ⟨hfeed, ?_⟩
  intro change hchange recording hrecording
  rcases world.step_changes event with hsame | ⟨id, second, operation, rfl, hnone, hnew⟩
  · exact hkept change (hsame ▸ hchange) recording hrecording
  · rw [hnew] at hchange
    rcases List.mem_cons.mp hchange with rfl | hold
    · have hevent : world.feed_event (.update id second operation) = .change id recording.plan := by
        unfold SnapshotWorld.feed_event
        dsimp only
        rw [show operation.recording world.data = some recording from hrecording]
      rw [world.step_feed, hevent]
      exact ⟨_, writers_change hnone, rfl, rfl⟩
    · exact hkept change hold recording hrecording

/-- What a recorder marks is reported with the changes that came before it, and with its own. -/
theorem SnapshotWorld.Ok.reported (h : world.Ok) {id finished time : Nat}
    {recorder : Writer SnapshotCell} (hrecorder : world.feed.writers id = some recorder)
    (hfinished : recorder.finished_at = some finished) (hpolled : world.PolledAfter finished)
    {cell : SnapshotCell} (hcell : cell ∈ recorder.plan.sections.flatten)
    (hmodule : cell.module ∈ SnapshotModule.normalize include_modules)
    (htime : time ≤ recorder.changed_at) :
    world.ReportedAfter include_modules window_secs time cell := by
  obtain ⟨report, hreport, hstarted, hsees⟩ :=
    h.feed.reported id recorder finished hrecorder hfinished hpolled cell hcell
  exact ⟨report, hreport, Nat.lt_of_le_of_lt htime hstarted,
    (delta_reports_iff window_secs report.since report.current report.reading hmodule).mpr hsees⟩

theorem SnapshotWorld.Ok.deltas_report (h : world.Ok) :
    world.DeltasReport config include_modules window_secs := by
  refine ⟨?_, fun _ _ hsilent => silent_marks_nothing hsilent, ?_⟩
  · intro change hchange hsilent cell hcell hmodule finished hfinished hpolled
    -- The operation marks the cell, so it has a recorder.
    have hmarked : cell ∈ change.operation.cells change.before := by
      by_contra hunmarked
      exact hcell (marks_what_it_changes config change.second change.before hsilent cell hunmarked)
    unfold RecordingOperation.cells at hmarked
    unfold SnapshotWorld.FinishedAt at hfinished
    cases hrecording : change.operation.recording change.before with
    | none =>
      rw [hrecording] at hmarked
      cases hmarked
    | some recording =>
      rw [hrecording] at hmarked hfinished
      obtain ⟨recorder, hrecorder, hplan, hchanged⟩ :=
        h.recorders change hchange recording hrecording
      obtain ⟨writer, hwriter, hdone⟩ := hfinished
      obtain rfl := Option.some.inj (hrecorder.symm.trans hwriter)
      refine h.reported hrecorder hdone hpolled ?_ hmodule (Nat.le_of_eq hchanged.symm)
      rw [hplan]
      exact recording.flatten_sections ▸ hmarked
  · intro change _ cell _ hmodule id recorder finished hrecorder hchanged hcell hdone hpolled
    exact h.reported hrecorder hdone hpolled hcell hmodule (Nat.le_of_lt hchanged)

theorem SnapshotWorld.Ok.versions_increase (h : world.Ok) (hmeets : world.StoresInTime event) :
    world.VersionsIncrease event := by
  unfold SnapshotWorld.VersionsIncrease
  rw [world.step_feed event]
  exact (acts snapshot_reader world.feed (world.feed_event event)).increases h.feed.store hmeets

end Runs

/-- Every change of an operation that is not silent is in a delta that started after it, and no
version decreases, in every run in which the recorders store their versions in time. -/
theorem every_change_is_in_a_delta (config : SnapshotConfig)
    (include_modules : Option (List SnapshotModule)) (window_secs : Option Nat)
    (data : SnapshotData) (since_version : Nat) (events : List SnapshotEvent)
    (h : step_runs.Along SnapshotWorld.step SnapshotWorld.StoresInTime
      (SnapshotWorld.start config data since_version) events) :
    step_runs.Along SnapshotWorld.step
      (fun world event => world.VersionsIncrease event ∧
        (world.step event).DeltasReport config include_modules window_secs)
      (SnapshotWorld.start config data since_version) events := by
  have hstep : ∀ (world : SnapshotWorld) (event : SnapshotEvent), world.Ok →
      world.StoresInTime event → (world.step event).Ok :=
    fun world event hok hmeets => hok.step hmeets
  have hboth : ∀ (world : SnapshotWorld) (event : SnapshotEvent), world.Ok →
      world.StoresInTime event → world.VersionsIncrease event ∧
        (world.step event).DeltasReport config include_modules window_secs :=
    fun world event hok hmeets => ⟨hok.versions_increase hmeets, (hok.step hmeets).deltas_report⟩
  exact step_runs.along_of_along hstep hboth (SnapshotWorld.start_ok config data since_version)
    events h

/-! ## One recorder -/

def oneRoute : SnapshotConfig := ⟨[], [], ["r"], [], []⟩

/-- The route has counted nothing yet. -/
def oneRouteData : SnapshotData where
  listener_active_connections := fun _ => none
  listeners := fun _ => none
  vhosts := fun _ => none
  routes := fun id => if id = "r" then some {} else none
  upstream_stats := fun _ => none
  peer_health := fun _ => none
  zones := fun _ => none

def wholeDelta : List SnapshotEvent :=
  SnapshotEvent.load_version ::
    (List.replicate 10 SnapshotEvent.load_part ++ [SnapshotEvent.return_delta])

def wholeChange : List SnapshotEvent :=
  [.update 0 0 (.record_route_access_denied "r"), .fetch_add 0, .store 0, .store 0]

theorem stores_in_time_of_ne (world : SnapshotWorld) {event : SnapshotEvent}
    (h : ∀ id, event ≠ .store id) : world.StoresInTime event := by
  intro id writer version first rest hevent
  cases event with
  | store other => exact absurd rfl (h other)
  | update other second operation =>
    unfold SnapshotWorld.feed_event at hevent
    dsimp only at hevent
    split at hevent <;> cases hevent
  | _ => cases hevent

/-- A recorder that is the only one, while no delta is computed. -/
theorem stores_in_time_of_sole (version : Nat) {world : SnapshotWorld}
    (hsole : ∀ writer, world.feed.writers 0 = some writer → writer.version = some version)
    (hnone : ∀ other, other ≠ 0 → world.feed.writers other = none)
    (hpoll : world.feed.poll = none) (hsince : world.feed.since < version) :
    world.StoresInTime (.store 0) := by
  have hall : ∀ other writer, world.feed.writers other = some writer →
      writer.version = some version := by
    intro other writer hwriter
    by_cases hother : other = 0
    · exact hsole writer (hother ▸ hwriter)
    · rw [hnone other hother] at hwriter
      cases hwriter
  intro other writer taken first rest _ hwriter htaken _ cell _
  obtain rfl := Option.some.inj ((hall other writer hwriter).symm.trans htaken)
  refine ⟨?_, ?_⟩
  · intro third writer' later hthird hwritten
    exact Nat.le_of_eq (Option.some.inj (hwritten.1.symm.trans (hall third writer' hthird)))
  · unfold Feed.WillSee
    rw [hpoll]
    exact hsince

theorem wholeChange_in_time : step_runs.Along SnapshotWorld.step SnapshotWorld.StoresInTime
    (SnapshotWorld.start oneRoute oneRouteData 0) (wholeChange ++ wholeDelta) := by
  refine ⟨stores_in_time_of_ne _ (by simp), stores_in_time_of_ne _ (by simp),
    stores_in_time_of_sole 1 ?_ ?_ rfl Nat.one_pos, stores_in_time_of_sole 1 ?_ ?_ rfl Nat.one_pos, ?_⟩
  · rintro _ ⟨⟩
    rfl
  · exact fun other h => (Function.update_of_ne h _ _).trans (Function.update_of_ne h _ _)
  · rintro _ ⟨⟩
    rfl
  · exact fun other h => (Function.update_of_ne h _ _).trans
      ((Function.update_of_ne h _ _).trans (Function.update_of_ne h _ _))
  · refine step_runs.along_of_mem ?_ _
    intro event hevent world
    refine stores_in_time_of_ne world ?_
    rintro id rfl
    simp [wholeDelta] at hevent

theorem an_undisturbed_change_is_in_a_delta :
    step_runs.Along SnapshotWorld.step
      (fun world event => world.VersionsIncrease event ∧
        (world.step event).DeltasReport oneRoute none none)
      (SnapshotWorld.start oneRoute oneRouteData 0) (wholeChange ++ wholeDelta) :=
  every_change_is_in_a_delta oneRoute none none oneRouteData 0 _ wholeChange_in_time

/-- A delta is computed between the `fetch_add` of a recorder and its stores, and another one after
them. -/
def deltaBetween : List SnapshotEvent :=
  let marks : List SnapshotEvent := [.update 0 0 (.record_route_access_denied "r"), .fetch_add 0]
  let stores : List SnapshotEvent := [.store 0, .store 0]
  marks ++ wholeDelta ++ stores ++ .load_version :: List.replicate 10 .load_part

/-- The counters of the traffic are not what they were. -/
theorem access_denied_changes : SnapshotChange.Changes
    ⟨0, .record_route_access_denied "r", 0, 0, oneRouteData⟩ oneRoute (.component .Traffic) := by
  rintro ⟨-, -, -, hroutes⟩
  exact absurd (congrFun hroutes "r") (by decide)

/-- The first delta has the version of the change, and the second one asks for what is newer. -/
theorem a_change_is_in_no_delta :
    ¬ ∀ events, step_runs.Along SnapshotWorld.step
      (fun world event => world.VersionsIncrease event ∧
        (world.step event).DeltasReport oneRoute none none)
      (SnapshotWorld.start oneRoute oneRouteData 0) events := by
  intro h
  have hreport := (h (deltaBetween ++ [.return_delta])).at_event.2.changes
    ⟨0, .record_route_access_denied "r", 0, 0, oneRouteData⟩ List.mem_cons_self id
    (.component .Traffic) access_denied_changes (by decide) 15 ⟨_, rfl, rfl⟩ (by decide +kernel)
  obtain ⟨report, hmem, -, hreports⟩ := hreport
  have hnone : ∀ report ∈ (((step_runs.after SnapshotWorld.step
      (SnapshotWorld.start oneRoute oneRouteData 0) deltaBetween).step .return_delta)).feed.reports,
        (snapshot_delta none none report.since report.current
          report.reading).component_changed .Traffic = some false := by decide +kernel
  have hfalse := (hnone report hmem).symm.trans hreports
  cases hfalse

end rginx.state
