-- The rebuild of the shared document, from `shared/bootstrap.rs`, and what
-- the other zones make of it. A zone decides from its cursor alone; a rebuild
-- keeps the epoch of a segment that can be attached and starts the other
-- counters again, so the cursor of an older document may look up to date.
import Rginx.SharedSync

open rust_result

namespace rginx.cache

/-! ## The start of a process -/

def shared_index_loaded (index : CacheIndex) (generation : Nat) : Bool :=
  0 < generation || !index.entries.isEmpty || !index.admission_counts.isEmpty ||
    !index.invalidations.isEmpty

section Bootstrap

variable {γ β : Type} (store : MemorySharedIndexStore γ β)

/-- A zone with the cursor that the store gave for its index. -/
def zone_at (index : CacheIndex) (applied : AppliedSharedIndexOperations) : SharedZone :=
  ⟨index, applied.generation, applied.store_epoch, applied.last_change_seq⟩

/-- The index of the files: the one of a legacy index file when there is one that can be read,
and else the one of a scan. The scan is an input, since it reads the disk. -/
def bootstrap_shared_index_from_cache_files (clock : Nat) (memory : SharedMemory γ)
    (legacy : IoResult (Option LoadedSharedIndex)) (scanned : IoResult CacheIndex) :
    SharedMemory γ × IoResult SharedZone :=
  match legacy with
  | .ok (some legacy) =>
    let (memory, rebuilt) := recreate store clock memory legacy.index (max legacy.generation 1)
    (memory, rebuilt.map (zone_at legacy.index))
  | .ok none | .error _ =>
    match scanned with
    | .error error => (memory, .error error)
    | .ok index =>
      let (memory, rebuilt) := recreate store clock memory index 1
      (memory, rebuilt.map (zone_at index))

def bootstrap_shared_index_with_store (clock : Nat) (memory : SharedMemory γ)
    (legacy : IoResult (Option LoadedSharedIndex)) (scanned : IoResult CacheIndex) :
    SharedMemory γ × IoResult SharedZone :=
  match load store clock memory with
  | (memory, .ok loaded) =>
    if shared_index_loaded loaded.index loaded.generation then
      (memory, .ok ⟨loaded.index, loaded.generation, loaded.store_epoch, loaded.last_change_seq⟩)
    else bootstrap_shared_index_from_cache_files store clock memory legacy scanned
  | (memory, .error _) =>
    bootstrap_shared_index_from_cache_files store clock memory legacy scanned

/-- The document could not be read, or was empty. -/
def NothingLoaded (clock : Nat) (memory : SharedMemory γ) : Prop :=
  ∀ loaded, (load store clock memory).2 = .ok loaded →
    shared_index_loaded loaded.index loaded.generation = false

/-! ## A whole sync -/

inductive SyncOutcome
  | Kept
  | Replayed
  | Reloaded
  deriving DecidableEq, Repr

/-- The reload at the end of a sync, which keeps the index when the document cannot be read. -/
def sync_reload (zone : SharedZone) (loaded : IoResult LoadedSharedIndex) :
    SharedZone × SyncOutcome :=
  match loaded with
  | .error _ => (zone, .Kept)
  | .ok loaded => (reload_zone_shared_index zone loaded, .Reloaded)

/-- `sync_zone_shared_index_if_needed`, with the four reads of the store as its inputs: the
sync state before the lock and under it, the changes since the cursor, and the whole index. -/
def sync_zone_shared_index_if_needed (zone : SharedZone)
    (first second : IoResult SharedIndexSyncState) (delta : IoResult LoadedSharedIndexChanges)
    (loaded : IoResult LoadedSharedIndex) : SharedZone × SyncOutcome :=
  match first with
  | .error _ => (zone, .Kept)
  | .ok state =>
    if nothing_newer zone state then (zone, .Kept)
    else
      match second with
      | .error _ => (zone, .Kept)
      | .ok state =>
        match sync_choice zone state with
        | .Idle => (zone, .Kept)
        | .Reload => sync_reload zone loaded
        | .Delta =>
          match delta with
          | .error _ => sync_reload zone loaded
          | .ok delta =>
            match replay_delta zone delta with
            | some zone => (zone, .Replayed)
            | none => sync_reload zone loaded

/-! ## Publications after a rebuild -/

/-- The memories that publications reach, by any processes, with every one succeeding. -/
inductive Published (start : SharedMemory γ) : SharedMemory γ → Prop
  | start : Published start start
  | call {memory : SharedMemory γ} (clock : Nat) (operations : List SharedIndexOperation)
      (applied : AppliedSharedIndexOperations) :
      Published start memory →
      (apply_operations store clock memory operations).2 = .ok applied →
      Published start (apply_operations store clock memory operations).1

/-- The memory holds a document of a history that starts with the view. The generation is a
`u64`. -/
structure OnLineage (origin : SharedView) (memory : SharedMemory γ)
    (document : SharedMemoryIndexDocument β) : Prop where
  holds : Holds store memory document
  tracks : ∃ history, Tracks store.json store.operation_ring_capacity origin history document
  bounded : document.generation ≤ U64_MAX

variable {store}

theorem le_saturating_add {a b : Nat} (h : a ≤ U64_MAX) : a ≤ saturating_add a b := by
  unfold saturating_add
  omega

/-- Publications stay in the lineage, in its epoch, and never lower its generation. -/
theorem Published.onLineage {origin : SharedView} {memory memory' : SharedMemory γ}
    {document : SharedMemoryIndexDocument β} (h : OnLineage store origin memory document)
    (hpub : Published store memory memory') :
    ∃ document', OnLineage store origin memory' document' ∧
      document'.store_epoch = document.store_epoch ∧
      document.generation ≤ document'.generation := by
  induction hpub with
  | start => exact ⟨document, h, rfl, le_refl _⟩
  | call clock operations applied _ happly ih =>
    obtain ⟨before, hbefore, hepoch, hgen⟩ := ih
    obtain ⟨history, htracks⟩ := hbefore.tracks
    obtain ⟨after, hops, hholds, -⟩ :=
      hbefore.holds.apply_operations htracks.decodes clock happly
    obtain ⟨-, hepoch', hgen'⟩ := apply_operations_to_document_counters htracks.decodes hops
    have hle : before.generation ≤ after.generation ∧ after.generation ≤ U64_MAX := by
      have hbound := hbefore.bounded
      rw [hgen']
      split
      · exact ⟨le_refl _, hbound⟩
      · exact ⟨le_saturating_add hbound, min_le_right _ _⟩
    exact ⟨after, ⟨hholds, ⟨_, htracks.apply_operations hops⟩, hle.2⟩, hepoch'.trans hepoch,
      le_trans hgen hle.1⟩

/-! ## What the rebuild leaves -/

theorem recreate_onLineage {clock generation : Nat} {memory : SharedMemory γ}
    {index : CacheIndex} {applied : AppliedSharedIndexOperations} (hgen : generation ≤ U64_MAX)
    (h : (recreate store clock memory index generation).2 = .ok applied) :
    ∃ document, OnLineage store index.view (recreate store clock memory index generation).1
      document := by
  unfold recreate at h ⊢
  rcases ho : open_or_create_segment store clock memory with ⟨opened, error | segment⟩
  · rw [ho] at h
    cases h
  · rw [ho] at h
    dsimp only at h ⊢
    split at h
    · cases h
    · rename_i document hdoc
      obtain ⟨htracks, -, hgeneration, hversion⟩ :=
        recreated_document_tracks store.operation_ring_capacity hdoc
      obtain ⟨hholds, -⟩ := write_applied_holds hversion h
      exact ⟨document, hholds, ⟨[], htracks⟩, hgeneration ▸ hgen⟩

theorem map_eq_ok {α δ : Type} {x : IoResult α} {f : α → δ} {b : δ} (h : x.map f = .ok b) :
    ∃ a, x = .ok a ∧ f a = b := by
  cases x with
  | error e => cases h
  | ok a => exact ⟨a, rfl, Except.ok.inj h⟩

theorem bootstrap_from_cache_files_onLineage {clock : Nat} {memory : SharedMemory γ}
    {legacy : IoResult (Option LoadedSharedIndex)} {scanned : IoResult CacheIndex}
    {zone : SharedZone}
    (hlegacy : ∀ index, legacy = .ok (some index) → index.generation ≤ U64_MAX)
    (h : (bootstrap_shared_index_from_cache_files store clock memory legacy scanned).2 =
      .ok zone) :
    ∃ document, OnLineage store zone.index.view
      (bootstrap_shared_index_from_cache_files store clock memory legacy scanned).1 document := by
  have hscan : ∀ index, scanned = .ok index →
      ((recreate store clock memory index 1).2.map (zone_at index)) = .ok zone →
      ∃ document, OnLineage store zone.index.view (recreate store clock memory index 1).1
        document := by
    intro index _ hmap
    obtain ⟨applied, happlied, rfl⟩ := map_eq_ok hmap
    exact recreate_onLineage (by decide) happlied
  unfold bootstrap_shared_index_from_cache_files at h ⊢
  rcases legacy with error | _ | legacy
  · rcases scanned with error | index
    · cases h
    · exact hscan index rfl h
  · rcases scanned with error | index
    · cases h
    · exact hscan index rfl h
  · obtain ⟨applied, happlied, rfl⟩ := map_eq_ok h
    exact recreate_onLineage (max_le (hlegacy legacy rfl) (by decide)) happlied

theorem bootstrap_onLineage {clock : Nat} {memory : SharedMemory γ}
    {legacy : IoResult (Option LoadedSharedIndex)} {scanned : IoResult CacheIndex}
    {zone : SharedZone} (hnothing : NothingLoaded store clock memory)
    (hlegacy : ∀ index, legacy = .ok (some index) → index.generation ≤ U64_MAX)
    (h : (bootstrap_shared_index_with_store store clock memory legacy scanned).2 = .ok zone) :
    ∃ document, OnLineage store zone.index.view
      (bootstrap_shared_index_with_store store clock memory legacy scanned).1 document := by
  unfold bootstrap_shared_index_with_store at h ⊢
  rcases hl : load store clock memory with ⟨memory', error | loaded⟩
  · rw [hl] at h
    exact bootstrap_from_cache_files_onLineage hlegacy h
  · have hempty := hnothing loaded (by rw [hl])
    rw [hl] at h
    simp only [hempty, Bool.false_eq_true, if_false] at h ⊢
    exact bootstrap_from_cache_files_onLineage hlegacy h

/-! ## What a sync makes of a lineage -/

theorem nothing_newer_iff {zone : SharedZone} {state : SharedIndexSyncState} :
    nothing_newer zone state = true ↔
      state.store_epoch = zone.shared_index_store_epoch ∧
        state.generation ≤ zone.shared_index_generation := by
  simp [nothing_newer]

/-- The sync of a zone in another epoch is a full reload. -/
theorem sync_of_other_epoch {zone : SharedZone} {first second : SharedIndexSyncState}
    (delta : IoResult LoadedSharedIndexChanges) (loaded : LoadedSharedIndex)
    (hfirst : first.store_epoch ≠ zone.shared_index_store_epoch)
    (hsecond : second.store_epoch ≠ zone.shared_index_store_epoch) :
    sync_zone_shared_index_if_needed zone (.ok first) (.ok second) delta (.ok loaded) =
      (reload_zone_shared_index zone loaded, .Reloaded) := by
  have hn : ∀ state : SharedIndexSyncState,
      state.store_epoch ≠ zone.shared_index_store_epoch → nothing_newer zone state = false := by
    intro state hne
    rw [Bool.eq_false_iff, ne_eq, nothing_newer_iff]
    exact fun h => hne h.1
  simp [sync_zone_shared_index_if_needed, sync_choice, hn first hfirst, hn second hsecond,
    hsecond, sync_reload]

/-- The sync of a zone in the same epoch with an older generation turns on the delta. -/
theorem sync_of_same_epoch {zone : SharedZone} {first second : SharedIndexSyncState}
    (delta : LoadedSharedIndexChanges) (loaded : LoadedSharedIndex)
    (hsecond : second.store_epoch = zone.shared_index_store_epoch)
    (hgen : zone.shared_index_generation < first.generation)
    (hgen' : zone.shared_index_generation < second.generation) :
    sync_zone_shared_index_if_needed zone (.ok first) (.ok second) (.ok delta) (.ok loaded) =
      match replay_delta zone delta with
      | some zone => (zone, .Replayed)
      | none => (reload_zone_shared_index zone loaded, .Reloaded) := by
  have hn : ∀ state : SharedIndexSyncState,
      zone.shared_index_generation < state.generation → nothing_newer zone state = false := by
    intro state hlt
    rw [Bool.eq_false_iff, ne_eq, nothing_newer_iff]
    exact fun h => absurd h.2 (by omega)
  simp [sync_zone_shared_index_if_needed, sync_choice, hn first hgen, hn second hgen', hsecond,
    sync_reload]

theorem sync_of_nothing_newer {zone : SharedZone} {first : SharedIndexSyncState}
    (second : IoResult SharedIndexSyncState) (delta : IoResult LoadedSharedIndexChanges)
    (loaded : IoResult LoadedSharedIndex) (h : nothing_newer zone first = true) :
    sync_zone_shared_index_if_needed zone (.ok first) second delta loaded = (zone, .Kept) := by
  simp [sync_zone_shared_index_if_needed, h]

/-- The delta of a lineage has an operation exactly when the cursor stands in the ring. -/
theorem replay_delta_eq_none {capacity : Nat} {origin : SharedView} {json : SerdeJson β}
    {history operations : List SharedIndexOperation} {document : SharedMemoryIndexDocument β}
    {zone : SharedZone} (htracks : Tracks json capacity origin history document)
    (hepoch : document.store_epoch = zone.shared_index_store_epoch)
    (hgen : zone.shared_index_generation < document.generation)
    (hops : operations_since json document zone.shared_index_change_seq = .ok operations) :
    replay_delta zone
        ⟨document.generation, document.store_epoch, document.last_change_seq, operations⟩ = none ↔
      document.last_change_seq ≤ zone.shared_index_change_seq ∨
        zone.shared_index_change_seq + capacity < document.last_change_seq := by
  rw [htracks.operations_since] at hops
  obtain rfl := Except.ok.inj hops
  rw [replay_delta, ite_eq_right_iff]
  simp only [hepoch, hgen, htracks.seq, true_and, reduceCtorEq, imp_false, not_and, not_not]
  constructor
  · intro h
    by_cases hle : zone.shared_index_change_seq ≤ history.length
    · have hnil := h hle
      split at hnil
      · exact Or.inr (by omega)
      · exact Or.inl (List.drop_eq_nil_iff.mp hnil)
    · exact Or.inl (by omega)
  · rintro (hle | hlt) -
    · rw [List.drop_eq_nil_of_le hle]
      simp
    · rw [if_pos (by omega)]

/-! ## The laws -/

/-- A rebuild is reloaded exactly when the cursor shows it. A process could not read the
document, or found it empty, and recreated it; after any publications another zone, with any
index and any cursor, reads the document four times in its sync, with any publications between
the reads. The zone reloads the whole document, and has then what it loads to, if and only if
its cursor is of another epoch, or its generation is behind the document and its number is at
or past the last change or further behind it than the ring reaches. -/
theorem a_rebuild_is_reloaded_exactly_when_the_cursor_shows_it
    (store : MemorySharedIndexStore γ β) (clock : Nat) (memory : SharedMemory γ)
    (legacy : IoResult (Option LoadedSharedIndex)) (scanned : IoResult CacheIndex)
    (rebuilder : SharedZone) (hnothing : NothingLoaded store clock memory)
    (hlegacy : ∀ index, legacy = .ok (some index) → index.generation ≤ U64_MAX)
    (hrebuilt : (bootstrap_shared_index_with_store store clock memory legacy scanned).2 =
      .ok rebuilder)
    (first second third fourth : SharedMemory γ)
    (hfirst : Published store
      (bootstrap_shared_index_with_store store clock memory legacy scanned).1 first)
    (hsecond : Published store first second) (hthird : Published store second third)
    (hfourth : Published store third fourth)
    (document document' document'' : SharedMemoryIndexDocument β)
    (hdocument : Holds store first document) (hdocument' : Holds store third document')
    (hdocument'' : Holds store fourth document'') (zone : SharedZone) :
    let sync := sync_zone_shared_index_if_needed zone (sync_state store clock first).2
      (sync_state store clock second).2
      (load_changes_since store clock third zone.shared_index_change_seq).2
      (load store clock fourth).2
    (sync.2 = .Reloaded ∧ ∃ loaded,
        loaded_index_from_document store.json document'' = .ok loaded ∧
          sync.1.index = loaded.index) ↔
      (zone.shared_index_store_epoch ≠ document.store_epoch ∨
        (zone.shared_index_generation < document.generation ∧
          (document'.last_change_seq ≤ zone.shared_index_change_seq ∨
            zone.shared_index_change_seq + store.operation_ring_capacity <
              document'.last_change_seq))) := by
  obtain ⟨document₀, h₀⟩ := bootstrap_onLineage hnothing hlegacy hrebuilt
  obtain ⟨document₁, h₁, -, -⟩ := hfirst.onLineage h₀
  obtain ⟨document₂, h₂, hepoch₂, hgen₂⟩ := hsecond.onLineage h₁
  obtain ⟨document₃, h₃, hepoch₃, hgen₃⟩ := hthird.onLineage h₂
  obtain ⟨document₄, h₄, -, -⟩ := hfourth.onLineage h₃
  obtain rfl := h₁.holds.unique hdocument
  obtain rfl := h₃.holds.unique hdocument'
  obtain rfl := h₄.holds.unique hdocument''
  obtain ⟨history₃, htracks₃⟩ := h₃.tracks
  obtain ⟨history₄, htracks₄⟩ := h₄.tracks
  obtain ⟨loaded, hload, -⟩ := loaded_index_spec htracks₄.decodes
  rw [h₁.holds.sync_state, h₂.holds.sync_state, h₃.holds.load_changes_since, h₄.holds.load,
    htracks₃.operations_since, hload]
  simp only [ok_bind, pure_eq_ok, Except.ok.injEq, exists_eq_left']
  by_cases hepoch : zone.shared_index_store_epoch = document₁.store_epoch
  · by_cases hgen : zone.shared_index_generation < document₁.generation
    · rw [sync_of_same_epoch _ _ (hepoch₂.trans hepoch.symm) hgen (lt_of_lt_of_le hgen hgen₂)]
      have hdelta := replay_delta_eq_none htracks₃
        (hepoch₃.trans (hepoch₂.trans hepoch.symm))
        (lt_of_lt_of_le hgen (le_trans hgen₂ hgen₃))
        (htracks₃.operations_since zone.shared_index_change_seq)
      simp only [hepoch, ne_eq, not_true_eq_false, hgen, true_and, false_or]
      rw [← hdelta]
      rcases replay_delta zone _ with _ | replayed
      · simp [reload_zone_shared_index, SharedZone.store_cursor]
      · simp
    · have hnewer : nothing_newer zone ⟨document₁.generation, document₁.store_epoch⟩ = true :=
        nothing_newer_iff.mpr ⟨hepoch.symm, Nat.le_of_not_lt hgen⟩
      rw [sync_of_nothing_newer _ _ _ hnewer]
      simp [hepoch, hgen]
  · rw [sync_of_other_epoch _ _ (Ne.symm hepoch) (by rw [hepoch₂]; exact Ne.symm hepoch)]
    simp [hepoch, reload_zone_shared_index, SharedZone.store_cursor]

end Bootstrap

/-! ## A rebuild that another zone does not see -/

/-- The header of the segment is in order and its document cannot be read. -/
def brokenMemory : SharedMemory (SharedMemoryIndexDocument PlainText) :=
  .mapped ⟨⟨5, 7, 9, 0, 0⟩, .overlong 4096⟩

theorem brokenMemory_nothing : NothingLoaded plainStore 0 brokenMemory := by
  intro loaded h
  cases h

/-- What is left of the memory when a process has rebuilt the document from no files. -/
def rebuiltMemory : SharedMemory (SharedMemoryIndexDocument PlainText) :=
  (bootstrap_shared_index_with_store plainStore 0 brokenMemory (.ok none)
    (.ok CacheIndex.default)).1

/-- A zone that was at the old document, with a count that the new one does not have. -/
def oldZone (generation : Nat) : SharedZone :=
  ⟨{ CacheIndex.default with admission_counts := (∅ : Map Nat).insert "a" 1 }, generation, 7, 9⟩

/-- The whole sync of a zone on one memory. -/
def syncOn (memory : SharedMemory (SharedMemoryIndexDocument PlainText)) (zone : SharedZone) :
    SharedZone × SyncOutcome :=
  sync_zone_shared_index_if_needed zone (sync_state plainStore 0 memory).2
    (sync_state plainStore 0 memory).2
    (load_changes_since plainStore 0 memory zone.shared_index_change_seq).2
    (load plainStore 0 memory).2

/-- A zone whose generation is behind the rebuilt document reloads it. -/
theorem a_zone_behind_reloads : (syncOn rebuiltMemory (oldZone 0)).2 = .Reloaded :=
  ((a_rebuild_is_reloaded_exactly_when_the_cursor_shows_it plainStore 0 brokenMemory (.ok none)
    (.ok CacheIndex.default) ⟨CacheIndex.default, 1, 7, 0⟩ brokenMemory_nothing
    (by intro index h; cases h) rfl rebuiltMemory rebuiltMemory rebuiltMemory rebuiltMemory .start
    .start .start .start emptyDocument emptyDocument emptyDocument ⟨_, rfl, rfl, rfl⟩
    ⟨_, rfl, rfl, rfl⟩ ⟨_, rfl, rfl, rfl⟩ (oldZone 0)).mpr
    (.inr ⟨by decide, .inl (by decide)⟩)).1

/-- A zone at the generation 5 takes the rebuilt document for an older one, and keeps its
index. -/
theorem a_rebuild_can_pass_unseen :
    NothingLoaded plainStore 0 brokenMemory ∧
      (bootstrap_shared_index_with_store plainStore 0 brokenMemory (.ok none)
        (.ok CacheIndex.default)).2 = .ok ⟨CacheIndex.default, 1, 7, 0⟩ ∧
      (syncOn rebuiltMemory (oldZone 5)).2 = .Kept ∧
      (syncOn rebuiltMemory (oldZone 5)).1.index.admission_counts["a"]? = some 1 ∧
      ∃ loaded, (load plainStore 0 rebuiltMemory).2 = .ok loaded ∧
        loaded.index.admission_counts["a"]? = none :=
  ⟨brokenMemory_nothing, rfl, rfl, by decide, _, rfl, by decide⟩

end rginx.cache
