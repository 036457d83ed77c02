-- The admission of a key that several zones ask for, from
-- `record_cache_admission_attempt` in `store/maintenance/index_state.rs`. An
-- attempt takes the count of its own zone, adds one and publishes the sum: an
-- attempt of another zone that it does not know of is overwritten.
import Rginx.SharedSync

open tree_maps

namespace rginx.cache

/-! ## Runs of attempts -/

section Runs

variable {ι γ β : Type} [DecidableEq ι] (store : MemorySharedIndexStore γ β)

/-- The attempts since the key was admitted, in a log of the zones that made one and of what it
came to, the last attempt first. -/
def misses : List (ι × Bool) → Nat
  | [] => 0
  | (_, true) :: _ => 0
  | (_, false) :: log => misses log + 1

def SyncAction.Syncs : SyncAction ι → Prop
  | .publish _ _ => False
  | .begin _ | .replay _ | .reload _ | .attach _ => True

/-- Any attempts of zones that are allowed to make one, and any steps of syncs between them. -/
inductive AdmissionRuns (key : String) (min_uses : Nat) (allowed : SharedSystem ι γ → ι → Prop)
    (start : SharedSystem ι γ) : List (ι × Bool) → SharedSystem ι γ → Prop
  | start : AdmissionRuns key min_uses allowed start [] start
  | attempt {log : List (ι × Bool)} {system system' : SharedSystem ι γ} {i : ι} :
      AdmissionRuns key min_uses allowed start log system → allowed system i →
      Step store system (.publish i (.admission key min_uses)) system' →
      AdmissionRuns key min_uses allowed start
        ((i, (record_cache_admission_attempt (system.zones i).index key min_uses).2.2) :: log)
        system'
  | sync {log : List (ι × Bool)} {system system' : SharedSystem ι γ} {action : SyncAction ι} :
      AdmissionRuns key min_uses allowed start log system → action.Syncs →
      Step store system action system' → AdmissionRuns key min_uses allowed start log system'

/-- The zone has a count of the key that is not below the one of the document. -/
def CountKnown (key : String) (system : SharedSystem ι γ) (i : ι) : Prop :=
  ∀ document, Holds store system.memory document →
    document.admission_counts.getD key 0 ≤ (system.zones i).index.admission_counts.getD key 0

/-- Neither the document nor a zone that has caught up with it has a count of the key. -/
def Cleared (key : String) (system : SharedSystem ι γ) : Prop :=
  ∀ document, Holds store system.memory document → document.admission_counts[key]? = none ∧
    ∀ i, AtDocument (system.zones i) document →
      (system.zones i).index.admission_counts[key]? = none

end Runs

/-! ## What a view has for one key -/

/-- The entry and the count of a key. -/
def SharedView.at (view : SharedView) (key : String) : Option CacheIndexEntry × Option Nat :=
  (view.entries[key]?, view.admission_counts[key]?)

theorem at_apply {view view' : SharedView} {key : String} (h : view.at key = view'.at key)
    (operation : SharedIndexOperation) :
    (view.apply operation).at key = (view'.apply operation).at key := by
  obtain ⟨hentry, hcount⟩ := Prod.mk.inj h
  cases operation with
  | UpsertEntry other entry =>
    simp only [SharedView.at, SharedView.apply, getElem?_insert_eq, hentry, hcount]
  | RemoveEntry other =>
    simp only [SharedView.at, SharedView.apply, getElem?_erase_eq, hentry, hcount]
  | TouchEntry other last_access_unix_ms =>
    by_cases hsame : other = key
    · subst hsame
      simp only [SharedView.at, SharedView.apply, touchedEntries, hentry, hcount]
      rcases hold : view'.entries[other]? with _ | entry
      · simp [hentry, hold]
      · dsimp only
        split <;> simp [hentry, hold]
    · have hother : ∀ entries : Map CacheIndexEntry,
          (touchedEntries entries other last_access_unix_ms)[key]? = entries[key]? := by
        intro entries
        unfold touchedEntries
        rcases entries[other]? with _ | entry
        · rfl
        · dsimp only
          split
          · rw [getElem?_insert_eq, if_neg hsame]
          · rfl
      simp only [SharedView.at, SharedView.apply, hother, hentry, hcount]
  | SetAdmissionCount other uses =>
    simp only [SharedView.at, SharedView.apply, getElem?_insert_eq, hentry, hcount]
  | RemoveAdmissionCount other =>
    simp only [SharedView.at, SharedView.apply, getElem?_erase_eq, hentry, hcount]
  | AddInvalidation rule => exact h
  | ClearInvalidations => exact h

theorem at_applyAll {view view' : SharedView} {key : String} (h : view.at key = view'.at key)
    (operations : List SharedIndexOperation) :
    (view.applyAll operations).at key = (view'.applyAll operations).at key := by
  induction operations generalizing view view' with
  | nil => exact h
  | cons operation operations ih => exact ih (at_apply h operation)

/-! ## One attempt -/

theorem le_saturating_add_one (uses : Nat) {min_uses : Nat} (hmin : min_uses ≤ U64_MAX) :
    min_uses ≤ saturating_add uses 1 ↔ min_uses ≤ uses + 1 := by
  unfold saturating_add
  omega

/-- An attempt on a key without an entry: it is admitted and takes a count back, if the zone has
one, or it is not and counts one more. -/
theorem record_cache_admission_attempt_cases (index : CacheIndex) (key : String)
    {min_uses : Nat} (hmin : min_uses ≤ U64_MAX) (hentry : index.entries[key]? = none) :
    (min_uses ≤ 1 ∧ index.admission_counts[key]? = none ∧
      (record_cache_admission_attempt index key min_uses).2 = ([], true)) ∨
    ((min_uses ≤ 1 ∨ min_uses ≤ index.admission_counts.getD key 0 + 1) ∧
      (record_cache_admission_attempt index key min_uses).2 = ([.RemoveAdmissionCount key], true)) ∨
    (1 < min_uses ∧ index.admission_counts.getD key 0 + 1 < min_uses ∧
      (record_cache_admission_attempt index key min_uses).2 =
        ([.SetAdmissionCount key (index.admission_counts.getD key 0 + 1)], false)) := by
  have hcontains : ¬ index.entries.contains key = true := by
    simpa using hentry
  unfold record_cache_admission_attempt
  by_cases hone : min_uses ≤ 1
  · by_cases hcount : index.admission_counts.contains key = true
    · exact .inr (.inl ⟨.inl hone, by simp [hone, hcount]⟩)
    · have hnone : index.admission_counts[key]? = none := by
        simpa using hcount
      exact .inl ⟨hone, hnone, by simp [hone, hcount]⟩
  · have hadmitted := le_saturating_add_one (index.admission_counts.getD key 0) hmin
    by_cases huses : min_uses ≤ index.admission_counts.getD key 0 + 1
    · refine .inr (.inl ⟨.inr huses, ?_⟩)
      simp [hone, hcontains, hadmitted.mpr huses]
    · have hsum : saturating_add (index.admission_counts.getD key 0) 1 =
          index.admission_counts.getD key 0 + 1 := by
        unfold saturating_add
        omega
      refine .inr (.inr ⟨by omega, by omega, ?_⟩)
      simp [hone, hcontains, hsum, huses]

/-- What an attempt makes of the count of the document, in a zone that has a count of its own. -/
inductive Counted (min_uses : Nat) (own shared : Option Nat) : Bool → Option Nat → Prop
  | admitted : min_uses ≤ 1 ∨ min_uses ≤ own.getD 0 + 1 → Counted min_uses own shared true none
  | silent : min_uses ≤ 1 → own = none → Counted min_uses own shared true shared
  | missed : 1 < min_uses → own.getD 0 + 1 < min_uses →
      Counted min_uses own shared false (some (own.getD 0 + 1))

/-- The count of the document has every attempt since the key was last admitted, it is below what
is asked for, and it is gone when the last attempt was admitted. -/
structure CountsKept {ι : Type} (min_uses : Nat) (log : List (ι × Bool)) (shared : Option Nat) :
    Prop where
  enough : misses log ≤ shared.getD 0
  below : shared.getD 0 < max 1 min_uses
  positive : shared ≠ some 0
  cleared : ∀ i rest, log = (i, true) :: rest → shared = none

theorem countsKept_nil {ι : Type} (min_uses : Nat) :
    CountsKept min_uses ([] : List (ι × Bool)) none :=
  ⟨le_rfl, by simp, nofun, nofun⟩

theorem CountsKept.attempt {ι : Type} {min_uses : Nat} {log : List (ι × Bool)}
    {own shared shared' : Option Nat} {admitted : Bool} (h : CountsKept min_uses log shared)
    (hknown : shared.getD 0 ≤ own.getD 0)
    (hcounted : Counted min_uses own shared admitted shared') (i : ι) :
    CountsKept min_uses ((i, admitted) :: log) shared' := by
  cases hcounted with
  | admitted _ => exact ⟨by simp [misses], by simp, nofun, fun _ _ _ => rfl⟩
  | silent hone hown =>
    have hnone : shared = none := by
      rw [hown] at hknown
      rcases shared with _ | uses
      · rfl
      · have hzero : uses = 0 := Nat.le_zero.mp hknown
        exact absurd (congrArg some hzero) h.positive
    exact ⟨by simp [misses], h.below, h.positive, fun _ _ _ => hnone⟩
  | missed hone hless =>
    have henough := h.enough
    refine ⟨?_, ?_, by simp, nofun⟩
    · simp only [misses, Option.getD_some]
      omega
    · simp only [Option.getD_some]
      omega

/-- When the zone has the count of the document and the count is the number of the attempts, it
stays so, and the attempt that is admitted is the one that was asked for. -/
theorem Counted.attempt_exact {ι : Type} {min_uses : Nat} {log : List (ι × Bool)}
    {shared shared' : Option Nat} {admitted : Bool} (hexact : shared.getD 0 = misses log)
    (hcounted : Counted min_uses shared shared admitted shared') (i : ι) :
    shared'.getD 0 = misses ((i, admitted) :: log) ∧
      (admitted = true ↔ min_uses ≤ misses log + 1) := by
  cases hcounted with
  | admitted hadmitted => exact ⟨rfl, iff_of_true rfl (by omega)⟩
  | silent hone hown => exact ⟨by simp [misses, hown], iff_of_true rfl (by omega)⟩
  | missed hone hless => exact ⟨by simp [misses, hexact], iff_of_false nofun (by omega)⟩

/-! ## The key on the history -/

section History

variable {ι γ β : Type} {store : MemorySharedIndexStore γ β} {origin : SharedView} {key : String}
  {base : Nat}

variable (store origin key base) in
/-- The memory holds a document of the history, the key has had no entry since a place of it, and
every zone has for the key what the operations before its own place give. -/
structure KeyOnHistory (system : SharedSystem ι γ) (history : List SharedIndexOperation)
    (document : SharedMemoryIndexDocument β) : Prop where
  holds : Holds store system.memory document
  tracks : Tracks store.json store.operation_ring_capacity origin history document
  unseen : ∀ n, base ≤ n → (origin.applyAll (history.take n)).entries[key]? = none
  after : ∀ i, base ≤ (system.zones i).shared_index_change_seq
  place : ∀ i, (system.zones i).shared_index_change_seq ≤ history.length
  at_key : ∀ i, (system.zones i).index.view.at key =
    (origin.applyAll (history.take (system.zones i).shared_index_change_seq)).at key

theorem KeyOnHistory.entry {system : SharedSystem ι γ} {history : List SharedIndexOperation}
    {document : SharedMemoryIndexDocument β}
    (h : KeyOnHistory store origin key base system history document) (i : ι) :
    (system.zones i).index.entries[key]? = none :=
  (congrArg Prod.fst (h.at_key i)).trans (h.unseen _ (h.after i))

theorem KeyOnHistory.shared {system : SharedSystem ι γ} {history : List SharedIndexOperation}
    {document : SharedMemoryIndexDocument β}
    (h : KeyOnHistory store origin key base system history document) :
    document.admission_counts = (origin.applyAll history).admission_counts :=
  h.tracks.decodes.admission

/-- A zone that is at the last change has the count of the document. -/
theorem KeyOnHistory.count_of_last {system : SharedSystem ι γ}
    {history : List SharedIndexOperation} {document : SharedMemoryIndexDocument β}
    (h : KeyOnHistory store origin key base system history document) {i : ι}
    (hlast : (system.zones i).shared_index_change_seq = history.length) :
    (system.zones i).index.admission_counts[key]? = document.admission_counts[key]? := by
  have hat := congrArg Prod.snd (h.at_key i)
  rw [hlast, List.take_length] at hat
  rw [h.shared]
  exact hat

variable [DecidableEq ι]

/-- A zone that changed to a place of the history, in a memory that holds the same document. -/
theorem KeyOnHistory.put {system : SharedSystem ι γ} {history : List SharedIndexOperation}
    {document : SharedMemoryIndexDocument β}
    (h : KeyOnHistory store origin key base system history document) (i : ι) {zone : SharedZone}
    (phase : SyncPhase) (hafter : base ≤ zone.shared_index_change_seq)
    (hplace : zone.shared_index_change_seq ≤ history.length)
    (hat : zone.index.view.at key =
      (origin.applyAll (history.take zone.shared_index_change_seq)).at key) :
    KeyOnHistory store origin key base (system.put system.memory i zone phase) history
      document := by
  refine ⟨h.holds, h.tracks, h.unseen, ?_, ?_, ?_⟩ <;> intro j <;> by_cases hj : j = i
  · subst hj; simpa [SharedSystem.put] using hafter
  · simpa [SharedSystem.put, hj] using h.after j
  · subst hj; simpa [SharedSystem.put] using hplace
  · simpa [SharedSystem.put, hj] using h.place j
  · subst hj; simpa [SharedSystem.put] using hat
  · simpa [SharedSystem.put, hj] using h.at_key j

theorem KeyOnHistory.reload {system : SharedSystem ι γ} {history : List SharedIndexOperation}
    {document : SharedMemoryIndexDocument β}
    (h : KeyOnHistory store origin key base system history document) (i : ι) {clock : Nat}
    {loaded : LoadedSharedIndex} (hload : (load store clock system.memory).2 = .ok loaded) :
    KeyOnHistory store origin key base
      (system.put (load store clock system.memory).1 i
        (reload_zone_shared_index (system.zones i) loaded) .Idle) history document ∧
      loaded.last_change_seq = history.length := by
  obtain ⟨hmemory, hview, -, -, hlast⟩ := h.tracks.reloaded h.holds hload
  rw [hmemory]
  refine ⟨h.put i .Idle ?_ (le_of_eq hlast) ?_, hlast⟩
  · exact (le_trans (h.after i) (h.place i)).trans (le_of_eq hlast.symm)
  · change loaded.index.view.at key = (origin.applyAll (history.take loaded.last_change_seq)).at key
    rw [hlast, List.take_length, hview]

theorem KeyOnHistory.replay {system : SharedSystem ι γ} {history : List SharedIndexOperation}
    {document : SharedMemoryIndexDocument β}
    (h : KeyOnHistory store origin key base system history document) (i : ι) {clock : Nat}
    {delta : LoadedSharedIndexChanges} {zone : SharedZone}
    (hload : (load_changes_since store clock system.memory
      (system.zones i).shared_index_change_seq).2 = .ok delta)
    (hreplay : replay_delta (system.zones i) delta = some zone) :
    KeyOnHistory store origin key base
      (system.put (load_changes_since store clock system.memory
        (system.zones i).shared_index_change_seq).1 i zone .Idle) history document ∧
      zone.shared_index_change_seq = history.length := by
  obtain ⟨hmemory, hindex, -, hlast⟩ := h.tracks.replayed h.holds hload hreplay
  rw [hmemory]
  refine ⟨h.put i .Idle ?_ (le_of_eq hlast) ?_, hlast⟩
  · exact (le_trans (h.after i) (h.place i)).trans (le_of_eq hlast.symm)
  · rw [hindex, view_apply_shared_index_delta, at_applyAll (h.at_key i), ← applyAll_append,
      List.take_append_drop, hlast, List.take_length]

/-- The steps of a sync keep the history. A zone at the last change stays there. -/
theorem KeyOnHistory.sync {system system' : SharedSystem ι γ}
    {history : List SharedIndexOperation} {document : SharedMemoryIndexDocument β}
    (h : KeyOnHistory store origin key base system history document) {action : SyncAction ι}
    (hsyncs : action.Syncs) (hstep : Step store system action system') :
    KeyOnHistory store origin key base system' history document ∧
      ∀ j, (system.zones j).shared_index_change_seq = history.length →
        (system'.zones j).shared_index_change_seq = history.length := by
  have hput : ∀ (memory : SharedMemory γ) (i : ι) (zone : SharedZone) (phase : SyncPhase),
      (zone.shared_index_change_seq = history.length ∨ zone = system.zones i) →
      ∀ j, (system.zones j).shared_index_change_seq = history.length →
        ((system.put memory i zone phase).zones j).shared_index_change_seq = history.length := by
    intro memory i zone phase hzone j hlast
    by_cases hj : j = i
    · subst hj
      rcases hzone with hzone | rfl
      · simpa [SharedSystem.put] using hzone
      · simpa [SharedSystem.put] using hlast
    · simpa [SharedSystem.put, hj] using hlast
  cases hstep with
  | silent => exact hsyncs.elim
  | publish => exact hsyncs.elim
  | @begin i clock state _ hstate =>
    rw [h.holds.sync_state clock]
    exact ⟨h.put i _ (h.after i) (h.place i) (h.at_key i), hput _ i _ _ (.inr rfl)⟩
  | @replay i clock delta zone _ hload hreplay =>
    obtain ⟨h', hlast⟩ := h.replay i hload hreplay
    exact ⟨h', hput _ i _ _ (.inl hlast)⟩
  | @fallback i clock delta _ hload _ =>
    rw [h.holds.load_changes_since clock]
    exact ⟨h.put i _ (h.after i) (h.place i) (h.at_key i), hput _ i _ _ (.inr rfl)⟩
  | @reload i clock loaded _ hload =>
    obtain ⟨h', hlast⟩ := h.reload i hload
    exact ⟨h', hput _ i _ _ (.inl hlast)⟩
  | @attach i clock loaded _ hload =>
    obtain ⟨h', hlast⟩ := h.reload i hload
    exact ⟨h', hput _ i _ _ (.inl hlast)⟩

/-- A zone publishes one operation that leaves the entries and settles the count of the key. It
may be behind the document. -/
theorem KeyOnHistory.publish {system : SharedSystem ι γ} {history : List SharedIndexOperation}
    {document : SharedMemoryIndexDocument β}
    (h : KeyOnHistory store origin key base system history document) (i : ι) {index : CacheIndex}
    {operation : SharedIndexOperation} {clock : Nat} {applied : AppliedSharedIndexOperations}
    (hview : index.view = (system.zones i).index.view.applyAll [operation])
    (happly : (apply_operations store clock system.memory [operation]).2 = .ok applied)
    (hentries : ∀ view : SharedView, (view.apply operation).entries = view.entries)
    (hcount : ∀ view view' : SharedView, (view.apply operation).admission_counts[key]? =
      (view'.apply operation).admission_counts[key]?) :
    ∃ document', KeyOnHistory store origin key base
      (system.put (apply_operations store clock system.memory [operation]).1 i
        (apply_zone_shared_index_operations_locked { system.zones i with index } applied) .Idle)
      (history ++ [operation]) document' ∧
      applied.last_change_seq = (history ++ [operation]).length := by
  obtain ⟨document', hops, hholds, rfl⟩ :=
    h.holds.apply_operations h.tracks.decodes clock happly
  have htracks := h.tracks.apply_operations hops
  have hunseen : ∀ n, base ≤ n →
      (origin.applyAll ((history ++ [operation]).take n)).entries[key]? = none := by
    intro n hn
    by_cases hold : n ≤ history.length
    · rw [List.take_append_of_le_length hold]
      exact h.unseen n hn
    · rw [List.take_of_length_le (by simp; omega), applyAll_append, applyAll_cons, applyAll_nil,
        hentries]
      have hend := h.unseen n hn
      rwa [List.take_of_length_le (by omega)] at hend
  have hat : index.view.at key = (origin.applyAll (history ++ [operation])).at key := by
    rw [hview, applyAll_append]
    refine Prod.ext ?_ (hcount _ _)
    change ((system.zones i).index.view.apply operation).entries[key]? =
      ((origin.applyAll history).apply operation).entries[key]?
    rw [hentries, hentries]
    have hend := h.unseen history.length (le_trans (h.after i) (h.place i))
    rw [List.take_length] at hend
    exact (h.entry i).trans hend.symm
  refine ⟨document', ⟨hholds, htracks, hunseen, ?_, ?_, ?_⟩, htracks.seq⟩ <;> intro j <;>
    by_cases hj : j = i
  · subst hj
    have := h.after j
    have := h.place j
    simp only [SharedSystem.put, Function.update_self, apply_zone_shared_index_operations_locked,
      SharedZone.store_cursor, htracks.seq, List.length_append]
    omega
  · simpa [SharedSystem.put, hj] using h.after j
  · subst hj
    simp [SharedSystem.put, apply_zone_shared_index_operations_locked, SharedZone.store_cursor,
      htracks.seq]
  · have := h.place j
    simp only [SharedSystem.put, Function.update_of_ne hj, List.length_append]
    omega
  · subst hj
    simp only [SharedSystem.put, Function.update_self, apply_zone_shared_index_operations_locked,
      SharedZone.store_cursor, htracks.seq, List.take_length]
    exact hat
  · simp only [SharedSystem.put, Function.update_of_ne hj]
    rw [List.take_append_of_le_length (h.place j)]
    exact h.at_key j

/-- An attempt takes the history on, and makes of the count what its own zone has. -/
theorem KeyOnHistory.attempt {system system' : SharedSystem ι γ}
    {history : List SharedIndexOperation} {document : SharedMemoryIndexDocument β}
    (h : KeyOnHistory store origin key base system history document) {i : ι} {min_uses : Nat}
    (hmin : min_uses ≤ U64_MAX)
    (hstep : Step store system (.publish i (.admission key min_uses)) system') :
    ∃ history' document', KeyOnHistory store origin key base system' history' document' ∧
      Counted min_uses (system.zones i).index.admission_counts[key]?
        document.admission_counts[key]?
        (record_cache_admission_attempt (system.zones i).index key min_uses).2.2
        document'.admission_counts[key]? ∧
      ((system.zones i).shared_index_change_seq = history.length →
        (system'.zones i).shared_index_change_seq = history'.length) := by
  have hcases := record_cache_admission_attempt_cases (system.zones i).index key hmin (h.entry i)
  have hview := view_record_cache_admission_attempt (system.zones i).index key min_uses
  rw [Std.ExtTreeMap.getD_eq_getD_getElem?] at hcases
  cases hstep with
  | silent _ hnil =>
    change (record_cache_admission_attempt _ key min_uses).2.1 = [] at hnil
    obtain ⟨hone, hnone, hrun⟩ | ⟨-, hrun⟩ | ⟨-, -, hrun⟩ := hcases
    · rw [hnil, applyAll_nil] at hview
      refine ⟨history, document, h.put i .Idle (h.after i) (h.place i) ?_, ?_, ?_⟩
      · exact (congrArg (SharedView.at · key) hview).trans (h.at_key i)
      · rw [hrun]
        exact .silent hone hnone
      · intro hlast
        simpa [SharedSystem.put] using hlast
    · rw [hrun] at hnil
      cases hnil
    · rw [hrun] at hnil
      cases hnil
  | publish clock applied _ hne happly =>
    change (record_cache_admission_attempt _ key min_uses).2.1 ≠ [] at hne
    change (apply_operations store clock system.memory
      (record_cache_admission_attempt _ key min_uses).2.1).2 = .ok applied at happly
    have hput : ∀ (memory : SharedMemory γ) (index : CacheIndex) (last : Nat),
        applied.last_change_seq = last →
        ((system.put memory i (apply_zone_shared_index_operations_locked
          { system.zones i with index } applied) .Idle).zones i).shared_index_change_seq =
            last := by
      intro memory index last hlast
      simpa [SharedSystem.put, apply_zone_shared_index_operations_locked,
        SharedZone.store_cursor] using hlast
    change ∃ history' document', KeyOnHistory store origin key base
      (system.put (apply_operations store clock system.memory
        (record_cache_admission_attempt _ key min_uses).2.1).1 i _ .Idle) history' document' ∧ _
    obtain ⟨-, -, hrun⟩ | ⟨hadmitted, hrun⟩ | ⟨hone, hless, hrun⟩ := hcases
    · rw [hrun] at hne
      exact absurd rfl hne
    · rw [hrun] at hview happly ⊢
      obtain ⟨document', h', hlast⟩ := h.publish i hview happly (fun _ => rfl)
        (fun _ _ => by simp [SharedView.apply])
      refine ⟨_, document', h', ?_, fun _ => hput _ _ _ hlast⟩
      have hgone : document'.admission_counts[key]? = none := by
        rw [h'.shared, applyAll_append]
        simp [SharedView.apply]
      rw [hgone]
      exact .admitted hadmitted
    · rw [hrun] at hview happly ⊢
      obtain ⟨document', h', hlast⟩ := h.publish i hview happly (fun _ => rfl)
        (fun _ _ => by simp [SharedView.apply])
      refine ⟨_, document', h', ?_, fun _ => hput _ _ _ hlast⟩
      have hmore : document'.admission_counts[key]? =
          some ((system.zones i).index.admission_counts[key]?.getD 0 + 1) := by
        rw [h'.shared, applyAll_append]
        simp [SharedView.apply]
      rw [hmore]
      exact .missed hone hless

omit [DecidableEq ι] in
/-- Where the document has no count of the key, no zone that has caught up has one. -/
theorem KeyOnHistory.cleared {system : SharedSystem ι γ} {history : List SharedIndexOperation}
    {document : SharedMemoryIndexDocument β}
    (h : KeyOnHistory store origin key base system history document)
    (hnone : document.admission_counts[key]? = none) : Cleared store key system := by
  intro document' hholds
  obtain rfl := h.holds.unique hholds
  refine ⟨hnone, ?_⟩
  intro i hat
  rw [h.count_of_last (hat.2.2.trans h.tracks.seq), hnone]

omit [DecidableEq ι] in
/-- A state of zones that have all caught up with a document that does not know the key. -/
theorem OnHistory.keyOnHistory {system : SharedSystem ι γ} {history : List SharedIndexOperation}
    {document : SharedMemoryIndexDocument β} (h : OnHistory store origin system history document)
    (hat : ∀ i, AtDocument (system.zones i) document) (hentry : document.entries[key]? = none) :
    KeyOnHistory store origin key history.length system history document := by
  refine ⟨h.holds, h.tracks, ?_, ?_, h.place, ?_⟩
  · intro n hn
    have hdecodes := h.tracks.decodes.entries key
    rw [hentry] at hdecodes
    rw [List.take_of_length_le hn]
    simpa using hdecodes.symm
  · intro i
    rw [(hat i).2.2, h.tracks.seq]
  · intro i
    rw [h.view i]

/-- In a run of attempts that know the count, the count keeps the attempts. -/
theorem AdmissionRuns.countsKept {start system : SharedSystem ι γ} {log : List (ι × Bool)}
    {history : List SharedIndexOperation} {document : SharedMemoryIndexDocument β}
    {min_uses : Nat} (hstart : KeyOnHistory store origin key base start history document)
    (hmin : min_uses ≤ U64_MAX) (hcount : document.admission_counts[key]? = none)
    (hrun : AdmissionRuns store key min_uses (CountKnown store key) start log system) :
    ∃ history' document', KeyOnHistory store origin key base system history' document' ∧
      CountsKept min_uses log document'.admission_counts[key]? := by
  induction hrun with
  | start =>
    refine ⟨history, document, hstart, ?_⟩
    rw [hcount]
    exact countsKept_nil min_uses
  | @attempt log system system' i _ hknown hstep ih =>
    obtain ⟨history', document', h, hkept⟩ := ih
    obtain ⟨history'', document'', h', hcounted, -⟩ := h.attempt hmin hstep
    have hle := hknown document' h.holds
    rw [Std.ExtTreeMap.getD_eq_getD_getElem?, Std.ExtTreeMap.getD_eq_getD_getElem?] at hle
    exact ⟨history'', document'', h', hkept.attempt hle hcounted i⟩
  | sync _ hsyncs hstep ih =>
    obtain ⟨history', document', h, hkept⟩ := ih
    exact ⟨history', document', (h.sync hsyncs hstep).1, hkept⟩

/-- In a run of attempts of one zone, the zone is always at the last change and the count is the
number of the attempts. -/
theorem AdmissionRuns.counts_exact {start system : SharedSystem ι γ} {log : List (ι × Bool)}
    {history : List SharedIndexOperation} {document : SharedMemoryIndexDocument β}
    {min_uses : Nat} {zone : ι}
    (hstart : KeyOnHistory store origin key base start history document)
    (hlast : (start.zones zone).shared_index_change_seq = history.length)
    (hmin : min_uses ≤ U64_MAX) (hcount : document.admission_counts[key]? = none)
    (hrun : AdmissionRuns store key min_uses (fun _ i => i = zone) start log system) :
    ∃ history' document', KeyOnHistory store origin key base system history' document' ∧
      CountsKept min_uses log document'.admission_counts[key]? ∧
      (system.zones zone).shared_index_change_seq = history'.length ∧
      document'.admission_counts[key]?.getD 0 = misses log ∧
      ∀ i admitted rest, log = (i, admitted) :: rest →
        (admitted = true ↔ min_uses ≤ misses rest + 1) := by
  induction hrun with
  | start =>
    refine ⟨history, document, hstart, ?_, hlast, ?_, nofun⟩
    · rw [hcount]
      exact countsKept_nil min_uses
    · rw [hcount]
      rfl
  | @attempt log system system' i _ hzone hstep ih =>
    subst hzone
    obtain ⟨history', document', h, hkept, hlast', hexact, -⟩ := ih
    obtain ⟨history'', document'', h', hcounted, hlast''⟩ := h.attempt hmin hstep
    rw [h.count_of_last hlast'] at hcounted
    obtain ⟨hexact', hadmitted⟩ := hcounted.attempt_exact hexact i
    refine ⟨history'', document'', h', hkept.attempt le_rfl hcounted i, hlast'' hlast', hexact', ?_⟩
    intro j admitted rest hlog
    obtain ⟨hhead, rfl⟩ := List.cons.inj hlog
    rw [← (Prod.mk.inj hhead).2]
    exact hadmitted
  | sync _ hsyncs hstep ih =>
    obtain ⟨history', document', h, hkept, hlast', hexact⟩ := ih
    obtain ⟨h', hstays⟩ := h.sync hsyncs hstep
    exact ⟨history', document', h', hkept, hstays zone hlast', hexact⟩

end History

/-! ## The law -/

/-- No attempt is lost where the count is known. All zones have caught up with a document that has
neither an entry nor a count of the key. In every run whose attempts are made by zones that have
a count not below the one of the document, the key is admitted no later than at the number of
attempts that is asked for, and after an attempt that was admitted the count is cleared. In every
run whose attempts are made by one zone, the key is admitted exactly at that number. -/
theorem no_attempt_is_lost_where_the_count_is_known {ι γ β : Type} [DecidableEq ι]
    (store : MemorySharedIndexStore γ β) (origin : SharedView)
    (history : List SharedIndexOperation) (document : SharedMemoryIndexDocument β)
    (start : SharedSystem ι γ) (hstart : OnHistory store origin start history document)
    (hat : ∀ i, AtDocument (start.zones i) document) (key : String)
    (hentry : document.entries[key]? = none) (hcount : document.admission_counts[key]? = none)
    (min_uses : Nat) (hmin : min_uses ≤ U64_MAX) :
    (∀ log system, AdmissionRuns store key min_uses (CountKnown store key) start log system →
      misses log < max 1 min_uses ∧
        ∀ i rest, log = (i, true) :: rest → Cleared store key system) ∧
    ∀ zone log system, AdmissionRuns store key min_uses (fun _ i => i = zone) start log system →
      (∀ i admitted rest, log = (i, admitted) :: rest →
        (admitted = true ↔ min_uses ≤ misses rest + 1)) ∧
      misses log < max 1 min_uses ∧
        ∀ i rest, log = (i, true) :: rest → Cleared store key system := by
  have hkey := hstart.keyOnHistory hat hentry
  refine ⟨?_, ?_⟩
  · intro log system hrun
    obtain ⟨history', document', h, hkept⟩ := hrun.countsKept hkey hmin hcount
    refine ⟨lt_of_le_of_lt hkept.enough hkept.below, ?_⟩
    intro i rest hlog
    exact h.cleared (hkept.cleared i rest hlog)
  · intro zone log system hrun
    have hlast := (hat zone).2.2.trans hstart.tracks.seq
    obtain ⟨history', document', h, hkept, -, -, hexact⟩ := hrun.counts_exact hkey hlast hmin hcount
    refine ⟨hexact, lt_of_le_of_lt hkept.enough hkept.below, ?_⟩
    intro i rest hlog
    exact h.cleared (hkept.cleared i rest hlog)

/-! ## Two zones that ask for the same key -/

theorem bothAttached_onHistory :
    OnHistory plainStore CacheIndex.default.view bothAttached [] emptyDocument := by
  obtain ⟨document, h⟩ := bothAttached_started.onHistory
  have hholds : Holds plainStore bothAttached.memory emptyDocument := ⟨_, rfl, rfl, rfl⟩
  obtain rfl := h.holds.unique hholds
  exact h

def twiceCounted : PlainSystem :=
  oneCounted.put
    (apply_operations plainStore 0 oneCounted.memory [.RemoveAdmissionCount "a"]).1 false
    ⟨(firstUse "a" |>.run (oneCounted.zones false).index).1, 3, 7, 2⟩ .Idle

/-- One zone asks twice for a key of which two uses are asked for. -/
theorem twiceCounted_runs :
    AdmissionRuns plainStore "a" 2 (fun _ i => i = false) bothAttached
      [(false, true), (false, false)] twiceCounted :=
  .attempt (.attempt .start rfl oneCounted_step) rfl
    (Step.publish 0 ⟨3, 7, 2⟩ rfl (by decide) rfl)

theorem the_second_use_clears_the_count : Cleared plainStore "a" twiceCounted :=
  ((no_attempt_is_lost_where_the_count_is_known plainStore CacheIndex.default.view []
    emptyDocument bothAttached bothAttached_onHistory (fun _ => ⟨rfl, rfl, rfl⟩) "a" rfl rfl 2
    (by decide)).2 false _ _ twiceCounted_runs).2.2 false [(false, false)] rfl

/-- A sync that finds nothing newer. -/
theorem bothAttached_begin (i : Bool) : Step plainStore bothAttached (.begin i) bothAttached := by
  have hstep : Step plainStore bothAttached (.begin i)
      (bothAttached.put bothAttached.memory i (bothAttached.zones i) (bothAttached.phases i)) :=
    @Step.begin _ _ _ _ plainStore bothAttached i 0 ⟨1, 7⟩ rfl rfl
  have hsame : bothAttached.put bothAttached.memory i (bothAttached.zones i)
      (bothAttached.phases i) = bothAttached := by
    unfold SharedSystem.put
    rw [Function.update_eq_self, Function.update_eq_self]
  rw [hsame] at hstep
  exact hstep

def onceOverwritten : PlainSystem :=
  oneCounted.put
    (apply_operations plainStore 0 oneCounted.memory [.SetAdmissionCount "a" 1]).1 true
    ⟨(firstUse "a" |>.run CacheIndex.default).1, 3, 7, 2⟩ .Idle

/-- Both zones sync, and then both ask for the key: each of them counts one use, and neither
admits the key. -/
theorem a_use_in_another_zone_is_overwritten :
    ¬ ∀ log system, AdmissionRuns plainStore "a" 2 (fun _ _ => True) bothAttached log system →
      misses log < 2 := by
  intro h
  have hsyncs : ∀ {i : Bool}, (SyncAction.begin i).Syncs := trivial
  have hsynced : AdmissionRuns plainStore "a" 2 (fun _ _ => True) bothAttached [] bothAttached :=
    .sync (.sync .start hsyncs (bothAttached_begin false)) hsyncs (bothAttached_begin true)
  have hrun : AdmissionRuns plainStore "a" 2 (fun _ _ => True) bothAttached
      [(true, false), (false, false)] onceOverwritten :=
    .attempt (.attempt hsynced trivial oneCounted_step) trivial
      (Step.publish 0 ⟨3, 7, 2⟩ rfl (by decide) rfl)
  exact absurd (h _ _ hrun) (by decide)

end rginx.cache
