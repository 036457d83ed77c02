-- The calls that change the index of a zone, as one type. Every call keeps
-- the invariant, keeps the size while the sums fit, and publishes exactly what
-- it did to the shared part of the index.
import Rginx.IndexSteps

open tree_maps

namespace rginx.cache

/-! ## The calls of a zone -/

/-- A call of the zone itself, with what it reads beside the index. -/
inductive LocalCall
  | store (hot : HotEntries) (max_size_bytes : Option Nat) (key : String)
      (entry : CacheIndexEntry) (replaced_entry : Option (String × CacheIndexEntry))
  | remove (key : String) (expected_entry : CacheIndexEntry)
  | purge (order : HashOrder) (selector : PurgeSelector)
  | cleanup (hot : HotEntries) (now inactive_ms batch_size : Nat)
  | admission (key : String) (min_uses : Nat)
  | access (key : String) (last_access_unix_ms : Nat)
  | invalidate (rule : CacheInvalidationRule)
  | clear

/-- The index after the call, and what the call publishes. -/
def LocalCall.run (index : CacheIndex) : LocalCall → CacheIndex × List SharedIndexOperation
  | .store hot max_size_bytes key entry replaced_entry =>
    let update := update_index_after_store hot max_size_bytes index key entry replaced_entry
    (update.index, update.shared_operations)
  | .remove key expected_entry =>
    let (index, operations, _) := remove_zone_index_entry_if_matches index key expected_entry
    (index, operations)
  | .purge order selector =>
    let (index, operations, _) := purge_zone_entries order index selector
    (index, operations)
  | .cleanup hot now inactive_ms batch_size =>
    let (index, operations, _) := cleanup_inactive_batch hot index now inactive_ms batch_size
    (index, operations)
  | .admission key min_uses =>
    let (index, operations, _) := record_cache_admission_attempt index key min_uses
    (index, operations)
  | .access key last_access_unix_ms =>
    record_zone_shared_entry_access index key last_access_unix_ms
  | .invalidate rule => add_invalidation index rule
  | .clear => clear_zone_invalidations index

/-- The index of a store when the new entry is about to come in. -/
def before_insert (index : CacheIndex) (key : String) (entry : CacheIndexEntry)
    (replaced_entry : Option (String × CacheIndexEntry)) : CacheIndex :=
  let index := (drop_entries index (replaced_keys index replaced_entry)).1
  (drop_entries index (variant_keys_with_different_dimensions index entry key)).1

/-- Every sum of sizes that the call passes through fits a `usize`: the largest is the one of a
store, between the new entry and the eviction. -/
def LocalCall.fits (index : CacheIndex) : LocalCall → Prop
  | .store _ _ key entry replaced_entry =>
    bodyBytes ((before_insert index key entry replaced_entry).entries.insert key entry) ≤ U64_MAX
  | _ => True

instance (index : CacheIndex) : (call : LocalCall) → Decidable (call.fits index)
  | .store _ _ _ _ _ => inferInstanceAs (Decidable (_ ≤ _))
  | .remove _ _ | .purge _ _ | .cleanup _ _ _ _ | .admission _ _ | .access _ _ | .invalidate _
  | .clear => inferInstanceAs (Decidable True)

/-! ## The parts of a store -/

/-- The index of a store when the new entry has come in. -/
def after_insert (index : CacheIndex) (key : String) (entry : CacheIndexEntry)
    (replaced_entry : Option (String × CacheIndexEntry)) : CacheIndex :=
  ((before_insert index key entry replaced_entry).insert_with_accounts key
    entry).1.remove_admission_count key

theorem before_insert_ok {index : CacheIndex} (h : index.Ok) (key : String)
    (entry : CacheIndexEntry) (replaced_entry : Option (String × CacheIndexEntry)) :
    (before_insert index key entry replaced_entry).Ok :=
  drop_entries_ok (drop_entries_ok h _) _

theorem before_insert_size {index : CacheIndex} (h : index.SizeOk) (key : String)
    (entry : CacheIndexEntry) (replaced_entry : Option (String × CacheIndexEntry)) :
    (before_insert index key entry replaced_entry).SizeOk :=
  drop_entries_size (drop_entries_size h _) _

theorem after_insert_ok {index : CacheIndex} (h : index.Ok) (key : String)
    (entry : CacheIndexEntry) (replaced_entry : Option (String × CacheIndexEntry)) :
    (after_insert index key entry replaced_entry).Ok := by
  have hins := insert_with_accounts_ok (before_insert_ok h key entry replaced_entry) key entry
  exact hins.of_same rfl rfl rfl rfl rfl

theorem after_insert_size {index : CacheIndex} (h : index.SizeOk) (key : String)
    (entry : CacheIndexEntry) (replaced_entry : Option (String × CacheIndexEntry))
    (hfits : bodyBytes ((before_insert index key entry replaced_entry).entries.insert key entry) ≤
      U64_MAX) :
    (after_insert index key entry replaced_entry).SizeOk := by
  have hins := insert_with_accounts_size (before_insert_size h key entry replaced_entry) key entry
    hfits
  exact hins

theorem CacheIndex.Ok.loop {index : CacheIndex} (h : index.Ok) : index.LoopOk :=
  ⟨h.refs, h.schedule⟩

theorem eviction_candidates_left (hot : HotEntries) {index : CacheIndex} (h : index.LoopOk)
    (max_size_bytes : Option Nat) :
    LoopLeft index (eviction_candidates hot index max_size_bytes).1
      (eviction_candidates hot index max_size_bytes).2 := by
  cases max_size_bytes with
  | none => exact ⟨h, RowsLeft.refl index, rfl, id⟩
  | some max_size_bytes => exact schedule_loop_left _ _ _ _ index 0 h

theorem inactive_cleanup_candidates_left (hot : HotEntries) {index : CacheIndex}
    (h : index.LoopOk) (now inactive_ms batch_size : Nat) :
    LoopLeft index (inactive_cleanup_candidates hot index now inactive_ms batch_size).1
      (inactive_cleanup_candidates hot index now inactive_ms batch_size).2.1 := by
  unfold inactive_cleanup_candidates
  split
  · exact ⟨h, RowsLeft.refl index, rfl, id⟩
  · exact schedule_loop_left _ _ _ _ index 0 h

/-- The index of a loop once the variants have followed its rows out. -/
def settled (index : CacheIndex) (rows : List (String × CacheIndexEntry)) : CacheIndex :=
  { index with
    admission_counts := eraseKeys index.admission_counts (rows.map (·.1))
    variants := remove_variant_keys index.variants rows }

theorem settled_ok {index index' : CacheIndex} {rows : List (String × CacheIndexEntry)}
    (h : index.Ok) (hleft : LoopLeft index index' rows) : (settled index' rows).Ok := by
  have hvariants := remove_variant_keys_ok h.variants rows hleft.left.were
  rw [← hleft.left.entries, ← hleft.variants] at hvariants
  exact ⟨hleft.ok.refs, hvariants, hleft.ok.schedule⟩

theorem settled_left {index index' : CacheIndex} {rows : List (String × CacheIndexEntry)}
    (hleft : LoopLeft index index' rows) : RowsLeft index (settled index' rows) rows := by
  refine ⟨hleft.left.were, hleft.left.entries, ?_, hleft.left.rules⟩
  simp only [settled, hleft.left.admission, eraseKeys_eraseKeys]

theorem update_index_after_store_index (hot : HotEntries) (max_size_bytes : Option Nat)
    (index : CacheIndex) (key : String) (entry : CacheIndexEntry)
    (replaced_entry : Option (String × CacheIndexEntry)) :
    (update_index_after_store hot max_size_bytes index key entry replaced_entry).index =
      settled (eviction_candidates hot (after_insert index key entry replaced_entry)
          max_size_bytes).1
        (eviction_candidates hot (after_insert index key entry replaced_entry)
          max_size_bytes).2 := rfl

/-- A batch leaves the index that its loop leaves, settled. -/
theorem cleanup_inactive_batch_index (hot : HotEntries) {index : CacheIndex} (h : index.LoopOk)
    (now inactive_ms batch_size : Nat) :
    (cleanup_inactive_batch hot index now inactive_ms batch_size).1 =
      settled (inactive_cleanup_candidates hot index now inactive_ms (max batch_size 1)).1
        (inactive_cleanup_candidates hot index now inactive_ms (max batch_size 1)).2.1 := by
  have hleft := inactive_cleanup_candidates_left hot h now inactive_ms (max batch_size 1)
  have hadm := hleft.left.admission
  unfold cleanup_inactive_batch settled
  dsimp only
  congr 1
  rw [hadm, eraseKeys_eraseKeys]

/-! ## One call -/

theorem remove_zone_index_entry_if_matches_cases (index : CacheIndex) (key : String)
    (expected_entry : CacheIndexEntry) :
    (∃ current, index.entries[key]? = some current ∧ current.stable_eq expected_entry = true ∧
      remove_zone_index_entry_if_matches index key expected_entry =
        ((drop_entry index key).1, removal_operations key,
          some ⟨current.hash, !(drop_entry index key).1.hash_is_referenced current.hash⟩)) ∨
      remove_zone_index_entry_if_matches index key expected_entry = (index, [], none) := by
  unfold remove_zone_index_entry_if_matches
  rcases he : index.entries[key]? with _ | current
  · exact Or.inr rfl
  · dsimp only
    split
    · rename_i hstable
      left
      exact ⟨current, rfl, hstable, by rw [drop_entry_of_some he]⟩
    · exact Or.inr rfl

theorem LocalCall.run_ok {index : CacheIndex} (h : index.Ok) (call : LocalCall) :
    (call.run index).1.Ok := by
  cases call with
  | store hot max_size_bytes key entry replaced_entry =>
    have hafter := after_insert_ok h key entry replaced_entry
    exact settled_ok hafter (eviction_candidates_left hot hafter.loop max_size_bytes)
  | remove key expected_entry =>
    simp only [LocalCall.run]
    rcases remove_zone_index_entry_if_matches_cases index key expected_entry with
      ⟨current, -, -, hrun⟩ | hrun
    · rw [hrun]
      exact drop_entry_ok h key
    · rw [hrun]
      exact h
  | purge order selector => exact drop_entries_ok h _
  | cleanup hot now inactive_ms batch_size =>
    simp only [LocalCall.run]
    rw [cleanup_inactive_batch_index hot h.loop]
    exact settled_ok h (inactive_cleanup_candidates_left hot h.loop now inactive_ms _)
  | admission key min_uses =>
    simp only [LocalCall.run, record_cache_admission_attempt]
    split
    · exact h.of_same rfl rfl rfl rfl rfl
    · split <;> exact h.of_same rfl rfl rfl rfl rfl
  | access key last_access_unix_ms =>
    have htouch := touch_entry_ok h key last_access_unix_ms
    simp only [LocalCall.run, record_zone_shared_entry_access]
    split <;> rename_i heq <;> rw [heq] at htouch <;> exact htouch
  | invalidate rule => exact h.of_same rfl rfl rfl rfl rfl
  | clear => exact h.of_same rfl rfl rfl rfl rfl

theorem LocalCall.run_size {index : CacheIndex} (hok : index.Ok) (h : index.SizeOk)
    (call : LocalCall) (hfits : call.fits index) : (call.run index).1.SizeOk := by
  cases call with
  | store hot max_size_bytes key entry replaced_entry =>
    have hafter := after_insert_ok hok key entry replaced_entry
    exact (eviction_candidates_left hot hafter.loop max_size_bytes).size
      (after_insert_size h key entry replaced_entry hfits)
  | remove key expected_entry =>
    simp only [LocalCall.run]
    rcases remove_zone_index_entry_if_matches_cases index key expected_entry with
      ⟨current, -, -, hrun⟩ | hrun
    · rw [hrun]
      exact drop_entry_size h key
    · rw [hrun]
      exact h
  | purge order selector => exact drop_entries_size h _
  | cleanup hot now inactive_ms batch_size =>
    exact (inactive_cleanup_candidates_left hot hok.loop now inactive_ms _).size h
  | admission key min_uses =>
    simp only [LocalCall.run, record_cache_admission_attempt]
    split
    · exact h
    · split <;> exact h
  | access key last_access_unix_ms =>
    have htouch := touch_entry_size h key last_access_unix_ms
    simp only [LocalCall.run, record_zone_shared_entry_access]
    split <;> rename_i heq <;> rw [heq] at htouch <;> exact htouch
  | invalidate rule => exact h
  | clear => exact h

theorem view_after_insert (index : CacheIndex) (key : String) (entry : CacheIndexEntry)
    (replaced_entry : Option (String × CacheIndexEntry)) :
    (after_insert index key entry replaced_entry).view =
      (before_insert index key entry replaced_entry).view.applyAll
        [.UpsertEntry key entry, .RemoveAdmissionCount key] := rfl

/-- A touch publishes when it changed the entry, and then it says by how much. -/
theorem view_record_zone_shared_entry_access (index : CacheIndex) (key : String)
    (last_access_unix_ms : Nat) :
    (record_zone_shared_entry_access index key last_access_unix_ms).1.view =
      index.view.applyAll
        (record_zone_shared_entry_access index key last_access_unix_ms).2 := by
  obtain ⟨-, -, hadmission, hrules, -⟩ := touch_entry_frame index key last_access_unix_ms
  have hview : (index.touch_entry key last_access_unix_ms).1.view =
      index.view.apply (.TouchEntry key last_access_unix_ms) := by
    simp [CacheIndex.view, SharedView.apply, hadmission, hrules]
  unfold record_zone_shared_entry_access
  split
  · rename_i heq
    rw [heq] at hview
    exact hview
  · rename_i index' heq
    have hsame : index' = index := by
      unfold CacheIndex.touch_entry at heq
      split at heq
      · exact (Prod.mk.inj heq).1.symm
      · split at heq
        · cases (Prod.mk.inj heq).2
        · exact (Prod.mk.inj heq).1.symm
    rw [hsame]
    rfl

theorem view_record_cache_admission_attempt (index : CacheIndex) (key : String)
    (min_uses : Nat) :
    (record_cache_admission_attempt index key min_uses).1.view =
      index.view.applyAll (record_cache_admission_attempt index key min_uses).2.1 := by
  unfold record_cache_admission_attempt
  split
  · by_cases hc : index.admission_counts.contains key = true
    · simp only [hc, if_true]
      rfl
    · have hnone : index.admission_counts[key]? = none := by
        simpa using hc
      simp only [CacheIndex.view, CacheIndex.remove_admission_count, hc,
        erase_of_none index.admission_counts key hnone]
      rfl
  · dsimp only
    split <;> rfl

/-- A call publishes exactly what it does to the shared part of the index. -/
theorem LocalCall.run_view {index : CacheIndex} (h : index.Ok) (call : LocalCall) :
    (call.run index).1.view = index.view.applyAll (call.run index).2 := by
  cases call with
  | store hot max_size_bytes key entry replaced_entry =>
    have hafter := after_insert_ok h key entry replaced_entry
    have hevict := (settled_left
      (eviction_candidates_left hot hafter.loop max_size_bytes)).view
    have hrepl := (drop_entries_left index (replaced_keys index replaced_entry)).view
    have hincompat := (drop_entries_left
      (drop_entries index (replaced_keys index replaced_entry)).1
      (variant_keys_with_different_dimensions
        (drop_entries index (replaced_keys index replaced_entry)).1 entry key)).view
    -- The operations come in the order of the parts of the store.
    calc (LocalCall.run index (.store hot max_size_bytes key entry replaced_entry)).1.view
        = (after_insert index key entry replaced_entry).view.applyAll
            (dropped_operations (eviction_candidates hot
              (after_insert index key entry replaced_entry) max_size_bytes).2) := hevict
      _ = ((before_insert index key entry replaced_entry).view.applyAll
            [.UpsertEntry key entry, .RemoveAdmissionCount key]).applyAll
            (dropped_operations (eviction_candidates hot
              (after_insert index key entry replaced_entry) max_size_bytes).2) := by
          rw [view_after_insert]
      _ = index.view.applyAll
            (LocalCall.run index (.store hot max_size_bytes key entry replaced_entry)).2 := by
          rw [before_insert, hincompat, hrepl, ← applyAll_append, ← applyAll_append,
            ← applyAll_append, ← List.append_assoc, ← List.append_assoc]
          rfl
  | remove key expected_entry =>
    simp only [LocalCall.run]
    rcases remove_zone_index_entry_if_matches_cases index key expected_entry with
      ⟨current, he, -, hrun⟩ | hrun
    · rw [hrun]
      exact (drop_entry_left he).view
    · rw [hrun]
      rfl
  | purge order selector => exact (drop_entries_left index _).view
  | cleanup hot now inactive_ms batch_size =>
    simp only [LocalCall.run]
    rw [cleanup_inactive_batch_index hot h.loop]
    exact (settled_left (inactive_cleanup_candidates_left hot h.loop now inactive_ms _)).view
  | admission key min_uses => exact view_record_cache_admission_attempt index key min_uses
  | access key last_access_unix_ms =>
    exact view_record_zone_shared_entry_access index key last_access_unix_ms
  | invalidate rule =>
    simp only [LocalCall.run, add_invalidation, CacheIndex.view, applyAll_cons, applyAll_nil,
      SharedView.apply]
    congr 1
    ext r
    simp
  | clear => rfl

/-! ## The load from disk -/

theorem insert_rows_ok {index : CacheIndex} (h : index.Ok)
    (rows : List (String × CacheIndexEntry)) : (insert_rows index rows).Ok := by
  induction rows generalizing index with
  | nil => exact h
  | cons row rows ih => exact ih (insert_with_accounts_ok h row.1 row.2)

/-- Every sum of sizes that the load passes through fits a `usize`. -/
def rowsFit (entries : Map CacheIndexEntry) : List (String × CacheIndexEntry) → Prop
  | [] => True
  | row :: rows =>
    bodyBytes (entries.insert row.1 row.2) ≤ U64_MAX ∧ rowsFit (entries.insert row.1 row.2) rows

theorem insert_rows_size {index : CacheIndex} (h : index.SizeOk)
    (rows : List (String × CacheIndexEntry)) (hfits : rowsFit index.entries rows) :
    (insert_rows index rows).SizeOk := by
  induction rows generalizing index with
  | nil => exact h
  | cons row rows ih =>
    exact ih (insert_with_accounts_size h row.1 row.2 hfits.1) hfits.2

/-- The oldest entry leaves with its record, its accounts and its variant. -/
theorem pop_remove_ok {index : CacheIndex} (h : index.Ok) {s : CacheAccessScheduleEntry}
    (hs : s ∈ index.access_schedule) :
    ((index.pop_scheduled s).remove_with_accounts s.key).1.Ok := by
  obtain ⟨entry, he⟩ := h.schedule.entry hs
  have hpop : (index.pop_scheduled s).entries[s.key]? = some entry := he
  have herase : (index.entries.erase s.key).erase s.key = index.entries.erase s.key :=
    erase_of_none _ _ (by simp)
  simp only [CacheIndex.remove_with_accounts, CacheIndex.remove_entry, hpop]
  constructor
  · exact decrement_hash_ref_ok h.refs he
  · exact remove_variant_key_ok h.variants he
  · have hun := unschedule_entry_access_ok (pop_scheduled_ok h.schedule hs) s.key
    rw [herase] at hun
    exact hun

theorem load_trim_loop_ok {index : CacheIndex} (h : index.Ok) (max_size_bytes turns : Nat) :
    (load_trim_loop max_size_bytes turns index).Ok := by
  induction turns generalizing index with
  | zero => exact h
  | succ turns ih =>
    rw [load_trim_loop]
    split
    · rcases ho : index.oldest with _ | s
      · simpa [CacheIndex.pop_oldest_scheduled_entry, ho] using h
      · simp only [CacheIndex.pop_oldest_scheduled_entry, ho, Option.map_some]
        exact ih (pop_remove_ok h (oldest_mem ho))
    · exact h

theorem load_trim_loop_size {index : CacheIndex} (h : index.SizeOk)
    (max_size_bytes turns : Nat) : (load_trim_loop max_size_bytes turns index).SizeOk := by
  induction turns generalizing index with
  | zero => exact h
  | succ turns ih =>
    rw [load_trim_loop]
    split
    · rcases ho : index.oldest with _ | s
      · simpa [CacheIndex.pop_oldest_scheduled_entry, ho] using h
      · simp only [CacheIndex.pop_oldest_scheduled_entry, ho, Option.map_some]
        have hpop : (index.pop_scheduled s).SizeOk := h
        exact ih (remove_with_accounts_size hpop s.key)
    · exact h

theorem load_index_from_disk_ok (cache_key_hash : String → String) (max_size_bytes : Option Nat)
    (files : List ScannedFile) :
    (load_index_from_disk cache_key_hash max_size_bytes files).Ok := by
  have hrows := insert_rows_ok default_ok (files.filterMap (load_cache_index_entry cache_key_hash))
  unfold load_index_from_disk
  cases max_size_bytes with
  | none => exact hrows
  | some max_size_bytes => exact load_trim_loop_ok hrows max_size_bytes _

theorem load_index_from_disk_size (cache_key_hash : String → String)
    (max_size_bytes : Option Nat) (files : List ScannedFile)
    (hfits : rowsFit ∅ (files.filterMap (load_cache_index_entry cache_key_hash))) :
    (load_index_from_disk cache_key_hash max_size_bytes files).SizeOk := by
  have hrows := insert_rows_size default_size
    (files.filterMap (load_cache_index_entry cache_key_hash)) hfits
  unfold load_index_from_disk
  cases max_size_bytes with
  | none => exact hrows
  | some max_size_bytes => exact load_trim_loop_size hrows max_size_bytes _

/-! ## The laws of the loops -/

/-- An eviction ends. It leaves the index within its bound, or with no entry at all. -/
theorem an_eviction_ends_within_the_bound (hot : HotEntries) (index : CacheIndex) (h : index.Ok)
    (max_size_bytes : Nat) :
    (eviction_candidates hot index (some max_size_bytes)).1.current_size_bytes ≤ max_size_bytes ∨
      (eviction_candidates hot index (some max_size_bytes)).1.access_schedule = ∅ := by
  have hends := schedule_loop_ends hot (fun effective scheduled => decide (scheduled < effective))
    (fun index _ => decide (max_size_bytes < index.current_size_bytes))
    (by intro _ _ s effective _ _ hl; simpa using hl)
    (enough_turns index) index 0 h.loop (pending_le hot index)
  rcases hends with hstop | hempty
  · exact Or.inl (Nat.not_lt.mp (of_decide_eq_false hstop))
  · exact Or.inr hempty

theorem oldest_is_due_of_empty {index : CacheIndex} (h : index.access_schedule = ∅)
    (cutoff : Nat) : oldest_is_due cutoff index = false := by
  simp [oldest_is_due, CacheIndex.oldest_scheduled_access_unix_ms, CacheIndex.oldest, h]

/-- A cleanup batch ends. It leaves nothing that is due, unless it is full. -/
theorem a_cleanup_batch_ends (hot : HotEntries) (index : CacheIndex) (h : index.Ok)
    (now inactive_ms batch_size : Nat) (hbatch : 0 < batch_size) :
    let left := inactive_cleanup_candidates hot index now inactive_ms batch_size
    batch_size ≤ left.2.1.length ∨ left.2.2 = false := by
  have hends := schedule_loop_ends hot
    (fun effective scheduled =>
      decide (scheduled < effective) || decide (now - effective ≤ inactive_ms))
    (fun index count => decide (count < batch_size) && oldest_is_due (now - inactive_ms) index)
    (by
      intro index count s effective hgo ho hl
      simp only [Bool.and_eq_true, decide_eq_true_eq, Bool.or_eq_true, oldest_is_due,
        CacheIndex.oldest_scheduled_access_unix_ms, ho, Option.map_some] at hgo hl
      omega)
    (enough_turns index) index 0 h.loop (pending_le hot index)
  unfold inactive_cleanup_candidates
  rw [if_neg (by omega)]
  rcases hends with hstop | hempty
  · simp only [Nat.zero_add, Bool.and_eq_false_iff, decide_eq_false_iff_not, not_lt] at hstop
    exact hstop
  · exact Or.inr (oldest_is_due_of_empty hempty _)

end rginx.cache
