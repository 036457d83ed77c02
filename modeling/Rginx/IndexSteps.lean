-- What each change does to an index. A change keeps the invariant, and it
-- does to the shared part of the index (`SharedView`) what the operations that
-- it publishes say.
import Rginx.IndexMaintenance

open tree_maps

namespace rginx.cache

/-! ## The shared part of an index -/

/-- The part of an index that the processes share: the entries, the admission counts and the
set of the invalidation rules. -/
@[ext]
structure SharedView where
  entries : Map CacheIndexEntry
  admission_counts : Map Nat
  invalidations : Finset CacheInvalidationRule

def CacheIndex.view (index : CacheIndex) : SharedView :=
  ⟨index.entries, index.admission_counts, index.invalidations.toFinset⟩

/-- The meaning of an operation. -/
def SharedView.apply (view : SharedView) : SharedIndexOperation → SharedView
  | .UpsertEntry key entry => { view with entries := view.entries.insert key entry }
  | .RemoveEntry key => { view with entries := view.entries.erase key }
  | .TouchEntry key last_access_unix_ms =>
    { view with entries := touchedEntries view.entries key last_access_unix_ms }
  | .SetAdmissionCount key uses =>
    { view with admission_counts := view.admission_counts.insert key uses }
  | .RemoveAdmissionCount key =>
    { view with admission_counts := view.admission_counts.erase key }
  | .AddInvalidation rule => { view with invalidations := insert rule view.invalidations }
  | .ClearInvalidations => { view with invalidations := ∅ }

def SharedView.applyAll (view : SharedView) (operations : List SharedIndexOperation) :
    SharedView :=
  operations.foldl SharedView.apply view

@[simp]
theorem applyAll_nil (view : SharedView) : view.applyAll [] = view := rfl

@[simp]
theorem applyAll_cons (view : SharedView) (operation : SharedIndexOperation)
    (operations : List SharedIndexOperation) :
    view.applyAll (operation :: operations) = (view.apply operation).applyAll operations := rfl

theorem applyAll_append (view : SharedView) (operations operations' : List SharedIndexOperation) :
    view.applyAll (operations ++ operations') = (view.applyAll operations).applyAll operations' :=
  List.foldl_append

/-! ## The replay of an operation -/

/-- A zone that replays an operation does what the operation means. -/
theorem view_apply_shared_index_operation (index : CacheIndex)
    (operation : SharedIndexOperation) :
    (apply_shared_index_operation index operation).view = index.view.apply operation := by
  cases operation with
  | UpsertEntry key entry => rfl
  | RemoveEntry key =>
    simp [apply_shared_index_operation, CacheIndex.view, SharedView.apply]
  | TouchEntry key last_access_unix_ms =>
    obtain ⟨-, -, hadmission, hrules, -⟩ := touch_entry_frame index key last_access_unix_ms
    simp [apply_shared_index_operation, CacheIndex.view, SharedView.apply, hadmission, hrules]
  | SetAdmissionCount key uses => rfl
  | RemoveAdmissionCount key => rfl
  | AddInvalidation rule =>
    simp only [apply_shared_index_operation, CacheIndex.view, SharedView.apply]
    split
    · rename_i hmem
      rw [Finset.insert_eq_self.mpr (List.mem_toFinset.mpr hmem)]
    · congr 1
      ext r
      simp
  | ClearInvalidations => rfl

theorem view_apply_shared_index_delta (index : CacheIndex)
    (operations : List SharedIndexOperation) :
    (apply_shared_index_delta index operations).view = index.view.applyAll operations := by
  induction operations generalizing index with
  | nil => rfl
  | cons operation operations ih =>
    rw [apply_shared_index_delta, List.foldl_cons, ← apply_shared_index_delta, ih,
      view_apply_shared_index_operation, applyAll_cons]

theorem CacheIndex.Ok.of_same {index index' : CacheIndex} (h : index.Ok)
    (he : index'.entries = index.entries) (hc : index'.hash_ref_counts = index.hash_ref_counts)
    (hv : index'.variants = index.variants)
    (hs : index'.access_schedule = index.access_schedule)
    (ht : index'.access_ticket_by_key = index.access_ticket_by_key) : index'.Ok := by
  refine ⟨?_, ?_, ?_⟩
  · rw [he, hc]; exact h.refs
  · rw [he, hv]; exact h.variants
  · rw [he, hs, ht]; exact h.schedule

theorem apply_shared_index_operation_ok {index : CacheIndex} (h : index.Ok)
    (operation : SharedIndexOperation) : (apply_shared_index_operation index operation).Ok := by
  cases operation with
  | UpsertEntry key entry => exact insert_with_accounts_ok h key entry
  | RemoveEntry key => exact remove_with_accounts_ok h key
  | TouchEntry key last_access_unix_ms => exact touch_entry_ok h key last_access_unix_ms
  | SetAdmissionCount key uses => exact h.of_same rfl rfl rfl rfl rfl
  | RemoveAdmissionCount key => exact h.of_same rfl rfl rfl rfl rfl
  | AddInvalidation rule =>
    simp only [apply_shared_index_operation]
    split
    · exact h
    · exact h.of_same rfl rfl rfl rfl rfl
  | ClearInvalidations => exact h.of_same rfl rfl rfl rfl rfl

theorem apply_shared_index_operation_size {index : CacheIndex} (h : index.SizeOk)
    (operation : SharedIndexOperation)
    (hfits : bodyBytes (apply_shared_index_operation index operation).entries ≤ U64_MAX) :
    (apply_shared_index_operation index operation).SizeOk := by
  cases operation with
  | UpsertEntry key entry => exact insert_with_accounts_size h key entry hfits
  | RemoveEntry key => exact remove_with_accounts_size h key
  | TouchEntry key last_access_unix_ms => exact touch_entry_size h key last_access_unix_ms
  | SetAdmissionCount key uses => exact h
  | RemoveAdmissionCount key => exact h
  | AddInvalidation rule =>
    simp only [apply_shared_index_operation]
    split <;> exact h
  | ClearInvalidations => exact h

/-- Every sum of sizes that the replay passes through fits a `usize`. -/
def deltaFits (index : CacheIndex) : List SharedIndexOperation → Prop
  | [] => True
  | operation :: operations =>
    bodyBytes (apply_shared_index_operation index operation).entries ≤ U64_MAX ∧
      deltaFits (apply_shared_index_operation index operation) operations

instance decidableDeltaFits (index : CacheIndex) :
    (operations : List SharedIndexOperation) → Decidable (deltaFits index operations)
  | [] => inferInstanceAs (Decidable True)
  | operation :: operations =>
    have := decidableDeltaFits (apply_shared_index_operation index operation) operations
    inferInstanceAs (Decidable (_ ∧ _))

theorem apply_shared_index_delta_ok {index : CacheIndex} (h : index.Ok)
    (operations : List SharedIndexOperation) : (apply_shared_index_delta index operations).Ok := by
  induction operations generalizing index with
  | nil => exact h
  | cons operation operations ih => exact ih (apply_shared_index_operation_ok h operation)

theorem apply_shared_index_delta_size {index : CacheIndex} (h : index.SizeOk)
    (operations : List SharedIndexOperation) (hfits : deltaFits index operations) :
    (apply_shared_index_delta index operations).SizeOk := by
  induction operations generalizing index with
  | nil => exact h
  | cons operation operations ih =>
    exact ih (apply_shared_index_operation_size h operation hfits.1) hfits.2

/-! ## Rows that leave -/

/-- The rows have left the index: the entries and the admission counts of their keys are gone,
and the rules are as they were. -/
structure RowsLeft (index index' : CacheIndex) (rows : List (String × CacheIndexEntry)) :
    Prop where
  were : RowsOf index.entries rows
  entries : index'.entries = eraseKeys index.entries (rows.map (·.1))
  admission : index'.admission_counts = eraseKeys index.admission_counts (rows.map (·.1))
  rules : index'.invalidations = index.invalidations

theorem RowsLeft.refl (index : CacheIndex) : RowsLeft index index [] :=
  ⟨trivial, rfl, rfl, rfl⟩

theorem RowsLeft.cons {index index' index'' : CacheIndex} {key : String}
    {entry : CacheIndexEntry} {rows : List (String × CacheIndexEntry)}
    (h : RowsLeft index index' [(key, entry)]) (h' : RowsLeft index' index'' rows) :
    RowsLeft index index'' ((key, entry) :: rows) := by
  obtain ⟨⟨hwas, -⟩, he, ha, hr⟩ := h
  obtain ⟨hwere, he', ha', hr'⟩ := h'
  simp only [List.map_cons, List.map_nil, eraseKeys_cons, eraseKeys_nil] at he ha
  refine ⟨⟨hwas, ?_⟩, ?_, ?_, ?_⟩
  · rw [← he]; exact hwere
  · simp [he', he]
  · simp [ha', ha]
  · rw [hr', hr]

/-- The operations of a removal say what it did. -/
theorem RowsLeft.view {index index' : CacheIndex} {rows : List (String × CacheIndexEntry)}
    (h : RowsLeft index index' rows) :
    index'.view = index.view.applyAll (dropped_operations rows) := by
  have hall : ∀ (rows : List (String × CacheIndexEntry)) (view : SharedView),
      view.applyAll (dropped_operations rows) =
        ⟨eraseKeys view.entries (rows.map (·.1)),
          eraseKeys view.admission_counts (rows.map (·.1)), view.invalidations⟩ := by
    intro rows
    induction rows with
    | nil => intro view; rfl
    | cons row rows ih =>
      intro view
      rw [dropped_operations, List.flatMap_cons, applyAll_append, ← dropped_operations, ih]
      rfl
  rw [hall]
  simp [CacheIndex.view, h.entries, h.admission, h.rules]

theorem remove_variant_keys_ok {entries : Map CacheIndexEntry} {variants : Map (List String)}
    (h : VariantsOk entries variants) (rows : List (String × CacheIndexEntry))
    (hrows : RowsOf entries rows) :
    VariantsOk (eraseKeys entries (rows.map (·.1))) (remove_variant_keys variants rows) := by
  induction rows generalizing entries variants with
  | nil => exact h
  | cons row rows ih =>
    obtain ⟨key, entry⟩ := row
    exact ih (remove_variant_key_ok h hrows.1) hrows.2

theorem drop_entry_of_some {index : CacheIndex} {key : String} {entry : CacheIndexEntry}
    (he : index.entries[key]? = some entry) :
    drop_entry index key =
      ((index.remove_with_accounts key).1.remove_admission_count key, some entry) := by
  have hsnd := remove_with_accounts_snd index key
  rw [he] at hsnd
  unfold drop_entry
  rcases hr : index.remove_with_accounts key with ⟨index', _ | removed⟩
  · rw [hr] at hsnd
    cases hsnd
  · rw [hr] at hsnd
    obtain rfl := Option.some.inj hsnd
    rfl

theorem drop_entry_of_none {index : CacheIndex} {key : String}
    (he : index.entries[key]? = none) : drop_entry index key = (index, none) := by
  simp [drop_entry, remove_with_accounts_of_none he]

theorem drop_entry_left {index : CacheIndex} {key : String} {entry : CacheIndexEntry}
    (he : index.entries[key]? = some entry) :
    RowsLeft index (drop_entry index key).1 [(key, entry)] := by
  rw [drop_entry_of_some he]
  refine ⟨⟨he, trivial⟩, ?_, ?_, ?_⟩
  · simp [CacheIndex.remove_admission_count]
  · simp [CacheIndex.remove_admission_count]
  · simp [CacheIndex.remove_admission_count]

theorem drop_entry_ok {index : CacheIndex} (h : index.Ok) (key : String) :
    (drop_entry index key).1.Ok := by
  rcases he : index.entries[key]? with _ | entry
  · rw [drop_entry_of_none he]
    exact h
  · rw [drop_entry_of_some he]
    exact (remove_with_accounts_ok h key).of_same rfl rfl rfl rfl rfl

theorem drop_entry_size {index : CacheIndex} (h : index.SizeOk) (key : String) :
    (drop_entry index key).1.SizeOk := by
  rcases he : index.entries[key]? with _ | entry
  · rw [drop_entry_of_none he]
    exact h
  · rw [drop_entry_of_some he]
    exact remove_with_accounts_size h key

theorem drop_entries_cons_of_none {index : CacheIndex} {key : String} (keys : List String)
    (he : index.entries[key]? = none) :
    drop_entries index (key :: keys) = drop_entries index keys := by
  simp [drop_entries, drop_entry_of_none he]

theorem drop_entries_cons_of_some {index : CacheIndex} {key : String} {entry : CacheIndexEntry}
    (keys : List String) (he : index.entries[key]? = some entry) :
    drop_entries index (key :: keys) =
      ((drop_entries (drop_entry index key).1 keys).1,
        (key, entry) :: (drop_entries (drop_entry index key).1 keys).2) := by
  have hsnd : (drop_entry index key).2 = some entry := by rw [drop_entry_of_some he]
  rw [drop_entries]
  rcases hd : drop_entry index key with ⟨index', _ | removed⟩
  · rw [hd] at hsnd
    cases hsnd
  · rw [hd] at hsnd
    obtain rfl := Option.some.inj hsnd
    rfl

theorem drop_entries_left (index : CacheIndex) (keys : List String) :
    RowsLeft index (drop_entries index keys).1 (drop_entries index keys).2 := by
  induction keys generalizing index with
  | nil => exact RowsLeft.refl index
  | cons key keys ih =>
    rcases he : index.entries[key]? with _ | entry
    · rw [drop_entries_cons_of_none keys he]
      exact ih index
    · rw [drop_entries_cons_of_some keys he]
      exact (drop_entry_left he).cons (ih _)

theorem drop_entries_ok {index : CacheIndex} (h : index.Ok) (keys : List String) :
    (drop_entries index keys).1.Ok := by
  induction keys generalizing index with
  | nil => exact h
  | cons key keys ih =>
    rcases he : index.entries[key]? with _ | entry
    · rw [drop_entries_cons_of_none keys he]
      exact ih h
    · rw [drop_entries_cons_of_some keys he]
      exact ih (drop_entry_ok h key)

theorem drop_entries_size {index : CacheIndex} (h : index.SizeOk) (keys : List String) :
    (drop_entries index keys).1.SizeOk := by
  induction keys generalizing index with
  | nil => exact h
  | cons key keys ih =>
    rcases he : index.entries[key]? with _ | entry
    · rw [drop_entries_cons_of_none keys he]
      exact ih h
    · rw [drop_entries_cons_of_some keys he]
      exact ih (drop_entry_size h key)

/-! ## The loops over the schedule -/

/-- What holds between two turns: the variants wait until the loop has ended. -/
structure CacheIndex.LoopOk (index : CacheIndex) : Prop where
  refs : HashRefsOk index.entries index.hash_ref_counts
  schedule : ScheduleOk index.entries index.access_schedule index.access_ticket_by_key

theorem oldest_mem {index : CacheIndex} {s : CacheAccessScheduleEntry}
    (hs : index.oldest = some s) : s ∈ index.access_schedule := by
  unfold CacheIndex.oldest at hs
  split at hs
  · obtain rfl := Option.some.inj hs
    exact Finset.min'_mem _ _
  · cases hs

theorem oldest_eq_none {index : CacheIndex} (h : index.oldest = none) :
    index.access_schedule = ∅ := by
  unfold CacheIndex.oldest at h
  split at h
  · cases h
  · rename_i hne
    exact Finset.not_nonempty_iff_eq_empty.mp hne

/-- A record of the schedule is about an entry. -/
theorem ScheduleOk.entry {entries : Map CacheIndexEntry}
    {schedule : Finset CacheAccessScheduleEntry} {tickets : Map CacheAccessScheduleTicket}
    (h : ScheduleOk entries schedule tickets) {s : CacheAccessScheduleEntry} (hs : s ∈ schedule) :
    ∃ entry, entries[s.key]? = some entry := by
  have hkeys := h.keys s.key
  rw [(h.mem s).mp hs] at hkeys
  exact Option.isSome_iff_exists.mp hkeys.symm

/-- A turn that takes the entry of the oldest record. -/
def taken (index : CacheIndex) (s : CacheAccessScheduleEntry) (entry : CacheIndexEntry) :
    CacheIndex :=
  let index := ((index.pop_scheduled s).remove_entry s.key).1
  { index with
    current_size_bytes := index.current_size_bytes - entry.body_size_bytes
    admission_counts := index.admission_counts.erase s.key }

/-- What a turn can do. Every record is about an entry, so the turn moves the record or takes
the entry. -/
theorem schedule_turn_cases (hot : HotEntries) (later : Nat → Nat → Bool) {index : CacheIndex}
    (h : index.LoopOk) :
    (index.oldest = none ∧ schedule_turn hot later index = .Stopped) ∨
      ∃ s entry, index.oldest = some s ∧ index.entries[s.key]? = some entry ∧
        ((later (effective_last_access_unix_ms hot s.key entry) s.last_access_unix_ms = true ∧
            schedule_turn hot later index = .Kept ((index.pop_scheduled s).schedule_entry_access
              s.key (effective_last_access_unix_ms hot s.key entry))) ∨
          (later (effective_last_access_unix_ms hot s.key entry) s.last_access_unix_ms = false ∧
            schedule_turn hot later index = .Removed (taken index s entry) s.key entry)) := by
  rcases ho : index.oldest with _ | s
  · left
    simp [schedule_turn, CacheIndex.pop_oldest_scheduled_entry, ho]
  · right
    obtain ⟨entry, he⟩ := h.schedule.entry (oldest_mem ho)
    refine ⟨s, entry, rfl, he, ?_⟩
    have hpop : (index.pop_scheduled s).entries[s.key]? = some entry := he
    have hmem : s.key ∈ (index.pop_scheduled s).entries := by
      rw [Std.ExtTreeMap.mem_iff_isSome_getElem?, hpop]
      rfl
    unfold schedule_turn
    simp only [CacheIndex.pop_oldest_scheduled_entry, ho, Option.map_some, hpop]
    split
    · rename_i hlater
      left
      refine ⟨hlater, ?_⟩
      simp [CacheIndex.reschedule_entry_access, hmem]
    · rename_i hlater
      right
      refine ⟨Bool.eq_false_iff.mpr hlater, ?_⟩
      simp [CacheIndex.remove_entry, hpop, taken, CacheIndex.remove_admission_count]

theorem kept_ok {index : CacheIndex} (h : index.LoopOk) {s : CacheAccessScheduleEntry}
    {entry : CacheIndexEntry} (hs : s ∈ index.access_schedule)
    (he : index.entries[s.key]? = some entry) (last_access_unix_ms : Nat) :
    ((index.pop_scheduled s).schedule_entry_access s.key last_access_unix_ms).LoopOk := by
  refine ⟨h.refs, ?_⟩
  have hsched := schedule_entry_access_ok (pop_scheduled_ok h.schedule hs) s.key entry
    last_access_unix_ms
  rwa [insert_erase_of_some index.entries s.key entry he] at hsched

theorem taken_left {index : CacheIndex} {s : CacheAccessScheduleEntry} {entry : CacheIndexEntry}
    (he : index.entries[s.key]? = some entry) :
    RowsLeft index (taken index s entry) [(s.key, entry)] := by
  refine ⟨⟨he, trivial⟩, ?_, ?_, ?_⟩ <;>
    simp [taken, CacheIndex.remove_entry, he, CacheIndex.unschedule_entry_access,
      CacheIndex.pop_scheduled]

theorem taken_variants {index : CacheIndex} {s : CacheAccessScheduleEntry}
    {entry : CacheIndexEntry} (he : index.entries[s.key]? = some entry) :
    (taken index s entry).variants = index.variants := by
  simp [taken, CacheIndex.remove_entry, he, CacheIndex.unschedule_entry_access,
    CacheIndex.pop_scheduled]

theorem taken_ok {index : CacheIndex} (h : index.LoopOk) {s : CacheAccessScheduleEntry}
    {entry : CacheIndexEntry} (hs : s ∈ index.access_schedule)
    (he : index.entries[s.key]? = some entry) : (taken index s entry).LoopOk := by
  have hpop : (index.pop_scheduled s).entries[s.key]? = some entry := he
  have herase : (index.entries.erase s.key).erase s.key = index.entries.erase s.key :=
    erase_of_none _ _ (by simp)
  constructor
  · simp only [taken, CacheIndex.remove_entry, hpop]
    exact decrement_hash_ref_ok h.refs he
  · simp only [taken, CacheIndex.remove_entry, hpop]
    have hun := unschedule_entry_access_ok (pop_scheduled_ok h.schedule hs) s.key
    rw [herase] at hun
    exact hun

theorem taken_size {index : CacheIndex} (h : index.SizeOk) {s : CacheAccessScheduleEntry}
    {entry : CacheIndexEntry} (he : index.entries[s.key]? = some entry) :
    (taken index s entry).SizeOk := by
  have hpop : (index.pop_scheduled s).entries[s.key]? = some entry := he
  unfold CacheIndex.SizeOk at *
  have hleft := (taken_left he).entries
  simp only [List.map_cons, List.map_nil, eraseKeys_cons, eraseKeys_nil] at hleft
  rw [hleft]
  simp only [taken, CacheIndex.remove_entry, hpop]
  change index.current_size_bytes - entry.body_size_bytes = _
  rw [h, bodyBytes_erase index.entries s.key entry he, Nat.add_sub_cancel]

/-- What a loop leaves: its rows have left, the variants wait, and the rest is in order. -/
structure LoopLeft (index index' : CacheIndex) (rows : List (String × CacheIndexEntry)) :
    Prop where
  ok : index'.LoopOk
  left : RowsLeft index index' rows
  variants : index'.variants = index.variants
  size : index.SizeOk → index'.SizeOk

theorem schedule_loop_left (hot : HotEntries) (later : Nat → Nat → Bool)
    (goes_on : CacheIndex → Nat → Bool) (turns : Nat) (index : CacheIndex) (count : Nat)
    (h : index.LoopOk) :
    LoopLeft index (schedule_loop hot later goes_on turns index count).1
      (schedule_loop hot later goes_on turns index count).2 := by
  induction turns generalizing index count with
  | zero => exact ⟨h, RowsLeft.refl index, rfl, id⟩
  | succ turns ih =>
    rw [schedule_loop]
    split
    · rcases schedule_turn_cases hot later h with
        ⟨-, ht⟩ | ⟨s, entry, ho, he, ⟨-, ht⟩ | ⟨-, ht⟩⟩
      · rw [ht]
        exact ⟨h, RowsLeft.refl index, rfl, id⟩
      · rw [ht]
        obtain ⟨hok, hleft, hvariants, hsize⟩ :=
          ih _ count (kept_ok h (oldest_mem ho) he (effective_last_access_unix_ms hot s.key entry))
        exact ⟨hok, ⟨hleft.were, hleft.entries, hleft.admission, hleft.rules⟩, hvariants, hsize⟩
      · rw [ht]
        obtain ⟨hok, hleft, hvariants, hsize⟩ :=
          ih _ (count + 1) (taken_ok h (oldest_mem ho) he)
        exact ⟨hok, (taken_left he).cons hleft, hvariants.trans (taken_variants he),
          fun hs => hsize (taken_size hs he)⟩
    · exact ⟨h, RowsLeft.refl index, rfl, id⟩

/-! ## The loops end -/

/-- The effective access of a key, or 0 when the key has no entry. -/
def effectiveAt (hot : HotEntries) (index : CacheIndex) (key : String) : Nat :=
  match index.entries[key]? with
  | none => 0
  | some entry => effective_last_access_unix_ms hot key entry

/-- The records that are older than the effective access of their key. -/
def overtaken (hot : HotEntries) (index : CacheIndex) : Finset CacheAccessScheduleEntry :=
  index.access_schedule.filter fun s => s.last_access_unix_ms < effectiveAt hot index s.key

/-- The turns that a loop may still take: each record is moved at most once, and then taken. -/
def pending (hot : HotEntries) (index : CacheIndex) : Nat :=
  index.access_schedule.card + (overtaken hot index).card

theorem pending_le (hot : HotEntries) (index : CacheIndex) :
    pending hot index ≤ enough_turns index := by
  have := Finset.card_filter_le index.access_schedule
    fun s => s.last_access_unix_ms < effectiveAt hot index s.key
  unfold pending overtaken enough_turns
  omega

theorem kept_schedule (index : CacheIndex) (s : CacheAccessScheduleEntry)
    (last_access_unix_ms : Nat) :
    ((index.pop_scheduled s).schedule_entry_access s.key last_access_unix_ms).access_schedule =
      insert ⟨last_access_unix_ms, index.maintenance_next_ticket, s.key⟩
        (index.access_schedule.erase s) := by
  simp [CacheIndex.schedule_entry_access, CacheIndex.unschedule_entry_access,
    CacheIndex.pop_scheduled]

theorem kept_pending (hot : HotEntries) {index : CacheIndex} {s : CacheAccessScheduleEntry}
    {entry : CacheIndexEntry} (hs : s ∈ index.access_schedule)
    (he : index.entries[s.key]? = some entry)
    (hlater : s.last_access_unix_ms < effective_last_access_unix_ms hot s.key entry) :
    pending hot ((index.pop_scheduled s).schedule_entry_access s.key
      (effective_last_access_unix_ms hot s.key entry)) < pending hot index := by
  have heff : effectiveAt hot index s.key = effective_last_access_unix_ms hot s.key entry := by
    simp [effectiveAt, he]
  have hcard : (index.access_schedule.erase s).card + 1 = index.access_schedule.card :=
    Finset.card_erase_add_one hs
  have hover : s ∈ overtaken hot index := by
    simp [overtaken, hs, heff, hlater]
  -- The moved record is not overtaken any more, and no other record is new.
  have hsub : overtaken hot ((index.pop_scheduled s).schedule_entry_access s.key
      (effective_last_access_unix_ms hot s.key entry)) ⊆ (overtaken hot index).erase s := by
    intro r hr
    simp only [overtaken, kept_schedule, Finset.mem_filter, Finset.mem_insert,
      Finset.mem_erase] at hr ⊢
    obtain ⟨rfl | ⟨hne, hr⟩, hlt⟩ := hr
    · change effective_last_access_unix_ms hot s.key entry < effectiveAt hot index s.key at hlt
      omega
    · exact ⟨hne, hr, hlt⟩
  have hlt := Finset.card_lt_card
    (hsub.trans_ssubset (Finset.erase_ssubset hover))
  have hins := Finset.card_insert_le
    (⟨effective_last_access_unix_ms hot s.key entry, index.maintenance_next_ticket, s.key⟩ :
      CacheAccessScheduleEntry) (index.access_schedule.erase s)
  unfold pending
  rw [kept_schedule]
  omega

theorem taken_schedule {index : CacheIndex} {s : CacheAccessScheduleEntry}
    {entry : CacheIndexEntry} (he : index.entries[s.key]? = some entry) :
    (taken index s entry).access_schedule = index.access_schedule.erase s := by
  simp [taken, CacheIndex.remove_entry, he, CacheIndex.unschedule_entry_access,
    CacheIndex.pop_scheduled]

theorem taken_pending (hot : HotEntries) {index : CacheIndex} {s : CacheAccessScheduleEntry}
    {entry : CacheIndexEntry} (hs : s ∈ index.access_schedule)
    (he : index.entries[s.key]? = some entry) :
    pending hot (taken index s entry) < pending hot index := by
  have hcard : (index.access_schedule.erase s).card + 1 = index.access_schedule.card :=
    Finset.card_erase_add_one hs
  have hentries := (taken_left he).entries
  simp only [List.map_cons, List.map_nil, eraseKeys_cons, eraseKeys_nil] at hentries
  have hsub : overtaken hot (taken index s entry) ⊆ overtaken hot index := by
    intro r hr
    rw [overtaken, Finset.mem_filter] at hr ⊢
    obtain ⟨hmem, hlt⟩ := hr
    rw [taken_schedule he, Finset.mem_erase] at hmem
    refine ⟨hmem.2, ?_⟩
    rw [effectiveAt, hentries, getElem?_erase_eq] at hlt
    by_cases hk : s.key = r.key
    · simp [hk] at hlt
    · rwa [if_neg hk] at hlt
  have hle := Finset.card_le_card hsub
  unfold pending
  rw [taken_schedule he]
  omega

/-- With enough turns a loop ends by itself: its condition fails, or the schedule is empty. A
record moves only to a later access, which `hlater` says of the two loops of the source. -/
theorem schedule_loop_ends (hot : HotEntries) (later : Nat → Nat → Bool)
    (goes_on : CacheIndex → Nat → Bool)
    (hlater : ∀ index count s effective, goes_on index count = true → index.oldest = some s →
      later effective s.last_access_unix_ms = true → s.last_access_unix_ms < effective)
    (turns : Nat) (index : CacheIndex) (count : Nat) (h : index.LoopOk)
    (hturns : pending hot index ≤ turns) :
    goes_on (schedule_loop hot later goes_on turns index count).1
        (count + (schedule_loop hot later goes_on turns index count).2.length) = false ∨
      (schedule_loop hot later goes_on turns index count).1.access_schedule = ∅ := by
  induction turns generalizing index count with
  | zero =>
    right
    unfold pending at hturns
    exact Finset.card_eq_zero.mp (by simp only [schedule_loop]; omega)
  | succ turns ih =>
    rw [schedule_loop]
    by_cases hgo : goes_on index count = true
    · rw [if_pos hgo]
      rcases schedule_turn_cases hot later h with
        ⟨ho, ht⟩ | ⟨s, entry, ho, he, ⟨hl, ht⟩ | ⟨-, ht⟩⟩
      · rw [ht]
        exact Or.inr (oldest_eq_none ho)
      · rw [ht]
        have hpending := kept_pending hot (oldest_mem ho) he
          (hlater index count s _ hgo ho hl)
        exact ih _ count (kept_ok h (oldest_mem ho) he _) (by omega)
      · rw [ht]
        have hpending := taken_pending hot (oldest_mem ho) he
        have hrest := ih _ (count + 1) (taken_ok h (oldest_mem ho) he) (by omega)
        simpa [Nat.add_assoc, Nat.add_comm, Nat.add_left_comm] using hrest
    · rw [if_neg hgo]
      left
      simpa using hgo

end rginx.cache
