-- The cleanup of inactive entries, `cleanup_inactive_entries_in_zone` of `store/maintenance/mod.rs`:
-- batch after batch until nothing is due.
import Rginx.EvictionOrder

open tree_maps

namespace rginx.cache

/-! ## The cleanup of a zone -/

/-- What the cleanup of a zone reads and leaves: the configuration, the index with its hot state,
the time of the last cleanup, and the operations that are published. -/
structure CleanupZone where
  inactive_ms : Nat
  inactive_cleanup_interval_ms : Nat
  manager_batch_entries : Nat
  last_inactive_cleanup_unix_ms : Nat
  index : CacheIndex
  hot_entries : HotEntries
  shared_operations : List SharedIndexOperation

/-- `zone.config.manager_batch_entries.max(1)`. -/
def CleanupZone.batch_size (zone : CleanupZone) : Nat := max zone.manager_batch_entries 1

/-- One round of the loop. The files of the removed entries are in `cleanup_inactive_files`. -/
def cleanup_round (now : Nat) (zone : CleanupZone) :
    CleanupZone × List (String × CacheIndexEntry) × Bool :=
  let (index, operations, removed, has_more_due) :=
    cleanup_inactive_batch zone.hot_entries zone.index now zone.inactive_ms
      zone.manager_batch_entries
  ({ zone with
      index
      hot_entries := eraseKeys zone.hot_entries (removed.map (·.1))
      shared_operations := zone.shared_operations ++ operations },
    removed, has_more_due)

/-- The loop, with the rows of each of its rounds. The first argument bounds the rounds. -/
def cleanup_loop (now : Nat) :
    Nat → CleanupZone → CleanupZone × List (List (String × CacheIndexEntry))
  | 0, zone => (zone, [])
  | rounds + 1, zone =>
    let (zone, removed, has_more_due) := cleanup_round now zone
    if has_more_due then
      let (zone, batches) := cleanup_loop now rounds zone
      (zone, removed :: batches)
    else (zone, [removed])

/-- As many rounds as full batches, and one more. -/
def enough_rounds (zone : CleanupZone) : Nat := zone.index.entries.size / zone.batch_size + 1

/-- The last cleanup was less than an interval ago. -/
def CleanupZone.CleanedRecently (zone : CleanupZone) (now : Nat) : Prop :=
  zone.last_inactive_cleanup_unix_ms ≠ 0 ∧
    now - zone.last_inactive_cleanup_unix_ms < zone.inactive_cleanup_interval_ms

instance (zone : CleanupZone) (now : Nat) : Decidable (zone.CleanedRecently now) :=
  inferInstanceAs (Decidable (_ ∧ _))

def cleanup_inactive_entries_in_zone (now : Nat) (zone : CleanupZone) :
    CleanupZone × List (List (String × CacheIndexEntry)) :=
  if zone.CleanedRecently now then (zone, [])
  else
    let zone := { zone with last_inactive_cleanup_unix_ms := now }
    cleanup_loop now (enough_rounds zone) zone

/-! ## One batch -/

/-- What a batch may do: the removed entries were inactive and no more than a batch, the rest is
kept, and there is more to do only after a full batch. -/
structure BatchOk (hot : HotEntries) (index : CacheIndex) (now inactive_ms batch_size : Nat)
    (left : CacheIndex) (removed : List (String × CacheIndexEntry)) (has_more_due : Bool) :
    Prop where
  inactive : ∀ row ∈ removed, index.entries[row.1]? = some row.2 ∧
    inactive_ms < now - effective_last_access_unix_ms hot row.1 row.2
  few : removed.length ≤ batch_size
  entries : ∀ key : String, left.entries[key]? =
    if key ∈ removed.map (·.1) then none else index.entries[key]?
  admission : ∀ key : String, left.admission_counts[key]? =
    if key ∈ removed.map (·.1) then none else index.admission_counts[key]?
  size : left.current_size_bytes + rowBytes removed = index.current_size_bytes
  full : has_more_due = true → removed.length = batch_size

/-- A record moves only to a later access: below the cutoff nothing is active. -/
theorem moves_later {now inactive_ms batch_size : Nat} {index : CacheIndex} {count : Nat}
    {s : CacheAccessScheduleEntry} {effective : Nat}
    (hgo : (decide (count < batch_size) && oldest_is_due (now - inactive_ms) index) = true)
    (ho : index.oldest = some s)
    (hl : (decide (s.last_access_unix_ms < effective) || decide (now - effective ≤ inactive_ms)) =
      true) : s.last_access_unix_ms < effective := by
  simp only [Bool.and_eq_true, decide_eq_true_eq, Bool.or_eq_true, oldest_is_due,
    CacheIndex.oldest_scheduled_access_unix_ms, ho, Option.map_some] at hgo hl
  omega

section Batch

variable (hot : HotEntries) {index : CacheIndex} (h : index.Ok) (hsize : index.SizeOk)
  (now inactive_ms : Nat) {batch_size : Nat} (hbatch : 1 ≤ batch_size)

/-- The loop of a batch. -/
def batch_loop (hot : HotEntries) (now inactive_ms batch_size turns : Nat) (index : CacheIndex) :
    CacheIndex × List (String × CacheIndexEntry) :=
  schedule_loop hot
    (fun effective scheduled =>
      decide (scheduled < effective) || decide (now - effective ≤ inactive_ms))
    (fun index count => decide (count < batch_size) && oldest_is_due (now - inactive_ms) index)
    turns index 0

include hbatch

theorem inactive_cleanup_candidates_eq :
    inactive_cleanup_candidates hot index now inactive_ms batch_size =
      let left := batch_loop hot now inactive_ms batch_size (enough_turns index) index
      (left.1, left.2, oldest_is_due (now - inactive_ms) left.1) := by
  unfold inactive_cleanup_candidates
  rw [if_neg (by omega)]
  rfl

include h in
/-- A batch ends by itself. -/
theorem batch_loop_ends {turns : Nat} (hturns : enough_turns index ≤ turns) :
    batch_loop hot now inactive_ms batch_size turns index =
      ((inactive_cleanup_candidates hot index now inactive_ms batch_size).1,
        (inactive_cleanup_candidates hot index now inactive_ms batch_size).2.1) := by
  rw [inactive_cleanup_candidates_eq hot now inactive_ms hbatch]
  exact schedule_loop_more (fun _ _ _ _ hgo ho hl => moves_later hgo ho hl) h.loop
    (pending_le hot index) hturns

include h hsize in
theorem inactive_cleanup_candidates_batch :
    let left := inactive_cleanup_candidates hot index now inactive_ms batch_size
    BatchOk hot index now inactive_ms batch_size left.1 left.2.1 left.2.2 := by
  intro left
  have hleft : LoopLeft index left.1 left.2.1 :=
    inactive_cleanup_candidates_left hot h.loop now inactive_ms batch_size
  have hrows : left.2.1 =
      (batch_loop hot now inactive_ms batch_size (enough_turns index) index).2 := by
    rw [batch_loop_ends hot h now inactive_ms hbatch (le_refl _)]
  have htaken := fun {before rest row} (hsplit : left.2.1 = before ++ row :: rest) =>
    schedule_loop_taken turns_keep_true h.loop trivial (hrows.symm.trans hsplit)
  have hfew : left.2.1.length ≤ batch_size := by
    rcases List.eq_nil_or_concat' left.2.1 with hnil | ⟨before, row, hlast⟩
    · simp [hnil]
    · obtain ⟨mid, s, hmid⟩ := htaken hlast
      have hgoes := hmid.goes
      simp only [Nat.zero_add, Bool.and_eq_true, decide_eq_true_eq] at hgoes
      rw [hlast, List.length_append, List.length_singleton]
      omega
  refine ⟨fun row hrow => ⟨hleft.left.were.getElem? hrow, ?_⟩, hfew, fun key => ?_, fun key => ?_,
    ?_, fun hmore => ?_⟩
  · obtain ⟨before, rest, hsplit⟩ := List.append_of_mem hrow
    obtain ⟨mid, s, hmid⟩ := htaken hsplit
    have hdue := hmid.due
    simp only [Bool.or_eq_false_iff, decide_eq_false_iff_not, not_le] at hdue
    exact hdue.2
  · rw [hleft.left.entries, getElem?_eraseKeys]
  · rw [hleft.left.admission, getElem?_eraseKeys]
  · rw [hleft.size hsize, hsize, hleft.left.entries]
    exact hleft.left.were.total fun _ entry => entry.body_size_bytes
  · rcases a_cleanup_batch_ends hot index h now inactive_ms batch_size hbatch with hfull | hdone
    · exact le_antisymm hfew hfull
    · exact absurd (hdone.symm.trans hmore) Bool.false_ne_true

end Batch

/-! ## All the rounds -/

/-- A round is a batch, and it leaves an index in order. -/
theorem cleanup_round_batch (now : Nat) {zone : CleanupZone} (h : zone.index.Ok)
    (hsize : zone.index.SizeOk) :
    let left := cleanup_round now zone
    BatchOk zone.hot_entries zone.index now zone.inactive_ms zone.batch_size left.1.index left.2.1
        left.2.2 ∧
      left.1.index.Ok ∧ left.1.index.SizeOk ∧ RowsLeft zone.index left.1.index left.2.1 ∧
      left.2.2 = oldest_is_due (now - zone.inactive_ms) left.1.index := by
  intro left
  have hone : 1 ≤ zone.batch_size := le_max_right _ _
  have hbatch := inactive_cleanup_candidates_batch zone.hot_entries h hsize now zone.inactive_ms hone
  have hleft := inactive_cleanup_candidates_left zone.hot_entries h.loop now zone.inactive_ms
    zone.batch_size
  have hindex : left.1.index = settled
      (inactive_cleanup_candidates zone.hot_entries zone.index now zone.inactive_ms
        zone.batch_size).1
      (inactive_cleanup_candidates zone.hot_entries zone.index now zone.inactive_ms
        zone.batch_size).2.1 :=
    cleanup_inactive_batch_index zone.hot_entries h.loop now zone.inactive_ms
      zone.manager_batch_entries
  have hrows : RowsLeft zone.index left.1.index left.2.1 := by
    rw [hindex]
    exact settled_left hleft
  refine ⟨⟨hbatch.inactive, hbatch.few, hbatch.entries, fun key => ?_, hbatch.size, hbatch.full⟩,
    ?_, ?_, hrows, ?_⟩
  · rw [hrows.admission, getElem?_eraseKeys]
  · rw [hindex]
    exact settled_ok h hleft
  · rw [hindex]
    exact hleft.size hsize
  · calc left.2.2
        = (inactive_cleanup_candidates zone.hot_entries zone.index now zone.inactive_ms
            zone.batch_size).2.2 := rfl
      _ = oldest_is_due (now - zone.inactive_ms)
            (inactive_cleanup_candidates zone.hot_entries zone.index now zone.inactive_ms
              zone.batch_size).1 := by
          rw [inactive_cleanup_candidates_eq zone.hot_entries now zone.inactive_ms hone]
      _ = oldest_is_due (now - zone.inactive_ms) left.1.index := by
          rw [hindex]
          rfl

theorem not_due_iff {index : CacheIndex} {cutoff : Nat} :
    oldest_is_due cutoff index = false ↔
      ∀ s ∈ index.access_schedule, cutoff ≤ s.last_access_unix_ms := by
  unfold oldest_is_due CacheIndex.oldest_scheduled_access_unix_ms
  rcases ho : index.oldest with _ | oldest
  · simp [oldest_eq_none ho]
  · simp only [Option.map_some, decide_eq_false_iff_not, not_lt]
    constructor
    · intro hcutoff s hs
      exact hcutoff.trans (last_access_le_of_le (oldest_le ho hs))
    · exact fun hall => hall oldest (oldest_mem ho)

/-- What the rounds of a cleanup leave: nothing due, after no more rounds than enough, and only
inactive entries have gone. -/
structure CleanupEnds (now : Nat) (zone left : CleanupZone)
    (batches : List (List (String × CacheIndexEntry))) : Prop where
  few : batches.length ≤ zone.index.entries.size / zone.batch_size + 1
  inactive : ∀ rows ∈ batches, ∀ row ∈ rows, zone.index.entries[row.1]? = some row.2 ∧
    zone.inactive_ms < now - effective_last_access_unix_ms zone.hot_entries row.1 row.2
  notDue : ∀ s ∈ left.index.access_schedule, now - zone.inactive_ms ≤ s.last_access_unix_ms
  ok : left.index.Ok
  size : left.index.SizeOk

/-- A full batch leaves one round less to go. -/
theorem enough_rounds_of_full {now : Nat} {zone : CleanupZone} (h : zone.index.Ok)
    (hsize : zone.index.SizeOk) (hmore : (cleanup_round now zone).2.2 = true) :
    enough_rounds (cleanup_round now zone).1 + 1 = enough_rounds zone := by
  obtain ⟨hbatch, -, -, hrows, -⟩ := cleanup_round_batch now h hsize
  have hcount := hrows.were.size
  rw [← hrows.entries, hbatch.full hmore] at hcount
  have hone : 0 < zone.batch_size := Nat.lt_of_lt_of_le Nat.zero_lt_one (le_max_right _ _)
  unfold enough_rounds
  rw [← hcount, show (cleanup_round now zone).1.batch_size = zone.batch_size from rfl,
    Nat.add_div_right _ hone]

theorem cleanup_loop_ends (now : Nat) {rounds : Nat} {zone : CleanupZone} (h : zone.index.Ok)
    (hsize : zone.index.SizeOk) (hrounds : enough_rounds zone ≤ rounds) :
    cleanup_loop now rounds zone = cleanup_loop now (enough_rounds zone) zone ∧
      CleanupEnds now zone (cleanup_loop now rounds zone).1 (cleanup_loop now rounds zone).2 := by
  induction rounds generalizing zone with
  | zero => exact absurd hrounds (Nat.not_succ_le_zero _)
  | succ rounds ih =>
    obtain ⟨hbatch, hok, hsize', hrows, hdue⟩ := cleanup_round_batch now h hsize
    have henough : enough_rounds zone = zone.index.entries.size / zone.batch_size + 1 := rfl
    rw [cleanup_loop, henough, cleanup_loop]
    by_cases hmore : (cleanup_round now zone).2.2 = true
    · have hless := enough_rounds_of_full h hsize hmore
      simp only [hmore, if_true]
      obtain ⟨hsame, hends⟩ := ih hok hsize' (by omega)
      have hfuel : zone.index.entries.size / zone.batch_size =
          enough_rounds (cleanup_round now zone).1 := by omega
      refine ⟨by rw [hfuel, hsame], ?_, ?_, hends.notDue, hends.ok, hends.size⟩
      · have hfew := hends.few
        rw [List.length_cons, hfuel]
        exact Nat.succ_le_succ hfew
      · intro rows hmem row hrow
        rcases List.mem_cons.mp hmem with rfl | hmem
        · exact hbatch.inactive row hrow
        · -- A later row was no row of this round, so its hot state is as it was.
          obtain ⟨hthere, hinactive⟩ := hends.inactive rows hmem row hrow
          have hentry := hbatch.entries row.1
          rw [hthere] at hentry
          have hnot : row.1 ∉ (cleanup_round now zone).2.1.map (·.1) := by
            intro hin
            rw [if_pos hin] at hentry
            cases hentry
          rw [if_neg hnot] at hentry
          have hhot : effective_last_access_unix_ms (cleanup_round now zone).1.hot_entries row.1
              row.2 = effective_last_access_unix_ms zone.hot_entries row.1 row.2 := by
            have hstate : (cleanup_round now zone).1.hot_entries[row.1]? =
                zone.hot_entries[row.1]? := by
              show (eraseKeys zone.hot_entries _)[row.1]? = _
              rw [getElem?_eraseKeys]
              exact if_neg hnot
            simp only [effective_last_access_unix_ms, hstate]
          exact ⟨hentry.symm, hhot ▸ hinactive⟩
    · simp only [hmore, if_neg, Bool.false_eq_true, not_false_eq_true]
      refine ⟨trivial, ?_, ?_, ?_, hok, hsize'⟩
      · rw [List.length_singleton]
        exact Nat.le_add_left 1 _
      · intro rows hmem row hrow
        rw [List.mem_singleton.mp hmem] at hrow
        exact hbatch.inactive row hrow
      · exact not_due_iff.mp (hdue.symm.trans (Bool.eq_false_iff.mpr hmore))

/-- The cleanup ends. A batch ends by itself and takes only inactive entries, no more than its
size; the batches of a zone end after one for each full batch of entries, and nothing is due then. -/
theorem inactive_cleanup_ends (zone : CleanupZone) (h : zone.index.Ok) (hsize : zone.index.SizeOk)
    (now : Nat) :
    (∀ (hot : HotEntries) (inactive_ms batch_size : Nat), 1 ≤ batch_size →
      let left := inactive_cleanup_candidates hot zone.index now inactive_ms batch_size
      (∀ turns, enough_turns zone.index ≤ turns →
        batch_loop hot now inactive_ms batch_size turns zone.index = (left.1, left.2.1)) ∧
      BatchOk hot zone.index now inactive_ms batch_size left.1 left.2.1 left.2.2 ∧
      left.1.variants = zone.index.variants) ∧
    (∀ rounds, enough_rounds zone ≤ rounds →
      cleanup_loop now rounds zone = cleanup_loop now (enough_rounds zone) zone) ∧
    (¬ zone.CleanedRecently now →
      CleanupEnds now zone (cleanup_inactive_entries_in_zone now zone).1
        (cleanup_inactive_entries_in_zone now zone).2) := by
  refine ⟨fun hot inactive_ms batch_size hbatch => ⟨fun turns hturns => ?_, ?_, ?_⟩,
    fun rounds hrounds => ?_, fun hlong => ?_⟩
  · exact batch_loop_ends hot h now inactive_ms hbatch hturns
  · exact inactive_cleanup_candidates_batch hot h hsize now inactive_ms hbatch
  · exact (inactive_cleanup_candidates_left hot h.loop now inactive_ms batch_size).variants
  · exact (cleanup_loop_ends now h hsize hrounds).1
  · unfold cleanup_inactive_entries_in_zone
    rw [if_neg hlong]
    have hstarted : ({ zone with last_inactive_cleanup_unix_ms := now } : CleanupZone).index.Ok := h
    obtain ⟨-, hends⟩ := cleanup_loop_ends now hstarted hsize (le_refl _)
    exact ⟨hends.few, hends.inactive, hends.notDue, hends.ok, hends.size⟩

/-- A zone of the two entries, with batches of one. -/
def twoEntriesZone : CleanupZone := ⟨10, 5, 1, 0, twoEntries, hotFirst, []⟩

/-- The entry that was accessed again stays. -/
theorem inactive_cleanup_ends_two :
    (cleanup_inactive_entries_in_zone 14 twoEntriesZone).2.length ≤ 3 ∧
      (cleanup_inactive_entries_in_zone 14 twoEntriesZone).1.index.entries.contains "a" = true :=
  ⟨((inactive_cleanup_ends twoEntriesZone twoEntries_ok twoEntries_size 14).2.2 (by decide)).few,
    by decide⟩

end rginx.cache
