-- The order in which the loops over the schedule take entries: what holds when an entry goes, and
-- what an eviction leaves behind.
import Rginx.IndexRuns

open tree_maps

namespace rginx.cache

/-! ## When an entry goes -/

/-- The index after the record of a key has been moved. -/
abbrev moved (index : CacheIndex) (s : CacheAccessScheduleEntry) (last_access_unix_ms : Nat) :
    CacheIndex :=
  (index.pop_scheduled s).schedule_entry_access s.key last_access_unix_ms

theorem oldest_le {index : CacheIndex} {s r : CacheAccessScheduleEntry}
    (hs : index.oldest = some s) (hr : r ∈ index.access_schedule) : s ≤ r := by
  unfold CacheIndex.oldest at hs
  split at hs
  · obtain rfl := Option.some.inj hs
    exact Finset.min'_le _ _ hr
  · cases hs

theorem last_access_le_of_le {s r : CacheAccessScheduleEntry} (h : s ≤ r) :
    s.last_access_unix_ms ≤ r.last_access_unix_ms := by
  have hrank : s.rank ≤ r.rank := h
  rw [CacheAccessScheduleEntry.rank, CacheAccessScheduleEntry.rank, Prod.Lex.le_iff] at hrank
  rcases hrank with hlt | ⟨heq, -⟩
  · exact le_of_lt hlt
  · exact le_of_eq heq

/-- Every entry has a record. -/
theorem ScheduleOk.record {entries : Map CacheIndexEntry}
    {schedule : Finset CacheAccessScheduleEntry} {tickets : Map CacheAccessScheduleTicket}
    (h : ScheduleOk entries schedule tickets) {key : String} {entry : CacheIndexEntry}
    (he : entries[key]? = some entry) : ∃ s ∈ schedule, s.key = key := by
  have hkeys := h.keys key
  rw [he] at hkeys
  obtain ⟨ticket, hticket⟩ := Option.isSome_iff_exists.mp hkeys
  exact ⟨⟨ticket.last_access_unix_ms, ticket.ticket, key⟩, (h.mem _).mpr hticket, rfl⟩

/-- A key has one record. -/
theorem ScheduleOk.unique {entries : Map CacheIndexEntry}
    {schedule : Finset CacheAccessScheduleEntry} {tickets : Map CacheAccessScheduleTicket}
    (h : ScheduleOk entries schedule tickets) {s r : CacheAccessScheduleEntry}
    (hs : s ∈ schedule) (hr : r ∈ schedule) (hkey : s.key = r.key) : s = r := by
  have hsame := (h.mem r).mp hr
  rw [← hkey, (h.mem s).mp hs] at hsame
  obtain ⟨htime, hticket⟩ := CacheAccessScheduleTicket.mk.inj (Option.some.inj hsame)
  obtain ⟨last, ticket, key⟩ := s
  obtain ⟨last', ticket', key'⟩ := r
  simp only at hkey htime hticket
  rw [hkey, htime, hticket]

/-- The bytes of some rows. -/
def rowBytes (rows : List (String × CacheIndexEntry)) : Nat :=
  (rows.map (·.2.body_size_bytes)).sum

theorem taken_current {index : CacheIndex} {s : CacheAccessScheduleEntry}
    {entry : CacheIndexEntry} (he : index.entries[s.key]? = some entry) :
    (taken index s entry).current_size_bytes =
      index.current_size_bytes - entry.body_size_bytes := by
  simp [taken, CacheIndex.remove_entry, he, CacheIndex.unschedule_entry_access,
    CacheIndex.pop_scheduled]

theorem taken_entries {index : CacheIndex} {s : CacheAccessScheduleEntry}
    {entry : CacheIndexEntry} (he : index.entries[s.key]? = some entry) :
    (taken index s entry).entries = index.entries.erase s.key := by
  simpa using (taken_left he).entries

section Loop

variable {hot : HotEntries} {later : Nat → Nat → Bool} {goes_on : CacheIndex → Nat → Bool}
  {Inv : CacheIndex → Prop}

/-- The turns of a loop keep a fact about the index. -/
structure TurnsKeep (hot : HotEntries) (later : Nat → Nat → Bool) (Inv : CacheIndex → Prop) :
    Prop where
  kept : ∀ {index : CacheIndex} {s : CacheAccessScheduleEntry} {entry : CacheIndexEntry},
    index.LoopOk → Inv index → index.oldest = some s → index.entries[s.key]? = some entry →
    later (effective_last_access_unix_ms hot s.key entry) s.last_access_unix_ms = true →
    Inv (moved index s (effective_last_access_unix_ms hot s.key entry))
  taken : ∀ {index : CacheIndex} {s : CacheAccessScheduleEntry} {entry : CacheIndexEntry},
    index.LoopOk → Inv index → index.oldest = some s → index.entries[s.key]? = some entry →
    later (effective_last_access_unix_ms hot s.key entry) s.last_access_unix_ms = false →
    Inv (taken index s entry)

theorem turns_keep_true : TurnsKeep hot later fun _ => True :=
  ⟨fun _ _ _ _ _ => trivial, fun _ _ _ _ _ => trivial⟩

/-- The state in which a loop takes the entry of a row, when the rows before it have gone. -/
structure TakenIn (hot : HotEntries) (later : Nat → Nat → Bool)
    (goes_on : CacheIndex → Nat → Bool) (Inv : CacheIndex → Prop) (index : CacheIndex)
    (count : Nat) (before : List (String × CacheIndexEntry)) (row : String × CacheIndexEntry)
    (mid : CacheIndex) (s : CacheAccessScheduleEntry) : Prop where
  ok : mid.LoopOk
  inv : Inv mid
  oldest : mid.oldest = some s
  key : s.key = row.1
  entry : mid.entries[row.1]? = some row.2
  due : later (effective_last_access_unix_ms hot row.1 row.2) s.last_access_unix_ms = false
  goes : goes_on mid (count + before.length) = true
  entries : mid.entries = eraseKeys index.entries (before.map (·.1))
  size : mid.current_size_bytes = index.current_size_bytes - rowBytes before

/-- The rows of a loop went one after the other, each in a state of its own. -/
theorem schedule_loop_taken (hkeep : TurnsKeep hot later Inv) {turns : Nat} {index : CacheIndex}
    {count : Nat} (h : index.LoopOk) (hinv : Inv index)
    {before rest : List (String × CacheIndexEntry)} {row : String × CacheIndexEntry}
    (hrows : (schedule_loop hot later goes_on turns index count).2 = before ++ row :: rest) :
    ∃ mid s, TakenIn hot later goes_on Inv index count before row mid s := by
  induction turns generalizing index count before with
  | zero => simp [schedule_loop] at hrows
  | succ turns ih =>
    rw [schedule_loop] at hrows
    by_cases hgo : goes_on index count = true
    · rw [if_pos hgo] at hrows
      rcases schedule_turn_cases hot later h with
        ⟨-, ht⟩ | ⟨s, entry, ho, he, ⟨hl, ht⟩ | ⟨hl, ht⟩⟩
      · simp [ht] at hrows
      · rw [ht] at hrows
        obtain ⟨mid, t, hmid⟩ :=
          ih (kept_ok h (oldest_mem ho) he _) (hkeep.kept h hinv ho he hl) hrows
        exact ⟨mid, t, hmid.ok, hmid.inv, hmid.oldest, hmid.key, hmid.entry, hmid.due, hmid.goes,
          hmid.entries, hmid.size⟩
      · rw [ht] at hrows
        cases before with
        | nil =>
          obtain ⟨rfl, -⟩ := List.cons.inj hrows
          exact ⟨index, s, h, hinv, ho, rfl, he, hl, hgo, rfl, rfl⟩
        | cons first before =>
          obtain ⟨rfl, hrest⟩ := List.cons.inj hrows
          obtain ⟨mid, t, hmid⟩ :=
            ih (taken_ok h (oldest_mem ho) he) (hkeep.taken h hinv ho he hl) hrest
          refine ⟨mid, t, hmid.ok, hmid.inv, hmid.oldest, hmid.key, hmid.entry, hmid.due, ?_, ?_, ?_⟩
          · rw [List.length_cons, Nat.add_comm before.length, ← Nat.add_assoc]
            exact hmid.goes
          · rw [hmid.entries, taken_entries he, List.map_cons, eraseKeys_cons]
          · rw [hmid.size, taken_current he, Nat.sub_sub]
            rfl
    · simp [hgo] at hrows

/-- What the turns keep holds in the end, and the size has lost the bytes of the rows. -/
theorem schedule_loop_keeps (hkeep : TurnsKeep hot later Inv) {index : CacheIndex}
    (turns count : Nat) (h : index.LoopOk) (hinv : Inv index) :
    Inv (schedule_loop hot later goes_on turns index count).1 ∧
      (schedule_loop hot later goes_on turns index count).1.current_size_bytes =
        index.current_size_bytes -
          rowBytes (schedule_loop hot later goes_on turns index count).2 := by
  induction turns generalizing index count with
  | zero => exact ⟨hinv, rfl⟩
  | succ turns ih =>
    rw [schedule_loop]
    split
    · rcases schedule_turn_cases hot later h with
        ⟨-, ht⟩ | ⟨s, entry, ho, he, ⟨hl, ht⟩ | ⟨hl, ht⟩⟩
      · rw [ht]
        exact ⟨hinv, rfl⟩
      · rw [ht]
        exact ih count (kept_ok h (oldest_mem ho) he _) (hkeep.kept h hinv ho he hl)
      · rw [ht]
        obtain ⟨hfinal, hsize⟩ :=
          ih (count + 1) (taken_ok h (oldest_mem ho) he) (hkeep.taken h hinv ho he hl)
        refine ⟨hfinal, ?_⟩
        dsimp only
        rw [hsize, taken_current he, Nat.sub_sub]
        rfl
    · exact ⟨hinv, rfl⟩

/-- More turns than enough change nothing. -/
theorem schedule_loop_more
    (hlater : ∀ index count s effective, goes_on index count = true → index.oldest = some s →
      later effective s.last_access_unix_ms = true → s.last_access_unix_ms < effective)
    {turns more count : Nat} {index : CacheIndex} (h : index.LoopOk)
    (hturns : pending hot index ≤ turns) (hmore : turns ≤ more) :
    schedule_loop hot later goes_on more index count =
      schedule_loop hot later goes_on turns index count := by
  induction turns generalizing index count more with
  | zero =>
    have hnone : index.access_schedule = ∅ := by
      unfold pending at hturns
      exact Finset.card_eq_zero.mp (by omega)
    have ho : index.oldest = none := by simp [CacheIndex.oldest, hnone]
    cases more with
    | zero => rfl
    | succ more =>
      rcases schedule_turn_cases hot later h with ⟨-, ht⟩ | ⟨s, entry, ho', -⟩
      · simp [schedule_loop, ht]
      · rw [ho] at ho'
        cases ho'
  | succ turns ih =>
    obtain ⟨more, rfl⟩ : ∃ n, more = n + 1 := ⟨more - 1, by omega⟩
    rw [schedule_loop, schedule_loop]
    by_cases hgo : goes_on index count = true
    · rw [if_pos hgo, if_pos hgo]
      rcases schedule_turn_cases hot later h with
        ⟨-, ht⟩ | ⟨s, entry, ho, he, ⟨hl, ht⟩ | ⟨-, ht⟩⟩
      · rw [ht]
      · have hpending := kept_pending hot (oldest_mem ho) he (hlater index count s _ hgo ho hl)
        rw [ht]
        exact ih (kept_ok h (oldest_mem ho) he _) (by omega) (by omega)
      · have hpending := taken_pending hot (oldest_mem ho) he
        rw [ht]
        dsimp only
        rw [ih (taken_ok h (oldest_mem ho) he) (by omega) (by omega)]
    · rw [if_neg hgo, if_neg hgo]

end Loop

/-! ## Eviction -/

/-- No key is scheduled later than its effective last access. -/
def Timely (hot : HotEntries) (index : CacheIndex) : Prop :=
  ∀ s ∈ index.access_schedule, s.last_access_unix_ms ≤ effectiveAt hot index s.key

instance (hot : HotEntries) (index : CacheIndex) : Decidable (Timely hot index) :=
  inferInstanceAs (Decidable (∀ s ∈ index.access_schedule, _))

theorem effectiveAt_of_some {hot : HotEntries} {index : CacheIndex} {key : String}
    {entry : CacheIndexEntry} (he : index.entries[key]? = some entry) :
    effectiveAt hot index key = effective_last_access_unix_ms hot key entry := by
  simp [effectiveAt, he]

theorem turns_keep_timely (hot : HotEntries) (later : Nat → Nat → Bool) :
    TurnsKeep hot later (Timely hot) := by
  constructor
  · intro index s entry h hinv ho he _ r hr
    rw [kept_schedule, Finset.mem_insert, Finset.mem_erase] at hr
    rcases hr with rfl | ⟨-, hr⟩
    · exact le_of_eq (effectiveAt_of_some he).symm
    · exact hinv r hr
  · intro index s entry h hinv ho he _ r hr
    rw [taken_schedule he, Finset.mem_erase] at hr
    have hother : s.key ≠ r.key := fun hkey =>
      hr.1 (h.schedule.unique (oldest_mem ho) hr.2 hkey).symm
    have hsame : effectiveAt hot (taken index s entry) r.key = effectiveAt hot index r.key := by
      simp [effectiveAt, taken_entries he, getElem?_erase_eq, hother]
    rw [hsame]
    exact hinv r hr.2

/-- An index whose schedule is empty has no bytes. -/
theorem size_of_empty_schedule {index : CacheIndex} (h : index.LoopOk) (hsize : index.SizeOk)
    (hempty : index.access_schedule = ∅) : index.current_size_bytes = 0 := by
  rw [hsize, bodyBytes, total_eq_zero]
  intro key entry he
  obtain ⟨s, hs, -⟩ := h.schedule.record he
  simp [hempty] at hs

/-- Eviction is sufficient, minimal and oldest first. It ends, the size is then within the bound and
was above it before each entry went, and no entry that stays was accessed before one that goes. -/
theorem eviction_goes_by_access (hot : HotEntries) (index : CacheIndex) (h : index.Ok)
    (hsize : index.SizeOk) (htimely : Timely hot index) (max_size_bytes : Nat) :
    let left := (eviction_candidates hot index (some max_size_bytes)).1
    let evicted := (eviction_candidates hot index (some max_size_bytes)).2
    (∀ turns, enough_turns index ≤ turns →
      schedule_loop hot (fun effective scheduled => decide (scheduled < effective))
        (fun index _ => decide (max_size_bytes < index.current_size_bytes)) turns index 0 =
          (left, evicted)) ∧
    RowsLeft index left evicted ∧
    left.current_size_bytes ≤ max_size_bytes ∧
    (∀ before row rest, evicted = before ++ row :: rest →
      max_size_bytes < index.current_size_bytes - rowBytes before) ∧
    ∀ row ∈ evicted, ∀ (key : String) (entry : CacheIndexEntry),
      left.entries[key]? = some entry →
        effective_last_access_unix_ms hot row.1 row.2 ≤
          effective_last_access_unix_ms hot key entry := by
  intro left evicted
  have hleft := eviction_candidates_left hot h.loop (some max_size_bytes)
  have htaken := fun {before rest row} (hrows : evicted = before ++ row :: rest) =>
    schedule_loop_taken (turns_keep_timely hot _) h.loop htimely hrows
  refine ⟨fun turns hturns => ?_, hleft.left, ?_, ?_, ?_⟩
  · exact schedule_loop_more (fun _ _ _ _ _ _ hl => by simpa using hl) h.loop
      (pending_le hot index) hturns
  · rcases an_eviction_ends_within_the_bound hot index h max_size_bytes with hbound | hempty
    · exact hbound
    · rw [show left.current_size_bytes = 0 from
        size_of_empty_schedule hleft.ok (hleft.size hsize) hempty]
      exact Nat.zero_le _
  · intro before row rest hrows
    obtain ⟨mid, s, hmid⟩ := htaken hrows
    rw [← hmid.size]
    exact of_decide_eq_true hmid.goes
  · intro row hrow key entry he
    obtain ⟨before, rest, hrows⟩ := List.append_of_mem hrow
    obtain ⟨mid, s, hmid⟩ := htaken hrows
    -- What is left was there when the row went, with a record no older than its record.
    have hthere : mid.entries[key]? = some entry := by
      have hall : left.entries = eraseKeys index.entries (evicted.map (·.1)) := hleft.left.entries
      rw [hall, getElem?_eraseKeys] at he
      rw [hmid.entries, getElem?_eraseKeys]
      split at he
      · cases he
      · rename_i hnot
        rw [if_neg (fun hin => hnot (by rw [hrows, List.map_append]; exact List.mem_append_left _ hin))]
        exact he
    obtain ⟨r, hr, rfl⟩ := hmid.ok.schedule.record hthere
    calc effective_last_access_unix_ms hot row.1 row.2
        ≤ s.last_access_unix_ms := by simpa using hmid.due
      _ ≤ r.last_access_unix_ms := last_access_le_of_le (oldest_le hmid.oldest hr)
      _ ≤ effectiveAt hot mid r.key := hmid.inv r hr
      _ = effective_last_access_unix_ms hot r.key entry := effectiveAt_of_some hthere

/-- An index of two entries, stored one after the other. -/
def twoEntries : CacheIndex :=
  ((CacheIndex.default.insert_with_accounts "a" (tenBytes "a" 1)).1.insert_with_accounts "b"
    (tenBytes "b" 2)).1

theorem twoEntries_ok : twoEntries.Ok :=
  insert_with_accounts_ok (insert_with_accounts_ok default_ok _ _) _ _

theorem twoEntries_size : twoEntries.SizeOk :=
  insert_with_accounts_size (insert_with_accounts_size default_size _ _ (by decide)) _ _ (by decide)

/-- The first entry has been accessed again. -/
def hotFirst : HotEntries := (∅ : HotEntries).insert "a" ⟨5, 0⟩

/-- The second entry goes. -/
theorem eviction_goes_by_access_hot :
    (eviction_candidates hotFirst twoEntries (some 15)).1.current_size_bytes ≤ 15 ∧
      (eviction_candidates hotFirst twoEntries (some 15)).2.map (·.1) = ["b"] :=
  ⟨(eviction_goes_by_access hotFirst twoEntries twoEntries_ok twoEntries_size (by decide)
    15).2.2.1, by decide⟩

end rginx.cache
