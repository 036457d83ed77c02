-- Which entries an eviction takes: each entry has its place in the order of the evictions, and the
-- entries go in that order. A store evicts its own entry when the others have a later place.
import Rginx.EvictionOrder

open tree_maps

namespace rginx.cache

/-! ## The place of an entry -/

/-- The ticket that the schedule gives out after that many others. -/
def ticket_after (count ticket : Nat) : Nat := (fun ticket => saturating_add ticket 1)^[count] ticket

/-- The record with which a key goes: a record that its key has overtaken moves once, when the
smaller ones of its kind have moved. -/
def final_record (hot : HotEntries) (index : CacheIndex) (s : CacheAccessScheduleEntry) :
    CacheAccessScheduleEntry :=
  if s.last_access_unix_ms < effectiveAt hot index s.key then
    ⟨effectiveAt hot index s.key,
      ticket_after ((overtaken hot index).filter (· < s)).card index.maintenance_next_ticket, s.key⟩
  else s

/-- The place of a key in the order of the evictions. -/
def place (hot : HotEntries) (index : CacheIndex) (key : String) : CacheAccessScheduleEntry :=
  match index.access_ticket_by_key[key]? with
  | none => ⟨0, 0, key⟩
  | some ticket => final_record hot index ⟨ticket.last_access_unix_ms, ticket.ticket, key⟩

/-- The bytes of the entries that go before a key. -/
def bytes_before (hot : HotEntries) (index : CacheIndex) (key : String) : Nat :=
  total (fun other entry =>
    if place hot index other < place hot index key then entry.body_size_bytes else 0) index.entries

theorem lt_of_last_access_lt {s r : CacheAccessScheduleEntry}
    (h : s.last_access_unix_ms < r.last_access_unix_ms) : s < r := by
  have hrank : s.rank < r.rank := by
    rw [CacheAccessScheduleEntry.rank, CacheAccessScheduleEntry.rank, Prod.Lex.lt_iff]
    exact .inl h
  exact hrank

section Order

variable {hot : HotEntries} {start : CacheIndex}

@[simp]
theorem final_record_key (s : CacheAccessScheduleEntry) : (final_record hot start s).key = s.key := by
  unfold final_record
  split <;> rfl

theorem le_final_record (s : CacheAccessScheduleEntry) : s ≤ final_record hot start s := by
  unfold final_record
  split
  · rename_i hlt
    exact le_of_lt (lt_of_last_access_lt hlt)
  · exact le_refl s

theorem effective_le_final_record (s : CacheAccessScheduleEntry) :
    effectiveAt hot start s.key ≤ (final_record hot start s).last_access_unix_ms := by
  unfold final_record
  split
  · exact le_refl _
  · rename_i hle
    exact Nat.not_lt.mp hle

theorem place_of_mem (h : start.LoopOk) {s : CacheAccessScheduleEntry}
    (hs : s ∈ start.access_schedule) : place hot start s.key = final_record hot start s := by
  simp only [place, (h.schedule.mem s).mp hs]

/-- What the turns of an eviction keep, against the index it started with: a record is as it was
or has moved to its place, and the records that have moved were smaller than all that are left. -/
structure Follows (hot : HotEntries) (start mid : CacheIndex) : Prop where
  entries : ∀ (key : String) (entry : CacheIndexEntry),
    mid.entries[key]? = some entry → start.entries[key]? = some entry
  record : ∀ r ∈ mid.access_schedule,
    r ∈ start.access_schedule ∨ ∃ s ∈ overtaken hot start, r = final_record hot start s
  ticket : mid.maintenance_next_ticket =
    ticket_after (overtaken hot start \ mid.access_schedule).card start.maintenance_next_ticket
  before : ∀ s ∈ overtaken hot start, s ∉ mid.access_schedule →
    ∀ r ∈ mid.access_schedule, s < r

theorem Follows.refl (start : CacheIndex) : Follows hot start start := by
  have hsub : overtaken hot start \ start.access_schedule = ∅ :=
    Finset.sdiff_eq_empty_iff_subset.mpr (Finset.filter_subset _ _)
  refine ⟨fun _ _ he => he, fun r hr => .inl hr, ?_, fun s hs hnot => ?_⟩
  · rw [hsub]
    rfl
  · exact absurd (Finset.mem_of_mem_filter s hs) hnot

theorem Follows.effective_eq {mid : CacheIndex} (h : Follows hot start mid) {key : String}
    {entry : CacheIndexEntry} (he : mid.entries[key]? = some entry) :
    effectiveAt hot start key = effective_last_access_unix_ms hot key entry :=
  effectiveAt_of_some (h.entries key entry he)

/-- A record is no later than the place of its key. -/
theorem Follows.le_place {mid : CacheIndex} (hstart : start.LoopOk) (h : Follows hot start mid)
    {r : CacheAccessScheduleEntry} (hr : r ∈ mid.access_schedule) : r ≤ place hot start r.key := by
  rcases h.record r hr with hr | ⟨s, hs, rfl⟩
  · rw [place_of_mem hstart hr]
    exact le_final_record r
  · rw [final_record_key, place_of_mem hstart (Finset.mem_of_mem_filter s hs)]

/-- A record that is not overtaken is the place of its key. -/
theorem Follows.eq_place {mid : CacheIndex} (hstart : start.LoopOk) (h : Follows hot start mid)
    {r : CacheAccessScheduleEntry} (hr : r ∈ mid.access_schedule)
    (hdue : effectiveAt hot start r.key ≤ r.last_access_unix_ms) : r = place hot start r.key := by
  rcases h.record r hr with hr | ⟨s, hs, rfl⟩
  · rw [place_of_mem hstart hr, final_record, if_neg (Nat.not_lt.mpr hdue)]
  · rw [final_record_key, place_of_mem hstart (Finset.mem_of_mem_filter s hs)]

/-- A record whose key has overtaken it is as it was. -/
theorem Follows.was_overtaken {mid : CacheIndex} (h : Follows hot start mid)
    {r : CacheAccessScheduleEntry} (hr : r ∈ mid.access_schedule)
    (hlater : r.last_access_unix_ms < effectiveAt hot start r.key) : r ∈ overtaken hot start := by
  rcases h.record r hr with hr | ⟨s, hs, rfl⟩
  · exact Finset.mem_filter.mpr ⟨hr, hlater⟩
  · have hle : effectiveAt hot start s.key ≤ _ := effective_le_final_record s
    rw [final_record_key] at hlater
    omega

/-- The overtaken records that have moved are those below the oldest record, where that has to
move. -/
theorem Follows.moved_before {mid : CacheIndex} (h : Follows hot start mid)
    {s : CacheAccessScheduleEntry} (ho : mid.oldest = some s) :
    overtaken hot start \ mid.access_schedule = (overtaken hot start).filter (· < s) := by
  ext r
  rw [Finset.mem_sdiff, Finset.mem_filter]
  constructor
  · rintro ⟨hr, hnot⟩
    exact ⟨hr, h.before r hr hnot s (oldest_mem ho)⟩
  · rintro ⟨hr, hlt⟩
    exact ⟨hr, fun hin => absurd (oldest_le ho hin) (not_le.mpr hlt)⟩

theorem turns_keep_follows :
    TurnsKeep hot (fun effective scheduled => decide (scheduled < effective))
      (Follows hot start) := by
  constructor
  · intro index s entry h hinv ho he hl
    have hs := oldest_mem ho
    have heff := hinv.effective_eq he
    have hlater : s.last_access_unix_ms < effectiveAt hot start s.key := by
      rw [heff]
      exact of_decide_eq_true hl
    have hover := hinv.was_overtaken hs hlater
    have hmoved := hinv.moved_before ho
    -- The record goes to its place.
    have hfinal : (⟨effective_last_access_unix_ms hot s.key entry, index.maintenance_next_ticket,
        s.key⟩ : CacheAccessScheduleEntry) = final_record hot start s := by
      rw [final_record, if_pos hlater, hinv.ticket, hmoved, heff]
    have hnew : final_record hot start s ∉ overtaken hot start := by
      intro hin
      have hlt := (Finset.mem_filter.mp hin).2
      have hle : effectiveAt hot start s.key ≤ _ := effective_le_final_record s
      rw [final_record_key] at hlt
      omega
    have hgone : overtaken hot start \ (insert (final_record hot start s)
        (index.access_schedule.erase s)) =
          insert s (overtaken hot start \ index.access_schedule) := by
      ext r
      rw [Finset.mem_sdiff, Finset.mem_insert, Finset.mem_erase, Finset.mem_insert,
        Finset.mem_sdiff]
      constructor
      · rintro ⟨hr, hnot⟩
        by_cases hrs : r = s
        · exact .inl hrs
        · exact .inr ⟨hr, fun hin => hnot (.inr ⟨hrs, hin⟩)⟩
      · rintro (rfl | ⟨hr, hnot⟩)
        · refine ⟨hover, ?_⟩
          rintro (heq | ⟨hne, -⟩)
          · exact hnew (heq ▸ hover)
          · exact hne rfl
        · refine ⟨hr, ?_⟩
          rintro (rfl | ⟨-, hin⟩)
          · exact hnew hr
          · exact hnot hin
    refine ⟨hinv.entries, ?_, ?_, ?_⟩
    · intro r hr
      rw [kept_schedule, hfinal, Finset.mem_insert, Finset.mem_erase] at hr
      rcases hr with rfl | ⟨-, hr⟩
      · exact .inr ⟨s, hover, rfl⟩
      · exact hinv.record r hr
    · rw [kept_schedule, hfinal, hgone, Finset.card_insert_of_notMem
        (fun hin => (Finset.mem_sdiff.mp hin).2 hs), ticket_after, Function.iterate_succ_apply',
        ← ticket_after, ← hinv.ticket]
      rfl
    · intro r hr hnot t ht
      have hmem : r ∈ insert s (overtaken hot start \ index.access_schedule) := by
        rw [← hgone, ← hfinal, ← kept_schedule]
        exact Finset.mem_sdiff.mpr ⟨hr, hnot⟩
      have hle : r ≤ s := by
        rcases Finset.mem_insert.mp hmem with rfl | hmem
        · exact le_refl r
        · exact le_of_lt (hinv.before r hr (Finset.mem_sdiff.mp hmem).2 s hs)
      rw [kept_schedule, hfinal, Finset.mem_insert, Finset.mem_erase] at ht
      rcases ht with rfl | ⟨hne, ht⟩
      · have hlt : s < final_record hot start s := by
          rw [← hfinal]
          exact lt_of_last_access_lt (heff ▸ hlater)
        exact lt_of_le_of_lt hle hlt
      · exact lt_of_le_of_lt hle (lt_of_le_of_ne (oldest_le ho ht) (Ne.symm hne))
  · intro index s entry h hinv ho he hl
    have hs := oldest_mem ho
    have hdue : effectiveAt hot start s.key ≤ s.last_access_unix_ms := by
      rw [hinv.effective_eq he]
      exact Nat.not_lt.mp (of_decide_eq_false hl)
    have hnot : s ∉ overtaken hot start := fun hin => absurd (Finset.mem_filter.mp hin).2
      (Nat.not_lt.mpr hdue)
    have hgone : overtaken hot start \ (index.access_schedule.erase s) =
        overtaken hot start \ index.access_schedule := by
      ext r
      rw [Finset.mem_sdiff, Finset.mem_sdiff, Finset.mem_erase]
      constructor
      · rintro ⟨hr, hout⟩
        exact ⟨hr, fun hin => hout ⟨fun hrs => hnot (hrs ▸ hr), hin⟩⟩
      · rintro ⟨hr, hout⟩
        exact ⟨hr, fun hin => hout hin.2⟩
    refine ⟨?_, ?_, ?_, ?_⟩
    · intro key entry' he'
      rw [taken_entries he, getElem?_erase_eq] at he'
      split at he'
      · cases he'
      · exact hinv.entries key entry' he'
    · intro r hr
      rw [taken_schedule he] at hr
      exact hinv.record r (Finset.mem_of_mem_erase hr)
    · rw [taken_schedule he, hgone, ← hinv.ticket]
      simp [taken, CacheIndex.remove_entry, he, CacheIndex.unschedule_entry_access,
        CacheIndex.pop_scheduled]
    · intro r hr hout t ht
      rw [taken_schedule he] at hout ht
      refine hinv.before r hr (fun hin => hout ?_) t (Finset.mem_of_mem_erase ht)
      exact Finset.mem_erase.mpr ⟨fun hrs => hnot (hrs ▸ hr), hin⟩

/-! ## The rows of an eviction -/

variable {max_size_bytes : Nat}

/-- The place of an evicted key, when its row goes: everything there has a later place. -/
theorem evicted_first (h : start.LoopOk) {before rest : List (String × CacheIndexEntry)}
    {row : String × CacheIndexEntry}
    (hrows : (eviction_candidates hot start (some max_size_bytes)).2 = before ++ row :: rest) :
    max_size_bytes < start.current_size_bytes - rowBytes before ∧
      (eraseKeys start.entries (before.map (·.1)))[row.1]? = some row.2 ∧
      ∀ key : String, (eraseKeys start.entries (before.map (·.1)))[key]?.isSome → key ≠ row.1 →
        place hot start row.1 < place hot start key := by
  obtain ⟨mid, s, hmid⟩ := schedule_loop_taken turns_keep_follows h (Follows.refl start) hrows
  rw [← hmid.size, ← hmid.entries]
  refine ⟨of_decide_eq_true hmid.goes, hmid.entry, fun key hkey hne => ?_⟩
  obtain ⟨entry, he⟩ := Option.isSome_iff_exists.mp hkey
  obtain ⟨r, hr, rfl⟩ := hmid.ok.schedule.record he
  have hplace : s = place hot start row.1 := by
    rw [← hmid.key]
    refine hmid.inv.eq_place h (oldest_mem hmid.oldest) ?_
    rw [hmid.key, hmid.inv.effective_eq hmid.entry]
    exact Nat.not_lt.mp (of_decide_eq_false hmid.due)
  have hlt : s < r := by
    refine lt_of_le_of_ne (oldest_le hmid.oldest hr) fun heq => hne ?_
    rw [← heq, hmid.key]
  rw [← hplace]
  exact lt_of_lt_of_le hlt (hmid.inv.le_place h hr)

/-- The rows before an evicted one are those with an earlier place. -/
theorem bytes_before_eq (h : start.LoopOk) {before rest : List (String × CacheIndexEntry)}
    {row : String × CacheIndexEntry}
    (hrows : (eviction_candidates hot start (some max_size_bytes)).2 = before ++ row :: rest) :
    rowBytes before = bytes_before hot start row.1 := by
  obtain ⟨-, hrow, hlater⟩ := evicted_first h hrows
  have hwere : RowsOf start.entries before := by
    have hall := (eviction_candidates_left hot h (some max_size_bytes)).left.were
    rw [hrows] at hall
    exact hall.of_append
  have hsplit := hwere.total fun other entry =>
    if place hot start other < place hot start row.1 then entry.body_size_bytes else 0
  have hrest : total (fun other (entry : CacheIndexEntry) =>
      if place hot start other < place hot start row.1 then entry.body_size_bytes else 0)
        (eraseKeys start.entries (before.map (·.1))) = 0 := by
    rw [total_eq_zero]
    intro key entry he
    by_cases hkey : key = row.1
    · rw [hkey, if_neg (lt_irrefl _)]
    · exact if_neg (not_lt.mpr (le_of_lt (hlater key (by rw [he]; rfl) hkey)))
  have hsum : (before.map fun other =>
      if place hot start other.1 < place hot start row.1 then other.2.body_size_bytes else 0) =
        before.map (·.2.body_size_bytes) := by
    refine List.map_congr_left fun other hother => if_pos ?_
    obtain ⟨front, back, rfl⟩ := List.append_of_mem hother
    rw [List.append_assoc, List.cons_append] at hrows
    have hfirst := (evicted_first h hrows).2.2 row.1
    refine hfirst ?_ ?_
    · rw [getElem?_eraseKeys]
      rw [getElem?_eraseKeys] at hrow
      split at hrow
      · cases hrow
      · rename_i hnot
        rw [if_neg (fun hin => hnot (by
          rw [List.map_append]
          exact List.mem_append_left _ hin)), hrow]
        rfl
    · rintro heq
      rw [getElem?_eraseKeys, if_pos (by rw [heq]; simp)] at hrow
      cases hrow
  rw [bytes_before, ← hsplit, hrest, hsum, Nat.zero_add]
  rfl

/-- An entry is evicted where the size, less the bytes of the entries before it, is too large. -/
theorem evicted_iff (h : start.Ok) {key : String} {entry : CacheIndexEntry}
    (he : start.entries[key]? = some entry) :
    key ∈ (eviction_candidates hot start (some max_size_bytes)).2.map (·.1) ↔
      max_size_bytes < start.current_size_bytes - bytes_before hot start key := by
  constructor
  · intro hmem
    obtain ⟨row, hrow, rfl⟩ := List.mem_map.mp hmem
    obtain ⟨before, rest, hrows⟩ := List.append_of_mem hrow
    rw [← bytes_before_eq h.loop hrows]
    exact (evicted_first h.loop hrows).1
  · intro hbig
    by_contra hnot
    have hleft := eviction_candidates_left hot h.loop (some max_size_bytes)
    have hsize : (eviction_candidates hot start (some max_size_bytes)).1.current_size_bytes =
        start.current_size_bytes -
          rowBytes (eviction_candidates hot start (some max_size_bytes)).2 :=
      (schedule_loop_keeps turns_keep_true _ 0 h.loop trivial).2
    have hstays : (eviction_candidates hot start (some max_size_bytes)).1.entries[key]? =
        some entry := by
      rw [hleft.left.entries, getElem?_eraseKeys, if_neg hnot, he]
    -- The rows that have gone have an earlier place than the key that stays.
    have hsum : ((eviction_candidates hot start (some max_size_bytes)).2.map fun other =>
        if place hot start other.1 < place hot start key then other.2.body_size_bytes else 0) =
          (eviction_candidates hot start (some max_size_bytes)).2.map (·.2.body_size_bytes) := by
      refine List.map_congr_left fun other hother => if_pos ?_
      obtain ⟨before, rest, hrows⟩ := List.append_of_mem hother
      refine (evicted_first h.loop hrows).2.2 key ?_ ?_
      · rw [getElem?_eraseKeys, if_neg, he]
        · rfl
        · intro hin
          refine hnot ?_
          rw [hrows, List.map_append]
          exact List.mem_append_left _ hin
      · rintro rfl
        exact hnot (List.mem_map_of_mem hother)
    have hsplit := hleft.left.were.total fun other entry =>
      if place hot start other < place hot start key then entry.body_size_bytes else 0
    rw [hsum] at hsplit
    have hbefore : rowBytes (eviction_candidates hot start (some max_size_bytes)).2 ≤
        bytes_before hot start key := by
      rw [bytes_before, ← hsplit]
      exact Nat.le_add_left _ _
    rcases an_eviction_ends_within_the_bound hot start h max_size_bytes with hbound | hempty
    · omega
    · obtain ⟨s, hs, -⟩ := hleft.ok.schedule.record hstays
      rw [hempty] at hs
      cases hs

end Order

/-! ## The index of a store before its eviction -/

/-- The keys whose entries make room for a new entry: the replaced key, and the other keys of the
base key with other dimensions. -/
def gone_keys (index : CacheIndex) (key : String) (entry : CacheIndexEntry)
    (replaced_entry : Option (String × CacheIndexEntry)) : List String :=
  replaced_keys index replaced_entry ++ variant_keys_with_different_dimensions index entry key

/-- The index with a new entry in place of those that make room for it, as far as an eviction
reads it. -/
def stored_index (index : CacheIndex) (key : String) (entry : CacheIndexEntry)
    (replaced_entry : Option (String × CacheIndexEntry)) : CacheIndex :=
  let gone := gone_keys index key entry replaced_entry
  let others := (eraseKeys index.entries gone).erase key
  let ticket := index.maintenance_next_ticket
  { index with
    entries := others.insert key entry
    current_size_bytes := saturating_add (bodyBytes others) entry.body_size_bytes
    maintenance_next_ticket := saturating_add ticket 1
    access_schedule :=
      insert ⟨entry.last_access_unix_ms, ticket, key⟩
        (index.access_schedule.filter fun s => s.key ≠ key ∧ s.key ∉ gone)
    access_ticket_by_key :=
      (eraseKeys index.access_ticket_by_key gone).insert key ⟨entry.last_access_unix_ms, ticket⟩ }

section Store

variable {index : CacheIndex} (h : index.Ok) (key : String) (entry : CacheIndexEntry)
  (replaced_entry : Option (String × CacheIndexEntry))

theorem drop_entries_entries (index : CacheIndex) (keys : List String) :
    (drop_entries index keys).1.entries = eraseKeys index.entries keys := by
  induction keys generalizing index with
  | nil => rfl
  | cons key keys ih =>
    rcases he : index.entries[key]? with _ | entry
    · rw [drop_entries_cons_of_none keys he, ih, eraseKeys_cons, erase_of_none _ _ he]
    · rw [drop_entries_cons_of_some keys he, eraseKeys_cons]
      rw [ih, (drop_entry_left he).entries]
      rfl

theorem drop_entry_tickets {index : CacheIndex} {key : String} {entry : CacheIndexEntry}
    (he : index.entries[key]? = some entry) :
    (drop_entry index key).1.access_ticket_by_key = index.access_ticket_by_key.erase key ∧
      (drop_entry index key).1.maintenance_next_ticket = index.maintenance_next_ticket := by
  simp [drop_entry, CacheIndex.remove_with_accounts, CacheIndex.remove_entry, he,
    CacheIndex.unschedule_entry_access, CacheIndex.remove_admission_count]

theorem drop_entries_tickets {index : CacheIndex} (h : index.Ok) (keys : List String) :
    (drop_entries index keys).1.access_ticket_by_key = eraseKeys index.access_ticket_by_key keys ∧
      (drop_entries index keys).1.maintenance_next_ticket = index.maintenance_next_ticket := by
  induction keys generalizing index with
  | nil => exact ⟨rfl, rfl⟩
  | cons key keys ih =>
    rcases he : index.entries[key]? with _ | entry
    · have hticket : index.access_ticket_by_key[key]? = none := by
        have hkeys := h.schedule.keys key
        rw [he] at hkeys
        exact Option.isSome_eq_false_iff.mp hkeys |> Option.isNone_iff_eq_none.mp
      obtain ⟨htickets, hnext⟩ := ih h
      rw [drop_entries_cons_of_none keys he, eraseKeys_cons, erase_of_none _ _ hticket]
      exact ⟨htickets, hnext⟩
    · obtain ⟨htickets, hnext⟩ := ih (drop_entry_ok h key)
      obtain ⟨htickets', hnext'⟩ := drop_entry_tickets he
      rw [drop_entries_cons_of_some keys he, eraseKeys_cons, ← htickets', ← hnext']
      exact ⟨htickets, hnext⟩

theorem mem_variant_keys_with_different_dimensions {index : CacheIndex} (h : index.Ok)
    {entry : CacheIndexEntry} {key other : String} :
    other ∈ variant_keys_with_different_dimensions index entry key ↔
      other ≠ key ∧ ∃ existing, index.entries[other]? = some existing ∧
        existing.base_key = entry.base_key ∧
        sorted_vary_dimension_names existing.vary ≠ sorted_vary_dimension_names entry.vary := by
  rw [variant_keys_with_different_dimensions, List.mem_filter, h.variants.mem]
  rcases he : index.entries[other]? with _ | existing
  · simp
  · simp only [Option.some.injEq, exists_eq_left', Bool.and_eq_true, decide_eq_true_eq]
    tauto

include h

/-- The keys with other dimensions are the same once the replaced key has gone. -/
theorem eraseKeys_gone {β : Type} (m : Map β) :
    eraseKeys (eraseKeys m (replaced_keys index replaced_entry))
        (variant_keys_with_different_dimensions
          (drop_entries index (replaced_keys index replaced_entry)).1 entry key) =
      eraseKeys m (gone_keys index key entry replaced_entry) := by
  apply Std.ExtTreeMap.ext_getElem?
  intro other
  rw [getElem?_eraseKeys, getElem?_eraseKeys, getElem?_eraseKeys]
  have hiff : other ∈ variant_keys_with_different_dimensions
      (drop_entries index (replaced_keys index replaced_entry)).1 entry key ↔
        other ∉ replaced_keys index replaced_entry ∧
          other ∈ variant_keys_with_different_dimensions index entry key := by
    rw [mem_variant_keys_with_different_dimensions (drop_entries_ok h _),
      mem_variant_keys_with_different_dimensions h, drop_entries_entries, getElem?_eraseKeys]
    by_cases hin : other ∈ replaced_keys index replaced_entry
    · simp [hin]
    · simp [hin]
  simp only [gone_keys, List.mem_append, hiff]
  by_cases hin : other ∈ replaced_keys index replaced_entry
  · simp [hin]
  · simp [hin]

theorem before_insert_entries :
    (before_insert index key entry replaced_entry).entries =
      eraseKeys index.entries (gone_keys index key entry replaced_entry) := by
  rw [before_insert, drop_entries_entries, drop_entries_entries]
  exact eraseKeys_gone h key entry replaced_entry _

theorem after_insert_entries :
    (after_insert index key entry replaced_entry).entries =
      (stored_index index key entry replaced_entry).entries := by
  show (before_insert index key entry replaced_entry).entries.insert key entry = _
  rw [before_insert_entries h]
  apply Std.ExtTreeMap.ext_getElem?
  intro other
  simp only [stored_index, getElem?_insert_eq, getElem?_erase_eq]
  by_cases hkey : key = other
  · simp [hkey]
  · simp [hkey]

theorem after_insert_tickets :
    (after_insert index key entry replaced_entry).access_ticket_by_key =
        (stored_index index key entry replaced_entry).access_ticket_by_key ∧
      (after_insert index key entry replaced_entry).maintenance_next_ticket =
        (stored_index index key entry replaced_entry).maintenance_next_ticket := by
  obtain ⟨hreplaced, hnext⟩ := drop_entries_tickets h (replaced_keys index replaced_entry)
  obtain ⟨hother, hnext'⟩ := drop_entries_tickets
    (drop_entries_ok h (replaced_keys index replaced_entry))
    (variant_keys_with_different_dimensions
      (drop_entries index (replaced_keys index replaced_entry)).1 entry key)
  have hbefore : (before_insert index key entry replaced_entry).access_ticket_by_key =
      eraseKeys index.access_ticket_by_key (gone_keys index key entry replaced_entry) := by
    rw [before_insert, hother, hreplaced]
    exact eraseKeys_gone h key entry replaced_entry _
  have hticket : (before_insert index key entry replaced_entry).maintenance_next_ticket =
      index.maintenance_next_ticket := hnext'.trans hnext
  have hafter : (after_insert index key entry replaced_entry).access_ticket_by_key =
      ((before_insert index key entry replaced_entry).access_ticket_by_key.erase key).insert key
        ⟨entry.last_access_unix_ms,
          (before_insert index key entry replaced_entry).maintenance_next_ticket⟩ := rfl
  refine ⟨?_, ?_⟩
  · rw [hafter, hbefore, hticket]
    apply Std.ExtTreeMap.ext_getElem?
    intro other
    simp only [stored_index, getElem?_insert_eq, getElem?_erase_eq]
    by_cases hkey : key = other
    · simp [hkey]
    · simp [hkey]
  · show saturating_add (before_insert index key entry replaced_entry).maintenance_next_ticket 1 = _
    rw [hticket]
    rfl

theorem after_insert_schedule :
    (after_insert index key entry replaced_entry).access_schedule =
      (stored_index index key entry replaced_entry).access_schedule := by
  ext s
  rw [(after_insert_ok h key entry replaced_entry).schedule.mem,
    (after_insert_tickets h key entry replaced_entry).1]
  simp only [stored_index, getElem?_insert_eq, getElem?_eraseKeys, Finset.mem_insert,
    Finset.mem_filter, h.schedule.mem]
  obtain ⟨last, ticket, name⟩ := s
  by_cases hkey : key = name
  · simp [hkey, eq_comm]
  · by_cases hgone : name ∈ gone_keys index key entry replaced_entry
    · simp [hkey, hgone, Ne.symm hkey]
    · simp [hkey, hgone, Ne.symm hkey]

theorem after_insert_current (hsize : index.SizeOk) :
    (after_insert index key entry replaced_entry).current_size_bytes =
      (stored_index index key entry replaced_entry).current_size_bytes := by
  have hbefore : (before_insert index key entry replaced_entry).current_size_bytes =
      bodyBytes (before_insert index key entry replaced_entry).entries :=
    before_insert_size hsize key entry replaced_entry
  have hentries := before_insert_entries h key entry replaced_entry
  simp only [stored_index]
  rw [← hentries]
  rcases he : (before_insert index key entry replaced_entry).entries[key]? with _ | existing
  · have hcurrent : (after_insert index key entry replaced_entry).current_size_bytes =
        saturating_add (before_insert index key entry replaced_entry).current_size_bytes
          entry.body_size_bytes := by
      simp [after_insert, CacheIndex.insert_with_accounts, CacheIndex.insert_entry, he,
        CacheIndex.schedule_entry_access, CacheIndex.unschedule_entry_access,
        CacheIndex.remove_admission_count]
    rw [hcurrent, hbefore, erase_of_none _ _ he]
  · have hcurrent : (after_insert index key entry replaced_entry).current_size_bytes =
        saturating_add ((before_insert index key entry replaced_entry).current_size_bytes -
          existing.body_size_bytes) entry.body_size_bytes := by
      simp [after_insert, CacheIndex.insert_with_accounts, CacheIndex.insert_entry, he,
        CacheIndex.schedule_entry_access, CacheIndex.unschedule_entry_access,
        CacheIndex.remove_admission_count]
    rw [hcurrent, hbefore, bodyBytes_erase _ key existing he, Nat.add_sub_cancel]

end Store

/-! ## The hashes that a store reports -/

/-- Some entry has the hash. -/
def CacheIndex.Referenced (index : CacheIndex) (hash : String) : Prop :=
  ∃ (key : String) (entry : CacheIndexEntry), index.entries[key]? = some entry ∧ entry.hash = hash

/-- A store reports each hash that it leaves without an entry, its own hash among them, and no
reported hash that is filtered out by its references still has an entry. -/
def ReportsDereferenced (index : CacheIndex) (hash : String) (update : StoreUpdate) : Prop :=
  (∀ other, index.Referenced other ∨ other = hash → ¬ update.index.Referenced other →
    other ∈ update.removed_hashes) ∧
  ∀ other ∈ update.removed_hashes, update.index.hash_is_referenced other = false →
    ¬ update.index.Referenced other

/-- An entry with the new hash finds room with all the entries that go after it. -/
def NewHashStays (hot : HotEntries) (max_size_bytes : Option Nat) (index : CacheIndex)
    (key : String) (entry : CacheIndexEntry)
    (replaced_entry : Option (String × CacheIndexEntry)) : Prop :=
  let stored := stored_index index key entry replaced_entry
  ∀ max_size, max_size_bytes = some max_size →
    ∃ (other : String) (found : CacheIndexEntry), stored.entries[other]? = some found ∧
      found.hash = entry.hash ∧
      stored.current_size_bytes - bytes_before hot stored other ≤ max_size

theorem referenced_iff {index : CacheIndex} (h : index.Ok) (hash : String) :
    index.hash_is_referenced hash = true ↔ index.Referenced hash := by
  rw [CacheIndex.hash_is_referenced, decide_eq_true_iff, h.refs.count, references_pos]
  exact Iff.rfl

/-- A row that was in the index is among those that left, or still there. -/
theorem RowsLeft.gone_or_left {index left : CacheIndex} {rows : List (String × CacheIndexEntry)}
    (h : RowsLeft index left rows) {key : String} {entry : CacheIndexEntry}
    (he : index.entries[key]? = some entry) :
    (key, entry) ∈ rows ∨ left.entries[key]? = some entry := by
  by_cases hin : key ∈ rows.map (·.1)
  · obtain ⟨row, hrow, rfl⟩ := List.mem_map.mp hin
    have hsame := h.were.getElem? hrow
    rw [he] at hsame
    obtain rfl := Option.some.inj hsame
    exact .inl hrow
  · rw [h.entries, getElem?_eraseKeys, if_neg hin]
    exact .inr he

theorem place_congr {hot : HotEntries} {index index' : CacheIndex}
    (hentries : index.entries = index'.entries)
    (hschedule : index.access_schedule = index'.access_schedule)
    (htickets : index.access_ticket_by_key = index'.access_ticket_by_key)
    (hnext : index.maintenance_next_ticket = index'.maintenance_next_ticket) :
    bytes_before hot index = bytes_before hot index' := by
  have heffective : effectiveAt hot index = effectiveAt hot index' := by
    funext key
    simp only [effectiveAt, hentries]
  have hplace : place hot index = place hot index' := by
    funext key
    simp only [place, final_record, overtaken, heffective, hschedule, htickets, hnext]
  funext key
  simp only [bytes_before, hplace, hentries]

section Reported

variable (hot : HotEntries) (max_size_bytes : Option Nat) {index : CacheIndex} (h : index.Ok)
  (key : String) (entry : CacheIndexEntry) (replaced_entry : Option (String × CacheIndexEntry))

include h

/-- The new hash keeps an entry where one of its entries is not evicted. -/
theorem new_hash_referenced_iff (hsize : index.SizeOk) :
    (update_index_after_store hot max_size_bytes index key entry
        replaced_entry).index.Referenced entry.hash ↔
      NewHashStays hot max_size_bytes index key entry replaced_entry := by
  have hok := after_insert_ok h key entry replaced_entry
  have hleft := eviction_candidates_left hot hok.loop max_size_bytes
  have hentries := after_insert_entries h key entry replaced_entry
  have hcurrent := after_insert_current h key entry replaced_entry hsize
  obtain ⟨htickets, hnext⟩ := after_insert_tickets h key entry replaced_entry
  have hbefore : bytes_before hot _ = bytes_before hot _ := place_congr hentries
    (after_insert_schedule h key entry replaced_entry) htickets hnext
  rw [update_index_after_store_index]
  unfold CacheIndex.Referenced NewHashStays
  simp only [settled, hleft.left.entries, getElem?_eraseKeys]
  rw [← hentries, ← hcurrent, ← hbefore]
  cases max_size_bytes with
  | none =>
    refine iff_of_true ⟨key, entry, ?_, rfl⟩ fun _ hnone => by cases hnone
    rw [if_neg (by simp [eviction_candidates])]
    show (Std.ExtTreeMap.insert _ key entry)[key]? = some entry
    rw [getElem?_insert_eq, if_pos rfl]
  | some max_size =>
    constructor
    · rintro ⟨other, found, hfound, hhash⟩ max_size' hmax
      obtain rfl := Option.some.inj hmax
      split at hfound
      · cases hfound
      · rename_i hnot
        rw [evicted_iff hok hfound] at hnot
        exact ⟨other, found, hfound, hhash, Nat.not_lt.mp hnot⟩
    · intro hstays
      obtain ⟨other, found, hfound, hhash, hroom⟩ := hstays max_size rfl
      refine ⟨other, found, ?_, hhash⟩
      rw [if_neg (fun hin => absurd ((evicted_iff hok hfound).mp hin) (Nat.not_lt.mpr hroom))]
      exact hfound

omit h in
/-- A row that goes is reported by its hash. -/
theorem hash_reported {row : String × CacheIndexEntry} (hother : row.2.hash ≠ entry.hash)
    (hgone : row ∈ (drop_entries index (replaced_keys index replaced_entry)).2 ∨
      row ∈ (drop_entries (drop_entries index (replaced_keys index replaced_entry)).1
        (variant_keys_with_different_dimensions
          (drop_entries index (replaced_keys index replaced_entry)).1 entry key)).2 ∨
      (row.1 = key ∧ (before_insert index key entry replaced_entry).entries[key]? = some row.2) ∨
      row ∈ (eviction_candidates hot (after_insert index key entry replaced_entry)
        max_size_bytes).2) :
    row.2.hash ∈ (update_index_after_store hot max_size_bytes index key entry
      replaced_entry).removed_hashes := by
  refine List.mem_toFinset.mpr (List.mem_filter.mpr ⟨?_, by simpa using hother⟩)
  refine List.mem_map_of_mem (f := fun row : String × CacheIndexEntry => row.2.hash) ?_
  rcases hgone with hreplaced | hincompatible | ⟨rfl, hfound⟩ | hevicted
  · exact List.mem_append_left _ (List.mem_append_left _ (List.mem_append_left _ hreplaced))
  · exact List.mem_append_left _ (List.mem_append_left _ (List.mem_append_right _ hincompatible))
  · refine List.mem_append_left _ (List.mem_append_right _ ?_)
    simp only [before_insert] at hfound
    rw [hfound]
    exact List.mem_singleton_self row
  · exact List.mem_append_right _ hevicted

/-- The other hashes are reported in any case. -/
theorem other_hashes_reported {other : String} (hother : other ≠ entry.hash)
    (hwas : index.Referenced other)
    (hnot : ¬ (update_index_after_store hot max_size_bytes index key entry
      replaced_entry).index.Referenced other) :
    other ∈ (update_index_after_store hot max_size_bytes index key entry
      replaced_entry).removed_hashes := by
  obtain ⟨name, found, hfound, rfl⟩ := hwas
  have hok := after_insert_ok h key entry replaced_entry
  have hleft := settled_left (eviction_candidates_left hot hok.loop max_size_bytes)
  have hreported := @hash_reported hot max_size_bytes index key entry replaced_entry
    (name, found) hother
  rw [update_index_after_store_index] at hnot
  rcases (drop_entries_left index (replaced_keys index replaced_entry)).gone_or_left hfound with
    hgone | hfound
  · exact hreported (.inl hgone)
  rcases (drop_entries_left _ (variant_keys_with_different_dimensions
    (drop_entries index (replaced_keys index replaced_entry)).1 entry key)).gone_or_left hfound with
    hgone | hfound
  · exact hreported (.inr (.inl hgone))
  have hfound : (before_insert index key entry replaced_entry).entries[name]? = some found := hfound
  by_cases hkey : key = name
  · subst hkey
    exact hreported (.inr (.inr (.inl ⟨rfl, hfound⟩)))
  · have hafter : (after_insert index key entry replaced_entry).entries[name]? = some found := by
      show (Std.ExtTreeMap.insert _ key entry)[name]? = some found
      rw [getElem?_insert_eq, if_neg hkey]
      exact hfound
    rcases hleft.gone_or_left hafter with hgone | hfound
    · exact hreported (.inr (.inr (.inr hgone)))
    · exact absurd ⟨name, found, hfound, rfl⟩ hnot

end Reported

/-- A store reports every hash that it leaves without an entry exactly where an entry with its own
hash is not evicted: its own hash is never reported. -/
theorem dereferenced_hashes_reported_iff (hot : HotEntries) (max_size_bytes : Option Nat)
    (index : CacheIndex) (h : index.Ok) (hsize : index.SizeOk) (key : String)
    (entry : CacheIndexEntry) (replaced_entry : Option (String × CacheIndexEntry)) :
    ReportsDereferenced index entry.hash
        (update_index_after_store hot max_size_bytes index key entry replaced_entry) ↔
      NewHashStays hot max_size_bytes index key entry replaced_entry := by
  rw [← new_hash_referenced_iff hot max_size_bytes h key entry replaced_entry hsize]
  constructor
  · intro hreports
    by_contra hnot
    have hin := hreports.1 entry.hash (.inr rfl) hnot
    have hne := (List.mem_filter.mp (List.mem_toFinset.mp hin)).2
    simp at hne
  · intro hstays
    refine ⟨fun other hwas hnot => ?_, fun other _ hfree href => ?_⟩
    · have hother : other ≠ entry.hash := by
        rintro rfl
        exact hnot hstays
      exact other_hashes_reported hot max_size_bytes h key entry replaced_entry hother
        (hwas.resolve_right hother) hnot
    · have hok := LocalCall.run_ok h (.store hot max_size_bytes key entry replaced_entry)
      have hreferenced := (referenced_iff hok other).mpr href
      exact absurd (hfree.symm.trans hreferenced) Bool.false_ne_true

/-- An index of one entry that was accessed late. -/
def lateEntry : CacheIndex := (CacheIndex.default.insert_with_accounts "a" (tenBytes "a" 5)).1

theorem lateEntry_ok : lateEntry.Ok := insert_with_accounts_ok default_ok _ _

theorem lateEntry_size : lateEntry.SizeOk :=
  insert_with_accounts_size default_size _ _ (by decide)

/-- With room for both, the new hash stays. -/
theorem dereferenced_hashes_reported_room :
    ReportsDereferenced lateEntry "b"
      (update_index_after_store ∅ (some 25) lateEntry "b" (tenBytes "b" 1) none) :=
  (dereferenced_hashes_reported_iff ∅ (some 25) lateEntry lateEntry_ok lateEntry_size "b"
    (tenBytes "b" 1) none).mpr
    fun max_size hmax => ⟨"b", tenBytes "b" 1, by decide, rfl, by
      obtain rfl := Option.some.inj hmax
      decide⟩

/-- The store of an older entry evicts the entry itself, and does not report its hash. -/
theorem evicted_new_hash_unreported :
    lateEntry.Ok ∧ lateEntry.SizeOk ∧
      ¬ ReportsDereferenced lateEntry "b"
        (update_index_after_store ∅ (some 15) lateEntry "b" (tenBytes "b" 1) none) := by
  refine ⟨lateEntry_ok, lateEntry_size, fun ⟨hreports, _⟩ => ?_⟩
  have hok := LocalCall.run_ok lateEntry_ok (.store ∅ (some 15) "b" (tenBytes "b" 1) none)
  have hin := hreports "b" (.inr rfl) fun href =>
    absurd ((referenced_iff hok "b").mpr href) (by decide)
  exact absurd hin (by decide)

end rginx.cache
