-- The representation invariant of an index. The entries are the truth, and
-- four records beside them agree with it: the reference counts, the variants,
-- the schedule and the size. Each part is stated for the maps it is about, so
-- that a step that leaves those maps alone keeps the part for free.
import Rginx.CacheIndex

open tree_maps

namespace rginx.cache

/-! ## The four parts -/

/-- How many entries have the hash. -/
def references (entries : Map CacheIndexEntry) (hash : String) : Nat :=
  total (fun _ entry => if entry.hash = hash then 1 else 0) entries

/-- The sum of the body sizes. -/
def bodyBytes (entries : Map CacheIndexEntry) : Nat :=
  total (fun _ entry => entry.body_size_bytes) entries

/-- A hash has its number of entries as its count, and no count is zero. -/
structure HashRefsOk (entries : Map CacheIndexEntry) (counts : Map Nat) : Prop where
  count : ∀ hash, counts.getD hash 0 = references entries hash
  positive : ∀ hash : String, counts[hash]? ≠ some 0

/-- A base key lists the keys of its entries, each once, and has a list only when it has an
entry. -/
structure VariantsOk (entries : Map CacheIndexEntry) (variants : Map (List String)) : Prop where
  nodup : ∀ base, (variants.getD base []).Nodup
  nonempty : ∀ base : String, variants[base]? ≠ some []
  mem : ∀ base key, key ∈ variants.getD base [] ↔
    ∃ entry, entries[key]? = some entry ∧ entry.base_key = base

/-- The schedule and the tickets say the same, and they are about the keys of the entries. -/
structure ScheduleOk (entries : Map CacheIndexEntry)
    (schedule : Finset CacheAccessScheduleEntry) (tickets : Map CacheAccessScheduleTicket) :
    Prop where
  mem : ∀ s, s ∈ schedule ↔ tickets[s.key]? = some ⟨s.last_access_unix_ms, s.ticket⟩
  keys : ∀ key : String, tickets[key]?.isSome = entries[key]?.isSome

/-- The parts of the invariant that hold whatever the sizes are. -/
structure CacheIndex.Ok (index : CacheIndex) : Prop where
  refs : HashRefsOk index.entries index.hash_ref_counts
  variants : VariantsOk index.entries index.variants
  schedule : ScheduleOk index.entries index.access_schedule index.access_ticket_by_key

/-- The size is the sum of the body sizes. -/
def CacheIndex.SizeOk (index : CacheIndex) : Prop :=
  index.current_size_bytes = bodyBytes index.entries

/-! ## The reference counts -/

theorem references_erase (entries : Map CacheIndexEntry) (key hash : String)
    (entry : CacheIndexEntry) (he : entries[key]? = some entry) :
    references entries hash =
      references (entries.erase key) hash + if entry.hash = hash then 1 else 0 := by
  have h := total_erase (fun _ e => if e.hash = hash then 1 else 0) entries key
  rw [share, he] at h
  exact h.symm

theorem references_insert (entries : Map CacheIndexEntry) (key hash : String)
    (entry : CacheIndexEntry) :
    references (entries.insert key entry) hash =
      references (entries.erase key) hash + if entry.hash = hash then 1 else 0 :=
  total_insert _ entries key entry

/-- A hash has a reference exactly when some entry has the hash. -/
theorem references_pos (entries : Map CacheIndexEntry) (hash : String) :
    0 < references entries hash ↔
      ∃ (key : String) (entry : CacheIndexEntry),
        entries[key]? = some entry ∧ entry.hash = hash := by
  rw [Nat.pos_iff_ne_zero, ne_eq, references, total_eq_zero]
  push Not
  constructor
  · rintro ⟨key, entry, he, hne⟩
    exact ⟨key, entry, he, by by_contra hh; simp [hh] at hne⟩
  · rintro ⟨key, entry, he, hh⟩
    exact ⟨key, entry, he, by simp [hh]⟩

theorem getD_eq (m : Map Nat) (key : String) : m.getD key 0 = m[key]?.getD 0 :=
  Std.ExtTreeMap.getD_eq_getD_getElem?

theorem decrement_hash_ref_ok {entries : Map CacheIndexEntry} {counts : Map Nat}
    (h : HashRefsOk entries counts) {key : String} {entry : CacheIndexEntry}
    (he : entries[key]? = some entry) :
    HashRefsOk (entries.erase key) (decrement_hash_ref counts entry.hash) := by
  have hhash := h.count entry.hash
  rw [references_erase entries key entry.hash entry he, getD_eq] at hhash
  rcases hc : counts[entry.hash]? with _ | count
  · simp [hc] at hhash
  · simp only [hc, Option.getD_some, if_true] at hhash
    simp only [decrement_hash_ref, hc]
    constructor
    · intro hash
      have hcount := h.count hash
      rw [references_erase entries key hash entry he, getD_eq] at hcount
      rw [getD_eq]
      split
      · rw [getElem?_erase_eq]
        by_cases hh : entry.hash = hash
        · subst hh; simp; omega
        · simpa [hh] using hcount
      · rw [getElem?_insert_eq]
        by_cases hh : entry.hash = hash
        · subst hh; simp; omega
        · simpa [hh] using hcount
    · intro hash
      split
      · rw [getElem?_erase_eq]
        split
        · simp
        · exact h.positive hash
      · rw [getElem?_insert_eq]
        split
        · simpa using ‹¬count - 1 = 0›
        · exact h.positive hash

theorem increment_hash_ref_ok {entries : Map CacheIndexEntry} {counts : Map Nat} {key : String}
    (h : HashRefsOk (entries.erase key) counts) (entry : CacheIndexEntry) :
    HashRefsOk (entries.insert key entry) (increment_hash_ref counts entry.hash) := by
  constructor
  · intro hash
    rw [getD_eq, increment_hash_ref, getElem?_insert_eq, references_insert, ← h.count hash]
    by_cases hh : entry.hash = hash
    · subst hh; simp
    · simp [hh, getD_eq]
  · intro hash
    rw [increment_hash_ref, getElem?_insert_eq]
    split
    · simp
    · exact h.positive hash

/-! ## The variants -/

theorem getD_list_eq (m : Map (List String)) (key : String) : m.getD key [] = m[key]?.getD [] :=
  Std.ExtTreeMap.getD_eq_getD_getElem?

/-- The keys under a base key after one key left one base key. -/
theorem getD_remove_variant_key (variants : Map (List String)) (base base' key : String) :
    (remove_variant_key variants base key).getD base' [] =
      if base = base' then (variants.getD base []).filter (· ≠ key)
      else variants.getD base' [] := by
  unfold remove_variant_key
  simp only [getD_list_eq]
  rcases hv : variants[base]? with _ | keys
  · by_cases hb : base = base'
    · simp [← hb, hv]
    · simp [hb]
  · dsimp only
    split
    · rename_i hnil
      rw [getElem?_erase_eq]
      split
      · simp [← hnil]
      · rfl
    · rw [getElem?_insert_eq]
      split <;> simp

theorem getD_add_variant_key (variants : Map (List String)) (base base' key : String) :
    (add_variant_key variants base key).getD base' [] =
      if base = base' then
        if key ∈ variants.getD base [] then variants.getD base []
        else variants.getD base [] ++ [key]
      else variants.getD base' [] := by
  unfold add_variant_key
  rw [getD_list_eq, getElem?_insert_eq]
  split <;> simp [getD_list_eq]

theorem remove_variant_key_ne_nil {variants : Map (List String)}
    (h : ∀ base : String, variants[base]? ≠ some []) (base base' key : String) :
    (remove_variant_key variants base key)[base']? ≠ some [] := by
  unfold remove_variant_key
  rcases variants[base]? with _ | keys
  · exact h base'
  · dsimp only
    split
    · rw [getElem?_erase_eq]
      split
      · simp
      · exact h base'
    · rw [getElem?_insert_eq]
      split
      · simpa using ‹¬keys.filter (· ≠ key) = []›
      · exact h base'

theorem remove_variant_key_ok {entries : Map CacheIndexEntry} {variants : Map (List String)}
    (h : VariantsOk entries variants) {key : String} {entry : CacheIndexEntry}
    (he : entries[key]? = some entry) :
    VariantsOk (entries.erase key) (remove_variant_key variants entry.base_key key) := by
  constructor
  · intro base
    rw [getD_remove_variant_key]
    split
    · exact (h.nodup _).filter _
    · exact h.nodup base
  · intro base
    exact remove_variant_key_ne_nil h.nonempty _ _ _
  · intro base k
    rw [getD_remove_variant_key, getElem?_erase_eq]
    have hmem := h.mem base k
    by_cases hk : key = k
    · subst hk
      -- The key is listed under its own base key only, and there it has gone.
      rw [he] at hmem
      by_cases hb : entry.base_key = base
      · simp [hb]
      · simpa [hb] using hmem
    · by_cases hb : entry.base_key = base
      · subst hb
        simpa [hk, Ne.symm hk] using hmem
      · simpa [hb, hk] using hmem

theorem add_variant_key_ok {entries : Map CacheIndexEntry} {variants : Map (List String)}
    {key : String} (h : VariantsOk (entries.erase key) variants) (entry : CacheIndexEntry) :
    VariantsOk (entries.insert key entry) (add_variant_key variants entry.base_key key) := by
  have hnot : ∀ base, key ∉ variants.getD base [] := by
    intro base hm
    obtain ⟨e, he, -⟩ := (h.mem base key).mp hm
    simp at he
  constructor
  · intro base
    rw [getD_add_variant_key, if_neg (hnot _)]
    split
    · rw [List.nodup_append]
      refine ⟨h.nodup _, List.nodup_singleton key, ?_⟩
      intro a ha b hb hab
      simp only [List.mem_singleton] at hb
      subst hab hb
      exact hnot _ ha
    · exact h.nodup base
  · intro base
    rw [add_variant_key, getElem?_insert_eq, if_neg (hnot _)]
    split
    · simp
    · exact h.nonempty base
  · intro base k
    rw [getD_add_variant_key, if_neg (hnot _), getElem?_insert_eq]
    have hmem := h.mem base k
    rw [getElem?_erase_eq] at hmem
    by_cases hk : key = k
    · subst hk
      by_cases hb : entry.base_key = base
      · simp [hb]
      · simpa [hb] using hnot base
    · by_cases hb : entry.base_key = base
      · subst hb
        simpa [hk, Ne.symm hk] using hmem
      · simpa [hb, hk] using hmem

/-! ## The schedule -/

theorem unschedule_entry_access_ok {index : CacheIndex} {entries : Map CacheIndexEntry}
    (h : ScheduleOk entries index.access_schedule index.access_ticket_by_key) (key : String) :
    ScheduleOk (entries.erase key) (index.unschedule_entry_access key).access_schedule
      (index.unschedule_entry_access key).access_ticket_by_key := by
  constructor
  · intro s
    simp only [CacheIndex.unschedule_entry_access, getElem?_erase_eq]
    have hmem := h.mem s
    rcases ht : index.access_ticket_by_key[key]? with _ | t
    · by_cases hk : key = s.key
      · rw [← hk, ht] at hmem
        simpa [hk] using hmem
      · simpa [hk] using hmem
    · by_cases hk : key = s.key
      · subst hk
        rw [ht] at hmem
        simp only [Finset.mem_erase, if_true, reduceCtorEq, iff_false, not_and]
        intro hne hs
        have := hmem.mp hs
        simp only [Option.some.injEq] at this
        exact hne (by rw [this])
      · rw [Finset.mem_erase, if_neg hk, ← hmem, and_iff_right_iff_imp]
        intro _ hs
        exact hk (by rw [hs])
  · intro k
    simp only [CacheIndex.unschedule_entry_access, getElem?_erase_eq]
    split
    · rfl
    · exact h.keys k

theorem schedule_entry_access_ok {index : CacheIndex} {entries : Map CacheIndexEntry}
    (h : ScheduleOk entries index.access_schedule index.access_ticket_by_key) (key : String)
    (entry : CacheIndexEntry) (last_access_unix_ms : Nat) :
    ScheduleOk (entries.insert key entry)
      (index.schedule_entry_access key last_access_unix_ms).access_schedule
      (index.schedule_entry_access key last_access_unix_ms).access_ticket_by_key := by
  have hun := unschedule_entry_access_ok h key
  constructor
  · intro s
    simp only [CacheIndex.schedule_entry_access, Finset.mem_insert, getElem?_insert_eq]
    have hmem := hun.mem s
    by_cases hk : key = s.key
    · -- The only record of the key is the new one: the old one left with the ticket.
      have hout : s ∉ (index.unschedule_entry_access key).access_schedule := by
        rw [hmem]
        simp [CacheIndex.unschedule_entry_access, ← hk]
      obtain ⟨a, t, k⟩ := s
      dsimp only at hk
      subst hk
      simp [hout, eq_comm]
    · rw [hmem, if_neg hk]
      have hne : s ≠ ⟨last_access_unix_ms,
          (index.unschedule_entry_access key).maintenance_next_ticket, key⟩ := by
        intro hs
        exact hk (by rw [hs])
      simp [hne]
  · intro k
    simp only [CacheIndex.schedule_entry_access, getElem?_insert_eq]
    have hkeys := hun.keys k
    rw [getElem?_erase_eq] at hkeys
    split
    · rfl
    · rename_i hk
      rw [hkeys, if_neg hk]

/-- A record that leaves the schedule takes its key out of it. -/
theorem pop_scheduled_ok {index : CacheIndex} {entries : Map CacheIndexEntry}
    (h : ScheduleOk entries index.access_schedule index.access_ticket_by_key)
    {s : CacheAccessScheduleEntry} (hs : s ∈ index.access_schedule) :
    ScheduleOk (entries.erase s.key) (index.pop_scheduled s).access_schedule
      (index.pop_scheduled s).access_ticket_by_key := by
  have hun := unschedule_entry_access_ok h s.key
  have hticket := (h.mem s).mp hs
  simpa [CacheIndex.unschedule_entry_access, CacheIndex.pop_scheduled, hticket] using hun

/-! ## The size -/

theorem bodyBytes_erase (entries : Map CacheIndexEntry) (key : String) (entry : CacheIndexEntry)
    (he : entries[key]? = some entry) :
    bodyBytes entries = bodyBytes (entries.erase key) + entry.body_size_bytes := by
  have h := total_erase (fun _ e => e.body_size_bytes) entries key
  rw [share, he] at h
  exact h.symm

theorem bodyBytes_insert (entries : Map CacheIndexEntry) (key : String)
    (entry : CacheIndexEntry) :
    bodyBytes (entries.insert key entry) =
      bodyBytes (entries.erase key) + entry.body_size_bytes :=
  total_insert _ entries key entry

theorem saturating_add_eq {a b : Nat} (h : a + b ≤ U64_MAX) : saturating_add a b = a + b :=
  min_eq_left h

/-! ## What the operations do to the entries -/

@[simp]
theorem insert_with_accounts_entries (index : CacheIndex) (key : String)
    (entry : CacheIndexEntry) :
    (index.insert_with_accounts key entry).1.entries = index.entries.insert key entry := rfl

theorem remove_entry_of_none {index : CacheIndex} {key : String}
    (he : index.entries[key]? = none) : index.remove_entry key = (index, none) := by
  simp [CacheIndex.remove_entry, he]

theorem remove_with_accounts_of_none {index : CacheIndex} {key : String}
    (he : index.entries[key]? = none) : index.remove_with_accounts key = (index, none) := by
  simp [CacheIndex.remove_with_accounts, remove_entry_of_none he]

@[simp]
theorem remove_with_accounts_snd (index : CacheIndex) (key : String) :
    (index.remove_with_accounts key).2 = index.entries[key]? := by
  rcases he : index.entries[key]? with _ | entry
  · rw [remove_with_accounts_of_none he]
  · simp [CacheIndex.remove_with_accounts, CacheIndex.remove_entry, he]

@[simp]
theorem remove_with_accounts_entries (index : CacheIndex) (key : String) :
    (index.remove_with_accounts key).1.entries = index.entries.erase key := by
  rcases he : index.entries[key]? with _ | entry
  · rw [remove_with_accounts_of_none he, erase_of_none index.entries key he]
  · simp [CacheIndex.remove_with_accounts, CacheIndex.remove_entry, he,
      CacheIndex.unschedule_entry_access]

@[simp]
theorem remove_with_accounts_admission_counts (index : CacheIndex) (key : String) :
    (index.remove_with_accounts key).1.admission_counts = index.admission_counts := by
  rcases he : index.entries[key]? with _ | entry
  · rw [remove_with_accounts_of_none he]
  · simp [CacheIndex.remove_with_accounts, CacheIndex.remove_entry, he,
      CacheIndex.unschedule_entry_access]

@[simp]
theorem remove_with_accounts_invalidations (index : CacheIndex) (key : String) :
    (index.remove_with_accounts key).1.invalidations = index.invalidations := by
  rcases he : index.entries[key]? with _ | entry
  · rw [remove_with_accounts_of_none he]
  · simp [CacheIndex.remove_with_accounts, CacheIndex.remove_entry, he,
      CacheIndex.unschedule_entry_access]

/-! ## The operations keep the invariant -/

theorem insert_with_accounts_ok {index : CacheIndex} (h : index.Ok) (key : String)
    (entry : CacheIndexEntry) : (index.insert_with_accounts key entry).1.Ok := by
  rcases he : index.entries[key]? with _ | existing
  · have herase := erase_of_none index.entries key he
    have hrefs := h.refs
    have hvariants := h.variants
    rw [← herase] at hrefs hvariants
    constructor
    · simp only [CacheIndex.insert_with_accounts, CacheIndex.insert_entry, he]
      exact increment_hash_ref_ok hrefs entry
    · simp only [CacheIndex.insert_with_accounts, CacheIndex.insert_entry, he]
      exact add_variant_key_ok hvariants entry
    · exact schedule_entry_access_ok h.schedule key entry entry.last_access_unix_ms
  · constructor
    · simp only [CacheIndex.insert_with_accounts, CacheIndex.insert_entry, he]
      exact increment_hash_ref_ok (decrement_hash_ref_ok h.refs he) entry
    · simp only [CacheIndex.insert_with_accounts, CacheIndex.insert_entry, he]
      exact add_variant_key_ok (remove_variant_key_ok h.variants he) entry
    · exact schedule_entry_access_ok h.schedule key entry entry.last_access_unix_ms

theorem remove_with_accounts_ok {index : CacheIndex} (h : index.Ok) (key : String) :
    (index.remove_with_accounts key).1.Ok := by
  rcases he : index.entries[key]? with _ | removed
  · rw [remove_with_accounts_of_none he]
    exact h
  · simp only [CacheIndex.remove_with_accounts, CacheIndex.remove_entry, he]
    constructor
    · exact decrement_hash_ref_ok h.refs he
    · exact remove_variant_key_ok h.variants he
    · exact unschedule_entry_access_ok h.schedule key

theorem insert_with_accounts_size {index : CacheIndex} (h : index.SizeOk) (key : String)
    (entry : CacheIndexEntry) (hfits : bodyBytes (index.entries.insert key entry) ≤ U64_MAX) :
    (index.insert_with_accounts key entry).1.SizeOk := by
  unfold CacheIndex.SizeOk at *
  rw [insert_with_accounts_entries, bodyBytes_insert]
  rw [bodyBytes_insert] at hfits
  rcases he : index.entries[key]? with _ | existing
  · rw [erase_of_none index.entries key he] at hfits ⊢
    simp only [CacheIndex.insert_with_accounts, CacheIndex.insert_entry, he]
    change saturating_add index.current_size_bytes entry.body_size_bytes = _
    rw [h, saturating_add_eq hfits]
  · simp only [CacheIndex.insert_with_accounts, CacheIndex.insert_entry, he]
    change saturating_add (index.current_size_bytes - existing.body_size_bytes) _ = _
    rw [h, bodyBytes_erase index.entries key existing he, Nat.add_sub_cancel,
      saturating_add_eq hfits]

theorem remove_with_accounts_size {index : CacheIndex} (h : index.SizeOk) (key : String) :
    (index.remove_with_accounts key).1.SizeOk := by
  unfold CacheIndex.SizeOk at *
  rw [remove_with_accounts_entries]
  rcases he : index.entries[key]? with _ | removed
  · rw [remove_with_accounts_of_none he, erase_of_none index.entries key he]
    exact h
  · simp only [CacheIndex.remove_with_accounts, CacheIndex.remove_entry, he]
    change index.current_size_bytes - removed.body_size_bytes = _
    rw [h, bodyBytes_erase index.entries key removed he, Nat.add_sub_cancel]

/-! ## A touch -/

/-- The entries after a touch: the access of the entry moves on and nothing else changes. -/
def touchedEntries (entries : Map CacheIndexEntry) (key : String) (last_access_unix_ms : Nat) :
    Map CacheIndexEntry :=
  match entries[key]? with
  | none => entries
  | some entry =>
    if entry.last_access_unix_ms < last_access_unix_ms then
      entries.insert key { entry with last_access_unix_ms := last_access_unix_ms }
    else entries

@[simp]
theorem touch_entry_entries (index : CacheIndex) (key : String) (last_access_unix_ms : Nat) :
    (index.touch_entry key last_access_unix_ms).1.entries =
      touchedEntries index.entries key last_access_unix_ms := by
  unfold CacheIndex.touch_entry touchedEntries
  rcases index.entries[key]? with _ | entry
  · rfl
  · dsimp only
    split
    · unfold CacheIndex.reschedule_entry_access
      split <;> rfl
    · rfl

theorem touch_entry_frame (index : CacheIndex) (key : String) (last_access_unix_ms : Nat) :
    (index.touch_entry key last_access_unix_ms).1.hash_ref_counts = index.hash_ref_counts ∧
      (index.touch_entry key last_access_unix_ms).1.variants = index.variants ∧
      (index.touch_entry key last_access_unix_ms).1.admission_counts = index.admission_counts ∧
      (index.touch_entry key last_access_unix_ms).1.invalidations = index.invalidations ∧
      (index.touch_entry key last_access_unix_ms).1.current_size_bytes =
        index.current_size_bytes := by
  unfold CacheIndex.touch_entry
  rcases index.entries[key]? with _ | entry
  · simp
  · dsimp only
    split
    · unfold CacheIndex.reschedule_entry_access
      split <;> exact ⟨rfl, rfl, rfl, rfl, rfl⟩
    · simp

/-- A touch keeps every sum over the entries that does not read the access time. -/
theorem total_touchedEntries (f : String → CacheIndexEntry → Nat)
    (hf : ∀ key entry n, f key { entry with last_access_unix_ms := n } = f key entry)
    (entries : Map CacheIndexEntry) (key : String) (last_access_unix_ms : Nat) :
    total f (touchedEntries entries key last_access_unix_ms) = total f entries := by
  unfold touchedEntries
  rcases he : entries[key]? with _ | entry
  · rfl
  · dsimp only
    split
    · rw [total_insert, hf, ← total_erase f entries key, share, he]
    · rfl

/-- The entry that a key has after a touch is the one it had, apart from the access. -/
theorem touchedEntries_getElem? (entries : Map CacheIndexEntry) (key k : String)
    (last_access_unix_ms : Nat) :
    ∃ f : CacheIndexEntry → CacheIndexEntry,
      (touchedEntries entries key last_access_unix_ms)[k]? = entries[k]?.map f ∧
        ∀ entry, ∃ n, f entry = { entry with last_access_unix_ms := n } := by
  unfold touchedEntries
  rcases he : entries[key]? with _ | entry
  · exact ⟨id, by simp, fun entry => ⟨entry.last_access_unix_ms, rfl⟩⟩
  · dsimp only
    split
    · rw [getElem?_insert_eq]
      split
      · rename_i hk
        exact ⟨fun e => { e with last_access_unix_ms := last_access_unix_ms },
          by simp [← hk, he], fun e => ⟨_, rfl⟩⟩
      · exact ⟨id, by simp, fun entry => ⟨entry.last_access_unix_ms, rfl⟩⟩
    · exact ⟨id, by simp, fun entry => ⟨entry.last_access_unix_ms, rfl⟩⟩

theorem touch_entry_ok {index : CacheIndex} (h : index.Ok) (key : String)
    (last_access_unix_ms : Nat) : (index.touch_entry key last_access_unix_ms).1.Ok := by
  obtain ⟨hcounts, hvariants, -⟩ := touch_entry_frame index key last_access_unix_ms
  constructor
  · rw [hcounts, touch_entry_entries]
    refine ⟨fun hash => ?_, h.refs.positive⟩
    rw [h.refs.count hash, references, references, total_touchedEntries]
    intros
    rfl
  · rw [hvariants, touch_entry_entries]
    refine ⟨h.variants.nodup, h.variants.nonempty, fun base k => ?_⟩
    obtain ⟨f, hf, hsame⟩ := touchedEntries_getElem? index.entries key k last_access_unix_ms
    rw [h.variants.mem, hf]
    rcases index.entries[k]? with _ | entry
    · simp
    · obtain ⟨n, hn⟩ := hsame entry
      simp [hn]
  · unfold CacheIndex.touch_entry
    rcases he : index.entries[key]? with _ | entry
    · exact h.schedule
    · dsimp only
      split
      · unfold CacheIndex.reschedule_entry_access
        rw [if_pos (by simp)]
        exact schedule_entry_access_ok h.schedule key _ last_access_unix_ms
      · exact h.schedule

theorem touch_entry_size {index : CacheIndex} (h : index.SizeOk) (key : String)
    (last_access_unix_ms : Nat) : (index.touch_entry key last_access_unix_ms).1.SizeOk := by
  obtain ⟨-, -, -, -, hsize⟩ := touch_entry_frame index key last_access_unix_ms
  unfold CacheIndex.SizeOk at *
  rw [hsize, h, touch_entry_entries, bodyBytes, bodyBytes, total_touchedEntries]
  intros
  rfl

/-! ## The empty index -/

theorem default_ok : CacheIndex.default.Ok := by
  constructor
  · constructor
    · intro hash
      simp [CacheIndex.default, references]
    · intro hash
      simp [CacheIndex.default]
  · constructor
    · intro base
      simp [CacheIndex.default]
    · intro base
      simp [CacheIndex.default]
    · intro base key
      simp [CacheIndex.default]
  · constructor
    · intro s
      simp [CacheIndex.default]
    · intro key
      simp [CacheIndex.default]

theorem default_size : CacheIndex.default.SizeOk := by
  simp [CacheIndex.SizeOk, CacheIndex.default, bodyBytes]

end rginx.cache
