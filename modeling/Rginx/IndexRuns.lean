-- The invariant of the index over whole runs: from every index that a zone
-- can start with, by every sequence of the calls that change it.
import Rginx.DocumentView

open tree_maps rust_result

namespace rginx.cache

/-! ## Runs -/

/-- Where a zone gets its first index. -/
inductive IndexStart (β : Type)
  | empty
  | disk (cache_key_hash : String → String) (max_size_bytes : Option Nat)
      (files : List ScannedFile)
  | shared (document : SharedMemoryIndexDocument β)

variable {β : Type}

def IndexStart.load (json : SerdeJson β) : IndexStart β → IoResult CacheIndex
  | .empty => return CacheIndex.default
  | .disk cache_key_hash max_size_bytes files =>
    return load_index_from_disk cache_key_hash max_size_bytes files
  | .shared document => do
    let loaded ← loaded_index_from_document json document
    return loaded.index

/-- The sums of sizes of the start fit a `usize`. For a document that is one sum, since each of
its keys comes once. -/
def IndexStart.fits (index : CacheIndex) : IndexStart β → Prop
  | .empty => True
  | .disk cache_key_hash _ files =>
    rowsFit ∅ (files.filterMap (load_cache_index_entry cache_key_hash))
  | .shared _ => bodyBytes index.entries ≤ U64_MAX

/-- A call that changes the index: one of the zone itself, or the replay of a delta. -/
inductive IndexCall
  | zone (call : LocalCall)
  | delta (operations : List SharedIndexOperation)

def IndexCall.run (index : CacheIndex) : IndexCall → CacheIndex
  | .zone call => (call.run index).1
  | .delta operations => apply_shared_index_delta index operations

def IndexCall.fits (index : CacheIndex) : IndexCall → Prop
  | .zone call => call.fits index
  | .delta operations => deltaFits index operations

def runCalls (index : CacheIndex) (calls : List IndexCall) : CacheIndex :=
  calls.foldl IndexCall.run index

/-- Every sum of sizes that the run passes through fits a `usize`. -/
def callsFit (index : CacheIndex) : List IndexCall → Prop
  | [] => True
  | call :: calls => call.fits index ∧ callsFit (call.run index) calls

instance (index : CacheIndex) : (call : IndexCall) → Decidable (call.fits index)
  | .zone call => inferInstanceAs (Decidable (call.fits index))
  | .delta operations => inferInstanceAs (Decidable (deltaFits index operations))

instance decidableCallsFit (index : CacheIndex) :
    (calls : List IndexCall) → Decidable (callsFit index calls)
  | [] => inferInstanceAs (Decidable True)
  | call :: calls =>
    have := decidableCallsFit (call.run index) calls
    inferInstanceAs (Decidable (_ ∧ _))

/-! ## The start -/

/-- An index that was loaded from any document at all, whether or not the texts of the document
came from this program. -/
theorem loaded_index_from_document_shape {json : SerdeJson β}
    {document : SharedMemoryIndexDocument β} {loaded : LoadedSharedIndex}
    (h : loaded_index_from_document json document = .ok loaded) :
    ∃ rows rules, (rows.map (·.1)).Nodup ∧
      loaded.index =
        { insert_rows CacheIndex.default rows with
          admission_counts := document.admission_counts
          invalidations := rules } := by
  obtain ⟨rows, hrows, h⟩ := bind_eq_ok.mp h
  obtain ⟨rules, -, h⟩ := bind_eq_ok.mp h
  obtain rfl := Except.ok.inj h
  obtain ⟨hkeys, -⟩ := rows_of_map (f := deserialize_row json)
    (g := deserialize_entry_record json) (fun _ => rfl) ((mapM_eq_ok_iff _ _ _).mp hrows)
  exact ⟨rows, rules, hkeys ▸ keys_nodup_toList document.entries, rfl⟩

theorem IndexStart.load_ok {json : SerdeJson β} {start : IndexStart β} {index : CacheIndex}
    (h : start.load json = .ok index) : index.Ok := by
  cases start with
  | empty =>
    obtain rfl := Except.ok.inj h
    exact default_ok
  | disk cache_key_hash max_size_bytes files =>
    obtain rfl := Except.ok.inj h
    exact load_index_from_disk_ok cache_key_hash max_size_bytes files
  | shared document =>
    obtain ⟨loaded, hload, h⟩ := bind_eq_ok.mp h
    obtain rfl := Except.ok.inj h
    obtain ⟨rows, rules, -, hshape⟩ := loaded_index_from_document_shape hload
    rw [hshape]
    exact (insert_rows_ok default_ok rows).of_same rfl rfl rfl rfl rfl

theorem IndexStart.load_size {json : SerdeJson β} {start : IndexStart β} {index : CacheIndex}
    (h : start.load json = .ok index) (hfits : start.fits index) : index.SizeOk := by
  cases start with
  | empty =>
    obtain rfl := Except.ok.inj h
    exact default_size
  | disk cache_key_hash max_size_bytes files =>
    obtain rfl := Except.ok.inj h
    exact load_index_from_disk_size cache_key_hash max_size_bytes files hfits
  | shared document =>
    obtain ⟨loaded, hload, h⟩ := bind_eq_ok.mp h
    obtain rfl := Except.ok.inj h
    obtain ⟨rows, rules, hnodup, hshape⟩ := loaded_index_from_document_shape hload
    simp only [IndexStart.fits] at hfits
    rw [hshape] at hfits ⊢
    simp only [insert_rows_entries] at hfits
    have hrowsFit := rowsFit_of_final ∅ rows hnodup (by simp) hfits
    exact insert_rows_size default_size rows hrowsFit

/-! ## The run -/

theorem IndexCall.run_ok {index : CacheIndex} (h : index.Ok) (call : IndexCall) :
    (call.run index).Ok := by
  cases call with
  | zone call => exact call.run_ok h
  | delta operations => exact apply_shared_index_delta_ok h operations

theorem IndexCall.run_size {index : CacheIndex} (hok : index.Ok) (h : index.SizeOk)
    (call : IndexCall) (hfits : call.fits index) : (call.run index).SizeOk := by
  cases call with
  | zone call => exact call.run_size hok h hfits
  | delta operations => exact apply_shared_index_delta_size h operations hfits

theorem runCalls_ok {index : CacheIndex} (h : index.Ok) (calls : List IndexCall) :
    (runCalls index calls).Ok := by
  induction calls generalizing index with
  | nil => exact h
  | cons call calls ih => exact ih (call.run_ok h)

theorem runCalls_size {index : CacheIndex} (hok : index.Ok) (h : index.SizeOk)
    (calls : List IndexCall) (hfits : callsFit index calls) : (runCalls index calls).SizeOk := by
  induction calls generalizing index with
  | nil => exact h
  | cons call calls ih => exact ih (call.run_ok hok) (call.run_size hok h hfits.1) hfits.2

/-! ## What the invariant says -/

theorem HashRefsOk.lookup {entries : Map CacheIndexEntry} {counts : Map Nat}
    (h : HashRefsOk entries counts) (hash : String) :
    counts[hash]? =
      if references entries hash = 0 then none else some (references entries hash) := by
  have hcount := h.count hash
  have hpos := h.positive hash
  rw [getD_eq] at hcount
  rcases hc : counts[hash]? with _ | count
  · rw [hc, Option.getD_none] at hcount
    rw [if_pos hcount.symm]
  · rw [hc] at hcount hpos
    simp only [Option.getD_some] at hcount
    subst hcount
    rw [if_neg (fun h0 => hpos (by rw [h0]))]

theorem VariantsOk.contains_iff {entries : Map CacheIndexEntry} {variants : Map (List String)}
    (h : VariantsOk entries variants) (base : String) :
    variants.contains base = true ↔
      ∃ (key : String) (entry : CacheIndexEntry),
        entries[key]? = some entry ∧ entry.base_key = base := by
  rw [Std.ExtTreeMap.contains_eq_isSome_getElem?]
  have hmem := h.mem base
  have hne := h.nonempty base
  simp only [getD_list_eq] at hmem
  rcases hv : variants[base]? with _ | keys
  · simp only [hv, Option.getD_none, List.not_mem_nil, false_iff, not_exists, not_and] at hmem
    simpa using hmem
  · rw [hv] at hmem hne
    obtain ⟨key, hkey⟩ := List.exists_mem_of_ne_nil keys (by simpa using hne)
    obtain ⟨entry, he, hb⟩ := (hmem key).mp hkey
    simpa using ⟨key, entry, he, hb⟩

theorem ScheduleOk.existsUnique {entries : Map CacheIndexEntry}
    {schedule : Finset CacheAccessScheduleEntry} {tickets : Map CacheAccessScheduleTicket}
    (h : ScheduleOk entries schedule tickets) {key : String} (hkey : entries.contains key = true) :
    ∃! s, s ∈ schedule ∧ s.key = key := by
  rw [Std.ExtTreeMap.contains_eq_isSome_getElem?, ← h.keys] at hkey
  obtain ⟨ticket, ht⟩ := Option.isSome_iff_exists.mp hkey
  refine ⟨⟨ticket.last_access_unix_ms, ticket.ticket, key⟩, ⟨?_, rfl⟩, ?_⟩
  · rw [h.mem]
    exact ht
  · rintro ⟨last, number, k⟩ ⟨hs, hk⟩
    have hticket := (h.mem _).mp hs
    dsimp only at hk hticket
    subst hk
    rw [ht] at hticket
    obtain rfl := Option.some.inj hticket
    rfl

/-! ## The laws -/

/-- The records of an index agree with its entries. From every start and by every sequence of
calls: a hash counts the entries that have it and no count is zero; a base key lists the keys
of its entries, each once, and only when there are any; the schedule and the tickets hold one
and the same record for each key of the entries and none for another; and the size is the sum
of the body sizes, as long as the sums of the run fit a `usize`. -/
theorem the_records_agree_with_the_entries (json : SerdeJson β) (start : IndexStart β)
    (index : CacheIndex) (hstart : start.load json = .ok index) (calls : List IndexCall) :
    let reached := runCalls index calls
    (∀ hash : String, reached.hash_ref_counts[hash]? =
        if references reached.entries hash = 0 then none
        else some (references reached.entries hash)) ∧
      (∀ base : String,
        (reached.variants.contains base = true ↔
          ∃ (key : String) (entry : CacheIndexEntry),
            reached.entries[key]? = some entry ∧ entry.base_key = base) ∧
        (reached.variants.getD base []).Nodup ∧
        ∀ key : String, key ∈ reached.variants.getD base [] ↔
          ∃ entry, reached.entries[key]? = some entry ∧ entry.base_key = base) ∧
      ((∀ key : String, reached.entries.contains key = true →
          ∃! s, s ∈ reached.access_schedule ∧ s.key = key) ∧
        (∀ s, s ∈ reached.access_schedule ↔
          reached.access_ticket_by_key[s.key]? = some ⟨s.last_access_unix_ms, s.ticket⟩) ∧
        ∀ key : String,
          reached.access_ticket_by_key.contains key = reached.entries.contains key) ∧
      (start.fits index → callsFit index calls →
        reached.current_size_bytes = bodyBytes reached.entries) := by
  have hok := IndexStart.load_ok hstart
  have hreached := runCalls_ok hok calls
  refine ⟨hreached.refs.lookup, ?_, ⟨?_, hreached.schedule.mem, ?_⟩, ?_⟩
  · intro base
    exact ⟨hreached.variants.contains_iff base, hreached.variants.nodup base,
      hreached.variants.mem base⟩
  · intro key hkey
    exact hreached.schedule.existsUnique hkey
  · intro key
    rw [Std.ExtTreeMap.contains_eq_isSome_getElem?, Std.ExtTreeMap.contains_eq_isSome_getElem?]
    exact hreached.schedule.keys key
  · intro hfits hcalls
    exact runCalls_size hok (IndexStart.load_size hstart hfits) calls hcalls

/-- An entry of ten bytes under its own key. -/
def tenBytes (key : String) (stored_at_unix_ms : Nat) : CacheIndexEntry :=
  { kind := .Response
    hash := key
    base_key := key
    stored_at_unix_ms
    vary := []
    tags := []
    body_size_bytes := 10
    expires_at_unix_ms := 100
    grace_until_unix_ms := none
    keep_until_unix_ms := none
    stale_if_error_until_unix_ms := none
    stale_while_revalidate_until_unix_ms := none
    requires_revalidation := false
    must_revalidate := false
    last_access_unix_ms := stored_at_unix_ms }

/-- Two stores, of which the second evicts the first. -/
theorem the_size_agrees_after_an_eviction :
    (runCalls CacheIndex.default
        [.zone (.store ∅ (some 15) "a" (tenBytes "a" 1) none),
          .zone (.store ∅ (some 15) "b" (tenBytes "b" 2) none)]).current_size_bytes = 10 ∧
      bodyBytes (runCalls CacheIndex.default
        [.zone (.store ∅ (some 15) "a" (tenBytes "a" 1) none),
          .zone (.store ∅ (some 15) "b" (tenBytes "b" 2) none)]).entries = 10 := by
  have h := (the_records_agree_with_the_entries plainJson .empty CacheIndex.default rfl
    [.zone (.store ∅ (some 15) "a" (tenBytes "a" 1) none),
      .zone (.store ∅ (some 15) "b" (tenBytes "b" 2) none)]).2.2.2 trivial
    (by decide)
  rw [← h]
  decide

end rginx.cache
