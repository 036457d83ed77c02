-- The document as a shared view. A document that decodes to a view loads to
-- an index with that view, and an operation on the document does to the view
-- what the operation means.
import Rginx.ResultChains
import Rginx.SharedDocument

open tree_maps rust_result

namespace rginx.cache

/-! ## Rows -/

/-- The rows that come out of a walk over rows: the keys are the same, in the same order, and
each value comes from the value of its key. -/
theorem rows_of_map {α γ : Type} {f : String × α → IoResult (String × γ)} {g : α → IoResult γ}
    (hf : ∀ row, f row = g row.2 >>= fun b => .ok (row.1, b)) {l : List (String × α)}
    {rows : List (String × γ)} (h : l.map f = rows.map .ok) :
    rows.map (·.1) = l.map (·.1) ∧
      ∀ key a, (key, a) ∈ l → ∃ b, (key, b) ∈ rows ∧ g a = .ok b := by
  induction l generalizing rows with
  | nil =>
    obtain rfl : rows = [] := by simpa using h.symm
    simp
  | cons row l ih =>
    rcases rows with _ | ⟨out, rows⟩
    · cases h
    · simp only [List.map_cons, List.cons.injEq] at h
      obtain ⟨hrow, hrest⟩ := h
      rw [hf] at hrow
      obtain ⟨b, hb, hout⟩ := bind_eq_ok.mp hrow
      obtain rfl := Except.ok.inj hout
      obtain ⟨hkeys, hvalues⟩ := ih hrest
      refine ⟨by simp [hkeys], ?_⟩
      intro key a hmem
      rcases List.mem_cons.mp hmem with rfl | hmem
      · exact ⟨b, by simp, hb⟩
      · obtain ⟨b', hb', hg⟩ := hvalues key a hmem
        exact ⟨b', by simp [hb'], hg⟩

/-- A map whose rows were walked, and the map of the rows that came out, agree key by key. -/
theorem lookup_of_rows {α γ : Type} {m : Map α} {f : String × α → IoResult (String × γ)}
    {g : α → IoResult γ} (hf : ∀ row, f row = g row.2 >>= fun b => .ok (row.1, b))
    {rows : List (String × γ)} (h : m.toList.mapM f = .ok rows) (key : String) :
    m[key]?.map g = (insertRows (∅ : Map γ) rows)[key]?.map .ok := by
  obtain ⟨hkeys, hvalues⟩ := rows_of_map hf ((mapM_eq_ok_iff _ _ _).mp h)
  have hnodup : (rows.map (·.1)).Nodup := hkeys ▸ keys_nodup_toList m
  rcases hm : m[key]? with _ | a
  · rw [getElem?_insertRows_of_notMem]
    · simp
    · rw [hkeys]
      intro hmem
      obtain ⟨⟨k, a⟩, hrow, rfl⟩ := List.mem_map.mp hmem
      rw [Std.ExtTreeMap.mem_toList_iff_getElem?_eq_some, hm] at hrow
      cases hrow
  · obtain ⟨b, hb, hg⟩ :=
      hvalues key a (Std.ExtTreeMap.mem_toList_iff_getElem?_eq_some.mpr hm)
    rw [getElem?_insertRows_of_mem _ _ _ _ hnodup hb]
    simp [hg]

/-! ## The codec reads what it wrote -/

theorem cache_index_entry_from_entry_record (entry : CacheIndexEntry) :
    cache_index_entry_from_record (entry_record entry) = .ok entry := by
  have hvary : (entry_record entry).vary.mapM shared_vary_header = .ok entry.vary := by
    rw [mapM_eq_ok_iff]
    simp [entry_record, shared_vary_header]
  unfold cache_index_entry_from_record
  rw [hvary]
  rfl

section Documents

variable {β : Type} (json : SerdeJson β)

theorem deserialize_serialize_entry_record {entry : CacheIndexEntry} {entry_json : β}
    (h : serialize_entry_record json entry = .ok entry_json) :
    deserialize_entry_record json entry_json = .ok entry := by
  unfold deserialize_entry_record
  rw [json.entry.round_trip _ _ h]
  exact cache_index_entry_from_entry_record entry

theorem deserialize_serialize_invalidation_rule {rule : CacheInvalidationRule} {rule_json : β}
    (h : serialize_invalidation_rule json rule = .ok rule_json) :
    deserialize_invalidation_rule json rule_json = .ok rule :=
  json.rule.round_trip _ _ h

/-- A change record reads back as the operation it was written for. -/
theorem operation_from_change_record_of_record {seq generation : Nat}
    {operation : SharedIndexOperation} {record : SharedMemoryChangeRecord β}
    (h : change_record_from_operation json seq generation operation = .ok record) :
    record.seq = seq ∧ operation_from_change_record json record = .ok operation := by
  cases operation with
  | UpsertEntry key entry =>
    obtain ⟨entry_json, hs, h⟩ := bind_eq_ok.mp h
    obtain rfl := Except.ok.inj h
    refine ⟨rfl, ?_⟩
    simp [operation_from_change_record, ok_or_invalid, deserialize_serialize_entry_record json hs]
  | AddInvalidation rule =>
    obtain ⟨rule_json, hs, h⟩ := bind_eq_ok.mp h
    obtain rfl := Except.ok.inj h
    refine ⟨rfl, ?_⟩
    simp [operation_from_change_record, ok_or_invalid,
      deserialize_serialize_invalidation_rule json hs, CHANGE_OP_ADD_INVALIDATION,
      CHANGE_OP_UPSERT_ENTRY, CHANGE_OP_REMOVE_ENTRY, CHANGE_OP_TOUCH_ENTRY,
      CHANGE_OP_SET_ADMISSION_COUNT, CHANGE_OP_REMOVE_ADMISSION_COUNT]
  | RemoveEntry key
  | TouchEntry key last_access_unix_ms
  | SetAdmissionCount key uses
  | RemoveAdmissionCount key
  | ClearInvalidations =>
    obtain rfl := Except.ok.inj h
    exact ⟨rfl, rfl⟩

/-! ## The view of a document -/

/-- The texts of the document decode to the view. -/
structure Decodes (document : SharedMemoryIndexDocument β) (view : SharedView) : Prop where
  entries : ∀ key : String,
    document.entries[key]?.map (deserialize_entry_record json) = view.entries[key]?.map .ok
  admission : document.admission_counts = view.admission_counts
  rules : ∃ rules, document.invalidations.mapM (deserialize_invalidation_rule json) = .ok rules ∧
    rules.toFinset = view.invalidations

variable {json}

/-- Only the texts count, and not the counters, the locks or the changes. -/
theorem Decodes.of_same {document : SharedMemoryIndexDocument β} {view : SharedView}
    (h : Decodes json document view) (document' : SharedMemoryIndexDocument β)
    (he : document'.entries = document.entries)
    (ha : document'.admission_counts = document.admission_counts)
    (hr : document'.invalidations = document.invalidations) : Decodes json document' view := by
  refine ⟨?_, ?_, ?_⟩
  · rw [he]; exact h.entries
  · rw [ha]; exact h.admission
  · rw [hr]; exact h.rules

theorem Decodes.insert_entry {document : SharedMemoryIndexDocument β} {view : SharedView}
    (h : Decodes json document view) (key : String) {entry : CacheIndexEntry} {entry_json : β}
    (hs : serialize_entry_record json entry = .ok entry_json) :
    Decodes json { document with entries := document.entries.insert key entry_json }
      { view with entries := view.entries.insert key entry } := by
  refine ⟨?_, h.admission, h.rules⟩
  intro k
  simp only [getElem?_insert_eq]
  split
  · simp [deserialize_serialize_entry_record json hs]
  · exact h.entries k

theorem apply_operation_to_document_decodes {document document' : SharedMemoryIndexDocument β}
    {view : SharedView} (h : Decodes json document view) {operation : SharedIndexOperation}
    (hop : apply_operation_to_document json document operation = .ok document') :
    Decodes json document' (view.apply operation) := by
  cases operation with
  | UpsertEntry key entry =>
    obtain ⟨entry_json, hs, hop⟩ := bind_eq_ok.mp hop
    obtain rfl := Except.ok.inj hop
    exact h.insert_entry key hs
  | RemoveEntry key =>
    obtain rfl := Except.ok.inj hop
    refine ⟨?_, h.admission, h.rules⟩
    intro k
    simp only [SharedView.apply, getElem?_erase_eq]
    split
    · rfl
    · exact h.entries k
  | TouchEntry key last_access_unix_ms =>
    have hkey := h.entries key
    simp only [apply_operation_to_document] at hop
    simp only [SharedView.apply, touchedEntries]
    rcases hd : document.entries[key]? with _ | entry_json
    · rcases hv : view.entries[key]? with _ | entry
      · rw [hd] at hop
        obtain rfl := Except.ok.inj hop
        exact h
      · simp [hd, hv] at hkey
    · rcases hv : view.entries[key]? with _ | entry
      · simp [hd, hv] at hkey
      · simp only [hd, hv, Option.map_some, Option.some.injEq] at hkey
        rw [hd] at hop
        obtain ⟨read, hread, hop⟩ := bind_eq_ok.mp hop
        obtain rfl := Except.ok.inj (hkey.symm.trans hread)
        split at hop
        · rename_i hlt
          obtain ⟨touched_json, htouched, hop⟩ := bind_eq_ok.mp hop
          obtain rfl := Except.ok.inj hop
          simp only [hlt, if_true]
          exact h.insert_entry key htouched
        · rename_i hlt
          obtain rfl := Except.ok.inj hop
          simp only [hlt, if_false]
          exact h
  | SetAdmissionCount key uses =>
    obtain rfl := Except.ok.inj hop
    refine ⟨h.entries, ?_, h.rules⟩
    simp only [SharedView.apply, h.admission]
  | RemoveAdmissionCount key =>
    obtain rfl := Except.ok.inj hop
    refine ⟨h.entries, ?_, h.rules⟩
    simp only [SharedView.apply, h.admission]
  | AddInvalidation rule =>
    obtain ⟨rule_json, hs, hop⟩ := bind_eq_ok.mp hop
    obtain rfl := Except.ok.inj hop
    obtain ⟨rules, hrules, hset⟩ := h.rules
    refine ⟨h.entries, h.admission, rules ++ [rule], ?_, ?_⟩
    · rw [mapM_eq_ok_iff] at hrules ⊢
      simp [hrules, deserialize_serialize_invalidation_rule json hs]
    · ext r
      simp [SharedView.apply, ← hset]
  | ClearInvalidations =>
    obtain rfl := Except.ok.inj hop
    exact ⟨h.entries, h.admission, [], rfl, rfl⟩

/-! ## The document of a rebuild -/

theorem rules_of_texts {rules : List CacheInvalidationRule} {texts : List β}
    (h : rules.map (serialize_invalidation_rule json) = texts.map .ok) :
    texts.map (deserialize_invalidation_rule json) = rules.map .ok := by
  induction rules generalizing texts with
  | nil =>
    obtain rfl : texts = [] := by simpa using h.symm
    rfl
  | cons rule rules ih =>
    rcases texts with _ | ⟨text, texts⟩
    · cases h
    · simp only [List.map_cons, List.cons.injEq] at h ⊢
      exact ⟨deserialize_serialize_invalidation_rule json h.1, ih h.2⟩

theorem recreated_document_decodes {store_epoch generation rebuild_total : Nat}
    {index : CacheIndex} {document : SharedMemoryIndexDocument β}
    (h : recreated_document json store_epoch generation rebuild_total index = .ok document) :
    Decodes json document index.view := by
  obtain ⟨entries, hentries, h⟩ := bind_eq_ok.mp h
  obtain ⟨texts, htexts, h⟩ := bind_eq_ok.mp h
  obtain ⟨rows, hrows, hinsert⟩ := bind_eq_ok.mp hentries
  obtain rfl := Except.ok.inj hinsert
  obtain rfl := Except.ok.inj h
  refine ⟨?_, rfl, index.invalidations, ?_, rfl⟩
  · intro key
    have hlookup := lookup_of_rows (f := serialize_row json) (g := serialize_entry_record json)
      (fun _ => rfl) hrows key
    change (insertRows (∅ : Map β) rows)[key]?.map _ = index.entries[key]?.map _
    rcases he : index.entries[key]? with _ | entry
    · rw [he] at hlookup
      rcases hr : (insertRows (∅ : Map β) rows)[key]? with _ | entry_json
      · rfl
      · rw [hr] at hlookup; cases hlookup
    · rw [he] at hlookup
      rcases hr : (insertRows (∅ : Map β) rows)[key]? with _ | entry_json
      · rw [hr] at hlookup; cases hlookup
      · rw [hr] at hlookup
        simp only [Option.map_some, Option.some.injEq] at hlookup ⊢
        exact deserialize_serialize_entry_record json hlookup
  · rw [mapM_eq_ok_iff] at htexts ⊢
    exact rules_of_texts htexts

/-! ## The index of a document -/

theorem insert_rows_entries (index : CacheIndex) (rows : List (String × CacheIndexEntry)) :
    (insert_rows index rows).entries = insertRows index.entries rows := by
  induction rows generalizing index with
  | nil => rfl
  | cons row rows ih => exact ih _

theorem mapM_ok_of_forall {α γ ε : Type} {f : α → Except ε γ} {l : List α}
    (h : ∀ a ∈ l, ∃ b, f a = .ok b) : ∃ r, l.mapM f = .ok r := by
  induction l with
  | nil => exact ⟨[], rfl⟩
  | cons a l ih =>
    obtain ⟨b, hb⟩ := h a (by simp)
    obtain ⟨r, hr⟩ := ih fun a' ha' => h a' (by simp [ha'])
    exact ⟨b :: r, by simp [hb, hr]⟩

/-- What a zone loads from a document: the rows of the view, each with a key of its own. -/
theorem loaded_index_of_decodes {document : SharedMemoryIndexDocument β} {view : SharedView}
    (h : Decodes json document view) :
    ∃ rows rules, loaded_index_from_document json document = .ok
        { index :=
            { insert_rows CacheIndex.default rows with
              admission_counts := view.admission_counts
              invalidations := rules }
          generation := document.generation
          store_epoch := document.store_epoch
          last_change_seq := document.last_change_seq } ∧
      insertRows (∅ : Map CacheIndexEntry) rows = view.entries ∧ (rows.map (·.1)).Nodup ∧
      rules.toFinset = view.invalidations := by
  obtain ⟨rules, hrules, hset⟩ := h.rules
  have hall : ∀ row ∈ document.entries.toList, ∃ out, deserialize_row json row = .ok out := by
    rintro ⟨key, text⟩ hrow
    have hkey := h.entries key
    rw [Std.ExtTreeMap.mem_toList_iff_getElem?_eq_some] at hrow
    rw [hrow] at hkey
    rcases hv : view.entries[key]? with _ | entry
    · simp [hv] at hkey
    · simp only [hv, Option.map_some, Option.some.injEq] at hkey
      exact ⟨(key, entry), by simp [deserialize_row, hkey]⟩
  obtain ⟨rows, hrows⟩ := mapM_ok_of_forall hall
  refine ⟨rows, rules, ?_, ?_, ?_, hset⟩
  · unfold loaded_index_from_document
    rw [hrows, ok_bind, hrules, ok_bind, h.admission]
    rfl
  · apply Std.ExtTreeMap.ext_getElem?
    intro key
    have hlookup := lookup_of_rows (f := deserialize_row json) (g := deserialize_entry_record json)
      (fun _ => rfl) hrows key
    rw [h.entries key] at hlookup
    rcases hv : view.entries[key]? with _ | entry <;>
      rcases hr : (insertRows (∅ : Map CacheIndexEntry) rows)[key]? with _ | entry' <;>
      simp_all
  · obtain ⟨hkeys, -⟩ := rows_of_map (f := deserialize_row json)
      (g := deserialize_entry_record json) (fun _ => rfl) ((mapM_eq_ok_iff _ _ _).mp hrows)
    rw [hkeys]
    exact keys_nodup_toList document.entries

theorem rowsFit_of_final (entries : Map CacheIndexEntry) (rows : List (String × CacheIndexEntry))
    (hrows : (rows.map (·.1)).Nodup) (hnew : ∀ row ∈ rows, entries[row.1]? = none)
    (hfits : bodyBytes (insertRows entries rows) ≤ U64_MAX) : rowsFit entries rows := by
  induction rows generalizing entries with
  | nil => trivial
  | cons row rows ih =>
    simp only [List.map_cons, List.nodup_cons] at hrows
    have hnew' : ∀ other ∈ rows, (entries.insert row.1 row.2)[other.1]? = none := by
      intro other hother
      rw [getElem?_insert_eq, if_neg]
      · exact hnew other (by simp [hother])
      · intro he
        exact hrows.1 (he ▸ List.mem_map_of_mem hother)
    have hle := total_le_insertRows (fun _ entry => entry.body_size_bytes)
      (entries.insert row.1 row.2) rows hrows.2 hnew'
    exact ⟨le_trans hle hfits, ih _ hrows.2 hnew' hfits⟩

/-- The index that a document loads to. -/
theorem loaded_index_spec {document : SharedMemoryIndexDocument β} {view : SharedView}
    (h : Decodes json document view) :
    ∃ loaded, loaded_index_from_document json document = .ok loaded ∧
      loaded.index.view = view ∧ loaded.index.Ok ∧
      (bodyBytes view.entries ≤ U64_MAX → loaded.index.SizeOk) ∧
      loaded.generation = document.generation ∧ loaded.store_epoch = document.store_epoch ∧
      loaded.last_change_seq = document.last_change_seq := by
  obtain ⟨rows, rules, hload, hentries, hnodup, hset⟩ := loaded_index_of_decodes h
  refine ⟨_, hload, ?_, ?_, ?_, rfl, rfl, rfl⟩
  · have hrows : (insert_rows CacheIndex.default rows).entries = view.entries := by
      rw [insert_rows_entries]
      exact hentries
    simp [CacheIndex.view, hrows, hset]
  · exact (insert_rows_ok default_ok rows).of_same rfl rfl rfl rfl rfl
  · intro hfits
    rw [← hentries] at hfits
    have hrowsFit := rowsFit_of_final ∅ rows hnodup (by simp) hfits
    exact insert_rows_size default_size rows hrowsFit

end Documents

end rginx.cache
