-- The variants of a base key, from `store/helpers.rs`, `store/maintenance` and
-- `lookup/helpers.rs`. A store takes out the variants with other dimensions,
-- and a key is made from its base key and its values: so a request that two
-- entries of one base key match has found the same entry twice.
import Rginx.CommittedFiles
import Rginx.CacheKeys

open tree_maps rust_text atomic_sections

namespace rginx.cache

/-! ## The order of the dimensions -/

theorem headerName_ext {name name' : HeaderName} (h : name.as_str = name'.as_str) :
    name = name' := by
  cases name
  cases name'
  cases h
  rfl

/-- The dimensions of a variant, with the values that a request has for them. -/
def dimensions (request : CacheRequest) (names : List HeaderName) : List CachedVaryHeaderValue :=
  names.map fun name =>
    ⟨name, (normalized_request_header_values request.headers name).map String.ofList⟩

/-- A request matches a variant that has the values of the request. -/
theorem eq_dimensions_of_matches {request : CacheRequest} {vary : List CachedVaryHeaderValue}
    (h : matches_vary_headers request vary = true) :
    vary = dimensions request (vary.map (·.name)) := by
  unfold matches_vary_headers at h
  simp only [List.all_eq_true, decide_eq_true_eq] at h
  unfold dimensions
  rw [List.map_map]
  conv_lhs => rw [← List.map_id vary]
  apply List.map_congr_left
  intro header hheader
  simp only [id_eq, Function.comp_apply, h header hheader]

/-- Dimensions of one request are in the order of their names. -/
theorem vary_le_dimensions (request : CacheRequest) (name name' : HeaderName) :
    vary_le ⟨name, (normalized_request_header_values request.headers name).map String.ofList⟩
        ⟨name', (normalized_request_header_values request.headers name').map String.ofList⟩ = true ↔
      name.as_str ≤ name'.as_str := by
  unfold vary_le
  dsimp only
  by_cases hsame : name.as_str = name'.as_str
  · obtain rfl := headerName_ext hsame
    rcases (normalized_request_header_values request.headers name).map String.ofList with _ | value
    · simp
    · simp
  · simp only [hsame, decide_false, Bool.false_and, Bool.or_false, decide_eq_true_eq]
    exact (Ne.le_iff_lt hsame).symm

theorem canonical_dimensions (request : CacheRequest) (names : List HeaderName) :
    canonical_vary_headers (dimensions request names) =
      dimensions request (names.insertionSort fun left right => left.as_str ≤ right.as_str) := by
  unfold canonical_vary_headers dimensions
  rw [List.map_insertionSort _ fun left right => vary_le left right = true]
  intro name _ name' _
  exact (vary_le_dimensions request name name').symm

theorem sorted_names_eq (vary : List CachedVaryHeaderValue) :
    ((vary.map (·.name)).insertionSort fun left right => left.as_str ≤ right.as_str).map
        (·.as_str) = sorted_vary_dimension_names vary := by
  unfold sorted_vary_dimension_names
  rw [List.map_insertionSort _ (· ≤ ·) HeaderName.as_str _ fun _ _ _ _ => Iff.rfl, List.map_map]
  rfl

/-- Two variants that one request matches are the same when they have the same dimensions. -/
theorem canonical_eq_of_matches {request : CacheRequest} {vary vary' : List CachedVaryHeaderValue}
    (h : matches_vary_headers request vary = true)
    (h' : matches_vary_headers request vary' = true)
    (hnames : sorted_vary_dimension_names vary = sorted_vary_dimension_names vary') :
    canonical_vary_headers vary = canonical_vary_headers vary' := by
  rw [eq_dimensions_of_matches h, eq_dimensions_of_matches h', canonical_dimensions,
    canonical_dimensions]
  congr 1
  rw [← sorted_names_eq, ← sorted_names_eq] at hnames
  exact List.map_injective_iff.mpr (fun _ _ => headerName_ext) hnames

theorem canonical_eq_nil_iff (vary : List CachedVaryHeaderValue) :
    canonical_vary_headers vary = [] ↔ vary = [] := by
  unfold canonical_vary_headers
  rw [← List.length_eq_zero_iff, List.length_insertionSort, List.length_eq_zero_iff]

section Keys

variable (cache_bytes_hash : List UInt8 → Text)

theorem cache_variant_key_congr (base_key : Text) {vary vary' : List CachedVaryHeaderValue}
    (h : canonical_vary_headers vary = canonical_vary_headers vary') :
    cache_variant_key cache_bytes_hash base_key vary =
      cache_variant_key cache_bytes_hash base_key vary' := by
  have hnil : vary = [] ↔ vary' = [] := by
    rw [← canonical_eq_nil_iff vary, ← canonical_eq_nil_iff vary', h]
  unfold cache_variant_key vary_signature
  simp only [hnil, h]

/-- A response without a list of names has no dimensions, and the base key is its key. -/
theorem final_key_eq_variant_key (policy : RouteCachePolicy) (base_key : Text)
    (request : CacheRequest) (headers : HeaderMap) :
    (cache_final_key_for_response cache_bytes_hash policy base_key request headers).1 =
      cache_variant_key cache_bytes_hash base_key
        (cache_final_key_for_response cache_bytes_hash policy base_key request headers).2 := by
  unfold cache_final_key_for_response
  dsimp only
  split
  · rfl
  · rename_i hnone
    simp only [Bool.or_eq_true, not_or, Bool.not_eq_true, Option.isSome_eq_false_iff,
      Option.isNone_iff_eq_none] at hnone
    simp [cache_vary_values, hnone, cache_variant_key]

/-! ## The variants of an index -/

/-- Every key is made from the base key and the values of its entry, and the entries of one base
key have the same dimensions. -/
structure VariantsKeyed (index : CacheIndex) : Prop where
  ok : index.Ok
  keyed : ∀ (key : String) entry, index.entries[key]? = some entry →
    key.toList = cache_variant_key cache_bytes_hash entry.base_key.toList entry.vary
  alike : ∀ (key key' : String) entry entry', index.entries[key]? = some entry →
    index.entries[key']? = some entry' → entry.base_key = entry'.base_key →
    sorted_vary_dimension_names entry.vary = sorted_vary_dimension_names entry'.vary

theorem default_variantsKeyed : VariantsKeyed cache_bytes_hash CacheIndex.default :=
  ⟨default_ok, by simp [CacheIndex.default], by simp [CacheIndex.default]⟩

variable {cache_bytes_hash}

/-- An index has no entry but those of another one, up to their times of access. -/
theorem VariantsKeyed.of_entries {index index' : CacheIndex}
    (h : VariantsKeyed cache_bytes_hash index) (hok : index'.Ok)
    (hentries : ∀ (key : String) entry', index'.entries[key]? = some entry' →
      ∃ entry, index.entries[key]? = some entry ∧ entry.base_key = entry'.base_key ∧
        entry.vary = entry'.vary) : VariantsKeyed cache_bytes_hash index' := by
  refine ⟨hok, ?_, ?_⟩
  · intro key entry' hentry'
    obtain ⟨entry, hentry, hbase, hvary⟩ := hentries key entry' hentry'
    rw [h.keyed key entry hentry, hbase, hvary]
  · intro key key' entry' entry'' hentry' hentry'' hsame
    obtain ⟨entry, hentry, hbase, hvary⟩ := hentries key entry' hentry'
    obtain ⟨other, hother, hbase', hvary'⟩ := hentries key' entry'' hentry''
    rw [← hvary, ← hvary']
    exact h.alike key key' entry other hentry hother (by rw [hbase, hbase', hsame])

theorem VariantsKeyed.of_rowsLeft {index index' : CacheIndex}
    (h : VariantsKeyed cache_bytes_hash index) (hok : index'.Ok)
    {rows : List (String × CacheIndexEntry)} (hleft : RowsLeft index index' rows) :
    VariantsKeyed cache_bytes_hash index' := by
  refine h.of_entries hok ?_
  intro key entry hentry
  rw [hleft.entries, getElem?_eraseKeys] at hentry
  split at hentry
  · cases hentry
  · exact ⟨entry, hentry, rfl, rfl⟩

/-! ## A store -/

theorem getElem?_drop_entries_of_none {index : CacheIndex} (keys : List String) {key : String}
    (h : index.entries[key]? = none) : (drop_entries index keys).1.entries[key]? = none := by
  rw [(drop_entries_left index keys).entries, getElem?_eraseKeys, h]
  split <;> rfl

theorem getElem?_drop_entries_of_mem {index : CacheIndex} {keys : List String} {key : String}
    (hkey : key ∈ keys) : (drop_entries index keys).1.entries[key]? = none := by
  induction keys generalizing index with
  | nil => cases hkey
  | cons first keys ih =>
    rcases he : index.entries[first]? with _ | entry
    · rw [drop_entries_cons_of_none keys he]
      rcases List.mem_cons.mp hkey with rfl | hkey
      · exact getElem?_drop_entries_of_none keys he
      · exact ih hkey
    · rw [drop_entries_cons_of_some keys he]
      rcases List.mem_cons.mp hkey with rfl | hkey
      · refine getElem?_drop_entries_of_none keys ?_
        rw [(drop_entry_left he).entries, getElem?_eraseKeys]
        simp
      · exact ih hkey

/-- What is left before the new entry comes in has its dimensions. -/
theorem before_insert_alike {index : CacheIndex} (h : index.Ok) {key key' : String}
    {entry entry' : CacheIndexEntry} {replaced_entry : Option (String × CacheIndexEntry)}
    (hentry' : (before_insert index key entry replaced_entry).entries[key']? = some entry')
    (hne : key' ≠ key) (hbase : entry'.base_key = entry.base_key) :
    sorted_vary_dimension_names entry'.vary = sorted_vary_dimension_names entry.vary := by
  unfold before_insert at hentry'
  dsimp only at hentry'
  by_contra hnames
  have hreplaced := drop_entries_ok h (replaced_keys index replaced_entry)
  have hleft := drop_entries_left (drop_entries index (replaced_keys index replaced_entry)).1
    (variant_keys_with_different_dimensions
      (drop_entries index (replaced_keys index replaced_entry)).1 entry key)
  have hwas : (drop_entries index (replaced_keys index replaced_entry)).1.entries[key']? =
      some entry' := by
    have hentry := hentry'
    rw [hleft.entries, getElem?_eraseKeys] at hentry
    split at hentry
    · cases hentry
    · exact hentry
  have hmem : key' ∈ variant_keys_with_different_dimensions
      (drop_entries index (replaced_keys index replaced_entry)).1 entry key := by
    unfold variant_keys_with_different_dimensions
    rw [List.mem_filter]
    refine ⟨(hreplaced.variants.mem entry.base_key key').mpr ⟨entry', hwas, hbase⟩, ?_⟩
    simp [hne, hwas, hnames]
  rw [getElem?_drop_entries_of_mem hmem] at hentry'
  cases hentry'

/-- A store under the key of its entry. -/
theorem VariantsKeyed.store {index : CacheIndex} (h : VariantsKeyed cache_bytes_hash index)
    (hot : HotEntries) (max_size_bytes : Option Nat) {key : String} {entry : CacheIndexEntry}
    (replaced_entry : Option (String × CacheIndexEntry))
    (hkey : key.toList = cache_variant_key cache_bytes_hash entry.base_key.toList entry.vary) :
    VariantsKeyed cache_bytes_hash
      (update_index_after_store hot max_size_bytes index key entry replaced_entry).index := by
  have hbefore : VariantsKeyed cache_bytes_hash (before_insert index key entry replaced_entry) :=
    (h.of_rowsLeft (drop_entries_ok h.ok _) (drop_entries_left _ _)).of_rowsLeft
      (before_insert_ok h.ok key entry replaced_entry) (drop_entries_left _ _)
  have hafter := after_insert_ok h.ok key entry replaced_entry
  have hinsert : (after_insert index key entry replaced_entry).entries =
      (before_insert index key entry replaced_entry).entries.insert key entry := by
    simp [after_insert, CacheIndex.remove_admission_count]
  have hinserted : VariantsKeyed cache_bytes_hash (after_insert index key entry replaced_entry) := by
    refine ⟨hafter, ?_, ?_⟩
    · intro key' entry' hentry'
      rw [hinsert, getElem?_insert_eq] at hentry'
      split at hentry'
      · rename_i hsame
        obtain rfl := Option.some.inj hentry'
        rw [← hsame]
        exact hkey
      · exact hbefore.keyed key' entry' hentry'
    · intro key' key'' entry' entry'' hentry' hentry'' hsame
      rw [hinsert, getElem?_insert_eq] at hentry' hentry''
      split at hentry' <;> split at hentry''
      · obtain rfl := Option.some.inj hentry'
        obtain rfl := Option.some.inj hentry''
        rfl
      · rename_i hne
        obtain rfl := Option.some.inj hentry'
        exact (before_insert_alike h.ok hentry'' (Ne.symm hne) hsame.symm).symm
      · rename_i hne _
        obtain rfl := Option.some.inj hentry''
        exact before_insert_alike h.ok hentry' (Ne.symm hne) hsame
      · exact hbefore.alike key' key'' entry' entry'' hentry' hentry'' hsame
  rw [update_index_after_store_index]
  have hloop := eviction_candidates_left hot hafter.loop max_size_bytes
  exact hinserted.of_rowsLeft (settled_ok hafter hloop) (settled_left hloop)

/-! ## Every call -/

variable (cache_bytes_hash) in
/-- A store puts an entry under the key that is made from it. -/
def LocalCall.Keyed : LocalCall → Prop
  | .store _ _ key entry _ =>
    key.toList = cache_variant_key cache_bytes_hash entry.base_key.toList entry.vary
  | .remove _ _ | .purge _ _ | .cleanup _ _ _ _ | .admission _ _ | .access _ _ | .invalidate _
  | .clear => True

theorem LocalCall.run_keyed (call : LocalCall) {index : CacheIndex}
    (h : VariantsKeyed cache_bytes_hash index) (hkeyed : call.Keyed cache_bytes_hash) :
    VariantsKeyed cache_bytes_hash (call.run index).1 := by
  have hok := call.run_ok h.ok
  cases call with
  | store hot max_size_bytes key entry replaced_entry =>
    exact h.store hot max_size_bytes replaced_entry hkeyed
  | remove key expected_entry =>
    simp only [LocalCall.run] at hok ⊢
    rcases remove_zone_index_entry_if_matches_cases index key expected_entry with
      ⟨current, he, -, hrun⟩ | hrun
    · rw [hrun] at hok ⊢
      exact h.of_rowsLeft hok (drop_entry_left he)
    · rw [hrun]
      exact h
  | purge order selector => exact h.of_rowsLeft hok (drop_entries_left _ _)
  | cleanup hot now inactive_ms batch_size =>
    simp only [LocalCall.run] at hok ⊢
    rw [cleanup_inactive_batch_index hot h.ok.loop] at hok ⊢
    exact h.of_rowsLeft hok
      (settled_left (inactive_cleanup_candidates_left hot h.ok.loop now inactive_ms _))
  | admission key min_uses =>
    refine h.of_entries hok ?_
    intro other entry hentry
    simp only [LocalCall.run, record_cache_admission_attempt] at hentry
    refine ⟨entry, ?_, rfl, rfl⟩
    split at hentry
    · exact hentry
    · split at hentry <;> exact hentry
  | access key last_access_unix_ms =>
    refine h.of_entries hok ?_
    intro other entry hentry
    obtain ⟨touch, htouch, hsame⟩ :=
      touchedEntries_getElem? index.entries key other last_access_unix_ms
    have htouched : (touchedEntries index.entries key last_access_unix_ms)[other]? =
        some entry := by
      rw [← touch_entry_entries]
      simp only [LocalCall.run, record_zone_shared_entry_access] at hentry
      split at hentry <;> rename_i heq <;> rw [heq] <;> exact hentry
    rw [htouch, Option.map_eq_some_iff] at htouched
    obtain ⟨old, hold, rfl⟩ := htouched
    obtain ⟨n, hn⟩ := hsame old
    exact ⟨old, hold, by rw [hn], by rw [hn]⟩
  | invalidate rule => exact h.of_entries hok fun _ entry hentry => ⟨entry, hentry, rfl, rfl⟩
  | clear => exact h.of_entries hok fun _ entry hentry => ⟨entry, hentry, rfl, rfl⟩

/-! ## Every operation -/

variable (cache_bytes_hash) in
/-- The store section of a task puts an entry under the key that is made from it. -/
def ZoneSection.Keyed : ZoneSection → Prop
  | .update_index_after_store key entry _ =>
    key.toList = cache_variant_key cache_bytes_hash entry.base_key.toList entry.vary
  | _ => True

theorem ZoneSection.effect_keyed {env : FileEnv} {zone : ZoneFiles}
    (h : VariantsKeyed cache_bytes_hash zone.index) {part : ZoneSection} (outcome : SectionOutcome)
    (hkeyed : part.Keyed cache_bytes_hash) :
    VariantsKeyed cache_bytes_hash (part.effect env outcome zone).index := by
  cases part with
  | update_index_after_store key entry replaced_entry =>
    exact LocalCall.run_keyed (.store outcome.hot env.max_size_bytes key entry replaced_entry) h
      hkeyed
  | remove_zone_index_entry_if_matches key expected_entry =>
    exact LocalCall.run_keyed (.remove key expected_entry) h trivial
  | purge_zone_entries order selector =>
    exact LocalCall.run_keyed (.purge order selector) h trivial
  | cleanup_inactive_batch now inactive_ms batch_size =>
    exact LocalCall.run_keyed (.cleanup outcome.hot now inactive_ms batch_size) h trivial
  | read_index => exact h
  | write_metadata_tmp => exact h
  | rename_body hash =>
    simp only [ZoneSection.effect]
    split <;> exact h
  | rename_metadata hash =>
    simp only [ZoneSection.effect]
    split <;> exact h
  | write_cache_metadata hash =>
    simp only [ZoneSection.effect]
    split <;> exact h
  | build_cached_response hash => exact h
  | remove_file file hash =>
    cases file <;> simp only [ZoneSection.effect] <;> split <;> exact h

/-- The sections that a task can come to, all of them keyed. -/
abbrev KeyedTask (cache_bytes_hash : List UInt8 → Text) (task : ZoneTask) : Prop :=
  task.Only (ZoneSection.Keyed cache_bytes_hash)

theorem remove_cache_files_locked_keyed (hash : String) {next : ZoneTask}
    (h : KeyedTask cache_bytes_hash next) :
    KeyedTask cache_bytes_hash (remove_cache_files_locked hash next) :=
  ⟨trivial, fun _ _ => ⟨trivial, fun _ _ => h⟩⟩

theorem remove_all_if_unreferenced_keyed (env : FileEnv) (removed_hashes : Finset String) :
    KeyedTask cache_bytes_hash (remove_all_if_unreferenced env removed_hashes) := by
  unfold remove_all_if_unreferenced
  induction removed_hashes.sort (· ≤ ·) with
  | nil => trivial
  | cons hash hashes ih =>
    refine ⟨trivial, ?_⟩
    intro outcome zone
    dsimp only
    split
    · exact ih
    · exact remove_cache_files_locked_keyed hash ih

theorem run_update_index_after_store_keyed (env : FileEnv) {key : String}
    {entry : CacheIndexEntry} (replaced_entry : Option (String × CacheIndexEntry))
    {next : Finset String → ZoneTask}
    (hkey : key.toList = cache_variant_key cache_bytes_hash entry.base_key.toList entry.vary)
    (h : ∀ hashes, KeyedTask cache_bytes_hash (next hashes)) :
    KeyedTask cache_bytes_hash (run_update_index_after_store env key entry replaced_entry next) :=
  ⟨hkey, fun _ _ => h _⟩

theorem cleanup_failed_write_keyed (hash : String) (remove_final : Bool) {next : ZoneTask}
    (h : KeyedTask cache_bytes_hash next) :
    KeyedTask cache_bytes_hash (cleanup_failed_write hash remove_final next) := by
  unfold cleanup_failed_write
  split
  · exact ⟨trivial, fun _ _ => ⟨trivial, fun _ _ => h⟩⟩
  · exact h

theorem commit_cache_entry_temp_body_keyed (hash : String) {committed failed : ZoneTask}
    (hcommitted : KeyedTask cache_bytes_hash committed)
    (hfailed : KeyedTask cache_bytes_hash failed) :
    KeyedTask cache_bytes_hash (commit_cache_entry_temp_body hash committed failed) := by
  refine ⟨trivial, ?_⟩
  intro outcome _
  dsimp only
  split
  · refine ⟨trivial, ?_⟩
    intro outcome _
    dsimp only
    split
    · refine ⟨trivial, ?_⟩
      intro outcome _
      dsimp only
      split
      · exact hcommitted
      · exact cleanup_failed_write_keyed hash true hfailed
    · exact cleanup_failed_write_keyed hash false hfailed
  · exact cleanup_failed_write_keyed hash false hfailed

theorem finalize_streaming_cache_keyed (env : FileEnv) {plan : StreamingCachePlan}
    (body_size_bytes : Nat)
    (hkey : plan.final_key.toList =
      cache_variant_key cache_bytes_hash plan.base_key.toList plan.vary) :
    KeyedTask cache_bytes_hash (finalize_streaming_cache env plan body_size_bytes) := by
  unfold finalize_streaming_cache
  split
  · unfold remember_hit_for_pass_from_plan
    split
    · trivial
    · exact run_update_index_after_store_keyed env _ hkey (remove_all_if_unreferenced_keyed env)
  · split
    · trivial
    · refine commit_cache_entry_temp_body_keyed plan.hash ?_ trivial
      exact run_update_index_after_store_keyed env _ hkey (remove_all_if_unreferenced_keyed env)

theorem refresh_metadata_keyed (env : FileEnv) (hash : String) {key : String}
    {entry : CacheIndexEntry} (replaced_entry : Option (String × CacheIndexEntry))
    (hkey : key.toList = cache_variant_key cache_bytes_hash entry.base_key.toList entry.vary) :
    KeyedTask cache_bytes_hash (refresh_metadata env hash key entry replaced_entry) := by
  refine ⟨trivial, ?_⟩
  intro outcome _
  dsimp only
  split
  · refine run_update_index_after_store_keyed env _ hkey ?_
    intro removed_hashes
    refine ⟨trivial, ?_⟩
    intro outcome _
    change KeyedTask cache_bytes_hash (if _ then _ else _)
    split
    · exact remove_all_if_unreferenced_keyed env removed_hashes
    · trivial
  · trivial

theorem drop_not_modified_keyed (env : FileEnv) (context : NotModified)
    (cached_entry : CacheIndexEntry) (removed_hashes : Finset String) :
    KeyedTask cache_bytes_hash (drop_not_modified env context cached_entry removed_hashes) := by
  unfold drop_not_modified
  split
  · refine ⟨trivial, ?_⟩
    intro _ zone
    dsimp only
    split
    · exact remove_cache_files_locked_keyed _ trivial
    · trivial
  · exact remove_all_if_unreferenced_keyed env removed_hashes

theorem remember_hit_for_pass_keyed (env : FileEnv) {context : NotModified}
    {next : Finset String → ZoneTask}
    (hkey : context.final_key.toList =
      cache_variant_key cache_bytes_hash context.base_key.toList context.vary)
    (h : ∀ hashes, KeyedTask cache_bytes_hash (next hashes)) :
    KeyedTask cache_bytes_hash (remember_hit_for_pass env context next) := by
  unfold remember_hit_for_pass
  split
  · exact h ∅
  · exact run_update_index_after_store_keyed env _ hkey h

/-- A refresh keeps the key of its entry, or moves the entry to the key of its new headers. -/
theorem refresh_not_modified_response_keyed (env : FileEnv) {context : NotModified}
    (hkey : context.final_key.toList =
      cache_variant_key cache_bytes_hash context.base_key.toList context.vary) :
    KeyedTask cache_bytes_hash (refresh_not_modified_response env context) := by
  unfold refresh_not_modified_response
  split
  · rename_i cached_entry body_size_bytes _ _
    dsimp only
    split
    · exact refresh_metadata_keyed env _ _ hkey
    · split
      · refine ⟨trivial, ?_⟩
        intro outcome _
        change KeyedTask cache_bytes_hash (if _ then _ else _)
        split
        · split
          · exact remember_hit_for_pass_keyed env hkey
              (drop_not_modified_keyed env context cached_entry)
          · exact drop_not_modified_keyed env context cached_entry ∅
        · trivial
      · rename_i hkept
        have hsame : context.final_key = context.key := by
          by_contra hother
          exact hkept (by simp [hother])
        refine refresh_metadata_keyed env _ _ ?_
        rw [← hsame]
        exact hkey
  · trivial

variable (cache_bytes_hash) in
/-- The key and the values of an operation are those that `cache_final_key_for_response` gives for
a request and the headers of a response. -/
def FinalKey (base_key final_key : String) (vary : List CachedVaryHeaderValue) : Prop :=
  ∃ policy request headers, (final_key.toList, vary) =
    cache_final_key_for_response cache_bytes_hash policy base_key.toList request headers

theorem FinalKey.keyed {base_key final_key : String} {vary : List CachedVaryHeaderValue}
    (h : FinalKey cache_bytes_hash base_key final_key vary) :
    final_key.toList = cache_variant_key cache_bytes_hash base_key.toList vary := by
  obtain ⟨policy, request, headers, hfinal⟩ := h
  have hkey := final_key_eq_variant_key cache_bytes_hash policy base_key.toList request headers
  rw [← hfinal] at hkey
  exact hkey

variable (cache_bytes_hash) in
def ZoneOperation.Keyed : ZoneOperation → Prop
  | .store plan _ => FinalKey cache_bytes_hash plan.base_key plan.final_key plan.vary
  | .refresh context | .pass context =>
    FinalKey cache_bytes_hash context.base_key context.final_key context.vary
  | .drop _ _ | .purge _ _ | .cleanup _ _ _ => True

theorem ZoneOperation.task_keyed (env : FileEnv) {operation : ZoneOperation}
    (h : operation.Keyed cache_bytes_hash) :
    KeyedTask cache_bytes_hash (operation.task env) := by
  cases operation with
  | store plan body_size_bytes => exact finalize_streaming_cache_keyed env body_size_bytes h.keyed
  | refresh context => exact refresh_not_modified_response_keyed env h.keyed
  | drop key expected_entry =>
    refine ⟨trivial, ?_⟩
    intro _ zone
    dsimp only
    split
    · exact remove_cache_files_locked_keyed _ trivial
    · trivial
  | purge order selector =>
    exact ⟨trivial, fun _ _ => remove_all_if_unreferenced_keyed env _⟩
  | cleanup now inactive_ms batch_size =>
    exact ⟨trivial, fun _ _ => remove_all_if_unreferenced_keyed env _⟩
  | pass context =>
    exact remember_hit_for_pass_keyed env h.keyed (remove_all_if_unreferenced_keyed env)

/-! ## Every run -/

/-- A turn of a zone: a turn of its tasks, or a call of the index that is none of theirs. -/
inductive VariantTurn
  | task (turn : ZoneTurn)
  | index_call (call : LocalCall)

def VariantTurn.run (env : FileEnv) (world : ZoneWorld) : VariantTurn → ZoneWorld
  | .task turn => world.turn (ZoneSection.effect env) (turn.turn env)
  | .index_call call =>
    { world with state := { world.state with index := (call.run world.state.index).1 } }

/-- The turns of a zone, from an empty index. -/
def runVariants (env : FileEnv) (turns : List VariantTurn) : ZoneWorld :=
  turns.foldl (VariantTurn.run env) (World.start ⟨.default, ∅, ∅⟩)

variable (cache_bytes_hash) in
def VariantTurn.Keyed : VariantTurn → Prop
  | .task (.begin _ operation) => operation.Keyed cache_bytes_hash
  | .task (.step _ _) => True
  | .index_call call => call.Keyed cache_bytes_hash

variable (cache_bytes_hash) in
/-- The index is in order, and the tasks store under the keys of their entries. -/
abbrev ZoneKeyed (world : ZoneWorld) : Prop :=
  world.Within (ZoneSection.Keyed cache_bytes_hash)
    fun zone => VariantsKeyed cache_bytes_hash zone.index

theorem VariantTurn.run_keyed {env : FileEnv} {world : ZoneWorld}
    (h : ZoneKeyed cache_bytes_hash world) {turn : VariantTurn}
    (hkeyed : turn.Keyed cache_bytes_hash) :
    ZoneKeyed cache_bytes_hash (turn.run env world) := by
  cases turn with
  | task turn =>
    refine h.turn (fun part outcome zone hpart hzone => ?_) ?_
    · exact ZoneSection.effect_keyed hzone outcome hpart
    · intro task program hspawn
      cases turn with
      | begin task' operation =>
        obtain ⟨rfl, rfl⟩ := Turn.spawn.inj hspawn
        exact ZoneOperation.task_keyed env hkeyed
      | step task' outcome => cases hspawn
  | index_call call => exact ⟨call.run_keyed h.invariant hkeyed, h.tasks⟩

theorem runVariants_keyed (env : FileEnv) {turns : List VariantTurn}
    (h : ∀ turn ∈ turns, turn.Keyed cache_bytes_hash) :
    ZoneKeyed cache_bytes_hash (runVariants env turns) := by
  have hrun : ∀ world, ZoneKeyed cache_bytes_hash world →
      ZoneKeyed cache_bytes_hash (turns.foldl (VariantTurn.run env) world) := by
    induction turns with
    | nil => exact fun _ hworld => hworld
    | cons turn turns ih =>
      intro world hworld
      apply ih fun turn hturn => h turn (List.mem_cons_of_mem _ hturn)
      exact VariantTurn.run_keyed hworld (h turn List.mem_cons_self)
  exact hrun _ (World.start_within (default_variantsKeyed cache_bytes_hash))

/-! ## What a lookup finds -/

/-- The entry of the key has the values of the request. -/
def CacheIndex.Answers (index : CacheIndex) (request : CacheRequest) (key : String) : Prop :=
  ∃ entry, index.entries[key]? = some entry ∧ matches_vary_headers request entry.vary = true

theorem VariantsKeyed.unique {index : CacheIndex} (h : VariantsKeyed cache_bytes_hash index)
    {base_key : String} {request : CacheRequest} {key key' : String}
    (hkey : key ∈ index.variants.getD base_key []) (hkey' : key' ∈ index.variants.getD base_key [])
    (hanswers : index.Answers request key) (hanswers' : index.Answers request key') :
    key = key' := by
  obtain ⟨entry, hentry, hbase⟩ := (h.ok.variants.mem base_key key).mp hkey
  obtain ⟨entry', hentry', hbase'⟩ := (h.ok.variants.mem base_key key').mp hkey'
  obtain ⟨found, hfound, hmatch⟩ := hanswers
  obtain ⟨found', hfound', hmatch'⟩ := hanswers'
  obtain rfl := Option.some.inj (hentry.symm.trans hfound)
  obtain rfl := Option.some.inj (hentry'.symm.trans hfound')
  have hsame : entry.base_key = entry'.base_key := hbase.trans hbase'.symm
  have hcanonical := canonical_eq_of_matches hmatch hmatch'
    (h.alike key key' entry entry' hentry hentry' hsame)
  have htext : key.toList = key'.toList := by
    rw [h.keyed key entry hentry, h.keyed key' entry' hentry', hsame]
    exact cache_variant_key_congr cache_bytes_hash _ hcanonical
  exact String.ext_iff.mpr htext

end Keys

/-- A search that has at most one thing to find does not depend on the order. -/
theorem find?_eq_of_perm {α : Type} {p : α → Bool} {l l' : List α} (hperm : l'.Perm l)
    (hunique : ∀ a ∈ l, ∀ b ∈ l, p a = true → p b = true → a = b) : l'.find? p = l.find? p := by
  rcases hfound : l.find? p with _ | a
  · rw [List.find?_eq_none] at hfound ⊢
    intro b hb
    exact hfound b (hperm.mem_iff.mp hb)
  · have ha := List.mem_of_find?_eq_some hfound
    have hpa := List.find?_some hfound
    rcases hfound' : l'.find? p with _ | b
    · rw [List.find?_eq_none] at hfound'
      exact absurd hpa (hfound' a (hperm.mem_iff.mpr ha))
    · have hb := hperm.mem_iff.mp (List.mem_of_find?_eq_some hfound')
      rw [hunique b hb a ha (List.find?_some hfound') hpa]

/-- At most one variant answers a request. In every run of a zone from an empty index, in any order
of the turns of its stores, refreshes, markers, drops, purges and evictions: every key is made
from the base key and the values of its entry; the entries of one base key have the same
dimensions; of the variants of a base key at most one answers a request; and the order of the
variants does not change what a lookup finds. -/
theorem at_most_one_variant_answers (cache_bytes_hash : List UInt8 → Text) (env : FileEnv)
    (turns : List VariantTurn) (hkeyed : ∀ turn ∈ turns, turn.Keyed cache_bytes_hash) :
    let index := (runVariants env turns).state.index
    (∀ (key : String) entry, index.entries[key]? = some entry →
      key.toList = cache_variant_key cache_bytes_hash entry.base_key.toList entry.vary) ∧
    (∀ (key key' : String) entry entry', index.entries[key]? = some entry →
      index.entries[key']? = some entry' → entry.base_key = entry'.base_key →
      sorted_vary_dimension_names entry.vary = sorted_vary_dimension_names entry'.vary) ∧
    (∀ (base_key : String) (request : CacheRequest),
      ∀ key ∈ index.variants.getD base_key [], ∀ key' ∈ index.variants.getD base_key [],
        index.Answers request key → index.Answers request key' → key = key') ∧
    ∀ variants : Map (List String),
      (∀ base_key : String, variants.contains base_key = index.variants.contains base_key ∧
        (variants.getD base_key []).Perm (index.variants.getD base_key [])) →
      ∀ base_key request, matching_variant_key { index with variants } base_key request =
        matching_variant_key index base_key request := by
  intro index
  have h : VariantsKeyed cache_bytes_hash index := (runVariants_keyed env hkeyed).invariant
  refine ⟨h.keyed, h.alike, ?_, ?_⟩
  · intro base_key request key hkey key' hkey' hanswers hanswers'
    exact h.unique hkey hkey' hanswers hanswers'
  · intro variants hperm base_key request
    obtain ⟨hcontains, hlist⟩ := hperm base_key
    have hanswers : ∀ key : String, (index.entries[key]?.any fun entry =>
        matches_vary_headers request entry.vary) = true → index.Answers request key := by
      intro key hkey
      rw [Option.any_eq_true] at hkey
      exact hkey
    unfold matching_variant_key
    dsimp only
    rw [hcontains]
    split
    · rfl
    · rw [← getD_list_eq, ← getD_list_eq]
      apply find?_eq_of_perm hlist
      intro key hkey key' hkey' hfound hfound'
      exact h.unique hkey hkey' (hanswers key hfound) (hanswers key' hfound')

/-! ## Two variants -/

/-- A hash that keeps its bytes. -/
def byteText (bytes : List UInt8) : Text := bytes.map fun byte => Char.ofNat byte.toNat

def LANGUAGE : HeaderName := ⟨"accept-language", by decide⟩

/-- The key and the values for a request in a language, when the response varies by it. -/
def languageKey (language : String) : Text × List CachedVaryHeaderValue :=
  cache_final_key_for_response byteText (plainPolicy false) "a".toList
    (plainGet [(LANGUAGE, plainValue language)]) [(VARY, plainValue "Accept-Language")]

def languagePlan (language : String) : StreamingCachePlan :=
  { tenBytePlan with
    final_key := String.ofList (languageKey language).1
    vary := (languageKey language).2
    hash := language }

/-- Two stores for the same base key, one after the other. -/
def twoLanguages : List VariantTurn :=
  (.begin 0 (.store (languagePlan "de") 10) :: goodSteps 0 6 ++
    .begin 0 (.store (languagePlan "en") 10) :: goodSteps 0 6).map .task

theorem twoLanguages_keyed : ∀ turn ∈ twoLanguages, turn.Keyed byteText := by
  have hplan : ∀ language, FinalKey byteText "a" (languagePlan language).final_key
      (languagePlan language).vary := by
    intro language
    exact ⟨plainPolicy false, plainGet [(LANGUAGE, plainValue language)],
      [(VARY, plainValue "Accept-Language")], by simp [languagePlan, languageKey]⟩
  intro turn hturn
  simp only [twoLanguages, goodSteps, List.map_append, List.map_cons, List.map_replicate,
    List.mem_append, List.mem_cons, List.mem_replicate] at hturn
  rcases hturn with (rfl | ⟨-, rfl⟩) | rfl | ⟨-, rfl⟩
  · exact hplan "de"
  · trivial
  · exact hplan "en"
  · trivial

/-- Both variants are kept, and no request is answered by both. -/
theorem two_languages_answer_apart :
    ((runVariants oneStripe twoLanguages).state.index.variants.getD "a" []).length = 2 ∧
      ∀ request, ∀ key ∈ (runVariants oneStripe twoLanguages).state.index.variants.getD "a" [],
        ∀ key' ∈ (runVariants oneStripe twoLanguages).state.index.variants.getD "a" [],
          (runVariants oneStripe twoLanguages).state.index.Answers request key →
          (runVariants oneStripe twoLanguages).state.index.Answers request key' → key = key' :=
  ⟨by decide +kernel,
    (at_most_one_variant_answers byteText oneStripe twoLanguages twoLanguages_keyed).2.2.1 "a"⟩

end rginx.cache
