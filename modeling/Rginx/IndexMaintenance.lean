-- The functions that change the index of a zone, from `store/maintenance`,
-- `shared.rs` and `shared/delta.rs`. Each runs in one critical section of the
-- index lock, and gives the index it leaves and the operations that it
-- publishes to the shared index.
import Rginx.IndexInvariant

open tree_maps

namespace rginx.cache

/-! ## What a zone publishes -/

inductive SharedIndexOperation
  | UpsertEntry (key : String) (entry : CacheIndexEntry)
  | RemoveEntry (key : String)
  | TouchEntry (key : String) (last_access_unix_ms : Nat)
  | SetAdmissionCount (key : String) (uses : Nat)
  | RemoveAdmissionCount (key : String)
  | AddInvalidation (rule : CacheInvalidationRule)
  | ClearInvalidations
  deriving DecidableEq

/-- The two operations that every removal of an entry publishes. -/
def removal_operations (key : String) : List SharedIndexOperation :=
  [.RemoveEntry key, .RemoveAdmissionCount key]

/-! ## Entries that leave -/

/-- `if let Some(removed) = index.remove_entry(key)` and what stands under it: the size, the
admission count and the variants follow the entry out. -/
def drop_entry (index : CacheIndex) (key : String) : CacheIndex × Option CacheIndexEntry :=
  match index.remove_with_accounts key with
  | (index, none) => (index, none)
  | (index, some removed) => (index.remove_admission_count key, some removed)

/-- `drop_entry` for each key in turn, with the entries that went. -/
def drop_entries (index : CacheIndex) : List String → CacheIndex × List (String × CacheIndexEntry)
  | [] => (index, [])
  | key :: keys =>
    match drop_entry index key with
    | (index, none) => drop_entries index keys
    | (index, some removed) =>
      let (index, dropped) := drop_entries index keys
      (index, (key, removed) :: dropped)

/-- The operations that the removal of the listed entries publishes. -/
def dropped_operations (dropped : List (String × CacheIndexEntry)) : List SharedIndexOperation :=
  dropped.flatMap fun row => removal_operations row.1

/-! ## Eviction and the cleanup of inactive entries -/

/-- The last access of a key: the one that the zone has seen, or the one in the entry. -/
def effective_last_access_unix_ms (hot : HotEntries) (key : String) (entry : CacheIndexEntry) :
    Nat :=
  match hot[key]? with
  | none => entry.last_access_unix_ms
  | some state => max state.last_access_unix_ms entry.last_access_unix_ms

/-- What one turn of a loop over the schedule did. -/
inductive ScheduleTurn
  | Stopped
  | Kept (index : CacheIndex)
  | Removed (index : CacheIndex) (key : String) (entry : CacheIndexEntry)

/-- The oldest record leaves the schedule. Its key is scheduled again, at the effective access,
when that is `later`; otherwise its entry goes, and the variants are left to the caller. -/
def schedule_turn (hot : HotEntries) (later : Nat → Nat → Bool) (index : CacheIndex) :
    ScheduleTurn :=
  match index.pop_oldest_scheduled_entry with
  | none => .Stopped
  | some ((key, scheduled_last_access_unix_ms), index) =>
    match index.entries[key]? with
    | none => .Kept index
    | some entry =>
      let effective := effective_last_access_unix_ms hot key entry
      if later effective scheduled_last_access_unix_ms then
        .Kept (index.reschedule_entry_access key effective)
      else
        match index.remove_entry key with
        | (index, none) => .Kept index
        | (index, some entry) =>
          let index :=
            { index with
              current_size_bytes := index.current_size_bytes - entry.body_size_bytes }
          .Removed (index.remove_admission_count key) key entry

/-- The turns of a loop while `goes_on` holds of the index and of the entries removed so far.
The first argument bounds the turns; `schedule_loop_ends` says how many are enough. -/
def schedule_loop (hot : HotEntries) (later : Nat → Nat → Bool)
    (goes_on : CacheIndex → Nat → Bool) :
    Nat → CacheIndex → Nat → CacheIndex × List (String × CacheIndexEntry)
  | 0, index, _ => (index, [])
  | turns + 1, index, count =>
    if goes_on index count then
      match schedule_turn hot later index with
      | .Stopped => (index, [])
      | .Kept index => schedule_loop hot later goes_on turns index count
      | .Removed index key entry =>
        let (index, removed) := schedule_loop hot later goes_on turns index (count + 1)
        (index, (key, entry) :: removed)
    else (index, [])

/-- Two turns for each record: one to move it and one to take it. -/
def enough_turns (index : CacheIndex) : Nat := 2 * index.access_schedule.card

/-- The hot state does not change during the loop: an access recorded meanwhile counts as
recorded after it. -/
def eviction_candidates (hot : HotEntries) (index : CacheIndex) (max_size_bytes : Option Nat) :
    CacheIndex × List (String × CacheIndexEntry) :=
  match max_size_bytes with
  | none => (index, [])
  | some max_size_bytes =>
    schedule_loop hot (fun effective scheduled => decide (scheduled < effective))
      (fun index _ => decide (max_size_bytes < index.current_size_bytes))
      (enough_turns index) index 0

/-- The cutoff of a cleanup: an access before it is due. -/
def oldest_is_due (cutoff : Nat) (index : CacheIndex) : Bool :=
  match index.oldest_scheduled_access_unix_ms with
  | none => false
  | some last_access_unix_ms => decide (last_access_unix_ms < cutoff)

def inactive_cleanup_candidates (hot : HotEntries) (index : CacheIndex)
    (now inactive_ms batch_size : Nat) : CacheIndex × List (String × CacheIndexEntry) × Bool :=
  if batch_size = 0 then (index, [], false)
  else
    let cutoff := now - inactive_ms
    let (index, removed) :=
      schedule_loop hot
        (fun effective scheduled =>
          decide (scheduled < effective) || decide (now - effective ≤ inactive_ms))
        (fun index count => decide (count < batch_size) && oldest_is_due cutoff index)
        (enough_turns index) index 0
    (index, removed, oldest_is_due cutoff index)

/-- The variants of the entries that a loop removed, one after the other. -/
def remove_variant_keys (variants : Map (List String)) :
    List (String × CacheIndexEntry) → Map (List String)
  | [] => variants
  | (key, entry) :: removed =>
    remove_variant_keys (remove_variant_key variants entry.base_key key) removed

/-! ## The store of an entry -/

/-- The names of the dimensions, in the order of `sort_unstable`. -/
def sorted_vary_dimension_names (vary : List CachedVaryHeaderValue) : List String :=
  (vary.map (·.name.as_str)).insertionSort (· ≤ ·)

def variant_keys_with_different_dimensions (index : CacheIndex) (entry : CacheIndexEntry)
    (key : String) : List String :=
  (index.variants.getD entry.base_key []).filter fun candidate =>
    candidate ≠ key &&
      match index.entries[candidate]? with
      | none => false
      | some existing =>
        sorted_vary_dimension_names existing.vary ≠ sorted_vary_dimension_names entry.vary

/-- What `update_index_after_store` leaves behind. -/
structure StoreUpdate where
  index : CacheIndex
  removed_hashes : Finset String
  removed_keys : List String
  eviction_count : Nat
  shared_operations : List SharedIndexOperation

/-- The hashes of the rows other than the hash of the new entry. -/
def other_hashes (hash : String) (rows : List (String × CacheIndexEntry)) : Finset String :=
  ((rows.map (·.2.hash)).filter (· ≠ hash)).toFinset

/-- The replaced key goes only while its entry is the one that the caller saw. -/
def replaced_keys (index : CacheIndex) (replaced_entry : Option (String × CacheIndexEntry)) :
    List String :=
  match replaced_entry with
  | none => []
  | some (replaced_key, expected_entry) =>
    match index.entries[replaced_key]? with
    | none => []
    | some current => if current.stable_eq expected_entry then [replaced_key] else []

def update_index_after_store (hot : HotEntries) (max_size_bytes : Option Nat)
    (index : CacheIndex) (key : String) (entry : CacheIndexEntry)
    (replaced_entry : Option (String × CacheIndexEntry)) : StoreUpdate :=
  let (index, replaced) := drop_entries index (replaced_keys index replaced_entry)
  let (index, incompatible) :=
    drop_entries index (variant_keys_with_different_dimensions index entry key)
  let (index, existing) := index.insert_with_accounts key entry
  let index := index.remove_admission_count key
  let overwritten := match existing with
    | some existing => [(key, existing)]
    | none => []
  let (index, evicted) := eviction_candidates hot index max_size_bytes
  let index :=
    { index with
      admission_counts := eraseKeys index.admission_counts (evicted.map (·.1))
      variants := remove_variant_keys index.variants evicted }
  let removed := replaced ++ incompatible ++ overwritten ++ evicted
  { index
    removed_hashes := other_hashes entry.hash removed
    removed_keys := removed.map (·.1)
    eviction_count := evicted.length
    shared_operations :=
      dropped_operations replaced ++ dropped_operations incompatible ++
        [.UpsertEntry key entry, .RemoveAdmissionCount key] ++ dropped_operations evicted }

/-! ## The other changes -/

/-- Whether the attempt is admitted, and the index and the operations after it. -/
def record_cache_admission_attempt (index : CacheIndex) (key : String) (min_uses : Nat) :
    CacheIndex × List SharedIndexOperation × Bool :=
  if min_uses ≤ 1 ∨ index.entries.contains key then
    (index.remove_admission_count key,
      if index.admission_counts.contains key then [.RemoveAdmissionCount key] else [], true)
  else
    let uses := saturating_add (index.admission_counts.getD key 0) 1
    if min_uses ≤ uses then
      (index.remove_admission_count key, [.RemoveAdmissionCount key], true)
    else
      ({ index with admission_counts := index.admission_counts.insert key uses },
        [.SetAdmissionCount key uses], false)

structure RemovedIndexEntry where
  hash : String
  delete_files : Bool
  deriving DecidableEq, Repr

/-- Nothing happens unless the key still has the expected entry. -/
def remove_zone_index_entry_if_matches (index : CacheIndex) (key : String)
    (expected_entry : CacheIndexEntry) :
    CacheIndex × List SharedIndexOperation × Option RemovedIndexEntry :=
  match index.entries[key]? with
  | none => (index, [], none)
  | some current =>
    if current.stable_eq expected_entry then
      match drop_entry index key with
      | (index, none) => (index, [], none)
      | (index, some removed) =>
        (index, removal_operations key,
          some ⟨removed.hash, !index.hash_is_referenced removed.hash⟩)
    else (index, [], none)

/-- One batch of `cleanup_inactive_entries_in_zone`. -/
def cleanup_inactive_batch (hot : HotEntries) (index : CacheIndex)
    (now inactive_ms batch_size : Nat) :
    CacheIndex × List SharedIndexOperation × List (String × CacheIndexEntry) × Bool :=
  let (index, removed, has_more_due) :=
    inactive_cleanup_candidates hot index now inactive_ms (max batch_size 1)
  ({ index with variants := remove_variant_keys index.variants removed },
    dropped_operations removed, removed, has_more_due)

inductive PurgeSelector
  | All
  | Exact (key : String)
  | Prefix (text : String)
  deriving DecidableEq, Repr

/-- `str::starts_with`. -/
def starts_with (key text : String) : Bool := text.toList.isPrefixOf key.toList

def purge_selector_matches (selector : PurgeSelector) (key : String) : Bool :=
  match selector with
  | .All => true
  | .Exact expected => key = expected
  | .Prefix text => starts_with key text

def purge_zone_entries (order : HashOrder) (index : CacheIndex) (selector : PurgeSelector) :
    CacheIndex × List SharedIndexOperation × List (String × CacheIndexEntry) :=
  let matching_keys := (order.walk index.entries.keys).filter (purge_selector_matches selector)
  let (index, removed) := drop_entries index matching_keys
  (index, dropped_operations removed, removed)

/-- The access of a key, once the zone has decided to publish it. -/
def record_zone_shared_entry_access (index : CacheIndex) (key : String)
    (last_access_unix_ms : Nat) : CacheIndex × List SharedIndexOperation :=
  match index.touch_entry key last_access_unix_ms with
  | (index, true) => (index, [.TouchEntry key last_access_unix_ms])
  | (index, false) => (index, [])

/-- The rule that `invalidate_zone_entries` has built joins the index. -/
def add_invalidation (index : CacheIndex) (rule : CacheInvalidationRule) :
    CacheIndex × List SharedIndexOperation :=
  ({ index with invalidations := index.invalidations ++ [rule] }, [.AddInvalidation rule])

def clear_zone_invalidations (index : CacheIndex) : CacheIndex × List SharedIndexOperation :=
  ({ index with invalidations := [] }, [.ClearInvalidations])

/-! ## The replay of a delta -/

def apply_shared_index_operation (index : CacheIndex) : SharedIndexOperation → CacheIndex
  | .UpsertEntry key entry => (index.insert_with_accounts key entry).1
  | .RemoveEntry key => (index.remove_with_accounts key).1
  | .TouchEntry key last_access_unix_ms => (index.touch_entry key last_access_unix_ms).1
  | .SetAdmissionCount key uses =>
    { index with admission_counts := index.admission_counts.insert key uses }
  | .RemoveAdmissionCount key => index.remove_admission_count key
  | .AddInvalidation rule =>
    if rule ∈ index.invalidations then index
    else { index with invalidations := index.invalidations ++ [rule] }
  | .ClearInvalidations => { index with invalidations := [] }

/-- The index part of `apply_shared_index_delta`. -/
def apply_shared_index_delta (index : CacheIndex) (operations : List SharedIndexOperation) :
    CacheIndex :=
  operations.foldl apply_shared_index_operation index

/-! ## The load from disk -/

structure ScannedVaryHeader where
  name : String
  value : Option String
  deriving DecidableEq, Repr

/-- What `serde_json` reads from a metadata file. -/
structure ScannedCacheMetadata where
  key : String
  base_key : String
  vary : List ScannedVaryHeader
  tags : List String
  stored_at_unix_ms : Nat
  expires_at_unix_ms : Nat
  kind : CacheIndexEntryKind
  grace_until_unix_ms : Option Nat
  keep_until_unix_ms : Option Nat
  stale_if_error_until_unix_ms : Option Nat
  stale_while_revalidate_until_unix_ms : Option Nat
  requires_revalidation : Option Bool
  must_revalidate : Bool
  body_size_bytes : Nat

/-- One metadata file of the cache directory: the hash in its name, what it holds when it can
be read, and the size of the body file beside it when there is one. -/
structure ScannedFile where
  hash : String
  metadata : Option ScannedCacheMetadata
  body_size : Option Nat

def parse_vary_headers (vary : List ScannedVaryHeader) : Option (List CachedVaryHeaderValue) :=
  vary.mapM fun header =>
    (HeaderName.parse header.name).map fun name => ⟨name, header.value⟩

/-- A file whose key has another hash, whose body has another size or whose headers do not
parse gives no entry. -/
def load_cache_index_entry (cache_key_hash : String → String) (file : ScannedFile) :
    Option (String × CacheIndexEntry) :=
  match file.metadata, file.body_size with
  | some metadata, some body_size =>
    if metadata.key = "" ∨ cache_key_hash metadata.key ≠ file.hash then none
    else if body_size ≠ metadata.body_size_bytes then none
    else
      (parse_vary_headers metadata.vary).map fun vary =>
        (metadata.key,
          { kind := metadata.kind
            hash := file.hash
            base_key := if metadata.base_key = "" then metadata.key else metadata.base_key
            stored_at_unix_ms := metadata.stored_at_unix_ms
            vary
            tags := metadata.tags
            body_size_bytes := metadata.body_size_bytes
            expires_at_unix_ms := metadata.expires_at_unix_ms
            grace_until_unix_ms := metadata.grace_until_unix_ms
            keep_until_unix_ms := metadata.keep_until_unix_ms
            stale_if_error_until_unix_ms := metadata.stale_if_error_until_unix_ms
            stale_while_revalidate_until_unix_ms := metadata.stale_while_revalidate_until_unix_ms
            requires_revalidation :=
              metadata.requires_revalidation.getD metadata.must_revalidate
            must_revalidate := metadata.must_revalidate
            last_access_unix_ms := metadata.stored_at_unix_ms })
  | _, _ => none

/-- The rows go into the index in the order in which they come. -/
def insert_rows (index : CacheIndex) (rows : List (String × CacheIndexEntry)) : CacheIndex :=
  rows.foldl (fun index row => (index.insert_with_accounts row.1 row.2).1) index

/-- The loop at the end of `load_index_from_disk`: the oldest entries go until the others fit.
A turn for each record is enough. -/
def load_trim_loop (max_size_bytes : Nat) : Nat → CacheIndex → CacheIndex
  | 0, index => index
  | turns + 1, index =>
    if max_size_bytes < index.current_size_bytes then
      match index.pop_oldest_scheduled_entry with
      | none => index
      | some ((key, _), index) =>
        load_trim_loop max_size_bytes turns (index.remove_with_accounts key).1
    else index

/-- The files are those of the whole directory tree, in the order in which the scan meets
them. -/
def load_index_from_disk (cache_key_hash : String → String) (max_size_bytes : Option Nat)
    (files : List ScannedFile) : CacheIndex :=
  let index := insert_rows CacheIndex.default (files.filterMap (load_cache_index_entry cache_key_hash))
  match max_size_bytes with
  | none => index
  | some max_size_bytes => load_trim_loop max_size_bytes index.access_schedule.card index

end rginx.cache
