-- The files of a zone, from `cache/entry/write.rs`, `cache/io.rs`,
-- `cache/runtime/support.rs`, `cache/store/revalidate.rs` and
-- `cache/store/streaming/finalize.rs`: each operation as its sections on the
-- index and on the disk, with the io locks that it takes between them.
import Rginx.AtomicSections
import Rginx.IndexCalls
import Rginx.CacheLookup

open atomic_sections

namespace rginx.cache

/-! ## The disk and the sections -/

/-- The index of a zone, and the hashes whose `.meta.json` and `.body` files are on the disk. -/
structure ZoneFiles where
  index : CacheIndex
  metadata : Finset String
  body : Finset String

/-- What the zone fixes: the stripe of the io lock of a hash, the hash of a key, and the
configured size. -/
structure FileEnv where
  stripe : String → Nat
  cache_key_hash : String → String
  max_size_bytes : Option Nat

/-- The two files of a hash. -/
inductive CacheFile
  | metadata
  | body
  deriving DecidableEq, Repr

/-- A critical section of the index lock, or one operation on a file. -/
inductive ZoneSection
  | read_index
  | update_index_after_store (key : String) (entry : CacheIndexEntry)
      (replaced_entry : Option (String × CacheIndexEntry))
  | remove_zone_index_entry_if_matches (key : String) (expected_entry : CacheIndexEntry)
  | purge_zone_entries (order : HashOrder) (selector : PurgeSelector)
  | cleanup_inactive_batch (now inactive_ms batch_size : Nat)
  | write_metadata_tmp
  | rename_body (hash : String)
  | rename_metadata (hash : String)
  | write_cache_metadata (hash : String)
  | build_cached_response (hash : String)
  | remove_file (file : CacheFile) (hash : String)

/-- What a section meets outside: whether its operation on a file succeeds, and the accesses
that the zone has seen. -/
structure SectionOutcome where
  ok : Bool
  hot : HotEntries

/-- The call of the index that a section makes. -/
def ZoneSection.call (env : FileEnv) (outcome : SectionOutcome) : ZoneSection → Option LocalCall
  | .update_index_after_store key entry replaced_entry =>
    some (.store outcome.hot env.max_size_bytes key entry replaced_entry)
  | .remove_zone_index_entry_if_matches key expected_entry => some (.remove key expected_entry)
  | .purge_zone_entries order selector => some (.purge order selector)
  | .cleanup_inactive_batch now inactive_ms batch_size =>
    some (.cleanup outcome.hot now inactive_ms batch_size)
  | _ => none

/-- An operation on a file that fails changes nothing. A temporary file has its own name, and a
response is built from files that stay. -/
def ZoneSection.effect (env : FileEnv) (part : ZoneSection) (outcome : SectionOutcome)
    (zone : ZoneFiles) : ZoneFiles :=
  match part with
  | .rename_body hash => if outcome.ok then { zone with body := insert hash zone.body } else zone
  | .rename_metadata hash | .write_cache_metadata hash =>
    if outcome.ok then { zone with metadata := insert hash zone.metadata } else zone
  | .remove_file .metadata hash =>
    if outcome.ok then { zone with metadata := zone.metadata.erase hash } else zone
  | .remove_file .body hash =>
    if outcome.ok then { zone with body := zone.body.erase hash } else zone
  | part =>
    match part.call env outcome with
    | some call => { zone with index := (call.run zone.index).1 }
    | none => zone

abbrev ZoneTask := Program Nat ZoneSection SectionOutcome ZoneFiles

abbrev ZoneWorld := World Nat ZoneSection SectionOutcome ZoneFiles

/-! ## The removal of files -/

section Tasks

variable (env : FileEnv)

/-- The name says what the callers should hold. -/
def remove_cache_files_locked (hash : String) (next : ZoneTask) : ZoneTask :=
  .run (.remove_file .metadata hash) fun _ _ =>
    .run (.remove_file .body hash) fun _ _ => next

def remove_cache_files_if_unreferenced (hash : String) (next : ZoneTask) : ZoneTask :=
  .acquire (env.stripe hash) <|
    .run .read_index fun _ zone =>
      if zone.index.hash_is_referenced hash then .release (env.stripe hash) next
      else remove_cache_files_locked hash (.release (env.stripe hash) next)

/-- The loop over the removed hashes, at the end of an operation. -/
def remove_each_if_unreferenced : List String → ZoneTask
  | [] => .done
  | hash :: hashes =>
    remove_cache_files_if_unreferenced env hash (remove_each_if_unreferenced hashes)

/-- A `BTreeSet` is walked in order. -/
def remove_all_if_unreferenced (removed_hashes : Finset String) : ZoneTask :=
  remove_each_if_unreferenced env (removed_hashes.sort (· ≤ ·))

def remove_cache_entry_if_matches (key : String) (expected_entry : CacheIndexEntry) : ZoneTask :=
  .acquire (env.stripe expected_entry.hash) <|
    .run (.remove_zone_index_entry_if_matches key expected_entry) fun _ zone =>
      match (remove_zone_index_entry_if_matches zone.index key expected_entry).2.2 with
      | some ⟨hash, true⟩ =>
        remove_cache_files_locked hash (.release (env.stripe expected_entry.hash) .done)
      | _ => .release (env.stripe expected_entry.hash) .done

/-- The set of the hashes of the rows. -/
def row_hashes (rows : List (String × CacheIndexEntry)) : Finset String :=
  (rows.map (·.2.hash)).toFinset

def purge_zone_files (order : HashOrder) (selector : PurgeSelector) : ZoneTask :=
  .run (.purge_zone_entries order selector) fun _ zone =>
    remove_all_if_unreferenced env
      (row_hashes (purge_zone_entries order zone.index selector).2.2)

/-- One round of `cleanup_inactive_entries_in_zone`; the next one is a task of its own. -/
def cleanup_inactive_files (now inactive_ms batch_size : Nat) : ZoneTask :=
  .run (.cleanup_inactive_batch now inactive_ms batch_size) fun outcome zone =>
    remove_all_if_unreferenced env
      (row_hashes (cleanup_inactive_batch outcome.hot zone.index now inactive_ms batch_size).2.2.1)

/-! ## The stores -/

/-- The section of a store, and what follows it with the hashes that it removed. -/
def run_update_index_after_store (key : String) (entry : CacheIndexEntry)
    (replaced_entry : Option (String × CacheIndexEntry)) (next : Finset String → ZoneTask) :
    ZoneTask :=
  .run (.update_index_after_store key entry replaced_entry) fun outcome zone =>
    next (update_index_after_store outcome.hot env.max_size_bytes zone.index key entry
      replaced_entry).removed_hashes

/-- The entry of `remember_hit_for_pass` and of `remember_hit_for_pass_from_plan`. -/
def hit_for_pass_entry (final_key base_key : String) (vary : List CachedVaryHeaderValue)
    (tags : List String) (now pass_ttl : Nat) : CacheIndexEntry :=
  let expires_at_unix_ms := saturating_add now (duration_to_ms pass_ttl)
  { kind := .HitForPass
    hash := env.cache_key_hash ("pass:" ++ final_key)
    base_key
    stored_at_unix_ms := now
    vary
    tags
    body_size_bytes := 0
    expires_at_unix_ms
    grace_until_unix_ms := none
    keep_until_unix_ms := some expires_at_unix_ms
    stale_if_error_until_unix_ms := none
    stale_while_revalidate_until_unix_ms := none
    requires_revalidation := false
    must_revalidate := false
    last_access_unix_ms := now }

/-- What a finished stream brings to `finalize_streaming_cache`. -/
structure StreamingCachePlan where
  base_key : String
  final_key : String
  vary : List CachedVaryHeaderValue
  tags : List String
  freshness : ResponseFreshness
  now : Nat
  hash : String
  max_entry_bytes : Nat
  grace : Option Nat
  keep : Option Nat
  pass_ttl : Option Nat
  expected_body_bytes : Option Nat
  replaced_entry : Option (String × CacheIndexEntry)

def StreamingCachePlan.entry (plan : StreamingCachePlan) (body_size_bytes : Nat) :
    CacheIndexEntry :=
  (cache_metadata_input plan.base_key plan.vary plan.tags plan.now plan.grace plan.keep
    plan.freshness body_size_bytes).entry plan.hash plan.now

/-- The two final files go only when the last rename fails; the temporary ones go always. -/
def cleanup_failed_write (hash : String) (remove_final : Bool) (next : ZoneTask) : ZoneTask :=
  if remove_final then
    .run (.remove_file .body hash) fun _ _ => .run (.remove_file .metadata hash) fun _ _ => next
  else next

/-- The directory and the text of the metadata are part of the first write here. -/
def commit_cache_entry_temp_body (hash : String) (committed failed : ZoneTask) : ZoneTask :=
  .run .write_metadata_tmp fun outcome _ =>
    if outcome.ok then
      .run (.rename_body hash) fun outcome _ =>
        if outcome.ok then
          .run (.rename_metadata hash) fun outcome _ =>
            if outcome.ok then committed else cleanup_failed_write hash true failed
        else cleanup_failed_write hash false failed
    else cleanup_failed_write hash false failed

def remember_hit_for_pass_from_plan (plan : StreamingCachePlan) : ZoneTask :=
  match plan.pass_ttl with
  | none => .done
  | some pass_ttl =>
    run_update_index_after_store env plan.final_key
      (hit_for_pass_entry env plan.final_key plan.base_key plan.vary plan.tags plan.now pass_ttl)
      plan.replaced_entry (remove_all_if_unreferenced env)

def finalize_streaming_cache (plan : StreamingCachePlan) (body_size_bytes : Nat) : ZoneTask :=
  if plan.max_entry_bytes < body_size_bytes then remember_hit_for_pass_from_plan env plan
  else if plan.expected_body_bytes.any (· ≠ body_size_bytes) then .done
  else
    .acquire (env.stripe plan.hash) <|
      commit_cache_entry_temp_body plan.hash
        (run_update_index_after_store env plan.final_key (plan.entry body_size_bytes)
          plan.replaced_entry fun removed_hashes =>
            .release (env.stripe plan.hash) (remove_all_if_unreferenced env removed_hashes))
        (.release (env.stripe plan.hash) .done)

/-! ## The refresh after a 304 -/

/-- What `refresh_not_modified_response` reads of its context, and what it computes from the
request and the two heads before its first section: whether the response is under a `no_cache`
condition, whether it is storable, whether it should be remembered as a pass, its freshness,
and its key. -/
structure NotModified where
  key : String
  base_key : String
  cached_entry : Option CacheIndexEntry
  cached_body_size_bytes : Option Nat
  grace : Option Nat
  keep : Option Nat
  pass_ttl : Option Nat
  now : Nat
  no_cache : Bool
  storable : Bool
  should_remember_hit_for_pass : Bool
  freshness : ResponseFreshness
  final_key : String
  vary : List CachedVaryHeaderValue
  tags : List String

def freshness_is_cacheable (freshness : ResponseFreshness) : Bool :=
  freshness.ttl ≠ 0 || freshness.requires_revalidation || freshness.must_revalidate ||
    freshness.stale_if_error.isSome || freshness.stale_while_revalidate.isSome

def NotModified.metadata_input (context : NotModified) (body_size_bytes : Nat) :
    CacheMetadataInput :=
  cache_metadata_input context.base_key context.vary context.tags context.now context.grace
    context.keep context.freshness body_size_bytes

/-- `remember_hit_for_pass`, for the context of a refresh. -/
def remember_hit_for_pass (context : NotModified) (next : Finset String → ZoneTask) : ZoneTask :=
  match context.pass_ttl with
  | none => next ∅
  | some pass_ttl =>
    run_update_index_after_store env context.final_key
      (hit_for_pass_entry env context.final_key context.base_key context.vary context.tags
        context.now pass_ttl)
      (context.cached_entry.map fun entry => (context.key, entry)) next

/-- The branches that keep the body: the metadata is written, the entry goes into the index
under the hash that it had, and the response is built. A failure leaves at once. -/
def refresh_metadata (hash key : String) (entry : CacheIndexEntry)
    (replaced_entry : Option (String × CacheIndexEntry)) : ZoneTask :=
  .acquire (env.stripe hash) <|
    .run (.write_cache_metadata hash) fun outcome _ =>
      if outcome.ok then
        run_update_index_after_store env key entry replaced_entry fun removed_hashes =>
          .run (.build_cached_response hash) fun outcome _ =>
            .release (env.stripe hash)
              (if outcome.ok then remove_all_if_unreferenced env removed_hashes else .done)
      else .release (env.stripe hash) .done

/-- The end of the branch for a response that is not to be kept. The io lock has been given
back when the entry and its files go. -/
def drop_not_modified (context : NotModified) (cached_entry : CacheIndexEntry)
    (removed_hashes : Finset String) : ZoneTask :=
  if removed_hashes = ∅ then
    .run (.remove_zone_index_entry_if_matches context.key cached_entry) fun _ zone =>
      match (remove_zone_index_entry_if_matches zone.index context.key cached_entry).2.2 with
      | some ⟨hash, true⟩ => remove_cache_files_locked hash .done
      | _ => .done
  else remove_all_if_unreferenced env removed_hashes

def refresh_not_modified_response (context : NotModified) : ZoneTask :=
  match context.cached_entry, context.cached_body_size_bytes with
  | some cached_entry, some body_size_bytes =>
    let hash := cached_entry.hash
    let metadata_input := context.metadata_input body_size_bytes
    if context.no_cache then
      refresh_metadata env hash context.final_key
        ({ metadata_input with requires_revalidation := true }.entry hash context.now)
        (if context.final_key ≠ context.key then some (context.key, cached_entry) else none)
    else if !context.storable || !freshness_is_cacheable context.freshness ||
        context.final_key ≠ context.key then
      .acquire (env.stripe hash) <|
        .run (.build_cached_response hash) fun outcome _ =>
          .release (env.stripe hash) <|
            if outcome.ok then
              if context.final_key = context.key ∧
                  (context.should_remember_hit_for_pass ∨
                    ¬ freshness_is_cacheable context.freshness) then
                remember_hit_for_pass env context (drop_not_modified env context cached_entry)
              else drop_not_modified env context cached_entry ∅
            else .done
    else refresh_metadata env hash context.key (metadata_input.entry hash context.now) none
  | _, _ => .done

/-! ## Runs of the operations -/

/-- The operations of a zone on its files. -/
inductive ZoneOperation
  | store (plan : StreamingCachePlan) (body_size_bytes : Nat)
  | refresh (context : NotModified)
  | drop (key : String) (expected_entry : CacheIndexEntry)
  | purge (order : HashOrder) (selector : PurgeSelector)
  | cleanup (now inactive_ms batch_size : Nat)
  | pass (context : NotModified)

def ZoneOperation.task : ZoneOperation → ZoneTask
  | .store plan body_size_bytes => finalize_streaming_cache env plan body_size_bytes
  | .refresh context => refresh_not_modified_response env context
  | .drop key expected_entry => remove_cache_entry_if_matches env key expected_entry
  | .purge order selector => purge_zone_files env order selector
  | .cleanup now inactive_ms batch_size => cleanup_inactive_files env now inactive_ms batch_size
  | .pass context => remember_hit_for_pass env context (remove_all_if_unreferenced env)

/-- An operation begins, or a task makes its next step. -/
inductive ZoneTurn
  | begin (task : Nat) (operation : ZoneOperation)
  | step (task : Nat) (outcome : SectionOutcome)

def ZoneTurn.turn : ZoneTurn → Turn Nat ZoneSection SectionOutcome ZoneFiles
  | .begin task operation => .spawn task (operation.task env)
  | .step task outcome => .step task outcome

def runZone (zone : ZoneFiles) (turns : List ZoneTurn) : ZoneWorld :=
  (World.start zone).run (ZoneSection.effect env) (turns.map (ZoneTurn.turn env))

end Tasks

/-- Some entry of the kind `Response` has the hash. -/
def CacheIndex.Live (index : CacheIndex) (hash : String) : Prop :=
  ∃ (key : String) (entry : CacheIndexEntry),
    index.entries[key]? = some entry ∧ entry.kind = .Response ∧ entry.hash = hash

/-- The files of the live hashes are on the disk. -/
def ZoneFiles.FilesPresent (zone : ZoneFiles) : Prop :=
  ∀ hash, zone.index.Live hash → hash ∈ zone.metadata ∧ hash ∈ zone.body

end rginx.cache
