-- The metadata that a commit leaves beside a body, and what the load after a restart makes of it. The
-- commits are those of `cache/store/streaming/finalize.rs` and `cache/store/revalidate.rs`, the
-- metadata is of `cache/entry/metadata.rs`, and the load of `cache/load.rs`.
import Rginx.CacheFiles

namespace rginx.cache

/-! ## Metadata -/

/-- The fields that the load reads; the status and the headers stand beside them in the file. -/
structure CacheMetadata where
  key : String
  base_key : String
  vary : List ScannedVaryHeader
  tags : List String
  stored_at_unix_ms : Nat
  expires_at_unix_ms : Nat
  kind : CacheIndexEntryKind
  grace_until_unix_ms : Option Nat
  keep_until_unix_ms : Option Nat
  stale_if_error_until_unix_ms : Option Nat
  stale_while_revalidate_until_unix_ms : Option Nat
  requires_revalidation : Bool
  must_revalidate : Bool
  body_size_bytes : Nat

def cache_metadata (key : String) (input : CacheMetadataInput) : CacheMetadata :=
  { key
    base_key := input.base_key
    vary := input.vary.map fun header => ⟨header.name.as_str, header.value⟩
    tags := input.tags
    stored_at_unix_ms := input.stored_at_unix_ms
    expires_at_unix_ms := input.expires_at_unix_ms
    kind := input.kind
    grace_until_unix_ms := input.grace_until_unix_ms
    keep_until_unix_ms := input.keep_until_unix_ms
    stale_if_error_until_unix_ms := input.stale_if_error_until_unix_ms
    stale_while_revalidate_until_unix_ms := input.stale_while_revalidate_until_unix_ms
    requires_revalidation := input.requires_revalidation
    must_revalidate := input.must_revalidate
    body_size_bytes := input.body_size_bytes }

/-- What `serde_json` reads back from the text that it wrote: the fields of the same names. -/
def CacheMetadata.scanned (metadata : CacheMetadata) : ScannedCacheMetadata :=
  { key := metadata.key
    base_key := metadata.base_key
    vary := metadata.vary
    tags := metadata.tags
    stored_at_unix_ms := metadata.stored_at_unix_ms
    expires_at_unix_ms := metadata.expires_at_unix_ms
    kind := metadata.kind
    grace_until_unix_ms := metadata.grace_until_unix_ms
    keep_until_unix_ms := metadata.keep_until_unix_ms
    stale_if_error_until_unix_ms := metadata.stale_if_error_until_unix_ms
    stale_while_revalidate_until_unix_ms := metadata.stale_while_revalidate_until_unix_ms
    requires_revalidation := some metadata.requires_revalidation
    must_revalidate := metadata.must_revalidate
    body_size_bytes := metadata.body_size_bytes }

/-- The written names are read back. -/
theorem parse_written_headers (vary : List CachedVaryHeaderValue) :
    parse_vary_headers (vary.map fun header => ⟨header.name.as_str, header.value⟩) = some vary := by
  unfold parse_vary_headers
  induction vary with
  | nil => rfl
  | cons header vary ih =>
    rw [List.map_cons, List.mapM_cons, ih, HeaderName.parse_as_str]
    rfl

/-! ## Commits -/

/-- What a commit writes: the metadata beside the body of a hash, and the entry under a key. -/
structure Commit where
  hash : String
  key : String
  entry : CacheIndexEntry
  metadata : CacheMetadata

/-- The files of the commit as long as nothing touches them. -/
def Commit.file (commit : Commit) : ScannedFile :=
  ⟨commit.hash, some commit.metadata.scanned, some commit.metadata.body_size_bytes⟩

section Commits

variable (env : FileEnv)

/-- The hash that `store_streaming_response` takes for its plan: of the entry under the same key,
else of the key. -/
def streaming_hash (key : String) (cached_entry : Option CacheIndexEntry) (final_key : String) :
    String :=
  ((cached_entry.filter fun _ => key = final_key).map CacheIndexEntry.hash).getD
    (env.cache_key_hash final_key)

def finalize_commit (plan : StreamingCachePlan) (body_size_bytes : Nat) : Option Commit :=
  if plan.max_entry_bytes < body_size_bytes then none
  else if plan.expected_body_bytes.any (· ≠ body_size_bytes) then none
  else
    some
      { hash := plan.hash
        key := plan.final_key
        entry := plan.entry body_size_bytes
        metadata := cache_metadata plan.final_key
          (cache_metadata_input plan.base_key plan.vary plan.tags plan.now plan.grace plan.keep
            plan.freshness body_size_bytes) }

/-- The two branches of `refresh_not_modified_response` that write metadata. -/
def refresh_commit (context : NotModified) : Option Commit :=
  match context.cached_entry, context.cached_body_size_bytes with
  | some cached_entry, some body_size_bytes =>
    let hash := cached_entry.hash
    let metadata_input := context.metadata_input body_size_bytes
    if context.no_cache then
      let metadata_input := { metadata_input with requires_revalidation := true }
      some ⟨hash, context.final_key, metadata_input.entry hash context.now,
        cache_metadata context.final_key metadata_input⟩
    else if !context.storable || !freshness_is_cacheable context.freshness ||
        context.final_key ≠ context.key then none
    else some ⟨hash, context.key, metadata_input.entry hash context.now,
      cache_metadata context.final_key metadata_input⟩
  | _, _ => none

/-- A commit is what `finalize_streaming_cache` puts on the disk and into the index. -/
theorem finalize_streaming_cache_commits {plan : StreamingCachePlan} {body_size_bytes : Nat}
    {commit : Commit} (h : finalize_commit plan body_size_bytes = some commit) :
    finalize_streaming_cache env plan body_size_bytes =
      .acquire (env.stripe commit.hash) (commit_cache_entry_temp_body commit.hash
        (run_update_index_after_store env commit.key commit.entry plan.replaced_entry
          fun removed_hashes => .release (env.stripe commit.hash)
            (remove_all_if_unreferenced env removed_hashes))
        (.release (env.stripe commit.hash) .done)) := by
  unfold finalize_commit at h
  unfold finalize_streaming_cache
  split_ifs at h ⊢
  obtain rfl := Option.some.inj h
  rfl

theorem refresh_not_modified_response_commits {context : NotModified} {commit : Commit}
    (h : refresh_commit context = some commit) :
    ∃ replaced_entry, refresh_not_modified_response env context =
      refresh_metadata env commit.hash commit.key commit.entry replaced_entry := by
  unfold refresh_commit at h
  unfold refresh_not_modified_response
  rcases hentry : context.cached_entry with _ | cached_entry
  · rw [hentry] at h
    cases h
  · rcases hsize : context.cached_body_size_bytes with _ | body_size_bytes
    · rw [hentry, hsize] at h
      cases h
    · rw [hentry, hsize] at h
      dsimp only at h ⊢
      by_cases hno_cache : context.no_cache
      · rw [if_pos hno_cache] at h ⊢
        obtain rfl := Option.some.inj h
        exact ⟨_, rfl⟩
      · rw [if_neg hno_cache] at h ⊢
        split at h
        · cases h
        · rename_i hkept
          rw [if_neg hkept]
          obtain rfl := Option.some.inj h
          exact ⟨_, rfl⟩

/-- The operations that commit: the end of a stream, for the key and the entry that its lookup
found, and the refresh after a 304. -/
inductive CommitOperation
  | finalize (key : String) (cached_entry : Option CacheIndexEntry) (plan : StreamingCachePlan)
      (body_size_bytes : Nat)
  | refresh (context : NotModified)

def CommitOperation.commit : CommitOperation → Option Commit
  | .finalize key cached_entry plan body_size_bytes =>
    finalize_commit { plan with hash := streaming_hash env key cached_entry plan.final_key }
      body_size_bytes
  | .refresh context => refresh_commit context

def CommitOperation.final_key : CommitOperation → String
  | .finalize _ _ plan _ => plan.final_key
  | .refresh context => context.final_key

def CommitOperation.base_key : CommitOperation → String
  | .finalize _ _ plan _ => plan.base_key
  | .refresh context => context.base_key

/-- The entry whose files the operation writes over. -/
def CommitOperation.kept_entry : CommitOperation → Option CacheIndexEntry
  | .finalize key cached_entry plan _ => cached_entry.filter fun _ => key = plan.final_key
  | .refresh context => context.cached_entry

/-- The metadata of a commit says what its entry says. -/
theorem commit_spec {operation : CommitOperation} {commit : Commit}
    (h : operation.commit env = some commit) :
    commit.key = operation.final_key ∧
      commit.hash = (operation.kept_entry.map CacheIndexEntry.hash).getD
        (env.cache_key_hash operation.final_key) ∧
      ∃ input now, input.base_key = operation.base_key ∧
        commit.entry = CacheMetadataInput.entry input commit.hash now ∧
        commit.metadata = cache_metadata commit.key input := by
  cases operation with
  | finalize key cached_entry plan body_size_bytes =>
    dsimp only [CommitOperation.commit, finalize_commit] at h
    split_ifs at h
    obtain rfl := Option.some.inj h
    exact ⟨rfl, rfl, _, _, rfl, rfl, rfl⟩
  | refresh context =>
    dsimp only [CommitOperation.commit, refresh_commit] at h
    split at h
    · rename_i cached_entry body_size_bytes hentry _
      split_ifs at h with hno_cache hdropped
      · obtain rfl := Option.some.inj h
        refine ⟨rfl, ?_, _, _, rfl, rfl, rfl⟩
        simp [CommitOperation.kept_entry, hentry]
      · obtain rfl := Option.some.inj h
        have hkey : context.final_key = context.key := by
          simpa using (Bool.or_eq_false_iff.mp (Bool.eq_false_iff.mpr hdropped)).2
        refine ⟨hkey.symm, ?_, _, _, rfl, rfl, ?_⟩
        · simp [CommitOperation.kept_entry, hentry]
        · rw [hkey]
    · cases h

/-! ## The load after a restart -/

/-- The entry that is loaded is the committed one, but for the last access. -/
def Recovered (commit : Commit) : Prop :=
  ∃ entry, load_cache_index_entry env.cache_key_hash commit.file = some (commit.key, entry) ∧
    { entry with last_access_unix_ms := commit.entry.last_access_unix_ms } = commit.entry

/-- The load removes the files that it takes no entry from. -/
def files_after_load (file : ScannedFile) : Option ScannedFile :=
  match load_cache_index_entry env.cache_key_hash file with
  | some _ => some file
  | none => none

/-- The key and its base are texts, and the files have the hash of the key. -/
structure CommitOperation.Recoverable (operation : CommitOperation) : Prop where
  key : operation.final_key ≠ ""
  base : operation.base_key ≠ ""
  hash : ∀ entry ∈ operation.kept_entry, entry.hash = env.cache_key_hash operation.final_key

variable {env}

/-- What the load makes of a file that is as its commit left it. -/
theorem load_committed {commit : Commit} {input : CacheMetadataInput}
    (hmetadata : commit.metadata = cache_metadata commit.key input) :
    load_cache_index_entry env.cache_key_hash commit.file =
      if commit.key = "" ∨ env.cache_key_hash commit.key ≠ commit.hash then none
      else some (commit.key,
        { input.entry commit.hash input.stored_at_unix_ms with
          base_key := if input.base_key = "" then commit.key else input.base_key }) := by
  unfold load_cache_index_entry Commit.file
  rw [hmetadata]
  dsimp only [CacheMetadata.scanned, cache_metadata]
  split
  · rfl
  · rw [if_neg (not_not.mpr rfl), parse_written_headers]
    rfl

theorem recovered_iff {commit : Commit} {input : CacheMetadataInput} {now : Nat}
    (hentry : commit.entry = input.entry commit.hash now)
    (hmetadata : commit.metadata = cache_metadata commit.key input) :
    Recovered env commit ↔
      commit.key ≠ "" ∧ input.base_key ≠ "" ∧ env.cache_key_hash commit.key = commit.hash := by
  unfold Recovered
  rw [load_committed hmetadata]
  constructor
  · rintro ⟨entry, hload, heq⟩
    by_cases hrefused : commit.key = "" ∨ env.cache_key_hash commit.key ≠ commit.hash
    · rw [if_pos hrefused] at hload
      cases hload
    · rw [if_neg hrefused] at hload
      rw [not_or, not_not] at hrefused
      obtain rfl := (Prod.mk.inj (Option.some.inj hload)).2
      refine ⟨hrefused.1, fun hbase => hrefused.1 ?_, hrefused.2⟩
      have hsame := congrArg CacheIndexEntry.base_key heq
      rw [hentry] at hsame
      simpa [CacheMetadataInput.entry, hbase] using hsame
  · rintro ⟨hkey, hbase, hhash⟩
    rw [if_neg (by simp [hkey, hhash])]
    refine ⟨_, rfl, ?_⟩
    rw [hentry, if_neg hbase]
    rfl

/-- A recovered entry keeps its files. -/
theorem Recovered.keeps_files {commit : Commit} (h : Recovered env commit) :
    files_after_load env commit.file = some commit.file := by
  obtain ⟨entry, hload, -⟩ := h
  unfold files_after_load
  rw [hload]

/-- A restart recovers what was committed, exactly where the files have the hash of the key and
neither the key nor its base is empty. -/
theorem restart_recovers_iff {operation : CommitOperation} {commit : Commit}
    (h : operation.commit env = some commit) :
    (Recovered env commit ∧ files_after_load env commit.file = some commit.file) ↔
      operation.Recoverable env := by
  obtain ⟨hkey, hhash, input, now, hbase, hentry, hmetadata⟩ := commit_spec env h
  have hsame : env.cache_key_hash commit.key = commit.hash ↔
      ∀ entry ∈ operation.kept_entry, entry.hash = env.cache_key_hash operation.final_key := by
    rw [hhash, hkey]
    cases operation.kept_entry with
    | none => simp
    | some entry => simp [eq_comm]
  rw [and_iff_left_of_imp Recovered.keeps_files, recovered_iff hentry hmetadata, hsame, hkey, hbase]
  exact ⟨fun ⟨hkey, hbase, hhash⟩ => ⟨hkey, hbase, hhash⟩, fun h => ⟨h.key, h.base, h.hash⟩⟩

/-! ## A store and a rename -/

/-- The zone of these commits takes a key for its own hash. -/
def keyHashes : FileEnv := ⟨fun _ => 0, fun key => key, none⟩

/-- The store of ten bytes under the key `a`, without an entry before it. -/
def firstStore : StreamingCachePlan :=
  { base_key := "a", final_key := "a", vary := [], tags := []
    freshness := ⟨100, none, none, false, false⟩
    now := 1, hash := "", max_entry_bytes := 100, grace := none, keep := none, pass_ttl := none
    expected_body_bytes := some 10, replaced_entry := none }

def firstCommit : Commit :=
  { hash := "a", key := "a"
    entry := { firstStore with hash := "a" }.entry 10
    metadata := cache_metadata "a" (cache_metadata_input "a" [] [] 1 none none
      ⟨100, none, none, false, false⟩ 10) }

theorem restart_recovers_iff_first_store :
    Recovered keyHashes firstCommit ∧
      files_after_load keyHashes firstCommit.file = some firstCommit.file := by
  have hcommit : (CommitOperation.finalize "a" none firstStore 10).commit keyHashes =
      some firstCommit := rfl
  exact (restart_recovers_iff hcommit).mpr ⟨by decide, by decide, fun _ h => by cases h⟩

/-- A 304 under a `no_cache` condition, with another `Vary` than the response that was stored. -/
def renamedKey : NotModified :=
  { key := "a"
    base_key := "a"
    cached_entry := some ((cache_metadata_input "a" [] [] 1 none none
      ⟨100, none, none, false, false⟩ 10).entry "a" 1)
    cached_body_size_bytes := some 10
    grace := none, keep := none, pass_ttl := none, now := 2
    no_cache := true, storable := true, should_remember_hit_for_pass := false
    freshness := ⟨100, none, none, false, false⟩
    final_key := "a|vary:0", vary := [], tags := [] }

/-- The entry has a new key and its old files, which the load removes. -/
theorem a_renamed_entry_is_lost :
    ∃ commit, (CommitOperation.refresh renamedKey).commit keyHashes = some commit ∧
      load_cache_index_entry keyHashes.cache_key_hash commit.file = none ∧
      files_after_load keyHashes commit.file = none := by
  refine ⟨_, rfl, ?_, ?_⟩
  · decide +kernel
  · decide +kernel

end Commits

end rginx.cache
