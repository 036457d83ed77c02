-- The decision of a lookup, from `cache/lookup.rs`, `cache/lookup/helpers.rs`,
-- `cache/invalidation.rs` and `cache/runtime`: which entry answers a request,
-- how far it is past its time, and who fills it. With the deadlines that a
-- stored entry carries (`cache/store/helpers.rs`).
import Rginx.FillLocks

open rust_text

namespace rginx.cache

/-! ## The deadlines of an entry -/

/-- The durations are in milliseconds. -/
structure ResponseFreshness where
  ttl : Nat
  stale_if_error : Option Nat
  stale_while_revalidate : Option Nat
  requires_revalidation : Bool
  must_revalidate : Bool
  deriving DecidableEq, Repr

/-- `duration.as_millis().min(u64::MAX)`. -/
def duration_to_ms (millis : Nat) : Nat := min millis U64_MAX

def max_deadline : Option Nat → Option Nat → Option Nat
  | some left, some right => some (max left right)
  | some left, none => some left
  | none, right => right

structure CacheMetadataInput where
  kind : CacheIndexEntryKind
  base_key : String
  vary : List CachedVaryHeaderValue
  tags : List String
  stored_at_unix_ms : Nat
  expires_at_unix_ms : Nat
  grace_until_unix_ms : Option Nat
  keep_until_unix_ms : Option Nat
  stale_if_error_until_unix_ms : Option Nat
  stale_while_revalidate_until_unix_ms : Option Nat
  requires_revalidation : Bool
  must_revalidate : Bool
  body_size_bytes : Nat

/-- The end of a window that opens when the entry expires. -/
def window_until (now : Nat) (freshness : ResponseFreshness) (window : Option Nat) : Option Nat :=
  window.map fun duration =>
    saturating_add (saturating_add now (duration_to_ms freshness.ttl)) (duration_to_ms duration)

def cache_metadata_input (base_key : String) (vary : List CachedVaryHeaderValue)
    (tags : List String) (now : Nat) (grace keep : Option Nat) (freshness : ResponseFreshness)
    (body_size_bytes : Nat) : CacheMetadataInput :=
  let stale_if_error_until := window_until now freshness freshness.stale_if_error
  let stale_while_revalidate_until := window_until now freshness freshness.stale_while_revalidate
  let grace_until := max_deadline (window_until now freshness grace) stale_while_revalidate_until
  let configured_keep_until := window_until now freshness keep
  let keep_until := max_deadline configured_keep_until
    (max_deadline grace_until stale_if_error_until)
  { kind := .Response
    base_key
    vary
    tags
    stored_at_unix_ms := now
    expires_at_unix_ms := saturating_add now (duration_to_ms freshness.ttl)
    grace_until_unix_ms := grace_until
    keep_until_unix_ms :=
      if configured_keep_until.isSome || grace_until.isSome || stale_if_error_until.isSome then
        keep_until
      else none
    stale_if_error_until_unix_ms := stale_if_error_until
    stale_while_revalidate_until_unix_ms := stale_while_revalidate_until
    requires_revalidation := freshness.requires_revalidation
    must_revalidate := freshness.must_revalidate
    body_size_bytes }

/-- The entry that `finalize_streaming_cache` and `refresh_not_modified_response` put into the
index for their metadata. -/
def CacheMetadataInput.entry (input : CacheMetadataInput) (hash : String)
    (last_access_unix_ms : Nat) : CacheIndexEntry :=
  { kind := input.kind
    hash
    base_key := input.base_key
    stored_at_unix_ms := input.stored_at_unix_ms
    vary := input.vary
    tags := input.tags
    body_size_bytes := input.body_size_bytes
    expires_at_unix_ms := input.expires_at_unix_ms
    grace_until_unix_ms := input.grace_until_unix_ms
    keep_until_unix_ms := input.keep_until_unix_ms
    stale_if_error_until_unix_ms := input.stale_if_error_until_unix_ms
    stale_while_revalidate_until_unix_ms := input.stale_while_revalidate_until_unix_ms
    requires_revalidation := input.requires_revalidation
    must_revalidate := input.must_revalidate
    last_access_unix_ms }

/-! ## The phases of an entry -/

inductive CacheEntryLifecyclePhase
  | Fresh
  | Grace
  | Keep
  | Dead
  deriving DecidableEq, Repr

/-- How far a phase is on the way of an entry. -/
def CacheEntryLifecyclePhase.rank : CacheEntryLifecyclePhase → Nat
  | .Fresh => 0
  | .Grace => 1
  | .Keep => 2
  | .Dead => 3

def stale_if_error_window_open (entry : CacheIndexEntry) (now : Nat) : Bool :=
  entry.stale_if_error_until_unix_ms.any (now ≤ ·)

def stale_while_revalidate_window_open (entry : CacheIndexEntry) (now : Nat) : Bool :=
  entry.grace_until_unix_ms.any (now ≤ ·) ||
    entry.stale_while_revalidate_until_unix_ms.any (now ≤ ·)

/-- An entry without a deadline is kept for good. -/
def keep_window_open (entry : CacheIndexEntry) (now : Nat) : Bool :=
  entry.keep_until_unix_ms.all (now ≤ ·)

def lifecycle_phase (entry : CacheIndexEntry) (now : Nat) : CacheEntryLifecyclePhase :=
  if now ≤ entry.expires_at_unix_ms then .Fresh
  else if stale_while_revalidate_window_open entry now then .Grace
  else if keep_window_open entry now then .Keep
  else .Dead

def stale_allowed_for_entry (policy : RouteCachePolicy) (entry : CacheIndexEntry) (now : Nat)
    (request_forces_revalidation : Bool) : Bool :=
  lifecycle_phase entry now = .Grace && !entry.is_hit_for_pass && !request_forces_revalidation &&
    !entry.requires_revalidation && !entry.must_revalidate &&
    (policy.use_stale.contains .Updating ||
      entry.stale_while_revalidate_until_unix_ms.any (now ≤ ·))

/-! ## The entry of a request -/

def matching_variant_key (index : CacheIndex) (base_key : String) (request : CacheRequest) :
    Option String :=
  if !index.variants.contains base_key &&
      index.entries[base_key]?.any fun entry => matches_vary_headers request entry.vary then
    some base_key
  else
    (index.variants[base_key]?.getD []).find? fun candidate_key =>
      index.entries[candidate_key]?.any fun entry => matches_vary_headers request entry.vary

def selector_matches_entry (selector : CacheInvalidationSelector) (key : String)
    (entry : CacheIndexEntry) : Bool :=
  match selector with
  | .All => true
  | .Exact expected => key = expected
  | .Prefix text => starts_with key text
  | .Tag tag => entry.tags.contains tag

def invalidation_rule_matches_entry (rule : CacheInvalidationRule) (key : String)
    (entry : CacheIndexEntry) : Bool :=
  entry.stored_at_unix_ms < rule.created_at_unix_ms && selector_matches_entry rule.selector key entry

def entry_is_logically_invalid (index : CacheIndex) (key : String) (entry : CacheIndexEntry) :
    Bool :=
  index.invalidations.any fun rule => invalidation_rule_matches_entry rule key entry

/-- The entry that a lookup finds, and whether a rule has invalidated it. -/
def matching_entry (index : CacheIndex) (base_key : String) (request : CacheRequest) :
    Option (String × CacheIndexEntry × Bool) := do
  let key ← matching_variant_key index base_key request
  let entry ← index.entries[key]?
  return (key, entry, entry_is_logically_invalid index key entry)

/-- The order of the tuples of a name and a value. -/
def header_le (left right : String × List UInt8) : Bool :=
  left.1 < right.1 ∨ (left.1 = right.1 ∧ ¬right.2 < left.2)

/-- A byte as two digits, `{byte:02x}`. -/
def hex_byte (byte : UInt8) : Text := [(byte.toNat / 16).digitChar, (byte.toNat % 16).digitChar]

/-- The method of a request and all its headers but `Range`, in one text. -/
def fill_share_fingerprint (request : CacheRequest) : String :=
  let headers := ((request.headers.filter fun row => row.1 ≠ RANGE).map fun row =>
    (String.ofList (to_ascii_lowercase row.1.as_str.toList), row.2.as_bytes)).mergeSort header_le
  headers.foldl
    (fun text header =>
      text ++ header.1 ++ "=" ++ String.ofList (header.2.flatMap hex_byte) ++ "\n")
    ("method=" ++ request.method.as_str ++ "\n")

/-! ## The decision -/

inductive CacheStatus
  | Hit
  | Miss
  | Bypass
  | Expired
  | Stale
  | Updating
  | Revalidated
  deriving DecidableEq, Repr

inductive LookupWait
  | Local (waiter : Nat)
  | External (key : String)

inductive LookupDecision
  | Bypass (status : CacheStatus)
  | DropEntry (key : String) (entry : CacheIndexEntry)
  | FreshHit (key : String) (entry : CacheIndexEntry)
  | Stale (key : String) (entry : CacheIndexEntry) (status : CacheStatus)
  | BackgroundUpdate (key : String) (cached_entry : CacheIndexEntry) (fill_guard : CacheFillGuard)
  | Miss (key base_key : String) (cached_entry : Option CacheIndexEntry)
      (fill_guard : Option CacheFillGuard) (cache_status : CacheStatus)
  | ReadWhileFillLocal (state : Nat)
  | ReadWhileFillExternal (state : ExternalCacheFillReadState)
  | Wait (strategy : LookupWait)

/-- `record_entry_access`. -/
def record_entry_access (hot_entries : HotEntries) (key : String) (now : Nat) : HotEntries :=
  let hot := (hot_entries[key]?).getD ⟨0, 0⟩
  hot_entries.insert key { hot with last_access_unix_ms := max hot.last_access_unix_ms now }

/-- The decision on an entry that is neither dropped nor a hit, from the lock of its key. -/
def entry_decision (policy : RouteCachePolicy) (key : String) (entry : CacheIndexEntry)
    (now : Nat) (request_forces_revalidation : Bool) : FillLockDecision → LookupDecision :=
  let expired : Bool := entry.expires_at_unix_ms < now
  let stale := expired && stale_allowed_for_entry policy entry now request_forces_revalidation
  fun
  | .Acquired fill_guard =>
    if stale && policy.background_update then .BackgroundUpdate key entry fill_guard
    else
      .Miss key entry.base_key (some entry) (some fill_guard)
        (if expired then .Expired else .Revalidated)
  | .WaitLocal waiter => if stale then .Stale key entry .Updating else .Wait (.Local waiter)
  | .WaitExternal external_key =>
    if stale then .Stale key entry .Updating else .Wait (.External external_key)
  | .ReadLocal state => if stale then .Stale key entry .Updating else .ReadWhileFillLocal state
  | .ReadExternal state =>
    if stale then .Stale key entry .Updating else .ReadWhileFillExternal state

/-- The decision without an entry. -/
def missing_decision (base_key : String) : FillLockDecision → LookupDecision
  | .Acquired fill_guard => .Miss base_key base_key none (some fill_guard) .Miss
  | .ReadLocal state => .ReadWhileFillLocal state
  | .ReadExternal state => .ReadWhileFillExternal state
  | .WaitLocal waiter => .Wait (.Local waiter)
  | .WaitExternal key => .Wait (.External key)

structure LookupResult (γ : Type) where
  decision : LookupDecision
  shared : SharedFills γ
  zone : FillZone
  hot_entries : HotEntries

section Lookup

variable {γ β : Type} (env : FillEnv γ β) (io : FillIo) (shared : SharedFills γ)
  (zone : FillZone) (hot_entries : HotEntries) (index : CacheIndex) (pid : Nat)
  (request : CacheRequest) (base_key : String) (now : Nat) (request_forces_revalidation : Bool)
  (policy : RouteCachePolicy)

def lookup_decision : LookupResult γ :=
  match matching_entry index base_key request with
  | some (key, entry, invalidated) =>
    let phase := lifecycle_phase entry now
    if invalidated then ⟨.DropEntry key entry, shared, zone, hot_entries⟩
    else if entry.is_hit_for_pass then
      if phase = .Dead then ⟨.DropEntry key entry, shared, zone, hot_entries⟩
      else ⟨.Bypass .Bypass, shared, zone, hot_entries⟩
    else if phase = .Dead then ⟨.DropEntry key entry, shared, zone, hot_entries⟩
    else
      let hot_entries := record_entry_access hot_entries key now
      if phase = .Fresh && !entry.requires_revalidation && !request_forces_revalidation then
        ⟨.FreshHit key entry, shared, zone, hot_entries⟩
      else
        let (shared, lock, zone) :=
          fill_lock_decision env io shared zone pid request key now policy.lock_age none
        ⟨entry_decision policy key entry now request_forces_revalidation lock, shared, zone,
          hot_entries⟩
  | none =>
    let (shared, lock, zone) :=
      fill_lock_decision env io shared zone pid request base_key now policy.lock_age
        (some (fill_share_fingerprint request))
    ⟨missing_decision base_key lock, shared, zone, hot_entries⟩

/-! ## What a lookup can do -/

/-- An entry that goes to the lock of its key: found, valid, a response, not dead, and not a
fresh hit. -/
structure NeedsFill (key : String) (entry : CacheIndexEntry) : Prop where
  found : matching_entry index base_key request = some (key, entry, false)
  response : entry.is_hit_for_pass = false
  alive : lifecycle_phase entry now ≠ .Dead
  no_hit : ¬(now ≤ entry.expires_at_unix_ms ∧ entry.requires_revalidation = false ∧
    request_forces_revalidation = false)

theorem lifecycle_phase_eq_fresh (entry : CacheIndexEntry) (now : Nat) :
    lifecycle_phase entry now = .Fresh ↔ now ≤ entry.expires_at_unix_ms := by
  unfold lifecycle_phase
  split
  · simp [*]
  · rename_i hlate
    simp only [hlate, iff_false]
    split
    · simp
    · split <;> simp

/-- Every lookup is one of these: it drops the entry, it passes by a marker, it hits a fresh
entry, it goes to the lock of an entry, or to the lock of a key without one. -/
theorem lookup_decision_cases (result : LookupResult γ)
    (h : lookup_decision env io shared zone hot_entries index pid request base_key now
      request_forces_revalidation policy = result) :
    (∃ key entry invalidated,
      matching_entry index base_key request = some (key, entry, invalidated) ∧
      (invalidated = true ∨ lifecycle_phase entry now = .Dead) ∧
      result = ⟨.DropEntry key entry, shared, zone, hot_entries⟩) ∨
    (∃ key entry, matching_entry index base_key request = some (key, entry, false) ∧
      entry.is_hit_for_pass = true ∧
      result = ⟨.Bypass .Bypass, shared, zone, hot_entries⟩) ∨
    (∃ key entry, matching_entry index base_key request = some (key, entry, false) ∧
      entry.is_hit_for_pass = false ∧ now ≤ entry.expires_at_unix_ms ∧
      entry.requires_revalidation = false ∧ request_forces_revalidation = false ∧
      result = ⟨.FreshHit key entry, shared, zone, record_entry_access hot_entries key now⟩) ∨
    (∃ key entry, NeedsFill index request base_key now request_forces_revalidation key entry ∧
      ∃ lock, fill_lock_decision env io shared zone pid request key now policy.lock_age none =
        (result.shared, lock, result.zone) ∧
      result.decision = entry_decision policy key entry now request_forces_revalidation lock) ∨
    (matching_entry index base_key request = none ∧
      ∃ lock, fill_lock_decision env io shared zone pid request base_key now policy.lock_age
        (some (fill_share_fingerprint request)) = (result.shared, lock, result.zone) ∧
      result.decision = missing_decision base_key lock) := by
  subst h
  unfold lookup_decision
  split
  · rename_i key entry invalidated hfound
    dsimp only
    cases invalidated with
    | true => exact .inl ⟨key, entry, true, hfound, .inl rfl, rfl⟩
    | false =>
      rw [if_neg (by simp)]
      by_cases hdead : lifecycle_phase entry now = .Dead
      · refine .inl ⟨key, entry, false, hfound, .inr hdead, ?_⟩
        simp [hdead]
      by_cases hpass : entry.is_hit_for_pass = true
      · refine .inr (.inl ⟨key, entry, hfound, hpass, ?_⟩)
        simp [hpass, hdead]
      rw [if_neg hpass, if_neg hdead]
      have hresponse : entry.is_hit_for_pass = false := by simpa using hpass
      by_cases hhit : now ≤ entry.expires_at_unix_ms ∧ entry.requires_revalidation = false ∧
          request_forces_revalidation = false
      · refine .inr (.inr (.inl ⟨key, entry, hfound, hresponse, hhit.1, hhit.2.1, hhit.2.2, ?_⟩))
        simp [(lifecycle_phase_eq_fresh entry now).mpr hhit.1, hhit.2.1, hhit.2.2]
      · refine .inr (.inr (.inr (.inl ⟨key, entry, ⟨hfound, hresponse, hdead, hhit⟩,
          (fill_lock_decision env io shared zone pid request key now policy.lock_age none).2.1,
          ?_⟩)))
        have hno : (decide (lifecycle_phase entry now = .Fresh) && !entry.requires_revalidation &&
            !request_forces_revalidation) = false := by
          rw [Bool.eq_false_iff]
          simpa [lifecycle_phase_eq_fresh, and_assoc] using hhit
        rw [hno]
        exact ⟨rfl, rfl⟩
  · rename_i hnone
    exact .inr (.inr (.inr (.inr ⟨hnone, _, rfl, rfl⟩)))

end Lookup

end rginx.cache
