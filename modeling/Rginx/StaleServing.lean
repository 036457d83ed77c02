-- The laws of stale serving: an entry is a hit while it is fresh, its body is
-- served past its time only inside its windows, and it goes from fresh over
-- grace and keep to dead without a step back. The error path is
-- `CacheStoreContext::can_serve_stale` in `cache/runtime/context.rs`.
import Rginx.CacheLookup

namespace rginx.cache

/-! ## The error path -/

inductive CacheStaleReason
  | Error
  | Timeout
  | Status (status : StatusCode)
  deriving DecidableEq, Repr

structure PreparedCacheResponseHead where
  hash : String
  status : StatusCode
  headers : HeaderMap

/-- The fields of `CacheStoreContext` that decide whether a stale response is served. -/
structure CacheStoreContext where
  policy : RouteCachePolicy
  cached_entry : Option CacheIndexEntry
  cached_response_head : Option PreparedCacheResponseHead
  request_forces_revalidation : Bool

def use_stale_matches_status (conditions : List CacheUseStaleCondition) (status : StatusCode) :
    Bool :=
  match status with
  | 403 => conditions.contains .Http403
  | 404 => conditions.contains .Http404
  | 429 => conditions.contains .Http429
  | 500 => conditions.contains .Http500
  | 502 => conditions.contains .Http502
  | 503 => conditions.contains .Http503
  | 504 => conditions.contains .Http504
  | _ => false

/-- `StatusCode::is_server_error`. -/
def is_server_error (status : StatusCode) : Bool := 500 ≤ status ∧ status < 600

def CacheStoreContext.can_serve_stale (context : CacheStoreContext) (now : Nat)
    (reason : CacheStaleReason) : Bool :=
  match context.cached_entry with
  | none => false
  | some entry =>
    if context.cached_response_head.isNone then false
    else if entry.is_hit_for_pass then false
    else if context.request_forces_revalidation || entry.requires_revalidation ||
        entry.must_revalidate then false
    else
      let phase := lifecycle_phase entry now
      if phase = .Dead then false
      else
        match reason with
        | .Error =>
          (phase = .Grace && context.policy.use_stale.contains .Error) ||
            stale_if_error_window_open entry now
        | .Timeout =>
          (phase = .Grace && context.policy.use_stale.contains .Timeout) ||
            stale_if_error_window_open entry now
        | .Status status =>
          (phase = .Grace && use_stale_matches_status context.policy.use_stale status) ||
            (is_server_error status && stale_if_error_window_open entry now)

/-! ## Deadlines -/

theorem max_deadline_any (left right : Option Nat) (now : Nat) :
    (max_deadline left right).any (now ≤ ·) =
      (left.any (now ≤ ·) || right.any (now ≤ ·)) := by
  rcases left with _ | left <;> rcases right with _ | right <;> simp [max_deadline]

theorem any_le_of_le {deadline : Option Nat} {now later : Nat} (h : now ≤ later)
    (hopen : deadline.any (later ≤ ·) = true) : deadline.any (now ≤ ·) = true := by
  rcases deadline with _ | limit
  · cases hopen
  · simp only [Option.any_some, decide_eq_true_eq] at hopen ⊢
    omega

/-- A deadline that is some number is open as `any` and as `all`. -/
theorem all_of_any {deadline : Option Nat} {now : Nat} (h : deadline.any (now ≤ ·) = true) :
    deadline.all (now ≤ ·) = true := by
  rcases deadline with _ | limit
  · rfl
  · exact h

/-! ## Phases -/

theorem stale_while_revalidate_window_open_of_le {entry : CacheIndexEntry} {now later : Nat}
    (h : now ≤ later) (hopen : stale_while_revalidate_window_open entry later = true) :
    stale_while_revalidate_window_open entry now = true := by
  unfold stale_while_revalidate_window_open at hopen ⊢
  rw [Bool.or_eq_true] at hopen ⊢
  rcases hopen with hopen | hopen
  · exact .inl (any_le_of_le h hopen)
  · exact .inr (any_le_of_le h hopen)

theorem keep_window_open_of_le {entry : CacheIndexEntry} {now later : Nat} (h : now ≤ later)
    (hopen : keep_window_open entry later = true) : keep_window_open entry now = true := by
  unfold keep_window_open at hopen ⊢
  rcases hkeep : entry.keep_until_unix_ms with _ | limit
  · rfl
  · rw [hkeep] at hopen
    simp only [Option.all_some, decide_eq_true_eq] at hopen ⊢
    omega

/-- An entry never goes back to an earlier phase. -/
theorem lifecycle_phase_mono (entry : CacheIndexEntry) {now later : Nat} (h : now ≤ later) :
    (lifecycle_phase entry now).rank ≤ (lifecycle_phase entry later).rank := by
  unfold lifecycle_phase
  by_cases hfresh : now ≤ entry.expires_at_unix_ms
  · simp [hfresh, CacheEntryLifecyclePhase.rank]
  have hlate : ¬later ≤ entry.expires_at_unix_ms := by omega
  rw [if_neg hfresh, if_neg hlate]
  by_cases hgrace : stale_while_revalidate_window_open entry now = true
  · rw [if_pos hgrace]
    split
    · simp
    · split <;> simp [CacheEntryLifecyclePhase.rank]
  have hgrace' : ¬stale_while_revalidate_window_open entry later = true :=
    fun hopen => hgrace (stale_while_revalidate_window_open_of_le h hopen)
  rw [if_neg hgrace, if_neg hgrace']
  by_cases hkeep : keep_window_open entry now = true
  · rw [if_pos hkeep]
    split <;> simp [CacheEntryLifecyclePhase.rank]
  · have hkeep' : ¬keep_window_open entry later = true :=
      fun hopen => hkeep (keep_window_open_of_le h hopen)
    rw [if_neg hkeep, if_neg hkeep']

theorem grace_of_phase {entry : CacheIndexEntry} {now : Nat}
    (h : lifecycle_phase entry now = .Grace) :
    entry.expires_at_unix_ms < now ∧ stale_while_revalidate_window_open entry now = true := by
  unfold lifecycle_phase at h
  split at h
  · cases h
  · rename_i hlate
    split at h
    · rename_i hopen
      exact ⟨by omega, hopen⟩
    · split at h <;> cases h

/-! ## What stale serving needs -/

theorem stale_allowed_spec {policy : RouteCachePolicy} {entry : CacheIndexEntry} {now : Nat}
    {forces : Bool} (h : stale_allowed_for_entry policy entry now forces = true) :
    lifecycle_phase entry now = .Grace ∧ entry.is_hit_for_pass = false ∧ forces = false ∧
      entry.requires_revalidation = false ∧ entry.must_revalidate = false := by
  unfold stale_allowed_for_entry at h
  simp only [Bool.and_eq_true, decide_eq_true_eq, Bool.not_eq_true'] at h
  obtain ⟨⟨⟨⟨⟨hphase, hpass⟩, hforces⟩, hrequires⟩, hmust⟩, -⟩ := h
  exact ⟨hphase, hpass, hforces, hrequires, hmust⟩

theorem can_serve_stale_spec {context : CacheStoreContext} {entry : CacheIndexEntry} {now : Nat}
    {reason : CacheStaleReason} (hentry : context.cached_entry = some entry)
    (h : context.can_serve_stale now reason = true) :
    entry.is_hit_for_pass = false ∧ context.request_forces_revalidation = false ∧
      entry.requires_revalidation = false ∧ entry.must_revalidate = false ∧
      (lifecycle_phase entry now = .Grace ∨ stale_if_error_window_open entry now = true) := by
  unfold CacheStoreContext.can_serve_stale at h
  rw [hentry] at h
  dsimp only at h
  split at h
  · cases h
  split at h
  · cases h
  rename_i hpass
  split at h
  · cases h
  rename_i hrevalidate
  simp only [Bool.or_eq_true, not_or, Bool.not_eq_true] at hrevalidate hpass
  split at h
  · cases h
  refine ⟨hpass, hrevalidate.1.1, hrevalidate.1.2, hrevalidate.2, ?_⟩
  rcases reason with _ | _ | status
  all_goals
    simp only [Bool.or_eq_true, Bool.and_eq_true, decide_eq_true_eq] at h
    rcases h with h | h
    · exact .inl h.1
  · exact .inr h
  · exact .inr h
  · exact .inr h.2

/-- The two decisions that serve the body of an expired entry. -/
theorem entry_decision_stale {policy : RouteCachePolicy} {key key' : String}
    {entry entry' : CacheIndexEntry} {now : Nat} {forces : Bool} {lock : FillLockDecision}
    (h : (∃ status, entry_decision policy key entry now forces lock = .Stale key' entry' status) ∨
      ∃ guard, entry_decision policy key entry now forces lock =
        .BackgroundUpdate key' entry' guard) :
    key' = key ∧ entry' = entry ∧ entry.expires_at_unix_ms < now ∧
      stale_allowed_for_entry policy entry now forces = true := by
  by_cases hstale : (decide (entry.expires_at_unix_ms < now) &&
      stale_allowed_for_entry policy entry now forces) = true
  · have hboth := hstale
    rw [Bool.and_eq_true, decide_eq_true_eq] at hboth
    have hsame : key' = key ∧ entry' = entry := by
      rcases lock with guard | state | state | waiter | external
      all_goals simp only [entry_decision, hstale, Bool.true_and, if_true] at h
      · split at h
        · simpa [eq_comm] using h
        · simp at h
      all_goals simpa [eq_comm, and_assoc] using h
    exact ⟨hsame.1, hsame.2, hboth.1, hboth.2⟩
  · exfalso
    rw [Bool.not_eq_true] at hstale
    rcases lock with guard | state | state | waiter | external
    all_goals
      simp only [entry_decision, hstale, Bool.false_and] at h
      simp at h

section Lookup

variable {γ β : Type} (env : FillEnv γ β) (io : FillIo) (shared : SharedFills γ)
  (zone : FillZone) (hot_entries : HotEntries) (index : CacheIndex) (pid : Nat)
  (request : CacheRequest) (base_key : String) (now : Nat) (request_forces_revalidation : Bool)
  (policy : RouteCachePolicy) {key : String} {entry : CacheIndexEntry}

theorem matching_entry_invalidated {invalidated : Bool}
    (h : matching_entry index base_key request = some (key, entry, invalidated)) :
    entry_is_logically_invalid index key entry = invalidated := by
  unfold matching_entry at h
  simp only [Option.bind_eq_bind, Option.bind_eq_some_iff, Option.pure_def, Option.some.injEq,
    Prod.mk.injEq] at h
  obtain ⟨_, -, _, -, rfl, rfl, rfl⟩ := h
  rfl

theorem lookup_fresh_hit
    (h : (lookup_decision env io shared zone hot_entries index pid request base_key now
      request_forces_revalidation policy).decision = .FreshHit key entry) :
    entry_is_logically_invalid index key entry = false ∧ entry.is_hit_for_pass = false ∧
      now ≤ entry.expires_at_unix_ms ∧ entry.requires_revalidation = false ∧
      request_forces_revalidation = false := by
  rcases lookup_decision_cases env io shared zone hot_entries index pid request base_key now
      request_forces_revalidation policy _ rfl with
    ⟨_, _, _, -, -, hr⟩ | ⟨_, _, -, -, hr⟩ | ⟨key', entry', hfound, hpass, htime, hreq, hforces, hr⟩ |
    ⟨_, _, -, lock, -, hr⟩ | ⟨-, lock, -, hr⟩
  · rw [hr] at h
    cases h
  · rw [hr] at h
    cases h
  · rw [hr] at h
    obtain ⟨rfl, rfl⟩ := LookupDecision.FreshHit.inj h
    exact ⟨matching_entry_invalidated index request base_key hfound, hpass, htime, hreq, hforces⟩
  · rw [hr] at h
    rcases lock with guard | state | state | waiter | external
    all_goals
      simp only [entry_decision] at h
      split at h <;> cases h
  · rw [hr] at h
    rcases lock with guard | state | state | waiter | external <;> cases h

theorem lookup_stale
    (h : (∃ status, (lookup_decision env io shared zone hot_entries index pid request base_key now
        request_forces_revalidation policy).decision = .Stale key entry status) ∨
      ∃ guard, (lookup_decision env io shared zone hot_entries index pid request base_key now
        request_forces_revalidation policy).decision = .BackgroundUpdate key entry guard) :
    entry.expires_at_unix_ms < now ∧
      stale_allowed_for_entry policy entry now request_forces_revalidation = true := by
  rcases lookup_decision_cases env io shared zone hot_entries index pid request base_key now
      request_forces_revalidation policy _ rfl with
    ⟨_, _, _, -, -, hr⟩ | ⟨_, _, -, -, hr⟩ | ⟨_, _, -, -, -, -, -, hr⟩ |
    ⟨key', entry', -, lock, -, hr⟩ | ⟨-, lock, -, hr⟩
  · rw [hr] at h
    simp at h
  · rw [hr] at h
    simp at h
  · rw [hr] at h
    simp at h
  · rw [hr] at h
    obtain ⟨-, rfl, hlate, hallowed⟩ := entry_decision_stale h
    exact ⟨hlate, hallowed⟩
  · rw [hr] at h
    rcases lock with guard | state | state | waiter | external <;> simp [missing_decision] at h

end Lookup

/-! ## The windows of a stored entry -/

/-- The window of this length after the end of the freshness is open. -/
def WindowOpen (stored_at : Nat) (freshness : ResponseFreshness) (window : Option Nat)
    (now : Nat) : Prop :=
  ∃ limit, window_until stored_at freshness window = some limit ∧ now ≤ limit

theorem any_window_until {stored_at : Nat} {freshness : ResponseFreshness} {window : Option Nat}
    {now : Nat} :
    (window_until stored_at freshness window).any (now ≤ ·) = true ↔
      WindowOpen stored_at freshness window now := by
  unfold WindowOpen
  rcases window_until stored_at freshness window with _ | limit <;> simp

section Stored

variable (base_key : String) (vary : List CachedVaryHeaderValue) (tags : List String)
  (stored_at : Nat) (grace keep : Option Nat) (freshness : ResponseFreshness)
  (body_size_bytes : Nat) (hash : String) (last_access_unix_ms : Nat)

/-- The entry of a response that was stored with this freshness. -/
def stored_entry : CacheIndexEntry :=
  (cache_metadata_input base_key vary tags stored_at grace keep freshness body_size_bytes).entry
    hash last_access_unix_ms

variable {base_key vary tags stored_at grace keep freshness body_size_bytes hash
  last_access_unix_ms}

theorem stored_entry_grace_open {now : Nat} :
    stale_while_revalidate_window_open (stored_entry base_key vary tags stored_at grace keep
      freshness body_size_bytes hash last_access_unix_ms) now = true ↔
    WindowOpen stored_at freshness grace now ∨
      WindowOpen stored_at freshness freshness.stale_while_revalidate now := by
  unfold stale_while_revalidate_window_open
  simp only [stored_entry, CacheMetadataInput.entry, cache_metadata_input, max_deadline_any,
    Bool.or_eq_true, any_window_until]
  tauto

theorem stored_entry_error_open {now : Nat} :
    stale_if_error_window_open (stored_entry base_key vary tags stored_at grace keep freshness
      body_size_bytes hash last_access_unix_ms) now = true ↔
    WindowOpen stored_at freshness freshness.stale_if_error now :=
  any_window_until

/-- The entry is kept while any of its windows is open. -/
theorem stored_entry_keep_open {now : Nat}
    (h : WindowOpen stored_at freshness grace now ∨
      WindowOpen stored_at freshness freshness.stale_while_revalidate now ∨
      WindowOpen stored_at freshness freshness.stale_if_error now ∨
      WindowOpen stored_at freshness keep now) :
    keep_window_open (stored_entry base_key vary tags stored_at grace keep freshness
      body_size_bytes hash last_access_unix_ms) now = true := by
  unfold keep_window_open
  simp only [stored_entry, CacheMetadataInput.entry, cache_metadata_input]
  split
  · -- Some window is set: the deadline is the latest of them.
    apply all_of_any
    rw [max_deadline_any, max_deadline_any, max_deadline_any]
    simp only [Bool.or_eq_true, any_window_until]
    tauto
  · rfl

theorem stored_entry_alive {now : Nat}
    (h : now ≤ saturating_add stored_at (duration_to_ms freshness.ttl) ∨
      WindowOpen stored_at freshness grace now ∨
      WindowOpen stored_at freshness freshness.stale_while_revalidate now ∨
      WindowOpen stored_at freshness freshness.stale_if_error now ∨
      WindowOpen stored_at freshness keep now) :
    lifecycle_phase (stored_entry base_key vary tags stored_at grace keep freshness
      body_size_bytes hash last_access_unix_ms) now ≠ .Dead := by
  rcases h with h | h
  · rw [(lifecycle_phase_eq_fresh _ now).mpr h]
    simp
  · unfold lifecycle_phase
    rw [stored_entry_keep_open h]
    split
    · simp
    · split <;> simp

variable (base_key vary tags stored_at grace keep freshness body_size_bytes hash
  last_access_unix_ms)

/-- A stored entry is a hit only while it is fresh, its body is served later only inside its
windows, and it is dead only when all of them are closed. -/
theorem a_stored_response_is_served_inside_its_windows {γ β : Type} (env : FillEnv γ β)
    (io : FillIo) (shared : SharedFills γ) (zone : FillZone) (hot_entries : HotEntries)
    (index : CacheIndex) (pid : Nat) (request : CacheRequest) (lookup_key : String) (now : Nat)
    (request_forces_revalidation : Bool) (policy : RouteCachePolicy) (context : CacheStoreContext)
    (reason : CacheStaleReason) :
    let entry := stored_entry base_key vary tags stored_at grace keep freshness body_size_bytes
      hash last_access_unix_ms
    let decision := (lookup_decision env io shared zone hot_entries index pid request lookup_key
      now request_forces_revalidation policy).decision
    let expires_at := saturating_add stored_at (duration_to_ms freshness.ttl)
    let grace_open := WindowOpen stored_at freshness grace now ∨
      WindowOpen stored_at freshness freshness.stale_while_revalidate now
    let error_open := WindowOpen stored_at freshness freshness.stale_if_error now
    (∀ key, decision = .FreshHit key entry →
      now ≤ expires_at ∧ freshness.requires_revalidation = false ∧
        request_forces_revalidation = false ∧ entry_is_logically_invalid index key entry = false) ∧
    (∀ key, ((∃ status, decision = .Stale key entry status) ∨
        ∃ guard, decision = .BackgroundUpdate key entry guard) →
      expires_at < now ∧ entry.kind = .Response ∧ freshness.requires_revalidation = false ∧
        freshness.must_revalidate = false ∧ request_forces_revalidation = false ∧ grace_open) ∧
    (context.cached_entry = some entry → context.can_serve_stale now reason = true →
      expires_at < now →
      entry.kind = .Response ∧ freshness.requires_revalidation = false ∧
        freshness.must_revalidate = false ∧ context.request_forces_revalidation = false ∧
        (grace_open ∨ error_open)) ∧
    (∀ later, now ≤ later →
      (lifecycle_phase entry now).rank ≤ (lifecycle_phase entry later).rank) ∧
    ((now ≤ expires_at ∨ grace_open ∨ error_open ∨ WindowOpen stored_at freshness keep now) →
      lifecycle_phase entry now ≠ .Dead) := by
  intro entry decision expires_at grace_open error_open
  have hgrace : lifecycle_phase entry now = .Grace → grace_open := by
    intro hphase
    exact stored_entry_grace_open.mp (grace_of_phase hphase).2
  refine ⟨?_, ?_, ?_, fun later h => lifecycle_phase_mono entry h, ?_⟩
  · intro key hhit
    obtain ⟨hvalid, -, htime, hreq, hforces⟩ := lookup_fresh_hit env io shared zone hot_entries
      index pid request lookup_key now request_forces_revalidation policy hhit
    exact ⟨htime, hreq, hforces, hvalid⟩
  · intro key hstale
    obtain ⟨hlate, hallowed⟩ := lookup_stale env io shared zone hot_entries index pid
      request lookup_key now request_forces_revalidation policy hstale
    obtain ⟨hphase, -, hforces, hreq, hmus⟩ := stale_allowed_spec hallowed
    exact ⟨hlate, rfl, hreq, hmus, hforces, hgrace hphase⟩
  · intro hcached hserve hlate
    obtain ⟨-, hforces, hreq, hmus, hwindow⟩ := can_serve_stale_spec hcached hserve
    refine ⟨rfl, hreq, hmus, hforces, ?_⟩
    rcases hwindow with hphase | hopen
    · exact .inl (hgrace hphase)
    · exact .inr (stored_entry_error_open.mp hopen)
  · intro hopen
    apply stored_entry_alive
    tauto

end Stored

end rginx.cache
