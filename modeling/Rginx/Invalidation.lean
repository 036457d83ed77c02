-- The law of invalidation (`cache/invalidation.rs` and
-- `cache/store/maintenance/mod.rs`): from the moment a rule is in the index
-- until the rules are cleared, no lookup serves an entry that the rule selects
-- and that was stored in an earlier millisecond, and the rule drops no other.
import Rginx.IndexRuns
import Rginx.StaleServing

namespace rginx.cache

/-! ## The index after a rule was added -/

section Changes

variable {β : Type}

/-- What can happen to the index of a zone: a call, or the load of the shared document. -/
inductive IndexChange (β : Type)
  | index (call : IndexCall)
  | reload (document : SharedMemoryIndexDocument β) (loaded : LoadedSharedIndex)

def IndexChange.run (index : CacheIndex) : IndexChange β → CacheIndex
  | .index call => call.run index
  | .reload _ loaded => loaded.index

def runChanges (index : CacheIndex) (changes : List (IndexChange β)) : CacheIndex :=
  changes.foldl IndexChange.run index

/-- Nobody clears the rules, in this process or in one whose changes are replayed, and a document
that is loaded has the rule. -/
def IndexChange.Keeps (json : SerdeJson β) (rule : CacheInvalidationRule) :
    IndexChange β → Prop
  | .index (.zone call) => call ≠ .clear
  | .index (.delta operations) => .ClearInvalidations ∉ operations
  | .reload document loaded =>
    loaded_index_from_document json document = .ok loaded ∧ rule ∈ loaded.index.invalidations

theorem apply_keeps_rule {view : SharedView} {rule : CacheInvalidationRule}
    (h : rule ∈ view.invalidations) {operation : SharedIndexOperation}
    (hop : operation ≠ .ClearInvalidations) : rule ∈ (view.apply operation).invalidations := by
  cases operation with
  | ClearInvalidations => exact absurd rfl hop
  | AddInvalidation other => exact Finset.mem_insert_of_mem h
  | _ => exact h

theorem applyAll_keeps_rule {view : SharedView} {rule : CacheInvalidationRule}
    (h : rule ∈ view.invalidations) {operations : List SharedIndexOperation}
    (hops : .ClearInvalidations ∉ operations) :
    rule ∈ (view.applyAll operations).invalidations := by
  induction operations generalizing view with
  | nil => exact h
  | cons operation rest ih =>
    rw [applyAll_cons]
    apply ih
    · apply apply_keeps_rule h
      intro he
      exact hops (he ▸ List.mem_cons_self)
    · exact fun hm => hops (List.mem_cons_of_mem _ hm)

theorem removal_operations_keep (key : String) :
    .ClearInvalidations ∉ removal_operations key := by
  simp [removal_operations]

theorem dropped_operations_keep (rows : List (String × CacheIndexEntry)) :
    .ClearInvalidations ∉ dropped_operations rows := by
  simp [dropped_operations, removal_operations_keep]

/-- Only the call that clears the rules publishes that. -/
theorem LocalCall.run_clears_nothing (index : CacheIndex) {call : LocalCall}
    (h : call ≠ .clear) : .ClearInvalidations ∉ (call.run index).2 := by
  cases call with
  | store hot max_size_bytes key entry replaced_entry =>
    simp [LocalCall.run, update_index_after_store, dropped_operations_keep]
  | remove key expected_entry =>
    simp only [LocalCall.run]
    rcases remove_zone_index_entry_if_matches_cases index key expected_entry with
      ⟨current, -, -, hrun⟩ | hrun
    · rw [hrun]
      exact removal_operations_keep key
    · rw [hrun]
      simp
  | purge order selector => exact dropped_operations_keep _
  | cleanup hot now inactive_ms batch_size => exact dropped_operations_keep _
  | admission key min_uses =>
    simp only [LocalCall.run, record_cache_admission_attempt]
    split <;> (try split) <;> simp
  | access key last_access_unix_ms =>
    simp only [LocalCall.run, record_zone_shared_entry_access]
    split <;> simp
  | invalidate rule => simp [LocalCall.run, add_invalidation]
  | clear => exact absurd rfl h

theorem mem_view_invalidations {index : CacheIndex} {rule : CacheInvalidationRule} :
    rule ∈ index.view.invalidations ↔ rule ∈ index.invalidations :=
  List.mem_toFinset

/-- One change keeps the invariant of the index and the rule. -/
theorem IndexChange.run_keeps {json : SerdeJson β} {index : CacheIndex} (hok : index.Ok)
    {rule : CacheInvalidationRule} (hrule : rule ∈ index.invalidations) {change : IndexChange β}
    (h : change.Keeps json rule) :
    (change.run index).Ok ∧ rule ∈ (change.run index).invalidations := by
  have hview : rule ∈ index.view.invalidations := mem_view_invalidations.mpr hrule
  rcases change with (call | operations) | ⟨document, loaded⟩
  · refine ⟨LocalCall.run_ok hok call, ?_⟩
    have hkept : rule ∈ ((call.run index).1.view).invalidations := by
      rw [LocalCall.run_view hok call]
      exact applyAll_keeps_rule hview (LocalCall.run_clears_nothing index h)
    exact mem_view_invalidations.mp hkept
  · refine ⟨apply_shared_index_delta_ok hok operations, ?_⟩
    have hkept : rule ∈ (apply_shared_index_delta index operations).view.invalidations := by
      rw [view_apply_shared_index_delta]
      exact applyAll_keeps_rule hview h
    exact mem_view_invalidations.mp hkept
  · have hload : IndexStart.load json (.shared document) = .ok loaded.index := by
      simp only [IndexStart.load, h.1]
      rfl
    exact ⟨IndexStart.load_ok hload, h.2⟩

theorem runChanges_keeps {json : SerdeJson β} {index : CacheIndex} (hok : index.Ok)
    {rule : CacheInvalidationRule} (hrule : rule ∈ index.invalidations)
    {changes : List (IndexChange β)} (h : ∀ change ∈ changes, change.Keeps json rule) :
    rule ∈ (runChanges index changes).invalidations := by
  induction changes generalizing index with
  | nil => exact hrule
  | cons change rest ih =>
    obtain ⟨hok', hrule'⟩ := IndexChange.run_keeps hok hrule (h change List.mem_cons_self)
    exact ih hok' hrule' fun c hc => h c (List.mem_cons_of_mem _ hc)

end Changes

/-! ## What a lookup serves -/

/-- The entry whose body the decision serves, now or when the origin has not changed it. -/
def LookupDecision.served : LookupDecision → Option (String × CacheIndexEntry)
  | .FreshHit key entry => some (key, entry)
  | .Stale key entry _ => some (key, entry)
  | .BackgroundUpdate key cached_entry _ => some (key, cached_entry)
  | .Miss key _ cached_entry _ _ => cached_entry.map fun entry => (key, entry)
  | _ => none

theorem entry_decision_served {policy : RouteCachePolicy} {key : String}
    {entry : CacheIndexEntry} {now : Nat} {forces : Bool} {lock : FillLockDecision}
    {row : String × CacheIndexEntry}
    (h : (entry_decision policy key entry now forces lock).served = some row) :
    row = (key, entry) := by
  rcases lock with guard | state | state | waiter | external
  all_goals
    simp only [entry_decision] at h
    split at h <;> simp [LookupDecision.served] at h <;> exact h.symm

section Lookup

variable {γ β : Type} (env : FillEnv γ β) (io : FillIo) (shared : SharedFills γ)
  (zone : FillZone) (hot_entries : HotEntries) (index : CacheIndex) (pid : Nat)
  (request : CacheRequest) (base_key : String) (now : Nat) (request_forces_revalidation : Bool)
  (policy : RouteCachePolicy)

/-- A lookup serves no entry that a rule of the index matches. -/
theorem lookup_served_valid {key : String} {entry : CacheIndexEntry}
    (h : (lookup_decision env io shared zone hot_entries index pid request base_key now
      request_forces_revalidation policy).decision.served = some (key, entry)) :
    entry_is_logically_invalid index key entry = false := by
  rcases lookup_decision_cases env io shared zone hot_entries index pid request base_key now
      request_forces_revalidation policy _ rfl with
    ⟨_, _, _, -, -, hr⟩ | ⟨_, _, -, -, hr⟩ | ⟨key', entry', hfound, -, -, -, -, hr⟩ |
    ⟨key', entry', hneeds, lock, -, hr⟩ | ⟨-, lock, -, hr⟩
  · rw [hr] at h
    cases h
  · rw [hr] at h
    cases h
  · rw [hr] at h
    obtain ⟨rfl, rfl⟩ := Prod.mk.inj (Option.some.inj h)
    exact matching_entry_invalidated index request base_key hfound
  · rw [hr] at h
    obtain ⟨rfl, rfl⟩ := Prod.mk.inj (entry_decision_served h)
    exact matching_entry_invalidated index request base_key hneeds.found
  · rw [hr] at h
    rcases lock with guard | state | state | waiter | external <;>
      simp [missing_decision, LookupDecision.served] at h

/-- A lookup drops an entry for a rule that matches it, or because it is dead. -/
theorem lookup_drop_reason {key : String} {entry : CacheIndexEntry}
    (h : (lookup_decision env io shared zone hot_entries index pid request base_key now
      request_forces_revalidation policy).decision = .DropEntry key entry) :
    entry_is_logically_invalid index key entry = true ∨ lifecycle_phase entry now = .Dead := by
  rcases lookup_decision_cases env io shared zone hot_entries index pid request base_key now
      request_forces_revalidation policy _ rfl with
    ⟨key', entry', invalidated, hfound, hreason, hr⟩ | ⟨_, _, -, -, hr⟩ |
    ⟨_, _, -, -, -, -, -, hr⟩ | ⟨_, _, -, lock, -, hr⟩ | ⟨-, lock, -, hr⟩
  · rw [hr] at h
    obtain ⟨rfl, rfl⟩ := LookupDecision.DropEntry.inj h
    rw [matching_entry_invalidated index request base_key hfound]
    exact hreason
  · rw [hr] at h
    cases h
  · rw [hr] at h
    cases h
  · rw [hr] at h
    rcases lock with guard | state | state | waiter | external
    all_goals
      simp only [entry_decision] at h
      split at h <;> cases h
  · rw [hr] at h
    rcases lock with guard | state | state | waiter | external <;> cases h

end Lookup

/-! ## The law -/

/-- After an invalidation at the time `t`, however the index goes on without a clear: an entry
that the rule selects and that was stored before `t` is not served, and an entry that was stored
at `t` or later is not dropped for this rule. -/
theorem an_invalidation_holds_until_it_is_cleared {γ β : Type} (json : SerdeJson β)
    (start : IndexStart β) (first : CacheIndex) (hstart : start.load json = .ok first)
    (calls : List IndexCall) (selector : CacheInvalidationSelector) (t : Nat)
    (changes : List (IndexChange β))
    (hchanges : ∀ change ∈ changes, change.Keeps json ⟨selector, t⟩)
    (env : FillEnv γ β) (io : FillIo) (shared : SharedFills γ) (zone : FillZone)
    (hot_entries : HotEntries) (pid : Nat) (request : CacheRequest) (base_key : String)
    (now : Nat) (request_forces_revalidation : Bool) (policy : RouteCachePolicy) :
    let index := runCalls first calls
    let later := runChanges (add_invalidation index ⟨selector, t⟩).1 changes
    let decision := (lookup_decision env io shared zone hot_entries later pid request base_key now
      request_forces_revalidation policy).decision
    (∀ key entry, index.entries[key]? = some entry →
      selector_matches_entry selector key entry = true → entry.stored_at_unix_ms < t →
      ∀ later_entry, later_entry.stable_eq entry = true →
        decision.served ≠ some (key, later_entry)) ∧
    (∀ key entry, t ≤ entry.stored_at_unix_ms → decision = .DropEntry key entry →
      lifecycle_phase entry now = .Dead ∨ ∃ rule ∈ later.invalidations,
        rule.created_at_unix_ms ≠ t ∧ invalidation_rule_matches_entry rule key entry = true) := by
  intro index later decision
  have hok : (add_invalidation index ⟨selector, t⟩).1.Ok :=
    LocalCall.run_ok (runCalls_ok (IndexStart.load_ok hstart) calls) (.invalidate ⟨selector, t⟩)
  have hrule : (⟨selector, t⟩ : CacheInvalidationRule) ∈
      (add_invalidation index ⟨selector, t⟩).1.invalidations := by simp [add_invalidation]
  have hlater : ⟨selector, t⟩ ∈ later.invalidations := runChanges_keeps hok hrule hchanges
  refine ⟨?_, ?_⟩
  · intro key entry _ hselected htime later_entry hsame hserved
    -- The selector and the time of the entry are the same as when the rule came.
    have htags : later_entry.tags = entry.tags := by
      simp only [CacheIndexEntry.stable_eq, decide_eq_true_eq] at hsame
      exact hsame.2.2.2.2.2.2.2.1
    have hstored : later_entry.stored_at_unix_ms = entry.stored_at_unix_ms := by
      simp only [CacheIndexEntry.stable_eq, decide_eq_true_eq] at hsame
      exact hsame.2.1
    have hinvalid : entry_is_logically_invalid later key later_entry = true := by
      apply List.any_eq_true.mpr
      refine ⟨_, hlater, ?_⟩
      have hselected' : selector_matches_entry selector key later_entry = true := by
        unfold selector_matches_entry at hselected ⊢
        rw [htags]
        exact hselected
      simp [invalidation_rule_matches_entry, hstored, htime, hselected']
    rw [lookup_served_valid env io shared zone hot_entries later pid request base_key now
      request_forces_revalidation policy hserved] at hinvalid
    cases hinvalid
  · intro key entry htime hdrop
    rcases lookup_drop_reason env io shared zone hot_entries later pid request base_key now
      request_forces_revalidation policy hdrop with hinvalid | hdead
    · obtain ⟨rule, hmem, hmatch⟩ := List.any_eq_true.mp hinvalid
      refine .inr ⟨rule, hmem, ?_, hmatch⟩
      intro ht
      simp only [invalidation_rule_matches_entry, Bool.and_eq_true, decide_eq_true_eq] at hmatch
      omega
    · exact .inl hdead

/-- A store at the time 1, and a rule for everything at the time 5: the entry is not served. -/
theorem an_older_entry_is_not_served :
    (lookup_decision plainFillEnv ⟨0, true, true, true⟩ noSharedFills { mode := .Local } ∅
      (add_invalidation (runCalls CacheIndex.default
        [.zone (.store ∅ none "a" (tenBytes "a" 1) none)]) ⟨.All, 5⟩).1
      1 (plainGet []) "a" 6 false (plainPolicy true)).decision.served ≠
        some ("a", tenBytes "a" 1) :=
  (an_invalidation_holds_until_it_is_cleared plainFillEnv.store.json .empty CacheIndex.default rfl
    [.zone (.store ∅ none "a" (tenBytes "a" 1) none)] .All 5 [] (by simp) plainFillEnv
    ⟨0, true, true, true⟩ noSharedFills { mode := .Local } ∅ 1 (plainGet []) "a" 6 false
    (plainPolicy true)).1 "a" (tenBytes "a" 1) (by decide) rfl (by decide) (tenBytes "a" 1)
    (by decide)

/-- An entry that was stored in the millisecond of the rule, before the rule, is still a hit. -/
theorem an_entry_of_the_same_millisecond_is_served :
    (runCalls CacheIndex.default
        [.zone (.store ∅ none "a" (tenBytes "a" 5) none)]).entries["a"]? =
      some (tenBytes "a" 5) ∧
    selector_matches_entry .All "a" (tenBytes "a" 5) = true ∧
    (lookup_decision plainFillEnv ⟨0, true, true, true⟩ noSharedFills { mode := .Local } ∅
      (add_invalidation (runCalls CacheIndex.default
        [.zone (.store ∅ none "a" (tenBytes "a" 5) none)]) ⟨.All, 5⟩).1
      1 (plainGet []) "a" 6 false (plainPolicy true)).decision =
        .FreshHit "a" (tenBytes "a" 5) :=
  ⟨by decide, rfl, rfl⟩

end rginx.cache
