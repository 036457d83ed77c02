-- The clients of the rate limits apart from each other: what a limiter answers
-- to a client is what a bucket answers that is for this client alone. A check
-- that the shared document has no room for is refused, and leaves no trace.
import Rginx.RateSegments

open rust_net rust_text rginx.cache

namespace rginx.rate_limit

/-! ## A bucket of one's own -/

section Own

variable (clock : BucketClock) {κ : Type}

/-- A bucket is checked; the first check creates it. -/
def own_check (bucket : Option TokenBucket) (check : Check κ) : TokenBucket × Bool :=
  (bucket.getD (TokenBucket.new check.policy check.now)).try_acquire clock check.policy check.now

def own_bucket (checks : List (Check κ)) : Option TokenBucket :=
  checks.foldl (fun bucket check => some (own_check clock bucket check).1) none

/-- The answer to a check by a single bucket that the checks before it were made of. -/
def own_answer (checks : List (Check κ)) (check : Check κ) : Bool :=
  (own_check clock (own_bucket clock checks) check).2

/-- A check at a time of the exact arithmetic. -/
def Check.event (check : Check κ) : token_buckets.Event ℚ := .check (clock.seconds check.now)

/-- The bucket of one's own is the store of one key. -/
theorem own_check_exact {bucket : Option TokenBucket} {check : Check κ} {policy : RouteRateLimit}
    (hbucket : ∀ b ∈ bucket, b.policy = policy) (hcheck : check.policy = policy) :
    (own_check clock bucket check).1.policy = policy ∧
      token_buckets.step policy.rate (bucket_capacity policy)
          (bucket.map (TokenBucket.exact clock)) (check.event clock) =
        (some ((own_check clock bucket check).1.exact clock),
          (own_check clock bucket check).2) := by
  have hstore : (⟨fun _ => bucket, 0⟩ : BucketStore Unit).HasPolicy () policy := hbucket
  obtain ⟨hpolicy, hstep⟩ := exact_check clock hstore check.now
  unfold own_check
  rw [hcheck]
  exact ⟨hpolicy, hstep⟩

theorem own_bucket_exact {checks : List (Check κ)} {policy : RouteRateLimit}
    (hchecks : ∀ check ∈ checks, check.policy = policy) :
    (∀ b ∈ own_bucket clock checks, b.policy = policy) ∧
      (own_bucket clock checks).map (TokenBucket.exact clock) =
        token_buckets.after policy.rate (bucket_capacity policy) none
          (checks.map (Check.event clock)) := by
  induction checks using List.reverseRecOn with
  | nil => exact ⟨nofun, rfl⟩
  | append_singleton checks check ih =>
    obtain ⟨hpolicy, hexact⟩ := ih fun other hother => hchecks other (List.mem_append_left _ hother)
    obtain ⟨hkept, hstep⟩ := own_check_exact clock hpolicy
      (hchecks check (List.mem_append_right _ (List.mem_singleton_self _)))
    have hbucket : own_bucket clock (checks ++ [check]) =
        some (own_check clock (own_bucket clock checks) check).1 := by
      simp [own_bucket]
    rw [hbucket, List.map_append, token_buckets.after_append, ← hexact]
    refine ⟨?_, ?_⟩
    · intro b hb
      obtain rfl := Option.some.inj hb
      exact hkept
    · simp [token_buckets.after, hstep]

variable [DecidableEq κ]

/-- The checks of a key that were carried out. -/
def checks_for (key : κ) (checks : List (Check κ × Bool)) : List (Check κ) :=
  (checks.filter fun check => check.2 && decide (check.1.key = key)).map Prod.fst

variable {clock}

theorem check_events_times {key : κ} {store : BucketStore κ} {check : Check κ × Bool}
    {event : token_buckets.Event ℚ} (h : event ∈ check_events clock key store check) :
    event.now = clock.seconds check.1.now := by
  unfold check_events at h
  split at h
  · rcases List.mem_append.mp h with h | h
    · split at h
      · rw [List.mem_singleton.mp h]
        rfl
      · cases h
    · split at h
      · rw [List.mem_singleton.mp h]
        rfl
      · cases h
  · cases h

/-- Of the events of a check, the one that is no sweep is the check itself. -/
theorem check_events_checks (key : κ) (store : BucketStore κ) (check : Check κ × Bool) :
    (check_events clock key store check).filter token_buckets.Event.isCheck =
      (checks_for key [check]).map (Check.event clock) := by
  have hsweep : (if store.next_cleanup ≤ check.1.now ∧ (store.buckets key).isSome then
      [token_buckets.Event.sweep (clock.seconds check.1.now)] else []).filter
        token_buckets.Event.isCheck = [] := by
    split <;> rfl
  unfold check_events checks_for
  by_cases hdone : check.2 = true
  · rw [if_pos hdone, List.filter_append, hsweep, List.nil_append]
    by_cases hkey : check.1.key = key
    · simp [hdone, hkey, token_buckets.Event.isCheck, Check.event]
    · simp [hkey]
  · simp [hdone]

theorem bucket_events_checks (key : κ) (store : BucketStore κ) (checks : List (Check κ × Bool)) :
    (bucket_events clock key store checks).filter token_buckets.Event.isCheck =
      (checks_for key checks).map (Check.event clock) := by
  induction checks generalizing store with
  | nil => rfl
  | cons check checks ih =>
    unfold bucket_events
    rw [List.filter_append, check_events_checks, ih, ← List.map_append]
    simp [checks_for, List.filter_cons]
    split <;> simp

variable (clock) in
/-- The events of a bucket come at the times of the checks, in their order. -/
theorem bucket_events_times (key : κ) (store : BucketStore κ) (checks : List (Check κ × Bool))
    (hordered : (checks.map fun check => check.1.now).Pairwise (· ≤ ·)) :
    ((bucket_events clock key store checks).map token_buckets.Event.now).Pairwise (· ≤ ·) ∧
      ∀ event ∈ bucket_events clock key store checks,
        ∃ check ∈ checks, event.now = clock.seconds check.1.now := by
  induction checks generalizing store with
  | nil => exact ⟨List.Pairwise.nil, nofun⟩
  | cons check checks ih =>
    rw [List.map_cons, List.pairwise_cons] at hordered
    obtain ⟨hrest, htimes⟩ := ih (carried_out clock store check).1 hordered.2
    unfold bucket_events
    refine ⟨?_, ?_⟩
    · rw [List.map_append, List.pairwise_append]
      refine ⟨?_, hrest, ?_⟩
      · rw [List.pairwise_iff_forall_sublist]
        intro t t' hsub
        have hfirst : ∀ u ∈ [t, t'], u = clock.seconds check.1.now := by
          intro u hu
          obtain ⟨event, hevent, rfl⟩ := List.mem_map.mp (hsub.subset hu)
          exact check_events_times hevent
        rw [hfirst t List.mem_cons_self, hfirst t' (List.mem_cons_of_mem _ List.mem_cons_self)]
      · intro t ht t' ht'
        obtain ⟨event, hevent, rfl⟩ := List.mem_map.mp ht
        obtain ⟨event', hevent', rfl⟩ := List.mem_map.mp ht'
        obtain ⟨other, hother, hnow⟩ := htimes event' hevent'
        rw [check_events_times hevent, hnow]
        exact seconds_le clock (hordered.1 _ (List.mem_map_of_mem hother))
    · intro event hevent
      rcases List.mem_append.mp hevent with hfirst | hlater
      · exact ⟨check, List.mem_cons_self, check_events_times hfirst⟩
      · obtain ⟨other, hother, hnow⟩ := htimes event hlater
        exact ⟨other, List.mem_cons_of_mem _ hother, hnow⟩

variable (clock) in
/-- The sweep that a check of the key makes before it. -/
def sweep_before (store : BucketStore κ) (check : Check κ) : List (token_buckets.Event ℚ) :=
  if store.next_cleanup ≤ check.now ∧ (store.buckets check.key).isSome then
    [.sweep (clock.seconds check.now)]
  else []

theorem bucket_events_snoc (store : BucketStore κ) (checks : List (Check κ × Bool))
    (check : Check κ) :
    bucket_events clock check.key store (checks ++ [(check, true)]) =
      (bucket_events clock check.key store checks ++
        sweep_before clock (checked clock store checks) check) ++ [check.event clock] := by
  induction checks generalizing store with
  | nil =>
    simp only [List.nil_append, bucket_events, check_events, if_true, List.append_nil]
    rfl
  | cons other checks ih =>
    rw [List.cons_append, bucket_events, ih, bucket_events]
    simp [checked]

/-- A store answers a check as the bucket does that had the checks of its key only. -/
theorem check_at_own (checks : List (Check κ × Bool)) (check : Check κ) (next_cleanup : Nat)
    (hordered : ((checks.map fun other => other.1.now) ++ [check.now]).Pairwise (· ≤ ·))
    (hfixed : FixedPolicy check.key check.policy checks) :
    (check_at clock (checked clock (.empty next_cleanup) checks) check).2 =
      own_answer clock (checks_for check.key checks) check := by
  have hempty : (BucketStore.empty next_cleanup).HasPolicy check.key check.policy := nofun
  obtain ⟨hpolicy, hstore⟩ := checked_exact clock checks hempty hfixed
  obtain ⟨hkept, hswept⟩ := cleanup_exact clock hpolicy check.now
  obtain ⟨-, hstep⟩ := exact_check clock hkept check.now
  rw [hstore] at hswept
  have hown : ∀ other ∈ checks_for check.key checks, other.policy = check.policy := by
    intro other hother
    obtain ⟨⟨_, outcome⟩, hmem, rfl⟩ := List.mem_map.mp hother
    obtain ⟨hmem, hkey⟩ := List.mem_filter.mp hmem
    exact hfixed _ hmem (by simpa using (Bool.and_eq_true_iff.mp hkey).2)
  obtain ⟨hbucket, hexact⟩ := own_bucket_exact clock hown
  obtain ⟨-, hanswer⟩ := own_check_exact clock hbucket rfl
  -- in the order of the times, the sweeps between the checks are not seen
  obtain ⟨htimes, -⟩ := bucket_events_times clock check.key (.empty next_cleanup)
    (checks ++ [(check, true)]) (by simpa using hordered)
  rw [bucket_events_snoc, List.map_append] at htimes
  have hunswept := token_buckets.answer_of_unswept (bucket_capacity check.policy)
    (Nat.cast_nonneg check.policy.requests_per_sec) _ htimes
  have hchecks : (bucket_events clock check.key (.empty next_cleanup) checks ++ sweep_before clock
      (checked clock (.empty next_cleanup) checks) check).filter token_buckets.Event.isCheck =
      (checks_for check.key checks).map (Check.event clock) := by
    have hsweep : (sweep_before clock (checked clock (.empty next_cleanup) checks) check).filter
        token_buckets.Event.isCheck = [] := by
      unfold sweep_before
      split <;> rfl
    rw [List.filter_append, bucket_events_checks, hsweep, List.append_nil]
  rw [hchecks, token_buckets.after_append] at hunswept
  have hsame := congrArg Prod.snd (hswept ▸ hstep)
  have hsame' := congrArg Prod.snd (hexact ▸ hanswer)
  exact hsame.symm.trans (hunswept.trans hsame')

end Own

/-! ## The local limiter -/

/-- `LocalRateLimiters::check_at`, with the shards. The hash of a key is any number. -/
def LocalRateLimiters.sharded_check_at (shard_index : BucketKey → Nat) (cleanup_interval : Nat)
    (shards : Nat → BucketStore BucketKey) (check : Check BucketKey) :
    (Nat → BucketStore BucketKey) × Bool :=
  let index := shard_index check.key
  let (shard, allowed) := LocalRateLimiters.check_at cleanup_interval (shards index) check
  (Function.update shards index shard, allowed)

def LocalRateLimiters.after (shard_index : BucketKey → Nat) (cleanup_interval : Nat)
    (shards : Nat → BucketStore BucketKey) (checks : List (Check BucketKey)) :
    Nat → BucketStore BucketKey :=
  checks.foldl (fun shards check =>
    (sharded_check_at shard_index cleanup_interval shards check).1) shards

/-- The checks of a route and a client come in the order of their times, and with the policy of
the route. -/
structure Ordered (policies : String → RouteRateLimit) (checks : List (Check BucketKey)) :
    Prop where
  times : (checks.map Check.now).Pairwise (· ≤ ·)
  policy : ∀ check ∈ checks, check.policy = policies check.key.route

section Local

variable {shard_index : BucketKey → Nat} {cleanup_interval : Nat}

/-- A shard sees the checks of its own keys. -/
theorem shard_after (shards : Nat → BucketStore BucketKey) (checks : List (Check BucketKey))
    (index : Nat) :
    LocalRateLimiters.after shard_index cleanup_interval shards checks index =
      checked (local_clock cleanup_interval) (shards index)
        ((checks.filter fun check => shard_index check.key = index).map fun check =>
          (check, true)) := by
  induction checks generalizing shards with
  | nil => rfl
  | cons check checks ih =>
    unfold LocalRateLimiters.after at ih ⊢
    rw [List.foldl_cons, ih]
    by_cases hindex : shard_index check.key = index
    · subst hindex
      simp [LocalRateLimiters.sharded_check_at, LocalRateLimiters.check_at, checked, carried_out]
    · simp [LocalRateLimiters.sharded_check_at, Function.update_of_ne (Ne.symm hindex), hindex]

/-- The checks of a key are all in its shard. -/
theorem checks_for_shard (key : BucketKey) (checks : List (Check BucketKey)) :
    checks_for key ((checks.filter fun check => shard_index check.key = shard_index key).map
      fun check => (check, true)) = checks.filter fun check => check.key = key := by
  induction checks with
  | nil => rfl
  | cons check checks ih =>
    unfold checks_for at ih ⊢
    by_cases hkey : check.key = key
    · subst hkey
      simpa using ih
    · by_cases hindex : shard_index check.key = shard_index key
      · simpa [hkey, hindex] using ih
      · simpa [hkey, hindex] using ih

theorem local_answer_own {policies : String → RouteRateLimit} (next_cleanup : Nat)
    (checks : List (Check BucketKey)) (check : Check BucketKey)
    (hordered : Ordered policies (checks ++ [check])) :
    (LocalRateLimiters.sharded_check_at shard_index cleanup_interval
        (LocalRateLimiters.after shard_index cleanup_interval (fun _ => .empty next_cleanup) checks)
        check).2 =
      own_answer (local_clock cleanup_interval) (checks.filter fun other => other.key = check.key)
        check := by
  obtain ⟨htimes, hpolicy⟩ := hordered
  unfold LocalRateLimiters.sharded_check_at LocalRateLimiters.check_at
  dsimp only
  rw [shard_after]
  have hsub : ((checks.filter fun other => shard_index other.key = shard_index check.key).map
      Check.now ++ [check.now]).Pairwise (· ≤ ·) := by
    refine htimes.sublist ?_
    rw [List.map_append]
    exact (List.filter_sublist.map _).append_right _
  rw [check_at_own _ check next_cleanup (by simpa [Function.comp_def] using hsub)]
  · rw [checks_for_shard]
  · intro other hother hkey
    obtain ⟨same, hsame, rfl⟩ := List.mem_map.mp hother
    have hmem := List.mem_append_left [check] (List.mem_filter.mp hsame).1
    rw [hpolicy same hmem, hpolicy check (List.mem_append_right _ (List.mem_singleton_self _)),
      hkey]

end Local

/-! ## The shared limiter -/

/-- Distinct pairs of a route and a client have distinct keys. -/
theorem bucket_key_injective {route route' : String} {client_ip client_ip' : IpAddr}
    (h : bucket_key route client_ip = bucket_key route' client_ip') :
    route = route' ∧ client_ip = client_ip' := by
  have hlist : route.toList ++ Char.ofNat 0 :: client_ip.to_string =
      route'.toList ++ Char.ofNat 0 :: client_ip'.to_string := by
    simpa [bucket_key] using congrArg String.toList h
  obtain ⟨hroute, hclient⟩ := append_cons_inj (nul_notMem_to_string client_ip)
    (nul_notMem_to_string client_ip') hlist
  exact ⟨String.toList_inj.mp hroute, to_string_injective hclient⟩

/-- A check of a client, as one of the shared document. -/
def Check.shared (check : Check BucketKey) : Check String :=
  ⟨bucket_key check.key.route check.key.client_ip, check.policy, check.now⟩

@[simp] theorem Check.shared_now (check : Check BucketKey) : check.shared.now = check.now := rfl

open shared

section Shared

variable (store : SharedRateLimitStore)

def after_check (memory : Memory store.payload_capacity) (checks : List (Check BucketKey)) :
    Memory store.payload_capacity :=
  checks.foldl (fun memory check => (store.check_at memory check.shared).1) memory

/-- The checks, and which of them were answered. -/
def outcomes (memory : Memory store.payload_capacity) :
    List (Check BucketKey) → List (Check BucketKey × Bool)
  | [] => []
  | check :: checks =>
    let (memory, result) := store.check_at memory check.shared
    (check, result.isOk) :: outcomes memory checks

variable {store}

/-- The document in the memory is the store that the answered checks leave. -/
structure Shares (memory : Memory store.payload_capacity) (checks : List (Check BucketKey × Bool))
    (document : SharedRateLimitDocument) : Prop where
  reads : store.Reads memory document
  version : document.version = DOCUMENT_VERSION
  store_eq : document.store = checked shared_clock (.empty 0)
    (checks.map fun check => (check.1.shared, check.2))

theorem Shares.step {memory : Memory store.payload_capacity}
    {checks : List (Check BucketKey × Bool)} {document : SharedRateLimitDocument}
    (h : Shares memory checks document) (check : Check BucketKey) :
    ∃ document', Shares (store.check_at memory check.shared).1
      (checks ++ [(check, (store.check_at memory check.shared).2.isOk)]) document' := by
  by_cases hfits : store.Fits (document.check check.shared).1
  · obtain ⟨segment, hanswers, hreads⟩ := check_at_of_fits h.reads hfits
    refine ⟨(document.check check.shared).1, ?_, (check_version _ _).trans h.version, ?_⟩
    · rw [hanswers]
      exact hreads h.version
    · have hstore := congrArg Prod.fst (store_check document check.shared)
      dsimp only at hstore
      rw [hstore, h.store_eq, hanswers]
      simp [checked, carried_out, Except.isOk, Except.toBool]
  · obtain ⟨segment, error, hrefused, hreads⟩ := check_at_of_not_fits h.reads hfits
    refine ⟨document, ?_, h.version, ?_⟩
    · rw [hrefused]
      exact hreads
    · rw [h.store_eq, hrefused]
      simp [checked, carried_out, Except.isOk, Except.toBool]

theorem Shares.run {memory : Memory store.payload_capacity}
    {before : List (Check BucketKey × Bool)} {document : SharedRateLimitDocument}
    (h : Shares memory before document) (checks : List (Check BucketKey)) :
    ∃ document', Shares (after_check store memory checks)
      (before ++ outcomes store memory checks) document' := by
  induction checks generalizing memory before document with
  | nil => exact ⟨document, by simpa [outcomes, after_check] using h⟩
  | cons check checks ih =>
    obtain ⟨document', hstep⟩ := h.step check
    obtain ⟨document'', hrun⟩ := ih hstep
    refine ⟨document'', ?_⟩
    rw [List.append_assoc, List.singleton_append] at hrun
    exact hrun

theorem outcomes_checks (memory : Memory store.payload_capacity)
    (checks : List (Check BucketKey)) :
    (outcomes store memory checks).map Prod.fst = checks := by
  induction checks generalizing memory with
  | nil => rfl
  | cons check checks ih =>
    unfold outcomes
    rw [List.map_cons, ih]

/-- The answered checks of a pair are those of its key in the document. -/
theorem checks_for_shared (key : BucketKey) (checks : List (Check BucketKey × Bool)) :
    checks_for (bucket_key key.route key.client_ip)
        (checks.map fun check => (check.1.shared, check.2)) =
      (checks_for key checks).map Check.shared := by
  have hkey : ∀ check : Check BucketKey,
      (check.shared.key = bucket_key key.route key.client_ip) ↔ check.key = key := by
    intro check
    constructor
    · intro h
      obtain ⟨hroute, hclient⟩ := bucket_key_injective h
      cases hkey : check.key
      cases key
      simp_all
    · rintro rfl
      rfl
  unfold checks_for
  rw [List.filter_map, List.map_map, List.map_map]
  simp only [Function.comp_def, hkey]

theorem own_bucket_shared (clock : BucketClock) (checks : List (Check BucketKey)) :
    own_bucket clock (checks.map Check.shared) = own_bucket clock checks := by
  unfold own_bucket
  rw [List.foldl_map]
  rfl

theorem own_answer_shared (clock : BucketClock) (checks : List (Check BucketKey))
    (check : Check BucketKey) :
    own_answer clock (checks.map Check.shared) check.shared = own_answer clock checks check := by
  unfold own_answer
  rw [own_bucket_shared]
  rfl

/-- The document as it stands answers a check as the bucket of the pair does. -/
theorem Shares.answer {policies : String → RouteRateLimit}
    {memory : Memory store.payload_capacity} {checks : List (Check BucketKey × Bool)}
    {document : SharedRateLimitDocument} (h : Shares memory checks document)
    (check : Check BucketKey)
    (hordered : Ordered policies (checks.map Prod.fst ++ [check])) :
    (document.check check.shared).2 =
      own_answer shared_clock (checks_for check.key checks) check := by
  obtain ⟨htimes, hpolicy⟩ := hordered
  have hanswer := congrArg Prod.snd (store_check document check.shared)
  dsimp only at hanswer
  rw [hanswer, h.store_eq, check_at_own _ check.shared 0 (by simpa [Function.comp_def] using htimes)]
  · rw [show check.shared.key = bucket_key check.key.route check.key.client_ip from rfl,
      checks_for_shared, own_answer_shared]
  · intro other hother hkey
    obtain ⟨same, hsame, rfl⟩ := List.mem_map.mp hother
    have hmem := List.mem_append_left [check] (List.mem_map_of_mem (f := Prod.fst) hsame)
    have hroute := (bucket_key_injective hkey).1
    change same.1.policy = check.policy
    rw [hpolicy same.1 hmem,
      hpolicy check (List.mem_append_right _ (List.mem_singleton_self _)), hroute]

theorem shared_answer_own {policies : String → RouteRateLimit}
    {memory : Memory store.payload_capacity} (hfirst : store.Reads memory .default)
    (checks : List (Check BucketKey)) (check : Check BucketKey)
    (hordered : Ordered policies (checks ++ [check])) :
    let before := after_check store memory checks
    (store.Room before check.shared →
      (store.check_at before check.shared).2 = .ok (own_answer shared_clock
        (checks_for check.key (outcomes store memory checks)) check)) ∧
    (¬ store.Room before check.shared →
      RateLimiters.check (store.check_at before check.shared).2 = false ∧
        ∀ document, store.Reads before document →
          store.Reads (store.check_at before check.shared).1 document) := by
  have hempty : Shares memory [] SharedRateLimitDocument.default := by
    refine ⟨hfirst, rfl, ?_⟩
    simp [SharedRateLimitDocument.default, SharedRateLimitDocument.store, checked,
      BucketStore.empty]
  obtain ⟨document, hshares⟩ := hempty.run checks
  rw [List.nil_append] at hshares
  have hanswer := hshares.answer check (by rwa [outcomes_checks])
  refine ⟨?_, ?_⟩
  · rintro ⟨same, hreads, hfits⟩
    obtain rfl := hreads.unique hshares.reads
    obtain ⟨segment, hanswers, -⟩ := check_at_of_fits hreads hfits
    rw [hanswers, hanswer]
  · intro hroom
    have hlong : ¬ store.Fits (document.check check.shared).1 :=
      fun hfits => hroom ⟨document, hshares.reads, hfits⟩
    obtain ⟨segment, error, hrefused, hkept⟩ := check_at_of_not_fits hshares.reads hlong
    rw [hrefused]
    refine ⟨rfl, ?_⟩
    intro same hreads
    rw [hreads.unique hshares.reads]
    exact hkept

end Shared

/-! ## Clients apart -/

/-- Each client has a bucket of its own. The local limiter answers a check as the bucket does
that had only the earlier checks of this route and client. So does the shared one, of the checks
that its segment had room for; the others are denied, and the document stays as it is. -/
theorem clients_are_apart (policies : String → RouteRateLimit) :
    (∀ (shard_index : BucketKey → Nat) (cleanup_interval next_cleanup : Nat)
        (checks : List (Check BucketKey)) (check : Check BucketKey),
      Ordered policies (checks ++ [check]) →
        (LocalRateLimiters.sharded_check_at shard_index cleanup_interval
            (LocalRateLimiters.after shard_index cleanup_interval (fun _ => .empty next_cleanup)
              checks) check).2 =
          own_answer (local_clock cleanup_interval)
            (checks.filter fun other => other.key = check.key) check) ∧
    ∀ (store : SharedRateLimitStore) (memory : Memory store.payload_capacity)
        (checks : List (Check BucketKey)) (check : Check BucketKey),
      store.Reads memory .default → Ordered policies (checks ++ [check]) →
        let before := after_check store memory checks
        (store.Room before check.shared →
          (store.check_at before check.shared).2 = .ok (own_answer shared_clock
            (checks_for check.key (outcomes store memory checks)) check)) ∧
        (¬ store.Room before check.shared →
          RateLimiters.check (store.check_at before check.shared).2 = false ∧
            ∀ document, store.Reads before document →
              store.Reads (store.check_at before check.shared).1 document) :=
  ⟨fun _ _ next_cleanup checks check hordered => local_answer_own next_cleanup checks check hordered,
    fun _ _ checks check hfirst hordered => shared_answer_own hfirst checks check hordered⟩

/-! ## A full document -/

def ascii (text : String) : List UInt8 := text.toList.map fun c => UInt8.ofNat c.toNat

theorem length_ascii (text : String) : (ascii text).length = text.toList.length :=
  List.length_map ..

/-- A check makes a bucket for its key only. -/
theorem isSome_check (document : SharedRateLimitDocument) (check : Check String) :
    (document.check check).1.buckets[check.key]?.isSome := by
  simp [SharedRateLimitDocument.check]

theorem none_check {check : Check String} {key : String} (h : check.key ≠ key) :
    (SharedRateLimitDocument.default.check check).1.buckets[key]? = none := by
  simp [SharedRateLimitDocument.check, SharedRateLimitDocument.default, maybe_cleanup_document,
    Std.ExtTreeMap.getElem?_insert, h]

section TwoClients

variable (route : String)

def first_check : Check BucketKey := ⟨⟨route, .V4 0x7f000001⟩, one_per_ms, 1⟩

def second_check : Check BucketKey := ⟨⟨route, .V4 0x7f000002⟩, one_per_ms, 1⟩

def first_document : SharedRateLimitDocument :=
  (SharedRateLimitDocument.default.check (first_check route).shared).1

def second_document : SharedRateLimitDocument :=
  ((first_document route).check (second_check route).shared).1

/-- The text of a bucket that a check at the first millisecond has emptied, of a route in ASCII. -/
def bucket_text (client_ip : String) : List UInt8 :=
  ascii "\"" ++ ascii route ++ ascii ("\\u0000" ++ client_ip ++
    "\":\x7b\"requests_per_sec\":1000,\"burst\":0,\"tokens\":0.0," ++
    "\"last_refill_unix_ms\":1,\"last_seen_unix_ms\":1\x7d")

def buckets_text (buckets : List UInt8) : List UInt8 :=
  ascii "\x7b\"version\":1,\"next_cleanup_unix_ms\":30001,\"buckets\":\x7b" ++ buckets ++
    ascii "\x7d\x7d"

def first_text : List UInt8 := buckets_text (bucket_text route "127.0.0.1")

def second_text : List UInt8 :=
  buckets_text (bucket_text route "127.0.0.1" ++ ascii "," ++ bucket_text route "127.0.0.2")

theorem length_bucket_text (client_ip : String) :
    (bucket_text route client_ip).length =
      route.toList.length + client_ip.toList.length + 103 := by
  simp only [bucket_text, List.length_append, length_ascii, String.toList_append]
  simp
  omega

theorem length_buckets_text (buckets : List UInt8) :
    (buckets_text buckets).length = buckets.length + 55 := by
  simp only [buckets_text, List.length_append, length_ascii]
  simp
  omega

theorem length_first_text : (first_text route).length = route.toList.length + 167 := by
  unfold first_text
  rw [length_buckets_text, length_bucket_text]
  simp

theorem length_second_text : (second_text route).length = 2 * route.toList.length + 280 := by
  simp only [second_text, length_buckets_text, List.length_append, length_bucket_text, length_ascii]
  simp
  omega

theorem length_default_text : default_text.length = 51 := by decide

theorem first_document_ne : first_document route ≠ .default := by
  intro h
  have hsome : (first_document route).buckets[(first_check route).shared.key]?.isSome := by
    unfold first_document
    exact isSome_check _ _
  rw [h] at hsome
  simp [SharedRateLimitDocument.default] at hsome

theorem second_document_ne :
    second_document route ≠ .default ∧ second_document route ≠ first_document route := by
  have hsome : (second_document route).buckets[(second_check route).shared.key]?.isSome := by
    unfold second_document
    exact isSome_check _ _
  refine ⟨?_, ?_⟩
  · intro h
    rw [h] at hsome
    simp [SharedRateLimitDocument.default] at hsome
  · intro h
    have hkeys : (first_check route).shared.key ≠ (second_check route).shared.key := by
      intro hkey
      cases (bucket_key_injective hkey).2
    rw [h] at hsome
    unfold first_document at hsome
    rw [none_check hkeys] at hsome
    cases hsome

open Classical in
/-- `serde_json` for the documents of the two checks. -/
noncomputable def clientsJson : Json (List UInt8) SharedRateLimitDocument where
  to_vec document :=
    if document = .default then .ok default_text
    else if document = first_document route then .ok (first_text route)
    else if document = second_document route then .ok (second_text route)
    else .error ⟨.InvalidData, "another document"⟩
  from_slice bytes :=
    if bytes = default_text then .ok .default
    else if bytes = first_text route then .ok (first_document route)
    else if bytes = second_text route then .ok (second_document route)
    else .error ⟨.InvalidData, "expected value at line 1 column 1"⟩
  round_trip := by
    have hdefault := length_default_text
    have hfirst := length_first_text route
    have hsecond := length_second_text route
    have hne : first_text route ≠ default_text ∧ second_text route ≠ default_text ∧
        second_text route ≠ first_text route := by
      refine ⟨?_, ?_, ?_⟩
      · intro h
        rw [h] at hfirst
        omega
      · intro h
        rw [h] at hsecond
        omega
      · intro h
        rw [h] at hsecond
        omega
    intro document bytes h
    split at h
    · rename_i hdocument
      obtain rfl := Except.ok.inj h
      rw [if_pos rfl, hdocument]
    · split at h
      · rename_i hdocument
        obtain rfl := Except.ok.inj h
        rw [if_neg hne.1, if_pos rfl, hdocument]
      · split at h
        · rename_i hdocument
          obtain rfl := Except.ok.inj h
          rw [if_neg hne.2.1, if_neg hne.2.2, if_pos rfl, hdocument]
        · cases h

theorem clientsJson_default : (clientsJson route).to_vec .default = .ok default_text := by
  unfold clientsJson
  exact if_pos rfl

theorem clientsJson_first :
    (clientsJson route).to_vec (first_document route) = .ok (first_text route) := by
  unfold clientsJson
  dsimp only
  rw [if_neg (first_document_ne route), if_pos rfl]

theorem clientsJson_second :
    (clientsJson route).to_vec (second_document route) = .ok (second_text route) := by
  unfold clientsJson
  dsimp only
  rw [if_neg (second_document_ne route).1, if_neg (second_document_ne route).2, if_pos rfl]

theorem clientsJson_text (document : SharedRateLimitDocument) :
    (clientsJson route).to_vec document ≠ .ok [] := by
  have hdefault := length_default_text
  have hfirst := length_first_text route
  have hsecond := length_second_text route
  intro h
  unfold clientsJson at h
  dsimp only at h
  split at h
  · rw [Except.ok.inj h] at hdefault
    cases hdefault
  · split at h
    · rw [Except.ok.inj h] at hfirst
      cases hfirst
    · split at h
      · rw [Except.ok.inj h] at hsecond
        cases hsecond
      · cases h

theorem default_text_fits :
    default_text.length ≤ smallStore.payload_capacity - DOCUMENT_LEN_BYTES := by
  decide

/-- The smallest segment that the environment can set. -/
noncomputable def clientsStore : SharedRateLimitStore where
  json := clientsJson route
  text := clientsJson_text route
  payload_capacity := smallStore.payload_capacity
  large := smallStore.large
  small := smallStore.small
  first := ⟨default_text, clientsJson_default route, default_text_fits⟩

variable {route}

theorem first_fits (h : route.toList.length ≤ 2001) :
    (clientsStore route).Fits (first_document route) := by
  refine ⟨first_text route, clientsJson_first route, ?_⟩
  rw [length_first_text]
  exact Nat.le_trans (Nat.add_le_add_right h 167) (by decide : 2001 + 167 ≤ 4096 - 104 - 8)

theorem second_fits (h : route.toList.length ≤ 1800) :
    (clientsStore route).Fits (second_document route) := by
  refine ⟨second_text route, clientsJson_second route, ?_⟩
  rw [length_second_text]
  exact Nat.le_trans (Nat.add_le_add_right (Nat.mul_le_mul_left 2 h) 280)
    (by decide : 2 * 1800 + 280 ≤ 4096 - 104 - 8)

theorem reads_first_document (h : route.toList.length ≤ 2001) :
    (clientsStore route).Reads (after_check (clientsStore route) .missing [first_check route])
      (first_document route) := by
  have hstart : (clientsStore route).Reads .missing .default := rfl
  have hfits : (clientsStore route).Fits
      (SharedRateLimitDocument.default.check (first_check route).shared).1 := first_fits h
  obtain ⟨segment, hfirst, hreads⟩ := check_at_of_fits hstart hfits
  unfold after_check
  rw [List.foldl_cons, List.foldl_nil, hfirst]
  exact hreads rfl

theorem second_does_not_fit (h : route.toList.length = 2001) :
    ¬ (clientsStore route).Fits (second_document route) := by
  rintro ⟨bytes, htext, hfits⟩
  obtain rfl := Except.ok.inj ((clientsJson_second route).symm.trans htext)
  rw [length_second_text, h] at hfits
  exact absurd hfits (by decide : ¬ 2 * 2001 + 280 ≤ 4096 - 104 - 8)

theorem clients_ordered :
    Ordered (fun _ => one_per_ms) ([first_check route] ++ [second_check route]) := by
  refine ⟨?_, ?_⟩
  · simp [first_check, second_check]
  · simp [first_check, second_check]

theorem keys_apart : (first_check route).key ≠ (second_check route).key := by
  intro hkey
  cases congrArg BucketKey.client_ip hkey

/-- The second client is denied without a bucket of its own. -/
theorem second_client_is_denied (h : route.toList.length = 2001) :
    RateLimiters.check ((clientsStore route).check_at
        (after_check (clientsStore route) .missing [first_check route])
        (second_check route).shared).2 = false ∧
      own_answer shared_clock ([first_check route].filter fun other =>
        other.key = (second_check route).key) (second_check route) = true := by
  have hstart : (clientsStore route).Reads .missing .default := rfl
  refine ⟨?_, ?_⟩
  · refine ((shared_answer_own hstart [first_check route] _ clients_ordered).2 ?_).1
    rintro ⟨document, hdocument, hfits⟩
    obtain rfl := hdocument.unique (reads_first_document (Nat.le_of_eq h))
    exact second_does_not_fit h hfits
  · have hnone : [first_check route].filter
        (fun other => decide (other.key = (second_check route).key)) = [] := by
      simp [keys_apart]
    have hadmitted :
        (own_check shared_clock none (⟨(), one_per_ms, 1⟩ : Check Unit)).2 = true := by
      decide +kernel
    rw [hnone]
    exact hadmitted

end TwoClients

/-- A route with a name of two thousand letters. -/
def long_route : String := String.ofList ('/' :: List.replicate 2000 'a')

theorem length_long_route : long_route.toList.length = 2001 := by
  unfold long_route
  rw [String.toList_ofList, List.length_cons, List.length_replicate]

/-- One client after the other: the check of the first one is not seen by the second one. -/
theorem a_client_is_alone :
    (LocalRateLimiters.sharded_check_at (fun _ => 0) SHARD_CLEANUP_INTERVAL
        (LocalRateLimiters.after (fun _ => 0) SHARD_CLEANUP_INTERVAL
          (fun _ => .empty SHARD_CLEANUP_INTERVAL) [first_check "/"]) (second_check "/")).2 =
      own_answer (local_clock SHARD_CLEANUP_INTERVAL)
        ([first_check "/"].filter fun other => other.key = (second_check "/").key)
        (second_check "/") ∧
    RateLimiters.check ((clientsStore "/").check_at
      (after_check (clientsStore "/") .missing [first_check "/"]) (second_check "/").shared).2 =
        own_answer shared_clock [] (second_check "/") := by
  obtain ⟨hlocal, hshared⟩ := clients_are_apart fun _ => one_per_ms
  refine ⟨?_, ?_⟩
  · exact hlocal (fun _ => 0) SHARD_CLEANUP_INTERVAL SHARD_CLEANUP_INTERVAL _ _ clients_ordered
  · have hroom := (hshared (clientsStore "/") .missing [first_check "/"] _ rfl clients_ordered).1
      ⟨first_document "/", reads_first_document (by decide), second_fits (by decide)⟩
    have hnone : checks_for (second_check "/").key
        (outcomes (clientsStore "/") .missing [first_check "/"]) = [] := by
      simp [checks_for, outcomes, keys_apart]
    rw [hroom, hnone]
    rfl

/-- The bucket of a first client leaves no room for that of a second one, which has not sent a
request yet. -/
theorem a_full_document_denies_a_new_client :
    ¬ ∀ (policies : String → RouteRateLimit) (checks : List (Check BucketKey))
        (check : Check BucketKey), Ordered policies (checks ++ [check]) →
      RateLimiters.check ((clientsStore long_route).check_at
          (after_check (clientsStore long_route) .missing checks) check.shared).2 =
        own_answer shared_clock (checks.filter fun other => other.key = check.key) check := by
  intro h
  obtain ⟨hdenied, hown⟩ := second_client_is_denied length_long_route
  have hanswer := h _ [first_check long_route] (second_check long_route) clients_ordered
  rw [hdenied, hown] at hanswer
  cases hanswer

end rginx.rate_limit
