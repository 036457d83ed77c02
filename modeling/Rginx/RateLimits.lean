-- The rate limits of the routes, from `rate_limit/local.rs` and
-- `rate_limit/shared`: the token buckets of the clients, in the shards of one
-- process and in the document that processes share. The tokens are exact
-- numbers here. The clock is read before the lock is taken, so a check may
-- come with an older time than the one before it.
import Rginx.TokenBuckets
import Rginx.NetAddress
import Rginx.CacheState

open rust_net rust_text rginx.cache

namespace rginx.rate_limit

/-! ## Buckets -/

structure RouteRateLimit where
  requests_per_sec : Nat
  burst : Nat
  deriving DecidableEq

/-- The sum is one of `u32`. -/
def bucket_capacity (policy : RouteRateLimit) : ℚ := ((policy.burst + 1) % 2 ^ 32 : Nat)

/-- `TokenBucket` and `SharedTokenBucket`, which has the fields of the policy as its own. -/
structure TokenBucket where
  policy : RouteRateLimit
  tokens : ℚ
  last_refill : Nat
  deriving DecidableEq

/-- The unit of the clock, and when the next cleanup is due after one. -/
structure BucketClock where
  ticks_per_sec : Nat
  next_cleanup : Nat → Nat

def TokenBucket.new (policy : RouteRateLimit) (now : Nat) : TokenBucket :=
  ⟨policy, bucket_capacity policy, now⟩

section Buckets

variable (clock : BucketClock)

/-- Both `duration_since` and `saturating_sub` give nothing for a time that goes back; the
bucket then takes the older time all the same. -/
def TokenBucket.refill (bucket : TokenBucket) (now : Nat) : TokenBucket :=
  let elapsed : ℚ := ((now - bucket.last_refill : Nat) : ℚ) / clock.ticks_per_sec
  { bucket with
    tokens := min (bucket.tokens + elapsed * bucket.policy.requests_per_sec)
      (bucket_capacity bucket.policy)
    last_refill := now }

def TokenBucket.reconfigure (bucket : TokenBucket) (policy : RouteRateLimit) (now : Nat) :
    TokenBucket :=
  if bucket.policy = policy then bucket
  else
    let bucket := bucket.refill clock now
    { bucket with tokens := min bucket.tokens (bucket_capacity policy), policy }

def TokenBucket.try_acquire (bucket : TokenBucket) (policy : RouteRateLimit) (now : Nat) :
    TokenBucket × Bool :=
  let bucket := (bucket.reconfigure clock policy now).refill clock now
  if bucket.tokens < 1 then (bucket, false)
  else ({ bucket with tokens := bucket.tokens - 1 }, true)

/-- The bucket after `is_evictable`, or nothing when it goes. -/
def TokenBucket.retained (now : Nat) (bucket : TokenBucket) : Option TokenBucket :=
  let bucket := bucket.refill clock now
  if bucket_capacity bucket.policy ≤ bucket.tokens then none else some bucket

/-! ## Stores -/

/-- `ShardState`, and the part of `SharedRateLimitDocument` beside its version. -/
structure BucketStore (κ : Type) where
  buckets : κ → Option TokenBucket
  next_cleanup : Nat

structure Check (κ : Type) where
  key : κ
  policy : RouteRateLimit
  now : Nat

variable {κ : Type} [DecidableEq κ]

/-- `maybe_cleanup_buckets` and `maybe_cleanup_document`. -/
def maybe_cleanup (store : BucketStore κ) (now : Nat) : BucketStore κ :=
  if now < store.next_cleanup then store
  else
    { buckets := fun key => (store.buckets key).bind (TokenBucket.retained clock now)
      next_cleanup := clock.next_cleanup now }

def check_at (store : BucketStore κ) (check : Check κ) : BucketStore κ × Bool :=
  let store := maybe_cleanup clock store check.now
  let bucket := (store.buckets check.key).getD (TokenBucket.new check.policy check.now)
  let (bucket, allowed) := bucket.try_acquire clock check.policy check.now
  ({ store with buckets := Function.update store.buckets check.key (some bucket) }, allowed)

/-- A check of which the document cannot be read or written denies the request and leaves the
document; a check of the local buckets is always carried out. -/
def carried_out (store : BucketStore κ) (check : Check κ × Bool) : BucketStore κ × Bool :=
  if check.2 then check_at clock store check.1 else (store, false)

/-- The times of the admitted requests of a key. -/
def admitted_requests (key : κ) (store : BucketStore κ) : List (Check κ × Bool) → List Nat
  | [] => []
  | check :: checks =>
    let (store, allowed) := carried_out clock store check
    if allowed ∧ check.1.key = key then check.1.now :: admitted_requests key store checks
    else admitted_requests key store checks

/-- The times at which the bucket of a key is refilled, in the order of the locks. -/
def refills (key : κ) (store : BucketStore κ) : List (Check κ × Bool) → List Nat
  | [] => []
  | check :: checks =>
    let rest := refills key (carried_out clock store check).1 checks
    if check.2 ∧ (check.1.key = key ∨
        (store.next_cleanup ≤ check.1.now ∧ (store.buckets key).isSome)) then
      check.1.now :: rest
    else rest

/-- The store after the checks, in the order of the locks. -/
def checked (store : BucketStore κ) (checks : List (Check κ × Bool)) : BucketStore κ :=
  checks.foldl (fun store check => (carried_out clock store check).1) store

end Buckets

/-- A store without buckets. -/
def BucketStore.empty {κ : Type} (next_cleanup : Nat) : BucketStore κ :=
  ⟨fun _ => none, next_cleanup⟩

/-! ## The two limiters -/

structure BucketKey where
  route : String
  client_ip : IpAddr
  deriving DecidableEq

def SHARD_CLEANUP_INTERVAL : Nat := 30 * 10 ^ 9

/-- The local buckets: instants in nanoseconds. -/
def local_clock (cleanup_interval : Nat) : BucketClock := ⟨10 ^ 9, (· + cleanup_interval)⟩

/-- `LocalRateLimiters::check_at`, on the shard of the key. -/
def LocalRateLimiters.check_at (cleanup_interval : Nat) (shard : BucketStore BucketKey)
    (check : Check BucketKey) : BucketStore BucketKey × Bool :=
  rate_limit.check_at (local_clock cleanup_interval) shard check

def CLEANUP_INTERVAL_MS : Nat := 30000

/-- The shared buckets: the time of the system in milliseconds. -/
def shared_clock : BucketClock := ⟨1000, fun now => saturating_add now CLEANUP_INTERVAL_MS⟩

def bucket_key (route : String) (client_ip : IpAddr) : String :=
  route ++ "\x00" ++ String.ofList client_ip.to_string

/-! ## The bucket of one key -/

section Key

variable (clock : BucketClock)

/-- A time in seconds. -/
def BucketClock.seconds (now : Nat) : ℚ := now / clock.ticks_per_sec

/-- The rate of a policy, in tokens for a second. -/
def RouteRateLimit.rate (policy : RouteRateLimit) : ℚ := policy.requests_per_sec

/-- The bucket of the exact arithmetic. -/
def TokenBucket.exact (bucket : TokenBucket) : token_buckets.Bucket ℚ :=
  ⟨bucket.tokens, clock.seconds bucket.last_refill⟩

variable {clock}

theorem seconds_sub (now last : Nat) :
    ((now - last : Nat) : ℚ) / clock.ticks_per_sec =
      max (clock.seconds now - clock.seconds last) 0 := by
  have hticks : (0 : ℚ) ≤ clock.ticks_per_sec := Nat.cast_nonneg _
  unfold BucketClock.seconds
  rcases le_total last now with h | h
  · have hsub : (0 : ℚ) ≤ now / clock.ticks_per_sec - last / clock.ticks_per_sec := by
      rw [← sub_div]
      exact div_nonneg (sub_nonneg.mpr (Nat.cast_le.mpr h)) hticks
    rw [max_eq_left hsub, Nat.cast_sub h, sub_div]
  · have hsub : (now : ℚ) / clock.ticks_per_sec - last / clock.ticks_per_sec ≤ 0 := by
      rw [← sub_div]
      exact div_nonpos_of_nonpos_of_nonneg (sub_nonpos.mpr (Nat.cast_le.mpr h)) hticks
    rw [max_eq_right hsub, Nat.sub_eq_zero_of_le h, Nat.cast_zero, zero_div]

variable (clock) in
theorem seconds_le {now last : Nat} (h : last ≤ now) : clock.seconds last ≤ clock.seconds now :=
  div_le_div_of_nonneg_right (Nat.cast_le.mpr h) (Nat.cast_nonneg _)

variable (clock) in
theorem exact_refill (bucket : TokenBucket) (now : Nat) :
    (bucket.refill clock now).exact clock =
      (bucket.exact clock).refill bucket.policy.rate (bucket_capacity bucket.policy)
        (clock.seconds now) := by
  simp [TokenBucket.exact, TokenBucket.refill, token_buckets.Bucket.refill, seconds_sub,
    RouteRateLimit.rate]

variable (clock) in
theorem exact_try_acquire {bucket : TokenBucket} {policy : RouteRateLimit}
    (hpolicy : bucket.policy = policy) (now : Nat) :
    token_buckets.step policy.rate (bucket_capacity policy)
        (some (bucket.exact clock)) (.check (clock.seconds now)) =
      (some ((bucket.try_acquire clock policy now).1.exact clock),
        (bucket.try_acquire clock policy now).2) := by
  subst hpolicy
  have hsame : bucket.reconfigure clock bucket.policy now = bucket := if_pos rfl
  have hrefill := exact_refill clock bucket now
  unfold token_buckets.step TokenBucket.try_acquire
  rw [hsame]
  dsimp only [Option.getD_some]
  rw [← hrefill]
  by_cases hlow : (bucket.refill clock now).tokens < 1
  · simp [TokenBucket.exact, hlow]
  · simp [TokenBucket.exact, hlow]

variable (clock) in
theorem exact_retained {bucket : TokenBucket} {policy : RouteRateLimit}
    (hpolicy : bucket.policy = policy) (now : Nat) :
    token_buckets.step policy.rate (bucket_capacity policy)
        (some (bucket.exact clock)) (.sweep (clock.seconds now)) =
      ((bucket.retained clock now).map (TokenBucket.exact clock), false) := by
  subst hpolicy
  have hrefill := exact_refill clock bucket now
  have hsame : (bucket.refill clock now).policy = bucket.policy := rfl
  unfold token_buckets.step TokenBucket.retained
  dsimp only
  rw [Option.map_some, ← hrefill]
  by_cases hfull : bucket_capacity bucket.policy ≤ (bucket.refill clock now).tokens
  · simp [TokenBucket.exact, hsame, hfull]
  · simp [TokenBucket.exact, hsame, hfull, not_le.mp hfull]

variable {κ : Type}

variable (clock) in
def BucketStore.exact (store : BucketStore κ) (key : κ) : Option (token_buckets.Bucket ℚ) :=
  (store.buckets key).map (TokenBucket.exact clock)

/-- The bucket of the key, if there is one, has the policy. -/
def BucketStore.HasPolicy (store : BucketStore κ) (key : κ) (policy : RouteRateLimit) : Prop :=
  ∀ bucket ∈ store.buckets key, bucket.policy = policy

variable (clock) in
theorem cleanup_exact {store : BucketStore κ} {key : κ} {policy : RouteRateLimit}
    (h : store.HasPolicy key policy) (now : Nat) :
    (maybe_cleanup clock store now).HasPolicy key policy ∧
      (maybe_cleanup clock store now).exact clock key =
        token_buckets.after policy.rate (bucket_capacity policy) (store.exact clock key)
          (if store.next_cleanup ≤ now ∧ (store.buckets key).isSome then
            [.sweep (clock.seconds now)] else []) := by
  unfold maybe_cleanup
  by_cases hdue : now < store.next_cleanup
  · rw [if_pos hdue, if_neg (by simp [hdue])]
    exact ⟨h, rfl⟩
  · rw [if_neg hdue]
    rcases hbucket : store.buckets key with _ | bucket
    · simp [BucketStore.HasPolicy, BucketStore.exact, hbucket, token_buckets.after]
    · have hpolicy := h bucket hbucket
      have hretained := exact_retained clock hpolicy now
      rw [if_pos ⟨not_lt.mp hdue, rfl⟩]
      refine ⟨?_, ?_⟩
      · intro kept hkept
        simp only [hbucket, Option.bind_some, TokenBucket.retained] at hkept
        split at hkept
        · cases hkept
        · obtain rfl := Option.some.inj hkept
          exact hpolicy
      · simp [BucketStore.exact, hbucket, token_buckets.after, hretained]

variable (clock) in
/-- A check of the key is a request of its bucket; a key that has no bucket gets a full one. -/
theorem exact_check {store : BucketStore κ} {key : κ} {policy : RouteRateLimit}
    (h : store.HasPolicy key policy) (now : Nat) :
    let acquired := ((store.buckets key).getD (TokenBucket.new policy now)).try_acquire clock
      policy now
    acquired.1.policy = policy ∧
      token_buckets.step policy.rate (bucket_capacity policy) (store.exact clock key)
        (.check (clock.seconds now)) = (some (acquired.1.exact clock), acquired.2) := by
  have hpolicy : ((store.buckets key).getD (TokenBucket.new policy now)).policy = policy := by
    rcases hbucket : store.buckets key with _ | bucket
    · rfl
    · exact h bucket hbucket
  refine ⟨?_, ?_⟩
  · unfold TokenBucket.try_acquire
    rw [TokenBucket.reconfigure, if_pos hpolicy]
    dsimp only
    split <;> exact hpolicy
  · rw [← exact_try_acquire clock hpolicy now]
    unfold BucketStore.exact
    rcases store.buckets key with _ | bucket
    · rfl
    · rfl

variable [DecidableEq κ]

/-- Every check of the key has the policy. -/
def FixedPolicy (key : κ) (policy : RouteRateLimit) (checks : List (Check κ × Bool)) : Prop :=
  ∀ check ∈ checks, check.1.key = key → check.1.policy = policy

variable (clock) in
/-- What a check does to the bucket of a key: a sweep of the store may come first. -/
def check_events (key : κ) (store : BucketStore κ) (check : Check κ × Bool) :
    List (token_buckets.Event ℚ) :=
  if check.2 then
    (if store.next_cleanup ≤ check.1.now ∧ (store.buckets key).isSome then
      [.sweep (clock.seconds check.1.now)] else []) ++
    (if check.1.key = key then [.check (clock.seconds check.1.now)] else [])
  else []

variable (clock) in
def bucket_events (key : κ) (store : BucketStore κ) :
    List (Check κ × Bool) → List (token_buckets.Event ℚ)
  | [] => []
  | check :: checks =>
    check_events clock key store check ++
      bucket_events key (carried_out clock store check).1 checks

variable (clock) in
/-- A check does to the bucket of a key what its events do. -/
theorem carried_out_exact {store : BucketStore κ} {key : κ} {policy : RouteRateLimit}
    (h : store.HasPolicy key policy) (check : Check κ × Bool)
    (hcheck : check.1.key = key → check.1.policy = policy) :
    (carried_out clock store check).1.HasPolicy key policy ∧
      (carried_out clock store check).1.exact clock key =
        token_buckets.after policy.rate (bucket_capacity policy) (store.exact clock key)
          (check_events clock key store check) ∧
      token_buckets.admitted policy.rate (bucket_capacity policy) (store.exact clock key)
          (check_events clock key store check) =
        if (carried_out clock store check).2 ∧ check.1.key = key then
          [clock.seconds check.1.now] else [] := by
  obtain ⟨⟨checked, asked, now⟩, outcome⟩ := check
  cases outcome with
  | false => exact ⟨h, rfl, rfl⟩
  | true =>
    obtain ⟨hkept, hswept⟩ := cleanup_exact clock h now
    have hnone : token_buckets.admitted policy.rate (bucket_capacity policy)
        (store.exact clock key) (if store.next_cleanup ≤ now ∧ (store.buckets key).isSome then
          [.sweep (clock.seconds now)] else []) = [] := by
      split
      · simp [token_buckets.admitted, token_buckets.step]
      · rfl
    simp only [carried_out, check_events, if_true, token_buckets.admitted_append, hnone,
      List.nil_append, token_buckets.after_append, ← hswept]
    by_cases hkey : checked = key
    · subst hkey
      obtain rfl : asked = policy := hcheck rfl
      obtain ⟨hsame, hstep⟩ := exact_check clock hkept now
      refine ⟨?_, ?_, ?_⟩
      · intro bucket hbucket
        simp only [check_at, Function.update_self] at hbucket
        obtain rfl := Option.some.inj hbucket
        exact hsame
      · have hnew : (check_at clock store ⟨checked, asked, now⟩).1.exact clock checked =
            some ((((maybe_cleanup clock store now).buckets checked).getD
              (TokenBucket.new asked now)).try_acquire clock asked now |>.1.exact clock) := by
          simp [BucketStore.exact, check_at]
        rw [hnew]
        simp [token_buckets.after, hstep]
      · simp [check_at, token_buckets.admitted, hstep, token_buckets.Event.now]
    · have hother : (check_at clock store ⟨checked, asked, now⟩).1.buckets key =
          (maybe_cleanup clock store now).buckets key := by
        unfold check_at
        exact Function.update_of_ne (Ne.symm hkey) _ _
      refine ⟨?_, ?_, ?_⟩
      · intro bucket hbucket
        rw [hother] at hbucket
        exact hkept bucket hbucket
      · simp [BucketStore.exact, hother, hkey, token_buckets.after]
      · simp [hkey, token_buckets.admitted]

/-- The requests that the store admits for a key are those that its bucket admits. -/
theorem admitted_requests_exact {key : κ} {policy : RouteRateLimit}
    (checks : List (Check κ × Bool)) {store : BucketStore κ} (h : store.HasPolicy key policy)
    (hfixed : FixedPolicy key policy checks) :
    (admitted_requests clock key store checks).map clock.seconds =
      token_buckets.admitted policy.rate (bucket_capacity policy) (store.exact clock key)
        (bucket_events clock key store checks) := by
  induction checks generalizing store with
  | nil => rfl
  | cons check checks ih =>
    obtain ⟨hkept, hafter, hadmitted⟩ :=
      carried_out_exact clock h check (hfixed check List.mem_cons_self)
    have hrest := ih hkept fun other hother => hfixed other (List.mem_cons_of_mem _ hother)
    unfold bucket_events admitted_requests
    rw [token_buckets.admitted_append, ← hafter, hadmitted, ← hrest]
    dsimp only
    split
    · rfl
    · rfl

/-- Refills whose times never go back are events whose times never go back. -/
theorem bucket_events_ordered {key : κ} (checks : List (Check κ × Bool)) {store : BucketStore κ}
    {latest : Nat} (h : (latest :: refills clock key store checks).IsChain (· ≤ ·)) :
    (clock.seconds latest ::
      (bucket_events clock key store checks).map token_buckets.Event.now).IsChain (· ≤ ·) := by
  induction checks generalizing store latest with
  | nil => simp [bucket_events]
  | cons check checks ih =>
    unfold refills at h
    unfold bucket_events check_events
    dsimp only at h
    split at h
    · rename_i htouched
      obtain ⟨hle, hrest⟩ := List.isChain_cons_cons.mp h
      have hlater := seconds_le clock hle
      have hrest := ih hrest
      obtain ⟨hdone, hkey | hswept⟩ := htouched
      · rw [if_pos hdone, if_pos hkey]
        split
        · simpa [token_buckets.Event.now, hlater] using hrest
        · simpa [token_buckets.Event.now, hlater] using hrest
      · rw [if_pos hdone, if_pos hswept]
        split
        · simpa [token_buckets.Event.now, hlater] using hrest
        · simpa [token_buckets.Event.now, hlater] using hrest
    · rename_i hidle
      have hrest := ih h
      have hnone : ¬ check.2 = true ∨ ¬ check.1.key = key ∧
          ¬ (store.next_cleanup ≤ check.1.now ∧ (store.buckets key).isSome) := by
        tauto
      obtain hdone | ⟨hkey, hswept⟩ := hnone
      · rw [if_neg hdone]
        exact hrest
      · rw [if_neg hkey, if_neg hswept]
        simpa using hrest

variable (clock) in
/-- After the checks, the bucket of a key is the one that its events leave. -/
theorem checked_exact {key : κ} {policy : RouteRateLimit} (checks : List (Check κ × Bool))
    {store : BucketStore κ} (h : store.HasPolicy key policy)
    (hfixed : FixedPolicy key policy checks) :
    (checked clock store checks).HasPolicy key policy ∧
      (checked clock store checks).exact clock key =
        token_buckets.after policy.rate (bucket_capacity policy) (store.exact clock key)
          (bucket_events clock key store checks) := by
  induction checks generalizing store with
  | nil => exact ⟨h, rfl⟩
  | cons check checks ih =>
    obtain ⟨hkept, hafter, -⟩ :=
      carried_out_exact clock h check (hfixed check List.mem_cons_self)
    obtain ⟨hpolicy, hrest⟩ :=
      ih hkept fun other hother => hfixed other (List.mem_cons_of_mem _ hother)
    refine ⟨hpolicy, ?_⟩
    rw [bucket_events, token_buckets.after_append, ← hafter, ← hrest]
    rfl

/-! ## The bound -/

variable (clock) in
/-- The times at which the bucket of the key is refilled never go back, from the last refill that
it has on. -/
def RefillsInOrder (key : κ) (store : BucketStore κ) (checks : List (Check κ × Bool)) : Prop :=
  (((store.buckets key).map TokenBucket.last_refill).toList ++
    refills clock key store checks).Pairwise (· ≤ ·)

theorem RefillsInOrder.chain {key : κ} {store : BucketStore κ} {checks : List (Check κ × Bool)}
    (h : RefillsInOrder clock key store checks) :
    (((store.buckets key).map TokenBucket.last_refill).getD 0 ::
      refills clock key store checks).IsChain (· ≤ ·) := by
  rw [List.isChain_iff_pairwise]
  unfold RefillsInOrder at h
  cases hbucket : store.buckets key with
  | none => simpa [hbucket] using h
  | some bucket => simpa [hbucket] using h

theorem capacity_le (policy : RouteRateLimit) : bucket_capacity policy ≤ policy.burst + 1 := by
  unfold bucket_capacity
  exact_mod_cast Nat.mod_le _ _

/-- The requests of a key that are admitted in an interval, after any earlier checks, are at most
the burst and one more, and what the rate gives in the interval. -/
theorem admitted_requests_le (key : κ) (policy : RouteRateLimit) (next_cleanup : Nat)
    (earlier checks : List (Check κ × Bool)) (hfixed : FixedPolicy key policy (earlier ++ checks))
    (hordered : RefillsInOrder clock key (checked clock (.empty next_cleanup) earlier) checks)
    (t₀ t₁ : ℚ) (hinterval : t₀ ≤ t₁) :
    token_buckets.inside t₀ t₁ ((admitted_requests clock key
        (checked clock (.empty next_cleanup) earlier) checks).map clock.seconds) ≤
      (policy.burst + 1) + policy.requests_per_sec * (t₁ - t₀) := by
  have hrate : 0 ≤ policy.rate := Nat.cast_nonneg _
  have hcapacity : 0 ≤ bucket_capacity policy := Nat.cast_nonneg _
  have hempty : (BucketStore.empty next_cleanup).HasPolicy key policy := by
    intro bucket hbucket
    cases hbucket
  obtain ⟨hpolicy, hbucket⟩ := checked_exact clock earlier hempty
    fun check hcheck => hfixed check (List.mem_append_left _ hcheck)
  have hbounds : token_buckets.InBounds (bucket_capacity policy)
      ((checked clock (.empty next_cleanup) earlier).exact clock key) := by
    rw [hbucket]
    have hfull : token_buckets.InBounds (bucket_capacity policy)
        ((BucketStore.empty next_cleanup).exact clock key) := ⟨hcapacity, le_rfl⟩
    exact token_buckets.after_inBounds hrate hcapacity hfull _
  have hok : token_buckets.Ok (bucket_capacity policy)
      (clock.seconds ((((checked clock (.empty next_cleanup) earlier).buckets key).map
        TokenBucket.last_refill).getD 0))
      ((checked clock (.empty next_cleanup) earlier).exact clock key) := by
    refine ⟨hbounds, ?_⟩
    intro bucket hbucket
    obtain ⟨held, hheld, rfl⟩ := Option.map_eq_some_iff.mp hbucket
    simp [hheld, TokenBucket.exact]
  have hle := token_buckets.admitted_le hrate hcapacity hinterval _ _ hok 0
    (token_buckets.Bounded.start hrate hcapacity hinterval hok)
    (List.isChain_iff_pairwise.mp (bucket_events_ordered checks hordered.chain))
  rw [Nat.zero_add, ← admitted_requests_exact checks hpolicy
    (fun check hcheck => hfixed check (List.mem_append_right _ hcheck))] at hle
  refine hle.trans ?_
  have hburst := capacity_le policy
  rw [RouteRateLimit.rate, mul_comm]
  linarith

end Key

/-- Both limiters keep to their rates while the refills of a bucket come in order. -/
theorem the_rate_bounds_the_admitted_requests (policy : RouteRateLimit) (next_cleanup : Nat)
    (t₀ t₁ : ℚ) (hinterval : t₀ ≤ t₁) :
    (∀ (cleanup_interval : Nat) (key : BucketKey) (earlier checks : List (Check BucketKey)),
      let clock := local_clock cleanup_interval
      let shard := checked clock (.empty next_cleanup) (earlier.map fun check => (check, true))
      let checks := checks.map fun check => (check, true)
      FixedPolicy key policy ((earlier.map fun check => (check, true)) ++ checks) →
      RefillsInOrder clock key shard checks →
      token_buckets.inside t₀ t₁ ((admitted_requests clock key shard checks).map clock.seconds) ≤
        (policy.burst + 1) + policy.requests_per_sec * (t₁ - t₀)) ∧
    (∀ (route : String) (client_ip : IpAddr) (earlier checks : List (Check String × Bool)),
      let key := bucket_key route client_ip
      let document := checked shared_clock (.empty next_cleanup) earlier
      FixedPolicy key policy (earlier ++ checks) →
      RefillsInOrder shared_clock key document checks →
      token_buckets.inside t₀ t₁
          ((admitted_requests shared_clock key document checks).map shared_clock.seconds) ≤
        (policy.burst + 1) + policy.requests_per_sec * (t₁ - t₀)) := by
  refine ⟨?_, ?_⟩
  · intro cleanup_interval key earlier checks clock shard checks hfixed hordered
    exact admitted_requests_le key policy next_cleanup _ checks hfixed hordered t₀ t₁ hinterval
  · intro route client_ip earlier checks key document hfixed hordered
    exact admitted_requests_le key policy next_cleanup earlier checks hfixed hordered t₀ t₁
      hinterval

def one_per_ms : RouteRateLimit := ⟨1000, 0⟩

def loopback : IpAddr := .V4 0x7f000001

def loopback_key : BucketKey := ⟨"/", loopback⟩

/-- Checks of a key at the times. -/
def checks_of {κ : Type} (key : κ) (times : List Nat) : List (Check κ) :=
  times.map fun now => ⟨key, one_per_ms, now⟩

/-- The same, with a document that can be read and written. -/
def carried_out_checks_of {κ : Type} (key : κ) (times : List Nat) : List (Check κ × Bool) :=
  (checks_of key times).map fun check => (check, true)

theorem the_rate_bounds_two_requests :
    (token_buckets.inside 0 (1 / 1000) ((admitted_requests (local_clock SHARD_CLEANUP_INTERVAL)
        loopback_key (checked (local_clock SHARD_CLEANUP_INTERVAL) (.empty 0)
          (carried_out_checks_of loopback_key [0]))
        (carried_out_checks_of loopback_key [0, 10 ^ 6])).map
        (local_clock SHARD_CLEANUP_INTERVAL).seconds) : ℚ) ≤
      (one_per_ms.burst + 1) + one_per_ms.requests_per_sec * (1 / 1000 - 0) ∧
    (token_buckets.inside 0 (1 / 1000) ((admitted_requests shared_clock (bucket_key "/" loopback)
        (checked shared_clock (.empty 0) (carried_out_checks_of (bucket_key "/" loopback) [0]))
        (carried_out_checks_of (bucket_key "/" loopback) [0, 1])).map
        shared_clock.seconds) : ℚ) ≤
      (one_per_ms.burst + 1) + one_per_ms.requests_per_sec * (1 / 1000 - 0) := by
  obtain ⟨hlocal, hshared⟩ :=
    the_rate_bounds_the_admitted_requests one_per_ms 0 0 (1 / 1000) (by norm_num)
  refine ⟨?_, ?_⟩
  · refine hlocal SHARD_CLEANUP_INTERVAL loopback_key (checks_of loopback_key [0])
      (checks_of loopback_key [0, 10 ^ 6]) ?_ ?_
    · unfold FixedPolicy
      decide +kernel
    · unfold RefillsInOrder
      decide +kernel
  · refine hshared "/" loopback (carried_out_checks_of (bucket_key "/" loopback) [0])
      (carried_out_checks_of (bucket_key "/" loopback) [0, 1]) ?_ ?_
    · unfold FixedPolicy
      decide +kernel
    · unfold RefillsInOrder
      decide +kernel

/-- One token is there and none can come between, yet both requests of the time are admitted: a
check with an older time has come between them. -/
theorem an_older_time_gives_the_token_again :
    ¬ (token_buckets.inside (1 / 1000) (1 / 1000)
        ((admitted_requests (local_clock SHARD_CLEANUP_INTERVAL) loopback_key
          (.empty SHARD_CLEANUP_INTERVAL)
          (carried_out_checks_of loopback_key [10 ^ 6, 0, 10 ^ 6])).map
          (local_clock SHARD_CLEANUP_INTERVAL).seconds) : ℚ) ≤
      (one_per_ms.burst + 1) + one_per_ms.requests_per_sec * (1 / 1000 - 1 / 1000) ∧
    ¬ (token_buckets.inside (1 / 1000) (1 / 1000)
        ((admitted_requests shared_clock (bucket_key "/" loopback) (.empty 0)
          (carried_out_checks_of (bucket_key "/" loopback) [1, 0, 1])).map
          shared_clock.seconds) : ℚ) ≤
      (one_per_ms.burst + 1) + one_per_ms.requests_per_sec * (1 / 1000 - 1 / 1000) := by
  refine ⟨?_, ?_⟩
  · have htimes : admitted_requests (local_clock SHARD_CLEANUP_INTERVAL) loopback_key
        (.empty SHARD_CLEANUP_INTERVAL)
        (carried_out_checks_of loopback_key [10 ^ 6, 0, 10 ^ 6]) = [10 ^ 6, 10 ^ 6] := by
      decide +kernel
    rw [htimes]
    norm_num [token_buckets.inside, BucketClock.seconds, local_clock, one_per_ms]
  · have htimes : admitted_requests shared_clock (bucket_key "/" loopback) (.empty 0)
        (carried_out_checks_of (bucket_key "/" loopback) [1, 0, 1]) = [1, 1] := by
      decide +kernel
    rw [htimes]
    norm_num [token_buckets.inside, BucketClock.seconds, shared_clock, one_per_ms]

end rginx.rate_limit
