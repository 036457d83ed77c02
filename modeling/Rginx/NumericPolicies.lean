-- The numbers of a configuration at run time: the rate limits of `validate/route.rs` in the `u32`
-- sum of a bucket's capacity, and the cooldowns of `validate/upstream/tuning.rs` in the instants of
-- `health/registry/state.rs`.
import Rginx.PeerHealth
import Rginx.RateLimits
import Rginx.ResultChains
import Rginx.RustTime

open rust_result rust_time rginx.rate_limit rginx.proxy

namespace rginx.config

/-! ## Rate limits that are accepted -/

def validate_route_rate_limit (route_matcher : String) (requests_per_sec burst : Option UInt32) :
    Except String Unit := do
  refuse_if (requests_per_sec = some 0)
    s!"route matcher `{route_matcher}` requests_per_sec must be greater than 0"
  refuse_if (requests_per_sec = none ∧ burst ≠ none)
    s!"route matcher `{route_matcher}` burst requires requests_per_sec to be set"

def compile_route_rate_limit (matcher_label : String) (requests_per_sec burst : Option UInt32) :
    Except String (Option RouteRateLimit) :=
  match requests_per_sec with
  | some requests_per_sec => .ok (some ⟨requests_per_sec.toNat, (burst.getD 0).toNat⟩)
  | none =>
    if burst.isSome then
      .error s!"route matcher `{matcher_label}` burst requires requests_per_sec to be set"
    else .ok none

/-! ## Requests at one instant -/

section Instant

variable {κ : Type} (clock : BucketClock) {policy : RouteRateLimit} {now : Nat}

/-- How many tokens a key has left at an instant, in a bucket that was filled at that instant; a key
without a bucket has them all. -/
def TokensLeft (policy : RouteRateLimit) (now : Nat) (bucket : Option TokenBucket) (left : Nat) :
    Prop :=
  (bucket = none ∧ left = policy.burst + 1) ∨
    (bucket = some ⟨policy, left, now⟩ ∧ left < policy.burst + 1)

variable (hcapacity : bucket_capacity policy = policy.burst + 1)

include hcapacity

theorem refill_at_once {left : Nat} (h : left ≤ policy.burst + 1) :
    (⟨policy, left, now⟩ : TokenBucket).refill clock now = ⟨policy, left, now⟩ := by
  have hle : (left : ℚ) ≤ policy.burst + 1 := by
    exact_mod_cast h
  unfold TokenBucket.refill
  rw [hcapacity]
  simp [hle]

theorem try_acquire_at_once {left : Nat} (h : left ≤ policy.burst + 1) :
    (⟨policy, left, now⟩ : TokenBucket).try_acquire clock policy now =
      (⟨policy, (left - 1 : Nat), now⟩, decide (0 < left)) := by
  unfold TokenBucket.try_acquire
  rw [TokenBucket.reconfigure, if_pos rfl, refill_at_once clock hcapacity h]
  dsimp only
  cases left with
  | zero => simp
  | succ left =>
    have hone : ¬ ((left + 1 : Nat) : ℚ) < 1 := by
      push_cast
      simp
    rw [if_neg hone]
    simp

/-- A cleanup at the instant keeps the bucket that gave a token. -/
theorem cleanup_at_once {store : BucketStore κ} {key : κ} {left : Nat}
    (h : TokensLeft policy now (store.buckets key) left) :
    TokensLeft policy now ((maybe_cleanup clock store now).buckets key) left := by
  unfold maybe_cleanup
  split
  · exact h
  · rcases h with ⟨hnone, hleft⟩ | ⟨hsome, hleft⟩
    · refine .inl ⟨?_, hleft⟩
      dsimp only
      rw [hnone]
      rfl
    · refine .inr ⟨?_, hleft⟩
      have hlow : ¬ (policy.burst + 1 : ℚ) ≤ left := by
        exact_mod_cast not_le.mpr hleft
      dsimp only
      rw [hsome, Option.bind_some, TokenBucket.retained,
        refill_at_once clock hcapacity hleft.le]
      dsimp only
      rw [hcapacity, if_neg hlow]

variable [DecidableEq κ]

/-- A check takes a token of its own key, if there is one, and of no other. -/
theorem check_at_once {store : BucketStore κ} {key : κ} {left : Nat} {check : Check κ}
    (hnow : check.now = now) (hpolicy : check.key = key → check.policy = policy)
    (h : TokensLeft policy now (store.buckets key) left) :
    TokensLeft policy now ((check_at clock store check).1.buckets key)
        (if check.key = key then left - 1 else left) ∧
      (check.key = key → (check_at clock store check).2 = decide (0 < left)) := by
  have hcleanup := cleanup_at_once clock hcapacity h
  have hleft : left ≤ policy.burst + 1 := by
    rcases h with ⟨-, h⟩ | ⟨-, h⟩
    · exact h.le
    · exact h.le
  unfold check_at
  rw [hnow]
  dsimp only
  by_cases hkey : check.key = key
  · have hbucket : ((maybe_cleanup clock store now).buckets key).getD
        (TokenBucket.new policy now) = ⟨policy, left, now⟩ := by
      rcases hcleanup with ⟨hnone, rfl⟩ | ⟨hsome, -⟩
      · rw [hnone, Option.getD_none, TokenBucket.new, hcapacity]
        push_cast
        rfl
      · rw [hsome, Option.getD_some]
    rw [hpolicy hkey, hkey, hbucket, try_acquire_at_once clock hcapacity hleft, if_pos rfl,
      Function.update_self]
    refine ⟨.inr ⟨rfl, ?_⟩, fun _ => rfl⟩
    omega
  · rw [Function.update_of_ne (Ne.symm hkey), if_neg hkey]
    exact ⟨hcleanup, fun h => absurd h hkey⟩

/-- Of the checks of a key at one instant, as many are admitted as there are tokens. -/
theorem admitted_at_once {store : BucketStore κ} {key : κ} {left : Nat}
    {checks : List (Check κ × Bool)} (hnow : ∀ check ∈ checks, check.1.now = now)
    (hpolicy : FixedPolicy key policy checks)
    (h : TokensLeft policy now (store.buckets key) left) :
    (admitted_requests clock key store checks).length =
      min (checks.countP fun check => check.2 && decide (check.1.key = key)) left := by
  induction checks generalizing store left with
  | nil => simp [admitted_requests]
  | cons check checks ih =>
    have hrest := fun other hother => hnow other (List.mem_cons_of_mem check hother)
    have hfixed : FixedPolicy key policy checks := fun other hother =>
      hpolicy other (List.mem_cons_of_mem check hother)
    obtain ⟨hafter, hadmitted⟩ := check_at_once clock hcapacity (hnow check List.mem_cons_self)
      (hpolicy check List.mem_cons_self) h
    rw [admitted_requests, List.countP_cons]
    unfold carried_out
    by_cases hdone : check.2 = true
    · rw [if_pos hdone]
      dsimp only
      by_cases hkey : check.1.key = key
      · rw [if_pos hkey] at hafter
        rw [hadmitted hkey]
        by_cases hleft : 0 < left
        · rw [if_pos ⟨decide_eq_true hleft, hkey⟩, List.length_cons, ih hrest hfixed hafter]
          simp only [hdone, hkey, decide_true, Bool.and_self, if_true]
          omega
        · rw [if_neg fun hadmit => hleft (of_decide_eq_true hadmit.1), ih hrest hfixed hafter]
          simp only [hdone, hkey, decide_true, Bool.and_self, if_true]
          omega
      · rw [if_neg hkey] at hafter
        rw [if_neg fun hadmit => hkey hadmit.2, ih hrest hfixed hafter]
        simp [hkey]
    · rw [if_neg hdone]
      dsimp only
      rw [if_neg (by simp), ih hrest hfixed h]
      simp [hdone]

end Instant

/-- The bucket of a policy holds its burst and one token more: at one instant, a client that has no
bucket yet is admitted at least once and at most that often. -/
structure ServesBurst (policy : RouteRateLimit) : Prop where
  capacity : bucket_capacity policy = policy.burst + 1
  admits : ∀ {κ : Type} [DecidableEq κ] (clock : BucketClock) (store : BucketStore κ) (key : κ)
    (now : Nat) (checks : List (Check κ × Bool)), store.buckets key = none →
    (∀ check ∈ checks, check.1.now = now) → FixedPolicy key policy checks →
    (admitted_requests clock key store checks).length ≤ policy.burst + 1 ∧
      ((∃ check ∈ checks, check.2 = true ∧ check.1.key = key) →
        1 ≤ (admitted_requests clock key store checks).length)

theorem serves_burst_iff (policy : RouteRateLimit) :
    ServesBurst policy ↔ policy.burst + 1 < 2 ^ 32 := by
  constructor
  · rintro ⟨hcapacity, -⟩
    unfold bucket_capacity at hcapacity
    have heq : (policy.burst + 1) % 2 ^ 32 = policy.burst + 1 := by
      exact_mod_cast hcapacity
    rw [← heq]
    exact Nat.mod_lt _ (by decide)
  · intro hfits
    have hcapacity : bucket_capacity policy = policy.burst + 1 := by
      unfold bucket_capacity
      rw [Nat.mod_eq_of_lt hfits]
      push_cast
      rfl
    refine ⟨hcapacity, fun clock store key now checks hnone hnow hpolicy => ?_⟩
    rw [admitted_at_once clock hcapacity hnow hpolicy (.inl ⟨hnone, rfl⟩)]
    refine ⟨min_le_right _ _, ?_⟩
    rintro ⟨check, hin, hdone, hkey⟩
    have hcount : 0 < checks.countP fun check => check.2 && decide (check.1.key = key) :=
      List.countP_pos_iff.mpr ⟨check, hin, by simp [hdone, hkey]⟩
    omega

/-! ## Cooldowns that are accepted -/

/-- The fields of `UpstreamConfig` that `validate_timeout_and_tuning` reads. -/
structure UpstreamTuning where
  name : String
  request_timeout_secs : Option UInt64
  connect_timeout_secs : Option UInt64
  read_timeout_secs : Option UInt64
  write_timeout_secs : Option UInt64
  idle_timeout_secs : Option UInt64
  tcp_keepalive_secs : Option UInt64
  http2_keep_alive_interval_secs : Option UInt64
  http2_keep_alive_timeout_secs : Option UInt64
  http2_keep_alive_while_idle : Option Bool
  max_replayable_request_body_bytes : Option UInt64
  unhealthy_after_failures : Option UInt32
  unhealthy_cooldown_secs : Option UInt64

def validate_timeout_and_tuning (upstream : UpstreamTuning) : Except String Unit := do
  [("request_timeout_secs", upstream.request_timeout_secs),
    ("connect_timeout_secs", upstream.connect_timeout_secs),
    ("read_timeout_secs", upstream.read_timeout_secs),
    ("write_timeout_secs", upstream.write_timeout_secs),
    ("idle_timeout_secs", upstream.idle_timeout_secs),
    ("tcp_keepalive_secs", upstream.tcp_keepalive_secs),
    ("http2_keep_alive_interval_secs", upstream.http2_keep_alive_interval_secs),
    ("http2_keep_alive_timeout_secs", upstream.http2_keep_alive_timeout_secs)].forM
      fun (field, value) =>
        refuse_if (value = some 0) s!"upstream `{upstream.name}` {field} must be greater than 0"
  refuse_if (upstream.http2_keep_alive_interval_secs = none ∧
      (upstream.http2_keep_alive_timeout_secs.isSome ∨ upstream.http2_keep_alive_while_idle.isSome))
    (s!"upstream `{upstream.name}` http2_keep_alive_timeout_secs and http2_keep_alive_while_idle" ++
      " require http2_keep_alive_interval_secs to be set")
  refuse_if (upstream.max_replayable_request_body_bytes = some 0)
    s!"upstream `{upstream.name}` max_replayable_request_body_bytes must be greater than 0"
  refuse_if (upstream.unhealthy_after_failures = some 0)
    s!"upstream `{upstream.name}` unhealthy_after_failures must be greater than 0"
  refuse_if (upstream.unhealthy_cooldown_secs = some 0)
    s!"upstream `{upstream.name}` unhealthy_cooldown_secs must be greater than 0"

def DEFAULT_UNHEALTHY_AFTER_FAILURES : UInt32 := 2

def DEFAULT_UNHEALTHY_COOLDOWN_SECS : UInt64 := 10

def UpstreamTuning.after_failures (upstream : UpstreamTuning) : Nat :=
  (upstream.unhealthy_after_failures.getD DEFAULT_UNHEALTHY_AFTER_FAILURES).toNat

def UpstreamTuning.cooldown_secs (upstream : UpstreamTuning) : UInt64 :=
  upstream.unhealthy_cooldown_secs.getD DEFAULT_UNHEALTHY_COOLDOWN_SECS

/-- `PeerHealthPolicy`, as the upstream is compiled to it; durations are nanoseconds there. -/
def UpstreamTuning.policy (upstream : UpstreamTuning) : PeerHealthPolicy :=
  ⟨upstream.after_failures, (Duration.from_secs upstream.cooldown_secs).as_nanos⟩

/-- The state that a failure finds: a cooldown that has ended is forgotten. -/
def passive_before (now : Nat) (health : PeerHealth) : PassiveHealthState :=
  if health.passive.unhealthy_until.any fun deadline => deadline ≤ now then
    { health.passive with unhealthy_until := none, consecutive_failures := 0 }
  else health.passive

/-- `PeerHealth::record_failure` with the sum of an instant; nothing stands for its panic. -/
def record_failure_at (unhealthy_after_failures : Nat) (cooldown : Duration) (now : Instant)
    (health : PeerHealth) : Option (PeerHealth × PeerFailureStatus) := do
  let passive := passive_before now.as_nanos health
  let already_in_cooldown := passive.unhealthy_until.any fun deadline => deadline > now.as_nanos
  let consecutive_failures := passive.consecutive_failures + 1
  let entered_cooldown := !already_in_cooldown &&
    decide (unhealthy_after_failures ≤ consecutive_failures)
  let passive := { passive with consecutive_failures }
  let passive ←
    if entered_cooldown then
      (now.checked_add cooldown).map fun deadline =>
        { passive with unhealthy_until := some deadline.as_nanos, pending_recovery := true }
    else if already_in_cooldown then
      (now.checked_add cooldown).map fun deadline =>
        { passive with unhealthy_until := some deadline.as_nanos }
    else some passive
  return ({ health with passive }, ⟨consecutive_failures, entered_cooldown⟩)

/-- A failure now starts a cooldown, or extends one. -/
def CoolsDown (unhealthy_after_failures now : Nat) (health : PeerHealth) : Prop :=
  (∃ deadline, health.passive.unhealthy_until = some deadline ∧ now < deadline) ∨
    unhealthy_after_failures ≤ (passive_before now health).consecutive_failures + 1

theorem cools_down_iff (unhealthy_after_failures now : Nat) (health : PeerHealth) :
    CoolsDown unhealthy_after_failures now health ↔
      ((passive_before now health).unhealthy_until.any fun deadline => deadline > now) = true ∨
        unhealthy_after_failures ≤ (passive_before now health).consecutive_failures + 1 := by
  unfold CoolsDown passive_before
  cases hdeadline : health.passive.unhealthy_until with
  | none => simp [hdeadline]
  | some deadline =>
    by_cases hended : deadline ≤ now
    · simp [hended]
    · simp [hended, hdeadline]

/-- A failure is recorded with the end of its cooldown exactly where that end can be represented, or
where the failure starts and extends no cooldown. -/
theorem record_failure_at_iff (unhealthy_after_failures : Nat) (cooldown : Duration) (now : Instant)
    (health : PeerHealth) :
    record_failure_at unhealthy_after_failures cooldown now health =
        some (health.record_failure ⟨unhealthy_after_failures, cooldown.as_nanos⟩ now.as_nanos) ↔
      (CoolsDown unhealthy_after_failures now.as_nanos health →
        (now.checked_add cooldown).isSome) := by
  have hexact : health.record_failure ⟨unhealthy_after_failures, cooldown.as_nanos⟩ now.as_nanos =
      (let passive := passive_before now.as_nanos health
       let already_in_cooldown := passive.unhealthy_until.any fun deadline => deadline > now.as_nanos
       let consecutive_failures := passive.consecutive_failures + 1
       let entered_cooldown := !already_in_cooldown &&
        decide (unhealthy_after_failures ≤ consecutive_failures)
       let passive := { passive with consecutive_failures }
       let deadline := some (now.as_nanos + cooldown.as_nanos)
       ({ health with
          passive :=
            if entered_cooldown then
              { passive with unhealthy_until := deadline, pending_recovery := true }
            else if already_in_cooldown then { passive with unhealthy_until := deadline }
            else passive }, ⟨consecutive_failures, entered_cooldown⟩)) := rfl
  rw [cools_down_iff, hexact]
  unfold record_failure_at
  dsimp only
  cases hadd : now.checked_add cooldown with
  | some later =>
    have hlater := Instant.checked_add_eq_some hadd
    simp only [Option.map_some, hlater]
    cases hopen : (passive_before now.as_nanos health).unhealthy_until.any fun deadline =>
        deadline > now.as_nanos <;>
      by_cases hfailures : unhealthy_after_failures ≤
        (passive_before now.as_nanos health).consecutive_failures + 1 <;>
      simp [hfailures]
  | none =>
    simp only [Option.map_none]
    cases hopen : (passive_before now.as_nanos health).unhealthy_until.any fun deadline =>
        deadline > now.as_nanos <;>
      by_cases hfailures : unhealthy_after_failures ≤
        (passive_before now.as_nanos health).consecutive_failures + 1 <;>
      simp [hfailures]

/-! ## The policies that fit -/

/-- The accepted numbers that do not overflow: a rate limit serves its burst unless that is the
largest `u32`, and a failure is recorded unless the end of its cooldown is beyond `i64` seconds. -/
theorem numeric_policies_fit_iff (route_matcher : String) (requests_per_sec burst : Option UInt32)
    (policy : RouteRateLimit) (upstream : UpstreamTuning)
    (_ : validate_route_rate_limit route_matcher requests_per_sec burst = .ok ())
    (hcompiled : compile_route_rate_limit route_matcher requests_per_sec burst = .ok (some policy))
    (_ : validate_timeout_and_tuning upstream = .ok ()) (now : Instant) (health : PeerHealth) :
    (policy.burst = (burst.getD 0).toNat ∧ (ServesBurst policy ↔ burst ≠ some 4294967295)) ∧
      (record_failure_at upstream.after_failures (.from_secs upstream.cooldown_secs) now health =
          some (health.record_failure upstream.policy now.as_nanos) ↔
        (CoolsDown upstream.after_failures now.as_nanos health →
          now.secs + upstream.cooldown_secs.toNat < 2 ^ 63)) := by
  constructor
  · unfold compile_route_rate_limit at hcompiled
    split at hcompiled
    · obtain rfl := Option.some.inj (Except.ok.inj hcompiled)
      refine ⟨rfl, ?_⟩
      rw [serves_burst_iff]
      dsimp only
      cases burst with
      | none => simp
      | some burst =>
        have hburst := burst.toNat_lt
        have hlargest : burst ≠ 4294967295 ↔ burst.toNat ≠ 4294967295 :=
          not_congr UInt32.toNat_inj.symm
        rw [Option.getD_some, ne_eq, Option.some_inj, ← ne_eq, hlargest]
        omega
    · split at hcompiled
      · cases hcompiled
      · cases Except.ok.inj hcompiled
  · rw [← Instant.checked_add_secs_iff]
    exact record_failure_at_iff upstream.after_failures (.from_secs upstream.cooldown_secs) now health

def plainTuning (unhealthy_after_failures : UInt32) (unhealthy_cooldown_secs : Option UInt64) :
    UpstreamTuning :=
  { name := "backend"
    request_timeout_secs := none
    connect_timeout_secs := none
    read_timeout_secs := none
    write_timeout_secs := none
    idle_timeout_secs := none
    tcp_keepalive_secs := none
    http2_keep_alive_interval_secs := none
    http2_keep_alive_timeout_secs := none
    http2_keep_alive_while_idle := none
    max_replayable_request_body_bytes := none
    unhealthy_after_failures := some unhealthy_after_failures
    unhealthy_cooldown_secs }

theorem numeric_policies_fit_iff_plain :
    ServesBurst ⟨1, 4⟩ ∧ ∃ now : Instant, now.secs = 5 ∧
      record_failure_at 1 (.from_secs 10) now .default =
        some (PeerHealth.default.record_failure (plainTuning 1 none).policy now.as_nanos) := by
  obtain ⟨⟨-, hrate⟩, hcooldown⟩ := numeric_policies_fit_iff "/" (some 1) (some 4) ⟨1, 4⟩
    (plainTuning 1 none) rfl rfl rfl ⟨5, 0, by decide, by decide⟩ .default
  exact ⟨hrate.mpr (by decide), ⟨5, 0, by decide, by decide⟩, rfl,
    hcooldown.mpr fun _ => by decide⟩

/-- The largest numbers that are accepted: a bucket without room for a token, and a cooldown that has
no end. -/
theorem largest_policies_overflow :
    validate_route_rate_limit "/" (some 1) (some 4294967295) = .ok () ∧
      compile_route_rate_limit "/" (some 1) (some 4294967295) = .ok (some ⟨1, 4294967295⟩) ∧
      bucket_capacity ⟨1, 4294967295⟩ = 0 ∧
      (rate_limit.check_at shared_clock (BucketStore.empty 1)
        ⟨"key", ⟨1, 4294967295⟩, 0⟩).2 = false ∧
      validate_timeout_and_tuning (plainTuning 1 (some 18446744073709551615)) = .ok () ∧
      record_failure_at 1 (.from_secs 18446744073709551615) ⟨0, 0, by decide, by decide⟩ .default =
        none := by
  have hcapacity : bucket_capacity ⟨1, 4294967295⟩ = 0 := by
    simp [bucket_capacity]
  refine ⟨rfl, rfl, hcapacity, ?_, rfl, rfl⟩
  simp [rate_limit.check_at, maybe_cleanup, BucketStore.empty, TokenBucket.new,
    TokenBucket.try_acquire, TokenBucket.reconfigure, TokenBucket.refill, hcapacity]

end rginx.config
