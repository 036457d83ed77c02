-- The cooldowns and recoveries of a peer over its whole history, from `PeerHealth` of
-- `health/registry/state.rs` of the crate `rginx-http`. The failures since the last success are cut
-- into streaks, each from the start or from an expired cooldown; the fields of the peer are those of
-- its current streak.
import Rginx.PeerHealth

namespace rginx.proxy

/-! ## Histories -/

/-- What is learnt of a peer: by a request, or by a probe. -/
inductive HealthEvent
  | success
  | failure
  | active_success
  | active_failure
  deriving DecidableEq

/-- The record of an event at its time. -/
def HealthEvent.result (healthy_successes_required : Nat) : Nat × HealthEvent → PeerResult
  | (_, .success) => .success
  | (now, .failure) => .failure now
  | (_, .active_success) => .active_success healthy_successes_required
  | (_, .active_failure) => .active_failure

/-- Whether an event comes from a request. -/
def HealthEvent.passive : HealthEvent → Bool
  | .success => true
  | .failure => true
  | .active_success => false
  | .active_failure => false

section History

variable (policy : PeerHealthPolicy) (healthy_successes_required : Nat)

/-- The health of a peer with this history. -/
def health_after (history : List (Nat × HealthEvent)) : PeerHealth :=
  history.foldl (fun health event =>
    health.record policy (HealthEvent.result healthy_successes_required event)) .default

/-- Whether an event is reported to enter a cooldown. -/
def enters_cooldown (health : PeerHealth) : Nat × HealthEvent → Bool
  | (now, .failure) => (health.record_failure policy now).2.entered_cooldown
  | _ => false

/-- How many events of a history are. -/
def entered_cooldowns : PeerHealth → List (Nat × HealthEvent) → Nat
  | _, [] => 0
  | health, event :: history =>
    (enters_cooldown policy health event).toNat + entered_cooldowns
      (health.record policy (HealthEvent.result healthy_successes_required event)) history

/-! ## Streaks and cooldowns -/

/-- The times of consecutive failures, the newest first, are those of a cooldown: it started at
the `unhealthy_after_failures`-th. -/
def IsCooldown (streak : List Nat) : Prop := policy.unhealthy_after_failures ≤ streak.length

instance : DecidablePred (IsCooldown policy) := fun streak =>
  inferInstanceAs (Decidable (policy.unhealthy_after_failures ≤ streak.length))

/-- The end of a cooldown that started: every failure inside it has extended it. -/
def deadline (streak : List Nat) : Nat := streak.headD 0 + policy.cooldown

/-- A cooldown that is over: a failure at this time starts another streak. -/
def Expired (now : Nat) (streak : List Nat) : Prop :=
  IsCooldown policy streak ∧ deadline policy streak ≤ now

instance (now : Nat) : DecidablePred (Expired policy now) := fun streak =>
  inferInstanceAs (Decidable (IsCooldown policy streak ∧ deadline policy streak ≤ now))

/-- The streaks since the last success, and those before it, the newest first. -/
structure Streaks where
  current : List (List Nat)
  earlier : List (List Nat)

/-- A failure stands in the current streak, or starts one. -/
def with_failure (now : Nat) : List (List Nat) → List (List Nat)
  | [] => [[now]]
  | streak :: streaks =>
    if Expired policy now streak then [now] :: streak :: streaks else (now :: streak) :: streaks

def Streaks.after (streaks : Streaks) : Nat × HealthEvent → Streaks
  | (_, .success) => ⟨[], streaks.current ++ streaks.earlier⟩
  | (now, .failure) => { streaks with current := with_failure policy now streaks.current }
  | (_, .active_success) => streaks
  | (_, .active_failure) => streaks

def streaks_of (history : List (Nat × HealthEvent)) : Streaks :=
  history.foldl (Streaks.after policy) ⟨[], []⟩

/-- The peer is in the cooldown of its current streak. -/
def InCooldown (history : List (Nat × HealthEvent)) (now : Nat) : Prop :=
  ∃ streak ∈ (streaks_of policy history).current.head?,
    IsCooldown policy streak ∧ now < deadline policy streak

/-- A failure at this time is the one that starts a cooldown. -/
def StartsCooldown (history : List (Nat × HealthEvent)) (now : Nat) : Prop :=
  ∃ streak ∈ (with_failure policy now (streaks_of policy history).current).head?,
    streak.length = policy.unhealthy_after_failures

/-- The cooldowns of the history. -/
def cooldowns (history : List (Nat × HealthEvent)) : List (List Nat) :=
  ((streaks_of policy history).current ++ (streaks_of policy history).earlier).filter
    fun streak => IsCooldown policy streak

/-- The last active failure was followed by enough active successes. -/
def ActiveRecovered (history : List (Nat × HealthEvent)) : Prop :=
  ∀ before now after, history = before ++ (now, .active_failure) :: after →
    (∀ event ∈ after, event.2 ≠ .active_failure) →
    healthy_successes_required ≤ (after.filter fun event => event.2 = .active_success).length

/-! ## The passive fields -/

/-- The passive fields of a peer with these streaks since its last success. -/
def passive_of (streaks : List (List Nat)) : PassiveHealthState where
  consecutive_failures := (streaks.headD []).length
  unhealthy_until := (streaks.head?.filter fun streak => IsCooldown policy streak).map
    (deadline policy)
  pending_recovery := streaks.any fun streak => IsCooldown policy streak

variable {policy healthy_successes_required}

theorem record_active_success_passive (required : Nat) (health : PeerHealth) :
    (health.record_active_success required).1.passive = health.passive := by
  unfold PeerHealth.record_active_success
  split <;> rfl

theorem health_after_snoc (history : List (Nat × HealthEvent)) (event : Nat × HealthEvent) :
    health_after policy healthy_successes_required (history ++ [event]) =
      (health_after policy healthy_successes_required history).record policy
        (HealthEvent.result healthy_successes_required event) := by
  simp [health_after]

theorem streaks_of_snoc (history : List (Nat × HealthEvent)) (event : Nat × HealthEvent) :
    streaks_of policy (history ++ [event]) = (streaks_of policy history).after policy event := by
  simp [streaks_of]

theorem passive_of_cons (streak : List Nat) (streaks : List (List Nat)) :
    passive_of policy (streak :: streaks) =
      { consecutive_failures := streak.length
        unhealthy_until := if IsCooldown policy streak then some (deadline policy streak) else none
        pending_recovery :=
          decide (IsCooldown policy streak) || (passive_of policy streaks).pending_recovery } := by
  by_cases h : IsCooldown policy streak <;> simp [passive_of, Option.filter, h]

/-- The failures that count where a failure comes outside a cooldown. -/
def counted (health : PeerHealth) : Nat :=
  match health.passive.unhealthy_until with
  | none => health.passive.consecutive_failures
  | some _ => 0

theorem record_failure_outside {health : PeerHealth} {now : Nat}
    (h : ∀ until_time ∈ health.passive.unhealthy_until, until_time ≤ now) :
    (health.record_failure policy now).1.passive =
        { consecutive_failures := counted health + 1
          unhealthy_until :=
            if policy.unhealthy_after_failures ≤ counted health + 1 then some (now + policy.cooldown)
            else none
          pending_recovery := decide (policy.unhealthy_after_failures ≤ counted health + 1) ||
            health.passive.pending_recovery } ∧
      (health.record_failure policy now).2.entered_cooldown =
        decide (policy.unhealthy_after_failures ≤ counted health + 1) := by
  unfold PeerHealth.record_failure counted
  cases huntil : health.passive.unhealthy_until with
  | none =>
    by_cases hreached : policy.unhealthy_after_failures ≤ health.passive.consecutive_failures + 1 <;>
      simp [huntil, hreached]
  | some until_time =>
    have hover := h until_time huntil
    by_cases hreached : policy.unhealthy_after_failures ≤ 1 <;> simp [hover, hreached]

theorem record_failure_inside {health : PeerHealth} {now until_time : Nat}
    (huntil : health.passive.unhealthy_until = some until_time) (h : now < until_time) :
    (health.record_failure policy now).1.passive =
        { consecutive_failures := health.passive.consecutive_failures + 1
          unhealthy_until := some (now + policy.cooldown)
          pending_recovery := health.passive.pending_recovery } ∧
      (health.record_failure policy now).2.entered_cooldown = false := by
  unfold PeerHealth.record_failure
  simp [huntil, h, h.not_ge]

/-- The first failure of a streak. -/
theorem passive_of_first (now : Nat) (streaks : List (List Nat)) :
    passive_of policy ([now] :: streaks) =
      { consecutive_failures := 1
        unhealthy_until :=
          if policy.unhealthy_after_failures ≤ 1 then some (now + policy.cooldown) else none
        pending_recovery := decide (policy.unhealthy_after_failures ≤ 1) ||
          (passive_of policy streaks).pending_recovery } :=
  passive_of_cons [now] streaks

/-- A failure records the streak that it stands in, and it enters a cooldown where it is the
failure of the streak that starts one. -/
theorem record_failure_of_streaks (hfailures : 1 ≤ policy.unhealthy_after_failures)
    {health : PeerHealth} {streaks : List (List Nat)} (h : health.passive = passive_of policy streaks)
    (now : Nat) :
    (health.record_failure policy now).1.passive = passive_of policy (with_failure policy now streaks) ∧
      ((health.record_failure policy now).2.entered_cooldown = true ↔
        ∃ streak ∈ (with_failure policy now streaks).head?,
          streak.length = policy.unhealthy_after_failures) := by
  cases streaks with
  | nil =>
    have hcount : counted health = 0 := by rw [counted, h]; rfl
    obtain ⟨hpassive, hentered⟩ := @record_failure_outside policy health now
      (by rw [h]; simp [passive_of])
    rw [hpassive, hentered, hcount, h]
    refine ⟨(passive_of_first now []).symm, ?_⟩
    simp only [with_failure, List.head?_cons, Option.mem_def, Option.some.injEq, exists_eq_left',
      List.length_singleton, decide_eq_true_eq]
    omega
  | cons streak streaks =>
    have hcons := h
    rw [passive_of_cons] at h
    by_cases hcooldown : IsCooldown policy streak
    · rw [if_pos hcooldown] at h
      by_cases hover : deadline policy streak ≤ now
      · -- The cooldown is over: the failure is the first of a new streak.
        have hstreaks : with_failure policy now (streak :: streaks) = [now] :: streak :: streaks :=
          if_pos ⟨hcooldown, hover⟩
        have hcount : counted health = 0 := by rw [counted, h]
        obtain ⟨hpassive, hentered⟩ := @record_failure_outside policy health now
          (by rw [h]; simpa using hover)
        rw [hpassive, hentered, hcount, hstreaks, passive_of_first, hcons]
        refine ⟨rfl, ?_⟩
        simp only [List.head?_cons, Option.mem_def, Option.some.injEq, exists_eq_left',
          List.length_singleton, decide_eq_true_eq]
        omega
      · -- Inside the cooldown the failure extends it.
        have hstreaks : with_failure policy now (streak :: streaks) = (now :: streak) :: streaks :=
          if_neg fun hexpired => hover hexpired.2
        have hlonger : IsCooldown policy (now :: streak) := Nat.le_succ_of_le hcooldown
        obtain ⟨hpassive, hentered⟩ := @record_failure_inside policy health now
          (deadline policy streak) (by rw [h]) (not_le.mp hover)
        rw [hpassive, hentered, hstreaks, passive_of_cons, if_pos hlonger, h]
        refine ⟨by simp [hcooldown, hlonger, deadline], ?_⟩
        have hlength : policy.unhealthy_after_failures ≤ streak.length := hcooldown
        simp only [List.head?_cons, Option.mem_def, Option.some.injEq, exists_eq_left',
          List.length_cons, Bool.false_eq_true, false_iff]
        omega
    · -- The failures of the streak have not come to a cooldown yet.
      rw [if_neg hcooldown, decide_eq_false hcooldown, Bool.false_or] at h
      have hstreaks : with_failure policy now (streak :: streaks) = (now :: streak) :: streaks :=
        if_neg fun hexpired => hcooldown hexpired.1
      have hcount : counted health = streak.length := by rw [counted, h]
      have hlength : ¬ policy.unhealthy_after_failures ≤ streak.length := hcooldown
      obtain ⟨hpassive, hentered⟩ := @record_failure_outside policy health now (by rw [h]; simp)
      rw [hpassive, hentered, hcount, hstreaks, passive_of_cons, h]
      refine ⟨rfl, ?_⟩
      simp only [List.head?_cons, Option.mem_def, Option.some.injEq, exists_eq_left',
        List.length_cons, decide_eq_true_eq]
      omega

theorem passive_after (hfailures : 1 ≤ policy.unhealthy_after_failures)
    (history : List (Nat × HealthEvent)) :
    (health_after policy healthy_successes_required history).passive =
      passive_of policy (streaks_of policy history).current := by
  induction history using List.reverseRecOn with
  | nil => rfl
  | append_singleton history event ih =>
    rw [health_after_snoc, streaks_of_snoc]
    obtain ⟨now, event⟩ := event
    cases event with
    | success => rfl
    | failure => exact (record_failure_of_streaks hfailures ih now).1
    | active_success =>
      refine Eq.trans ?_ ih
      exact record_active_success_passive _ _
    | active_failure => exact ih

/-! ## One report for each cooldown -/

theorem entered_cooldowns_snoc (health : PeerHealth) (history : List (Nat × HealthEvent))
    (event : Nat × HealthEvent) :
    entered_cooldowns policy healthy_successes_required health (history ++ [event]) =
      entered_cooldowns policy healthy_successes_required health history +
        (enters_cooldown policy (history.foldl (fun health event =>
          health.record policy (HealthEvent.result healthy_successes_required event)) health)
          event).toNat := by
  induction history generalizing health with
  | nil => simp [entered_cooldowns]
  | cons first history ih =>
    rw [List.cons_append, entered_cooldowns, ih, entered_cooldowns, List.foldl_cons, Nat.add_assoc]

/-- A failure makes one cooldown more where it starts one. -/
theorem cooldowns_with_failure (now : Nat) (streaks earlier : List (List Nat))
    (hfailures : 1 ≤ policy.unhealthy_after_failures) {entered : Bool}
    (hentered : entered = true ↔ ∃ streak ∈ (with_failure policy now streaks).head?,
      streak.length = policy.unhealthy_after_failures) :
    ((with_failure policy now streaks ++ earlier).filter
        fun streak => IsCooldown policy streak).length =
      ((streaks ++ earlier).filter fun streak => IsCooldown policy streak).length +
        entered.toNat := by
  have hfirst : ∀ rest : List (List Nat), (entered = true ↔ 1 = policy.unhealthy_after_failures) →
      (([now] :: rest).filter fun streak => IsCooldown policy streak).length =
        (rest.filter fun streak => IsCooldown policy streak).length + entered.toNat := by
    intro rest hone
    have hcooldown : IsCooldown policy [now] ↔ entered = true := by
      unfold IsCooldown
      rw [hone, List.length_singleton]
      omega
    cases entered <;> simp [hcooldown]
  cases streaks with
  | nil => exact hfirst earlier (by simpa [with_failure] using hentered)
  | cons streak streaks =>
    unfold with_failure at hentered ⊢
    dsimp only at hentered ⊢
    split_ifs at hentered ⊢ with hexpired
    · exact hfirst _ (by simpa using hentered)
    · have hlength : entered = true ↔ streak.length + 1 = policy.unhealthy_after_failures := by
        simpa using hentered
      have hcooldown : IsCooldown policy (now :: streak) ↔
          IsCooldown policy streak ∨ entered = true := by
        unfold IsCooldown
        rw [hlength, List.length_cons]
        omega
      have hnot : IsCooldown policy streak → entered = false := by
        intro hold
        unfold IsCooldown at hold
        rw [← Bool.not_eq_true, hlength]
        omega
      by_cases hold : IsCooldown policy streak
      · simp [hcooldown, hold, hnot hold]
      · cases entered <;> simp [hcooldown, hold]

theorem entered_cooldowns_eq (hfailures : 1 ≤ policy.unhealthy_after_failures)
    (history : List (Nat × HealthEvent)) :
    entered_cooldowns policy healthy_successes_required .default history =
      (cooldowns policy history).length := by
  induction history using List.reverseRecOn with
  | nil => rfl
  | append_singleton history event ih =>
    rw [entered_cooldowns_snoc, ih]
    unfold cooldowns
    rw [streaks_of_snoc]
    obtain ⟨now, event⟩ := event
    cases event with
    | success => simp [enters_cooldown, Streaks.after]
    | failure =>
      have hpassive := @passive_after policy healthy_successes_required hfailures history
      have hentered := (record_failure_of_streaks hfailures hpassive now).2
      exact (cooldowns_with_failure now _ _ hfailures hentered).symm
    | active_success => rfl
    | active_failure => rfl

/-! ## The active fields -/

theorem activeRecovered_failure (now : Nat) (history : List (Nat × HealthEvent)) (required : Nat) :
    ActiveRecovered required (history ++ [(now, .active_failure)]) ↔ required = 0 := by
  constructor
  · intro h
    exact Nat.le_zero.mp (h history now [] rfl (List.forall_mem_nil _))
  · rintro rfl
    exact fun _ _ _ _ _ => Nat.zero_le _

theorem activeRecovered_snoc {event : Nat × HealthEvent} (hevent : event.2 ≠ .active_failure)
    (history : List (Nat × HealthEvent)) (required : Nat) :
    ActiveRecovered required (history ++ [event]) ↔
      ActiveRecovered (required - if event.2 = .active_success then 1 else 0) history := by
  have hcount : ∀ after : List (Nat × HealthEvent),
      ((after ++ [event]).filter fun event => event.2 = .active_success).length =
        (after.filter fun event => event.2 = .active_success).length +
          if event.2 = .active_success then 1 else 0 := by
    intro after
    rw [List.filter_append, List.length_append]
    by_cases hsuccess : event.2 = .active_success <;> simp [hsuccess]
  constructor
  · intro h before now after hsplit hafter
    have hall : ∀ other ∈ after ++ [event], other.2 ≠ .active_failure := by
      intro other hother
      rcases List.mem_append.mp hother with hother | hother
      · exact hafter other hother
      · exact List.mem_singleton.mp hother ▸ hevent
    have hle := h before now (after ++ [event]) (by simp [hsplit]) hall
    rw [hcount] at hle
    omega
  · intro h before now after hsplit hafter
    rcases List.eq_nil_or_concat after with rfl | ⟨after, last, rfl⟩
    · have hlast : event = (now, .active_failure) :=
        List.head_eq_of_cons_eq (List.append_inj' hsplit rfl).2
      rw [hlast] at hevent
      exact absurd rfl hevent
    · rw [List.concat_eq_append] at hsplit hafter ⊢
      rw [← List.cons_append, ← List.append_assoc] at hsplit
      obtain ⟨hhistory, hlast⟩ := List.append_inj' hsplit rfl
      obtain rfl := List.head_eq_of_cons_eq hlast
      have hle := h before now after hhistory fun other hother =>
        hafter other (List.mem_append_left _ hother)
      rw [hcount]
      omega

/-- The active fields of a peer whose last active failure was followed by this many active
successes. -/
def active_of (required : Nat) : Option Nat → ActiveHealthState
  | none => .default
  | some successes => if required ≤ successes then .default else ⟨true, successes⟩

theorem active_after (hrequired : 1 ≤ healthy_successes_required)
    (history : List (Nat × HealthEvent)) :
    ∃ since : Option Nat,
      (∀ required, ActiveRecovered required history ↔ ∀ successes ∈ since, required ≤ successes) ∧
      (health_after policy healthy_successes_required history).active =
        active_of healthy_successes_required since := by
  induction history using List.reverseRecOn with
  | nil =>
    refine ⟨none, fun required => ?_, rfl⟩
    refine iff_of_true ?_ (by simp)
    intro before now after hsplit
    simp at hsplit
  | append_singleton history event ih =>
    obtain ⟨since, hsince, hactive⟩ := ih
    rw [health_after_snoc]
    obtain ⟨now, event⟩ := event
    cases event with
    | success =>
      refine ⟨since, fun required => ?_, hactive⟩
      rw [activeRecovered_snoc (by simp), hsince]
      simp
    | failure =>
      refine ⟨since, fun required => ?_, hactive⟩
      rw [activeRecovered_snoc (by simp), hsince]
      simp
    | active_failure =>
      refine ⟨some 0, fun required => ?_, ?_⟩
      · rw [activeRecovered_failure]
        simp
      · exact (if_neg (by omega)).symm
    | active_success =>
      refine ⟨since.map (· + 1), fun required => ?_, ?_⟩
      · rw [activeRecovered_snoc (by simp), hsince]
        cases since with
        | none => simp
        | some successes => simp
      · show (PeerHealth.record_active_success healthy_successes_required _).1.active = _
        unfold PeerHealth.record_active_success
        rw [hactive]
        cases since with
        | none => exact hactive
        | some successes =>
          by_cases hdone : healthy_successes_required ≤ successes
          · have hmore : healthy_successes_required ≤ successes + 1 := by omega
            simp [active_of, hdone, hmore, ActiveHealthState.default, hactive]
          · by_cases hmore : healthy_successes_required ≤ successes + 1 <;>
              simp [active_of, hdone, hmore]

/-! ## The state of a peer, read off its history -/

theorem is_available_iff (hfailures : 1 ≤ policy.unhealthy_after_failures)
    (hrequired : 1 ≤ healthy_successes_required) (history : List (Nat × HealthEvent)) (now : Nat) :
    (health_after policy healthy_successes_required history).is_available now = true ↔
      ActiveRecovered healthy_successes_required history ∧ ¬ InCooldown policy history now := by
  obtain ⟨since, hsince, hactive⟩ := @active_after policy _ hrequired history
  have hpassive := @passive_after policy healthy_successes_required hfailures history
  have hhealthy : (health_after policy healthy_successes_required history).active.unhealthy = false ↔
      ActiveRecovered healthy_successes_required history := by
    rw [hactive, hsince]
    cases since with
    | none => simp [active_of, ActiveHealthState.default]
    | some successes =>
      by_cases hdone : healthy_successes_required ≤ successes <;>
        simp [active_of, ActiveHealthState.default, hdone]
  have hcool : ((health_after policy healthy_successes_required history).passive.unhealthy_until.all
      fun deadline => deadline ≤ now) = true ↔ ¬ InCooldown policy history now := by
    rw [hpassive]
    unfold InCooldown
    cases (streaks_of policy history).current with
    | nil => simp [passive_of]
    | cons streak streaks =>
      by_cases hcooldown : IsCooldown policy streak <;> simp [passive_of, Option.filter, hcooldown]
  unfold PeerHealth.is_available
  rw [Bool.and_eq_true, hcool, Bool.not_eq_true', hhealthy, and_comm]

theorem recovers_iff (hfailures : 1 ≤ policy.unhealthy_after_failures)
    (history : List (Nat × HealthEvent)) :
    (health_after policy healthy_successes_required history).record_success.2 = true ↔
      ∃ streak ∈ (streaks_of policy history).current, IsCooldown policy streak := by
  unfold PeerHealth.record_success
  rw [passive_after hfailures]
  simp [passive_of]

/-- Results of requests leave the active fields, and those of probes the passive ones. -/
theorem record_parts (health : PeerHealth) (event : Nat × HealthEvent) :
    if event.2.passive = true then
      (health.record policy (HealthEvent.result healthy_successes_required event)).active =
        health.active
    else
      (health.record policy (HealthEvent.result healthy_successes_required event)).passive =
        health.passive := by
  obtain ⟨now, event⟩ := event
  cases event with
  | success => rfl
  | failure => rfl
  | active_success => exact record_active_success_passive _ _
  | active_failure => rfl

end History

/-- The health of a peer is what its history says: available exactly when its last active failure
was followed by enough active successes and it is in no cooldown, with one report for each cooldown
that it enters, and a recovery reported by a success after one. -/
theorem peer_health_history (policy : PeerHealthPolicy) (healthy_successes_required : Nat)
    (hfailures : 1 ≤ policy.unhealthy_after_failures) (hrequired : 1 ≤ healthy_successes_required)
    (history : List (Nat × HealthEvent)) :
    (∀ now, (health_after policy healthy_successes_required history).is_available now = true ↔
      ActiveRecovered healthy_successes_required history ∧ ¬ InCooldown policy history now) ∧
    (∀ now, ((health_after policy healthy_successes_required history).record_failure policy
      now).2.entered_cooldown = true ↔ StartsCooldown policy history now) ∧
    entered_cooldowns policy healthy_successes_required .default history =
      (cooldowns policy history).length ∧
    ((health_after policy healthy_successes_required history).record_success.2 = true ↔
      ∃ streak ∈ (streaks_of policy history).current, IsCooldown policy streak) ∧
    ∀ (health : PeerHealth) (event : Nat × HealthEvent), if event.2.passive = true then
      (health.record policy (HealthEvent.result healthy_successes_required event)).active =
        health.active
    else
      (health.record policy (HealthEvent.result healthy_successes_required event)).passive =
        health.passive := by
  refine ⟨is_available_iff hfailures hrequired history, ?_, entered_cooldowns_eq hfailures history,
    recovers_iff hfailures history, record_parts⟩
  intro now
  exact (record_failure_of_streaks hfailures (passive_after hfailures history) now).2

/-- Two failures start a cooldown of ten seconds, a third one extends it, and a probe fails in it. -/
theorem peer_health_history_extended :
    (health_after ⟨2, 10⟩ 1
      [(0, .failure), (1, .failure), (5, .failure), (6, .active_failure)]).is_available 20 = true ↔
    ActiveRecovered 1 [(0, .failure), (1, .failure), (5, .failure), (6, .active_failure)] ∧
      ¬ InCooldown ⟨2, 10⟩
        [(0, .failure), (1, .failure), (5, .failure), (6, .active_failure)] 20 :=
  (peer_health_history ⟨2, 10⟩ 1 (by decide) (by decide)
    [(0, .failure), (1, .failure), (5, .failure), (6, .active_failure)]).1 20

end rginx.proxy
