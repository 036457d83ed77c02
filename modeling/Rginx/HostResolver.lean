-- The addresses of a host, from `proxy/resolver/runtime.rs`: the cache of one host,
-- and the calls that read it, look the host up and write what they found. A call
-- holds the lock of the cache for one section at a time.
import Rginx.NetAddress
import Rginx.StepRuns

open rust_net

namespace rginx.proxy

/-! ## The answers -/

structure UpstreamDnsPolicy where
  min_ttl : Nat
  max_ttl : Nat
  negative_ttl : Nat
  stale_if_error : Nat
  refresh_before_expiry : Nat
  prefer_ipv4 : Bool
  prefer_ipv6 : Bool

structure CacheEntry where
  addresses : List IpAddr
  valid_until : Nat
  stale_until : Nat
  negative : Bool
  last_error : Option String
  deriving DecidableEq

def clamp_ttl (value min_ttl max_ttl : Nat) : Nat := min (max value min_ttl) max_ttl

def refresh_due (now valid_until refresh_before_expiry : Nat) : Bool :=
  decide (valid_until ≤ now) || decide (valid_until ≤ now + refresh_before_expiry)

def is_ipv4 : IpAddr → Bool
  | .V4 _ => true
  | .V6 _ => false

/-- The order of `IpAddr`: the V4 addresses come first. -/
def ip_le : IpAddr → IpAddr → Bool
  | .V4 bits, .V4 bits' => bits ≤ bits'
  | .V4 _, .V6 _ => true
  | .V6 _, .V4 _ => false
  | .V6 bits, .V6 bits' => bits ≤ bits'

def order_addresses (policy : UpstreamDnsPolicy) (addresses : List IpAddr) : List IpAddr :=
  if policy.prefer_ipv4 then
    addresses.mergeSort fun left right =>
      if is_ipv4 left = is_ipv4 right then ip_le left right else is_ipv4 left
  else if policy.prefer_ipv6 then
    addresses.mergeSort fun left right =>
      if is_ipv4 left = is_ipv4 right then ip_le left right else is_ipv4 right
  else addresses.mergeSort ip_le

theorem order_addresses_ne_nil (policy : UpstreamDnsPolicy) {addresses : List IpAddr}
    (h : addresses ≠ []) : order_addresses policy addresses ≠ [] := by
  intro hnil
  have hlength : (order_addresses policy addresses).length = addresses.length := by
    unfold order_addresses
    split
    · exact List.length_mergeSort _
    · split
      · exact List.length_mergeSort _
      · exact List.length_mergeSort _
  rw [hnil] at hlength
  exact h (List.length_eq_zero_iff.mp hlength.symm)

/-- An answer with addresses. -/
def CacheEntry.positive (entry : CacheEntry) : Bool := !entry.negative && !entry.addresses.isEmpty

/-! ## The calls -/

/-- Where a call of `resolve_host` stands, with the time that it has taken. -/
inductive CallPhase
  | started (now : Nat)
  | looking_up (now : Nat)
  | found (now : Nat) (addresses : List IpAddr) (ttl : Nat)
  | failed (now : Nat) (message : String)
  | store_negative_and_fail (message : String)
  | storing (now : Nat) (message : String)
  | returned (result : Except String (List IpAddr))

/-- The clock, the entry of the host, the calls, and the times of the negative answers that were
stored. -/
structure ResolverWorld where
  clock : Nat
  cache : Option CacheEntry
  calls : Nat → Option CallPhase
  negatives : List Nat

inductive ResolverEvent
  | tick (duration : Nat)
  | call (id : Nat)
  | check (id : Nat)
  | lookup (id : Nat) (result : Except String (List IpAddr × Nat))
  | insert (id : Nat)
  | check_stale (id : Nat)
  | take_now (id : Nat)
  | store_negative (id : Nat)

namespace ResolverWorld

variable (policy : UpstreamDnsPolicy) (host : String)

def start : ResolverWorld := ⟨0, none, fun _ => none, []⟩

def moved (world : ResolverWorld) (id : Nat) (phase : CallPhase) : ResolverWorld :=
  { world with calls := Function.update world.calls id (some phase) }

/-- The first section: a hit ends the call. -/
def check (world : ResolverWorld) (id now : Nat) : ResolverWorld :=
  match world.cache with
  | some entry =>
    if entry.positive && !refresh_due now entry.valid_until policy.refresh_before_expiry then
      world.moved id (.returned (.ok (order_addresses policy entry.addresses)))
    else world.moved id (.looking_up now)
  | none => world.moved id (.looking_up now)

/-- The section after a lookup with addresses. -/
def insert (world : ResolverWorld) (id now : Nat) (addresses : List IpAddr) (ttl : Nat) :
    ResolverWorld :=
  let ttl := clamp_ttl ttl policy.min_ttl policy.max_ttl
  let addresses := order_addresses policy addresses
  { world with cache := some ⟨addresses, now + ttl, now + ttl + policy.stale_if_error, false, none⟩ }
    |>.moved id (.returned (.ok addresses))

/-- The section after a lookup with an error: an answer that may be stale ends the call. -/
def check_stale (world : ResolverWorld) (id now : Nat) (message : String) : ResolverWorld :=
  match world.cache with
  | some entry =>
    if entry.positive && decide (now ≤ entry.stale_until) then
      { world with cache := some { entry with last_error := some message } }
        |>.moved id (.returned (.ok (order_addresses policy entry.addresses)))
    else world.moved id (.store_negative_and_fail message)
  | none => world.moved id (.store_negative_and_fail message)

/-- The section of `store_negative_and_fail`. -/
def store_negative (world : ResolverWorld) (id now : Nat) (message : String) : ResolverWorld :=
  { world with
    cache := some ⟨[], now + policy.negative_ttl, now + policy.negative_ttl, true, some message⟩
    negatives := now :: world.negatives }
    |>.moved id (.returned
      (.error s!"failed to resolve upstream hostname `{host}`: {message}"))

/-- An event that a call does not wait for changes nothing. -/
def step (world : ResolverWorld) : ResolverEvent → ResolverWorld
  | .tick duration => { world with clock := world.clock + duration }
  | .call id =>
    match world.calls id with
    | none => world.moved id (.started world.clock)
    | some _ => world
  | .check id =>
    match world.calls id with
    | some (.started now) => world.check policy id now
    | _ => world
  | .lookup id result =>
    match world.calls id with
    | some (.looking_up now) =>
      match result with
      | .ok (addresses, ttl) =>
        if addresses.isEmpty then
          world.moved id (.store_negative_and_fail "dns lookup returned no addresses")
        else world.moved id (.found now addresses ttl)
      | .error message => world.moved id (.failed now message)
    | _ => world
  | .insert id =>
    match world.calls id with
    | some (.found now addresses ttl) => world.insert policy id now addresses ttl
    | _ => world
  | .check_stale id =>
    match world.calls id with
    | some (.failed now message) => world.check_stale policy id now message
    | _ => world
  | .take_now id =>
    match world.calls id with
    | some (.store_negative_and_fail message) => world.moved id (.storing world.clock message)
    | _ => world
  | .store_negative id =>
    match world.calls id with
    | some (.storing now message) => world.store_negative policy host id now message
    | _ => world

/-- An answer that can still be served: its time is not over. -/
def Usable (world : ResolverWorld) (entry : CacheEntry) : Prop :=
  world.cache = some entry ∧ entry.positive = true ∧ world.clock ≤ entry.stale_until

/-- The cache has the same answer, whatever error was noted with it. -/
def Holds (world : ResolverWorld) (entry : CacheEntry) : Prop :=
  ∃ last_error, world.cache = some { entry with last_error }

/-- The call writes an answer with addresses. -/
def Replaces (world : ResolverWorld) (event : ResolverEvent) : Prop :=
  ∃ id now addresses ttl, event = .insert id ∧ world.calls id = some (.found now addresses ttl)

/-- The call that a lookup without an answer ends. -/
def Ends (world : ResolverWorld) (event : ResolverEvent) (id : Nat) : Prop :=
  (event = .check_stale id ∧ ∃ now message, world.calls id = some (.failed now message)) ∨
    (event = .store_negative id ∧ ∃ now message, world.calls id = some (.storing now message))

/-- A usable answer stays in the cache until another one takes its place, and is what a call
returns whose lookup gave none. -/
def KeepsAnswer (world : ResolverWorld) (event : ResolverEvent) : Prop :=
  ∀ entry, world.Usable entry →
    ((world.step policy host event).Holds entry ∨ world.Replaces event) ∧
    ∀ id result, world.Ends event id →
      (world.step policy host event).calls id = some (.returned result) →
        ∃ addresses, result = .ok addresses ∧ addresses ≠ []

/-- A negative answer is only written when there is no usable answer. -/
def NegativeInPlace (world : ResolverWorld) (event : ResolverEvent) : Prop :=
  ∀ id now message, event = .store_negative id → world.calls id = some (.storing now message) →
    ∀ entry, ¬ world.Usable entry

/-- While a negative answer is valid, the call starts no lookup. -/
def WaitsForNegative (world : ResolverWorld) (event : ResolverEvent) : Prop :=
  ∀ id now stored, event = .check id → world.calls id = some (.started now) →
    stored ∈ world.negatives → world.clock < stored + policy.negative_ttl →
      ∀ started, (world.step policy host event).calls id ≠ some (.looking_up started)

/-- An answer with addresses that a call of that time need not refresh. -/
def Fresh (world : ResolverWorld) (now : Nat) (entry : CacheEntry) : Prop :=
  world.cache = some entry ∧ entry.positive = true ∧
    refresh_due now entry.valid_until policy.refresh_before_expiry = false

/-- While a negative answer is valid, a call finds an answer that is fresh. -/
def FindsFresh (world : ResolverWorld) (event : ResolverEvent) : Prop :=
  ∀ id now stored, event = .check id → world.calls id = some (.started now) →
    stored ∈ world.negatives → world.clock < stored + policy.negative_ttl →
      ∃ entry, world.Fresh policy now entry

/-- A fresh answer is what the call returns. -/
def ServesFresh (world : ResolverWorld) (event : ResolverEvent) : Prop :=
  ∀ id now entry, event = .check id → world.calls id = some (.started now) →
    world.Fresh policy world.clock entry →
      (world.step policy host event).calls id =
        some (.returned (.ok (order_addresses policy entry.addresses)))

/-- The times that the calls have taken are over. -/
structure Ok (world : ResolverWorld) : Prop where
  started : ∀ id now, world.calls id = some (.started now) → now ≤ world.clock
  failed : ∀ id now message, world.calls id = some (.failed now message) → now ≤ world.clock
  looking_up : ∀ id now, world.calls id = some (.looking_up now) → now ≤ world.clock

end ResolverWorld

section Resolver

variable {policy : UpstreamDnsPolicy} {host : String} {world : ResolverWorld}

open ResolverWorld

/-- How the calls look after one of them has moved. -/
theorem calls_moved (world : ResolverWorld) (id other : Nat) (phase : CallPhase) :
    (world.moved id phase).calls other = if other = id then some phase else world.calls other := by
  unfold ResolverWorld.moved
  dsimp only
  by_cases h : other = id
  · subst h
    rw [Function.update_self, if_pos rfl]
  · rw [Function.update_of_ne h, if_neg h]

theorem ResolverWorld.Ok.moved (h : world.Ok) {world' : ResolverWorld} (id : Nat) {phase : CallPhase}
    (hclock : world'.clock = world.clock) (hcalls : world'.calls = world.calls)
    (hphase : ∀ now message, phase = .started now ∨ phase = .failed now message ∨
      phase = .looking_up now → now ≤ world.clock) : (world'.moved id phase).Ok := by
  have hclock' : (world'.moved id phase).clock = world.clock := hclock
  refine ⟨?_, ?_, ?_⟩
  · intro other now hother
    rw [calls_moved, hcalls] at hother
    rw [hclock']
    split at hother
    · exact hphase now "" (.inl (Option.some.inj hother))
    · exact h.started other now hother
  · intro other now message hother
    rw [calls_moved, hcalls] at hother
    rw [hclock']
    split at hother
    · exact hphase now message (.inr (.inl (Option.some.inj hother)))
    · exact h.failed other now message hother
  · intro other now hother
    rw [calls_moved, hcalls] at hother
    rw [hclock']
    split at hother
    · exact hphase now "" (.inr (.inr (Option.some.inj hother)))
    · exact h.looking_up other now hother

theorem ResolverWorld.Ok.step (h : world.Ok) (event : ResolverEvent) :
    (world.step policy host event).Ok := by
  cases event with
  | tick duration =>
    refine ⟨?_, ?_, ?_⟩
    · exact fun id now hid => (h.started id now hid).trans (Nat.le_add_right _ _)
    · exact fun id now message hid => (h.failed id now message hid).trans (Nat.le_add_right _ _)
    · exact fun id now hid => (h.looking_up id now hid).trans (Nat.le_add_right _ _)
  | call id =>
    unfold ResolverWorld.step
    dsimp only
    split
    · exact h.moved id rfl rfl (by simp)
    · exact h
  | check id =>
    unfold ResolverWorld.step
    dsimp only
    split
    · rename_i now hid
      have hlooking : ∀ now' message, CallPhase.looking_up now = .started now' ∨
          CallPhase.looking_up now = .failed now' message ∨
          CallPhase.looking_up now = .looking_up now' → now' ≤ world.clock := by
        simpa using h.started id now hid
      unfold ResolverWorld.check
      split
      · split
        · exact h.moved id rfl rfl (by simp)
        · exact h.moved id rfl rfl hlooking
      · exact h.moved id rfl rfl hlooking
    · exact h
  | lookup id result =>
    unfold ResolverWorld.step
    dsimp only
    split
    · rename_i now hid
      split
      · split
        · exact h.moved id rfl rfl (by simp)
        · exact h.moved id rfl rfl (by simp)
      · exact h.moved id rfl rfl (by simpa using h.looking_up id now hid)
    · exact h
  | insert id =>
    unfold ResolverWorld.step
    dsimp only
    split
    · exact h.moved id rfl rfl (by simp)
    · exact h
  | check_stale id =>
    unfold ResolverWorld.step
    dsimp only
    split
    · unfold ResolverWorld.check_stale
      split
      · split
        · exact h.moved id rfl rfl (by simp)
        · exact h.moved id rfl rfl (by simp)
      · exact h.moved id rfl rfl (by simp)
    · exact h
  | take_now id =>
    unfold ResolverWorld.step
    dsimp only
    split
    · exact h.moved id rfl rfl (by simp)
    · exact h
  | store_negative id =>
    unfold ResolverWorld.step
    dsimp only
    split
    · exact h.moved id rfl rfl (by simp)
    · exact h

theorem ResolverWorld.start_ok : ResolverWorld.start.Ok := ⟨nofun, nofun, nofun⟩

/-! ## A usable answer -/

/-- The sections that write the cache are three. -/
theorem step_cache (event : ResolverEvent) (hinsert : ∀ id, event ≠ .insert id)
    (hstale : ∀ id, event ≠ .check_stale id) (hnegative : ∀ id, event ≠ .store_negative id) :
    (world.step policy host event).cache = world.cache := by
  cases event with
  | tick duration => rfl
  | call id =>
    unfold ResolverWorld.step
    dsimp only
    split <;> rfl
  | check id =>
    unfold ResolverWorld.step ResolverWorld.check
    dsimp only
    split
    · split
      · split <;> rfl
      · rfl
    · rfl
  | lookup id result =>
    unfold ResolverWorld.step
    dsimp only
    split
    · split
      · split <;> rfl
      · rfl
    · rfl
  | insert id => exact absurd rfl (hinsert id)
  | check_stale id => exact absurd rfl (hstale id)
  | take_now id =>
    unfold ResolverWorld.step
    dsimp only
    split <;> rfl
  | store_negative id => exact absurd rfl (hnegative id)

/-- A usable answer is found by the section that a failed lookup comes to. -/
theorem check_stale_of_usable (h : world.Ok) {entry : CacheEntry} (husable : world.Usable entry)
    {id now : Nat} {message : String} (hid : world.calls id = some (.failed now message)) :
    world.check_stale policy id now message =
      ResolverWorld.moved { world with cache := some { entry with last_error := some message } } id
        (.returned (.ok (order_addresses policy entry.addresses))) := by
  obtain ⟨hcache, hpositive, hclock⟩ := husable
  have hnow : now ≤ entry.stale_until := (h.failed id now message hid).trans hclock
  unfold ResolverWorld.check_stale
  rw [hcache]
  dsimp only
  rw [if_pos (by simp [hpositive, hnow])]

theorem step_check_stale {id now : Nat} {message : String}
    (hid : world.calls id = some (.failed now message)) :
    world.step policy host (.check_stale id) = world.check_stale policy id now message := by
  unfold ResolverWorld.step
  dsimp only
  rw [hid]

theorem step_store_negative {id now : Nat} {message : String}
    (hid : world.calls id = some (.storing now message)) :
    world.step policy host (.store_negative id) =
      world.store_negative policy host id now message := by
  unfold ResolverWorld.step
  dsimp only
  rw [hid]

/-- A section that no call has come to is none. -/
theorem step_idle {event : ResolverEvent} {id : Nat}
    (hevent : event = .insert id ∧ (∀ now addresses ttl,
        world.calls id ≠ some (.found now addresses ttl)) ∨
      event = .check_stale id ∧ (∀ now message, world.calls id ≠ some (.failed now message)) ∨
      event = .store_negative id ∧ ∀ now message, world.calls id ≠ some (.storing now message)) :
    world.step policy host event = world := by
  rcases hevent with ⟨rfl, hidle⟩ | ⟨rfl, hidle⟩ | ⟨rfl, hidle⟩
  · unfold ResolverWorld.step
    dsimp only
    split
    · rename_i hid
      exact absurd hid (hidle _ _ _)
    · rfl
  · unfold ResolverWorld.step
    dsimp only
    split
    · rename_i hid
      exact absurd hid (hidle _ _)
    · rfl
  · unfold ResolverWorld.step
    dsimp only
    split
    · rename_i hid
      exact absurd hid (hidle _ _)
    · rfl

/-- A step that leaves the cache, and ends no call whose lookup failed, keeps a usable answer. -/
theorem keeps_of_same {event : ResolverEvent}
    (hcache : (world.step policy host event).cache = world.cache)
    (hends : ∀ id, ¬ world.Ends event id) : world.KeepsAnswer policy host event :=
  fun entry husable => ⟨.inl ⟨entry.last_error, hcache.trans husable.1⟩,
    fun id _ hend => absurd hend (hends id)⟩

theorem keeps_check_stale (h : world.Ok) (id : Nat) :
    world.KeepsAnswer policy host (.check_stale id) := by
  by_cases hphase : ∃ now message, world.calls id = some (.failed now message)
  · obtain ⟨now, message, hid⟩ := hphase
    intro entry husable
    rw [step_check_stale hid, check_stale_of_usable h husable hid]
    refine ⟨.inl ⟨some message, rfl⟩, ?_⟩
    rintro other result (⟨hother, -⟩ | ⟨hother, -⟩) hreturned
    · obtain rfl := ResolverEvent.check_stale.inj hother
      rw [calls_moved, if_pos rfl] at hreturned
      refine ⟨order_addresses policy entry.addresses, ?_, ?_⟩
      · exact (CallPhase.returned.inj (Option.some.inj hreturned)).symm
      · refine order_addresses_ne_nil policy ?_
        intro hnil
        have hpositive := husable.2.1
        simp [CacheEntry.positive, hnil] at hpositive
    · cases hother
  · simp only [not_exists] at hphase
    have hidle : world.step policy host (.check_stale id) = world :=
      step_idle (.inr (.inl ⟨rfl, hphase⟩))
    refine keeps_of_same (by rw [hidle]) ?_
    rintro other (⟨hother, now, message, hid⟩ | ⟨hother, -⟩)
    · obtain rfl := ResolverEvent.check_stale.inj hother
      exact hphase now message hid
    · cases hother

theorem keeps_store_negative {id : Nat} (hplace : world.NegativeInPlace (.store_negative id)) :
    world.KeepsAnswer policy host (.store_negative id) := by
  by_cases hphase : ∃ now message, world.calls id = some (.storing now message)
  · obtain ⟨now, message, hid⟩ := hphase
    exact fun entry husable => absurd husable (hplace id now message rfl hid entry)
  · simp only [not_exists] at hphase
    have hidle : world.step policy host (.store_negative id) = world :=
      step_idle (.inr (.inr ⟨rfl, hphase⟩))
    refine keeps_of_same (by rw [hidle]) ?_
    rintro other (⟨hother, -⟩ | ⟨hother, now, message, hid⟩)
    · cases hother
    · obtain rfl := ResolverEvent.store_negative.inj hother
      exact hphase now message hid

theorem keeps_insert (id : Nat) : world.KeepsAnswer policy host (.insert id) := by
  by_cases hphase : ∃ now addresses ttl, world.calls id = some (.found now addresses ttl)
  · obtain ⟨now, addresses, ttl, hid⟩ := hphase
    intro entry _
    refine ⟨.inr ⟨id, now, addresses, ttl, rfl, hid⟩, ?_⟩
    rintro other result (⟨hother, -⟩ | ⟨hother, -⟩)
    · cases hother
    · cases hother
  · simp only [not_exists] at hphase
    have hidle : world.step policy host (.insert id) = world := step_idle (.inl ⟨rfl, hphase⟩)
    refine keeps_of_same (by rw [hidle]) ?_
    rintro other (⟨hother, -⟩ | ⟨hother, -⟩)
    · cases hother
    · cases hother

/-- A step keeps the usable answer exactly when it is no negative answer in its place. -/
theorem keeps_answer_iff (h : world.Ok) (event : ResolverEvent) :
    world.KeepsAnswer policy host event ↔ world.NegativeInPlace event := by
  constructor
  · rintro hkeeps id now message rfl hid entry husable
    have hreturned : (world.step policy host (.store_negative id)).calls id = some (.returned
        (.error s!"failed to resolve upstream hostname `{host}`: {message}")) := by
      rw [step_store_negative hid, ResolverWorld.store_negative, calls_moved, if_pos rfl]
    obtain ⟨addresses, hok, -⟩ := (hkeeps entry husable).2 id _
      (.inr ⟨rfl, now, message, hid⟩) hreturned
    cases hok
  · intro hplace
    by_cases hinsert : ∃ id, event = .insert id
    · obtain ⟨id, rfl⟩ := hinsert
      exact keeps_insert id
    by_cases hstale : ∃ id, event = .check_stale id
    · obtain ⟨id, rfl⟩ := hstale
      exact keeps_check_stale h id
    by_cases hnegative : ∃ id, event = .store_negative id
    · obtain ⟨id, rfl⟩ := hnegative
      exact keeps_store_negative hplace
    simp only [not_exists] at hinsert hstale hnegative
    refine keeps_of_same (step_cache event hinsert hstale hnegative) ?_
    rintro id (⟨hevent, -⟩ | ⟨hevent, -⟩)
    · exact hstale id hevent
    · exact hnegative id hevent

/-- A failed lookup leaves a usable answer, and serves it, at every step of a run if and only if no
negative answer is written while the cache holds a usable one. -/
theorem a_usable_answer_is_kept_iff (policy : UpstreamDnsPolicy) (host : String)
    (events : List ResolverEvent) :
    step_runs.Along (ResolverWorld.step policy host) (ResolverWorld.KeepsAnswer policy host)
        ResolverWorld.start events ↔
      step_runs.Along (ResolverWorld.step policy host) ResolverWorld.NegativeInPlace
        ResolverWorld.start events := by
  have hstep : ∀ (world : ResolverWorld) (event : ResolverEvent), world.Ok →
      (world.step policy host event).Ok := fun _ event h => h.step event
  have hiff : ∀ (world : ResolverWorld) (event : ResolverEvent), world.Ok →
      (world.KeepsAnswer policy host event ↔ world.NegativeInPlace event) :=
    fun _ event h => keeps_answer_iff h event
  exact step_runs.along_iff hstep hiff start_ok events

/-- The policy of an upstream that sets none, in seconds. -/
def defaultPolicy : UpstreamDnsPolicy := ⟨5, 300, 30, 60, 10, false, false⟩

/-- Two calls look the host up at once: one of them fails, and comes to the cache before the answer
of the other. -/
def failsBeside : List ResolverEvent :=
  [.call 0, .call 1, .check 0, .check 1, .lookup 0 (.error "timed out"), .check_stale 0,
    .lookup 1 (.ok ([.V4 0x0a000001], 60)), .insert 1, .take_now 0]

/-- The failure of the first call takes the place of the answer that the second one has found. -/
theorem a_failure_replaces_an_answer :
    ¬ ∀ events, step_runs.Along (ResolverWorld.step defaultPolicy "backend")
      (ResolverWorld.KeepsAnswer defaultPolicy "backend") ResolverWorld.start events := by
  intro h
  have hkeeps := (h (failsBeside ++ [.store_negative 0])).at_event
  have husable : (step_runs.after (ResolverWorld.step defaultPolicy "backend")
      ResolverWorld.start failsBeside).Usable ⟨[.V4 0x0a000001], 60, 120, false, none⟩ :=
    ⟨by decide +kernel, rfl, by decide +kernel⟩
  obtain ⟨addresses, herror, -⟩ := (hkeeps _ husable).2 0 _
    (.inr ⟨rfl, 0, "timed out", rfl⟩) rfl
  cases herror

/-! ## Lookups that are not started -/

theorem step_check {id now : Nat} (hid : world.calls id = some (.started now)) :
    world.step policy host (.check id) = world.check policy id now := by
  unfold ResolverWorld.step
  dsimp only
  rw [hid]

/-- The first section of a call, which the negative answers have no part in. -/
theorem check_fresh {id now : Nat} {entry : CacheEntry} (hfresh : world.Fresh policy now entry) :
    (world.check policy id now).calls id =
      some (.returned (.ok (order_addresses policy entry.addresses))) := by
  obtain ⟨hcache, hpositive, hdue⟩ := hfresh
  unfold ResolverWorld.check
  rw [hcache]
  dsimp only
  rw [if_pos (by simp [hpositive, hdue]), calls_moved, if_pos rfl]

theorem check_due {id now : Nat} (hdue : ∀ entry, ¬ world.Fresh policy now entry) :
    (world.check policy id now).calls id = some (.looking_up now) := by
  unfold ResolverWorld.check
  split
  · rename_i entry hcache
    split
    · rename_i hfresh
      rw [Bool.and_eq_true, Bool.not_eq_true'] at hfresh
      exact absurd ⟨hcache, hfresh⟩ (hdue entry)
    · rw [calls_moved, if_pos rfl]
  · rw [calls_moved, if_pos rfl]

/-- An answer that is not due later was not due before. -/
theorem Fresh.earlier {now later : Nat} {entry : CacheEntry}
    (hfresh : world.Fresh policy later entry) (h : now ≤ later) :
    world.Fresh policy now entry := by
  refine ⟨hfresh.1, hfresh.2.1, ?_⟩
  have hdue := hfresh.2.2
  simp only [refresh_due, Bool.or_eq_false_iff, decide_eq_false_iff_not, not_le] at hdue ⊢
  omega

theorem waits_for_negative_iff (event : ResolverEvent) :
    world.WaitsForNegative policy host event ↔ world.FindsFresh policy event := by
  constructor
  · rintro hwaits id now stored rfl hid hstored hvalid
    by_contra hnone
    rw [not_exists] at hnone
    refine hwaits id now stored rfl hid hstored hvalid now ?_
    rw [step_check hid, check_due hnone]
  · rintro hfinds id now stored rfl hid hstored hvalid started hlooking
    obtain ⟨entry, hfresh⟩ := hfinds id now stored rfl hid hstored hvalid
    rw [step_check hid, check_fresh hfresh] at hlooking
    cases hlooking

theorem serves_fresh (h : world.Ok) (event : ResolverEvent) :
    world.ServesFresh policy host event := by
  rintro id now entry rfl hid hfresh
  rw [step_check hid, check_fresh (Fresh.earlier hfresh (h.started id now hid))]

/-- No lookup is started while a negative answer is valid if and only if every call that comes to
the cache in that time finds an answer with addresses that is not due; and such an answer is
returned without a lookup in every run. -/
theorem negative_answers_hold_iff (policy : UpstreamDnsPolicy) (host : String)
    (events : List ResolverEvent) :
    (step_runs.Along (ResolverWorld.step policy host) (ResolverWorld.WaitsForNegative policy host)
        ResolverWorld.start events ↔
      step_runs.Along (ResolverWorld.step policy host) (ResolverWorld.FindsFresh policy)
        ResolverWorld.start events) ∧
    step_runs.Along (ResolverWorld.step policy host) (ResolverWorld.ServesFresh policy host)
      ResolverWorld.start events := by
  have hstep : ∀ (world : ResolverWorld) (event : ResolverEvent), world.Ok →
      (world.step policy host event).Ok := fun _ event h => h.step event
  have hiff : ∀ (world : ResolverWorld) (event : ResolverEvent), world.Ok →
      (world.WaitsForNegative policy host event ↔ world.FindsFresh policy event) :=
    fun _ event _ => waits_for_negative_iff event
  have hserves : ∀ (world : ResolverWorld) (event : ResolverEvent), world.Ok →
      world.ServesFresh policy host event := fun _ event h => serves_fresh h event
  exact ⟨step_runs.along_iff hstep hiff start_ok events,
    step_runs.along_of_invariant hstep hserves start_ok events⟩

/-- The call that comes after a failed one looks the host up again. -/
theorem a_failure_is_looked_up_again :
    ¬ ∀ events, step_runs.Along (ResolverWorld.step defaultPolicy "backend")
      (ResolverWorld.WaitsForNegative defaultPolicy "backend") ResolverWorld.start events := by
  intro h
  have hwaits := (h ([.call 0, .check 0, .lookup 0 (.error "timed out"), .check_stale 0, .take_now 0,
    .store_negative 0, .tick 1, .call 1] ++ [.check 1])).at_event
  exact hwaits 1 1 0 rfl rfl List.mem_cons_self (by decide) 1 rfl

end Resolver

end rginx.proxy
