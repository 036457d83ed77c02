-- The times of the fill locks: the settings that `validate_route_cache` accepts, the age of a lock in
-- the milliseconds of `fill_lock_decision`, and the deadlines of `wait_for_external_fill_lock` and
-- `wait_for_memory_shared_fill_lock` (`cache/runtime/fill_lock.rs`).
import Rginx.FillLocks
import Rginx.ResultChains
import Rginx.RustTime

open rust_result rust_time

namespace rginx.cache

/-! ## Settings -/

/-- The fields of `CacheRouteConfig` for the locks. -/
structure CacheLockConfig where
  lock_timeout_secs : Option UInt64
  lock_age_secs : Option UInt64

/-- The checks of `validate_route_cache` on the locks. -/
def validate_cache_locks (route_scope : String) (cache : CacheLockConfig) : Except String Unit := do
  refuse_if (cache.lock_timeout_secs = some 0)
    s!"{route_scope} cache.lock_timeout_secs must be greater than 0"
  refuse_if (cache.lock_age_secs = some 0)
    s!"{route_scope} cache.lock_age_secs must be greater than 0"

def DEFAULT_CACHE_LOCK_TIMEOUT_SECS : UInt64 := 5

def DEFAULT_CACHE_LOCK_AGE_SECS : UInt64 := 5

def CacheLockConfig.timeout_secs (cache : CacheLockConfig) : UInt64 :=
  cache.lock_timeout_secs.getD DEFAULT_CACHE_LOCK_TIMEOUT_SECS

def CacheLockConfig.age_secs (cache : CacheLockConfig) : UInt64 :=
  cache.lock_age_secs.getD DEFAULT_CACHE_LOCK_AGE_SECS

/-- The durations of `compile_route_cache`. -/
def CacheLockConfig.lock_timeout (cache : CacheLockConfig) : Duration := .from_secs cache.timeout_secs

def CacheLockConfig.lock_age (cache : CacheLockConfig) : Duration := .from_secs cache.age_secs

/-- `lock_age.as_millis() as u64`. -/
def lock_age_ms (lock_age : Duration) : Nat := lock_age.as_millis % 2 ^ 64

/-! ## Waiting -/

/-- The loop of a wait: what each turn finds, and the time behind it. It has no result while the
turns go on. -/
def wait_until {P : Type} (deadline : Instant) (poll : P → Option Bool) (after : P → Instant) :
    List P → Option Bool
  | [] => none
  | turn :: turns =>
    match poll turn with
    | some released => some released
    | none =>
      if (after turn).is_after deadline then some false else wait_until deadline poll after turns

/-- A turn on the shared memory: the memory when its lock is read and when it is cleared. -/
structure MemoryTurn (γ : Type) where
  clock : Nat
  found : SharedMemory γ
  cleared : SharedMemory γ
  now : Nat
  after : Instant

/-- A turn on a lock file: when it was modified, if it is there and says so, and whether it can be
removed or is gone. -/
structure FileTurn where
  modified : Option (Option Nat)
  removed : Bool
  now : Nat
  after : Instant

inductive FileSharedFillLockState
  | Missing
  | Fresh
  | Stale
  deriving DecidableEq

def file_shared_fill_lock_state (lock_age : Duration) (turn : FileTurn) : FileSharedFillLockState :=
  match turn.modified with
  | none => .Missing
  | some none => .Fresh
  | some (some modified) => if lock_age_ms lock_age < turn.now - modified then .Stale else .Fresh

def file_poll (lock_age : Duration) (turn : FileTurn) : Option Bool :=
  match file_shared_fill_lock_state lock_age turn with
  | .Missing => some true
  | .Stale => if turn.removed then some true else none
  | .Fresh => none

section Memory

variable {γ β : Type} (store : MemorySharedIndexStore γ β)

def memory_poll (key : String) (lock_age : Duration) (turn : MemoryTurn γ) : Option Bool :=
  match (fill_lock_status store turn.clock turn.found key turn.now (lock_age_ms lock_age)).2 with
  | .ok .Missing => some true
  | .ok .Stale =>
    match (clear_stale_fill_lock store turn.clock turn.cleared key turn.now
      (lock_age_ms lock_age)).2 with
    | .ok true => some true
    | _ => none
  | .ok .Fresh => none
  | .error _ => some false

/-- Nothing stands for the panic of the sum. -/
def wait_for_memory_shared_fill_lock (key : String) (lock_timeout lock_age : Duration)
    (now : Instant) (turns : List (MemoryTurn γ)) : Option (Option Bool) :=
  (now.checked_add lock_timeout).map fun deadline =>
    wait_until deadline (memory_poll store key lock_age) MemoryTurn.after turns

/-- With the store of the zone, if it supports the locks. -/
def wait_for_external_fill_lock (shared_index_store : Option (MemorySharedIndexStore γ β))
    (key : String) (lock_timeout lock_age : Duration) (now : Instant)
    (memory_turns : List (MemoryTurn γ)) (file_turns : List FileTurn) : Option (Option Bool) :=
  match shared_index_store with
  | some store =>
    wait_for_memory_shared_fill_lock store key lock_timeout lock_age now memory_turns
  | none =>
    (now.checked_add lock_timeout).map fun deadline =>
      wait_until deadline (file_poll lock_age) FileTurn.after file_turns

end Memory

/-! ## Exact times -/

/-- The locks go by the times of the settings: a lock of the process is kept for its whole age and
no longer, the shared ones are given that age, and a wait gets its deadline. -/
structure LockTimesExact (cache : CacheLockConfig) (now : Instant) : Prop where
  millis : lock_age_ms cache.lock_age = cache.age_secs.toNat * 1000
  kept : ∀ (zone : FillZone) (key : String) (lock : CacheFillLockState) (time : Nat),
    zone.fill_locks[key]? = some lock →
    ((zone.live_lock key time cache.lock_age.as_millis).isSome ↔
      time - lock.acquired_at_unix_ms ≤ cache.age_secs.toNat * 1000)
  waits : ∀ {γ β : Type} (store : Option (MemorySharedIndexStore γ β)) (key : String)
    (memory_turns : List (MemoryTurn γ)) (file_turns : List FileTurn),
    (wait_for_external_fill_lock store key cache.lock_timeout cache.lock_age now memory_turns
      file_turns).isSome

theorem live_lock_isSome {zone : FillZone} {key : String} {lock : CacheFillLockState}
    (h : zone.fill_locks[key]? = some lock) (time lock_age : Nat) :
    (zone.live_lock key time lock_age).isSome ↔
      time - lock.acquired_at_unix_ms ≤ lock_age % 2 ^ 64 := by
  unfold FillZone.live_lock
  rw [h, Option.filter_some]
  split
  · rename_i hage
    exact ⟨fun _ => of_decide_eq_true hage, fun _ => rfl⟩
  · rename_i hage
    exact ⟨nofun, fun h => absurd (decide_eq_true h) hage⟩

theorem wait_isSome {γ β : Type} (store : Option (MemorySharedIndexStore γ β)) (key : String)
    (lock_timeout lock_age : Duration) (now : Instant) (memory_turns : List (MemoryTurn γ))
    (file_turns : List FileTurn) :
    (wait_for_external_fill_lock store key lock_timeout lock_age now memory_turns
      file_turns).isSome ↔ (now.checked_add lock_timeout).isSome := by
  cases store with
  | none => exact iff_of_eq (congrArg (· = true) Option.isSome_map)
  | some store => exact iff_of_eq (congrArg (· = true) Option.isSome_map)

/-- The accepted settings with exact times: the age fits into `u64` milliseconds, and the timeout into
the `i64` seconds that the clock has left. -/
theorem lock_times_exact_iff (route_scope : String) (cache : CacheLockConfig)
    (_ : validate_cache_locks route_scope cache = .ok ()) (now : Instant) :
    LockTimesExact cache now ↔
      cache.age_secs.toNat * 1000 < 2 ^ 64 ∧ now.secs + cache.timeout_secs.toNat < 2 ^ 63 := by
  have hage : cache.lock_age.as_millis = cache.age_secs.toNat * 1000 :=
    Duration.as_millis_from_secs cache.age_secs
  constructor
  · rintro ⟨hmillis, -, hwaits⟩
    constructor
    · rw [← hmillis]
      exact Nat.mod_lt _ (by decide)
    · have hwait := @hwaits Unit Unit none "" [] []
      rw [wait_isSome] at hwait
      exact (now.checked_add_secs_iff _).mp hwait
  · rintro ⟨hfits, hdeadline⟩
    refine ⟨?_, fun zone key lock time hlock => ?_, fun store key memory_turns file_turns => ?_⟩
    · unfold lock_age_ms
      rw [hage, Nat.mod_eq_of_lt hfits]
    · rw [live_lock_isSome hlock, hage, Nat.mod_eq_of_lt hfits]
    · rw [wait_isSome]
      exact (now.checked_add_secs_iff _).mpr hdeadline

/-- A timeout of two seconds, and an age of half a minute. -/
theorem lock_times_exact_iff_half_a_minute :
    validate_cache_locks "route" ⟨some 2, some 30⟩ = .ok () ∧
      ∃ now : Instant, now.secs = 1000 ∧ LockTimesExact ⟨some 2, some 30⟩ now :=
  ⟨rfl, ⟨1000, 0, by decide, by decide⟩, rfl,
    (lock_times_exact_iff "route" ⟨some 2, some 30⟩ rfl _).mpr ⟨by decide, by decide⟩⟩

/-- The first age that is cut off: half a second after it was taken, the lock goes to another
request. And the longest timeout has no deadline. -/
theorem long_lock_times_are_cut_off :
    validate_cache_locks "route" ⟨some 18446744073709551615, some 18446744073709552⟩ = .ok () ∧
      lock_age_ms (CacheLockConfig.lock_age ⟨none, some 18446744073709552⟩) = 384 ∧
      (FillZone.live_lock
        { mode := .Local
          fill_locks := (∅ : Map CacheFillLockState).insert "key" ⟨0, 1, "", none⟩ }
        "key" 500 (CacheLockConfig.lock_age ⟨none, some 18446744073709552⟩).as_millis).isNone ∧
      (wait_for_external_fill_lock (none : Option (MemorySharedIndexStore Unit Unit)) "key"
        (CacheLockConfig.lock_timeout ⟨some 18446744073709551615, none⟩)
        (CacheLockConfig.lock_age ⟨none, some 18446744073709552⟩)
        ⟨0, 0, by decide, by decide⟩ [] []).isNone := by
  have hage : (CacheLockConfig.lock_age ⟨none, some 18446744073709552⟩).as_millis =
      18446744073709552000 := Duration.as_millis_from_secs 18446744073709552
  refine ⟨rfl, ?_, ?_, rfl⟩
  · unfold lock_age_ms
    rw [hage]
    norm_num
  · rw [hage]
    simp [FillZone.live_lock]

end rginx.cache
