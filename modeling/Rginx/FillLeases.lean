-- The fill locks of the shared document as leases: processes acquire, update,
-- release and clear them in any order, and also publish operations. What a
-- process knows of its lock is what the store replied to it.
import Rginx.Leases
import Rginx.StoreCalls

open leases tree_maps rust_result

namespace rginx.cache

/-! ## Runs of the lock functions -/

/-- The calls that a run consists of. The time and the age are those of the run. -/
inductive LockCall (β : Type)
  | try_acquire (pid : Nat) (key nonce : String) (state_json : β)
  | update (key nonce : String) (state_json : β)
  | release (key nonce : String)
  | status (key : String)
  | clear_stale (key : String)
  | apply_operations (operations : List SharedIndexOperation)

def LockCall.call {β : Type} (now lock_age_ms : Nat) : LockCall β → StoreCall β
  | .try_acquire pid key nonce state_json =>
    .try_acquire_fill_lock pid key now lock_age_ms nonce state_json
  | .update key nonce state_json => .update_fill_lock key nonce now state_json
  | .release key nonce => .release_fill_lock key nonce
  | .status key => .fill_lock_status key now lock_age_ms
  | .clear_stale key => .clear_stale_fill_lock key now lock_age_ms
  | .apply_operations operations => .apply_operations operations

/-- What a call does to the lock of a key. -/
def LockCall.action {β : Type} (key : String) : LockCall β → Action String
  | .try_acquire _ acquired nonce _ => if acquired = key then .acquire nonce else .none
  | .update updated nonce _ => if updated = key then .update nonce else .none
  | .release released nonce => if released = key then .release nonce else .none
  | .clear_stale cleared => if cleared = key then .clear else .none
  | .status _ => .none
  | .apply_operations _ => .none

/-- The replies that tell a process that it has what it asked for. -/
def granted {β : Type} : StoreReply β → Bool
  | .acquire .Busy => false
  | _ => true

/-- A process that was told that the lock is busy, or that got an error, has nothing new. -/
def succeeded {β : Type} : IoResult (StoreReply β) → Bool
  | .ok reply => granted reply
  | .error _ => false

def SharedMemoryFillLockRecord.lease {β : Type} (record : SharedMemoryFillLockRecord β) :
    Lease String :=
  ⟨record.nonce, record.updated_at_unix_ms, record.released⟩

/-- One call, with the clock of a segment that it may create, and the error where it cannot open
the segment. -/
structure LockEvent (β : Type) where
  call : LockCall β
  now : Nat
  clock : Nat
  unopened : Option IoError

/-- The memory, the locks that processes were granted, and the latest time. -/
structure LockSystem (γ : Type) where
  memory : SharedMemory γ
  grants : String → List (Lease String)
  now : Nat

section Runs

variable {γ β : Type} (store : MemorySharedIndexStore γ β) (cache_key_hash : String → String)

/-- The locks that the memory holds. -/
def fill_locks (memory : SharedMemory γ) : Map (SharedMemoryFillLockRecord β) :=
  match memory with
  | .mapped segment =>
    match read_document store segment with
    | .ok document => document.fill_locks
    | .error _ => ∅
  | .missing | .mismatched => ∅

/-- The lock of a key. -/
def lock_lease (memory : SharedMemory γ) (key : String) : Option (Lease String) :=
  (fill_locks store memory)[key]?.map SharedMemoryFillLockRecord.lease

def LockSystem.run (lock_age_ms : Nat) (system : LockSystem γ) (event : LockEvent β) :
    SharedMemory γ × IoResult (StoreReply β) :=
  (event.call.call event.now lock_age_ms).run store cache_key_hash event.clock event.unopened
    system.memory

def LockSystem.after (lock_age_ms : Nat) (system : LockSystem γ) (event : LockEvent β) :
    LockSystem γ :=
  let (memory, result) := system.run store cache_key_hash lock_age_ms event
  { memory
    grants := fun key =>
      if succeeded result then observe event.now (system.grants key) (event.call.action key)
      else system.grants key
    now := event.now }

/-- The time does not go back, and a process that acquires a lock has a nonce of its own. -/
structure LockSystem.Allows (system : LockSystem γ) (event : LockEvent β) : Prop where
  time : system.now ≤ event.now
  fresh : ∀ key, Fresh (system.grants key) (event.call.action key)

/-- A memory that calls of the store have reached, with the locks that it holds as granted. -/
structure LockSystem.Started (system : LockSystem γ) : Prop where
  reached : ReachedMemory store cache_key_hash system.memory
  granted : ∀ key, system.grants key = (lock_lease store system.memory key).toList

inductive LockRuns (lock_age_ms : Nat) (start : LockSystem γ) : LockSystem γ → Prop
  | start : LockRuns lock_age_ms start start
  | step {system : LockSystem γ} {event : LockEvent β}
      (runs : LockRuns lock_age_ms start system) (allowed : system.Allows event) :
      LockRuns lock_age_ms start (system.after store cache_key_hash lock_age_ms event)

end Runs

/-! ## A call on the lock of a key -/

section Calls

variable {γ β : Type} {store : MemorySharedIndexStore γ β} {cache_key_hash : String → String}

/-- A busy lock is left as it is, and any other is replaced. -/
theorem try_acquire_cases {pid now lock_age_ms : Nat} {key nonce : String} {state_json : β}
    {document document' : SharedMemoryIndexDocument β} {reply : StoreReply β}
    (h : (StoreCall.try_acquire_fill_lock pid key now lock_age_ms nonce state_json).meaning store
      cache_key_hash document = .ok (document', reply)) :
    (∃ held, document.fill_locks[key]? = some held ∧ held.released = false ∧
      now - held.updated_at_unix_ms ≤ lock_age_ms ∧ document' = document ∧
      reply = .acquire .Busy) ∨
    (∀ held, document.fill_locks[key]? = some held →
      held.released = true ∨ lock_age_ms < now - held.updated_at_unix_ms) ∧
      document'.fill_locks = (document.fill_locks.erase key).insert key
        (acquired_record cache_key_hash document pid key now nonce state_json) ∧
      reply = .acquire .Acquired := by
  simp only [StoreCall.meaning] at h
  rcases hlock : document.fill_locks[key]? with _ | held
  · rw [hlock] at h
    obtain ⟨rfl, rfl⟩ := Prod.mk.inj (Except.ok.inj h)
    exact .inr ⟨nofun, rfl, rfl⟩
  · rw [hlock] at h
    dsimp only at h
    split at h
    · rename_i hreleased
      obtain ⟨rfl, rfl⟩ := Prod.mk.inj (Except.ok.inj h)
      refine .inr ⟨?_, rfl, rfl⟩
      rintro _ ⟨rfl⟩
      exact .inl hreleased
    · rename_i hreleased
      split at h
      · rename_i hlive
        obtain ⟨rfl, rfl⟩ := Prod.mk.inj (Except.ok.inj h)
        exact .inl ⟨held, rfl, Bool.eq_false_iff.mpr hreleased, hlive, rfl, rfl⟩
      · rename_i hstale
        obtain ⟨rfl, rfl⟩ := Prod.mk.inj (Except.ok.inj h)
        refine .inr ⟨?_, rfl, rfl⟩
        rintro _ ⟨rfl⟩
        exact .inr (not_le.mp hstale)

theorem update_cases {updated_at_unix_ms : Nat} {key nonce : String} {state_json : β}
    {document document' : SharedMemoryIndexDocument β} {reply : StoreReply β}
    (h : (StoreCall.update_fill_lock key nonce updated_at_unix_ms state_json).meaning store
      cache_key_hash document = .ok (document', reply)) :
    ∃ record, document.fill_locks[key]? = some record ∧ record.nonce = nonce ∧
      document'.fill_locks = document.fill_locks.insert key
        { record with updated_at_unix_ms, state_json } ∧
      reply = .done := by
  simp only [StoreCall.meaning] at h
  rcases hlock : document.fill_locks[key]? with _ | record
  · rw [hlock] at h
    cases h
  · rw [hlock] at h
    dsimp only at h
    split at h
    · cases h
    · rename_i hnonce
      obtain ⟨rfl, rfl⟩ := Prod.mk.inj (Except.ok.inj h)
      exact ⟨record, rfl, not_not.mp hnonce, rfl, rfl⟩

theorem release_cases {key nonce : String} {document document' : SharedMemoryIndexDocument β}
    {reply : StoreReply β}
    (h : (StoreCall.release_fill_lock key nonce).meaning store cache_key_hash document =
      .ok (document', reply)) :
    reply = .done ∧
    ((∀ record, document.fill_locks[key]? = some record → record.nonce ≠ nonce) ∧
      document' = document ∨
    ∃ record, document.fill_locks[key]? = some record ∧ record.nonce = nonce ∧
      document'.fill_locks = document.fill_locks.insert key { record with released := true }) := by
  simp only [StoreCall.meaning] at h
  rcases hlock : document.fill_locks[key]? with _ | record
  · rw [hlock] at h
    obtain ⟨rfl, rfl⟩ := Prod.mk.inj (Except.ok.inj h)
    exact ⟨rfl, .inl ⟨nofun, rfl⟩⟩
  · rw [hlock] at h
    dsimp only at h
    split at h
    · rename_i hnonce
      obtain ⟨rfl, rfl⟩ := Prod.mk.inj (Except.ok.inj h)
      refine ⟨rfl, .inl ⟨?_, rfl⟩⟩
      rintro _ ⟨rfl⟩
      exact hnonce
    · rename_i hnonce
      obtain ⟨rfl, rfl⟩ := Prod.mk.inj (Except.ok.inj h)
      exact ⟨rfl, .inr ⟨record, rfl, not_not.mp hnonce, rfl⟩⟩

/-- A live lock is left as it is, and any other is taken out. -/
theorem clear_stale_cases {now lock_age_ms : Nat} {key : String}
    {document document' : SharedMemoryIndexDocument β} {reply : StoreReply β}
    (h : (StoreCall.clear_stale_fill_lock key now lock_age_ms : StoreCall β).meaning store
      cache_key_hash document = .ok (document', reply)) :
    granted reply = true ∧
    ((∀ record, document.fill_locks[key]? = some record →
      record.released = false ∧ now - record.updated_at_unix_ms ≤ lock_age_ms) ∧
      document' = document ∨
    ∃ record, document.fill_locks[key]? = some record ∧
      (record.released = true ∨ lock_age_ms < now - record.updated_at_unix_ms) ∧
      document'.fill_locks = document.fill_locks.erase key) := by
  simp only [StoreCall.meaning] at h
  rcases hlock : document.fill_locks[key]? with _ | record
  · rw [hlock] at h
    obtain ⟨rfl, rfl⟩ := Prod.mk.inj (Except.ok.inj h)
    exact ⟨rfl, .inl ⟨nofun, rfl⟩⟩
  · rw [hlock] at h
    dsimp only at h
    split at h
    · rename_i hreleased
      obtain ⟨rfl, rfl⟩ := Prod.mk.inj (Except.ok.inj h)
      exact ⟨rfl, .inr ⟨record, rfl, .inl hreleased, rfl⟩⟩
    · rename_i hreleased
      split at h
      · rename_i hlive
        obtain ⟨rfl, rfl⟩ := Prod.mk.inj (Except.ok.inj h)
        refine ⟨rfl, .inl ⟨?_, rfl⟩⟩
        rintro _ ⟨rfl⟩
        exact ⟨Bool.eq_false_iff.mpr hreleased, hlive⟩
      · rename_i hstale
        obtain ⟨rfl, rfl⟩ := Prod.mk.inj (Except.ok.inj h)
        exact ⟨rfl, .inr ⟨record, rfl, .inr (not_le.mp hstale), rfl⟩⟩

/-- A call leaves the locks of the other keys. -/
theorem LockCall.meaning_other {now lock_age_ms : Nat} {call : LockCall β}
    {document document' : SharedMemoryIndexDocument β} {reply : StoreReply β}
    (h : (call.call now lock_age_ms).meaning store cache_key_hash document =
      .ok (document', reply)) {key : String} (hkey : call.action key = .none) :
    document'.fill_locks[key]? = document.fill_locks[key]? := by
  cases call with
  | try_acquire pid acquired nonce state_json =>
    have hne : acquired ≠ key := by
      rintro rfl
      simp [LockCall.action] at hkey
    obtain ⟨-, -, -, -, rfl, -⟩ | ⟨-, hlocks, -⟩ := try_acquire_cases h
    · rfl
    · simp [hlocks, getElem?_insert_eq, getElem?_erase_eq, hne]
  | update updated nonce state_json =>
    have hne : updated ≠ key := by
      rintro rfl
      simp [LockCall.action] at hkey
    obtain ⟨record, -, -, hlocks, -⟩ := update_cases h
    simp [hlocks, getElem?_insert_eq, hne]
  | release released nonce =>
    have hne : released ≠ key := by
      rintro rfl
      simp [LockCall.action] at hkey
    obtain ⟨-, ⟨-, rfl⟩ | ⟨record, -, -, hlocks⟩⟩ := release_cases h
    · rfl
    · simp [hlocks, getElem?_insert_eq, hne]
  | status asked =>
    obtain ⟨rfl, -⟩ := Prod.mk.inj (Except.ok.inj h)
    rfl
  | clear_stale cleared =>
    have hne : cleared ≠ key := by
      rintro rfl
      simp [LockCall.action] at hkey
    obtain ⟨-, ⟨-, rfl⟩ | ⟨-, -, -, hlocks⟩⟩ := clear_stale_cases h
    · rfl
    · simp [hlocks, getElem?_erase_eq, hne]
  | apply_operations operations =>
    obtain ⟨applied, happly, h⟩ := bind_eq_ok.mp h
    obtain ⟨rfl, -⟩ := Prod.mk.inj (Except.ok.inj h)
    rw [apply_operations_to_document_locks happly]

section Key

variable {now lock_age_ms : Nat} {document document' : SharedMemoryIndexDocument β}
  {reply : StoreReply β} {key : String}

theorem acquire_lease {pid : Nat} {nonce : String} {state_json : β}
    (h : ((LockCall.try_acquire pid key nonce state_json).call now lock_age_ms).meaning store
      cache_key_hash document = .ok (document', reply)) :
    leases.step lock_age_ms now
        (document.fill_locks[key]?.map SharedMemoryFillLockRecord.lease) (.acquire nonce) =
      (document'.fill_locks[key]?.map SharedMemoryFillLockRecord.lease, granted reply) := by
  obtain ⟨held, hlock, hreleased, hlive, rfl, rfl⟩ | ⟨hfree, hlocks, rfl⟩ := try_acquire_cases h
  · simp [leases.step, Lease.stale, SharedMemoryFillLockRecord.lease, hlock, hreleased, hlive,
      granted]
  · rcases hlock : document.fill_locks[key]? with _ | held
    · simp [leases.step, hlocks, acquired_record, SharedMemoryFillLockRecord.lease, granted]
    · rcases hfree held hlock with hreleased | hstale
      · simp [leases.step, hlocks, acquired_record, SharedMemoryFillLockRecord.lease, hreleased,
          granted]
      · simp [leases.step, Lease.stale, hlocks, acquired_record, SharedMemoryFillLockRecord.lease,
          hstale, granted]

theorem update_lease {nonce : String} {state_json : β}
    (h : ((LockCall.update key nonce state_json).call now lock_age_ms).meaning store
      cache_key_hash document = .ok (document', reply)) :
    leases.step lock_age_ms now
        (document.fill_locks[key]?.map SharedMemoryFillLockRecord.lease) (.update nonce) =
      (document'.fill_locks[key]?.map SharedMemoryFillLockRecord.lease, granted reply) := by
  obtain ⟨record, hlock, hnonce, hlocks, rfl⟩ := update_cases h
  simp [leases.step, SharedMemoryFillLockRecord.lease, hlock, hlocks, hnonce, granted]

theorem release_lease {nonce : String}
    (h : ((LockCall.release key nonce).call now lock_age_ms).meaning store
      cache_key_hash document = .ok (document', reply)) :
    leases.step lock_age_ms now
        (document.fill_locks[key]?.map SharedMemoryFillLockRecord.lease) (.release nonce) =
      (document'.fill_locks[key]?.map SharedMemoryFillLockRecord.lease, granted reply) := by
  obtain ⟨rfl, ⟨hother, rfl⟩ | ⟨record, hlock, hnonce, hlocks⟩⟩ := release_cases h
  · rcases hlock : document'.fill_locks[key]? with _ | record
    · simp [leases.step, granted]
    · simp [leases.step, SharedMemoryFillLockRecord.lease, hother record hlock, granted]
  · simp [leases.step, SharedMemoryFillLockRecord.lease, hlock, hlocks, hnonce, granted]

theorem clear_lease
    (h : ((LockCall.clear_stale key : LockCall β).call now lock_age_ms).meaning store
      cache_key_hash document = .ok (document', reply)) :
    leases.step lock_age_ms now
        (document.fill_locks[key]?.map SharedMemoryFillLockRecord.lease) .clear =
      (document'.fill_locks[key]?.map SharedMemoryFillLockRecord.lease, granted reply) := by
  obtain ⟨hgranted, ⟨hlive, rfl⟩ | ⟨record, hlock, hended, hlocks⟩⟩ := clear_stale_cases h
  · rcases hlock : document'.fill_locks[key]? with _ | record
    · simp [leases.step, hgranted]
    · obtain ⟨hreleased, hyoung⟩ := hlive record hlock
      simp [leases.step, Lease.stale, SharedMemoryFillLockRecord.lease, hreleased, hyoung,
        hgranted]
  · rcases hended with hreleased | hstale
    · simp [leases.step, SharedMemoryFillLockRecord.lease, hlock, hlocks, hreleased, hgranted]
    · simp [leases.step, Lease.stale, SharedMemoryFillLockRecord.lease, hlock, hlocks, hstale,
        hgranted]

/-- A call means for the lock of each key what its action does to the lease. -/
theorem LockCall.meaning_lease {call : LockCall β}
    (h : (call.call now lock_age_ms).meaning store cache_key_hash document =
      .ok (document', reply)) (key : String) :
    call.action key = .none ∧ document'.fill_locks[key]? = document.fill_locks[key]? ∨
      leases.step lock_age_ms now
          (document.fill_locks[key]?.map SharedMemoryFillLockRecord.lease) (call.action key) =
        (document'.fill_locks[key]?.map SharedMemoryFillLockRecord.lease, granted reply) := by
  by_cases hnone : call.action key = .none
  · exact .inl ⟨hnone, meaning_other h hnone⟩
  refine .inr ?_
  cases call with
  | try_acquire pid acquired nonce state_json =>
    obtain rfl : acquired = key := by
      by_contra hne
      exact hnone (if_neg hne)
    rw [LockCall.action, if_pos rfl]
    exact acquire_lease h
  | update updated nonce state_json =>
    obtain rfl : updated = key := by
      by_contra hne
      exact hnone (if_neg hne)
    rw [LockCall.action, if_pos rfl]
    exact update_lease h
  | release released nonce =>
    obtain rfl : released = key := by
      by_contra hne
      exact hnone (if_neg hne)
    rw [LockCall.action, if_pos rfl]
    exact release_lease h
  | clear_stale cleared =>
    obtain rfl : cleared = key := by
      by_contra hne
      exact hnone (if_neg hne)
    rw [LockCall.action, if_pos rfl]
    exact clear_lease h
  | status asked => exact absurd rfl hnone
  | apply_operations operations => exact absurd rfl hnone

end Key

theorem Keeps.fill_locks {segment : SharedMemorySegment γ}
    {document : SharedMemoryIndexDocument β} (h : Keeps store segment document) :
    fill_locks store (.mapped segment) = document.fill_locks := by
  simp [rginx.cache.fill_locks, h.read]

theorem fill_locks_settled {segment : SharedMemorySegment γ}
    {document : SharedMemoryIndexDocument β} (hkeeps : Keeps store segment document)
    {memory : SharedMemory γ} (hlocks : fill_locks store memory = document.fill_locks)
    {call : StoreCall β} {outcome : SharedMemory γ × IoResult (StoreReply β)}
    (h : Settles store segment (call.meaning store cache_key_hash document) outcome) :
    (∃ error, outcome.2 = .error error ∧
      fill_locks store outcome.1 = fill_locks store memory) ∨
    ∃ document document' reply, fill_locks store memory = document.fill_locks ∧
      call.meaning store cache_key_hash document = .ok (document', reply) ∧
      outcome.2 = .ok reply ∧ fill_locks store outcome.1 = document'.fill_locks := by
  obtain ⟨error, rfl, -⟩ | ⟨segment', document', reply, hmeaning, rfl, hkeeps', -⟩ := h
  · exact .inl ⟨error, rfl, hkeeps.fill_locks.trans hlocks.symm⟩
  · exact .inr ⟨document, document', reply, hlocks, hmeaning, rfl, hkeeps'.fill_locks⟩

/-- On a reached memory, a call fails and leaves the locks, or leaves those that it means. -/
theorem fill_locks_run {memory : SharedMemory γ}
    (hreached : ReachedMemory store cache_key_hash memory) (call : StoreCall β) (clock : Nat)
    (unopened : Option IoError) :
    (∃ error, (call.run store cache_key_hash clock unopened memory).2 = .error error ∧
      fill_locks store (call.run store cache_key_hash clock unopened memory).1 =
        fill_locks store memory) ∨
    ∃ document document' reply, fill_locks store memory = document.fill_locks ∧
      call.meaning store cache_key_hash document = .ok (document', reply) ∧
      (call.run store cache_key_hash clock unopened memory).2 = .ok reply ∧
      fill_locks store (call.run store cache_key_hash clock unopened memory).1 =
        document'.fill_locks := by
  cases unopened with
  | some error => exact .inl ⟨error, rfl, rfl⟩
  | none =>
    dsimp only [StoreCall.run]
    by_cases hmapped : ∃ segment, memory = .mapped segment
    · obtain ⟨segment, rfl⟩ := hmapped
      obtain ⟨document, hkeeps⟩ := hreached.keeps segment rfl
      exact fill_locks_settled hkeeps hkeeps.fill_locks
        (call.settles hkeeps clock cache_key_hash)
    · have hunmapped : ∀ segment, memory ≠ .mapped segment :=
        fun segment hsegment => hmapped ⟨segment, hsegment⟩
      have hempty : fill_locks store memory = ∅ := by
        cases memory with
        | missing => rfl
        | mismatched => rfl
        | mapped segment => exact absurd rfl (hunmapped segment)
      obtain ⟨segment, hkeeps, ⟨error, hopen, -⟩ | hopen⟩ :=
        open_or_create_cases store clock hunmapped
      · rw [call.run_locked_unopened store cache_key_hash clock hopen]
        exact .inl ⟨error, rfl, hkeeps.fill_locks.trans hempty.symm⟩
      · have hsame : open_or_create_segment store clock memory =
            open_or_create_segment store clock (.mapped segment) := hopen
        rw [call.run_locked_congr store cache_key_hash clock hsame]
        exact fill_locks_settled hkeeps hempty (call.settles hkeeps clock cache_key_hash)

end Calls

/-! ## The invariant -/

section Invariant

variable {γ β : Type} {store : MemorySharedIndexStore γ β} {cache_key_hash : String → String}
  {lock_age_ms : Nat}

variable (store cache_key_hash lock_age_ms) in
/-- The locks in the memory and what the processes know of them are in step, for every key. -/
structure LockSystem.Ok (system : LockSystem γ) : Prop where
  reached : ReachedMemory store cache_key_hash system.memory
  sound : ∀ key, Sound lock_age_ms system.now (lock_lease store system.memory key)
    (system.grants key)

theorem LockSystem.Started.ok {system : LockSystem γ}
    (h : system.Started store cache_key_hash) : system.Ok store cache_key_hash lock_age_ms := by
  refine ⟨h.reached, ?_⟩
  intro key
  rw [h.granted key]
  rcases lock_lease store system.memory key with _ | lease
  · exact ⟨List.nodup_nil, nofun, nofun⟩
  · refine ⟨List.nodup_singleton _, ?_, ?_⟩
    · intro held hheld
      obtain rfl := Option.some.inj hheld
      rfl
    · intro grant hgrant
      obtain rfl := List.mem_singleton.mp hgrant
      exact .inl rfl

/-- What a call does to the lock of a key: it fails and leaves it, it is about another key, or
it is the action of the lease. -/
theorem LockSystem.Ok.run_cases {system : LockSystem γ}
    (h : system.Ok store cache_key_hash lock_age_ms) (event : LockEvent β) (key : String) :
    let outcome := system.run store cache_key_hash lock_age_ms event
    (succeeded outcome.2 = false ∧
      lock_lease store outcome.1 key = lock_lease store system.memory key) ∨
    (event.call.action key = .none ∧
      lock_lease store outcome.1 key = lock_lease store system.memory key) ∨
    leases.step lock_age_ms event.now (lock_lease store system.memory key)
        (event.call.action key) =
      (lock_lease store outcome.1 key, succeeded outcome.2) := by
  dsimp only [LockSystem.run]
  obtain ⟨error, herror, hlocks⟩ | ⟨document, document', reply, hlocks, hmeaning, hreply, hlocks'⟩
    := fill_locks_run h.reached (event.call.call event.now lock_age_ms) event.clock event.unopened
  · refine .inl ⟨?_, ?_⟩
    · rw [herror]
      rfl
    · unfold lock_lease
      rw [hlocks]
  · unfold lock_lease
    rw [hreply, hlocks, hlocks']
    obtain ⟨hnone, hsame⟩ | hstep := LockCall.meaning_lease hmeaning key
    · rw [hsame]
      exact .inr (.inl ⟨hnone, rfl⟩)
    · exact .inr (.inr hstep)

/-- A call keeps the locks and what the processes know in step. -/
theorem LockSystem.Ok.after {system : LockSystem γ}
    (h : system.Ok store cache_key_hash lock_age_ms) {event : LockEvent β}
    (hallowed : system.Allows event) :
    (system.after store cache_key_hash lock_age_ms event).Ok store cache_key_hash
      lock_age_ms := by
  refine ⟨.call h.reached _ _ _, ?_⟩
  intro key
  have hsound := (h.sound key).later hallowed.time
  dsimp only [LockSystem.after]
  obtain ⟨hfailed, hsame⟩ | ⟨hnone, hsame⟩ | hstep := h.run_cases event key
  · rw [hfailed, hsame]
    exact hsound
  · rw [hnone, hsame]
    split
    · exact hsound
    · exact hsound
  · rcases hresult : succeeded (system.run store cache_key_hash lock_age_ms event).2 with _ | _
    · rw [hresult] at hstep
      have hleft := step_failed (congrArg Prod.snd hstep)
      rw [hstep] at hleft
      dsimp only at hleft
      rw [hleft]
      exact hsound
    · rw [hresult] at hstep
      have hnext := hsound.step (hallowed.fresh key) (congrArg Prod.snd hstep)
      rw [hstep] at hnext
      exact hnext

theorem LockRuns.ok {start system : LockSystem γ} (hstart : start.Started store cache_key_hash)
    (h : LockRuns store cache_key_hash lock_age_ms start system) :
    system.Ok store cache_key_hash lock_age_ms := by
  induction h with
  | start => exact hstart.ok
  | step _ hallowed ih => exact ih.after hallowed

/-! ## Mutual exclusion -/

/-- A call by a process that the lock was taken from leaves the lock, with all its fields. -/
theorem LockSystem.Ok.taken_over {system : LockSystem γ}
    (h : system.Ok store cache_key_hash lock_age_ms) {event : LockEvent β} {key nonce : String}
    (hcall : (∃ state_json, event.call = .update key nonce state_json) ∨
      event.call = .release key nonce)
    (htaken : nonce ∈ (system.grants key).tail.map Lease.nonce) :
    (fill_locks store (system.run store cache_key_hash lock_age_ms event).1)[key]? =
      (fill_locks store system.memory)[key]? := by
  have hother : ∀ record ∈ (fill_locks store system.memory)[key]?, record.nonce ≠ nonce := by
    rintro record hrecord rfl
    have hlease : lock_lease store system.memory key = some record.lease := by
      unfold lock_lease
      rw [Option.mem_def.mp hrecord]
      rfl
    have hsound := h.sound key
    rw [hlease] at hsound
    obtain ⟨rest, hgrants, hrest, -⟩ := hsound.cons
    rw [hgrants] at htaken
    obtain ⟨grant, hgrant, hnonce⟩ := List.mem_map.mp htaken
    exact hrest grant hgrant hnonce
  unfold LockSystem.run
  obtain ⟨error, -, hlocks⟩ | ⟨document, document', reply, hlocks, hmeaning, -, hlocks'⟩ :=
    fill_locks_run h.reached (event.call.call event.now lock_age_ms) event.clock event.unopened
  · rw [hlocks]
  · rw [hlocks] at hother
    rw [hlocks, hlocks']
    rcases hcall with ⟨state_json, hcall⟩ | hcall
    · rw [hcall] at hmeaning
      obtain ⟨record, hlock, hnonce, -, -⟩ := update_cases hmeaning
      exact absurd hnonce (hother record hlock)
    · rw [hcall] at hmeaning
      obtain ⟨-, ⟨-, rfl⟩ | ⟨record, hlock, hnonce, -⟩⟩ := release_cases hmeaning
      · rfl
      · exact absurd hnonce (hother record hlock)

/-- An acquisition comes after every earlier grant was released or ran out. -/
theorem LockSystem.Ok.acquired {system : LockSystem γ}
    (h : system.Ok store cache_key_hash lock_age_ms) {event : LockEvent β}
    (hallowed : system.Allows event) {pid : Nat} {key nonce : String} {state_json : β}
    (hcall : event.call = .try_acquire pid key nonce state_json)
    (hacquired : (system.run store cache_key_hash lock_age_ms event).2 =
      .ok (.acquire .Acquired)) (grant : Lease String) (hgrant : grant ∈ system.grants key) :
    grant.released = true ∨ lock_age_ms < event.now - grant.updated := by
  have haction : event.call.action key = .acquire nonce := by
    rw [hcall]
    exact if_pos rfl
  obtain ⟨hfailed, -⟩ | ⟨hnone, -⟩ | hstep := h.run_cases event key
  · rw [hacquired] at hfailed
    cases hfailed
  · rw [haction] at hnone
    cases hnone
  · rw [hacquired, haction] at hstep
    have hlost := ((h.sound key).later hallowed.time).acquire_lost (congrArg Prod.snd hstep) grant
      hgrant
    simpa [Lease.stale] using hlost

/-- The fill locks exclude each other. In every run of the lock functions and of publications, by
any processes in any order: at no time do two of them hold the lock of a key; one acquires it
only after every other has released it or has not updated it for longer than the age; and one
that it was taken from changes nothing in it any more. -/
theorem fill_locks_exclude (lock_age_ms : Nat) (start system : LockSystem γ)
    (hstart : start.Started store cache_key_hash)
    (hruns : LockRuns store cache_key_hash lock_age_ms start system) :
    (∀ key time, system.now ≤ time → ∀ grant ∈ system.grants key,
      ∀ grant' ∈ system.grants key, grant.Held lock_age_ms time → grant'.Held lock_age_ms time →
        grant = grant') ∧
    (∀ event, system.Allows event → ∀ pid key nonce state_json,
      event.call = .try_acquire pid key nonce state_json →
      (system.run store cache_key_hash lock_age_ms event).2 = .ok (.acquire .Acquired) →
        ∀ grant ∈ system.grants key,
          grant.released = true ∨ lock_age_ms < event.now - grant.updated) ∧
    ∀ event, system.Allows event → ∀ key nonce,
      (∃ state_json, event.call = .update key nonce state_json) ∨
        event.call = .release key nonce →
      nonce ∈ (system.grants key).tail.map Lease.nonce →
        (fill_locks store (system.run store cache_key_hash lock_age_ms event).1)[key]? =
          (fill_locks store system.memory)[key]? := by
  have hok := hruns.ok hstart
  refine ⟨?_, ?_, ?_⟩
  · intro key time htime grant hgrant grant' hgrant' hheld hheld'
    exact ((hok.sound key).later htime).exclusive hgrant hgrant' hheld hheld'
  · intro event hallowed pid key nonce state_json hcall hacquired grant hgrant
    exact hok.acquired hallowed hcall hacquired grant hgrant
  · intro event _ key nonce hcall htaken
    exact hok.taken_over hcall htaken

end Invariant

/-- No memory yet, and no process with a lock. -/
def noLocks : LockSystem (SharedMemoryIndexDocument PlainText) := ⟨.missing, fun _ => [], 0⟩

def lockText : PlainText := .inr ⟨.All, 0⟩

def acquireAt (nonce : String) (now : Nat) : LockEvent PlainText :=
  ⟨.try_acquire 1 "a" nonce lockText, now, 7, none⟩

def updateAt (nonce : String) (now : Nat) : LockEvent PlainText :=
  ⟨.update "a" nonce lockText, now, 7, none⟩

/-- The first process acquires the lock, and the second takes it over after the age of ten. -/
def takenOver : LockSystem (SharedMemoryIndexDocument PlainText) :=
  (noLocks.after plainStore id 10 (acquireAt "1" 0)).after plainStore id 10 (acquireAt "2" 11)

theorem acquireAt_allowed {system : LockSystem (SharedMemoryIndexDocument PlainText)}
    {nonce : String} {now : Nat} (htime : system.now ≤ now)
    (hfresh : ∀ grant ∈ system.grants "a", grant.nonce ≠ nonce) :
    system.Allows (acquireAt nonce now) := by
  refine ⟨htime, ?_⟩
  intro key
  by_cases hkey : "a" = key
  · subst hkey
    exact hfresh
  · have hnone : (acquireAt nonce now).call.action key = .none := if_neg hkey
    rw [hnone]
    trivial

theorem the_first_process_updates_too_late :
    takenOver.grants "a" = [⟨"2", 11, false⟩, ⟨"1", 0, false⟩] ∧
      (fill_locks plainStore (takenOver.run plainStore id 10 (updateAt "1" 12)).1)["a"]? =
        (fill_locks plainStore takenOver.memory)["a"]? := by
  have hgrants : takenOver.grants "a" = [⟨"2", 11, false⟩, ⟨"1", 0, false⟩] := by decide +kernel
  have hstart : noLocks.Started plainStore id := ⟨.missing, fun _ => rfl⟩
  have hruns : LockRuns plainStore id 10 noLocks takenOver :=
    .step (.step .start (acquireAt_allowed le_rfl nofun))
      (acquireAt_allowed (by decide) (by decide +kernel))
  obtain ⟨-, -, htaken⟩ := fill_locks_exclude 10 noLocks takenOver hstart hruns
  refine ⟨hgrants, ?_⟩
  have hallowed : takenOver.Allows (updateAt "1" 12) := by
    refine ⟨by decide, ?_⟩
    intro key
    by_cases hkey : "a" = key
    · subst hkey
      trivial
    · have hnone : (updateAt "1" 12).call.action key = .none := if_neg hkey
      rw [hnone]
      trivial
  exact htaken (updateAt "1" 12) hallowed "a" "1" (.inl ⟨lockText, rfl⟩) (by rw [hgrants]; decide)

end rginx.cache
