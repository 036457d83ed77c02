-- Who reads a fill in progress: in every run of the processes of a zone, the
-- request that acquired the lock behind a shared fill has the fingerprint of
-- its reader, except where an older entry of the key stands between them.
import Rginx.FillInvariant
import Rginx.IndexRuns

open tree_maps

namespace rginx.cache

/-! ## Runs of the processes of a zone -/

/-- The processes of a zone by their ids, and what they share. -/
structure FillWorld (γ : Type) where
  zones : Nat → FillZone
  shared : SharedFills γ

/-- No process has a lock yet, and there are no files. -/
def FillWorld.start {γ : Type} (mode : SharedFillMode) : FillWorld γ :=
  ⟨fun _ => { mode }, ⟨.missing, ∅, ∅⟩⟩

/-- A step of a process on the fills, or on the shared document under them. -/
inductive FillCall
  | lookup (pid : Nat) (io : FillIo) (hot_entries : HotEntries) (index : CacheIndex)
      (request : CacheRequest) (base_key : String) (now : Nat)
      (request_forces_revalidation : Bool) (policy : RouteCachePolicy)
  | attach (pid : Nat) (io : FillIo) (generation : Nat) (state : CacheFillReadState)
  | update (pid : Nat) (io : FillIo) (generation : Nat) (change : SharedFillUpdate)
  | drop (pid : Nat) (io : FillIo) (generation : Nat)
  | clear_stale (clock : Nat) (key : String) (now lock_age_ms : Nat)
  | remove_lock_file (key : String)
  | publish (clock : Nat) (operations : List SharedIndexOperation)
  | rebuild (clock : Nat) (index : CacheIndex) (generation : Nat)

section Runs

variable {γ β : Type} (env : FillEnv γ β)

/-- A process has made a step. -/
def FillWorld.set (world : FillWorld γ) (pid : Nat) (result : SharedFills γ × FillZone) :
    FillWorld γ :=
  ⟨Function.update world.zones pid result.2, result.1⟩

/-- The shared memory has changed. -/
def FillWorld.set_memory (world : FillWorld γ) (memory : SharedMemory γ) : FillWorld γ :=
  { world with shared := { world.shared with memory } }

def FillCall.run (world : FillWorld γ) : FillCall → FillWorld γ
  | .lookup pid io hot_entries index request base_key now request_forces_revalidation policy =>
    let result := lookup_decision env io world.shared (world.zones pid) hot_entries index pid
      request base_key now request_forces_revalidation policy
    world.set pid (result.shared, result.zone)
  | .attach pid io generation state =>
    world.set pid (attach_fill_read_state env io world.shared (world.zones pid) generation state)
  | .update pid io generation change =>
    world.set pid (update_fill env io world.shared (world.zones pid) generation change)
  | .drop pid io generation =>
    world.set pid (drop_guard env io world.shared (world.zones pid) generation)
  | .clear_stale clock key now lock_age_ms =>
    world.set_memory (clear_stale_fill_lock env.store clock world.shared.memory key now
      lock_age_ms).1
  | .remove_lock_file key =>
    { world with
      shared := { world.shared with
        lock_files := world.shared.lock_files.erase (env.cache_key_hash key) } }
  | .publish clock operations =>
    world.set_memory (apply_operations env.store clock world.shared.memory operations).1
  | .rebuild clock index generation =>
    world.set_memory (recreate env.store clock world.shared.memory index generation).1

def runFills (world : FillWorld γ) (calls : List FillCall) : FillWorld γ :=
  calls.foldl (FillCall.run env) world

end Runs

/-! ## The invariant of a run -/

section Invariant

variable {γ β : Type} {env : FillEnv γ β}

/-- A fill of one of the processes has this record. -/
def FillWorld.Known (world : FillWorld γ) (state : SharedFillStateRecord) : Prop :=
  ∃ pid request, (world.zones pid).Acquired state.nonce state.share_fingerprint request

variable (env) in
structure FillWorld.Ok (world : FillWorld γ) : Prop where
  zones : ∀ pid, ZoneOk pid (world.zones pid)
  records : SharedRecords env world.Known world.shared

theorem FillWorld.start_ok (mode : SharedFillMode) :
    (FillWorld.start mode : FillWorld γ).Ok env where
  zones := by
    intro pid
    refine ⟨?_, ?_, ?_, ?_⟩
    · intro key lock hlock
      simp [FillWorld.start] at hlock
    all_goals
      intro generation fill
      simp [FillWorld.start]
  records := by
    refine ⟨?_, ?_⟩
    · intro segment hsegment
      cases hsegment
    · intro path state hstate
      simp [FillWorld.start] at hstate

theorem FillWorld.handle_records (world : FillWorld γ) (pid : Nat) :
    HandleRecords world.Known (world.zones pid) := by
  intro generation fill handle hfill hhandle update
  refine ⟨pid, fill.request, generation, fill, handle, hfill, hhandle, ?_, ?_, rfl⟩
  · exact (update.apply_nonce handle.state).symm
  · exact (update.apply_share_fingerprint handle.state).symm

/-- A step of one process that keeps its own invariant and the records of all. -/
theorem FillWorld.Ok.set {world : FillWorld γ} (h : world.Ok env) {pid : Nat}
    {result : SharedFills γ × FillZone}
    (hresult : ZoneOk pid result.2 ∧ (world.zones pid).Extends result.2 ∧
      SharedRecords env world.Known result.1) : (world.set pid result).Ok env where
  zones := by
    intro pid'
    by_cases hpid : pid' = pid
    · subst hpid
      simpa [FillWorld.set] using hresult.1
    · simpa [FillWorld.set, Function.update_of_ne hpid] using h.zones pid'
  records := by
    apply hresult.2.2.mono
    rintro state ⟨pid', request, hacquired⟩
    refine ⟨pid', request, ?_⟩
    by_cases hpid : pid' = pid
    · subst hpid
      simpa [FillWorld.set] using hresult.2.1.acquired hacquired
    · simpa [FillWorld.set, Function.update_of_ne hpid] using hacquired

theorem FillWorld.Ok.set_memory {world : FillWorld γ} (h : world.Ok env)
    {memory : SharedMemory γ} (hmemory : MemoryRecords env world.Known memory) :
    (world.set_memory memory).Ok env :=
  ⟨h.zones, hmemory, h.records.2⟩

theorem lookup_decision_keeps {P : SharedFillStateRecord → Prop} {pid : Nat} {zone : FillZone}
    (hzone : ZoneOk pid zone) {shared : SharedFills γ} (hshared : SharedRecords env P shared)
    (io : FillIo) (hot_entries : HotEntries) (index : CacheIndex) (request : CacheRequest)
    (base_key : String) (now : Nat) (request_forces_revalidation : Bool)
    (policy : RouteCachePolicy) :
    let result := lookup_decision env io shared zone hot_entries index pid request base_key now
      request_forces_revalidation policy
    ZoneOk pid result.zone ∧ zone.Extends result.zone ∧ SharedRecords env P result.shared := by
  intro result
  have hsame : ZoneOk pid zone ∧ zone.Extends zone ∧ SharedRecords env P shared :=
    ⟨hzone, FillZone.Extends.refl zone, hshared⟩
  rcases lookup_decision_cases env io shared zone hot_entries index pid request base_key now
      request_forces_revalidation policy result rfl with
    ⟨_, _, _, -, -, hr⟩ | ⟨_, _, -, -, hr⟩ | ⟨_, _, -, -, -, -, -, hr⟩ |
    ⟨key, _, -, lock, hlock, -⟩ | ⟨-, lock, hlock, -⟩
  · rw [hr]
    exact hsame
  · rw [hr]
    exact hsame
  · rw [hr]
    exact hsame
  · have hkeeps := fill_lock_decision_keeps hzone hshared io request key now policy.lock_age none
      (by simp)
    rw [hlock] at hkeeps
    exact hkeeps
  · have hkeeps := fill_lock_decision_keeps hzone hshared io request base_key now policy.lock_age
      (some (fill_share_fingerprint request)) (by simp)
    rw [hlock] at hkeeps
    exact hkeeps

theorem FillCall.run_ok {world : FillWorld γ} (h : world.Ok env) (call : FillCall) :
    (call.run env world).Ok env := by
  cases call with
  | lookup pid io hot_entries index request base_key now request_forces_revalidation policy =>
    apply h.set
    exact lookup_decision_keeps (h.zones pid) h.records io hot_entries index request base_key now
      request_forces_revalidation policy
  | attach pid io generation state =>
    exact h.set (attach_fill_read_state_keeps (h.zones pid) h.records (world.handle_records pid) io
      generation state)
  | update pid io generation change =>
    exact h.set (update_fill_keeps (h.zones pid) h.records (world.handle_records pid) io generation
      change)
  | drop pid io generation =>
    exact h.set (drop_guard_keeps (h.zones pid) h.records io generation)
  | clear_stale clock key now lock_age_ms =>
    exact h.set_memory (clear_stale_fill_lock_records h.records.1 clock key now lock_age_ms)
  | remove_lock_file key => exact ⟨h.zones, h.records⟩
  | publish clock operations =>
    exact h.set_memory (apply_operations_records h.records.1 clock operations)
  | rebuild clock index generation =>
    exact h.set_memory (recreate_records h.records.1 clock index generation)

theorem runFills_ok {world : FillWorld γ} (h : world.Ok env) (calls : List FillCall) :
    (runFills env world calls).Ok env := by
  induction calls generalizing world with
  | nil => exact h
  | cons call calls ih => exact ih (FillCall.run_ok h call)

end Invariant

/-! ## The request behind a fill -/

/-- Where the fill that a request reads is: in the process, or under a nonce between them. -/
inductive FillSource
  | Local (state : Nat)
  | Shared (nonce : String)
  deriving DecidableEq, Repr

def FillLockDecision.fill_source : FillLockDecision → Option FillSource
  | .ReadLocal state => some (.Local state)
  | .ReadExternal state => some (.Shared state.source.nonce)
  | _ => none

/-- The fill that a lookup gives its request to read. -/
def LookupDecision.fill_source : LookupDecision → Option FillSource
  | .ReadWhileFillLocal state => some (.Local state)
  | .ReadWhileFillExternal state => some (.Shared state.source.nonce)
  | _ => none

section Reading

variable {γ β : Type} {env : FillEnv γ β}

/-- The request acquired the lock of the fill that a process reads. -/
def FillWorld.Behind (world : FillWorld γ) (pid : Nat) : FillSource → CacheRequest → Prop
  | .Local state, request => ∃ fill, (world.zones pid).fills state = some fill ∧
      fill.request = request
  | .Shared nonce, request => ∃ owner share_fingerprint,
      (world.zones owner).Acquired nonce share_fingerprint request

/-- One request is behind a fill. -/
theorem FillWorld.Ok.behind_unique {world : FillWorld γ} (h : world.Ok env) {pid : Nat}
    {source : FillSource} {request request' : CacheRequest}
    (hbehind : world.Behind pid source request) (hbehind' : world.Behind pid source request') :
    request = request' := by
  cases source with
  | Local state =>
    obtain ⟨fill, hfill, rfl⟩ := hbehind
    obtain ⟨fill', hfill', rfl⟩ := hbehind'
    rw [hfill] at hfill'
    obtain rfl := Option.some.inj hfill'
    rfl
  | Shared nonce =>
    obtain ⟨owner, _, generation, fill, handle, hfill, hhandle, hnonce, -, rfl⟩ := hbehind
    obtain ⟨owner', _, generation', fill', handle', hfill', hhandle', hnonce', -, rfl⟩ := hbehind'
    obtain ⟨-, now, counter, hmade, -⟩ := (h.zones owner).handles generation fill handle hfill hhandle
    obtain ⟨-, now', counter', hmade', -⟩ :=
      (h.zones owner').handles generation' fill' handle' hfill' hhandle'
    have hsame : handle.state.nonce = handle'.state.nonce := hnonce.trans hnonce'.symm
    -- The nonce names the process, and the process has one fill for it.
    obtain ⟨rfl, -⟩ := next_shared_fill_nonce_inj (hmade.symm.trans (hsame.trans hmade'))
    obtain rfl := (h.zones owner).unique generation fill handle generation' fill' handle' hfill
      hhandle hfill' hhandle' hsame
    rw [hfill] at hfill'
    obtain rfl := Option.some.inj hfill'
    rfl

/-- A record that a process reads has a request behind it, whose fingerprint it carries or
leaves out. -/
theorem FillWorld.Ok.behind_record {world : FillWorld γ} (h : world.Ok env) (pid : Nat)
    {state : SharedFillStateRecord} (hknown : world.Known state) :
    ∃ request, world.Behind pid (.Shared state.nonce) request ∧
      Fits state.share_fingerprint request := by
  obtain ⟨owner, request, hacquired⟩ := hknown
  refine ⟨request, ⟨owner, state.share_fingerprint, hacquired⟩, ?_⟩
  obtain ⟨generation, fill, handle, hfill, hhandle, -, hfingerprint, rfl⟩ := hacquired
  rw [← hfingerprint]
  exact ((h.zones owner).handles generation fill handle hfill hhandle).1

/-! ## The fills that are open to readers -/

variable (env) in
/-- The lock of a key in the shared memory, while another process holds it. -/
def held_lock (shared : SharedFills γ) (key : String) (now lock_age_ms : Nat) :
    Option (SharedMemoryFillLockRecord β) :=
  match shared.memory with
  | .mapped segment =>
    match read_document env.store segment with
    | .ok document => document.fill_locks[key]?.filter fun record =>
        !record.released && now - record.updated_at_unix_ms ≤ lock_age_ms
    | .error _ => none
  | _ => none

variable (env) in
/-- The fill of a key that a request with this fingerprint reads, from the state before it asks:
the read state of the live lock of its process, else what the lock that the processes share leads
to. -/
def open_fill (io : FillIo) (shared : SharedFills γ) (zone : FillZone) (key : String)
    (now lock_age : Nat) (share_fingerprint : Option String) : Option FillSource :=
  match zone.live_lock key now lock_age with
  | some lock =>
    if share_fingerprint.all (lock.share_fingerprint = ·) then
      (zone.shareable_reader lock).map .Local
    else none
  | none =>
    match zone.mode with
    | .Local => none
    | .Memory =>
      (held_lock env shared key now (lock_age % 2 ^ 64)).bind fun record =>
        match env.states.from_slice record.state_json with
        | .ok state =>
          (external_fill_state record.nonce state share_fingerprint
            (.SharedMemory key record.nonce)).map fun read => .Shared read.source.nonce
        | .error _ => none
    | .Files =>
      if (try_acquire_file_shared_fill_lock env io shared key (lock_age % 2 ^ 64)).isSome then none
      else
        (load_file_external_fill_state env shared key share_fingerprint).map
          fun read => .Shared read.source.nonce

theorem held_lock_some {shared : SharedFills γ} {key : String} {now lock_age_ms : Nat}
    {record : SharedMemoryFillLockRecord β}
    (h : held_lock env shared key now lock_age_ms = some record) :
    ∃ segment document, shared.memory = .mapped segment ∧
      read_document env.store segment = .ok document ∧
      document.fill_locks[key]? = some record ∧ record.released = false ∧
      now - record.updated_at_unix_ms ≤ lock_age_ms := by
  unfold held_lock at h
  split at h
  · rename_i segment hsegment
    split at h
    · rename_i document hread
      obtain ⟨hrecord, hheld⟩ := Option.filter_eq_some_iff.mp h
      simp only [Bool.and_eq_true, Bool.not_eq_true', decide_eq_true_eq] at hheld
      exact ⟨segment, document, hsegment, hread, hrecord, hheld.1, hheld.2⟩
    · cases h
  · cases h

/-- The lock of another process is busy, and stays as it is. -/
theorem create_shared_memory_of_held {shared : SharedFills γ} {key : String}
    {now lock_age_ms : Nat} {record : SharedMemoryFillLockRecord β}
    (h : held_lock env shared key now lock_age_ms = some record) (io : FillIo) (pid counter : Nat)
    (share_fingerprint : Option String) :
    create_shared_memory env io shared pid counter key now lock_age_ms share_fingerprint =
      (shared, .ok none) := by
  obtain ⟨segment, document, hsegment, hread, hrecord, hreleased, hage⟩ := held_lock_some h
  obtain ⟨text, htext⟩ := env.starts (next_shared_fill_nonce now pid counter) share_fingerprint
  obtain ⟨memory, lock_files, state_files⟩ := shared
  obtain rfl : memory = .mapped segment := hsegment
  simp [create_shared_memory, htext, try_acquire_fill_lock, with_document_lock,
    open_or_create_segment, hread, hrecord, hreleased, hage, Except.map]

/-- A lock that no other process holds is not busy. -/
theorem create_shared_memory_of_free {shared : SharedFills γ} {key : String}
    {now lock_age_ms : Nat} (h : held_lock env shared key now lock_age_ms = none) (io : FillIo)
    (pid counter : Nat) (share_fingerprint : Option String) :
    (create_shared_memory env io shared pid counter key now lock_age_ms share_fingerprint).2 ≠
      .ok none := by
  obtain ⟨text, htext⟩ := env.starts (next_shared_fill_nonce now pid counter) share_fingerprint
  have hacquire : (try_acquire_fill_lock env.store env.cache_key_hash io.clock shared.memory pid
      key now lock_age_ms (next_shared_fill_nonce now pid counter) text).2 ≠ .ok .Busy := by
    have hwritten : ∀ written : IoResult Unit,
        written.map (fun _ => SharedFillLockAcquire.Acquired) ≠ .ok .Busy := by
      intro written
      cases written <;> simp [Except.map]
    unfold try_acquire_fill_lock with_document_lock
    rcases ho : open_or_create_segment env.store io.clock shared.memory with
      ⟨opened, error | segment⟩
    · simp
    · dsimp only
      rcases hread : read_document env.store segment with error | document
      · simp
      · dsimp only
        rcases hrecord : document.fill_locks[key]? with _ | record
        · exact hwritten _
        · dsimp only
          -- A segment that was just made has no locks, so this one was there.
          have hmapped : shared.memory = .mapped segment := by
            rcases hm : shared.memory with _ | _ | segment'
            case mapped =>
              rw [hm] at ho
              obtain ⟨-, ho⟩ := Prod.mk.inj ho
              rw [Except.ok.inj ho]
            all_goals
              have hnone : MemoryLocks env.store (fun locks => locks = ∅) shared.memory := by
                rw [hm]
                rintro _ ⟨⟩
              have hnew := (open_or_create_segment_locks hnone rfl io.clock).2 segment
                (by rw [ho]) document hread
              rw [hnew] at hrecord
              simp at hrecord
          split
          · exact hwritten _
          · rename_i hreleased
            split
            · rename_i hage
              simp only [held_lock, hmapped, hread, hrecord] at h
              simp [hreleased] at h
              omega
            · exact hwritten _
  intro hnone
  apply hacquire
  simp only [create_shared_memory, SharedFillStateRecord.start] at hnone htext
  rw [htext] at hnone
  dsimp only at hnone
  rcases hr : (try_acquire_fill_lock env.store env.cache_key_hash io.clock shared.memory pid
      key now lock_age_ms (next_shared_fill_nonce now pid counter) text).2 with error | acquired
  · rw [hr] at hnone
    cases hnone
  · rw [hr] at hnone
    cases acquired with
    | Acquired => cases hnone
    | Busy => rfl

theorem load_memory_of_held {shared : SharedFills γ} {key : String}
    {now lock_age_ms : Nat} {record : SharedMemoryFillLockRecord β}
    (h : held_lock env shared key now lock_age_ms = some record) (io : FillIo)
    (share_fingerprint : Option String) :
    load_memory_external_fill_state env io shared key share_fingerprint =
      (shared, match env.states.from_slice record.state_json with
        | .ok state => external_fill_state record.nonce state share_fingerprint
            (.SharedMemory key record.nonce)
        | .error _ => none) := by
  obtain ⟨segment, document, hsegment, hread, hrecord, -, -⟩ := held_lock_some h
  obtain ⟨memory, lock_files, state_files⟩ := shared
  obtain rfl : memory = .mapped segment := hsegment
  rcases hstate : env.states.from_slice record.state_json with error | state
  · simp only [load_memory_external_fill_state, load_fill_lock, with_document_lock,
      open_or_create_segment, hread, hrecord, hstate, Option.map_some]
  · simp only [load_memory_external_fill_state, load_fill_lock, with_document_lock,
      open_or_create_segment, hread, hrecord, hstate, Option.map_some]

variable (env) in
/-- A request that cannot have the lock of a key reads the fill that is open to it. -/
theorem fill_lock_decision_source (io : FillIo) (shared : SharedFills γ) (zone : FillZone)
    (pid : Nat) (request : CacheRequest) (key : String) (now lock_age : Nat)
    (share_fingerprint : Option String) :
    (fill_lock_decision env io shared zone pid request key now lock_age
      share_fingerprint).2.1.fill_source =
        open_fill env io shared zone key now lock_age share_fingerprint := by
  unfold fill_lock_decision open_fill
  rcases zone.live_lock key now lock_age with _ | lock
  · dsimp only
    unfold external_lock_decision
    rcases zone.mode with _ | _ | _
    · rfl
    · dsimp only
      rcases hheld : held_lock env shared key now (lock_age % 2 ^ 64) with _ | record
      · have hfree := create_shared_memory_of_free hheld io pid zone.shared_fill_counter
          share_fingerprint
        rcases hcreate : create_shared_memory env io shared pid zone.shared_fill_counter key now
          (lock_age % 2 ^ 64) share_fingerprint with ⟨shared', error | _ | handle⟩
        · rfl
        · rw [hcreate] at hfree
          exact absurd rfl hfree
        · rfl
      · rw [create_shared_memory_of_held hheld]
        dsimp only [Option.bind_some]
        rw [load_memory_of_held hheld]
        rcases env.states.from_slice record.state_json with error | state
        · rfl
        · dsimp only
          rcases external_fill_state record.nonce state share_fingerprint
            (.SharedMemory key record.nonce) with _ | read <;> rfl
    · dsimp only
      rcases try_acquire_file_shared_fill_lock env io shared key (lock_age % 2 ^ 64)
        with _ | shared'
      · rcases load_file_external_fill_state env shared key share_fingerprint
          with _ | read <;> rfl
      · dsimp only [Option.isSome_some, ↓reduceIte]
        rcases create_file env io shared' pid zone.shared_fill_counter key now share_fingerprint
          with ⟨shared'', _ | handle⟩ <;> rfl
  · dsimp only
    split
    · rcases zone.shareable_reader lock with _ | state <;> rfl
    · rfl

/-- A fill that is open to a request has a request behind it, of the fingerprint that was asked
for. -/
theorem FillWorld.Ok.open_fill_behind {world : FillWorld γ} (h : world.Ok env) (io : FillIo)
    (pid : Nat) (key : String) (now lock_age : Nat) (share_fingerprint : Option String)
    {source : FillSource}
    (hsource : open_fill env io world.shared (world.zones pid) key now lock_age
      share_fingerprint = some source) :
    ∃ acquirer, world.Behind pid source acquirer ∧
      ∀ text, share_fingerprint = some text → Fits text acquirer := by
  -- A record that is read under a lock was written by one of the processes.
  have hread : ∀ nonce state external read, (state.response.isSome → world.Known state) →
      external_fill_state nonce state share_fingerprint external = some read →
      external.nonce = nonce →
      ∃ acquirer, world.Behind pid (.Shared read.source.nonce) acquirer ∧
        ∀ text, share_fingerprint = some text → Fits text acquirer := by
    intro nonce state external read hknown hstate hexternal
    obtain ⟨-, hnonce, hresponse, hsame, hfingerprint⟩ := external_fill_state_some hstate
    obtain ⟨acquirer, hbehind, hfits⟩ := h.behind_record pid (hknown hresponse)
    refine ⟨acquirer, ?_, fun text htext => hfingerprint text htext ▸ hfits⟩
    rw [hsame, hexternal, ← hnonce]
    exact hbehind
  unfold open_fill at hsource
  split at hsource
  · rename_i lock hlive
    split at hsource
    · rename_i hfingerprint
      obtain ⟨state, hreader, rfl⟩ := Option.map_eq_some_iff.mp hsource
      have hlock := (Option.filter_eq_some_iff.mp hlive).1
      obtain ⟨hgeneration, fill, hfill, hfits⟩ := (h.zones pid).locks key lock hlock
      obtain rfl := hgeneration state (Option.filter_eq_some_iff.mp hreader).1
      refine ⟨fill.request, ⟨fill, hfill, rfl⟩, ?_⟩
      rintro text rfl
      rw [Option.all_some, decide_eq_true_eq] at hfingerprint
      exact hfingerprint ▸ hfits
    · cases hsource
  · split at hsource
    · cases hsource
    · obtain ⟨record, hheld, hsource⟩ := Option.bind_eq_some_iff.mp hsource
      obtain ⟨segment, document, hsegment, hdocument, hrecord, -, -⟩ := held_lock_some hheld
      split at hsource
      · rename_i state hstate
        obtain ⟨read, hexternal, rfl⟩ := Option.map_eq_some_iff.mp hsource
        exact hread _ state _ read (h.records.1 segment hsegment document hdocument key record
          hrecord state hstate) hexternal rfl
      · cases hsource
    · split at hsource
      · cases hsource
      · obtain ⟨read, hload, rfl⟩ := Option.map_eq_some_iff.mp hsource
        simp only [load_file_external_fill_state, Option.bind_eq_bind,
          Option.bind_eq_some_iff] at hload
        obtain ⟨file, -, lock, -, state, hstate, hexternal⟩ := hload
        exact hread _ state _ read (h.records.2 _ state hstate) hexternal rfl

end Reading

/-! ## The law -/

/-- An entry that goes to the lock of its key is decided on there. -/
theorem lookup_decision_of_needs_fill {γ β : Type} {env : FillEnv γ β} {io : FillIo}
    {shared : SharedFills γ} {zone : FillZone} {hot_entries : HotEntries} {index : CacheIndex}
    {pid : Nat} {request : CacheRequest} {base_key : String} {now : Nat}
    {request_forces_revalidation : Bool} {policy : RouteCachePolicy} {key : String}
    {entry : CacheIndexEntry}
    (h : NeedsFill index request base_key now request_forces_revalidation key entry) :
    (lookup_decision env io shared zone hot_entries index pid request base_key now
      request_forces_revalidation policy).decision =
      entry_decision policy key entry now request_forces_revalidation
        (fill_lock_decision env io shared zone pid request key now policy.lock_age none).2.1 := by
  have hno : (decide (lifecycle_phase entry now = .Fresh) && !entry.requires_revalidation &&
      !request_forces_revalidation) = false := by
    rw [Bool.eq_false_iff]
    simpa [lifecycle_phase_eq_fresh, and_assoc] using h.no_hit
  simp [lookup_decision, h.found, h.response, h.alive, hno]

/-- A stale answer reads no fill. -/
theorem entry_decision_source (policy : RouteCachePolicy) (key : String) (entry : CacheIndexEntry)
    (now : Nat) (request_forces_revalidation : Bool) (lock : FillLockDecision) :
    (entry_decision policy key entry now request_forces_revalidation lock).fill_source =
      if entry.expires_at_unix_ms < now ∧
          stale_allowed_for_entry policy entry now request_forces_revalidation = true then none
      else lock.fill_source := by
  unfold entry_decision
  by_cases hstale : entry.expires_at_unix_ms < now ∧
      stale_allowed_for_entry policy entry now request_forces_revalidation = true
  · rw [if_pos hstale]
    rcases lock with guard | state | state | waiter | external
    · simp only [hstale, decide_true, Bool.and_self, Bool.true_and, ↓reduceIte]
      split <;> rfl
    all_goals simp [hstale, LookupDecision.fill_source]
  · rw [if_neg hstale]
    have hno : (decide (entry.expires_at_unix_ms < now) &&
        stale_allowed_for_entry policy entry now request_forces_revalidation) = false := by
      rw [Bool.eq_false_iff]
      simpa using hstale
    rcases lock with guard | state | state | waiter | external
    all_goals simp [hno, LookupDecision.fill_source, FillLockDecision.fill_source]

theorem missing_decision_source (base_key : String) (lock : FillLockDecision) :
    (missing_decision base_key lock).fill_source = lock.fill_source := by
  rcases lock with guard | state | state | waiter | external <;> rfl

/-- In every run, a lookup gives its request a fill of an equivalent request, exactly when this
holds of the fill that stands open, before the lookup, under the key of an entry that is neither
served nor dropped. Without such an entry it always does. -/
theorem a_fill_is_shared_between_equivalent_requests {γ β : Type} (env : FillEnv γ β)
    (mode : SharedFillMode) (calls : List FillCall) (pid : Nat) (io : FillIo)
    (hot_entries : HotEntries) (index : CacheIndex) (request : CacheRequest) (base_key : String)
    (now : Nat) (request_forces_revalidation : Bool) (policy : RouteCachePolicy) :
    let world := runFills env (FillWorld.start mode) calls
    let decision := (lookup_decision env io world.shared (world.zones pid) hot_entries index pid
      request base_key now request_forces_revalidation policy).decision
    (∀ source, decision.fill_source = some source →
      (∃ acquirer, world.Behind pid source acquirer) ∧
      ∀ acquirer, world.Behind pid source acquirer →
        fill_share_fingerprint acquirer = fill_share_fingerprint request) ↔
    (∀ key entry, NeedsFill index request base_key now request_forces_revalidation key entry →
      ¬(entry.expires_at_unix_ms < now ∧
        stale_allowed_for_entry policy entry now request_forces_revalidation = true) →
      ∀ source acquirer, open_fill env io world.shared (world.zones pid) key now policy.lock_age
        none = some source → world.Behind pid source acquirer →
        fill_share_fingerprint acquirer = fill_share_fingerprint request) := by
  intro world decision
  have hok : world.Ok env := runFills_ok (FillWorld.start_ok mode) calls
  refine ⟨?_, ?_⟩
  · intro hshares key entry hneeds hserved source acquirer hopen
    refine (hshares source ?_).2 acquirer
    have hdecision : decision = entry_decision policy key entry now request_forces_revalidation
        (fill_lock_decision env io world.shared (world.zones pid) pid request key now
          policy.lock_age none).2.1 := lookup_decision_of_needs_fill hneeds
    rw [hdecision, entry_decision_source, if_neg hserved, fill_lock_decision_source]
    exact hopen
  · intro hentries source hsource
    rcases lookup_decision_cases env io world.shared (world.zones pid) hot_entries index pid
        request base_key now request_forces_revalidation policy _ rfl with
      ⟨_, _, _, -, -, hr⟩ | ⟨_, _, -, -, hr⟩ | ⟨_, _, -, -, -, -, -, hr⟩ |
      ⟨key, entry, hneeds, lock, hlock, hr⟩ | ⟨-, lock, hlock, hr⟩
    · simp only [decision, hr, LookupDecision.fill_source] at hsource
      cases hsource
    · simp only [decision, hr, LookupDecision.fill_source] at hsource
      cases hsource
    · simp only [decision, hr, LookupDecision.fill_source] at hsource
      cases hsource
    · have hopen := fill_lock_decision_source env io world.shared (world.zones pid) pid
        request key now policy.lock_age none
      rw [hlock] at hopen
      simp only [decision, hr, entry_decision_source] at hsource
      split at hsource
      · cases hsource
      · rename_i hserved
        dsimp only at hopen
        rw [hopen] at hsource
        obtain ⟨acquirer, hbehind, -⟩ := hok.open_fill_behind io pid key now policy.lock_age none
          hsource
        exact ⟨⟨acquirer, hbehind⟩, fun other hother =>
          hentries key entry hneeds hserved source other hsource hother⟩
    · have hopen := fill_lock_decision_source env io world.shared (world.zones pid) pid
        request base_key now policy.lock_age (some (fill_share_fingerprint request))
      rw [hlock] at hopen
      simp only [decision, hr, missing_decision_source] at hsource
      dsimp only at hopen
      rw [hopen] at hsource
      obtain ⟨acquirer, hbehind, hfits⟩ := hok.open_fill_behind io pid base_key now
        policy.lock_age _ hsource
      refine ⟨⟨acquirer, hbehind⟩, fun other hother => ?_⟩
      obtain rfl := hok.behind_unique hbehind hother
      exact (hfits _ rfl).eq_of_fingerprint rfl

/-- An expired entry, and a request with a cookie that fills it: a request without the cookie
reads that fill. -/
theorem an_entry_hands_a_fill_to_another_request :
    let index := runCalls CacheIndex.default [.zone (.store ∅ none "a" (tenBytes "a" 1) none)]
    let io : FillIo := ⟨200, true, true, true⟩
    let holder := plainGet [(COOKIE, ⟨[97], by simp⟩)]
    let world := runFills plainFillEnv (FillWorld.start .Local)
      [.lookup 1 io ∅ index holder "a" 200 false (plainPolicy true),
        .attach 1 io 1 ⟨200, [], "tmp", "body", false, none⟩]
    (lookup_decision plainFillEnv io world.shared (world.zones 1) ∅ index 1 (plainGet []) "a" 200
      false (plainPolicy true)).decision = .ReadWhileFillLocal 1 ∧
    world.Behind 1 (.Local 1) holder ∧
    fill_share_fingerprint holder ≠ fill_share_fingerprint (plainGet []) := by
  refine ⟨rfl, ⟨_, rfl, rfl⟩, ?_⟩
  have hkept : COOKIE ≠ RANGE := by decide
  simp [fill_share_fingerprint, plainGet, hkept]
  decide

end rginx.cache
