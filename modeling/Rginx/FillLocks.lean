-- The locks of the fills in progress, from `cache/runtime/fill_lock.rs` and
-- `cache/fill`: one fill at a time for a key, in a process and between the
-- processes of a shared zone. Readers share the fill of a lock or wait for it.
import Rginx.SharedFills

open rust_text

namespace rginx.cache

/-! ## What the processes share -/

/-- A lock file: empty when it was just created, and with a record from then on. -/
structure FillLockFile where
  record : Option SharedFillLockRecord
  modified : Nat

/-- The shared memory of a zone, and the lock and state files in its directory, by the hash of
their key. -/
structure SharedFills (γ : Type) where
  memory : SharedMemory γ
  lock_files : Map FillLockFile
  state_files : Map SharedFillStateRecord

/-- What a zone uses of the code around it: the store, the text of a record, and the hash of a
key. A record without a response has no path in it, and so it can always be written. -/
structure FillEnv (γ β : Type) where
  store : MemorySharedIndexStore γ β
  states : Json β SharedFillStateRecord
  starts : ∀ nonce share_fingerprint, ∃ text,
    states.to_vec (SharedFillStateRecord.start nonce share_fingerprint) = .ok text
  cache_key_hash : String → String

/-- What one call meets outside: the clock, and which of its operations on files succeed. -/
structure FillIo where
  clock : Nat
  create : Bool
  write_state : Bool
  write_lock : Bool

inductive SharedFillStateBackend
  | File
  | SharedMemory
  deriving DecidableEq, Repr

structure SharedFillExternalStateHandle where
  backend : SharedFillStateBackend
  key : String
  state : SharedFillStateRecord

section External

variable {γ β : Type} (env : FillEnv γ β)

/-- `SharedFillExternalStateHandle::create_shared_memory`; no handle when the lock is busy. -/
def create_shared_memory (io : FillIo) (shared : SharedFills γ) (pid counter : Nat) (key : String)
    (now lock_age_ms : Nat) (share_fingerprint : Option String) :
    SharedFills γ × IoResult (Option SharedFillExternalStateHandle) :=
  let state := SharedFillStateRecord.start (next_shared_fill_nonce now pid counter)
    share_fingerprint
  match env.states.to_vec state with
  | .error error => (shared, .error error)
  | .ok state_json =>
    let (memory, acquired) := try_acquire_fill_lock env.store env.cache_key_hash io.clock
      shared.memory pid key now lock_age_ms state.nonce state_json
    ({ shared with memory }, acquired.map fun
      | .Acquired => some ⟨.SharedMemory, key, state⟩
      | .Busy => none)

def load_memory_external_fill_state (io : FillIo) (shared : SharedFills γ) (key : String)
    (share_fingerprint : Option String) : SharedFills γ × Option ExternalCacheFillReadState :=
  let (memory, snapshot) := load_fill_lock env.store io.clock shared.memory key
  ({ shared with memory },
    match snapshot with
    | .ok (some snapshot) =>
      match env.states.from_slice snapshot.state_json with
      | .ok state =>
        external_fill_state snapshot.nonce state share_fingerprint
          (.SharedMemory key snapshot.nonce)
      | .error _ => none
    | _ => none)

/-- `try_acquire_file_shared_fill_lock`: a lock file that was not written for longer than its age
is replaced. -/
def try_acquire_file_shared_fill_lock (io : FillIo) (shared : SharedFills γ) (key : String)
    (lock_age_ms : Nat) : Option (SharedFills γ) :=
  let path := env.cache_key_hash key
  let created := { shared with lock_files := shared.lock_files.insert path ⟨none, io.clock⟩ }
  if !io.create then none
  else
    match shared.lock_files[path]? with
    | none => some created
    | some file => if lock_age_ms < io.clock - file.modified then some created else none

/-- `persist_shared_fill_state_record` and then `persist_shared_fill_lock_record`; the first that
fails ends it. -/
def persist_lock_and_state (io : FillIo) (shared : SharedFills γ) (key : String)
    (state : SharedFillStateRecord) (now : Nat) : SharedFills γ × Bool :=
  let path := env.cache_key_hash key
  if !io.write_state then (shared, false)
  else
    let shared := { shared with state_files := shared.state_files.insert path state }
    if !io.write_lock then (shared, false)
    else
      ({ shared with
          lock_files := shared.lock_files.insert path ⟨some ⟨state.nonce, now⟩, io.clock⟩ }, true)

/-- `SharedFillExternalStateHandle::create_file`. -/
def create_file (io : FillIo) (shared : SharedFills γ) (pid counter : Nat) (key : String)
    (now : Nat) (share_fingerprint : Option String) :
    SharedFills γ × Option SharedFillExternalStateHandle :=
  let state := SharedFillStateRecord.start (next_shared_fill_nonce now pid counter)
    share_fingerprint
  let (shared, written) := persist_lock_and_state env io shared key state now
  (shared, if written then some ⟨.File, key, state⟩ else none)

def load_file_external_fill_state (shared : SharedFills γ) (key : String)
    (share_fingerprint : Option String) : Option ExternalCacheFillReadState := do
  let file ← shared.lock_files[env.cache_key_hash key]?
  let lock ← file.record
  let state ← shared.state_files[env.cache_key_hash key]?
  external_fill_state lock.nonce state share_fingerprint (.File key lock.nonce)

/-- The ways in which the holder of a fill changes its record. -/
inductive SharedFillUpdate
  | publish_response (response : SharedFillResponseMetadata)
  | mark_upstream_complete
  | finish (trailers : Option (List SharedFillHeader))
  | fail (error : String)
  | heartbeat

def SharedFillUpdate.apply (state : SharedFillStateRecord) :
    SharedFillUpdate → SharedFillStateRecord
  | .publish_response response => { state with response := some response }
  | .mark_upstream_complete => { state with upstream_completed := true }
  | .finish trailers => { state with upstream_completed := true, finished := true, trailers }
  | .fail error => { state with error := some error }
  | .heartbeat => state

@[simp]
theorem SharedFillUpdate.apply_nonce (state : SharedFillStateRecord) (update : SharedFillUpdate) :
    (update.apply state).nonce = state.nonce := by
  cases update <;> rfl

@[simp]
theorem SharedFillUpdate.apply_share_fingerprint (state : SharedFillStateRecord)
    (update : SharedFillUpdate) :
    (update.apply state).share_fingerprint = state.share_fingerprint := by
  cases update <;> rfl

/-- `update_state` and `heartbeat`: the record of the handle changes even where it cannot be
written. The heartbeat of a file only writes the lock. -/
def update_state (io : FillIo) (shared : SharedFills γ) (handle : SharedFillExternalStateHandle)
    (update : SharedFillUpdate) : SharedFills γ × SharedFillExternalStateHandle :=
  let handle := { handle with state := update.apply handle.state }
  let shared := match handle.backend with
    | .SharedMemory =>
      match env.states.to_vec handle.state with
      | .error _ => shared
      | .ok state_json =>
        let (memory, _) := update_fill_lock env.store io.clock shared.memory handle.key
          handle.state.nonce io.clock state_json
        { shared with memory }
    | .File =>
      match update with
      | .heartbeat =>
        if io.write_lock then
          { shared with
            lock_files := shared.lock_files.insert (env.cache_key_hash handle.key)
              ⟨some ⟨handle.state.nonce, io.clock⟩, io.clock⟩ }
        else shared
      | _ => (persist_lock_and_state env io shared handle.key handle.state io.clock).1
  (shared, handle)

/-- The record of a fill changes, if the fill is shared. -/
def update_external_state (io : FillIo) (shared : SharedFills γ)
    (external_state : Option SharedFillExternalStateHandle) (update : SharedFillUpdate) :
    SharedFills γ × Option SharedFillExternalStateHandle :=
  match external_state with
  | none => (shared, none)
  | some handle =>
    let (shared, handle) := update_state env io shared handle update
    (shared, some handle)

/-- `SharedFillExternalStateHandle::release`. A file that is gone is no error. -/
def release (io : FillIo) (shared : SharedFills γ) (handle : SharedFillExternalStateHandle) :
    SharedFills γ :=
  match handle.backend with
  | .SharedMemory =>
    let (memory, _) := release_fill_lock env.store io.clock shared.memory handle.key
      handle.state.nonce
    { shared with memory }
  | .File => { shared with lock_files := shared.lock_files.erase (env.cache_key_hash handle.key) }

end External

/-! ## The locks of a process -/

/-- The fields of `CacheFillReadState` that decide whether it is shared. -/
structure CacheFillReadState where
  status : StatusCode
  headers : HeaderMap
  body_tmp_path : String
  body_path : String
  upstream_completed : Bool
  error : Option String

def CacheFillReadState.can_share (state : CacheFillReadState) : Bool :=
  state.error.isNone && !state.upstream_completed

/-- A lock. Its read state is named by the generation of the lock that it was made for. -/
structure CacheFillLockState where
  acquired_at_unix_ms : Nat
  generation : Nat
  share_fingerprint : String
  reader_state : Option Nat

structure CacheFillGuard where
  key : String
  generation : Nat
  deriving DecidableEq, Repr

/-- A fill since its lock was acquired: the request that acquired it, the key of the lock, and
what its guard and its read state hold. -/
structure CacheFill where
  request : CacheRequest
  key : String
  external_state : Option SharedFillExternalStateHandle
  read_state : Option CacheFillReadState

/-- How a zone shares its fills: not at all, through its store, or through files. -/
inductive SharedFillMode
  | Local
  | Memory
  | Files
  deriving DecidableEq, Repr

/-- The locks of a zone in one process, with all its fills by their generation. -/
structure FillZone where
  mode : SharedFillMode
  fill_locks : Map CacheFillLockState := ∅
  fill_lock_generation : Nat := 0
  shared_fill_counter : Nat := 0
  fills : Nat → Option CacheFill := fun _ => none

inductive FillLockDecision
  | Acquired (guard : CacheFillGuard)
  | ReadLocal (state : Nat)
  | ReadExternal (state : ExternalCacheFillReadState)
  | WaitLocal (waiter : Nat)
  | WaitExternal (key : String)

/-- `reader_state.filter(|state| state.can_share())`. -/
def FillZone.shareable_reader (zone : FillZone) (lock : CacheFillLockState) : Option Nat :=
  lock.reader_state.filter fun generation =>
    ((zone.fills generation).bind CacheFill.read_state).any CacheFillReadState.can_share

/-- The lock of a key, while its age allows no other fill. -/
def FillZone.live_lock (zone : FillZone) (key : String) (now lock_age : Nat) :
    Option CacheFillLockState :=
  zone.fill_locks[key]?.filter fun lock => now - lock.acquired_at_unix_ms ≤ lock_age % 2 ^ 64

/-- The lock of a key goes to the request, with the handle of what the processes share. -/
def FillZone.acquire (zone : FillZone) (request : CacheRequest) (key : String) (now : Nat)
    (share_fingerprint : Option String) (external_state : Option SharedFillExternalStateHandle) :
    FillLockDecision × FillZone :=
  let generation := zone.fill_lock_generation + 1
  (.Acquired ⟨key, generation⟩,
    { zone with
      fill_locks := zone.fill_locks.insert key
        { acquired_at_unix_ms := now
          generation
          share_fingerprint := share_fingerprint.getD ""
          reader_state := none }
      fill_lock_generation := generation
      fills := Function.update zone.fills generation
        (some ⟨request, key, external_state, none⟩) })

section Locks

variable {γ β : Type} (env : FillEnv γ β)

/-- The part of `fill_lock_decision` after the locks of the process: the lock that the processes
share, or none where it cannot be had. The request is the one that asks. -/
def external_lock_decision (io : FillIo) (shared : SharedFills γ) (zone : FillZone) (pid : Nat)
    (request : CacheRequest) (key : String) (now lock_age : Nat)
    (share_fingerprint : Option String) : SharedFills γ × FillLockDecision × FillZone :=
  let used := { zone with shared_fill_counter := zone.shared_fill_counter + 1 }
  match zone.mode with
  | .Local => (shared, zone.acquire request key now share_fingerprint none)
  | .Memory =>
    match create_shared_memory env io shared pid zone.shared_fill_counter key now
        (lock_age % 2 ^ 64) share_fingerprint with
    | (shared, .error _) => (shared, used.acquire request key now share_fingerprint none)
    | (shared, .ok (some handle)) =>
      (shared, used.acquire request key now share_fingerprint (some handle))
    | (shared, .ok none) =>
      match load_memory_external_fill_state env io shared key share_fingerprint with
      | (shared, some state) => (shared, .ReadExternal state, used)
      | (shared, none) => (shared, .WaitExternal key, used)
  | .Files =>
    match try_acquire_file_shared_fill_lock env io shared key (lock_age % 2 ^ 64) with
    | some shared =>
      match create_file env io shared pid zone.shared_fill_counter key now share_fingerprint with
      | (shared, some handle) =>
        (shared, used.acquire request key now share_fingerprint (some handle))
      | (shared, none) =>
        ({ shared with lock_files := shared.lock_files.erase (env.cache_key_hash key) },
          used.acquire request key now share_fingerprint none)
    | none =>
      match load_file_external_fill_state env shared key share_fingerprint with
      | some state => (shared, .ReadExternal state, zone)
      | none => (shared, .WaitExternal key, zone)

def fill_lock_decision (io : FillIo) (shared : SharedFills γ) (zone : FillZone) (pid : Nat)
    (request : CacheRequest) (key : String) (now lock_age : Nat)
    (share_fingerprint : Option String) : SharedFills γ × FillLockDecision × FillZone :=
  match zone.live_lock key now lock_age with
  | some lock =>
    -- Without a fingerprint, any fill is shared.
    if share_fingerprint.all (lock.share_fingerprint = ·) then
      match zone.shareable_reader lock with
      | some state => (shared, .ReadLocal state, zone)
      | none => (shared, .WaitLocal lock.generation, zone)
    else (shared, .WaitLocal lock.generation, zone)
  | none =>
    external_lock_decision env io shared zone pid request key now lock_age share_fingerprint

/-! ## The holder of a fill -/

/-- `CacheFillReadState::new` and `attach_fill_read_state`: the response is published to the other
processes, and to the readers of this one if the lock is still its own. -/
def attach_fill_read_state (io : FillIo) (shared : SharedFills γ) (zone : FillZone)
    (generation : Nat) (state : CacheFillReadState) : SharedFills γ × FillZone :=
  match zone.fills generation with
  | none => (shared, zone)
  | some fill =>
    let (shared, external_state) := update_external_state env io shared fill.external_state
      (.publish_response ⟨state.status, shared_headers_from_map state.headers,
        state.body_tmp_path, state.body_path⟩)
    let zone := { zone with
      fills := Function.update zone.fills generation
        (some { fill with external_state, read_state := some state }) }
    match zone.fill_locks[fill.key]? with
    | some lock =>
      if lock.generation ≠ generation then (shared, zone)
      else
        (shared, { zone with
          fill_locks := zone.fill_locks.insert fill.key
            { lock with reader_state := some generation } })
    | none => (shared, zone)

/-- The changes of a read state after it was attached, as `mark_upstream_complete`, `fail`,
`finish` and `record_bytes_written` make them. -/
def CacheFillReadState.apply (state : CacheFillReadState) :
    SharedFillUpdate → CacheFillReadState
  | .mark_upstream_complete => { state with upstream_completed := true }
  | .fail error => { state with error := some error }
  | _ => state

/-- The holder goes on: its read state changes, and the record that it shares with it. -/
def update_fill (io : FillIo) (shared : SharedFills γ) (zone : FillZone) (generation : Nat)
    (update : SharedFillUpdate) : SharedFills γ × FillZone :=
  match zone.fills generation with
  | none => (shared, zone)
  | some fill =>
    let (shared, external_state) := update_external_state env io shared fill.external_state update
    (shared, { zone with
      fills := Function.update zone.fills generation
        (some { fill with
          external_state
          read_state := fill.read_state.map (CacheFillReadState.apply · update) }) })

/-- `CacheFillGuard::drop`. -/
def drop_guard (io : FillIo) (shared : SharedFills γ) (zone : FillZone) (generation : Nat) :
    SharedFills γ × FillZone :=
  match zone.fills generation with
  | none => (shared, zone)
  | some fill =>
    let zone := match zone.fill_locks[fill.key]? with
      | some lock =>
        if lock.generation = generation then
          { zone with fill_locks := zone.fill_locks.erase fill.key }
        else zone
      | none => zone
    match fill.external_state with
    | some handle => (release env io shared handle, zone)
    | none => (shared, zone)

end Locks

/-! ## Runs on concrete values -/

/-- Texts that are the values themselves. -/
abbrev PlainFillText := PlainText ⊕ SharedFillStateRecord

/-- A codec that keeps the values as they are, in a sum. -/
def plainCodec {α β : Type} (wrap : α → β) (unwrap : β → Option α)
    (h : ∀ a, unwrap (wrap a) = some a) : Json β α where
  to_vec := fun a => .ok (wrap a)
  from_slice := fun b =>
    match unwrap b with
    | some a => .ok a
    | none => .error ⟨.InvalidData, "missing field"⟩
  round_trip := by
    intro a b hb
    obtain rfl := Except.ok.inj hb
    simp [h]

def plainFillEnv : FillEnv (SharedMemoryIndexDocument PlainFillText) PlainFillText where
  store :=
    { json :=
        { entry := plainCodec (fun record => .inl (.inl record))
            (fun | .inl (.inl record) => some record | _ => none) (fun _ => rfl)
          rule := plainCodec (fun rule => .inl (.inr rule))
            (fun | .inl (.inr rule) => some rule | _ => none) (fun _ => rfl) }
      document := plainCodec id some (fun _ => rfl)
      len := fun _ => 1
      document_capacity := 1024
      operation_ring_capacity := 4 }
  states := plainCodec .inr (fun | .inr state => some state | _ => none) (fun _ => rfl)
  starts := fun _ _ => ⟨_, rfl⟩
  cache_key_hash := id

/-- Shared memory that was not created yet, and no files. -/
def noSharedFills : SharedFills (SharedMemoryIndexDocument PlainFillText) := ⟨.missing, ∅, ∅⟩

end rginx.cache
