-- The fills in progress that processes share, from `cache/fill/shared.rs` and
-- the fill lock functions of `memory_backend.rs`: the record of a fill, the
-- locks in the shared document, and the lock and state files of a zone
-- without a store.
import Rginx.SharedStore
import Rginx.CacheRequest

open rust_text

namespace rginx.cache

/-! ## The record of a fill -/

structure SharedFillHeader where
  name : String
  value : List UInt8
  deriving DecidableEq

structure SharedFillResponseMetadata where
  status : StatusCode
  headers : List SharedFillHeader
  body_tmp_path : String
  body_path : String
  deriving DecidableEq

structure SharedFillStateRecord where
  nonce : String
  share_fingerprint : String
  response : Option SharedFillResponseMetadata
  upstream_completed : Bool
  finished : Bool
  trailers : Option (List SharedFillHeader)
  error : Option String
  deriving DecidableEq

structure SharedFillLockRecord where
  nonce : String
  updated_at_unix_ms : Nat
  deriving DecidableEq

/-- `next_shared_fill_nonce`, with the process and its counter. -/
def next_shared_fill_nonce (now pid counter : Nat) : String :=
  String.ofList (decimal now ++ '-' :: (decimal pid ++ '-' :: decimal counter))

/-- The record of a fill that was just acquired. -/
def SharedFillStateRecord.start (nonce : String) (share_fingerprint : Option String) :
    SharedFillStateRecord :=
  { nonce
    share_fingerprint := share_fingerprint.getD ""
    response := none
    upstream_completed := false
    finished := false
    trailers := none
    error := none }

def shared_headers_from_map (headers : HeaderMap) : List SharedFillHeader :=
  headers.map fun row => ⟨row.1.as_str, row.2.as_bytes⟩

/-- `HeaderValue::from_bytes`. -/
def HeaderValue.from_bytes (bytes : List UInt8) : Option HeaderValue :=
  if h : ∀ b ∈ bytes, (32 ≤ b ∧ b ≠ 127) ∨ b = 9 then some ⟨bytes, h⟩ else none

def header_map_from_shared_headers (headers : List SharedFillHeader) : Option HeaderMap :=
  headers.mapM fun header => do
    let name ← HeaderName.parse header.name
    let value ← HeaderValue.from_bytes header.value
    return (name, value)

/-- `StatusCode::from_u16`. -/
def StatusCode.from_u16 (status : Nat) : Option StatusCode :=
  if 100 ≤ status ∧ status < 1000 then some status else none

inductive ExternalFillStateSource
  | File (key : String) (nonce : String)
  | SharedMemory (key : String) (nonce : String)
  deriving DecidableEq

def ExternalFillStateSource.nonce : ExternalFillStateSource → String
  | .File _ nonce => nonce
  | .SharedMemory _ nonce => nonce

structure ExternalCacheFillReadState where
  status : StatusCode
  headers : HeaderMap
  body_tmp_path : String
  body_path : String
  source : ExternalFillStateSource

/-- The common end of `load_memory_external_fill_state` and `load_file_external_fill_state`: what
a reader with this fingerprint gets of a record, under a lock with this nonce. -/
def external_fill_state (lock_nonce : String) (state : SharedFillStateRecord)
    (share_fingerprint : Option String) (source : ExternalFillStateSource) :
    Option ExternalCacheFillReadState :=
  if state.nonce ≠ lock_nonce then none
  else if share_fingerprint.any (state.share_fingerprint ≠ ·) then none
  else if state.error.isSome ∨ state.upstream_completed then none
  else do
    let response ← state.response
    let status ← StatusCode.from_u16 response.status
    let headers ← header_map_from_shared_headers response.headers
    return ⟨status, headers, response.body_tmp_path, response.body_path, source⟩

/-- A fill that a reader gets is one that a reader without a fingerprint gets too, and has the
fingerprint of the reader. -/
theorem external_fill_state_some {nonce : String} {state : SharedFillStateRecord}
    {fingerprint : Option String} {source : ExternalFillStateSource}
    {read : ExternalCacheFillReadState}
    (h : external_fill_state nonce state fingerprint source = some read) :
    external_fill_state nonce state none source = some read ∧ state.nonce = nonce ∧
      state.response.isSome ∧ read.source = source ∧
      ∀ text, fingerprint = some text → state.share_fingerprint = text := by
  unfold external_fill_state at h ⊢
  split at h
  · cases h
  rename_i hnonce
  split at h
  · cases h
  rename_i hfingerprint
  split at h
  · cases h
  rename_i hopen
  simp only [Option.bind_eq_bind, Option.bind_eq_some_iff, Option.pure_def,
    Option.some.injEq] at h
  obtain ⟨response, hresponse, status, hstatus, headers, hheaders, rfl⟩ := h
  refine ⟨?_, not_not.mp hnonce, ?_, rfl, ?_⟩
  · simp [hnonce, hopen, hresponse, hstatus, hheaders]
  · simp [hresponse]
  · rintro text rfl
    simpa using hfingerprint

/-! ## The locks in the document -/

inductive SharedFillLockAcquire
  | Acquired
  | Busy
  deriving DecidableEq, Repr

inductive SharedFillLockStatus
  | Missing
  | Fresh
  | Stale
  deriving DecidableEq, Repr

structure SharedFillLockSnapshot (β : Type) where
  nonce : String
  state_json : β

section Store

variable {γ β : Type} (store : MemorySharedIndexStore γ β) (cache_key_hash : String → String)

/-- A process takes the lock of a key: where there is none, where it was released, and where it
was not updated for longer than its age. -/
def try_acquire_fill_lock (clock : Nat) (memory : SharedMemory γ) (pid : Nat) (key : String)
    (now lock_age_ms : Nat) (nonce : String) (state_json : β) :
    SharedMemory γ × IoResult SharedFillLockAcquire :=
  with_document_lock store clock memory fun segment document =>
    let acquire (cleanups : Nat) :=
      let document := { document with
        stale_fill_lock_cleanup_total := cleanups
        fill_locks := (document.fill_locks.erase key).insert key
          { key_hash := cache_key_hash key
            owner_pid := pid
            owner_generation := document.generation
            nonce
            acquired_at_unix_ms := now
            updated_at_unix_ms := now
            released := false
            state_json } }
      let (segment, written) := write_document store segment document
      (segment, written.map fun _ => SharedFillLockAcquire.Acquired)
    match document.fill_locks[key]? with
    | none => acquire document.stale_fill_lock_cleanup_total
    | some record =>
      if record.released then acquire document.stale_fill_lock_cleanup_total
      else if now - record.updated_at_unix_ms ≤ lock_age_ms then (segment, .ok .Busy)
      else acquire (saturating_add document.stale_fill_lock_cleanup_total 1)

def load_fill_lock (clock : Nat) (memory : SharedMemory γ) (key : String) :
    SharedMemory γ × IoResult (Option (SharedFillLockSnapshot β)) :=
  with_document_lock store clock memory fun segment document =>
    (segment, .ok (document.fill_locks[key]?.map fun record => ⟨record.nonce, record.state_json⟩))

def update_fill_lock (clock : Nat) (memory : SharedMemory γ) (key nonce : String)
    (updated_at_unix_ms : Nat) (state_json : β) : SharedMemory γ × IoResult Unit :=
  with_document_lock store clock memory fun segment document =>
    match document.fill_locks[key]? with
    | none => (segment, .error ⟨.NotFound, "shared fill lock not found"⟩)
    | some record =>
      if record.nonce ≠ nonce then
        (segment, .error ⟨.NotFound, "shared fill lock nonce mismatch"⟩)
      else
        write_document store segment { document with
          fill_locks := document.fill_locks.insert key
            { record with updated_at_unix_ms, state_json } }

def release_fill_lock (clock : Nat) (memory : SharedMemory γ) (key nonce : String) :
    SharedMemory γ × IoResult Unit :=
  with_document_lock store clock memory fun segment document =>
    match document.fill_locks[key]? with
    | none => (segment, .ok ())
    | some record =>
      if record.nonce ≠ nonce then (segment, .ok ())
      else
        write_document store segment { document with
          fill_locks := document.fill_locks.insert key { record with released := true } }

def fill_lock_status (clock : Nat) (memory : SharedMemory γ) (key : String)
    (now lock_age_ms : Nat) : SharedMemory γ × IoResult SharedFillLockStatus :=
  with_document_lock store clock memory fun segment document =>
    (segment, .ok (match document.fill_locks[key]? with
      | none => .Missing
      | some record =>
        if record.released then .Missing
        else if lock_age_ms < now - record.updated_at_unix_ms then .Stale
        else .Fresh))

def clear_stale_fill_lock (clock : Nat) (memory : SharedMemory γ) (key : String)
    (now lock_age_ms : Nat) : SharedMemory γ × IoResult Bool :=
  with_document_lock store clock memory fun segment document =>
    match document.fill_locks[key]? with
    | none => (segment, .ok false)
    | some record =>
      if record.released then
        let (segment, written) := write_document store segment
          { document with fill_locks := document.fill_locks.erase key }
        (segment, written.map fun _ => false)
      else if now - record.updated_at_unix_ms ≤ lock_age_ms then (segment, .ok false)
      else
        let (segment, written) := write_document store segment { document with
          fill_locks := document.fill_locks.erase key
          stale_fill_lock_cleanup_total :=
            saturating_add document.stale_fill_lock_cleanup_total 1 }
        (segment, written.map fun _ => true)

end Store

end rginx.cache
