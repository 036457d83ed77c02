-- The shared index document, from `shared/index_file`: the records that go
-- into it, the operations on it, and the index that a zone loads from it. The
-- texts of `serde_json` are values of a type `β`, with the one law that it
-- reads back what it wrote.
import Rginx.IndexCalls

open tree_maps

namespace rginx.cache

/-! ## Errors and texts -/

inductive ErrorKind
  | InvalidData
  | OutOfMemory
  | NotFound
  | Unsupported
  | UnexpectedEof
  | TimedOut
  deriving DecidableEq, Repr

structure IoError where
  kind : ErrorKind
  message : String
  deriving DecidableEq, Repr

abbrev IoResult := Except IoError

/-- `serde_json` for one type of values. -/
structure Json (β α : Type) where
  to_vec : α → IoResult β
  from_slice : β → IoResult α
  round_trip : ∀ a b, to_vec a = .ok b → from_slice b = .ok a

/-! ## The codec -/

structure SharedVaryHeader where
  name : String
  value : Option String
  deriving DecidableEq, Repr

structure SharedIndexEntryRecord where
  kind : CacheIndexEntryKind
  hash : String
  base_key : String
  stored_at_unix_ms : Nat
  vary : List SharedVaryHeader
  tags : List String
  body_size_bytes : Nat
  expires_at_unix_ms : Nat
  grace_until_unix_ms : Option Nat
  keep_until_unix_ms : Option Nat
  stale_if_error_until_unix_ms : Option Nat
  stale_while_revalidate_until_unix_ms : Option Nat
  requires_revalidation : Option Bool
  must_revalidate : Bool
  last_access_unix_ms : Nat
  deriving DecidableEq

/-- The two types that go into the document as texts of their own. -/
structure SerdeJson (β : Type) where
  entry : Json β SharedIndexEntryRecord
  rule : Json β CacheInvalidationRule

/-- The record that `serialize_entry_record` writes. -/
def entry_record (entry : CacheIndexEntry) : SharedIndexEntryRecord :=
  { kind := entry.kind
    hash := entry.hash
    base_key := entry.base_key
    stored_at_unix_ms := entry.stored_at_unix_ms
    vary := entry.vary.map fun header => ⟨header.name.as_str, header.value⟩
    tags := entry.tags
    body_size_bytes := entry.body_size_bytes
    expires_at_unix_ms := entry.expires_at_unix_ms
    grace_until_unix_ms := entry.grace_until_unix_ms
    keep_until_unix_ms := entry.keep_until_unix_ms
    stale_if_error_until_unix_ms := entry.stale_if_error_until_unix_ms
    stale_while_revalidate_until_unix_ms := entry.stale_while_revalidate_until_unix_ms
    requires_revalidation := some entry.requires_revalidation
    must_revalidate := entry.must_revalidate
    last_access_unix_ms := entry.last_access_unix_ms }

def shared_vary_header (header : SharedVaryHeader) : IoResult CachedVaryHeaderValue :=
  match HeaderName.parse header.name with
  | none => .error ⟨.InvalidData, "invalid HTTP header name"⟩
  | some name => .ok ⟨name, header.value⟩

def cache_index_entry_from_record (record : SharedIndexEntryRecord) : IoResult CacheIndexEntry := do
  let vary ← record.vary.mapM shared_vary_header
  return {
    kind := record.kind
    hash := record.hash
    base_key := record.base_key
    stored_at_unix_ms := record.stored_at_unix_ms
    vary
    tags := record.tags
    body_size_bytes := record.body_size_bytes
    expires_at_unix_ms := record.expires_at_unix_ms
    grace_until_unix_ms := record.grace_until_unix_ms
    keep_until_unix_ms := record.keep_until_unix_ms
    stale_if_error_until_unix_ms := record.stale_if_error_until_unix_ms
    stale_while_revalidate_until_unix_ms := record.stale_while_revalidate_until_unix_ms
    requires_revalidation := record.requires_revalidation.getD record.must_revalidate
    must_revalidate := record.must_revalidate
    last_access_unix_ms := record.last_access_unix_ms }

/-- Texts that are the values themselves, for runs on concrete values. -/
abbrev PlainText := SharedIndexEntryRecord ⊕ CacheInvalidationRule

def plainJson : SerdeJson PlainText where
  entry :=
    { to_vec := fun record => .ok (.inl record)
      from_slice := fun
        | .inl record => .ok record
        | .inr _ => .error ⟨.InvalidData, "missing field"⟩
      round_trip := by
        intro a b h
        obtain rfl := Except.ok.inj h
        rfl }
  rule :=
    { to_vec := fun rule => .ok (.inr rule)
      from_slice := fun
        | .inr rule => .ok rule
        | .inl _ => .error ⟨.InvalidData, "missing field"⟩
      round_trip := by
        intro a b h
        obtain rfl := Except.ok.inj h
        rfl }

section Documents

variable {β : Type}

def serialize_entry_record (json : SerdeJson β) (entry : CacheIndexEntry) : IoResult β :=
  json.entry.to_vec (entry_record entry)

def deserialize_entry_record (json : SerdeJson β) (entry_json : β) : IoResult CacheIndexEntry := do
  let record ← json.entry.from_slice entry_json
  cache_index_entry_from_record record

def serialize_invalidation_rule (json : SerdeJson β) (rule : CacheInvalidationRule) : IoResult β :=
  json.rule.to_vec rule

def deserialize_invalidation_rule (json : SerdeJson β) (rule_json : β) :
    IoResult CacheInvalidationRule :=
  json.rule.from_slice rule_json

/-! ## The document -/

structure SharedMemoryChangeRecord (β : Type) where
  seq : Nat
  generation : Nat
  op_kind : Nat
  key : String
  entry_json : Option β
  uses : Option Nat
  last_access_unix_ms : Option Nat
  deriving DecidableEq

structure SharedMemoryFillLockRecord (β : Type) where
  key_hash : String
  owner_pid : Nat
  owner_generation : Nat
  nonce : String
  acquired_at_unix_ms : Nat
  updated_at_unix_ms : Nat
  released : Bool
  state_json : β
  deriving DecidableEq

structure SharedMemoryIndexDocument (β : Type) where
  version : Nat := 1
  generation : Nat := 0
  store_epoch : Nat
  last_change_seq : Nat := 0
  rebuild_total : Nat := 0
  stale_fill_lock_cleanup_total : Nat := 0
  entries : Map β := ∅
  admission_counts : Map Nat := ∅
  invalidations : List β := []
  fill_locks : Map (SharedMemoryFillLockRecord β) := ∅
  changes : List (SharedMemoryChangeRecord β) := []

/-- `SharedMemoryIndexDocument::empty`. -/
def SharedMemoryIndexDocument.empty (store_epoch : Nat) : SharedMemoryIndexDocument β :=
  { store_epoch }

structure LoadedSharedIndex where
  index : CacheIndex
  generation : Nat
  store_epoch : Nat
  last_change_seq : Nat

def deserialize_row (json : SerdeJson β) (row : String × β) :
    IoResult (String × CacheIndexEntry) := do
  let entry ← deserialize_entry_record json row.2
  return (row.1, entry)

def serialize_row (json : SerdeJson β) (row : String × CacheIndexEntry) :
    IoResult (String × β) := do
  let entry_json ← serialize_entry_record json row.2
  return (row.1, entry_json)

/-- The entries are read in the order of their keys. -/
def loaded_index_from_document (json : SerdeJson β) (document : SharedMemoryIndexDocument β) :
    IoResult LoadedSharedIndex := do
  let rows ← document.entries.toList.mapM (deserialize_row json)
  let index := insert_rows CacheIndex.default rows
  let invalidations ← document.invalidations.mapM (deserialize_invalidation_rule json)
  return {
    index :=
      { index with
        admission_counts := document.admission_counts
        invalidations }
    generation := document.generation
    store_epoch := document.store_epoch
    last_change_seq := document.last_change_seq }

def entries_from_index (json : SerdeJson β) (index : CacheIndex) : IoResult (Map β) := do
  let rows ← index.entries.toList.mapM (serialize_row json)
  return insertRows ∅ rows

/-! ## The operations -/

def CHANGE_OP_UPSERT_ENTRY : Nat := 1
def CHANGE_OP_REMOVE_ENTRY : Nat := 2
def CHANGE_OP_SET_ADMISSION_COUNT : Nat := 3
def CHANGE_OP_REMOVE_ADMISSION_COUNT : Nat := 4
def CHANGE_OP_ADD_INVALIDATION : Nat := 5
def CHANGE_OP_CLEAR_INVALIDATIONS : Nat := 6
def CHANGE_OP_TOUCH_ENTRY : Nat := 7

def apply_operation_to_document (json : SerdeJson β) (document : SharedMemoryIndexDocument β) :
    SharedIndexOperation → IoResult (SharedMemoryIndexDocument β)
  | .UpsertEntry key entry => do
    let entry_json ← serialize_entry_record json entry
    return { document with entries := document.entries.insert key entry_json }
  | .RemoveEntry key => return { document with entries := document.entries.erase key }
  | .TouchEntry key last_access_unix_ms =>
    match document.entries[key]? with
    | none => return document
    | some entry_json => do
      let entry ← deserialize_entry_record json entry_json
      if entry.last_access_unix_ms < last_access_unix_ms then
        let entry_json ← serialize_entry_record json
          { entry with last_access_unix_ms := last_access_unix_ms }
        return { document with entries := document.entries.insert key entry_json }
      else return document
  | .SetAdmissionCount key uses =>
    return { document with admission_counts := document.admission_counts.insert key uses }
  | .RemoveAdmissionCount key =>
    return { document with admission_counts := document.admission_counts.erase key }
  | .AddInvalidation rule => do
    let rule_json ← serialize_invalidation_rule json rule
    return { document with invalidations := document.invalidations ++ [rule_json] }
  | .ClearInvalidations => return { document with invalidations := [] }

def change_record_from_operation (json : SerdeJson β) (seq generation : Nat) :
    SharedIndexOperation → IoResult (SharedMemoryChangeRecord β)
  | .UpsertEntry key entry => do
    let entry_json ← serialize_entry_record json entry
    return ⟨seq, generation, CHANGE_OP_UPSERT_ENTRY, key, some entry_json, none, none⟩
  | .RemoveEntry key =>
    return ⟨seq, generation, CHANGE_OP_REMOVE_ENTRY, key, none, none, none⟩
  | .TouchEntry key last_access_unix_ms =>
    return ⟨seq, generation, CHANGE_OP_TOUCH_ENTRY, key, none, none, some last_access_unix_ms⟩
  | .SetAdmissionCount key uses =>
    return ⟨seq, generation, CHANGE_OP_SET_ADMISSION_COUNT, key, none, some uses, none⟩
  | .RemoveAdmissionCount key =>
    return ⟨seq, generation, CHANGE_OP_REMOVE_ADMISSION_COUNT, key, none, none, none⟩
  | .AddInvalidation rule => do
    let rule_json ← serialize_invalidation_rule json rule
    return ⟨seq, generation, CHANGE_OP_ADD_INVALIDATION, "", some rule_json, none, none⟩
  | .ClearInvalidations =>
    return ⟨seq, generation, CHANGE_OP_CLEAR_INVALIDATIONS, "", none, none, none⟩

/-- `Option::ok_or_else` with an error of invalid data. -/
def ok_or_invalid {α : Type} (message : String) : Option α → IoResult α
  | none => .error ⟨.InvalidData, message⟩
  | some a => .ok a

def operation_from_change_record (json : SerdeJson β) (record : SharedMemoryChangeRecord β) :
    IoResult SharedIndexOperation :=
  if record.op_kind = CHANGE_OP_UPSERT_ENTRY then do
    let entry_json ← ok_or_invalid "missing shm delta entry payload" record.entry_json
    let entry ← deserialize_entry_record json entry_json
    return .UpsertEntry record.key entry
  else if record.op_kind = CHANGE_OP_REMOVE_ENTRY then return .RemoveEntry record.key
  else if record.op_kind = CHANGE_OP_TOUCH_ENTRY then do
    let last_access_unix_ms ←
      ok_or_invalid "missing shm delta touch payload" record.last_access_unix_ms
    return .TouchEntry record.key last_access_unix_ms
  else if record.op_kind = CHANGE_OP_SET_ADMISSION_COUNT then do
    let uses ← ok_or_invalid "missing shm delta admission payload" record.uses
    return .SetAdmissionCount record.key uses
  else if record.op_kind = CHANGE_OP_REMOVE_ADMISSION_COUNT then
    return .RemoveAdmissionCount record.key
  else if record.op_kind = CHANGE_OP_ADD_INVALIDATION then do
    let rule_json ← ok_or_invalid "missing shm delta invalidation payload" record.entry_json
    let rule ← deserialize_invalidation_rule json rule_json
    return .AddInvalidation rule
  else if record.op_kind = CHANGE_OP_CLEAR_INVALIDATIONS then return .ClearInvalidations
  else
    .error ⟨.InvalidData, s!"unknown shared memory delta op kind `{record.op_kind}`"⟩

/-- An empty delta is the sign for a full reload: the ring has no change, or its first change
is not the next one of the cursor. -/
def operations_since (json : SerdeJson β) (document : SharedMemoryIndexDocument β)
    (after_seq : Nat) : IoResult (List SharedIndexOperation) :=
  match document.changes with
  | [] => return []
  | first_change :: _ =>
    if after_seq < first_change.seq - 1 then return []
    else
      (document.changes.filter fun change => after_seq < change.seq).mapM
        (operation_from_change_record json)

def trim_change_ring (document : SharedMemoryIndexDocument β) (operation_ring_capacity : Nat) :
    SharedMemoryIndexDocument β :=
  if operation_ring_capacity = 0 then { document with changes := [] }
  else
    { document with
      changes := document.changes.drop (document.changes.length - operation_ring_capacity) }

/-- One operation of `apply_operations`: the document, then the sequence number, then the
record of the change. A document starts at 0 and every change is a write under the file lock,
so the sequence number is a natural number here and does not reach the end of `u64`. -/
def append_operation (json : SerdeJson β) (document : SharedMemoryIndexDocument β)
    (operation : SharedIndexOperation) : IoResult (SharedMemoryIndexDocument β) := do
  let document ← apply_operation_to_document json document operation
  let last_change_seq := document.last_change_seq + 1
  let change ← change_record_from_operation json last_change_seq document.generation operation
  return { document with last_change_seq, changes := document.changes ++ [change] }

def append_operations (json : SerdeJson β) (document : SharedMemoryIndexDocument β) :
    List SharedIndexOperation → IoResult (SharedMemoryIndexDocument β)
  | [] => return document
  | operation :: operations => do
    let document ← append_operation json document operation
    append_operations json document operations

/-- What `apply_operations` makes of a document, before it writes it back. -/
def apply_operations_to_document (json : SerdeJson β) (operation_ring_capacity : Nat)
    (document : SharedMemoryIndexDocument β) (operations : List SharedIndexOperation) :
    IoResult (SharedMemoryIndexDocument β) :=
  if operations = [] then return document
  else do
    let document := { document with generation := saturating_add document.generation 1 }
    let document ← append_operations json document operations
    return trim_change_ring document operation_ring_capacity

/-- The document that `recreate` writes: the index at a new start of the changes. -/
def recreated_document (json : SerdeJson β) (store_epoch generation rebuild_total : Nat)
    (index : CacheIndex) : IoResult (SharedMemoryIndexDocument β) := do
  let entries ← entries_from_index json index
  let invalidations ← index.invalidations.mapM (serialize_invalidation_rule json)
  return {
    store_epoch
    generation
    rebuild_total
    entries
    admission_counts := index.admission_counts
    invalidations }

end Documents

end rginx.cache
