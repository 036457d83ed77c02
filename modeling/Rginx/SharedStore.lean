-- The store of the shared index, from `memory_backend.rs`: a segment of
-- shared memory that holds the document. Every function takes the file lock,
-- opens the segment, reads the document and may write it back; so it is a
-- function from the memory before it to the memory after it.
import Rginx.DeltaReplay

open rust_result

namespace rginx.cache

/-! ## The segment -/

/-- The fields of the header that the store writes. -/
structure SharedMemoryHeader where
  generation : Nat
  store_epoch : Nat
  operation_seq : Nat
  entry_count : Nat
  current_size_bytes : Nat
  deriving DecidableEq, Repr

/-- What stands behind the header: nothing yet, a length beyond the payload, or the text of a
document. -/
inductive Payload (γ : Type)
  | zeroed
  | overlong (len : Nat)
  | text (bytes : γ)
  deriving DecidableEq, Repr

structure SharedMemorySegment (γ : Type) where
  header : SharedMemoryHeader
  payload : Payload γ
  deriving DecidableEq, Repr

/-- The memory under the name of the zone: `attach` does not find it, finds a header that does
not match its configuration, or maps it. -/
inductive SharedMemory (γ : Type)
  | missing
  | mismatched
  | mapped (segment : SharedMemorySegment γ)
  deriving DecidableEq, Repr

/-- A store, with the codec of its document. -/
structure MemorySharedIndexStore (γ β : Type) where
  json : SerdeJson β
  document : Json γ (SharedMemoryIndexDocument β)
  len : γ → Nat
  document_capacity : Nat
  operation_ring_capacity : Nat

/-- A segment that was just created. The clock is the one of `current_store_epoch`. -/
def SharedMemorySegment.create_or_reset {γ : Type} (clock : Nat) : SharedMemorySegment γ :=
  { header := ⟨1, max clock 1, 0, 0, 0⟩, payload := .zeroed }

section Store

variable {γ β : Type} (store : MemorySharedIndexStore γ β)

/-! ## The document in the segment -/

def read_document (segment : SharedMemorySegment γ) : IoResult (SharedMemoryIndexDocument β) :=
  match segment.payload with
  | .zeroed => return SharedMemoryIndexDocument.empty segment.header.store_epoch
  | .overlong len =>
    .error ⟨.InvalidData,
      s!"shared memory document length exceeds payload capacity: length {len}, " ++
        s!"capacity {store.document_capacity}"⟩
  | .text bytes => do
    let document ← store.document.from_slice bytes
    if document.version ≠ 1 then
      .error ⟨.InvalidData,
        s!"unsupported shared memory index document version `{document.version}`"⟩
    else return document

def document_current_size_bytes (json : SerdeJson β) (document : SharedMemoryIndexDocument β) :
    IoResult Nat := do
  let rows ← document.entries.toList.mapM (deserialize_row json)
  return rows.foldl (fun bytes row => saturating_add bytes row.2.body_size_bytes) 0

/-- The payload is written first, and the header only when every entry can be read. -/
def write_document (segment : SharedMemorySegment γ) (document : SharedMemoryIndexDocument β) :
    SharedMemorySegment γ × IoResult Unit :=
  match store.document.to_vec document with
  | .error error => (segment, .error error)
  | .ok bytes =>
    if store.document_capacity < store.len bytes then
      (segment, .error ⟨.OutOfMemory,
        s!"shared memory index document exceeds capacity: length {store.len bytes}, " ++
          s!"capacity {store.document_capacity}"⟩)
    else
      let segment := { segment with payload := .text bytes }
      match document_current_size_bytes store.json document with
      | .error error => (segment, .error error)
      | .ok current_size_bytes =>
        ({ segment with
            header :=
              { generation := document.generation
                store_epoch := document.store_epoch
                operation_seq := document.last_change_seq
                entry_count := document.entries.size
                current_size_bytes } },
          .ok ())

/-- A segment that is missing or does not match is created anew, with an empty document. -/
def open_or_create_segment (clock : Nat) (memory : SharedMemory γ) :
    SharedMemory γ × IoResult (SharedMemorySegment γ) :=
  match memory with
  | .mapped segment => (memory, .ok segment)
  | .missing | .mismatched =>
    let segment := SharedMemorySegment.create_or_reset clock
    let (segment, written) := write_document store segment
      (SharedMemoryIndexDocument.empty segment.header.store_epoch)
    (.mapped segment, written.map fun _ => segment)

def with_document_lock {α : Type} (clock : Nat) (memory : SharedMemory γ)
    (operation : SharedMemorySegment γ → SharedMemoryIndexDocument β →
      SharedMemorySegment γ × IoResult α) : SharedMemory γ × IoResult α :=
  match open_or_create_segment store clock memory with
  | (memory, .error error) => (memory, .error error)
  | (memory, .ok segment) =>
    match read_document store segment with
    | .error error => (memory, .error error)
    | .ok document =>
      let (segment, result) := operation segment document
      (.mapped segment, result)

/-! ## The functions of the store -/

structure SharedIndexSyncState where
  generation : Nat
  store_epoch : Nat
  deriving DecidableEq, Repr

structure LoadedSharedIndexChanges where
  generation : Nat
  store_epoch : Nat
  last_change_seq : Nat
  operations : List SharedIndexOperation

structure AppliedSharedIndexOperations where
  generation : Nat
  store_epoch : Nat
  last_change_seq : Nat
  deriving DecidableEq, Repr

def sync_state (clock : Nat) (memory : SharedMemory γ) :
    SharedMemory γ × IoResult SharedIndexSyncState :=
  with_document_lock store clock memory fun segment document =>
    (segment, .ok ⟨document.generation, document.store_epoch⟩)

def load (clock : Nat) (memory : SharedMemory γ) : SharedMemory γ × IoResult LoadedSharedIndex :=
  with_document_lock store clock memory fun segment document =>
    (segment, loaded_index_from_document store.json document)

def load_changes_since (clock : Nat) (memory : SharedMemory γ) (after_seq : Nat) :
    SharedMemory γ × IoResult LoadedSharedIndexChanges :=
  with_document_lock store clock memory fun segment document =>
    (segment, do
      let operations ← operations_since store.json document after_seq
      return ⟨document.generation, document.store_epoch, document.last_change_seq, operations⟩)

/-- `write_document`, and then the counters of the document as the result. -/
def write_applied (segment : SharedMemorySegment γ) (document : SharedMemoryIndexDocument β) :
    SharedMemorySegment γ × IoResult AppliedSharedIndexOperations :=
  let (segment, written) := write_document store segment document
  (segment, written.map fun _ =>
    ⟨document.generation, document.store_epoch, document.last_change_seq⟩)

def apply_operations (clock : Nat) (memory : SharedMemory γ)
    (operations : List SharedIndexOperation) :
    SharedMemory γ × IoResult AppliedSharedIndexOperations :=
  with_document_lock store clock memory fun segment document =>
    if operations = [] then
      (segment, .ok ⟨document.generation, document.store_epoch, document.last_change_seq⟩)
    else
      match apply_operations_to_document store.json store.operation_ring_capacity document
          operations with
      | .error error => (segment, .error error)
      | .ok document => write_applied store segment document

/-- The document starts anew in the epoch of the segment, which is a new one only when the
segment had to be created. -/
def recreate (clock : Nat) (memory : SharedMemory γ) (index : CacheIndex) (generation : Nat) :
    SharedMemory γ × IoResult AppliedSharedIndexOperations :=
  match open_or_create_segment store clock memory with
  | (memory, .error error) => (memory, .error error)
  | (memory, .ok segment) =>
    let previous_rebuild_total := match read_document store segment with
      | .ok document => document.rebuild_total
      | .error _ => 0
    match recreated_document store.json segment.header.store_epoch generation
        (saturating_add previous_rebuild_total 1) index with
    | .error error => (memory, .error error)
    | .ok document =>
      let (segment, applied) := write_applied store segment document
      (.mapped segment, applied)

end Store

/-! ## A memory that holds a document -/

section Holds

variable {γ β : Type} {store : MemorySharedIndexStore γ β}

variable (store) in
/-- The memory holds the document: its text reads as the document, and its header has the epoch
of the document. -/
def Holds (memory : SharedMemory γ) (document : SharedMemoryIndexDocument β) : Prop :=
  ∃ segment, memory = .mapped segment ∧ read_document store segment = .ok document ∧
    segment.header.store_epoch = document.store_epoch

/-- On a memory that holds a document, a function of the store runs on that document. -/
theorem Holds.with_document_lock {α : Type} {memory : SharedMemory γ}
    {document : SharedMemoryIndexDocument β} (h : Holds store memory document) (clock : Nat)
    (operation : SharedMemorySegment γ → SharedMemoryIndexDocument β →
      SharedMemorySegment γ × IoResult α) :
    ∃ segment, memory = .mapped segment ∧ read_document store segment = .ok document ∧
      with_document_lock store clock memory operation =
        (.mapped (operation segment document).1, (operation segment document).2) := by
  obtain ⟨segment, rfl, hread, -⟩ := h
  refine ⟨segment, rfl, hread, ?_⟩
  simp [rginx.cache.with_document_lock, open_or_create_segment, hread]

theorem Holds.sync_state {memory : SharedMemory γ} {document : SharedMemoryIndexDocument β}
    (h : Holds store memory document) (clock : Nat) :
    sync_state store clock memory =
      (memory, .ok ⟨document.generation, document.store_epoch⟩) := by
  obtain ⟨segment, rfl, -, hrun⟩ := h.with_document_lock clock
    fun segment document => (segment,
      .ok (⟨document.generation, document.store_epoch⟩ : SharedIndexSyncState))
  exact hrun

theorem Holds.load {memory : SharedMemory γ} {document : SharedMemoryIndexDocument β}
    (h : Holds store memory document) (clock : Nat) :
    load store clock memory = (memory, loaded_index_from_document store.json document) := by
  obtain ⟨segment, rfl, -, hrun⟩ := h.with_document_lock clock
    fun segment document => (segment, loaded_index_from_document store.json document)
  exact hrun

theorem Holds.load_changes_since {memory : SharedMemory γ}
    {document : SharedMemoryIndexDocument β} (h : Holds store memory document)
    (clock after_seq : Nat) :
    load_changes_since store clock memory after_seq =
      (memory, do
        let operations ← operations_since store.json document after_seq
        return ⟨document.generation, document.store_epoch, document.last_change_seq,
          operations⟩) := by
  obtain ⟨segment, rfl, -, hrun⟩ := h.with_document_lock clock
    fun segment document => (segment, do
      let operations ← operations_since store.json document after_seq
      return (⟨document.generation, document.store_epoch, document.last_change_seq,
        operations⟩ : LoadedSharedIndexChanges))
  exact hrun

/-- A write that succeeds leaves the document in the memory. -/
theorem write_document_holds {segment segment' : SharedMemorySegment γ}
    {document : SharedMemoryIndexDocument β} (hversion : document.version = 1)
    (h : write_document store segment document = (segment', .ok ())) :
    Holds store (.mapped segment') document := by
  unfold write_document at h
  split at h
  · cases (Prod.mk.inj h).2
  · rename_i bytes hbytes
    split at h
    · cases (Prod.mk.inj h).2
    · dsimp only at h
      split at h
      · cases (Prod.mk.inj h).2
      · obtain rfl := (Prod.mk.inj h).1
        refine ⟨_, rfl, ?_, rfl⟩
        simp [read_document, store.document.round_trip _ _ hbytes, hversion]

theorem write_applied_holds {segment : SharedMemorySegment γ}
    {document : SharedMemoryIndexDocument β} {applied : AppliedSharedIndexOperations}
    (hversion : document.version = 1)
    (h : (write_applied store segment document).2 = .ok applied) :
    Holds store (.mapped (write_applied store segment document).1) document ∧
      applied = ⟨document.generation, document.store_epoch, document.last_change_seq⟩ := by
  unfold write_applied at h ⊢
  rcases hw : write_document store segment document with ⟨segment', e | u⟩
  · rw [hw] at h
    cases h
  · rw [hw] at h
    obtain rfl := Except.ok.inj h
    exact ⟨write_document_holds hversion hw, rfl⟩

theorem read_document_version {segment : SharedMemorySegment γ}
    {document : SharedMemoryIndexDocument β} (h : read_document store segment = .ok document) :
    document.version = 1 := by
  unfold read_document at h
  split at h
  · obtain rfl := Except.ok.inj h
    rfl
  · cases h
  · obtain ⟨read, -, h⟩ := bind_eq_ok.mp h
    split at h
    · cases h
    · rename_i hversion
      obtain rfl := Except.ok.inj h
      simpa using hversion

/-- Operations that are applied with success leave their document in the memory. -/
theorem Holds.apply_operations {memory : SharedMemory γ}
    {document : SharedMemoryIndexDocument β} {view : SharedView}
    (h : Holds store memory document) (hview : Decodes store.json document view) (clock : Nat)
    {operations : List SharedIndexOperation} {applied : AppliedSharedIndexOperations}
    (happly : (apply_operations store clock memory operations).2 = .ok applied) :
    ∃ document', apply_operations_to_document store.json store.operation_ring_capacity document
        operations = .ok document' ∧
      Holds store (apply_operations store clock memory operations).1 document' ∧
      applied = ⟨document'.generation, document'.store_epoch, document'.last_change_seq⟩ := by
  obtain ⟨segment, hmem, hread, hrun⟩ := h.with_document_lock clock fun segment document =>
    if operations = [] then
      (segment, .ok ⟨document.generation, document.store_epoch, document.last_change_seq⟩)
    else
      match apply_operations_to_document store.json store.operation_ring_capacity document
          operations with
      | .error error => (segment, .error error)
      | .ok document => write_applied store segment document
  have heq : rginx.cache.apply_operations store clock memory operations = _ := hrun
  rw [heq] at happly ⊢
  clear hrun heq
  by_cases hnil : operations = []
  · simp only [hnil, if_true] at happly ⊢
    refine ⟨document, rfl, ?_, ?_⟩
    · rw [← hmem]
      exact h
    · exact (Except.ok.inj happly).symm
  · simp only [hnil, if_false] at happly ⊢
    rcases hops : apply_operations_to_document store.json store.operation_ring_capacity document
        operations with error | document'
    · rw [hops] at happly
      cases happly
    · rw [hops] at happly
      obtain ⟨hv, -, -⟩ := apply_operations_to_document_counters hview hops
      rw [read_document_version hread] at hv
      obtain ⟨hholds, hcounters⟩ := write_applied_holds hv happly
      exact ⟨document', rfl, hholds, hcounters⟩

end Holds

end rginx.cache
