-- The segment of the shared index byte by byte, from `memory.rs` and `memory_backend.rs`: the header in
-- its C layout, the length and the text of the document behind it, and each write to the memory in its
-- order. A process that dies leaves some of the writes of a call, and a part of one.
import Rginx.PackedRecords
import Rginx.SharedStore

open rust_result packed_records

namespace rginx.cache.segment_bytes

/-! ## The header -/

def SHM_MAGIC : UInt64 := 0x4d485358_4e494752

def SHM_ABI_VERSION : UInt32 := 1

/-- `size_of::<SharedMemoryHeader>()`. -/
def HEADER_LEN : Nat := 104

def PAYLOAD_LEN_BYTES : Nat := 8

structure SharedMemoryHeader where
  magic : UInt64
  abi_version : UInt32
  header_len : UInt32
  zone_name_hash : UInt64
  capacity_bytes : UInt64
  generation : UInt64
  store_epoch : UInt64
  operation_seq : UInt64
  entry_count : UInt64
  current_size_bytes : UInt64
  hash_bucket_count : UInt64
  operation_ring_capacity : UInt64
  allocator_free_head : UInt64
  flags : UInt64
  deriving DecidableEq, Repr

/-- The widths of the fields: none needs padding before it. -/
def FIELD_WIDTHS : List Nat := [8, 4, 4, 8, 8, 8, 8, 8, 8, 8, 8, 8, 8, 8]

def SharedMemoryHeader.to_bytes (header : SharedMemoryHeader) : List UInt8 :=
  pack FIELD_WIDTHS
    [header.magic.toNat, header.abi_version.toNat, header.header_len.toNat,
      header.zone_name_hash.toNat, header.capacity_bytes.toNat, header.generation.toNat,
      header.store_epoch.toNat, header.operation_seq.toNat, header.entry_count.toNat,
      header.current_size_bytes.toNat, header.hash_bucket_count.toNat,
      header.operation_ring_capacity.toNat, header.allocator_free_head.toNat, header.flags.toNat]

def SharedMemoryHeader.of_bytes (bytes : List UInt8) : SharedMemoryHeader :=
  let field (index : Nat) : Nat := (unpack FIELD_WIDTHS 0 bytes).getD index 0
  { magic := .ofNat (field 0)
    abi_version := .ofNat (field 1)
    header_len := .ofNat (field 2)
    zone_name_hash := .ofNat (field 3)
    capacity_bytes := .ofNat (field 4)
    generation := .ofNat (field 5)
    store_epoch := .ofNat (field 6)
    operation_seq := .ofNat (field 7)
    entry_count := .ofNat (field 8)
    current_size_bytes := .ofNat (field 9)
    hash_bucket_count := .ofNat (field 10)
    operation_ring_capacity := .ofNat (field 11)
    allocator_free_head := .ofNat (field 12)
    flags := .ofNat (field 13) }

theorem ofNat_toNat_mod (n : UInt64) : UInt64.ofNat (n.toNat % 256 ^ 8) = n := by
  rw [Nat.mod_eq_of_lt (n.toNat_lt.trans_eq (by norm_num)), UInt64.ofNat_toNat]

theorem ofNat_toNat_mod_32 (n : UInt32) : UInt32.ofNat (n.toNat % 256 ^ 4) = n := by
  rw [Nat.mod_eq_of_lt (n.toNat_lt.trans_eq (by norm_num)), UInt32.ofNat_toNat]

@[simp] theorem length_to_bytes (header : SharedMemoryHeader) :
    header.to_bytes.length = HEADER_LEN := length_pack rfl

/-- The round trip of a header at the beginning of a memory. -/
theorem of_bytes_to_bytes (header : SharedMemoryHeader) (after : List UInt8) :
    SharedMemoryHeader.of_bytes (header.to_bytes ++ after) = header := by
  have hfields := @unpack_pack FIELD_WIDTHS
    [header.magic.toNat, header.abi_version.toNat, header.header_len.toNat,
      header.zone_name_hash.toNat, header.capacity_bytes.toNat, header.generation.toNat,
      header.store_epoch.toNat, header.operation_seq.toNat, header.entry_count.toNat,
      header.current_size_bytes.toNat, header.hash_bucket_count.toNat,
      header.operation_ring_capacity.toNat, header.allocator_free_head.toNat, header.flags.toNat]
    rfl [] after
  unfold SharedMemoryHeader.of_bytes SharedMemoryHeader.to_bytes
  rw [List.length_nil, List.nil_append] at hfields
  simp only [hfields]
  simp only [FIELD_WIDTHS, List.zipWith_cons_cons, List.zipWith_nil_left,
    List.getD_cons_zero, List.getD_cons_succ, ofNat_toNat_mod, ofNat_toNat_mod_32]

/-! ## The memory under the name of the zone -/

/-- Less the name. A smaller capacity makes every call fail; a larger one is no `off_t`. -/
structure SharedMemorySegmentConfig where
  zone_name_hash : UInt64
  capacity_bytes : Nat
  hash_bucket_count : UInt64
  operation_ring_capacity : UInt64
  flags : UInt64
  fits : HEADER_LEN + PAYLOAD_LEN_BYTES ≤ capacity_bytes
  addressable : capacity_bytes ≤ 0x7fffffffffffffff

/-- The bytes of the object, where there is one. -/
abbrev SharedObject := Option (List UInt8)

/-- `copy_nonoverlapping`, `write_bytes` or the write of a header. -/
structure Copy where
  offset : Nat
  bytes : List UInt8

inductive SegmentWrite
  | shm_open
  | ftruncate (capacity_bytes : Nat)
  | copy (copied : Copy)
  | shm_unlink

def write (segment : List UInt8) (copies : List Copy) : List UInt8 :=
  copies.foldl (fun segment copy => overwrite segment copy.offset copy.bytes) segment

/-- An object grows by zeros. A copy goes to an object that is open. -/
def SegmentWrite.apply : SharedObject → SegmentWrite → SharedObject
  | none, .shm_open => some []
  | some bytes, .shm_open => some bytes
  | some bytes, .ftruncate capacity_bytes =>
    some (bytes.take capacity_bytes ++ List.replicate (capacity_bytes - bytes.length) 0)
  | some bytes, .copy copied => some (overwrite bytes copied.offset copied.bytes)
  | none, .ftruncate _ => none
  | none, .copy _ => none
  | _, .shm_unlink => none

def run (object : SharedObject) (writes : List SegmentWrite) : SharedObject :=
  writes.foldl SegmentWrite.apply object

def write_payload (offset : Nat) (bytes : List UInt8) : Copy := ⟨HEADER_LEN + offset, bytes⟩

def read_payload (segment : List UInt8) (offset len : Nat) : List UInt8 :=
  slice segment (HEADER_LEN + offset) len

def write_header (header : SharedMemoryHeader) : Copy := ⟨0, header.to_bytes⟩

def payload_capacity (segment : List UInt8) : Nat := segment.length - HEADER_LEN

/-- The nanoseconds since the epoch, as far as they go. -/
def current_store_epoch (nanos : Nat) : Nat := max (min nanos (UInt64.size - 1)) 1

section Config

variable (config : SharedMemorySegmentConfig)

def initial_header (nanos : Nat) : SharedMemoryHeader :=
  { magic := SHM_MAGIC
    abi_version := SHM_ABI_VERSION
    header_len := .ofNat HEADER_LEN
    zone_name_hash := config.zone_name_hash
    capacity_bytes := .ofNat config.capacity_bytes
    generation := 1
    store_epoch := .ofNat (current_store_epoch nanos)
    operation_seq := 0
    entry_count := 0
    current_size_bytes := 0
    hash_bucket_count := config.hash_bucket_count
    operation_ring_capacity := config.operation_ring_capacity
    allocator_free_head := 0
    flags := config.flags }

/-- The fields that have to match, with the value that is expected and the one that is found. -/
def header_checks (header : SharedMemoryHeader) : List (String × Nat × Nat) :=
  [("magic", SHM_MAGIC.toNat, header.magic.toNat),
    ("abi_version", SHM_ABI_VERSION.toNat, header.abi_version.toNat),
    ("header_len", HEADER_LEN, header.header_len.toNat),
    ("zone_name_hash", config.zone_name_hash.toNat, header.zone_name_hash.toNat),
    ("capacity_bytes", config.capacity_bytes, header.capacity_bytes.toNat),
    ("hash_bucket_count", config.hash_bucket_count.toNat, header.hash_bucket_count.toNat),
    ("operation_ring_capacity", config.operation_ring_capacity.toNat,
      header.operation_ring_capacity.toNat),
    ("flags", config.flags.toNat, header.flags.toNat)]

def invalid_header (field : String) (expected actual : Nat) : IoError :=
  ⟨.InvalidData, s!"shared memory header {field} mismatch: expected {expected}, found {actual}"⟩

/-- The first field that does not match is the error. -/
def validate_header (header : SharedMemoryHeader) : IoResult Unit :=
  match (header_checks config header).find? fun check => check.2.1 ≠ check.2.2 with
  | some (field, expected, actual) => .error (invalid_header field expected actual)
  | none => .ok ()

def attach (object : SharedObject) : IoResult (List UInt8) :=
  match object with
  | none => .error ⟨.NotFound, "No such file or directory (os error 2)"⟩
  | some bytes =>
    if bytes.length ≠ config.capacity_bytes then
      .error ⟨.InvalidData, s!"shared memory capacity mismatch: expected {config.capacity_bytes}, " ++
        s!"found {bytes.length}"⟩
    else do
      validate_header config (.of_bytes bytes)
      return bytes

/-- An object is opened, or made, then cut or filled up, zeroed, and given its header. -/
def create_or_reset (nanos : Nat) : List SegmentWrite :=
  [.shm_open, .ftruncate config.capacity_bytes,
    .copy ⟨0, List.replicate config.capacity_bytes 0⟩,
    .copy (write_header (initial_header config nanos))]

/-- The bytes that it ends in. -/
def created (nanos : Nat) : List UInt8 :=
  write (List.replicate config.capacity_bytes 0) [write_header (initial_header config nanos)]

end Config

/-! ## The store -/

/-- The configuration with the codecs. A document is written as some text; of its epoch, a text is
read only where it fits a `u64`. -/
structure MemoryByteStore (β : Type) where
  config : SharedMemorySegmentConfig
  json : SerdeJson β
  document : Json (List UInt8) (SharedMemoryIndexDocument β)
  writes_text : ∀ value bytes, document.to_vec value = .ok bytes → bytes ≠ []
  reads_epoch : ∀ bytes value, document.from_slice bytes = .ok value →
    value.store_epoch < UInt64.size

section Store

variable {α β : Type} (store : MemoryByteStore β)

/-- The store whose payload is a value. -/
def MemoryByteStore.values : MemorySharedIndexStore (List UInt8) β :=
  { json := store.json
    document := store.document
    len := List.length
    document_capacity := store.config.capacity_bytes - HEADER_LEN - PAYLOAD_LEN_BYTES
    operation_ring_capacity := store.config.operation_ring_capacity.toNat }

def read_document (segment : List UInt8) : IoResult (SharedMemoryIndexDocument β) :=
  let len := from_le_bytes (read_payload segment 0 PAYLOAD_LEN_BYTES)
  if len = 0 then
    return SharedMemoryIndexDocument.empty (SharedMemoryHeader.of_bytes segment).store_epoch.toNat
  else
    let document_capacity := payload_capacity segment - PAYLOAD_LEN_BYTES
    if document_capacity < len then
      .error ⟨.InvalidData,
        s!"shared memory document length exceeds payload capacity: length {len}, " ++
          s!"capacity {document_capacity}"⟩
    else do
      let document ← store.document.from_slice (read_payload segment PAYLOAD_LEN_BYTES len)
      if document.version ≠ 1 then
        .error ⟨.InvalidData,
          s!"unsupported shared memory index document version `{document.version}`"⟩
      else return document

/-- The header is read after the payload is written, which leaves it as it is. -/
def document_header (segment : List UInt8) (document : SharedMemoryIndexDocument β)
    (current_size_bytes : Nat) : SharedMemoryHeader :=
  { SharedMemoryHeader.of_bytes segment with
    generation := .ofNat document.generation
    store_epoch := .ofNat document.store_epoch
    operation_seq := .ofNat document.last_change_seq
    entry_count := .ofNat document.entries.size
    current_size_bytes := .ofNat current_size_bytes }

/-- The copies of a write, and its result. -/
def write_document (segment : List UInt8) (document : SharedMemoryIndexDocument β) :
    List Copy × IoResult Unit :=
  match store.document.to_vec document with
  | .error error => ([], .error error)
  | .ok bytes =>
    let document_capacity := payload_capacity segment - PAYLOAD_LEN_BYTES
    if document_capacity < bytes.length then
      ([], .error ⟨.OutOfMemory,
        s!"shared memory index document exceeds capacity: length {bytes.length}, " ++
          s!"capacity {document_capacity}"⟩)
    else
      let payload := [write_payload 0 (to_le_bytes PAYLOAD_LEN_BYTES bytes.length),
        write_payload PAYLOAD_LEN_BYTES bytes]
      match document_current_size_bytes store.json document with
      | .error error => (payload, .error error)
      | .ok current_size_bytes =>
        (payload ++ [write_header (document_header segment document current_size_bytes)], .ok ())

/-- A new object, with an empty document. -/
def create_segment (nanos : Nat) : List SegmentWrite × IoResult (List UInt8) :=
  let segment := created store.config nanos
  let (copies, written) := write_document store segment
    (SharedMemoryIndexDocument.empty (SharedMemoryHeader.of_bytes segment).store_epoch.toNat)
  (create_or_reset store.config nanos ++ copies.map .copy, written.map fun _ => write segment copies)

def open_or_create_segment (nanos : Nat) (object : SharedObject) :
    List SegmentWrite × IoResult (List UInt8) :=
  match attach store.config object with
  | .ok segment => ([], .ok segment)
  | .error error =>
    match error.kind with
    | .NotFound => create_segment store nanos
    | .InvalidData =>
      let (writes, segment) := create_segment store nanos
      (.shm_unlink :: writes, segment)
    | _ => ([], .error error)

/-- The operation gives the copies that it makes. -/
def with_document_lock (nanos : Nat) (object : SharedObject)
    (operation : List UInt8 → SharedMemoryIndexDocument β → List Copy × IoResult α) :
    List SegmentWrite × IoResult α :=
  match open_or_create_segment store nanos object with
  | (writes, .error error) => (writes, .error error)
  | (writes, .ok segment) =>
    match read_document store segment with
    | .error error => (writes, .error error)
    | .ok document =>
      let (copies, result) := operation segment document
      (writes ++ copies.map .copy, result)

def sync_state (nanos : Nat) (object : SharedObject) :
    List SegmentWrite × IoResult SharedIndexSyncState :=
  with_document_lock store nanos object fun _ document =>
    ([], .ok ⟨document.generation, document.store_epoch⟩)

def load (nanos : Nat) (object : SharedObject) : List SegmentWrite × IoResult LoadedSharedIndex :=
  with_document_lock store nanos object fun _ document =>
    ([], loaded_index_from_document store.json document)

def load_changes_since (nanos : Nat) (object : SharedObject) (after_seq : Nat) :
    List SegmentWrite × IoResult LoadedSharedIndexChanges :=
  with_document_lock store nanos object fun _ document =>
    ([], do
      let operations ← operations_since store.json document after_seq
      return ⟨document.generation, document.store_epoch, document.last_change_seq, operations⟩)

/-- `write_document`, and then the counters of the document as the result. -/
def write_applied (segment : List UInt8) (document : SharedMemoryIndexDocument β) :
    List Copy × IoResult AppliedSharedIndexOperations :=
  let (copies, written) := write_document store segment document
  (copies, written.map fun _ =>
    ⟨document.generation, document.store_epoch, document.last_change_seq⟩)

def apply_operations (nanos : Nat) (object : SharedObject)
    (operations : List SharedIndexOperation) :
    List SegmentWrite × IoResult AppliedSharedIndexOperations :=
  with_document_lock store nanos object fun segment document =>
    if operations = [] then
      ([], .ok ⟨document.generation, document.store_epoch, document.last_change_seq⟩)
    else
      match apply_operations_to_document store.json store.config.operation_ring_capacity.toNat
          document operations with
      | .error error => ([], .error error)
      | .ok document => write_applied store segment document

def recreate (nanos : Nat) (object : SharedObject) (index : CacheIndex) (generation : Nat) :
    List SegmentWrite × IoResult AppliedSharedIndexOperations :=
  match open_or_create_segment store nanos object with
  | (writes, .error error) => (writes, .error error)
  | (writes, .ok segment) =>
    let previous_rebuild_total := match read_document store segment with
      | .ok document => document.rebuild_total
      | .error _ => 0
    match recreated_document store.json (SharedMemoryHeader.of_bytes segment).store_epoch.toNat
        generation (saturating_add previous_rebuild_total 1) index with
    | .error error => (writes, .error error)
    | .ok document =>
      let (copies, applied) := write_applied store segment document
      (writes ++ copies.map .copy, applied)

end Store

/-! ## Reading what was written -/

theorem of_bytes_congr {bytes other : List UInt8}
    (h : slice bytes 0 HEADER_LEN = slice other 0 HEADER_LEN) :
    SharedMemoryHeader.of_bytes bytes = SharedMemoryHeader.of_bytes other := by
  unfold SharedMemoryHeader.of_bytes
  rw [unpack_congr h (show 0 + FIELD_WIDTHS.sum ≤ HEADER_LEN by decide)]

/-- The payload stands behind the header. -/
theorem of_bytes_write_payload {segment bytes : List UInt8} {offset : Nat}
    (h : HEADER_LEN + offset ≤ segment.length) :
    SharedMemoryHeader.of_bytes (overwrite segment (HEADER_LEN + offset) bytes) =
      SharedMemoryHeader.of_bytes segment :=
  of_bytes_congr (slice_overwrite_of_disjoint h (.inl (by omega)))

theorem of_bytes_write_header (segment : List UInt8) (header : SharedMemoryHeader) :
    SharedMemoryHeader.of_bytes (overwrite segment 0 header.to_bytes) = header :=
  of_bytes_to_bytes header _

theorem read_payload_write_header {segment : List UInt8} (header : SharedMemoryHeader)
    (offset len : Nat) :
    read_payload (overwrite segment 0 header.to_bytes) offset len = read_payload segment offset len :=
  slice_overwrite_of_disjoint (Nat.zero_le _) (.inr (by rw [length_to_bytes]; omega))

/-- What the length of the document and its text show. -/
def shown_payload (segment : List UInt8) : Payload (List UInt8) :=
  let len := from_le_bytes (read_payload segment 0 PAYLOAD_LEN_BYTES)
  if len = 0 then .zeroed
  else if payload_capacity segment - PAYLOAD_LEN_BYTES < len then .overlong len
  else .text (read_payload segment PAYLOAD_LEN_BYTES len)

/-- The length is that of the text, where the text has room. -/
theorem shown_payload_write {segment bytes : List UInt8} (hbytes : bytes ≠ [])
    (hroom : HEADER_LEN + PAYLOAD_LEN_BYTES + bytes.length ≤ segment.length)
    (hsize : segment.length < 256 ^ PAYLOAD_LEN_BYTES) :
    shown_payload (write segment
      [write_payload 0 (to_le_bytes PAYLOAD_LEN_BYTES bytes.length),
        write_payload PAYLOAD_LEN_BYTES bytes]) = .text bytes := by
  have hfirst : HEADER_LEN + 0 + (to_le_bytes PAYLOAD_LEN_BYTES bytes.length).length ≤
      segment.length := by
    rw [length_to_le_bytes]
    omega
  have hlength := length_overwrite hfirst
  set first := overwrite segment (HEADER_LEN + 0) (to_le_bytes PAYLOAD_LEN_BYTES bytes.length)
    with hdef
  have hsecond : HEADER_LEN + PAYLOAD_LEN_BYTES + bytes.length ≤ first.length := by
    rw [hlength]
    exact hroom
  have hlen : from_le_bytes (read_payload
      (overwrite first (HEADER_LEN + PAYLOAD_LEN_BYTES) bytes) 0 PAYLOAD_LEN_BYTES) =
      bytes.length := by
    have hread : read_payload (overwrite first (HEADER_LEN + PAYLOAD_LEN_BYTES) bytes) 0
        PAYLOAD_LEN_BYTES = to_le_bytes PAYLOAD_LEN_BYTES bytes.length := by
      rw [read_payload, slice_overwrite_of_disjoint (by omega) (.inl (by omega)), hdef]
      have hsame := @slice_overwrite _ segment (to_le_bytes PAYLOAD_LEN_BYTES bytes.length)
        (HEADER_LEN + 0) (by omega)
      rwa [length_to_le_bytes] at hsame
    rw [hread, from_le_bytes_to_le_bytes]
    exact Nat.mod_eq_of_lt (by omega)
  change shown_payload (overwrite first (HEADER_LEN + PAYLOAD_LEN_BYTES) bytes) = _
  unfold shown_payload
  rw [hlen, if_neg (by simpa using hbytes), if_neg, read_payload, slice_overwrite (by omega)]
  rw [payload_capacity, length_overwrite hsecond]
  omega

/-! ## Bytes that show a segment -/

/-- The fields of the header, as far as a `u64` goes, with the whole epoch; and the payload. -/
structure Shows (bytes : List UInt8) (segment : SharedMemorySegment (List UInt8)) : Prop where
  generation : (SharedMemoryHeader.of_bytes bytes).generation = .ofNat segment.header.generation
  store_epoch : (SharedMemoryHeader.of_bytes bytes).store_epoch.toNat = segment.header.store_epoch
  operation_seq : (SharedMemoryHeader.of_bytes bytes).operation_seq =
    .ofNat segment.header.operation_seq
  entry_count : (SharedMemoryHeader.of_bytes bytes).entry_count = .ofNat segment.header.entry_count
  current_size_bytes : (SharedMemoryHeader.of_bytes bytes).current_size_bytes =
    .ofNat segment.header.current_size_bytes
  payload : segment.payload = shown_payload bytes

/-- The bytes have the size and the header of the configuration. -/
structure Mapped (config : SharedMemorySegmentConfig) (bytes : List UInt8) : Prop where
  length : bytes.length = config.capacity_bytes
  header : validate_header config (.of_bytes bytes) = .ok ()

/-- What a memory of values says of the bytes under the name of the zone. -/
def Sim (config : SharedMemorySegmentConfig) :
    SharedObject → SharedMemory (List UInt8) → Prop
  | none, .missing => True
  | some bytes, .mismatched => ¬ Mapped config bytes
  | some bytes, .mapped segment => Mapped config bytes ∧ Shows bytes segment
  | _, _ => False

section Sim

variable {config : SharedMemorySegmentConfig}

theorem attach_of_mapped {bytes : List UInt8} (h : Mapped config bytes) :
    attach config (some bytes) = .ok bytes := by
  rw [attach, if_neg (by simpa using h.length), h.header]
  rfl

theorem attach_of_not_mapped {bytes : List UInt8} (h : ¬ Mapped config bytes) :
    ∃ error, attach config (some bytes) = .error error ∧ error.kind = .InvalidData := by
  by_cases hlength : bytes.length = config.capacity_bytes
  · cases hheader : validate_header config (.of_bytes bytes) with
    | ok => exact absurd ⟨hlength, hheader⟩ h
    | error error =>
      refine ⟨error, by rw [attach, if_neg (not_not.mpr hlength), hheader]; rfl, ?_⟩
      unfold validate_header at hheader
      split at hheader
      · obtain rfl := Except.error.inj hheader
        rfl
      · cases hheader
  · exact ⟨_, by rw [attach, if_pos hlength], rfl⟩

/-- Whatever the bytes are, a memory of values says what they are. -/
theorem exists_sim (config : SharedMemorySegmentConfig) (object : SharedObject) :
    ∃ memory, Sim config object memory := by
  cases object with
  | none => exact ⟨.missing, trivial⟩
  | some bytes =>
    by_cases hmapped : Mapped config bytes
    · let header := SharedMemoryHeader.of_bytes bytes
      refine ⟨.mapped ⟨⟨header.generation.toNat, header.store_epoch.toNat, header.operation_seq.toNat,
        header.entry_count.toNat, header.current_size_bytes.toNat⟩, shown_payload bytes⟩, hmapped, ?_⟩
      constructor <;> simp [header]
    · exact ⟨.mismatched, hmapped⟩

theorem validate_header_ok {header : SharedMemoryHeader} :
    validate_header config header = .ok () ↔
      ∀ check ∈ header_checks config header, check.2.1 = check.2.2 := by
  unfold validate_header
  split
  · rename_i field expected actual hfind
    have hdiffers : expected ≠ actual := by simpa using List.find?_some hfind
    refine iff_of_false (fun h => nomatch h) fun h => hdiffers ?_
    exact h _ (List.mem_of_find?_eq_some hfind)
  · rename_i hnone
    refine iff_of_true rfl fun check hcheck => ?_
    simpa using List.find?_eq_none.mp hnone check hcheck

/-- The fields that a document changes are not among those that are checked. -/
theorem validate_header_congr {header other : SharedMemoryHeader}
    (h : header_checks config header = header_checks config other) :
    validate_header config header = validate_header config other := by
  rw [validate_header, validate_header, h]

theorem Mapped.room (h : Mapped config bytes) :
    HEADER_LEN + PAYLOAD_LEN_BYTES ≤ bytes.length := h.length ▸ config.fits

/-- A header that checks out as the one before. -/
theorem Mapped.write_header {bytes : List UInt8} {header : SharedMemoryHeader}
    (h : Mapped config bytes)
    (hchecks : header_checks config header = header_checks config (.of_bytes bytes)) :
    Mapped config (overwrite bytes 0 header.to_bytes) := by
  have hroom := h.room
  refine ⟨(length_overwrite ?_).trans h.length, ?_⟩
  · rw [length_to_bytes]
    omega
  · rw [of_bytes_write_header, validate_header_congr hchecks]
    exact h.header

theorem Mapped.write_payload {bytes payload : List UInt8} {offset : Nat} (h : Mapped config bytes)
    (hroom : HEADER_LEN + offset + payload.length ≤ bytes.length) :
    Mapped config (overwrite bytes (HEADER_LEN + offset) payload) := by
  refine ⟨(length_overwrite hroom).trans h.length, ?_⟩
  rw [of_bytes_write_payload (by omega)]
  exact h.header

end Sim

end rginx.cache.segment_bytes
