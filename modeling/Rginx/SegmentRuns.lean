-- The store on bytes against the store on values: from any bytes under the name of the zone, every run
-- of calls gives the results of the calls on the memory of values that says what the bytes are.
import Rginx.SegmentBytes
import Rginx.StepRuns

open rust_result packed_records step_runs

namespace rginx.cache.segment_bytes

variable {α β : Type} {store : MemoryByteStore β} {bytes : List UInt8}
  {segment : SharedMemorySegment (List UInt8)} {document : SharedMemoryIndexDocument β}

/-! ## The document -/

theorem Mapped.size {config : SharedMemorySegmentConfig} (h : Mapped config bytes) :
    bytes.length < 256 ^ PAYLOAD_LEN_BYTES := by
  have haddressable := config.addressable
  rw [h.length]
  have hsize : (0x7fffffffffffffff : Nat) < 256 ^ PAYLOAD_LEN_BYTES := by norm_num [PAYLOAD_LEN_BYTES]
  omega

theorem Mapped.payload_capacity {config : SharedMemorySegmentConfig} (h : Mapped config bytes) :
    payload_capacity bytes = config.capacity_bytes - HEADER_LEN := by
  rw [segment_bytes.payload_capacity, h.length]

theorem read_document_shows (hmapped : Mapped store.config bytes) (hshows : Shows bytes segment) :
    read_document store bytes = cache.read_document store.values segment := by
  unfold read_document cache.read_document
  rw [hshows.payload, shown_payload]
  simp only [hmapped.payload_capacity]
  split
  · rw [hshows.store_epoch]
  · split
    · rfl
    · rfl

/-- The epoch of a document that is read fits the header. -/
theorem read_document_epoch (h : read_document store bytes = .ok document) :
    document.store_epoch < UInt64.size := by
  unfold read_document at h
  dsimp only at h
  split at h
  · obtain rfl := Except.ok.inj h
    exact UInt64.toNat_lt_size _
  · split at h
    · cases h
    · obtain ⟨value, hvalue, h⟩ := bind_eq_ok.mp h
      split at h
      · cases h
      · obtain rfl := Except.ok.inj h
        exact store.reads_epoch _ _ hvalue

/-- The length and the text of a document that has room. -/
structure Paid (store : MemoryByteStore β) (bytes text paid : List UInt8) : Prop where
  mapped : Mapped store.config paid
  header : SharedMemoryHeader.of_bytes paid = .of_bytes bytes
  payload : shown_payload paid = .text text

/-- The two copies of the payload. -/
def payload_copies (text : List UInt8) : List Copy :=
  [write_payload 0 (to_le_bytes PAYLOAD_LEN_BYTES text.length), write_payload PAYLOAD_LEN_BYTES text]

theorem paid_of_room (hmapped : Mapped store.config bytes) {text : List UInt8} (htext : text ≠ [])
    (hroom : text.length ≤ store.config.capacity_bytes - HEADER_LEN - PAYLOAD_LEN_BYTES) :
    Paid store bytes text (write bytes (payload_copies text)) := by
  have hfits := store.config.fits
  have hlength := hmapped.length
  have hwidth : (to_le_bytes PAYLOAD_LEN_BYTES text.length).length = PAYLOAD_LEN_BYTES :=
    length_to_le_bytes _ _
  have hfirst : Mapped store.config
      (overwrite bytes (HEADER_LEN + 0) (to_le_bytes PAYLOAD_LEN_BYTES text.length)) :=
    hmapped.write_payload (by omega)
  have hlength' := hfirst.length
  have hsecond : Mapped store.config (overwrite (overwrite bytes (HEADER_LEN + 0)
      (to_le_bytes PAYLOAD_LEN_BYTES text.length)) (HEADER_LEN + PAYLOAD_LEN_BYTES) text) :=
    hfirst.write_payload (by omega)
  have hheader : SharedMemoryHeader.of_bytes (overwrite (overwrite bytes (HEADER_LEN + 0)
      (to_le_bytes PAYLOAD_LEN_BYTES text.length)) (HEADER_LEN + PAYLOAD_LEN_BYTES) text) =
      .of_bytes bytes := by
    rw [of_bytes_write_payload (by omega), of_bytes_write_payload (by omega)]
  constructor
  · exact hsecond
  · exact hheader
  · exact shown_payload_write htext (by omega) hmapped.size

theorem shown_payload_write_header (hroom : HEADER_LEN ≤ bytes.length)
    (header : SharedMemoryHeader) :
    shown_payload (overwrite bytes 0 header.to_bytes) = shown_payload bytes := by
  have hlength : (overwrite bytes 0 header.to_bytes).length = bytes.length :=
    length_overwrite (by rw [length_to_bytes]; omega)
  unfold shown_payload
  simp only [read_payload_write_header, payload_capacity, hlength]
  rfl

/-- A write keeps the bytes and the values together, whether it succeeds or not. -/
theorem write_document_shows (hmapped : Mapped store.config bytes) (hshows : Shows bytes segment)
    (hepoch : document.store_epoch < UInt64.size) :
    (write_document store bytes document).2 =
        (cache.write_document store.values segment document).2 ∧
      Mapped store.config (write bytes (write_document store bytes document).1) ∧
      Shows (write bytes (write_document store bytes document).1)
        (cache.write_document store.values segment document).1 := by
  unfold write_document cache.write_document
  cases htext : store.document.to_vec document with
  | error error =>
    rw [show store.values.document.to_vec document = .error error from htext]
    exact ⟨rfl, hmapped, hshows⟩
  | ok text =>
    rw [show store.values.document.to_vec document = .ok text from htext]
    simp only [hmapped.payload_capacity]
    by_cases hroom : store.config.capacity_bytes - HEADER_LEN - PAYLOAD_LEN_BYTES < text.length
    · rw [if_pos hroom, if_pos (show store.values.document_capacity < store.values.len text from hroom)]
      exact ⟨rfl, hmapped, hshows⟩
    rw [if_neg hroom,
      if_neg (show ¬ store.values.document_capacity < store.values.len text from hroom)]
    obtain ⟨hpaid, hheader, hpayload⟩ :=
      paid_of_room hmapped (store.writes_text document text htext) (Nat.le_of_not_lt hroom)
    cases hsize : document_current_size_bytes store.json document with
    | error error =>
      rw [show document_current_size_bytes store.values.json document = .error error from hsize]
      refine ⟨rfl, hpaid, ?_⟩
      obtain ⟨hgeneration, hstore_epoch, hseq, hcount, hsize, _⟩ := hshows
      rw [← hheader] at hgeneration hstore_epoch hseq hcount hsize
      exact ⟨hgeneration, hstore_epoch, hseq, hcount, hsize, hpayload.symm⟩
    | ok current_size_bytes =>
      rw [show document_current_size_bytes store.values.json document = .ok current_size_bytes from hsize]
      have hwrite : write bytes (payload_copies text ++
          [write_header (document_header bytes document current_size_bytes)]) =
          overwrite (write bytes (payload_copies text)) 0
            (document_header bytes document current_size_bytes).to_bytes := List.foldl_append
      have hroom' : HEADER_LEN ≤ (write bytes (payload_copies text)).length :=
        (Nat.le_add_right _ _).trans hpaid.room
      refine ⟨rfl, ?_, ?_⟩
      · change Mapped store.config (write bytes (payload_copies text ++ [write_header _]))
        rw [hwrite]
        refine hpaid.write_header ?_
        rw [hheader]
        rfl
      · change Shows (write bytes (payload_copies text ++ [write_header _])) _
        rw [hwrite]
        constructor
        all_goals first | rw [of_bytes_write_header] | rw [shown_payload_write_header hroom', hpayload]
        · rfl
        · exact UInt64.toNat_ofNat_of_lt hepoch
        · rfl
        · rfl
        · rfl

/-! ## The segment -/

/-- What the clock of a new epoch shows. -/
def clock (nanos : Nat) : Nat := min nanos (UInt64.size - 1)

theorem run_append (object : SharedObject) (first later : List SegmentWrite) :
    run object (first ++ later) = run (run object first) later := List.foldl_append

theorem run_copies (bytes : List UInt8) (copies : List Copy) :
    run (some bytes) (copies.map .copy) = some (write bytes copies) := by
  induction copies generalizing bytes with
  | nil => rfl
  | cons copied copies ih => exact ih _

theorem run_create_or_reset (config : SharedMemorySegmentConfig) (nanos : Nat) :
    run none (create_or_reset config nanos) = some (created config nanos) := by
  have hzeros : overwrite (List.replicate config.capacity_bytes (0 : UInt8)) 0
      (List.replicate config.capacity_bytes 0) = List.replicate config.capacity_bytes 0 := by
    simp [overwrite]
  simp [run, create_or_reset, SegmentWrite.apply, created, write, hzeros]

section Created

variable (config : SharedMemorySegmentConfig) (nanos : Nat)

theorem length_zeros : HEADER_LEN + PAYLOAD_LEN_BYTES ≤
    (List.replicate config.capacity_bytes (0 : UInt8)).length := by
  rw [List.length_replicate]
  exact config.fits

theorem of_bytes_created :
    SharedMemoryHeader.of_bytes (created config nanos) = initial_header config nanos :=
  of_bytes_write_header _ _

theorem created_mapped : Mapped config (created config nanos) := by
  have hzeros := length_zeros config
  constructor
  · refine (length_overwrite ?_).trans List.length_replicate
    change 0 + (initial_header config nanos).to_bytes.length ≤ _
    rw [length_to_bytes]
    omega
  · have hcapacity : (UInt64.ofNat config.capacity_bytes).toNat = config.capacity_bytes := by
      refine UInt64.toNat_ofNat_of_lt (config.addressable.trans_lt ?_)
      decide
    rw [of_bytes_created, validate_header_ok]
    simp [header_checks, initial_header, hcapacity, HEADER_LEN]

theorem created_shows :
    Shows (created config nanos) (SharedMemorySegment.create_or_reset (clock nanos)) := by
  have hepoch : current_store_epoch nanos < UInt64.size := by
    unfold current_store_epoch
    have hsize : 1 < UInt64.size := by decide
    omega
  have hpayload : shown_payload (created config nanos) = .zeroed := by
    have hzeros : read_payload (List.replicate config.capacity_bytes (0 : UInt8)) 0
        PAYLOAD_LEN_BYTES = List.replicate PAYLOAD_LEN_BYTES 0 := by
      have hfits := config.fits
      simp only [read_payload, slice, List.drop_replicate, List.take_replicate]
      congr 1
      omega
    have hroom : HEADER_LEN ≤ (List.replicate config.capacity_bytes (0 : UInt8)).length :=
      (Nat.le_add_right _ _).trans (length_zeros config)
    refine (shown_payload_write_header hroom _).trans ?_
    unfold shown_payload
    rw [hzeros, from_le_bytes_zeros]
    rfl
  constructor
  all_goals try rw [of_bytes_created]
  · rfl
  · exact UInt64.toNat_ofNat_of_lt hepoch
  · rfl
  · rfl
  · rfl
  · exact hpayload.symm

end Created

/-- The two stores after a call: what the calls give, and what they leave. -/
structure SameCall {α : Type} (config : SharedMemorySegmentConfig) (object : SharedObject)
    (call : List SegmentWrite × IoResult α)
    (value_call : SharedMemory (List UInt8) × IoResult α) : Prop where
  result : call.2 = value_call.2
  left : Sim config (run object call.1) value_call.1

/-- A segment that is open on both sides. -/
structure SameSegment (config : SharedMemorySegmentConfig) (object : SharedObject)
    (call : List SegmentWrite × IoResult (List UInt8))
    (value_call : SharedMemory (List UInt8) × IoResult (SharedMemorySegment (List UInt8))) :
    Prop where
  left : Sim config (run object call.1) value_call.1
  failed : ∀ error, call.2 = .error error ↔ value_call.2 = .error error
  opened : ∀ bytes segment, call.2 = .ok bytes → value_call.2 = .ok segment →
    run object call.1 = some bytes ∧ value_call.1 = .mapped segment ∧
      Mapped config bytes ∧ Shows bytes segment

/-- Both sides fail to open with one error, or both have opened a segment. -/
theorem SameSegment.both {object : SharedObject} {call : List SegmentWrite × IoResult (List UInt8)}
    {value_call : SharedMemory (List UInt8) × IoResult (SharedMemorySegment (List UInt8))}
    {config : SharedMemorySegmentConfig} (h : SameSegment config object call value_call) :
    (∃ writes memory error, call = (writes, .error error) ∧ value_call = (memory, .error error) ∧
      Sim config (run object writes) memory) ∨
    ∃ writes bytes segment, call = (writes, .ok bytes) ∧
      value_call = (.mapped segment, .ok segment) ∧ run object writes = some bytes ∧
        Mapped config bytes ∧ Shows bytes segment := by
  obtain ⟨writes, error | bytes⟩ := call
  · obtain ⟨memory, result⟩ := value_call
    obtain rfl : result = .error error := (h.failed error).mp rfl
    exact .inl ⟨writes, memory, error, rfl, rfl, h.left⟩
  · obtain ⟨memory, error | segment⟩ := value_call
    · cases (h.failed error).mpr rfl
    · obtain ⟨hrun, rfl, hmapped, hshows⟩ := h.opened bytes segment rfl rfl
      exact .inr ⟨writes, bytes, segment, rfl, rfl, hrun, hmapped, hshows⟩

theorem empty_epoch_lt (bytes : List UInt8) :
    (SharedMemoryIndexDocument.empty (SharedMemoryHeader.of_bytes bytes).store_epoch.toNat :
      SharedMemoryIndexDocument β).store_epoch < UInt64.size := UInt64.toNat_lt_size _

theorem create_segment_same (store : MemoryByteStore β) (nanos : Nat) :
    SameSegment store.config none (create_segment store nanos)
      (cache.open_or_create_segment store.values (clock nanos) .missing) := by
  have hshows := created_shows store.config nanos
  obtain ⟨hresult, hmapped, hleft⟩ := write_document_shows (created_mapped store.config nanos) hshows
    (empty_epoch_lt (created store.config nanos))
  unfold create_segment cache.open_or_create_segment
  dsimp only
  rw [← hshows.store_epoch]
  generalize SharedMemoryIndexDocument.empty
    (SharedMemoryHeader.of_bytes (created store.config nanos)).store_epoch.toNat = empty at *
  have hrun : run none (create_or_reset store.config nanos ++
      (write_document store (created store.config nanos) empty).1.map .copy) =
      some (write (created store.config nanos)
        (write_document store (created store.config nanos) empty).1) := by
    rw [run_append, run_create_or_reset, run_copies]
  refine ⟨?_, ?_, ?_⟩
  · rw [hrun]
    exact ⟨hmapped, hleft⟩
  · intro error
    rw [hresult]
    cases (cache.write_document store.values _ _).2 with
    | error other =>
      constructor
      · exact fun h => congrArg Except.error (Except.error.inj h)
      · exact fun h => congrArg Except.error (Except.error.inj h)
    | ok => exact iff_of_false (fun h => nomatch h) (fun h => nomatch h)
  · intro bytes segment hopened hvalue
    rw [hresult] at hopened
    revert hopened hvalue
    cases (cache.write_document store.values _ _).2 with
    | error other => exact fun h => nomatch h
    | ok =>
      intro hopened hvalue
      obtain rfl := Except.ok.inj hopened
      obtain rfl := Except.ok.inj hvalue
      exact ⟨hrun, rfl, hmapped, hleft⟩

theorem open_or_create_segment_same {object : SharedObject} {memory : SharedMemory (List UInt8)}
    (h : Sim store.config object memory) (nanos : Nat) :
    SameSegment store.config object (open_or_create_segment store nanos object)
      (cache.open_or_create_segment store.values (clock nanos) memory) := by
  cases object with
  | none =>
    cases memory with
    | missing => exact create_segment_same store nanos
    | mismatched => exact h.elim
    | mapped segment => exact h.elim
  | some bytes =>
    cases memory with
    | missing => exact h.elim
    | mismatched =>
      obtain ⟨error, hattach, hkind⟩ := attach_of_not_mapped h
      have hopen : open_or_create_segment store nanos (some bytes) =
          (.shm_unlink :: (create_segment store nanos).1, (create_segment store nanos).2) := by
        unfold open_or_create_segment
        rw [hattach]
        simp only [hkind]
      obtain ⟨hleft, hfailed, hopened⟩ := create_segment_same store nanos
      rw [hopen]
      exact ⟨hleft, hfailed, hopened⟩
    | mapped segment =>
      have hopen : open_or_create_segment store nanos (some bytes) = ([], .ok bytes) := by
        unfold open_or_create_segment
        rw [attach_of_mapped h.1]
      rw [hopen]
      refine ⟨h, fun error => iff_of_false (fun h => nomatch h) (fun h => nomatch h), ?_⟩
      intro bytes' segment' hbytes hsegment
      obtain rfl := Except.ok.inj hbytes
      obtain rfl := Except.ok.inj hsegment
      exact ⟨rfl, rfl, h⟩

/-- An operation on a document does the same on both sides. -/
def SameOperation {α : Type} (store : MemoryByteStore β)
    (operation : List UInt8 → SharedMemoryIndexDocument β → List Copy × IoResult α)
    (value_operation : SharedMemorySegment (List UInt8) → SharedMemoryIndexDocument β →
      SharedMemorySegment (List UInt8) × IoResult α) : Prop :=
  ∀ bytes segment document, Mapped store.config bytes → Shows bytes segment →
    document.store_epoch < UInt64.size →
      (operation bytes document).2 = (value_operation segment document).2 ∧
        Mapped store.config (write bytes (operation bytes document).1) ∧
        Shows (write bytes (operation bytes document).1) (value_operation segment document).1

theorem with_document_lock_same {object : SharedObject} {memory : SharedMemory (List UInt8)}
    (h : Sim store.config object memory) (nanos : Nat)
    {operation : List UInt8 → SharedMemoryIndexDocument β → List Copy × IoResult α}
    {value_operation : SharedMemorySegment (List UInt8) → SharedMemoryIndexDocument β →
      SharedMemorySegment (List UInt8) × IoResult α}
    (hoperation : SameOperation store operation value_operation) :
    SameCall store.config object (with_document_lock store nanos object operation)
      (cache.with_document_lock store.values (clock nanos) memory value_operation) := by
  unfold with_document_lock cache.with_document_lock
  rcases (open_or_create_segment_same h nanos).both with
    ⟨writes, memory', error, hcall, hvalue, hleft⟩ |
    ⟨writes, bytes, segment, hcall, hvalue, hrun, hmapped, hshows⟩
  · rw [hcall, hvalue]
    exact ⟨rfl, hleft⟩
  · rw [hcall, hvalue]
    dsimp only
    rw [← read_document_shows hmapped hshows]
    cases hread : read_document store bytes with
    | error error => exact ⟨rfl, hrun ▸ ⟨hmapped, hshows⟩⟩
    | ok document =>
      obtain ⟨hresult, hmapped', hshows'⟩ :=
        hoperation bytes segment document hmapped hshows (read_document_epoch hread)
      refine ⟨hresult, ?_⟩
      dsimp only
      rw [run_append, hrun, run_copies]
      exact ⟨hmapped', hshows'⟩

/-! ## The calls -/

theorem reads_only_same {result : SharedMemoryIndexDocument β → IoResult α} :
    SameOperation store (fun _ document => ([], result document))
      (fun segment document => (segment, result document)) :=
  fun _ _ _ hmapped hshows _ => ⟨rfl, hmapped, hshows⟩

theorem write_applied_same (hmapped : Mapped store.config bytes) (hshows : Shows bytes segment)
    (hepoch : document.store_epoch < UInt64.size) :
    (write_applied store bytes document).2 =
        (cache.write_applied store.values segment document).2 ∧
      Mapped store.config (write bytes (write_applied store bytes document).1) ∧
      Shows (write bytes (write_applied store bytes document).1)
        (cache.write_applied store.values segment document).1 := by
  obtain ⟨hresult, hleft⟩ := write_document_shows hmapped hshows hepoch
  exact ⟨congrArg (Except.map _) hresult, hleft⟩

theorem append_operations_epoch {json : SerdeJson β} {document document' : SharedMemoryIndexDocument β}
    {operations : List SharedIndexOperation}
    (h : append_operations json document operations = .ok document') :
    document'.store_epoch = document.store_epoch := by
  induction operations generalizing document with
  | nil =>
    obtain rfl := Except.ok.inj h
    rfl
  | cons operation operations ih =>
    obtain ⟨appended, happend, h⟩ := bind_eq_ok.mp h
    obtain ⟨applied, happly, happend⟩ := bind_eq_ok.mp happend
    obtain ⟨change, _, happend⟩ := bind_eq_ok.mp happend
    obtain rfl := Except.ok.inj happend
    exact (ih h).trans (apply_operation_to_document_frame happly).2.2.1

theorem apply_operations_epoch {json : SerdeJson β} {capacity : Nat}
    {document document' : SharedMemoryIndexDocument β} {operations : List SharedIndexOperation}
    (h : apply_operations_to_document json capacity document operations = .ok document') :
    document'.store_epoch = document.store_epoch := by
  unfold apply_operations_to_document at h
  split at h
  · obtain rfl := Except.ok.inj h
    rfl
  · obtain ⟨appended, happend, htrim⟩ := bind_eq_ok.mp h
    obtain rfl := Except.ok.inj htrim
    have hepoch := append_operations_epoch happend
    exact (trim_change_ring_frame appended capacity).2.2.2.2.2.1.trans hepoch

theorem recreated_document_epoch {json : SerdeJson β} {store_epoch generation rebuild_total : Nat}
    {index : CacheIndex} (h : recreated_document json store_epoch generation rebuild_total index =
      .ok document) : document.store_epoch = store_epoch := by
  obtain ⟨entries, _, h⟩ := bind_eq_ok.mp h
  obtain ⟨invalidations, _, h⟩ := bind_eq_ok.mp h
  obtain rfl := Except.ok.inj h
  rfl

theorem apply_operations_same {object : SharedObject} {memory : SharedMemory (List UInt8)}
    (h : Sim store.config object memory) (nanos : Nat) (operations : List SharedIndexOperation) :
    SameCall store.config object (apply_operations store nanos object operations)
      (cache.apply_operations store.values (clock nanos) memory operations) := by
  refine with_document_lock_same h nanos ?_
  intro bytes segment document hmapped hshows hepoch
  beta_reduce
  by_cases hnil : operations = []
  · rw [if_pos hnil, if_pos hnil]
    exact ⟨rfl, hmapped, hshows⟩
  rw [if_neg hnil, if_neg hnil]
  cases happly : apply_operations_to_document store.json store.config.operation_ring_capacity.toNat
      document operations with
  | error error =>
    rw [show apply_operations_to_document store.values.json store.values.operation_ring_capacity
      document operations = .error error from happly]
    exact ⟨rfl, hmapped, hshows⟩
  | ok document' =>
    rw [show apply_operations_to_document store.values.json store.values.operation_ring_capacity
      document operations = .ok document' from happly]
    exact write_applied_same hmapped hshows (apply_operations_epoch happly ▸ hepoch)

theorem recreate_same {object : SharedObject} {memory : SharedMemory (List UInt8)}
    (h : Sim store.config object memory) (nanos : Nat) (index : CacheIndex) (generation : Nat) :
    SameCall store.config object (recreate store nanos object index generation)
      (cache.recreate store.values (clock nanos) memory index generation) := by
  unfold recreate cache.recreate
  rcases (open_or_create_segment_same h nanos).both with
    ⟨writes, memory', error, hcall, hvalue, hleft⟩ |
    ⟨writes, bytes, segment, hcall, hvalue, hrun, hmapped, hshows⟩
  · rw [hcall, hvalue]
    exact ⟨rfl, hleft⟩
  · rw [hcall, hvalue]
    dsimp only
    rw [← read_document_shows hmapped hshows, ← hshows.store_epoch]
    have hwrites : ∀ rebuild_total document, recreated_document store.json
        (SharedMemoryHeader.of_bytes bytes).store_epoch.toNat generation rebuild_total index =
          .ok document →
        (write_applied store bytes document).2 =
            (cache.write_applied store.values segment document).2 ∧
          Sim store.config (run object
            (writes ++ (write_applied store bytes document).1.map .copy))
            (.mapped (cache.write_applied store.values segment document).1) := by
      intro rebuild_total document hdocument
      obtain ⟨hresult, hleft'⟩ := @write_applied_same β store bytes segment document hmapped hshows
        (recreated_document_epoch hdocument ▸ UInt64.toNat_lt_size _)
      refine ⟨hresult, ?_⟩
      rw [run_append, hrun, run_copies]
      exact hleft'
    have hunwritten : Sim store.config (run object writes) (.mapped segment) :=
      hrun ▸ ⟨hmapped, hshows⟩
    cases hread : read_document store bytes with
    | error error =>
      dsimp only
      cases hdocument : recreated_document store.json
          (SharedMemoryHeader.of_bytes bytes).store_epoch.toNat generation (saturating_add 0 1) index with
      | error error =>
        rw [show recreated_document store.values.json _ generation _ index = .error error
          from hdocument]
        exact ⟨rfl, hunwritten⟩
      | ok document =>
        rw [show recreated_document store.values.json _ generation _ index = .ok document
          from hdocument]
        exact ⟨(hwrites _ _ hdocument).1, (hwrites _ _ hdocument).2⟩
    | ok previous =>
      dsimp only
      cases hdocument : recreated_document store.json
          (SharedMemoryHeader.of_bytes bytes).store_epoch.toNat generation
          (saturating_add previous.rebuild_total 1) index with
      | error error =>
        rw [show recreated_document store.values.json _ generation _ index = .error error
          from hdocument]
        exact ⟨rfl, hunwritten⟩
      | ok document =>
        rw [show recreated_document store.values.json _ generation _ index = .ok document
          from hdocument]
        exact ⟨(hwrites _ _ hdocument).1, (hwrites _ _ hdocument).2⟩

/-! ## Runs -/

/-- The calls of the store that read and change the index. The calls of the fill locks and `metrics`
take the same lock and are left out. -/
inductive StoreCall
  | sync_state
  | load
  | load_changes_since (after_seq : Nat)
  | apply_operations (operations : List SharedIndexOperation)
  | recreate (index : CacheIndex) (generation : Nat)

inductive StoreResult
  | State (result : IoResult SharedIndexSyncState)
  | Loaded (result : IoResult LoadedSharedIndex)
  | Changes (result : IoResult LoadedSharedIndexChanges)
  | Applied (result : IoResult AppliedSharedIndexOperations)

section Runs

variable (store : MemoryByteStore β)

def call_bytes (nanos : Nat) (object : SharedObject) :
    StoreCall → List SegmentWrite × StoreResult
  | .sync_state => (sync_state store nanos object).map id .State
  | .load => (load store nanos object).map id .Loaded
  | .load_changes_since after_seq =>
    (load_changes_since store nanos object after_seq).map id .Changes
  | .apply_operations operations =>
    (apply_operations store nanos object operations).map id .Applied
  | .recreate index generation =>
    (recreate store nanos object index generation).map id .Applied

def call_values (nanos : Nat) (memory : SharedMemory (List UInt8)) :
    StoreCall → SharedMemory (List UInt8) × StoreResult
  | .sync_state => (cache.sync_state store.values (clock nanos) memory).map id .State
  | .load => (cache.load store.values (clock nanos) memory).map id .Loaded
  | .load_changes_since after_seq =>
    (cache.load_changes_since store.values (clock nanos) memory after_seq).map id .Changes
  | .apply_operations operations =>
    (cache.apply_operations store.values (clock nanos) memory operations).map id .Applied
  | .recreate index generation =>
    (cache.recreate store.values (clock nanos) memory index generation).map id .Applied

/-- The object after a call at a time, and the results up to it. -/
def step_bytes (state : SharedObject × List StoreResult) (call : Nat × StoreCall) :
    SharedObject × List StoreResult :=
  let (writes, result) := call_bytes store call.1 state.1 call.2
  (run state.1 writes, state.2 ++ [result])

def step_values (state : SharedMemory (List UInt8) × List StoreResult) (call : Nat × StoreCall) :
    SharedMemory (List UInt8) × List StoreResult :=
  let (memory, result) := call_values store call.1 state.1 call.2
  (memory, state.2 ++ [result])

end Runs

theorem SameCall.map {config : SharedMemorySegmentConfig} {object : SharedObject}
    {call : List SegmentWrite × IoResult α} {value_call : SharedMemory (List UInt8) × IoResult α}
    (h : SameCall config object call value_call) (kind : IoResult α → StoreResult) :
    (call.map id kind).2 = (value_call.map id kind).2 ∧
      Sim config (run object (call.map id kind).1) (value_call.map id kind).1 :=
  ⟨congrArg kind h.result, h.left⟩

theorem call_same {object : SharedObject} {memory : SharedMemory (List UInt8)}
    (h : Sim store.config object memory) (nanos : Nat) (call : StoreCall) :
    (call_bytes store nanos object call).2 = (call_values store nanos memory call).2 ∧
      Sim store.config (run object (call_bytes store nanos object call).1)
        (call_values store nanos memory call).1 := by
  cases call with
  | sync_state => exact (with_document_lock_same h nanos reads_only_same).map .State
  | load => exact (with_document_lock_same h nanos reads_only_same).map .Loaded
  | load_changes_since after_seq =>
    exact (with_document_lock_same h nanos reads_only_same).map .Changes
  | apply_operations operations => exact (apply_operations_same h nanos operations).map .Applied
  | recreate index generation => exact (recreate_same h nanos index generation).map .Applied

/-- From any bytes under the name of the zone, and from none: every sequence of calls, each at its
time, has the results of the calls on a memory of values, and leaves bytes that show what these
leave. -/
theorem bytes_do_what_values_do (store : MemoryByteStore β) (object : SharedObject) :
    ∃ memory, Sim store.config object memory ∧
      ∀ calls : List (Nat × StoreCall),
        let bytes := after (step_bytes store) (object, []) calls
        let values := after (step_values store) (memory, []) calls
        bytes.2 = values.2 ∧ Sim store.config bytes.1 values.1 := by
  obtain ⟨memory, h⟩ := exists_sim store.config object
  refine ⟨memory, h, ?_⟩
  suffices hruns : ∀ (calls : List (Nat × StoreCall)) (object : SharedObject)
      (memory : SharedMemory (List UInt8)) (results : List StoreResult),
      Sim store.config object memory →
        (after (step_bytes store) (object, results) calls).2 =
            (after (step_values store) (memory, results) calls).2 ∧
          Sim store.config (after (step_bytes store) (object, results) calls).1
            (after (step_values store) (memory, results) calls).1 from
    fun calls => hruns calls object memory [] h
  intro calls
  induction calls with
  | nil => exact fun _ _ _ h => ⟨rfl, h⟩
  | cons call calls ih =>
    intro object memory results h
    obtain ⟨hresult, hleft⟩ := call_same h call.1 call.2
    change (after (step_bytes store) (step_bytes store (object, results) call) calls).2 =
        (after (step_values store) (step_values store (memory, results) call) calls).2 ∧
      Sim _ (after (step_bytes store) (step_bytes store (object, results) call) calls).1 _
    unfold step_bytes step_values
    dsimp only
    rw [hresult]
    exact ih _ _ _ hleft

end rginx.cache.segment_bytes
