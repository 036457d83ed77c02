-- Calls on the bytes of the segment that are cut off: a process that dies between two writes, or in
-- the middle of a copy. The kernel drops its lock, and the next call meets what it has left.
import Rginx.SegmentRuns
import Rginx.SharedRebuild

open rust_result packed_records step_runs

namespace rginx.cache.segment_bytes

/-! ## The fields that are checked, as bytes -/

theorem from_le_bytes_inj {bytes other : List UInt8} (hlength : bytes.length = other.length)
    (h : from_le_bytes bytes = from_le_bytes other) : bytes = other := by
  induction bytes generalizing other with
  | nil => exact (List.length_eq_zero_iff.mp hlength.symm).symm
  | cons byte bytes ih =>
    cases other with
    | nil => cases hlength
    | cons byte' other =>
      rw [from_le_bytes, from_le_bytes] at h
      have hbyte := byte.toNat_lt
      have hbyte' := byte'.toNat_lt
      have hsame : byte = byte' := UInt8.toNat_inj.mp (by omega)
      rw [hsame, ih (Nat.succ.inj hlength) (by omega)]

/-- The value that is expected, with the offset and the width of its field. -/
def checked_fields (config : SharedMemorySegmentConfig) : List (Nat × Nat × Nat) :=
  [(SHM_MAGIC.toNat, 0, 8), (SHM_ABI_VERSION.toNat, 8, 4), (HEADER_LEN, 12, 4),
    (config.zone_name_hash.toNat, 16, 8), (config.capacity_bytes, 24, 8),
    (config.hash_bucket_count.toNat, 72, 8), (config.operation_ring_capacity.toNat, 80, 8),
    (config.flags.toNat, 96, 8)]

theorem from_le_bytes_slice_lt (bytes : List UInt8) (offset width : Nat) :
    from_le_bytes (slice bytes offset width) < 256 ^ width := by
  refine (from_le_bytes_lt _).trans_le (Nat.pow_le_pow_right (by decide) ?_)
  rw [slice, List.length_take]
  exact Nat.min_le_left _ _

theorem field_mod (bytes : List UInt8) (offset : Nat) :
    from_le_bytes (slice bytes offset 8) % 18446744073709551616 =
      from_le_bytes (slice bytes offset 8) :=
  Nat.mod_eq_of_lt ((from_le_bytes_slice_lt bytes offset 8).trans_eq (by norm_num))

theorem field_mod_32 (bytes : List UInt8) (offset : Nat) :
    from_le_bytes (slice bytes offset 4) % 4294967296 = from_le_bytes (slice bytes offset 4) :=
  Nat.mod_eq_of_lt ((from_le_bytes_slice_lt bytes offset 4).trans_eq (by norm_num))

variable {β : Type} {store : MemoryByteStore β} {config : SharedMemorySegmentConfig}
  {bytes : List UInt8}

theorem mapped_iff : Mapped config bytes ↔ bytes.length = config.capacity_bytes ∧
    ∀ field ∈ checked_fields config, field.1 = from_le_bytes (slice bytes field.2.1 field.2.2) := by
  have hchecks : (∀ check ∈ header_checks config (.of_bytes bytes), check.2.1 = check.2.2) ↔
      ∀ field ∈ checked_fields config,
        field.1 = from_le_bytes (slice bytes field.2.1 field.2.2) := by
    simp [header_checks, checked_fields, SharedMemoryHeader.of_bytes, FIELD_WIDTHS, unpack,
      field_mod, field_mod_32]
  rw [← hchecks, ← validate_header_ok]
  exact ⟨fun h => ⟨h.length, h.header⟩, fun h => ⟨h.1, h.2⟩⟩

theorem checked_fields_inside :
    ∀ field ∈ checked_fields config, field.2.1 + field.2.2 ≤ HEADER_LEN := by
  simp [checked_fields, HEADER_LEN]

/-- Between two memories that match the configuration, every one does. -/
theorem Mapped.torn {after between : List UInt8} (h : Mapped config bytes)
    (hafter : Mapped config after) (htorn : Torn bytes after between) : Mapped config between := by
  have hroom := h.room
  have hlength := hafter.length
  have hlength' := h.length
  obtain ⟨_, hfields⟩ := mapped_iff.mp h
  obtain ⟨_, hfields'⟩ := mapped_iff.mp hafter
  refine mapped_iff.mpr ⟨htorn.1.trans h.length, fun field hfield => ?_⟩
  have hinside : field.2.1 + field.2.2 ≤ HEADER_LEN := checked_fields_inside field hfield
  have hsame : slice bytes field.2.1 field.2.2 = slice after field.2.1 field.2.2 := by
    refine from_le_bytes_inj ?_ ((hfields field hfield).symm.trans (hfields' field hfield))
    rw [length_slice (by omega), length_slice (by omega)]
  rw [slice_of_torn htorn hsame]
  exact hfields field hfield

/-! ## What is left of a call -/

/-- An open, a cut or an unlink is done or not; a copy may be done in part. -/
def SegmentWrite.Interrupted (before : SharedObject) (write : SegmentWrite) (left : SharedObject) :
    Prop :=
  left = before ∨ ∃ copied bytes torn, write = .copy copied ∧ before = some bytes ∧
    left = some torn ∧ Torn bytes (overwrite bytes copied.offset copied.bytes) torn

/-- What a call leaves that has made some of its writes in full. -/
inductive Crashed (object : SharedObject) (writes : List SegmentWrite) : Nat → SharedObject → Prop
  | after_all : Crashed object writes writes.length (run object writes)
  | during {done later : List SegmentWrite} {write : SegmentWrite} {left : SharedObject} :
      writes = done ++ write :: later → write.Interrupted (run object done) left →
        Crashed object writes done.length left

/-- The copies of a write: none, the payload, or the payload and a header that checks out as the one
before. -/
inductive WritesDocument (store : MemoryByteStore β) (bytes : List UInt8) : List Copy → Prop
  | nothing : WritesDocument store bytes []
  | payload {text : List UInt8} :
      HEADER_LEN + PAYLOAD_LEN_BYTES + text.length ≤ store.config.capacity_bytes →
      Paid store bytes text (write bytes (payload_copies text)) →
      Mapped store.config (write bytes ((payload_copies text).take 1)) →
      WritesDocument store bytes (payload_copies text)
  | whole {text : List UInt8} {header : SharedMemoryHeader} :
      HEADER_LEN + PAYLOAD_LEN_BYTES + text.length ≤ store.config.capacity_bytes →
      Paid store bytes text (write bytes (payload_copies text)) →
      Mapped store.config (write bytes ((payload_copies text).take 1)) →
      header_checks store.config header = header_checks store.config (.of_bytes bytes) →
      WritesDocument store bytes (payload_copies text ++ [write_header header])

theorem write_document_writes (hmapped : Mapped store.config bytes)
    (document : SharedMemoryIndexDocument β) :
    WritesDocument store bytes (write_document store bytes document).1 := by
  unfold write_document
  cases htext : store.document.to_vec document with
  | error error => exact .nothing
  | ok text =>
    simp only [hmapped.payload_capacity]
    by_cases hroom : store.config.capacity_bytes - HEADER_LEN - PAYLOAD_LEN_BYTES < text.length
    · rw [if_pos hroom]
      exact .nothing
    rw [if_neg hroom]
    have hpaid := paid_of_room hmapped (store.writes_text document text htext)
      (Nat.le_of_not_lt hroom)
    have hfirst : Mapped store.config (write bytes ((payload_copies text).take 1)) := by
      refine hmapped.write_payload ?_
      change HEADER_LEN + 0 + (to_le_bytes PAYLOAD_LEN_BYTES text.length).length ≤ bytes.length
      rw [length_to_le_bytes]
      exact hmapped.room
    have hfits := store.config.fits
    have hinside : HEADER_LEN + PAYLOAD_LEN_BYTES + text.length ≤ store.config.capacity_bytes := by
      omega
    cases document_current_size_bytes store.json document with
    | error error => exact .payload hinside hpaid hfirst
    | ok current_size_bytes => exact .whole hinside hpaid hfirst rfl

/-- After any number of its copies, a write of a document leaves bytes that match. -/
theorem WritesDocument.mapped {copies : List Copy} (h : WritesDocument store bytes copies)
    (hmapped : Mapped store.config bytes) (count : Nat) :
    Mapped store.config (write bytes (copies.take count)) := by
  cases h with
  | nothing =>
    rw [List.take_nil]
    exact hmapped
  | payload _ hpaid hfirst =>
    rcases count with _ | _ | count
    · exact hmapped
    · exact hfirst
    · rw [List.take_of_length_le (by simp [payload_copies])]
      exact hpaid.mapped
  | @whole text header _ hpaid hfirst hchecks =>
    rcases count with _ | _ | _ | count
    · exact hmapped
    · exact hfirst
    · exact hpaid.mapped
    · have hwrite : write bytes (payload_copies text ++ [write_header header]) =
          overwrite (write bytes (payload_copies text)) 0 header.to_bytes := List.foldl_append
      have hall : (payload_copies text ++ [write_header header]).take (count + 3) =
          payload_copies text ++ [write_header header] := List.take_of_length_le (by simp [payload_copies])
      rw [hall, hwrite]
      exact hpaid.mapped.write_header (hchecks.trans (by rw [hpaid.header]))

theorem open_of_mapped (hmapped : Mapped store.config bytes) (nanos : Nat) :
    open_or_create_segment store nanos (some bytes) = ([], .ok bytes) := by
  rw [open_or_create_segment, attach_of_mapped hmapped]

theorem with_document_lock_writes {α : Type} (hmapped : Mapped store.config bytes) (nanos : Nat)
    {operation : List UInt8 → SharedMemoryIndexDocument β → List Copy × IoResult α}
    (hoperation : ∀ document, WritesDocument store bytes (operation bytes document).1) :
    ∃ copies, (with_document_lock store nanos (some bytes) operation).1 = copies.map .copy ∧
      WritesDocument store bytes copies := by
  unfold with_document_lock
  rw [open_of_mapped hmapped]
  dsimp only
  cases read_document store bytes with
  | error error => exact ⟨[], rfl, .nothing⟩
  | ok document => exact ⟨_, rfl, hoperation document⟩

/-- The writes of a call on bytes that match are the copies of one document. -/
theorem call_writes (hmapped : Mapped store.config bytes) (nanos : Nat) (call : StoreCall) :
    ∃ copies, (call_bytes store nanos (some bytes) call).1 = copies.map .copy ∧
      WritesDocument store bytes copies := by
  cases call with
  | sync_state =>
    change ∃ copies, (sync_state store nanos (some bytes)).1 = _ ∧ _
    refine with_document_lock_writes hmapped nanos ?_
    exact fun _ => .nothing
  | load =>
    change ∃ copies, (load store nanos (some bytes)).1 = _ ∧ _
    refine with_document_lock_writes hmapped nanos ?_
    exact fun _ => .nothing
  | load_changes_since after_seq =>
    change ∃ copies, (load_changes_since store nanos (some bytes) after_seq).1 = _ ∧ _
    refine with_document_lock_writes hmapped nanos ?_
    exact fun _ => .nothing
  | apply_operations operations =>
    change ∃ copies, (apply_operations store nanos (some bytes) operations).1 = _ ∧ _
    refine with_document_lock_writes hmapped nanos fun document => ?_
    by_cases hnil : operations = []
    · rw [if_pos hnil]
      exact .nothing
    rw [if_neg hnil]
    split
    · exact .nothing
    · exact write_document_writes hmapped _
  | recreate index generation =>
    change ∃ copies, (recreate store nanos (some bytes) index generation).1 = _ ∧ _
    unfold recreate
    rw [open_of_mapped hmapped]
    dsimp only
    split
    · exact ⟨[], rfl, .nothing⟩
    · exact ⟨_, rfl, write_document_writes hmapped _⟩

/-- The payload of torn bytes, where both sides have the same. -/
theorem shown_payload_torn {before after between : List UInt8} {text : List UInt8}
    (htorn : Torn before after between) (hbefore : shown_payload before = .text text)
    (hpayload : ∀ offset len, read_payload before offset len = read_payload after offset len) :
    shown_payload between = .text text := by
  have hread : ∀ offset len, read_payload between offset len = read_payload before offset len :=
    fun offset len => slice_of_torn htorn (hpayload offset len)
  rw [← hbefore]
  unfold shown_payload
  simp only [hread, payload_capacity, htorn.1]
  rfl

/-- A text reads the same in every memory. -/
theorem read_document_of_text {text : List UInt8} (h : shown_payload bytes = .text text) :
    read_document store bytes = (store.document.from_slice text >>= fun document =>
      if document.version ≠ 1 then
        .error ⟨.InvalidData,
          s!"unsupported shared memory index document version `{document.version}`"⟩
      else return document) := by
  unfold shown_payload at h
  unfold read_document
  dsimp only at h ⊢
  split at h
  · cases h
  rename_i hlen
  split at h
  · cases h
  rename_i hroom
  obtain rfl := Payload.text.inj h
  rw [if_neg hlen, if_neg hroom]

theorem write_append (first later : List Copy) :
    write bytes (first ++ later) = write (write bytes first) later := List.foldl_append

/-- A copy to the payload, after which the header is read as before. -/
theorem header_of_payload_copy {before : List UInt8} {copied : Copy}
    (hroom : copied.offset ≤ before.length) (hoffset : HEADER_LEN ≤ copied.offset) :
    slice before 0 HEADER_LEN = slice (write before [copied]) 0 HEADER_LEN :=
  (slice_overwrite_of_disjoint hroom (.inl (by omega))).symm

/-- The first two copies go to the payload. -/
theorem WritesDocument.early {copies done later : List Copy} {copied : Copy}
    (h : WritesDocument store bytes copies) (hmapped : Mapped store.config bytes)
    (hcopies : copies = done ++ copied :: later) (hearly : done.length < 2) :
    SharedMemoryHeader.of_bytes (write bytes done) = .of_bytes bytes ∧
      slice (write bytes done) 0 HEADER_LEN = slice (write bytes (done ++ [copied])) 0 HEADER_LEN := by
  have hroom := hmapped.room
  have hpayload : ∀ text : List UInt8, Mapped store.config (write bytes ((payload_copies text).take 1)) →
      (∃ rest, copies = payload_copies text ++ rest) →
      SharedMemoryHeader.of_bytes (write bytes done) = .of_bytes bytes ∧
        slice (write bytes done) 0 HEADER_LEN =
          slice (write bytes (done ++ [copied])) 0 HEADER_LEN := by
    intro text hfirst hrest
    obtain ⟨rest, hrest⟩ := hrest
    rw [hcopies] at hrest
    rcases done with _ | ⟨first, _ | ⟨second, done⟩⟩
    · obtain ⟨rfl, _⟩ := List.cons.inj hrest
      exact ⟨rfl, header_of_payload_copy (Nat.le_of_add_right_le hroom) (Nat.le_add_right _ _)⟩
    · obtain ⟨rfl, htail⟩ := List.cons.inj hrest
      obtain ⟨rfl, _⟩ := List.cons.inj htail
      refine ⟨of_bytes_write_payload (Nat.le_of_add_right_le hroom), ?_⟩
      rw [write_append]
      exact header_of_payload_copy hfirst.room (Nat.le_add_right _ _)
    · simp only [List.length_cons] at hearly
      omega
  cases h with
  | nothing => simp at hcopies
  | payload _ _ hfirst => exact hpayload _ hfirst ⟨[], (List.append_nil _).symm⟩
  | whole _ _ hfirst _ => exact hpayload _ hfirst ⟨_, rfl⟩

/-- The third one is the header, behind which the payload is read as before. -/
theorem WritesDocument.late {copies done later : List Copy} {copied : Copy}
    (h : WritesDocument store bytes copies) (hcopies : copies = done ++ copied :: later)
    (hlate : 2 ≤ done.length) :
    ∃ text, shown_payload (write bytes done) = .text text ∧
      shown_payload (write bytes copies) = .text text ∧
      ∀ offset len, read_payload (write bytes done) offset len =
        read_payload (write bytes (done ++ [copied])) offset len := by
  cases h with
  | nothing => simp at hcopies
  | @payload text _ _ _ =>
    have hlength := congrArg List.length hcopies
    simp [payload_copies] at hlength
    omega
  | @whole text header _ hpaid _ _ =>
    obtain ⟨rfl, htail⟩ : done = payload_copies text ∧ copied :: later = [write_header header] := by
      have hlength := congrArg List.length hcopies
      have htwo : (payload_copies text).length = done.length := by
        simp [payload_copies] at hlength ⊢
        omega
      obtain ⟨hdone, htail⟩ := List.append_inj hcopies htwo
      exact ⟨hdone.symm, htail.symm⟩
    obtain ⟨rfl, rfl⟩ := List.cons.inj htail
    refine ⟨text, hpaid.payload, ?_, fun offset len => ?_⟩
    · rw [write_append]
      have hroom := hpaid.mapped.room
      exact (shown_payload_write_header (by omega) header).trans hpaid.payload
    · rw [write_append]
      exact (read_payload_write_header header offset len).symm

/-- A process may die at any point of a call: the segment is kept, with a header that the next call
attaches to. Up to the copies of the payload it is the header from before; after them, the document
is read as the call was to leave it. -/
theorem a_crash_keeps_the_segment (store : MemoryByteStore β) {bytes : List UInt8}
    (hmapped : Mapped store.config bytes) (nanos : Nat) (call : StoreCall) {count : Nat}
    {left : SharedObject}
    (hcrash : Crashed (some bytes) (call_bytes store nanos (some bytes) call).1 count left) :
    ∃ torn finished, left = some torn ∧
      run (some bytes) (call_bytes store nanos (some bytes) call).1 = some finished ∧
      attach store.config left = .ok torn ∧
      (count < 2 → SharedMemoryHeader.of_bytes torn = .of_bytes bytes) ∧
      (2 ≤ count → read_document store torn = read_document store finished) := by
  obtain ⟨copies, hwrites, hdocument⟩ := call_writes hmapped nanos call
  rw [hwrites] at hcrash ⊢
  have hfinished := run_copies bytes copies
  cases hcrash with
  | after_all =>
    have hall := hdocument.mapped hmapped copies.length
    rw [List.take_length] at hall
    rw [List.length_map, hfinished]
    refine ⟨_, _, rfl, rfl, attach_of_mapped hall, ?_, fun _ => rfl⟩
    intro hfew
    cases hdocument with
    | nothing => rfl
    | payload _ _ _ => exact absurd hfew (by simp [payload_copies])
    | whole _ _ _ _ => exact absurd hfew (by simp [payload_copies])
  | @during done later write _ hsplit hinterrupted =>
    obtain ⟨before, rest, hcopies, rfl, hrest⟩ := List.map_eq_append_iff.mp hsplit
    obtain ⟨copied, after, rfl, rfl, rfl⟩ := List.map_eq_cons_iff.mp hrest
    have hbefore : Mapped store.config (segment_bytes.write bytes before) := by
      have h := hdocument.mapped hmapped before.length
      rwa [hcopies, List.take_left] at h
    have hafter : Mapped store.config (segment_bytes.write bytes (before ++ [copied])) := by
      have h := hdocument.mapped hmapped (before.length + 1)
      rwa [hcopies, List.take_length_add_append, List.take_succ_cons, List.take_zero] at h
    rw [run_copies] at hinterrupted
    rw [List.length_map]
    obtain ⟨torn, rfl, htorn⟩ : ∃ torn, left = some torn ∧
        Torn (segment_bytes.write bytes before) (segment_bytes.write bytes (before ++ [copied]))
          torn := by
      rcases hinterrupted with rfl | ⟨copied', bytes', torn, hcopied, hbytes, rfl, htorn⟩
      · exact ⟨_, rfl, rfl, fun _ => .inl rfl⟩
      · obtain rfl := SegmentWrite.copy.inj hcopied
        obtain rfl := Option.some.inj hbytes
        rw [write_append]
        exact ⟨torn, rfl, htorn⟩
    refine ⟨torn, _, rfl, hfinished, attach_of_mapped (hbefore.torn hafter htorn), ?_, ?_⟩
    · intro hearly
      obtain ⟨hheader, hslice⟩ := hdocument.early hmapped hcopies hearly
      exact (of_bytes_congr (slice_of_torn htorn hslice)).trans hheader
    · intro hlate
      obtain ⟨text, hdone, hall, hread⟩ := hdocument.late hcopies hlate
      rw [read_document_of_text (shown_payload_torn htorn hdone hread), read_document_of_text hall]

/-! ## A small segment -/

def small_config : SharedMemorySegmentConfig :=
  { zone_name_hash := 7, capacity_bytes := 136, hash_bucket_count := 1024
    operation_ring_capacity := 4096, flags := 0, fits := by decide, addressable := by decide }

/-- Only three counters are not as in an empty document. -/
def is_bare (document : SharedMemoryIndexDocument Unit) : Bool :=
  document.version == 1 && document.last_change_seq == 0 &&
    document.stale_fill_lock_cleanup_total == 0 && document.entries.isEmpty &&
    document.admission_counts.isEmpty && document.invalidations.isEmpty &&
    document.fill_locks.isEmpty && document.changes.isEmpty &&
    decide (document.store_epoch < 256 ^ 8) && decide (document.generation < 256 ^ 8) &&
    decide (document.rebuild_total < 256 ^ 8)

def bare_text (document : SharedMemoryIndexDocument Unit) : List UInt8 :=
  pack [8, 8, 8] [document.store_epoch, document.generation, document.rebuild_total]

def of_bare_text (bytes : List UInt8) : SharedMemoryIndexDocument Unit :=
  { store_epoch := from_le_bytes (slice bytes 0 8)
    generation := from_le_bytes (slice bytes 8 8)
    rebuild_total := from_le_bytes (slice bytes 16 8) }

theorem of_bare_text_bare_text {document : SharedMemoryIndexDocument Unit}
    (h : is_bare document = true) : of_bare_text (bare_text document) = document := by
  have hfields := @unpack_pack [8, 8, 8]
    [document.store_epoch, document.generation, document.rebuild_total] rfl [] []
  rw [List.nil_append, List.append_nil, List.length_nil] at hfields
  obtain ⟨hepoch, hrest⟩ := List.cons.inj hfields
  obtain ⟨hgeneration, hrest⟩ := List.cons.inj hrest
  obtain ⟨hrebuild, _⟩ := List.cons.inj hrest
  unfold of_bare_text bare_text
  rw [hepoch, hgeneration, hrebuild]
  obtain ⟨version, generation, store_epoch, last_change_seq, rebuild_total, stale, entries, counts,
    rules, locks, changes⟩ := document
  simp only [is_bare, Bool.and_eq_true, beq_iff_eq, decide_eq_true_eq, List.isEmpty_iff,
    Std.ExtTreeMap.isEmpty_iff] at h
  obtain ⟨⟨⟨⟨⟨⟨⟨⟨⟨⟨rfl, rfl⟩, rfl⟩, rfl⟩, rfl⟩, rfl⟩, rfl⟩, rfl⟩, hepoch'⟩, hgeneration'⟩, hrebuild'⟩ := h
  dsimp only
  rw [Nat.mod_eq_of_lt hepoch', Nat.mod_eq_of_lt hgeneration', Nat.mod_eq_of_lt hrebuild']

def no_json {α : Type} : Json Unit α :=
  ⟨fun _ => .error ⟨.InvalidData, "no entries"⟩, fun _ => .error ⟨.InvalidData, "no entries"⟩,
    fun _ _ h => nomatch h⟩

def bare_json : Json (List UInt8) (SharedMemoryIndexDocument Unit) where
  to_vec document :=
    if is_bare document then .ok (bare_text document) else .error ⟨.InvalidData, "no entries"⟩
  from_slice bytes := .ok (of_bare_text bytes)
  round_trip := by
    intro document bytes h
    split at h
    · rename_i hbare
      obtain rfl := Except.ok.inj h
      rw [of_bare_text_bare_text hbare]
    · cases h

def small_store : MemoryByteStore Unit where
  config := small_config
  json := ⟨no_json, no_json⟩
  document := bare_json
  writes_text := by
    intro document bytes h
    unfold bare_json at h
    dsimp only at h
    split at h
    · obtain rfl := Except.ok.inj h
      exact List.cons_ne_nil _ _
    · cases h
  reads_epoch := by
    intro bytes document h
    obtain rfl := Except.ok.inj h
    exact (from_le_bytes_slice_lt bytes 0 8).trans_eq (by norm_num [UInt64.size])

theorem is_bare_recreated {epoch rebuild_total : Nat} (hepoch : epoch < 256 ^ 8)
    (hrebuild : rebuild_total < 256 ^ 8) :
    is_bare { store_epoch := epoch, generation := 1, rebuild_total } = true := by
  norm_num at hepoch hrebuild
  simp [is_bare, hepoch, hrebuild]

/-- A document without entries has room. -/
theorem bare_document_is_written {bytes : List UInt8} (hmapped : Mapped small_config bytes)
    {document : SharedMemoryIndexDocument Unit} (hbare : is_bare document = true) :
    ∃ text rest, (write_document small_store bytes document).1 = payload_copies text ++ rest := by
  have hlength : (bare_text document).length = 24 :=
    @length_pack [8, 8, 8] [document.store_epoch, document.generation, document.rebuild_total] rfl
  have hroom : ¬ small_config.capacity_bytes - HEADER_LEN - PAYLOAD_LEN_BYTES <
      (bare_text document).length := by
    rw [hlength]
    decide
  unfold write_document
  rw [show small_store.document.to_vec document = .ok (bare_text document) from if_pos hbare]
  dsimp only
  rw [hmapped.payload_capacity, if_neg hroom]
  cases document_current_size_bytes small_store.json document with
  | error error => exact ⟨bare_text document, [], (List.append_nil _).symm⟩
  | ok current_size_bytes => exact ⟨bare_text document, _, rfl⟩

theorem small_segment_is_recreated {bytes : List UInt8} (hmapped : Mapped small_config bytes) :
    ∃ text rest, (recreate small_store 5 (some bytes) CacheIndex.default 1).1 =
      (payload_copies text ++ rest).map .copy := by
  unfold recreate
  rw [@open_of_mapped _ small_store _ hmapped]
  dsimp only
  generalize hepoch : (SharedMemoryHeader.of_bytes bytes).store_epoch.toNat = epoch
  generalize htotal : saturating_add _ 1 = rebuild_total
  have hdocument : recreated_document small_store.json epoch 1 rebuild_total CacheIndex.default =
      .ok { store_epoch := epoch, generation := 1, rebuild_total } := by
    have hrows : CacheIndex.default.entries.toList = [] := rfl
    rw [recreated_document, entries_from_index, hrows]
    rfl
  rw [hdocument]
  have hbare : is_bare { store_epoch := epoch, generation := 1, rebuild_total } = true := by
    refine is_bare_recreated ?_ ?_
    · rw [← hepoch]
      exact UInt64.toNat_lt _
    · rw [← htotal]
      exact (Nat.min_le_right _ U64_MAX).trans_lt (by decide)
  obtain ⟨text, rest, hwritten⟩ := bare_document_is_written hmapped hbare
  refine ⟨text, rest, ?_⟩
  rw [← hwritten]
  rfl

/-- A process dies between the length and the text of a document. -/
theorem a_small_segment_is_kept :
    ∃ text torn, Crashed (some (created small_config 5))
        (call_bytes small_store 5 (some (created small_config 5))
          (.recreate CacheIndex.default 1)).1 1 (some torn) ∧
      torn = write (created small_config 5) ((payload_copies text).take 1) ∧
      attach small_config (some torn) = .ok torn ∧
      SharedMemoryHeader.of_bytes torn = .of_bytes (created small_config 5) := by
  have hmapped : Mapped small_config (created small_config 5) := created_mapped small_config 5
  generalize created small_config 5 = bytes at hmapped ⊢
  obtain ⟨text, rest, hwrites⟩ := small_segment_is_recreated hmapped
  have hcrash : Crashed (some bytes)
      (call_bytes small_store 5 (some bytes) (.recreate CacheIndex.default 1)).1 1
        (run (some bytes) [.copy (write_payload 0 (to_le_bytes PAYLOAD_LEN_BYTES text.length))]) :=
    @Crashed.during _ _ [.copy (write_payload 0 (to_le_bytes PAYLOAD_LEN_BYTES text.length))] _ _ _
      hwrites (.inl rfl)
  obtain ⟨torn, _, htorn, _, hattach, hheader, _⟩ :=
    a_crash_keeps_the_segment small_store hmapped 5 (.recreate CacheIndex.default 1) hcrash
  obtain rfl := Option.some.inj htorn
  exact ⟨text, _, hcrash, rfl, hattach, hheader (by decide)⟩

/-! ## Any bytes -/

/-- A copy goes to bytes of the segment, and a new object gets the capacity of the configuration. -/
def SegmentWrite.Inside (config : SharedMemorySegmentConfig) : SegmentWrite → Prop
  | .copy copied => copied.offset + copied.bytes.length ≤ config.capacity_bytes
  | .ftruncate capacity_bytes => capacity_bytes = config.capacity_bytes
  | _ => True

theorem WritesDocument.inside {copies : List Copy} (h : WritesDocument store bytes copies) :
    ∀ write ∈ copies.map SegmentWrite.copy, write.Inside store.config := by
  have hpayload : ∀ text : List UInt8,
      HEADER_LEN + PAYLOAD_LEN_BYTES + text.length ≤ store.config.capacity_bytes →
      ∀ write ∈ (payload_copies text).map SegmentWrite.copy, write.Inside store.config := by
    intro text hroom
    simp [payload_copies, write_payload, SegmentWrite.Inside]
    omega
  cases h with
  | nothing => exact List.forall_mem_nil _
  | payload hroom _ _ => exact hpayload _ hroom
  | @whole text header hroom _ _ _ =>
    rw [List.map_append]
    refine List.forall_mem_append.mpr ⟨hpayload _ hroom, ?_⟩
    have hfits := store.config.fits
    simp [write_header, SegmentWrite.Inside]
    omega

theorem create_segment_inside (store : MemoryByteStore β) (nanos : Nat) :
    ∀ write ∈ (create_segment store nanos).1, write.Inside store.config := by
  have hfits := store.config.fits
  refine List.forall_mem_append.mpr ⟨?_, ?_⟩
  · simp [create_or_reset, write_header, SegmentWrite.Inside]
    omega
  · exact (write_document_writes (created_mapped store.config nanos) _).inside

theorem open_inside (store : MemoryByteStore β) (nanos : Nat) (object : SharedObject) :
    ∀ write ∈ (open_or_create_segment store nanos object).1, write.Inside store.config := by
  have hcreate := create_segment_inside store nanos
  unfold open_or_create_segment
  split
  · exact List.forall_mem_nil _
  · split
    · exact hcreate
    · exact List.forall_mem_cons.mpr ⟨trivial, hcreate⟩
    · exact List.forall_mem_nil _

/-- The bytes that are opened match, whatever they were. -/
theorem opened_mapped {nanos : Nat} {object : SharedObject} {bytes : List UInt8}
    (h : (open_or_create_segment store nanos object).2 = .ok bytes) :
    Mapped store.config bytes := by
  obtain ⟨memory, hsim⟩ := exists_sim store.config object
  rcases (open_or_create_segment_same hsim nanos).both with
    ⟨_, _, error, hcall, _⟩ | ⟨_, opened, _, hcall, _, _, hmapped, _⟩
  · rw [hcall] at h
    cases h
  · rw [hcall] at h
    obtain rfl := Except.ok.inj h
    exact hmapped

theorem with_document_lock_inside {α : Type} {nanos : Nat} {object : SharedObject}
    {operation : List UInt8 → SharedMemoryIndexDocument β → List Copy × IoResult α}
    (hoperation : ∀ bytes document, Mapped store.config bytes →
      WritesDocument store bytes (operation bytes document).1) :
    ∀ write ∈ (with_document_lock store nanos object operation).1, write.Inside store.config := by
  have hopen := open_inside store nanos object
  have hmapped := @opened_mapped _ store nanos object
  unfold with_document_lock
  rcases hcall : open_or_create_segment store nanos object with ⟨writes, error | bytes⟩
  · rw [hcall] at hopen
    exact hopen
  · rw [hcall] at hopen hmapped
    dsimp only
    cases read_document store bytes with
    | error error => exact hopen
    | ok document =>
      exact List.forall_mem_append.mpr ⟨hopen, (hoperation bytes document (hmapped rfl)).inside⟩

theorem call_inside (store : MemoryByteStore β) (nanos : Nat) (object : SharedObject)
    (call : StoreCall) :
    ∀ write ∈ (call_bytes store nanos object call).1, write.Inside store.config := by
  cases call with
  | sync_state =>
    change ∀ write ∈ (sync_state store nanos object).1, _
    refine with_document_lock_inside ?_
    exact fun _ _ _ => .nothing
  | load =>
    change ∀ write ∈ (load store nanos object).1, _
    refine with_document_lock_inside ?_
    exact fun _ _ _ => .nothing
  | load_changes_since after_seq =>
    change ∀ write ∈ (load_changes_since store nanos object after_seq).1, _
    refine with_document_lock_inside ?_
    exact fun _ _ _ => .nothing
  | apply_operations operations =>
    change ∀ write ∈ (apply_operations store nanos object operations).1, _
    refine with_document_lock_inside fun bytes document hmapped => ?_
    by_cases hnil : operations = []
    · rw [if_pos hnil]
      exact .nothing
    rw [if_neg hnil]
    split
    · exact .nothing
    · exact write_document_writes hmapped _
  | recreate index generation =>
    change ∀ write ∈ (recreate store nanos object index generation).1, _
    have hopen := open_inside store nanos object
    have hmapped := @opened_mapped _ store nanos object
    unfold recreate
    rcases hcall : open_or_create_segment store nanos object with ⟨writes, error | bytes⟩
    · rw [hcall] at hopen
      exact hopen
    · rw [hcall] at hopen hmapped
      dsimp only
      split
      · exact hopen
      · exact List.forall_mem_append.mpr
          ⟨hopen, (write_document_writes (hmapped rfl) _).inside⟩

/-- What a document that was just recreated holds. -/
theorem recreate_holds {γ : Type} {values : MemorySharedIndexStore γ β} {clock generation : Nat}
    {memory : SharedMemory γ} {index : CacheIndex} {applied : AppliedSharedIndexOperations}
    (h : (cache.recreate values clock memory index generation).2 = .ok applied) :
    ∃ document, Holds values (cache.recreate values clock memory index generation).1 document ∧
      Decodes values.json document index.view ∧ document.generation = generation := by
  unfold cache.recreate at h ⊢
  rcases hopen : cache.open_or_create_segment values clock memory with ⟨opened, error | segment⟩
  · rw [hopen] at h
    cases h
  · rw [hopen] at h
    dsimp only at h ⊢
    split at h
    · cases h
    · rename_i document hdocument
      obtain ⟨htracks, _, hgeneration, hversion⟩ :=
        recreated_document_tracks values.operation_ring_capacity hdocument
      exact ⟨document, (write_applied_holds hversion h).1, htracks.decodes, hgeneration⟩

/-- Whatever the bytes under the name of the zone are, what a crash leaves or any others: no write of
a call leaves the segment; and a recreation that succeeds leaves bytes that load as the index that it
was given, at its generation. -/
theorem any_bytes_are_repaired (store : MemoryByteStore β) (object : SharedObject) (nanos : Nat) :
    (∀ call, ∀ write ∈ (call_bytes store nanos object call).1, write.Inside store.config) ∧
      ∀ index generation applied, (recreate store nanos object index generation).2 = .ok applied →
        ∀ later, ∃ loaded,
          (load store later (run object (recreate store nanos object index generation).1)).2 =
              .ok loaded ∧
            loaded.index.view = index.view ∧ loaded.generation = generation := by
  refine ⟨call_inside store nanos object, fun index generation applied happlied later => ?_⟩
  obtain ⟨memory, hsim⟩ := exists_sim store.config object
  obtain ⟨hresult, hleft⟩ := recreate_same hsim nanos index generation
  rw [hresult] at happlied
  obtain ⟨document, hholds, hdecodes, hgeneration⟩ := recreate_holds happlied
  obtain ⟨loaded, hload, hview, _, _, hloaded, _⟩ := loaded_index_spec hdecodes
  refine ⟨loaded, ?_, hview, hloaded.trans hgeneration⟩
  have hsame : SameCall store.config _ (load store later _)
      (cache.load store.values (clock later) _) := with_document_lock_same hleft later reads_only_same
  rw [hsame.result, hholds.load]
  exact hload

end rginx.cache.segment_bytes
