-- The delta of the change ring. A document keeps the last changes of its
-- history; a zone that replays the changes after its cursor has the index
-- that a zone gets which loads the whole document.
import Rginx.IndexRuns

open tree_maps rust_result

namespace rginx.cache

/-! ## The times of the schedule -/

/-- The schedule has every key at the access time of its entry. -/
def CacheIndex.Timely (index : CacheIndex) : Prop :=
  ∀ key : String, index.access_ticket_by_key[key]?.map (·.last_access_unix_ms) =
    index.entries[key]?.map (·.last_access_unix_ms)

theorem schedule_entry_access_tickets (index : CacheIndex) (key k : String)
    (last_access_unix_ms : Nat) :
    (index.schedule_entry_access key last_access_unix_ms).access_ticket_by_key[k]?.map
        (·.last_access_unix_ms) =
      if key = k then some last_access_unix_ms
      else index.access_ticket_by_key[k]?.map (·.last_access_unix_ms) := by
  simp only [CacheIndex.schedule_entry_access, CacheIndex.unschedule_entry_access,
    getElem?_insert_eq, getElem?_erase_eq]
  split <;> rfl

theorem insert_with_accounts_timely {index : CacheIndex} (h : index.Timely) (key : String)
    (entry : CacheIndexEntry) : (index.insert_with_accounts key entry).1.Timely := by
  intro k
  rw [insert_with_accounts_entries, getElem?_insert_eq]
  refine (schedule_entry_access_tickets _ key k entry.last_access_unix_ms).trans ?_
  split
  · rfl
  · exact h k

theorem remove_with_accounts_timely {index : CacheIndex} (h : index.Timely) (key : String) :
    (index.remove_with_accounts key).1.Timely := by
  intro k
  rw [remove_with_accounts_entries]
  rcases he : index.entries[key]? with _ | removed
  · rw [remove_with_accounts_of_none he, erase_of_none index.entries key he]
    exact h k
  · simp only [CacheIndex.remove_with_accounts, CacheIndex.remove_entry, he,
      CacheIndex.unschedule_entry_access, getElem?_erase_eq]
    split
    · rfl
    · exact h k

theorem touch_entry_timely {index : CacheIndex} (h : index.Timely) (key : String)
    (last_access_unix_ms : Nat) : (index.touch_entry key last_access_unix_ms).1.Timely := by
  unfold CacheIndex.touch_entry
  rcases he : index.entries[key]? with _ | entry
  · exact h
  · dsimp only
    split
    · unfold CacheIndex.reschedule_entry_access
      rw [if_pos (by simp)]
      intro k
      refine (schedule_entry_access_tickets _ key k last_access_unix_ms).trans ?_
      change _ = (index.entries.insert key _)[k]?.map _
      rw [getElem?_insert_eq]
      split
      · rfl
      · exact h k
    · exact h

theorem default_timely : CacheIndex.default.Timely := by
  intro key
  simp [CacheIndex.default]

theorem insert_rows_timely {index : CacheIndex} (h : index.Timely)
    (rows : List (String × CacheIndexEntry)) : (insert_rows index rows).Timely := by
  induction rows generalizing index with
  | nil => exact h
  | cons row rows ih => exact ih (insert_with_accounts_timely h row.1 row.2)

theorem apply_shared_index_operation_timely {index : CacheIndex} (h : index.Timely)
    (operation : SharedIndexOperation) :
    (apply_shared_index_operation index operation).Timely := by
  cases operation with
  | UpsertEntry key entry => exact insert_with_accounts_timely h key entry
  | RemoveEntry key => exact remove_with_accounts_timely h key
  | TouchEntry key last_access_unix_ms => exact touch_entry_timely h key last_access_unix_ms
  | SetAdmissionCount key uses => exact h
  | RemoveAdmissionCount key => exact h
  | AddInvalidation rule =>
    simp only [apply_shared_index_operation]
    split <;> exact h
  | ClearInvalidations => exact h

theorem apply_shared_index_delta_timely {index : CacheIndex} (h : index.Timely)
    (operations : List SharedIndexOperation) :
    (apply_shared_index_delta index operations).Timely := by
  induction operations generalizing index with
  | nil => exact h
  | cons operation operations ih => exact ih (apply_shared_index_operation_timely h operation)

theorem loaded_index_timely {β : Type} {json : SerdeJson β}
    {document : SharedMemoryIndexDocument β} {loaded : LoadedSharedIndex}
    (h : loaded_index_from_document json document = .ok loaded) : loaded.index.Timely := by
  obtain ⟨rows, rules, -, hshape⟩ := loaded_index_from_document_shape h
  rw [hshape]
  exact insert_rows_timely default_timely rows

/-! ## Indexes that agree -/

/-- The records of the schedule, without their tickets. -/
def CacheIndex.scheduledAccesses (index : CacheIndex) : Finset (String × Nat) :=
  index.access_schedule.image fun s => (s.key, s.last_access_unix_ms)

/-- Two indexes agree in everything but the order of their variants, of their rules and of
their tickets. -/
structure SameIndex (index index' : CacheIndex) : Prop where
  entries : index.entries = index'.entries
  hash_ref_counts : index.hash_ref_counts = index'.hash_ref_counts
  variants : ∀ base : String,
    index.variants[base]?.map List.toFinset = index'.variants[base]?.map List.toFinset
  admission_counts : index.admission_counts = index'.admission_counts
  invalidations : index.invalidations.toFinset = index'.invalidations.toFinset
  current_size_bytes : index.current_size_bytes = index'.current_size_bytes
  access_schedule : index.scheduledAccesses = index'.scheduledAccesses

theorem mem_scheduledAccesses {index : CacheIndex} (h : index.Ok) (key : String) (last : Nat) :
    (key, last) ∈ index.scheduledAccesses ↔
      index.access_ticket_by_key[key]?.map (·.last_access_unix_ms) = some last := by
  simp only [CacheIndex.scheduledAccesses, Finset.mem_image, Prod.mk.injEq, Option.map_eq_some_iff]
  constructor
  · rintro ⟨s, hs, rfl, rfl⟩
    exact ⟨_, (h.schedule.mem s).mp hs, rfl⟩
  · rintro ⟨ticket, ht, rfl⟩
    refine ⟨⟨ticket.last_access_unix_ms, ticket.ticket, key⟩, ?_, rfl, rfl⟩
    rw [h.schedule.mem]
    exact ht

theorem VariantsOk.same {entries : Map CacheIndexEntry} {variants variants' : Map (List String)}
    (h : VariantsOk entries variants) (h' : VariantsOk entries variants') (base : String) :
    variants[base]?.map List.toFinset = variants'[base]?.map List.toFinset := by
  have hcontains : variants.contains base = variants'.contains base := by
    rw [Bool.eq_iff_iff, h.contains_iff, h'.contains_iff]
  have hmem : ∀ key, key ∈ variants.getD base [] ↔ key ∈ variants'.getD base [] := by
    intro key
    rw [h.mem, h'.mem]
  simp only [Std.ExtTreeMap.contains_eq_isSome_getElem?] at hcontains
  simp only [getD_list_eq] at hmem
  rcases hv : variants[base]? with _ | keys <;> rcases hv' : variants'[base]? with _ | keys' <;>
    simp only [hv, hv', Option.isSome_some, Option.isSome_none, Bool.false_eq_true,
      Bool.true_eq_false] at hcontains
  · rfl
  · simp only [hv, hv', Option.getD_some] at hmem
    simp only [Option.map_some, Option.some.injEq]
    ext key
    simpa using hmem key

/-- The shared part of an index decides the rest of it. -/
theorem same_of_view {index index' : CacheIndex} (h : index.Ok) (h' : index'.Ok)
    (ht : index.Timely) (ht' : index'.Timely) (hs : index.SizeOk) (hs' : index'.SizeOk)
    (hview : index.view = index'.view) : SameIndex index index' := by
  simp only [CacheIndex.view, SharedView.mk.injEq] at hview
  obtain ⟨hentries, hadmission, hrules⟩ := hview
  have hrefs := h.refs
  have hvariants := h.variants
  rw [hentries] at hrefs hvariants
  refine ⟨hentries, ?_, hvariants.same h'.variants, hadmission, hrules, ?_, ?_⟩
  · apply Std.ExtTreeMap.ext_getElem?
    intro hash
    rw [hrefs.lookup, h'.refs.lookup]
  · unfold CacheIndex.SizeOk at hs hs'
    rw [hs, hs', hentries]
  · ext ⟨key, last⟩
    rw [mem_scheduledAccesses h, mem_scheduledAccesses h', ht key, ht' key, hentries]

theorem SameIndex.refl (index : CacheIndex) : SameIndex index index :=
  ⟨rfl, rfl, fun _ => rfl, rfl, rfl, rfl, rfl⟩

theorem SameIndex.view {index index' : CacheIndex} (h : SameIndex index index') :
    index.view = index'.view := by
  simp [CacheIndex.view, h.entries, h.admission_counts, h.invalidations]

theorem SameIndex.size {index index' : CacheIndex} (h : SameIndex index index')
    (hs : index'.SizeOk) : index.SizeOk := by
  unfold CacheIndex.SizeOk at *
  rw [h.current_size_bytes, hs, h.entries]

theorem SameIndex.timely {index index' : CacheIndex} (h : SameIndex index index')
    (hok : index.Ok) (hok' : index'.Ok) (ht : index'.Timely) : index.Timely := by
  intro key
  rw [h.entries, ← ht key]
  apply Option.ext
  intro last
  rw [← mem_scheduledAccesses hok, ← mem_scheduledAccesses hok', h.access_schedule]

/-! ## The log of the changes -/

section Histories

variable {β : Type} (json : SerdeJson β)

/-- The records are those of the operations, numbered from the one after `seq`. -/
def Logged : Nat → List (SharedMemoryChangeRecord β) → List SharedIndexOperation → Prop
  | _, [], [] => True
  | seq, record :: records, operation :: operations =>
    record.seq = seq + 1 ∧ operation_from_change_record json record = .ok operation ∧
      Logged (seq + 1) records operations
  | _, _, _ => False

variable {json}

theorem Logged.length {seq : Nat} {records : List (SharedMemoryChangeRecord β)}
    {operations : List SharedIndexOperation} (h : Logged json seq records operations) :
    records.length = operations.length := by
  induction records generalizing seq operations with
  | nil =>
    cases operations with
    | nil => rfl
    | cons operation operations => exact h.elim
  | cons record records ih =>
    cases operations with
    | nil => exact h.elim
    | cons operation operations => simpa using ih h.2.2

theorem Logged.append {seq : Nat} {records records' : List (SharedMemoryChangeRecord β)}
    {operations operations' : List SharedIndexOperation}
    (h : Logged json seq records operations)
    (h' : Logged json (seq + operations.length) records' operations') :
    Logged json seq (records ++ records') (operations ++ operations') := by
  induction records generalizing seq operations with
  | nil =>
    cases operations with
    | nil => simpa using h'
    | cons operation operations => exact h.elim
  | cons record records ih =>
    cases operations with
    | nil => exact h.elim
    | cons operation operations =>
      refine ⟨h.1, h.2.1, ih h.2.2 ?_⟩
      have harith : seq + 1 + operations.length = seq + (operation :: operations).length := by
        simp only [List.length_cons]
        omega
      rwa [harith]

theorem Logged.drop {seq : Nat} {records : List (SharedMemoryChangeRecord β)}
    {operations : List SharedIndexOperation} (h : Logged json seq records operations) (n : Nat)
    (hn : n ≤ operations.length) :
    Logged json (seq + n) (records.drop n) (operations.drop n) := by
  induction n generalizing seq records operations with
  | zero => exact h
  | succ n ih =>
    cases records with
    | nil =>
      cases operations with
      | nil => simp at hn
      | cons operation operations => exact h.elim
    | cons record records =>
      cases operations with
      | nil => exact h.elim
      | cons operation operations =>
        have hrest := ih h.2.2 (by simpa using hn)
        rwa [Nat.add_assoc, Nat.add_comm 1 n] at hrest

/-- The records after a cursor are the rest of the records. -/
theorem Logged.filter {seq : Nat} {records : List (SharedMemoryChangeRecord β)}
    {operations : List SharedIndexOperation} (h : Logged json seq records operations)
    (after_seq : Nat) :
    (records.filter fun change => after_seq < change.seq) = records.drop (after_seq - seq) := by
  induction records generalizing seq operations with
  | nil => simp
  | cons record records ih =>
    cases operations with
    | nil => exact h.elim
    | cons operation operations =>
      have hrest := ih h.2.2
      rw [List.filter_cons, h.1]
      by_cases hlt : after_seq < seq + 1
      · rw [if_pos (by simpa using hlt), hrest, Nat.sub_eq_zero_of_le (by omega),
          Nat.sub_eq_zero_of_le (by omega)]
        rfl
      · rw [if_neg (by simpa using hlt), hrest]
        have hsub : after_seq - seq = (after_seq - (seq + 1)) + 1 := by omega
        rw [hsub]
        rfl

theorem Logged.mapM {seq : Nat} {records : List (SharedMemoryChangeRecord β)}
    {operations : List SharedIndexOperation} (h : Logged json seq records operations) :
    records.mapM (operation_from_change_record json) = .ok operations := by
  induction records generalizing seq operations with
  | nil =>
    cases operations with
    | nil => rfl
    | cons operation operations => exact h.elim
  | cons record records ih =>
    cases operations with
    | nil => exact h.elim
    | cons operation operations =>
      rw [List.mapM_cons, h.2.1, ok_bind, ih h.2.2]
      rfl

/-! ## The history of a document -/

theorem apply_operation_to_document_frame {document document' : SharedMemoryIndexDocument β}
    {operation : SharedIndexOperation}
    (h : apply_operation_to_document json document operation = .ok document') :
    document'.last_change_seq = document.last_change_seq ∧
      document'.generation = document.generation ∧
      document'.store_epoch = document.store_epoch ∧ document'.changes = document.changes ∧
      document'.version = document.version := by
  cases operation with
  | UpsertEntry key entry =>
    obtain ⟨entry_json, -, h⟩ := bind_eq_ok.mp h
    obtain rfl := Except.ok.inj h
    exact ⟨rfl, rfl, rfl, rfl, rfl⟩
  | TouchEntry key last_access_unix_ms =>
    simp only [apply_operation_to_document] at h
    split at h
    · obtain rfl := Except.ok.inj h
      exact ⟨rfl, rfl, rfl, rfl, rfl⟩
    · obtain ⟨entry, -, h⟩ := bind_eq_ok.mp h
      split at h
      · obtain ⟨entry_json, -, h⟩ := bind_eq_ok.mp h
        obtain rfl := Except.ok.inj h
        exact ⟨rfl, rfl, rfl, rfl, rfl⟩
      · obtain rfl := Except.ok.inj h
        exact ⟨rfl, rfl, rfl, rfl, rfl⟩
  | AddInvalidation rule =>
    obtain ⟨rule_json, -, h⟩ := bind_eq_ok.mp h
    obtain rfl := Except.ok.inj h
    exact ⟨rfl, rfl, rfl, rfl, rfl⟩
  | RemoveEntry key
  | SetAdmissionCount key uses
  | RemoveAdmissionCount key
  | ClearInvalidations =>
    obtain rfl := Except.ok.inj h
    exact ⟨rfl, rfl, rfl, rfl, rfl⟩

theorem append_operations_spec {document document' : SharedMemoryIndexDocument β}
    {view : SharedView} (hview : Decodes json document view)
    {operations : List SharedIndexOperation}
    (h : append_operations json document operations = .ok document') :
    Decodes json document' (view.applyAll operations) ∧
      document'.last_change_seq = document.last_change_seq + operations.length ∧
      document'.generation = document.generation ∧
      document'.store_epoch = document.store_epoch ∧
      document'.version = document.version ∧
      ∃ records, document'.changes = document.changes ++ records ∧
        Logged json document.last_change_seq records operations := by
  induction operations generalizing document view with
  | nil =>
    obtain rfl := Except.ok.inj h
    exact ⟨hview, rfl, rfl, rfl, rfl, [], by simp, trivial⟩
  | cons operation operations ih =>
    obtain ⟨appended, happend, h⟩ := bind_eq_ok.mp h
    obtain ⟨applied, happly, happend⟩ := bind_eq_ok.mp happend
    obtain ⟨change, hchange, happend⟩ := bind_eq_ok.mp happend
    obtain rfl := Except.ok.inj happend
    obtain ⟨hseq, hgen, hepoch, hchanges, hversion⟩ := apply_operation_to_document_frame happly
    have hdecodes : Decodes json
        { applied with
          last_change_seq := applied.last_change_seq + 1
          changes := applied.changes ++ [change] } (view.apply operation) :=
      (apply_operation_to_document_decodes hview happly).of_same _ rfl rfl rfl
    obtain ⟨hd, hs, hg, he, hv, records, hrecords, hlogged⟩ := ih hdecodes h
    obtain ⟨hnumber, hreads⟩ := operation_from_change_record_of_record json hchange
    refine ⟨hd, ?_, ?_, ?_, ?_, change :: records, ?_, ?_⟩
    · simp only [hs, hseq, List.length_cons]
      omega
    · rw [hg, hgen]
    · rw [he, hepoch]
    · rw [hv, hversion]
    · rw [hrecords, hchanges, List.append_assoc]
      rfl
    · rw [hseq] at hnumber hlogged
      exact ⟨hnumber, hreads, hlogged⟩

variable (json) in
/-- The document stands after the operations of the history, on a view where the history
starts: it decodes to the view they give, it counts them, and it keeps the last of their
records, as many as the ring holds. -/
structure Tracks (operation_ring_capacity : Nat) (origin : SharedView)
    (history : List SharedIndexOperation) (document : SharedMemoryIndexDocument β) : Prop where
  decodes : Decodes json document (origin.applyAll history)
  seq : document.last_change_seq = history.length
  ring : ∃ records, Logged json 0 records history ∧
    document.changes = records.drop (history.length - operation_ring_capacity)

theorem trim_change_ring_changes (document : SharedMemoryIndexDocument β) (capacity : Nat) :
    (trim_change_ring document capacity).changes =
      document.changes.drop (document.changes.length - capacity) := by
  unfold trim_change_ring
  split
  · rename_i hzero
    simp [hzero]
  · rfl

theorem trim_change_ring_frame (document : SharedMemoryIndexDocument β) (capacity : Nat) :
    (trim_change_ring document capacity).entries = document.entries ∧
      (trim_change_ring document capacity).admission_counts = document.admission_counts ∧
      (trim_change_ring document capacity).invalidations = document.invalidations ∧
      (trim_change_ring document capacity).last_change_seq = document.last_change_seq ∧
      (trim_change_ring document capacity).generation = document.generation ∧
      (trim_change_ring document capacity).store_epoch = document.store_epoch ∧
      (trim_change_ring document capacity).version = document.version := by
  unfold trim_change_ring
  split <;> exact ⟨rfl, rfl, rfl, rfl, rfl, rfl, rfl⟩

/-- A call of `apply_operations` moves the history on by its operations. -/
theorem Tracks.apply_operations {capacity : Nat} {origin : SharedView}
    {history operations : List SharedIndexOperation}
    {document document' : SharedMemoryIndexDocument β}
    (h : Tracks json capacity origin history document)
    (hops : apply_operations_to_document json capacity document operations = .ok document') :
    Tracks json capacity origin (history ++ operations) document' := by
  unfold apply_operations_to_document at hops
  split at hops
  · rename_i hnil
    obtain rfl := Except.ok.inj hops
    rw [hnil, List.append_nil]
    exact h
  · obtain ⟨appended, happend, htrim⟩ := bind_eq_ok.mp hops
    obtain rfl := Except.ok.inj htrim
    obtain ⟨hd, hs, -, -, -, added, hadded, hlogged⟩ := append_operations_spec
      (h.decodes.of_same
        { document with generation := saturating_add document.generation 1 } rfl rfl rfl) happend
    obtain ⟨he, ha, hr, hseq, -⟩ := trim_change_ring_frame appended capacity
    obtain ⟨records, hrecords, hring⟩ := h.ring
    have hlen := hrecords.length
    have hlen' := hlogged.length
    dsimp only at hs hadded hlogged
    rw [h.seq] at hs hlogged
    refine ⟨?_, ?_, records ++ added, ?_, ?_⟩
    · rw [applyAll_append]
      exact hd.of_same _ he ha hr
    · rw [hseq, hs, List.length_append]
    · exact hrecords.append (by simpa using hlogged)
    · -- What fell off the old ring stays off, since the ring only moves on.
      have hcut : records.length - capacity ≤ records.length := Nat.sub_le _ _
      rw [trim_change_ring_changes, hadded, hring, ← hlen, ← List.drop_append_of_le_length hcut,
        List.drop_drop]
      congr 1
      simp only [List.length_drop, List.length_append]
      omega

/-- A call keeps the version and the epoch, and moves the generation on when it has an
operation. -/
theorem apply_operations_to_document_counters {capacity : Nat} {view : SharedView}
    {document document' : SharedMemoryIndexDocument β} {operations : List SharedIndexOperation}
    (hview : Decodes json document view)
    (h : apply_operations_to_document json capacity document operations = .ok document') :
    document'.version = document.version ∧ document'.store_epoch = document.store_epoch ∧
      document'.generation =
        if operations = [] then document.generation
        else saturating_add document.generation 1 := by
  unfold apply_operations_to_document at h
  split at h
  · rename_i hnil
    obtain rfl := Except.ok.inj h
    simp [hnil]
  · rename_i hne
    obtain ⟨appended, happend, htrim⟩ := bind_eq_ok.mp h
    obtain rfl := Except.ok.inj htrim
    obtain ⟨-, -, hg, he, hv, -⟩ := append_operations_spec
      (hview.of_same
        { document with generation := saturating_add document.generation 1 } rfl rfl rfl) happend
    obtain ⟨-, -, -, -, hg', he', hv'⟩ := trim_change_ring_frame appended capacity
    rw [hg', he', hv', if_neg hne]
    exact ⟨hv, he, hg⟩

/-- A call gives the document of which the texts decode to the view after its operations. -/
theorem apply_operations_to_document_decodes {capacity : Nat} {view : SharedView}
    {document document' : SharedMemoryIndexDocument β} {operations : List SharedIndexOperation}
    (hview : Decodes json document view)
    (h : apply_operations_to_document json capacity document operations = .ok document') :
    Decodes json document' (view.applyAll operations) := by
  unfold apply_operations_to_document at h
  split at h
  · rename_i hnil
    obtain rfl := Except.ok.inj h
    rw [hnil]
    exact hview
  · obtain ⟨appended, happend, htrim⟩ := bind_eq_ok.mp h
    obtain rfl := Except.ok.inj htrim
    obtain ⟨hdecodes, -⟩ := append_operations_spec
      (hview.of_same
        { document with generation := saturating_add document.generation 1 } rfl rfl rfl) happend
    obtain ⟨he, ha, hr, -⟩ := trim_change_ring_frame appended capacity
    exact hdecodes.of_same _ he ha hr

/-! ## The operations leave the fill locks alone -/

theorem apply_operation_to_document_locks {document document' : SharedMemoryIndexDocument β} {operation : SharedIndexOperation}
    (h : apply_operation_to_document json document operation = .ok document') :
    document'.fill_locks = document.fill_locks := by
  cases operation with
  | UpsertEntry key entry | AddInvalidation rule =>
    obtain ⟨_, -, h⟩ := bind_eq_ok.mp h
    obtain rfl := Except.ok.inj h
    rfl
  | TouchEntry key last_access_unix_ms =>
    simp only [apply_operation_to_document] at h
    split at h
    · obtain rfl := Except.ok.inj h
      rfl
    · obtain ⟨_, -, h⟩ := bind_eq_ok.mp h
      split at h
      · obtain ⟨_, -, h⟩ := bind_eq_ok.mp h
        obtain rfl := Except.ok.inj h
        rfl
      · obtain rfl := Except.ok.inj h
        rfl
  | RemoveEntry key | SetAdmissionCount key uses | RemoveAdmissionCount key |
    ClearInvalidations =>
    obtain rfl := Except.ok.inj h
    rfl

theorem append_operations_locks {document document' : SharedMemoryIndexDocument β} {operations : List SharedIndexOperation}
    (h : append_operations json document operations = .ok document') :
    document'.fill_locks = document.fill_locks := by
  induction operations generalizing document with
  | nil =>
    obtain rfl := Except.ok.inj h
    rfl
  | cons operation rest ih =>
    obtain ⟨appended, happend, hrest⟩ := bind_eq_ok.mp h
    obtain ⟨applied, happly, happend⟩ := bind_eq_ok.mp happend
    obtain ⟨_, -, happend⟩ := bind_eq_ok.mp happend
    obtain rfl := Except.ok.inj happend
    have hlocks : applied.fill_locks = document.fill_locks :=
      apply_operation_to_document_locks happly
    rw [ih hrest]
    exact hlocks

theorem apply_operations_to_document_locks {capacity : Nat}
    {document document' : SharedMemoryIndexDocument β} {operations : List SharedIndexOperation}
    (h : apply_operations_to_document json capacity document operations = .ok document') :
    document'.fill_locks = document.fill_locks := by
  unfold apply_operations_to_document at h
  split at h
  · obtain rfl := Except.ok.inj h
    rfl
  · obtain ⟨appended, happend, htrim⟩ := bind_eq_ok.mp h
    obtain rfl := Except.ok.inj htrim
    have htrimmed : (trim_change_ring appended capacity).fill_locks = appended.fill_locks := by
      unfold trim_change_ring
      split <;> rfl
    have hlocks := append_operations_locks happend
    rw [htrimmed]
    exact hlocks

/-! ## The operations after a cursor -/

theorem Tracks.operations_since {capacity : Nat} {origin : SharedView}
    {history : List SharedIndexOperation} {document : SharedMemoryIndexDocument β}
    (h : Tracks json capacity origin history document) (after_seq : Nat) :
    operations_since json document after_seq =
      .ok (if after_seq < history.length - capacity then [] else history.drop after_seq) := by
  obtain ⟨records, hrecords, hring⟩ := h.ring
  have hlen := hrecords.length
  have hdrop := hrecords.drop (history.length - capacity) (Nat.sub_le _ _)
  rw [Nat.zero_add, ← hring] at hdrop
  unfold rginx.cache.operations_since
  rcases hc : document.changes with _ | ⟨first, rest⟩
  · rw [hc] at hring
    have hempty : history.length ≤ history.length - capacity := by
      rw [← hlen]
      exact List.drop_eq_nil_iff.mp (by rw [hlen]; exact hring.symm)
    have hnil : history.drop after_seq = [] ∨ after_seq < history.length - capacity := by
      by_cases hlt : after_seq < history.length - capacity
      · exact Or.inr hlt
      · exact Or.inl (List.drop_eq_nil_of_le (by omega))
    rcases hnil with hnil | hlt
    · simp [hnil]
    · simp [hlt]
  · have hfirst : first.seq - 1 = history.length - capacity := by
      rw [hc] at hdrop
      rcases ho : history.drop (history.length - capacity) with _ | ⟨operation, operations⟩
      · rw [ho] at hdrop
        exact hdrop.elim
      · rw [ho] at hdrop
        rw [hdrop.1, Nat.add_sub_cancel]
    dsimp only
    rw [hfirst]
    split
    · rfl
    · rename_i hge
      rw [← hc, hdrop.filter, hring, List.drop_drop,
        show history.length - capacity + (after_seq - (history.length - capacity)) = after_seq by
          omega]
      by_cases hle : after_seq ≤ history.length
      · exact (hrecords.drop after_seq hle).mapM
      · rw [List.drop_eq_nil_of_le (by omega), List.drop_eq_nil_of_le (by omega)]
        rfl

/-! ## Runs of a document -/

variable (json) in
/-- The documents that calls of `apply_operations` reach, with the operations of the calls. -/
inductive Reached (operation_ring_capacity : Nat) (start : SharedMemoryIndexDocument β) :
    List SharedIndexOperation → SharedMemoryIndexDocument β → Prop
  | start : Reached operation_ring_capacity start [] start
  | call {history operations : List SharedIndexOperation}
      {document document' : SharedMemoryIndexDocument β} :
      Reached operation_ring_capacity start history document →
      apply_operations_to_document json operation_ring_capacity document operations =
        .ok document' →
      Reached operation_ring_capacity start (history ++ operations) document'

variable (json) in
/-- The documents that a run passes through: the ones that it reaches, and within a call the
ones between two operations. -/
inductive Passed (operation_ring_capacity : Nat) (start : SharedMemoryIndexDocument β) :
    List SharedIndexOperation → SharedMemoryIndexDocument β → Prop
  | written {history : List SharedIndexOperation} {document : SharedMemoryIndexDocument β} :
      Reached json operation_ring_capacity start history document →
      Passed operation_ring_capacity start history document
  | between {history operations : List SharedIndexOperation}
      {document document' : SharedMemoryIndexDocument β} :
      Reached json operation_ring_capacity start history document →
      append_operations json
        { document with generation := saturating_add document.generation 1 } operations =
        .ok document' →
      Passed operation_ring_capacity start (history ++ operations) document'

/-- A document that was just recreated starts a history. -/
theorem recreated_document_tracks {store_epoch generation rebuild_total : Nat}
    {index : CacheIndex} {document : SharedMemoryIndexDocument β} (capacity : Nat)
    (h : recreated_document json store_epoch generation rebuild_total index = .ok document) :
    Tracks json capacity index.view [] document ∧ document.store_epoch = store_epoch ∧
      document.generation = generation ∧ document.version = 1 := by
  have hdecodes := recreated_document_decodes h
  obtain ⟨entries, -, h⟩ := bind_eq_ok.mp h
  obtain ⟨texts, -, h⟩ := bind_eq_ok.mp h
  obtain rfl := Except.ok.inj h
  exact ⟨⟨hdecodes, rfl, [], trivial, by simp⟩, rfl, rfl, rfl⟩

theorem Reached.tracks {capacity : Nat} {origin : SharedView}
    {start document : SharedMemoryIndexDocument β} {history : List SharedIndexOperation}
    (hstart : Tracks json capacity origin [] start)
    (h : Reached json capacity start history document) :
    Tracks json capacity origin history document := by
  induction h with
  | start => exact hstart
  | call _ hops ih => exact ih.apply_operations hops

theorem Passed.decodes {capacity : Nat} {origin : SharedView}
    {start document : SharedMemoryIndexDocument β} {history : List SharedIndexOperation}
    (hstart : Tracks json capacity origin [] start)
    (h : Passed json capacity start history document) :
    Decodes json document (origin.applyAll history) := by
  cases h with
  | written hreach => exact (hreach.tracks hstart).decodes
  | @between history operations before _ hreach happend =>
    have hbefore := (hreach.tracks hstart).decodes.of_same
        { before with generation := saturating_add before.generation 1 } rfl rfl rfl
    rw [applyAll_append]
    exact (append_operations_spec hbefore happend).1

theorem deltaFits_of_views {index : CacheIndex} {operations : List SharedIndexOperation}
    (h : ∀ n, n ≤ operations.length →
      bodyBytes (index.view.applyAll (operations.take n)).entries ≤ U64_MAX) :
    deltaFits index operations := by
  induction operations generalizing index with
  | nil => trivial
  | cons operation operations ih =>
    have hview := view_apply_shared_index_operation index operation
    constructor
    · have hone := h 1 (by simp)
      rw [List.take_succ_cons, List.take_zero, applyAll_cons, applyAll_nil, ← hview] at hone
      exact hone
    · apply ih
      intro n hn
      have hnext := h (n + 1) (by simpa using hn)
      rwa [List.take_succ_cons, applyAll_cons, ← hview] at hnext

/-! ## The laws -/

/-- A delta replay equals a full reload. Take a recreated document, any calls of
`apply_operations` on it with any capacity of the ring, a cursor that is not ahead of the
document, and an index in the state of the document at the cursor. The operations since the
cursor are none, or exactly those that the history has after the cursor, where the operation
with the number `n + 1` stands at place `n`. Their replay on the index then gives the index
that the whole document loads to. -/
theorem a_delta_replay_equals_a_full_reload (json : SerdeJson β) (operation_ring_capacity : Nat)
    (store_epoch generation rebuild_total : Nat) (origin : CacheIndex)
    (start document : SharedMemoryIndexDocument β) (history : List SharedIndexOperation)
    (hstart : recreated_document json store_epoch generation rebuild_total origin = .ok start)
    (hreach : Reached json operation_ring_capacity start history document)
    (cursor : Nat) (hcursor : cursor ≤ document.last_change_seq)
    (earlier : SharedMemoryIndexDocument β)
    (hearlier : Passed json operation_ring_capacity start (history.take cursor) earlier)
    (loaded_earlier : LoadedSharedIndex)
    (hloaded : loaded_index_from_document json earlier = .ok loaded_earlier)
    (index : CacheIndex) (hok : index.Ok) (hsame : SameIndex index loaded_earlier.index)
    (hfits : ∀ n, cursor ≤ n → n ≤ history.length →
      bodyBytes (origin.view.applyAll (history.take n)).entries ≤ U64_MAX) :
    document.last_change_seq = history.length ∧
      ∃ operations loaded, operations_since json document cursor = .ok operations ∧
        (operations = [] ∨ operations = history.drop cursor) ∧
        loaded_index_from_document json document = .ok loaded ∧
        (operations ≠ [] →
          SameIndex (apply_shared_index_delta index operations) loaded.index) := by
  obtain ⟨htracks0, -⟩ := recreated_document_tracks operation_ring_capacity hstart
  have htracks := hreach.tracks htracks0
  obtain ⟨loaded, hload, hview, hlok, hlsize, -⟩ := loaded_index_spec htracks.decodes
  obtain ⟨earlier', hload', hview', heok, hesize, -⟩ :=
    loaded_index_spec (hearlier.decodes htracks0)
  obtain rfl := Except.ok.inj (hload'.symm.trans hloaded)
  rw [htracks.seq] at hcursor
  refine ⟨htracks.seq, _, loaded, htracks.operations_since cursor, ?_, hload, ?_⟩
  · split
    · exact Or.inl rfl
    · exact Or.inr rfl
  · intro hne
    have hdelta : ¬ cursor < history.length - operation_ring_capacity := by
      intro hlt
      simp [hlt] at hne
    rw [if_neg hdelta]
    have hat : index.view = origin.view.applyAll (history.take cursor) := hsame.view.trans hview'
    have hdeltaFits : deltaFits index (history.drop cursor) := by
      apply deltaFits_of_views
      intro n hn
      rw [hat, ← applyAll_append, ← List.take_add]
      rw [List.length_drop] at hn
      exact hfits (cursor + n) (by omega) (by omega)
    have hsize : index.SizeOk := hsame.size (hesize (hfits cursor (le_refl _) hcursor))
    apply same_of_view
    · exact apply_shared_index_delta_ok hok _
    · exact hlok
    · exact apply_shared_index_delta_timely
        (hsame.timely hok heok (loaded_index_timely hloaded)) _
    · exact loaded_index_timely hload
    · exact apply_shared_index_delta_size hsize _ hdeltaFits
    · apply hlsize
      have hall := hfits history.length hcursor (le_refl _)
      rwa [List.take_length] at hall
    · rw [view_apply_shared_index_delta, hat, ← applyAll_append, List.take_append_drop, hview]

end Histories

/-- The document that an empty index gives, in the epoch 7. -/
def emptyDocument : SharedMemoryIndexDocument PlainText :=
  { store_epoch := 7, generation := 1, rebuild_total := 1 }

/-- The same document after a first admission count. -/
def countedDocument : SharedMemoryIndexDocument PlainText :=
  { emptyDocument with
    generation := 2
    last_change_seq := 1
    admission_counts := (∅ : Map Nat).insert "a" 1
    changes := [⟨1, 2, CHANGE_OP_SET_ADMISSION_COUNT, "a", none, some 1, none⟩] }

theorem a_count_is_replayed :
    ∃ loaded, loaded_index_from_document plainJson countedDocument = .ok loaded ∧
      SameIndex (apply_shared_index_delta CacheIndex.default [.SetAdmissionCount "a" 1])
        loaded.index := by
  have hreach : Reached plainJson 4 emptyDocument ([] ++ [.SetAdmissionCount "a" 1])
      countedDocument :=
    .call .start rfl
  obtain ⟨-, operations, loaded, hops, -, hload, hdelta⟩ :=
    a_delta_replay_equals_a_full_reload plainJson 4 7 1 1 CacheIndex.default
      emptyDocument countedDocument [.SetAdmissionCount "a" 1] rfl hreach 0 (by decide)
      emptyDocument (.written .start) ⟨CacheIndex.default, 1, 7, 0⟩ rfl CacheIndex.default
      default_ok (SameIndex.refl _)
      (by
        intro n _ hn
        simp only [List.length_cons, List.length_nil] at hn
        interval_cases n <;> decide)
  have hsince : operations_since plainJson countedDocument 0 =
      .ok [.SetAdmissionCount "a" 1] := rfl
  obtain rfl := Except.ok.inj (hops.symm.trans hsince)
  exact ⟨loaded, hload, hdelta (by simp)⟩

end rginx.cache
