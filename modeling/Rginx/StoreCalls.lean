-- The calls of the shared store as transactions on the document: each of them
-- has a meaning on documents alone, and the memory either keeps the document
-- that it had or gets the one that the call means. A call that fails in the
-- middle of its write would be the exception, and every document that is
-- written can be read again.
import Rginx.SharedFills
import Rginx.SharedSync

open rust_result

namespace rginx.cache

/-! ## The calls -/

inductive StoreCall (β : Type)
  | sync_state
  | load
  | load_changes_since (after_seq : Nat)
  | apply_operations (operations : List SharedIndexOperation)
  | recreate (index : CacheIndex) (generation : Nat)
  | try_acquire_fill_lock (pid : Nat) (key : String) (now lock_age_ms : Nat) (nonce : String)
      (state_json : β)
  | load_fill_lock (key : String)
  | update_fill_lock (key nonce : String) (updated_at_unix_ms : Nat) (state_json : β)
  | release_fill_lock (key nonce : String)
  | fill_lock_status (key : String) (now lock_age_ms : Nat)
  | clear_stale_fill_lock (key : String) (now lock_age_ms : Nat)

inductive StoreReply (β : Type)
  | synced (state : SharedIndexSyncState)
  | loaded (index : LoadedSharedIndex)
  | changes (changes : LoadedSharedIndexChanges)
  | applied (applied : AppliedSharedIndexOperations)
  | acquire (acquire : SharedFillLockAcquire)
  | snapshot (lock : Option (SharedFillLockSnapshot β))
  | done
  | status (status : SharedFillLockStatus)
  | cleared (stale : Bool)

section Calls

variable {γ β : Type} (store : MemorySharedIndexStore γ β) (cache_key_hash : String → String)

/-- The result of a call, as a reply. -/
def replied {α : Type} (reply : α → StoreReply β) (result : SharedMemory γ × IoResult α) :
    SharedMemory γ × IoResult (StoreReply β) :=
  (result.1, result.2.map reply)

/-- A call, after the file lock is taken. -/
def StoreCall.run_locked (clock : Nat) (memory : SharedMemory γ) :
    StoreCall β → SharedMemory γ × IoResult (StoreReply β)
  | .sync_state => replied .synced (rginx.cache.sync_state store clock memory)
  | .load => replied .loaded (rginx.cache.load store clock memory)
  | .load_changes_since after_seq =>
    replied .changes (rginx.cache.load_changes_since store clock memory after_seq)
  | .apply_operations operations =>
    replied .applied (rginx.cache.apply_operations store clock memory operations)
  | .recreate index generation =>
    replied .applied (rginx.cache.recreate store clock memory index generation)
  | .try_acquire_fill_lock pid key now lock_age_ms nonce state_json =>
    replied .acquire (rginx.cache.try_acquire_fill_lock store cache_key_hash clock memory pid key
      now lock_age_ms nonce state_json)
  | .load_fill_lock key => replied .snapshot (rginx.cache.load_fill_lock store clock memory key)
  | .update_fill_lock key nonce updated_at_unix_ms state_json =>
    replied (fun _ => .done) (rginx.cache.update_fill_lock store clock memory key nonce
      updated_at_unix_ms state_json)
  | .release_fill_lock key nonce =>
    replied (fun _ => .done) (rginx.cache.release_fill_lock store clock memory key nonce)
  | .fill_lock_status key now lock_age_ms =>
    replied .status (rginx.cache.fill_lock_status store clock memory key now lock_age_ms)
  | .clear_stale_fill_lock key now lock_age_ms =>
    replied .cleared (rginx.cache.clear_stale_fill_lock store clock memory key now lock_age_ms)

/-- A call; the file lock or the segment may fail to open. -/
def StoreCall.run (clock : Nat) (unopened : Option IoError) (memory : SharedMemory γ)
    (call : StoreCall β) : SharedMemory γ × IoResult (StoreReply β) :=
  match unopened with
  | some error => (memory, .error error)
  | none => call.run_locked store cache_key_hash clock memory

/-! ## Their meaning -/

/-- The record of a lock that is acquired. -/
def acquired_record (document : SharedMemoryIndexDocument β) (pid : Nat) (key : String) (now : Nat)
    (nonce : String) (state_json : β) : SharedMemoryFillLockRecord β :=
  { key_hash := cache_key_hash key
    owner_pid := pid
    owner_generation := document.generation
    nonce
    acquired_at_unix_ms := now
    updated_at_unix_ms := now
    released := false
    state_json }

/-- The document that a call means, and its reply. -/
def StoreCall.meaning (document : SharedMemoryIndexDocument β) :
    StoreCall β → IoResult (SharedMemoryIndexDocument β × StoreReply β)
  | .sync_state => .ok (document, .synced ⟨document.generation, document.store_epoch⟩)
  | .load => do
    let loaded ← loaded_index_from_document store.json document
    return (document, .loaded loaded)
  | .load_changes_since after_seq => do
    let operations ← operations_since store.json document after_seq
    return (document, .changes ⟨document.generation, document.store_epoch,
      document.last_change_seq, operations⟩)
  | .apply_operations operations => do
    let document ← apply_operations_to_document store.json store.operation_ring_capacity document
      operations
    return (document, .applied ⟨document.generation, document.store_epoch,
      document.last_change_seq⟩)
  | .recreate index generation => do
    let document ← recreated_document store.json document.store_epoch generation
      (saturating_add document.rebuild_total 1) index
    return (document, .applied ⟨document.generation, document.store_epoch,
      document.last_change_seq⟩)
  | .try_acquire_fill_lock pid key now lock_age_ms nonce state_json =>
    let record := acquired_record cache_key_hash document pid key now nonce state_json
    let fill_locks := (document.fill_locks.erase key).insert key record
    match document.fill_locks[key]? with
    | none => .ok ({ document with fill_locks }, .acquire .Acquired)
    | some held =>
      if held.released then .ok ({ document with fill_locks }, .acquire .Acquired)
      else if now - held.updated_at_unix_ms ≤ lock_age_ms then .ok (document, .acquire .Busy)
      else .ok ({ document with
        stale_fill_lock_cleanup_total :=
          saturating_add document.stale_fill_lock_cleanup_total 1
        fill_locks }, .acquire .Acquired)
  | .load_fill_lock key =>
    .ok (document, .snapshot (document.fill_locks[key]?.map fun record =>
      ⟨record.nonce, record.state_json⟩))
  | .update_fill_lock key nonce updated_at_unix_ms state_json =>
    match document.fill_locks[key]? with
    | none => .error ⟨.NotFound, "shared fill lock not found"⟩
    | some record =>
      if record.nonce ≠ nonce then .error ⟨.NotFound, "shared fill lock nonce mismatch"⟩
      else .ok ({ document with
        fill_locks := document.fill_locks.insert key
          { record with updated_at_unix_ms, state_json } }, .done)
  | .release_fill_lock key nonce =>
    match document.fill_locks[key]? with
    | none => .ok (document, .done)
    | some record =>
      if record.nonce ≠ nonce then .ok (document, .done)
      else .ok ({ document with
        fill_locks := document.fill_locks.insert key { record with released := true } }, .done)
  | .fill_lock_status key now lock_age_ms =>
    .ok (document, .status (match document.fill_locks[key]? with
      | none => .Missing
      | some record =>
        if record.released then .Missing
        else if lock_age_ms < now - record.updated_at_unix_ms then .Stale
        else .Fresh))
  | .clear_stale_fill_lock key now lock_age_ms =>
    match document.fill_locks[key]? with
    | none => .ok (document, .cleared false)
    | some record =>
      if record.released then
        .ok ({ document with fill_locks := document.fill_locks.erase key }, .cleared false)
      else if now - record.updated_at_unix_ms ≤ lock_age_ms then .ok (document, .cleared false)
      else .ok ({ document with
        fill_locks := document.fill_locks.erase key
        stale_fill_lock_cleanup_total :=
          saturating_add document.stale_fill_lock_cleanup_total 1 }, .cleared true)

end Calls

/-! ## What a segment keeps -/

section Keeps

variable {γ β : Type} {store : MemorySharedIndexStore γ β}

/-- The header that a document asks for. -/
def document_header (json : SerdeJson β) (document : SharedMemoryIndexDocument β) :
    IoResult SharedMemoryHeader := do
  let current_size_bytes ← document_current_size_bytes json document
  return ⟨document.generation, document.store_epoch, document.last_change_seq,
    document.entries.size, current_size_bytes⟩

variable (store) in
/-- The segment reads as a document of which every entry can be read. A segment that no document
was written to reads as the empty one of its epoch; any other has the header of its document. -/
structure Keeps (segment : SharedMemorySegment γ) (document : SharedMemoryIndexDocument β) :
    Prop where
  read : read_document store segment = .ok document
  decodes : ∃ view, Decodes store.json document view
  epoch : segment.header.store_epoch = document.store_epoch
  header : segment.payload ≠ .zeroed → document_header store.json document = .ok segment.header

theorem current_size_of_decodes {document : SharedMemoryIndexDocument β} {view : SharedView}
    (h : Decodes store.json document view) :
    ∃ bytes, document_current_size_bytes store.json document = .ok bytes := by
  obtain ⟨_, _, hload, _⟩ := loaded_index_of_decodes h
  obtain ⟨rows, hrows, -⟩ := bind_eq_ok.mp hload
  unfold document_current_size_bytes
  rw [hrows, ok_bind]
  exact ⟨_, rfl⟩

theorem empty_decodes (store_epoch : Nat) :
    Decodes store.json (SharedMemoryIndexDocument.empty store_epoch) CacheIndex.default.view := by
  refine ⟨?_, rfl, [], rfl, rfl⟩
  intro key
  simp [SharedMemoryIndexDocument.empty, CacheIndex.view, CacheIndex.default]

variable (store) in
/-- The document has a text that is not longer than the segment. -/
def FitsSegment (document : SharedMemoryIndexDocument β) : Prop :=
  ∃ bytes, store.document.to_vec document = .ok bytes ∧
    store.len bytes ≤ store.document_capacity

variable (store) in
/-- A write leaves the segment as it is when the document does not fit, or else the segment keeps
the document. -/
theorem write_document_cases (segment : SharedMemorySegment γ)
    {document : SharedMemoryIndexDocument β} (hversion : document.version = 1)
    (hdecodes : ∃ view, Decodes store.json document view) :
    (∃ error, write_document store segment document = (segment, .error error) ∧
      ¬ FitsSegment store document) ∨
      ∃ segment', write_document store segment document = (segment', .ok ()) ∧
        Keeps store segment' document ∧ segment'.payload ≠ .zeroed := by
  obtain ⟨view, hview⟩ := hdecodes
  obtain ⟨bytes, hbytes⟩ := current_size_of_decodes hview
  unfold write_document
  rcases htext : store.document.to_vec document with error | text
  · refine .inl ⟨error, rfl, ?_⟩
    rintro ⟨text, hfits, -⟩
    rw [htext] at hfits
    cases hfits
  · dsimp only
    split
    · rename_i hlong
      refine .inl ⟨_, rfl, ?_⟩
      rintro ⟨text', hfits, hlen⟩
      obtain rfl := Except.ok.inj (htext.symm.trans hfits)
      omega
    · rw [hbytes]
      refine .inr ⟨_, rfl, ⟨?_, ⟨view, hview⟩, rfl, ?_⟩, by simp⟩
      · simp [read_document, store.document.round_trip _ _ htext, hversion]
      · intro _
        unfold document_header
        rw [hbytes]
        rfl

theorem Keeps.version {segment : SharedMemorySegment γ} {document : SharedMemoryIndexDocument β}
    (h : Keeps store segment document) : document.version = 1 :=
  read_document_version h.read

/-- On a segment that keeps a document, a call runs on that document. -/
theorem Keeps.locked {α : Type} {segment : SharedMemorySegment γ}
    {document : SharedMemoryIndexDocument β} (h : Keeps store segment document) (clock : Nat)
    (operation : SharedMemorySegment γ → SharedMemoryIndexDocument β →
      SharedMemorySegment γ × IoResult α) :
    with_document_lock store clock (.mapped segment) operation =
      (.mapped (operation segment document).1, (operation segment document).2) := by
  simp [with_document_lock, open_or_create_segment, h.read]

/-! ## A call on a segment -/

variable (store) in
/-- The outcome of a call on a segment: an error that leaves it, where the call means an error or
a document that does not fit, or the document and the reply that the call means. -/
def Settles {α : Type} (segment : SharedMemorySegment γ)
    (meaning : IoResult (SharedMemoryIndexDocument β × α))
    (outcome : SharedMemory γ × IoResult α) : Prop :=
  (∃ error, outcome = (.mapped segment, .error error) ∧
    ∀ document' reply, meaning = .ok (document', reply) → ¬ FitsSegment store document') ∨
    ∃ segment' document' reply, meaning = .ok (document', reply) ∧
      outcome = (.mapped segment', .ok reply) ∧ Keeps store segment' document' ∧
      (segment.payload ≠ .zeroed → segment'.payload ≠ .zeroed)

theorem settles_error {α : Type} (segment : SharedMemorySegment γ) (error : IoError) :
    Settles store segment (.error error : IoResult (SharedMemoryIndexDocument β × α))
      (.mapped segment, .error error) :=
  .inl ⟨error, rfl, nofun⟩

theorem settles_read {α : Type} {segment : SharedMemorySegment γ}
    {document : SharedMemoryIndexDocument β} (h : Keeps store segment document)
    (result : IoResult α) :
    Settles store segment (result.map fun reply => (document, reply))
      (.mapped segment, result) := by
  rcases result with error | reply
  · exact .inl ⟨error, rfl, nofun⟩
  · exact .inr ⟨segment, document, reply, rfl, rfl, h, id⟩

theorem settles_write {α : Type} (segment : SharedMemorySegment γ)
    {document : SharedMemoryIndexDocument β} (hversion : document.version = 1)
    (hdecodes : ∃ view, Decodes store.json document view) (reply : α) :
    Settles store segment (.ok (document, reply))
      (.mapped (write_document store segment document).1,
        (write_document store segment document).2.map fun _ => reply) := by
  obtain ⟨error, hw, hlong⟩ | ⟨segment', hw, h, hne⟩ :=
    write_document_cases store segment hversion hdecodes
  · rw [hw]
    refine .inl ⟨error, rfl, ?_⟩
    intro document' reply' hmeaning
    obtain ⟨rfl, -⟩ := Prod.mk.inj (Except.ok.inj hmeaning)
    exact hlong
  · rw [hw]
    exact .inr ⟨segment', document, reply, rfl, rfl, h, fun _ => hne⟩

theorem Settles.replied {α : Type} {segment : SharedMemorySegment γ}
    {meaning : IoResult (SharedMemoryIndexDocument β × α)} {outcome : SharedMemory γ × IoResult α}
    (h : Settles store segment meaning outcome) (reply : α → StoreReply β) :
    Settles store segment (meaning.map fun result => (result.1, reply result.2))
      (replied reply outcome) := by
  obtain ⟨error, rfl, hlong⟩ | ⟨segment', document', result, rfl, rfl, hkeeps, hne⟩ := h
  · refine .inl ⟨error, rfl, ?_⟩
    intro document' reply' hmeaning
    rcases meaning with _ | ⟨document, result⟩
    · cases hmeaning
    · obtain ⟨rfl, -⟩ := Prod.mk.inj (Except.ok.inj hmeaning)
      exact hlong document result rfl
  · exact .inr ⟨segment', document', reply result, rfl, rfl, hkeeps, hne⟩

/-- The two ways to name the counters of the document that a call gives. -/
theorem applied_eq_bind (result : IoResult (SharedMemoryIndexDocument β)) :
    ((result.map fun document => (document, (⟨document.generation, document.store_epoch,
        document.last_change_seq⟩ : AppliedSharedIndexOperations))).map
      fun result => (result.1, (StoreReply.applied result.2 : StoreReply β))) =
    result >>= fun document => .ok (document, .applied ⟨document.generation,
      document.store_epoch, document.last_change_seq⟩) := by
  cases result <;> rfl

variable {segment : SharedMemorySegment γ} {document : SharedMemoryIndexDocument β}
  (h : Keeps store segment document) (clock : Nat) (cache_key_hash : String → String)

include h

theorem apply_operations_settles (operations : List SharedIndexOperation) :
    Settles store segment ((apply_operations_to_document store.json store.operation_ring_capacity
        document operations).map fun document =>
          (document, ⟨document.generation, document.store_epoch, document.last_change_seq⟩))
      (apply_operations store clock (.mapped segment) operations) := by
  unfold apply_operations
  rw [h.locked]
  by_cases hnil : operations = []
  · rw [if_pos hnil, hnil]
    exact settles_read h (.ok _)
  · rw [if_neg hnil]
    rcases happly : apply_operations_to_document store.json store.operation_ring_capacity document
        operations with error | document'
    · exact settles_error segment error
    · obtain ⟨view, hview⟩ := h.decodes
      obtain ⟨hversion, -, -⟩ := apply_operations_to_document_counters hview happly
      exact settles_write segment (hversion.trans h.version)
        ⟨_, apply_operations_to_document_decodes hview happly⟩ _

theorem recreate_settles (index : CacheIndex) (generation : Nat) :
    Settles store segment ((recreated_document store.json document.store_epoch generation
        (saturating_add document.rebuild_total 1) index).map fun document =>
          (document, ⟨document.generation, document.store_epoch, document.last_change_seq⟩))
      (recreate store clock (.mapped segment) index generation) := by
  unfold recreate open_or_create_segment
  dsimp only
  rw [h.read, h.epoch]
  dsimp only
  rcases hrecreated : recreated_document store.json document.store_epoch generation
      (saturating_add document.rebuild_total 1) index with error | document'
  · exact settles_error segment error
  · have hversion : document'.version = 1 := by
      obtain ⟨entries, _, hrecreated⟩ := bind_eq_ok.mp hrecreated
      obtain ⟨rules, _, hrecreated⟩ := bind_eq_ok.mp hrecreated
      obtain rfl := Except.ok.inj hrecreated
      rfl
    exact settles_write segment hversion ⟨_, recreated_document_decodes hrecreated⟩ _

/-- A document in which only the locks are new is written, or the segment stays. -/
theorem settles_relocked {α : Type} (cleanups : Nat)
    (fill_locks : Map (SharedMemoryFillLockRecord β)) (reply : α) :
    Settles store segment
      (.ok ({ document with stale_fill_lock_cleanup_total := cleanups, fill_locks }, reply))
      (.mapped (write_document store segment
          { document with stale_fill_lock_cleanup_total := cleanups, fill_locks }).1,
        (write_document store segment
          { document with stale_fill_lock_cleanup_total := cleanups, fill_locks }).2.map
            fun _ => reply) := by
  obtain ⟨view, hview⟩ := h.decodes
  have hdecodes : ∃ view, Decodes store.json
      { document with stale_fill_lock_cleanup_total := cleanups, fill_locks } view :=
    ⟨view, hview.of_same _ rfl rfl rfl⟩
  refine settles_write segment ?_ hdecodes reply
  exact h.version

/-- Every call is a transaction. It fails and leaves the segment, or the segment keeps the
document that the call means. -/
theorem StoreCall.settles (call : StoreCall β) :
    Settles store segment (call.meaning store cache_key_hash document)
      (call.run_locked store cache_key_hash clock (.mapped segment)) := by
  cases call with
  | sync_state =>
    dsimp only [run_locked, meaning]
    unfold rginx.cache.sync_state
    rw [h.locked]
    exact (settles_read h (.ok _)).replied _
  | load =>
    dsimp only [run_locked, meaning]
    unfold rginx.cache.load
    rw [h.locked]
    dsimp only
    rcases loaded_index_from_document store.json document with error | loaded
    · exact settles_error segment error
    · exact (settles_read h (.ok _)).replied _
  | load_changes_since after_seq =>
    dsimp only [run_locked, meaning]
    unfold rginx.cache.load_changes_since
    rw [h.locked]
    dsimp only
    rcases operations_since store.json document after_seq with error | operations
    · exact settles_error segment error
    · exact (settles_read h (.ok _)).replied _
  | apply_operations operations =>
    have hsettles := (apply_operations_settles h clock operations).replied .applied
    rw [applied_eq_bind] at hsettles
    exact hsettles
  | recreate index generation =>
    have hsettles := (recreate_settles h clock index generation).replied .applied
    rw [applied_eq_bind] at hsettles
    exact hsettles
  | try_acquire_fill_lock pid key now lock_age_ms nonce state_json =>
    dsimp only [run_locked, meaning]
    unfold rginx.cache.try_acquire_fill_lock
    rw [h.locked]
    dsimp only
    rcases document.fill_locks[key]? with _ | record
    · exact (settles_relocked h _ _ _).replied _
    · dsimp only
      split
      · exact (settles_relocked h _ _ _).replied _
      · split
        · exact (settles_read h (.ok _)).replied _
        · exact (settles_relocked h _ _ _).replied _
  | load_fill_lock key =>
    dsimp only [run_locked, meaning]
    unfold rginx.cache.load_fill_lock
    rw [h.locked]
    exact (settles_read h (.ok _)).replied _
  | update_fill_lock key nonce updated_at_unix_ms state_json =>
    dsimp only [run_locked, meaning]
    unfold rginx.cache.update_fill_lock
    rw [h.locked]
    rcases document.fill_locks[key]? with _ | record
    · exact settles_error segment _
    · dsimp only
      split
      · exact settles_error segment _
      · exact settles_relocked h _ _ _
  | release_fill_lock key nonce =>
    dsimp only [run_locked, meaning]
    unfold rginx.cache.release_fill_lock
    rw [h.locked]
    rcases document.fill_locks[key]? with _ | record
    · exact (settles_read h (.ok _)).replied _
    · dsimp only
      split
      · exact (settles_read h (.ok _)).replied _
      · exact settles_relocked h _ _ _
  | fill_lock_status key now lock_age_ms =>
    dsimp only [run_locked, meaning]
    unfold rginx.cache.fill_lock_status
    rw [h.locked]
    exact (settles_read h (.ok _)).replied _
  | clear_stale_fill_lock key now lock_age_ms =>
    dsimp only [run_locked, meaning]
    unfold rginx.cache.clear_stale_fill_lock
    rw [h.locked]
    dsimp only
    rcases document.fill_locks[key]? with _ | record
    · exact (settles_read h (.ok _)).replied _
    · dsimp only
      split
      · exact (settles_relocked h _ _ _).replied _
      · split
        · exact (settles_read h (.ok _)).replied _
        · exact (settles_relocked h _ _ _).replied _

/-- A call that means a document that fits succeeds. -/
theorem StoreCall.run_fits {call : StoreCall β} {document' : SharedMemoryIndexDocument β}
    {reply : StoreReply β}
    (hmeaning : call.meaning store cache_key_hash document = .ok (document', reply))
    (hfits : FitsSegment store document') :
    ∃ segment', call.run store cache_key_hash clock none (.mapped segment) =
        (.mapped segment', .ok reply) ∧ Keeps store segment' document' := by
  dsimp only [run]
  obtain ⟨error, -, hlong⟩ | ⟨segment', written, replied, hmeant, houtcome, hkeeps, -⟩ :=
    call.settles h clock cache_key_hash
  · exact absurd hfits (hlong document' reply hmeaning)
  · obtain ⟨rfl, rfl⟩ := Prod.mk.inj (Except.ok.inj (hmeaning.symm.trans hmeant))
    exact ⟨segment', houtcome, hkeeps⟩

end Keeps

/-! ## Memories that the calls reach -/

section Reached

variable {γ β : Type} (store : MemorySharedIndexStore γ β) (cache_key_hash : String → String)

/-- The memory after any calls, by any processes, from one that has no segment of the zone. -/
inductive ReachedMemory : SharedMemory γ → Prop
  | missing : ReachedMemory .missing
  | mismatched : ReachedMemory .mismatched
  | call {memory : SharedMemory γ} (reached : ReachedMemory memory) (clock : Nat)
      (unopened : Option IoError) (call : StoreCall β) :
      ReachedMemory (call.run store cache_key_hash clock unopened memory).1

/-- A segment that is created keeps the empty document, whether or not it could be written. -/
theorem open_or_create_cases (clock : Nat) {memory : SharedMemory γ}
    (hunmapped : ∀ segment, memory ≠ .mapped segment) :
    ∃ segment, Keeps store segment (SharedMemoryIndexDocument.empty (max clock 1)) ∧
      ((∃ error, open_or_create_segment store clock memory = (.mapped segment, .error error) ∧
          ¬ FitsSegment store (SharedMemoryIndexDocument.empty (max clock 1))) ∨
        open_or_create_segment store clock memory = (.mapped segment, .ok segment)) := by
  have hcreate : open_or_create_segment store clock memory =
      (.mapped (write_document store (SharedMemorySegment.create_or_reset clock)
          (SharedMemoryIndexDocument.empty (max clock 1))).1,
        (write_document store (SharedMemorySegment.create_or_reset clock)
          (SharedMemoryIndexDocument.empty (max clock 1))).2.map fun _ =>
            (write_document store (SharedMemorySegment.create_or_reset clock)
              (SharedMemoryIndexDocument.empty (max clock 1))).1) := by
    cases memory with
    | missing => rfl
    | mismatched => rfl
    | mapped segment => exact absurd rfl (hunmapped segment)
  rw [hcreate]
  rcases write_document_cases store (SharedMemorySegment.create_or_reset clock) rfl
      ⟨_, empty_decodes (max clock 1)⟩ with ⟨error, hw, hlong⟩ | ⟨segment, hw, hkeeps, -⟩
  · rw [hw]
    exact ⟨_, ⟨rfl, ⟨_, empty_decodes (max clock 1)⟩, rfl, fun hne => absurd rfl hne⟩,
      .inl ⟨error, rfl, hlong⟩⟩
  · rw [hw]
    exact ⟨segment, hkeeps, .inr rfl⟩

/-- What a call does depends on what it opens. -/
theorem StoreCall.run_locked_congr (call : StoreCall β) (clock : Nat)
    {memory memory' : SharedMemory γ}
    (h : open_or_create_segment store clock memory = open_or_create_segment store clock memory') :
    call.run_locked store cache_key_hash clock memory =
      call.run_locked store cache_key_hash clock memory' := by
  cases call <;>
    simp only [run_locked, rginx.cache.sync_state, rginx.cache.load,
      rginx.cache.load_changes_since, rginx.cache.apply_operations, rginx.cache.recreate,
      rginx.cache.try_acquire_fill_lock, rginx.cache.load_fill_lock,
      rginx.cache.update_fill_lock, rginx.cache.release_fill_lock,
      rginx.cache.fill_lock_status, rginx.cache.clear_stale_fill_lock, with_document_lock, h]

theorem StoreCall.run_locked_unopened (call : StoreCall β) (clock : Nat)
    {memory memory' : SharedMemory γ} {error : IoError}
    (h : open_or_create_segment store clock memory = (memory', .error error)) :
    call.run_locked store cache_key_hash clock memory = (memory', .error error) := by
  cases call <;>
    simp [run_locked, rginx.cache.sync_state, rginx.cache.load,
      rginx.cache.load_changes_since, rginx.cache.apply_operations, rginx.cache.recreate,
      rginx.cache.try_acquire_fill_lock, rginx.cache.load_fill_lock,
      rginx.cache.update_fill_lock, rginx.cache.release_fill_lock,
      rginx.cache.fill_lock_status, rginx.cache.clear_stale_fill_lock, with_document_lock, h,
      replied, Except.map]

variable {store cache_key_hash} in
theorem Settles.keeps {α : Type} {segment : SharedMemorySegment γ}
    {document : SharedMemoryIndexDocument β} (h : Keeps store segment document)
    {meaning : IoResult (SharedMemoryIndexDocument β × α)} {outcome : SharedMemory γ × IoResult α}
    (hsettles : Settles store segment meaning outcome) :
    ∃ segment' document', outcome.1 = .mapped segment' ∧ Keeps store segment' document' := by
  obtain ⟨error, rfl, -⟩ | ⟨segment', document', reply, -, rfl, hkeeps, -⟩ := hsettles
  · exact ⟨segment, document, rfl, h⟩
  · exact ⟨segment', document', rfl, hkeeps⟩

/-- A call leaves a segment that keeps a document. -/
theorem StoreCall.run_locked_keeps (call : StoreCall β) (clock : Nat) (memory : SharedMemory γ)
    (h : ∀ segment, memory = .mapped segment → ∃ document, Keeps store segment document) :
    ∃ segment document,
      (call.run_locked store cache_key_hash clock memory).1 = .mapped segment ∧
        Keeps store segment document := by
  by_cases hmapped : ∃ segment, memory = .mapped segment
  · obtain ⟨segment, rfl⟩ := hmapped
    obtain ⟨document, hkeeps⟩ := h segment rfl
    exact (call.settles hkeeps clock cache_key_hash).keeps hkeeps
  · obtain ⟨segment, hkeeps, ⟨error, hopen, -⟩ | hopen⟩ :=
      open_or_create_cases store clock
        fun segment hsegment => hmapped ⟨segment, hsegment⟩
    · rw [call.run_locked_unopened store cache_key_hash clock hopen]
      exact ⟨segment, _, rfl, hkeeps⟩
    · have hsame : open_or_create_segment store clock memory =
          open_or_create_segment store clock (.mapped segment) := hopen
      rw [call.run_locked_congr store cache_key_hash clock hsame]
      exact (call.settles hkeeps clock cache_key_hash).keeps hkeeps

variable {store cache_key_hash} in
theorem ReachedMemory.keeps {memory : SharedMemory γ}
    (h : ReachedMemory store cache_key_hash memory) (segment : SharedMemorySegment γ)
    (hmapped : memory = .mapped segment) : ∃ document, Keeps store segment document := by
  induction h generalizing segment with
  | missing => cases hmapped
  | mismatched => cases hmapped
  | @call memory _ clock unopened call ih =>
    cases unopened with
    | some error => exact ih segment hmapped
    | none =>
      obtain ⟨segment', document', hmemory, hkeeps⟩ :=
        call.run_locked_keeps store cache_key_hash clock memory ih
      obtain rfl := SharedMemory.mapped.inj (hmemory.symm.trans hmapped)
      exact ⟨document', hkeeps⟩

/-- The document is written as a whole or not at all. On a reached segment that holds a document,
a call that fails leaves the document and the header, and a call that does not leaves the
document that it means, with a header of the counters of that document. -/
theorem a_call_writes_all_or_nothing (memory : SharedMemory γ)
    (hreached : ReachedMemory store cache_key_hash memory) (segment : SharedMemorySegment γ)
    (hmapped : memory = .mapped segment) (hdocument : segment.payload ≠ .zeroed)
    (call : StoreCall β) (clock : Nat) (unopened : Option IoError) :
    ∃ document segment', read_document store segment = .ok document ∧
      (call.run store cache_key_hash clock unopened memory).1 = .mapped segment' ∧
      (∀ error, (call.run store cache_key_hash clock unopened memory).2 = .error error →
        read_document store segment' = .ok document ∧ segment'.header = segment.header) ∧
      ∀ reply, (call.run store cache_key_hash clock unopened memory).2 = .ok reply →
        ∃ document', call.meaning store cache_key_hash document = .ok (document', reply) ∧
          read_document store segment' = .ok document' ∧
          segment'.header.generation = document'.generation ∧
          segment'.header.store_epoch = document'.store_epoch ∧
          segment'.header.operation_seq = document'.last_change_seq ∧
          segment'.header.entry_count = document'.entries.size ∧
          document_current_size_bytes store.json document' =
            .ok segment'.header.current_size_bytes := by
  obtain ⟨document, hkeeps⟩ := hreached.keeps segment hmapped
  subst hmapped
  cases unopened with
  | some error =>
    refine ⟨document, segment, hkeeps.read, rfl, fun _ _ => ⟨hkeeps.read, rfl⟩, ?_⟩
    intro reply hreply
    cases hreply
  | none =>
    dsimp only [StoreCall.run]
    obtain ⟨error, houtcome, -⟩ | ⟨segment', document', reply, hmeaning, houtcome, hkeeps', hne⟩ :=
      call.settles hkeeps clock cache_key_hash
    · rw [houtcome]
      refine ⟨document, segment, hkeeps.read, rfl, fun _ _ => ⟨hkeeps.read, rfl⟩, ?_⟩
      intro reply hreply
      cases hreply
    · rw [houtcome]
      refine ⟨document, segment', hkeeps.read, rfl, ?_, ?_⟩
      · intro error herror
        cases herror
      · intro reply' hreply
        obtain rfl := Except.ok.inj hreply
        obtain ⟨bytes, hbytes, hheader⟩ := bind_eq_ok.mp (hkeeps'.header (hne hdocument))
        obtain hheader := Except.ok.inj hheader
        rw [← hheader]
        exact ⟨document', hmeaning, hkeeps'.read, rfl, rfl, rfl, rfl, hbytes⟩

end Reached

/-- The memory after a first count in it. -/
def countedMemory : SharedMemory (SharedMemoryIndexDocument PlainText) :=
  ((StoreCall.apply_operations [.SetAdmissionCount "a" 1]).run plainStore id 7 none .missing).1

theorem countedMemory_mapped : ∃ segment, countedMemory = .mapped segment ∧
    segment.payload ≠ .zeroed :=
  ⟨_, rfl, nofun⟩

/-- An update of a lock that nobody holds fails, and the count stays. -/
theorem a_failed_update_leaves_the_count :
    ∃ segment document segment', countedMemory = .mapped segment ∧
      read_document plainStore segment = .ok document ∧
      ((StoreCall.update_fill_lock "a" "1-1-0" 5 (.inr ⟨.All, 0⟩)).run plainStore id 7 none
        countedMemory).1 = .mapped segment' ∧
      read_document plainStore segment' = .ok document ∧ segment'.header = segment.header := by
  obtain ⟨segment, hmapped, hdocument⟩ := countedMemory_mapped
  obtain ⟨document, segment', hread, hrun, herror, -⟩ :=
    a_call_writes_all_or_nothing plainStore id countedMemory (.call .missing 7 none _) segment
      hmapped hdocument (.update_fill_lock "a" "1-1-0" 5 (.inr ⟨.All, 0⟩)) 7 none
  have hfails : ((StoreCall.update_fill_lock "a" "1-1-0" 5 (.inr ⟨.All, 0⟩)).run plainStore id 7
      none countedMemory).2 = .error ⟨.NotFound, "shared fill lock not found"⟩ := rfl
  obtain ⟨hsame, hheader⟩ := herror _ hfails
  exact ⟨segment, document, segment', hmapped, hread, hrun, hsame, hheader⟩

end rginx.cache
