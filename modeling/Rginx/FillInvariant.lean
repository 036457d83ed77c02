-- The invariant of the fills: a lock and the record of a fill carry the
-- fingerprint of the request that acquired them, or none. Every function of
-- `FillLocks` keeps it, in the locks of a process and in what the processes
-- share.
import Rginx.CacheLookup

open tree_maps rust_text rust_result

namespace rginx.cache

/-! ## The locks in the shared memory -/

section Memory

variable {γ β : Type} (store : MemorySharedIndexStore γ β)
  (Q : Map (SharedMemoryFillLockRecord β) → Prop)

/-- The locks of the document in a segment, if it can be read, are such. -/
def SegmentLocks (segment : SharedMemorySegment γ) : Prop :=
  ∀ document, read_document store segment = .ok document → Q document.fill_locks

def MemoryLocks (memory : SharedMemory γ) : Prop :=
  ∀ segment, memory = .mapped segment → SegmentLocks store Q segment

variable {store Q}

theorem write_document_locks {segment : SharedMemorySegment γ}
    {document : SharedMemoryIndexDocument β} (hsegment : SegmentLocks store Q segment)
    (hdocument : Q document.fill_locks) :
    SegmentLocks store Q (write_document store segment document).1 := by
  unfold write_document
  split
  · exact hsegment
  · rename_i bytes hbytes
    split
    · exact hsegment
    · have hread : ∀ header, SegmentLocks store Q ⟨header, .text bytes⟩ := by
        intro header read hread
        unfold read_document at hread
        simp only [store.document.round_trip _ _ hbytes] at hread
        obtain ⟨_, hsame, hread⟩ := bind_eq_ok.mp hread
        obtain rfl := Except.ok.inj hsame
        split at hread
        · cases hread
        · obtain rfl := Except.ok.inj hread
          exact hdocument
      dsimp only
      split
      · exact hread _
      · exact hread _

/-- A segment that is created anew has no locks. -/
theorem open_or_create_segment_locks {memory : SharedMemory γ} (h : MemoryLocks store Q memory)
    (hempty : Q ∅) (clock : Nat) :
    MemoryLocks store Q (open_or_create_segment store clock memory).1 ∧
      ∀ segment, (open_or_create_segment store clock memory).2 = .ok segment →
        SegmentLocks store Q segment := by
  have hnew : SegmentLocks store Q (SharedMemorySegment.create_or_reset clock) := by
    intro document hread
    obtain rfl := Except.ok.inj hread
    exact hempty
  have hwritten : SegmentLocks store Q (write_document store
      (SharedMemorySegment.create_or_reset clock) (SharedMemoryIndexDocument.empty
        (SharedMemorySegment.create_or_reset clock : SharedMemorySegment γ).header.store_epoch)).1 :=
    write_document_locks hnew hempty
  unfold open_or_create_segment
  cases memory with
  | mapped segment =>
    refine ⟨h, ?_⟩
    rintro _ hsame
    obtain rfl := Except.ok.inj hsame
    exact h _ rfl
  | missing | mismatched =>
    refine ⟨?_, ?_⟩
    · rintro _ hsame
      obtain rfl := SharedMemory.mapped.inj hsame
      exact hwritten
    · intro segment hok
      dsimp only at hok
      rcases hw : (write_document store (SharedMemorySegment.create_or_reset clock)
        (SharedMemoryIndexDocument.empty
          (SharedMemorySegment.create_or_reset clock :
            SharedMemorySegment γ).header.store_epoch)).2 with error | done
      · rw [hw] at hok
        cases hok
      · rw [hw] at hok
        obtain rfl := Except.ok.inj hok
        exact hwritten

theorem with_document_lock_locks {α : Type} {memory : SharedMemory γ}
    (h : MemoryLocks store Q memory) (hempty : Q ∅) (clock : Nat)
    (operation : SharedMemorySegment γ → SharedMemoryIndexDocument β →
      SharedMemorySegment γ × IoResult α)
    (hop : ∀ segment document, SegmentLocks store Q segment → Q document.fill_locks →
      SegmentLocks store Q (operation segment document).1) :
    MemoryLocks store Q (with_document_lock store clock memory operation).1 := by
  obtain ⟨hmemory, hopened⟩ := open_or_create_segment_locks h hempty clock
  unfold with_document_lock
  rcases ho : open_or_create_segment store clock memory with ⟨opened, error | segment⟩
  · rw [ho] at hmemory
    exact hmemory
  · rw [ho] at hmemory hopened
    have hsegment := hopened segment rfl
    dsimp only
    rcases hread : read_document store segment with error | document
    · exact hmemory
    · rintro _ hsame
      obtain rfl := SharedMemory.mapped.inj hsame
      exact hop segment document hsegment (hsegment document hread)

end Memory

/-! ## Records under the locks -/

section Records

variable {γ β : Type} (env : FillEnv γ β) (P : SharedFillStateRecord → Prop)

/-- Every record with a response under a lock is one of these. -/
def RecordsUnder (locks : Map (SharedMemoryFillLockRecord β)) : Prop :=
  ∀ (key : String) record, locks[key]? = some record →
    ∀ state, env.states.from_slice record.state_json = .ok state → state.response.isSome → P state

/-- Every record with a response in the memory is one of these. -/
def MemoryRecords (memory : SharedMemory γ) : Prop :=
  MemoryLocks env.store (RecordsUnder env P) memory

variable {env P}

theorem RecordsUnder.empty : RecordsUnder env P ∅ := by
  intro key record hrecord
  simp at hrecord

theorem RecordsUnder.insert {locks : Map (SharedMemoryFillLockRecord β)}
    (h : RecordsUnder env P locks) (key : String) {record : SharedMemoryFillLockRecord β}
    (hnew : ∀ state, env.states.from_slice record.state_json = .ok state →
      state.response.isSome → P state) :
    RecordsUnder env P (locks.insert key record) := by
  intro key' record' hrecord
  rw [getElem?_insert_eq] at hrecord
  split at hrecord
  · obtain rfl := Option.some.inj hrecord
    exact hnew
  · exact h key' record' hrecord

theorem RecordsUnder.erase {locks : Map (SharedMemoryFillLockRecord β)}
    (h : RecordsUnder env P locks) (key : String) : RecordsUnder env P (locks.erase key) := by
  intro key' record hrecord
  rw [getElem?_erase_eq] at hrecord
  split at hrecord
  · cases hrecord
  · exact h key' record hrecord

/-- A record under a new lock has no response yet. -/
theorem try_acquire_fill_lock_records {memory : SharedMemory γ} (h : MemoryRecords env P memory)
    (clock pid : Nat) (key : String) (now lock_age_ms : Nat) {nonce : String} {state_json : β}
    (hjson : ∀ state, env.states.from_slice state_json = .ok state → state.response = none) :
    MemoryRecords env P (try_acquire_fill_lock env.store env.cache_key_hash clock memory pid key
      now lock_age_ms nonce state_json).1 := by
  unfold try_acquire_fill_lock
  apply with_document_lock_locks h RecordsUnder.empty
  intro segment document hsegment hdocument
  have hacquire : ∀ cleanups, SegmentLocks env.store (RecordsUnder env P)
      (write_document env.store segment
      { document with
        stale_fill_lock_cleanup_total := cleanups
        fill_locks := (document.fill_locks.erase key).insert key
          ⟨env.cache_key_hash key, pid, document.generation, nonce, now, now, false,
            state_json⟩ }).1 := by
    intro cleanups
    apply write_document_locks hsegment
    apply (hdocument.erase key).insert key
    intro state hstate hresponse
    simp [hjson state hstate] at hresponse
  dsimp only
  split
  · exact hacquire _
  · split
    · exact hacquire _
    · split
      · exact hsegment
      · exact hacquire _

theorem load_fill_lock_records {memory : SharedMemory γ} (h : MemoryRecords env P memory)
    (clock : Nat) (key : String) :
    MemoryRecords env P (load_fill_lock env.store clock memory key).1 := by
  unfold load_fill_lock
  apply with_document_lock_locks h RecordsUnder.empty
  intro segment document hsegment _
  exact hsegment

theorem update_fill_lock_records {memory : SharedMemory γ} (h : MemoryRecords env P memory)
    (clock : Nat) (key nonce : String) (updated_at_unix_ms : Nat) {state_json : β}
    (hjson : ∀ state, env.states.from_slice state_json = .ok state → state.response.isSome →
      P state) :
    MemoryRecords env P (update_fill_lock env.store clock memory key nonce updated_at_unix_ms
      state_json).1 := by
  unfold update_fill_lock
  apply with_document_lock_locks h RecordsUnder.empty
  intro segment document hsegment hdocument
  split
  · exact hsegment
  · rename_i record hrecord
    split
    · exact hsegment
    · exact write_document_locks hsegment (hdocument.insert key hjson)

theorem release_fill_lock_records {memory : SharedMemory γ} (h : MemoryRecords env P memory)
    (clock : Nat) (key nonce : String) :
    MemoryRecords env P (release_fill_lock env.store clock memory key nonce).1 := by
  unfold release_fill_lock
  apply with_document_lock_locks h RecordsUnder.empty
  intro segment document hsegment hdocument
  split
  · exact hsegment
  · rename_i record hrecord
    split
    · exact hsegment
    · exact write_document_locks hsegment (hdocument.insert key (hdocument key record hrecord))

theorem clear_stale_fill_lock_records {memory : SharedMemory γ} (h : MemoryRecords env P memory)
    (clock : Nat) (key : String) (now lock_age_ms : Nat) :
    MemoryRecords env P (clear_stale_fill_lock env.store clock memory key now lock_age_ms).1 := by
  unfold clear_stale_fill_lock
  apply with_document_lock_locks h RecordsUnder.empty
  intro segment document hsegment hdocument
  dsimp only
  split
  · exact hsegment
  · split
    · exact write_document_locks hsegment (hdocument.erase key)
    · split
      · exact hsegment
      · exact write_document_locks hsegment (hdocument.erase key)

/-! ## The index operations leave the locks alone -/

theorem apply_operations_records {memory : SharedMemory γ} (h : MemoryRecords env P memory)
    (clock : Nat) (operations : List SharedIndexOperation) :
    MemoryRecords env P (apply_operations env.store clock memory operations).1 := by
  unfold apply_operations
  apply with_document_lock_locks h RecordsUnder.empty
  intro segment document hsegment hdocument
  split
  · exact hsegment
  · split
    · exact hsegment
    · rename_i document' happly
      apply write_document_locks hsegment
      rw [apply_operations_to_document_locks happly]
      exact hdocument

theorem recreate_records {memory : SharedMemory γ} (h : MemoryRecords env P memory)
    (clock : Nat) (index : CacheIndex) (generation : Nat) :
    MemoryRecords env P (recreate env.store clock memory index generation).1 := by
  obtain ⟨hmemory, hopened⟩ := open_or_create_segment_locks h RecordsUnder.empty clock
  unfold recreate
  rcases ho : open_or_create_segment env.store clock memory with ⟨opened, error | segment⟩
  · rw [ho] at hmemory
    exact hmemory
  · rw [ho] at hmemory hopened
    dsimp only
    split
    · exact hmemory
    · rename_i document hdocument
      have hempty : document.fill_locks = ∅ := by
        obtain ⟨_, -, hdocument⟩ := bind_eq_ok.mp hdocument
        obtain ⟨_, -, hdocument⟩ := bind_eq_ok.mp hdocument
        obtain rfl := Except.ok.inj hdocument
        rfl
      rintro _ hsame
      obtain rfl := SharedMemory.mapped.inj hsame
      apply write_document_locks (hopened segment rfl)
      rw [hempty]
      exact RecordsUnder.empty

end Records

/-! ## Fingerprints and nonces -/

/-- The text of a lock is the fingerprint of its request, or was left out. -/
def Fits (share_fingerprint : String) (request : CacheRequest) : Prop :=
  share_fingerprint = "" ∨ share_fingerprint = fill_share_fingerprint request

theorem append_ne_empty {text : String} (h : text ≠ "") (more : String) : text ++ more ≠ "" := by
  intro he
  have hlist : text.toList ++ more.toList = [] := by simpa using congrArg String.toList he
  apply h
  have hnil : text.toList = [] := (List.append_eq_nil_iff.mp hlist).1
  simpa using congrArg String.ofList hnil

/-- A fingerprint is never the empty text: it starts with the method. -/
theorem fill_share_fingerprint_ne_empty (request : CacheRequest) :
    fill_share_fingerprint request ≠ "" := by
  unfold fill_share_fingerprint
  dsimp only
  have hstart : "method=" ++ request.method.as_str ++ "\n" ≠ "" := by
    apply append_ne_empty
    apply append_ne_empty
    decide
  generalize "method=" ++ request.method.as_str ++ "\n" = text at hstart
  generalize List.mergeSort _ header_le = headers
  induction headers generalizing text with
  | nil => exact hstart
  | cons header rest ih =>
    apply ih
    apply append_ne_empty
    apply append_ne_empty
    apply append_ne_empty
    exact append_ne_empty hstart _

theorem Fits.eq_of_fingerprint {text : String} {request reader : CacheRequest}
    (h : Fits text request) (hreader : text = fill_share_fingerprint reader) :
    fill_share_fingerprint request = fill_share_fingerprint reader := by
  rcases h with hempty | hsame
  · exact absurd (hreader.symm.trans hempty) (fill_share_fingerprint_ne_empty reader)
  · exact hsame.symm.trans hreader

theorem fits_getD {fingerprint : Option String} {request : CacheRequest}
    (h : ∀ text, fingerprint = some text → text = fill_share_fingerprint request) :
    Fits (fingerprint.getD "") request := by
  rcases fingerprint with _ | text
  · exact .inl rfl
  · exact .inr (h text rfl)

/-- A nonce names its process and the count of the process. -/
theorem next_shared_fill_nonce_inj {now pid counter now' pid' counter' : Nat}
    (h : next_shared_fill_nonce now pid counter = next_shared_fill_nonce now' pid' counter') :
    pid = pid' ∧ counter = counter' := by
  have hlist := congrArg String.toList h
  simp only [next_shared_fill_nonce, String.toList_ofList] at hlist
  have hdash : ∀ n, '-' ∉ decimal n := notMem_decimal rfl
  have hfirst := congrArg (split_once '-') hlist
  rw [split_once_append (hdash now), split_once_append (hdash now')] at hfirst
  have hrest : decimal pid ++ '-' :: decimal counter = decimal pid' ++ '-' :: decimal counter' :=
    (Prod.mk.inj (Option.some.inj hfirst)).2
  have hsecond := congrArg (split_once '-') hrest
  rw [split_once_append (hdash pid), split_once_append (hdash pid')] at hsecond
  obtain ⟨hpid, hcounter⟩ := Prod.mk.inj (Option.some.inj hsecond)
  exact ⟨decimal_injective hpid, decimal_injective hcounter⟩

/-! ## The locks of a process -/

/-- Every lock belongs to a fill, and carries the fingerprint of its request or none; and so does
the record of a fill, under a nonce that no other fill of the process has. -/
structure ZoneOk (pid : Nat) (zone : FillZone) : Prop where
  locks : ∀ (key : String) lock, zone.fill_locks[key]? = some lock →
    (∀ generation, lock.reader_state = some generation → generation = lock.generation) ∧
      ∃ fill, zone.fills lock.generation = some fill ∧ Fits lock.share_fingerprint fill.request
  generations : ∀ generation fill, zone.fills generation = some fill →
    generation ≤ zone.fill_lock_generation
  handles : ∀ generation fill handle, zone.fills generation = some fill →
    fill.external_state = some handle →
    Fits handle.state.share_fingerprint fill.request ∧
      ∃ now counter, handle.state.nonce = next_shared_fill_nonce now pid counter ∧
        counter < zone.shared_fill_counter
  unique : ∀ generation fill handle generation' fill' handle',
    zone.fills generation = some fill → fill.external_state = some handle →
    zone.fills generation' = some fill' → fill'.external_state = some handle' →
    handle.state.nonce = handle'.state.nonce → generation = generation'

/-- A fill of the zone has this record, and this request acquired it. -/
def FillZone.Acquired (zone : FillZone) (nonce share_fingerprint : String)
    (request : CacheRequest) : Prop :=
  ∃ generation fill handle, zone.fills generation = some fill ∧
    fill.external_state = some handle ∧ handle.state.nonce = nonce ∧
    handle.state.share_fingerprint = share_fingerprint ∧ fill.request = request

/-- The fills of the first zone are fills of the second, with their requests, nonces and
fingerprints. -/
def FillZone.Extends (zone zone' : FillZone) : Prop :=
  ∀ generation fill, zone.fills generation = some fill →
    ∃ fill', zone'.fills generation = some fill' ∧ fill'.request = fill.request ∧
      ∀ handle, fill.external_state = some handle →
        ∃ handle', fill'.external_state = some handle' ∧
          handle'.state.nonce = handle.state.nonce ∧
          handle'.state.share_fingerprint = handle.state.share_fingerprint

theorem FillZone.Extends.refl (zone : FillZone) : zone.Extends zone :=
  fun _ fill h => ⟨fill, h, rfl, fun handle hh => ⟨handle, hh, rfl, rfl⟩⟩

theorem FillZone.Extends.acquired {zone zone' : FillZone} (h : zone.Extends zone')
    {nonce share_fingerprint : String} {request : CacheRequest}
    (hacquired : zone.Acquired nonce share_fingerprint request) :
    zone'.Acquired nonce share_fingerprint request := by
  obtain ⟨generation, fill, handle, hfill, hhandle, rfl, rfl, rfl⟩ := hacquired
  obtain ⟨fill', hfill', hrequest, hexternal⟩ := h generation fill hfill
  obtain ⟨handle', hhandle', hnonce, hfingerprint⟩ := hexternal handle hhandle
  exact ⟨generation, fill', handle', hfill', hhandle', hnonce, hfingerprint, hrequest⟩

/-- A zone that only counted a nonce. -/
theorem ZoneOk.count {pid : Nat} {zone : FillZone} (h : ZoneOk pid zone) :
    ZoneOk pid { zone with shared_fill_counter := zone.shared_fill_counter + 1 } where
  locks := h.locks
  generations := h.generations
  handles := by
    intro generation fill handle hfill hhandle
    obtain ⟨hfits, now, counter, hnonce, hlt⟩ := h.handles generation fill handle hfill hhandle
    exact ⟨hfits, now, counter, hnonce, Nat.lt_succ_of_lt hlt⟩
  unique := h.unique

/-- The handle that a new fill gets: the fingerprint is the one of its request or left out, and
the nonce is the last one that the process has counted. -/
def FreshHandle (pid counter : Nat) (request : CacheRequest)
    (handle : SharedFillExternalStateHandle) : Prop :=
  Fits handle.state.share_fingerprint request ∧
    ∃ now, handle.state.nonce = next_shared_fill_nonce now pid counter

theorem FillZone.acquire_extends {pid : Nat} {zone : FillZone} (h : ZoneOk pid zone)
    (request : CacheRequest) (key : String) (now : Nat) (share_fingerprint : Option String)
    (external_state : Option SharedFillExternalStateHandle) :
    zone.Extends (zone.acquire request key now share_fingerprint external_state).2 := by
  intro generation fill hfill
  have hne : generation ≠ zone.fill_lock_generation + 1 := by
    have := h.generations generation fill hfill
    omega
  refine ⟨fill, ?_, rfl, fun handle hh => ⟨handle, hh, rfl, rfl⟩⟩
  simpa [FillZone.acquire, Function.update_of_ne hne] using hfill

/-- A zone in which a new lock comes in, with a nonce that no earlier fill has. -/
theorem ZoneOk.acquire {pid : Nat} {zone : FillZone} (h : ZoneOk pid zone)
    (request : CacheRequest) (key : String) (now : Nat) {share_fingerprint : Option String}
    (hfingerprint : ∀ text, share_fingerprint = some text →
      text = fill_share_fingerprint request)
    {external_state : Option SharedFillExternalStateHandle}
    (hexternal : ∀ handle, external_state = some handle →
      ∃ counter, FreshHandle pid counter request handle ∧ counter < zone.shared_fill_counter ∧
        ∀ generation fill handle', zone.fills generation = some fill →
          fill.external_state = some handle' → handle'.state.nonce ≠ handle.state.nonce) :
    ZoneOk pid (zone.acquire request key now share_fingerprint external_state).2 := by
  -- A fill of the new zone is the new one or one of before.
  have hfills : ∀ generation fill,
      (zone.acquire request key now share_fingerprint external_state).2.fills generation =
        some fill →
      (generation = zone.fill_lock_generation + 1 ∧
        fill = ⟨request, key, external_state, none⟩) ∨ zone.fills generation = some fill := by
    intro generation fill hfill
    by_cases hg : generation = zone.fill_lock_generation + 1
    · left
      subst hg
      simpa [FillZone.acquire, eq_comm] using hfill
    · right
      simpa [FillZone.acquire, Function.update_of_ne hg] using hfill
  have hnew : (zone.acquire request key now share_fingerprint external_state).2.fills
      (zone.fill_lock_generation + 1) = some ⟨request, key, external_state, none⟩ := by
    simp [FillZone.acquire]
  refine ⟨?_, ?_, ?_, ?_⟩
  · intro key' lock hlock
    simp only [FillZone.acquire, getElem?_insert_eq] at hlock
    split at hlock
    · obtain rfl := Option.some.inj hlock
      exact ⟨by simp, _, hnew, fits_getD hfingerprint⟩
    · obtain ⟨hreader, fill, hfill, hfits⟩ := h.locks key' lock hlock
      refine ⟨hreader, ?_⟩
      obtain ⟨fill', hfill', hrequest, -⟩ :=
        FillZone.acquire_extends h request key now share_fingerprint external_state _ fill hfill
      exact ⟨fill', hfill', hrequest ▸ hfits⟩
  · intro generation fill hfill
    rcases hfills generation fill hfill with ⟨rfl, -⟩ | hold
    · exact le_refl _
    · exact Nat.le_succ_of_le (h.generations generation fill hold)
  · intro generation fill handle hfill hhandle
    rcases hfills generation fill hfill with ⟨-, rfl⟩ | hold
    · obtain ⟨counter, ⟨hfits, now', hnonce⟩, hlt, -⟩ := hexternal handle hhandle
      exact ⟨hfits, now', counter, hnonce, hlt⟩
    · exact h.handles generation fill handle hold hhandle
  · intro generation fill handle generation' fill' handle' hfill hhandle hfill' hhandle' hnonce
    rcases hfills generation fill hfill with ⟨hg, rfl⟩ | hold
    · rcases hfills generation' fill' hfill' with ⟨hg', -⟩ | hold'
      · rw [hg, hg']
      · obtain ⟨-, -, -, hother⟩ := hexternal handle hhandle
        exact absurd hnonce.symm (hother generation' fill' handle' hold' hhandle')
    · rcases hfills generation' fill' hfill' with ⟨-, rfl⟩ | hold'
      · obtain ⟨-, -, -, hother⟩ := hexternal handle' hhandle'
        exact absurd hnonce (hother generation fill handle hold hhandle)
      · exact h.unique generation fill handle generation' fill' handle' hold hhandle hold'
          hhandle' hnonce

/-- The zone has counted the nonce of the handle, and no fill has it yet. -/
theorem ZoneOk.acquire_counted {pid : Nat} {zone : FillZone} (h : ZoneOk pid zone)
    (request : CacheRequest) (key : String) (now : Nat) {share_fingerprint : Option String}
    (hfingerprint : ∀ text, share_fingerprint = some text →
      text = fill_share_fingerprint request)
    {external_state : Option SharedFillExternalStateHandle}
    (hexternal : ∀ handle, external_state = some handle →
      FreshHandle pid zone.shared_fill_counter request handle) :
    ZoneOk pid ({ zone with
      shared_fill_counter := zone.shared_fill_counter + 1 }.acquire request key now
        share_fingerprint external_state).2 := by
  apply h.count.acquire request key now hfingerprint
  intro handle hhandle
  refine ⟨zone.shared_fill_counter, hexternal handle hhandle, Nat.lt_succ_self _, ?_⟩
  intro generation fill handle' hfill hhandle' hnonce
  obtain ⟨-, now', hfresh⟩ := hexternal handle hhandle
  obtain ⟨-, now'', counter, hold, hlt⟩ := h.handles generation fill handle' hfill hhandle'
  have hsame := (next_shared_fill_nonce_inj ((hold.symm.trans hnonce).trans hfresh)).2
  omega

/-- A fill changes, but not its request, its nonce and its fingerprint, and the locks stay or
name it as their own. -/
theorem ZoneOk.update_fill {pid : Nat} {zone : FillZone} (h : ZoneOk pid zone) {generation : Nat}
    {fill fill' : CacheFill} (hfill : zone.fills generation = some fill)
    (hrequest : fill'.request = fill.request)
    (hexternal : ∀ handle', fill'.external_state = some handle' →
      ∃ handle, fill.external_state = some handle ∧ handle'.state.nonce = handle.state.nonce ∧
        handle'.state.share_fingerprint = handle.state.share_fingerprint) :
    ZoneOk pid { zone with fills := Function.update zone.fills generation (some fill') } := by
  -- A fill of the new zone stands for one of before.
  have hfills : ∀ g f, Function.update zone.fills generation (some fill') g = some f →
      ∃ old, zone.fills g = some old ∧ f.request = old.request ∧
        ∀ handle', f.external_state = some handle' →
          ∃ handle, old.external_state = some handle ∧
            handle'.state.nonce = handle.state.nonce ∧
            handle'.state.share_fingerprint = handle.state.share_fingerprint := by
    intro g f hf
    by_cases hg : g = generation
    · subst hg
      rw [Function.update_self] at hf
      obtain rfl := Option.some.inj hf
      exact ⟨fill, hfill, hrequest, hexternal⟩
    · rw [Function.update_of_ne hg] at hf
      exact ⟨f, hf, rfl, fun handle hh => ⟨handle, hh, rfl, rfl⟩⟩
  refine ⟨?_, ?_, ?_, ?_⟩
  · intro key lock hlock
    obtain ⟨hreader, old, hold, hfits⟩ := h.locks key lock hlock
    refine ⟨hreader, ?_⟩
    by_cases hg : lock.generation = generation
    · refine ⟨fill', by rw [hg]; exact Function.update_self .., ?_⟩
      rw [hg, hfill] at hold
      obtain rfl := Option.some.inj hold
      rw [hrequest]
      exact hfits
    · exact ⟨old, by rw [← hold]; exact Function.update_of_ne hg .., hfits⟩
  · intro g f hf
    obtain ⟨old, hold, -, -⟩ := hfills g f hf
    exact h.generations g old hold
  · intro g f handle' hf hhandle'
    obtain ⟨old, hold, hreq, hext⟩ := hfills g f hf
    obtain ⟨handle, hhandle, hnonce, hfingerprint⟩ := hext handle' hhandle'
    obtain ⟨hfits, hcounted⟩ := h.handles g old handle hold hhandle
    rw [hreq, hnonce, hfingerprint]
    exact ⟨hfits, hcounted⟩
  · intro g f handle' g₂ f₂ handle₂' hf hhandle' hf₂ hhandle₂' hnonce
    obtain ⟨old, hold, -, hext⟩ := hfills g f hf
    obtain ⟨old₂, hold₂, -, hext₂⟩ := hfills g₂ f₂ hf₂
    obtain ⟨handle, hhandle, hn, -⟩ := hext handle' hhandle'
    obtain ⟨handle₂, hhandle₂, hn₂, -⟩ := hext₂ handle₂' hhandle₂'
    exact h.unique g old handle g₂ old₂ handle₂ hold hhandle hold₂ hhandle₂
      (hn.symm.trans (hnonce.trans hn₂))

/-- The readers of a lock get the read state of its own fill. -/
theorem ZoneOk.attach {pid : Nat} {zone : FillZone} (h : ZoneOk pid zone) {key : String}
    {lock : CacheFillLockState} (hlock : zone.fill_locks[key]? = some lock) {generation : Nat}
    (hgeneration : lock.generation = generation) :
    ZoneOk pid { zone with
      fill_locks := zone.fill_locks.insert key
        { lock with reader_state := some generation } } where
  locks := by
    intro key' lock' hlock'
    rw [getElem?_insert_eq] at hlock'
    split at hlock'
    · obtain rfl := Option.some.inj hlock'
      refine ⟨?_, (h.locks key lock hlock).2⟩
      intro reader hreader
      obtain rfl := Option.some.inj hreader
      exact hgeneration.symm
    · exact h.locks key' lock' hlock'
  generations := h.generations
  handles := h.handles
  unique := h.unique

theorem ZoneOk.drop_lock {pid : Nat} {zone : FillZone} (h : ZoneOk pid zone) (key : String) :
    ZoneOk pid { zone with fill_locks := zone.fill_locks.erase key } where
  locks := by
    intro key' lock hlock
    rw [getElem?_erase_eq] at hlock
    split at hlock
    · cases hlock
    · exact h.locks key' lock hlock
  generations := h.generations
  handles := h.handles
  unique := h.unique

theorem FillZone.Extends.update_fill {zone : FillZone} {generation : Nat} {fill fill' : CacheFill}
    (hfill : zone.fills generation = some fill) (hrequest : fill'.request = fill.request)
    (hexternal : ∀ handle, fill.external_state = some handle →
      ∃ handle', fill'.external_state = some handle' ∧
        handle'.state.nonce = handle.state.nonce ∧
        handle'.state.share_fingerprint = handle.state.share_fingerprint) :
    zone.Extends { zone with fills := Function.update zone.fills generation (some fill') } := by
  intro g f hf
  by_cases hg : g = generation
  · subst hg
    rw [hfill] at hf
    obtain rfl := Option.some.inj hf
    exact ⟨fill', Function.update_self .., hrequest, hexternal⟩
  · exact ⟨f, by rw [← hf]; exact Function.update_of_ne hg .., rfl,
      fun handle hh => ⟨handle, hh, rfl, rfl⟩⟩

/-! ## What a decision keeps -/

section Decisions

variable {γ β : Type} {env : FillEnv γ β} {P : SharedFillStateRecord → Prop}

variable (env P) in
/-- Every record with a response that the processes share is one of these. -/
def SharedRecords (shared : SharedFills γ) : Prop :=
  MemoryRecords env P shared.memory ∧
    ∀ (path : String) state, shared.state_files[path]? = some state → state.response.isSome →
      P state

theorem SharedRecords.mono {Q : SharedFillStateRecord → Prop} {shared : SharedFills γ}
    (h : SharedRecords env P shared) (hPQ : ∀ state, P state → Q state) :
    SharedRecords env Q shared := by
  refine ⟨?_, fun path state hstate hresponse => hPQ state (h.2 path state hstate hresponse)⟩
  intro segment hsegment document hread key record hrecord state hstate hresponse
  exact hPQ state (h.1 segment hsegment document hread key record hrecord state hstate hresponse)

theorem create_shared_memory_records {shared : SharedFills γ} (h : SharedRecords env P shared)
    (io : FillIo) (pid counter : Nat) (key : String) (now lock_age_ms : Nat)
    (share_fingerprint : Option String) :
    SharedRecords env P (create_shared_memory env io shared pid counter key now lock_age_ms
      share_fingerprint).1 := by
  unfold create_shared_memory
  dsimp only
  split
  · exact h
  · rename_i text htext
    refine ⟨?_, h.2⟩
    apply try_acquire_fill_lock_records h.1
    intro state hstate
    rw [env.states.round_trip _ _ htext] at hstate
    obtain rfl := Except.ok.inj hstate
    rfl

theorem load_memory_external_fill_state_records {shared : SharedFills γ}
    (h : SharedRecords env P shared) (io : FillIo) (key : String)
    (share_fingerprint : Option String) :
    SharedRecords env P (load_memory_external_fill_state env io shared key
      share_fingerprint).1 :=
  ⟨load_fill_lock_records h.1 io.clock key, h.2⟩

theorem try_acquire_file_records {shared shared' : SharedFills γ}
    (h : SharedRecords env P shared) {io : FillIo} {key : String} {lock_age_ms : Nat}
    (hacquire : try_acquire_file_shared_fill_lock env io shared key lock_age_ms = some shared') :
    SharedRecords env P shared' := by
  unfold try_acquire_file_shared_fill_lock at hacquire
  dsimp only at hacquire
  split at hacquire
  · cases hacquire
  · split at hacquire
    · obtain rfl := Option.some.inj hacquire
      exact h
    · split at hacquire
      · obtain rfl := Option.some.inj hacquire
        exact h
      · cases hacquire

theorem persist_lock_and_state_records {shared : SharedFills γ} (h : SharedRecords env P shared)
    (io : FillIo) (key : String) {state : SharedFillStateRecord} (now : Nat)
    (hstate : state.response.isSome → P state) :
    SharedRecords env P (persist_lock_and_state env io shared key state now).1 := by
  have hfiles : ∀ (path : String) state',
      (shared.state_files.insert (env.cache_key_hash key) state)[path]? = some state' →
      state'.response.isSome → P state' := by
    intro path state' hstate'
    rw [getElem?_insert_eq] at hstate'
    split at hstate'
    · obtain rfl := Option.some.inj hstate'
      exact hstate
    · exact h.2 path state' hstate'
  unfold persist_lock_and_state
  dsimp only
  split
  · exact h
  · split
    · exact ⟨h.1, hfiles⟩
    · exact ⟨h.1, hfiles⟩

theorem update_state_records {shared : SharedFills γ} (h : SharedRecords env P shared)
    (io : FillIo) {handle : SharedFillExternalStateHandle} (update : SharedFillUpdate)
    (hstate : P (update.apply handle.state)) :
    SharedRecords env P (update_state env io shared handle update).1 := by
  unfold update_state
  dsimp only
  split
  · split
    · exact h
    · rename_i text htext
      refine ⟨?_, h.2⟩
      apply update_fill_lock_records h.1
      intro state hread _
      rw [env.states.round_trip _ _ htext] at hread
      obtain rfl := Except.ok.inj hread
      exact hstate
  · split
    · split
      · exact h
      · exact h
    · exact persist_lock_and_state_records h io _ _ fun _ => hstate

theorem release_records {shared : SharedFills γ} (h : SharedRecords env P shared) (io : FillIo)
    (handle : SharedFillExternalStateHandle) :
    SharedRecords env P (release env io shared handle) := by
  unfold release
  split
  · exact ⟨release_fill_lock_records h.1 io.clock _ _, h.2⟩
  · exact h

theorem create_shared_memory_handle {io : FillIo} {shared shared' : SharedFills γ}
    {pid counter : Nat} {key : String} {now lock_age_ms : Nat} {request : CacheRequest}
    {share_fingerprint : Option String}
    (hfingerprint : ∀ text, share_fingerprint = some text →
      text = fill_share_fingerprint request)
    {handle : SharedFillExternalStateHandle}
    (h : create_shared_memory env io shared pid counter key now lock_age_ms share_fingerprint =
      (shared', .ok (some handle))) : FreshHandle pid counter request handle := by
  unfold create_shared_memory at h
  dsimp only at h
  split at h
  · cases (Prod.mk.inj h).2
  · rename_i text htext
    have hsecond := (Prod.mk.inj h).2
    rcases hacquire : (try_acquire_fill_lock env.store env.cache_key_hash io.clock shared.memory
      pid key now lock_age_ms (SharedFillStateRecord.start (next_shared_fill_nonce now pid counter)
        share_fingerprint).nonce text).2 with error | acquired
    · rw [hacquire] at hsecond
      cases hsecond
    · rw [hacquire] at hsecond
      cases acquired with
      | Busy => cases hsecond
      | Acquired =>
        obtain rfl := Option.some.inj (Except.ok.inj hsecond)
        exact ⟨fits_getD hfingerprint, now, rfl⟩

theorem create_file_handle {io : FillIo} {shared shared' : SharedFills γ} {pid counter : Nat}
    {key : String} {now : Nat} {request : CacheRequest} {share_fingerprint : Option String}
    (hfingerprint : ∀ text, share_fingerprint = some text →
      text = fill_share_fingerprint request)
    {handle : SharedFillExternalStateHandle}
    (h : create_file env io shared pid counter key now share_fingerprint =
      (shared', some handle)) : FreshHandle pid counter request handle := by
  unfold create_file at h
  rcases hwritten : persist_lock_and_state env io shared key (SharedFillStateRecord.start
    (next_shared_fill_nonce now pid counter) share_fingerprint) now with ⟨shared₁, written⟩
  simp only [hwritten, Prod.mk.injEq] at h
  cases written with
  | false => cases h.2
  | true =>
    obtain rfl := Option.some.inj h.2
    exact ⟨fits_getD hfingerprint, now, rfl⟩

/-- A decision keeps the invariant of the zone and the records that are shared. -/
theorem fill_lock_decision_keeps {pid : Nat} {zone : FillZone} (hzone : ZoneOk pid zone)
    {shared : SharedFills γ} (hshared : SharedRecords env P shared) (io : FillIo)
    (request : CacheRequest) (key : String) (now lock_age : Nat)
    (share_fingerprint : Option String)
    (hfingerprint : ∀ text, share_fingerprint = some text →
      text = fill_share_fingerprint request) :
    let result := fill_lock_decision env io shared zone pid request key now lock_age
      share_fingerprint
    ZoneOk pid result.2.2 ∧ zone.Extends result.2.2 ∧ SharedRecords env P result.1 := by
  intro result
  have hused : zone.Extends { zone with shared_fill_counter := zone.shared_fill_counter + 1 } :=
    FillZone.Extends.refl zone
  have hcounted : ∀ external_state, zone.Extends ({ zone with
      shared_fill_counter := zone.shared_fill_counter + 1 }.acquire request key now
        share_fingerprint external_state).2 := fun external_state =>
    FillZone.acquire_extends hzone.count request key now share_fingerprint external_state
  have hsame : ∀ decision, ZoneOk pid ((shared, decision, zone) : _ × FillLockDecision × _).2.2 ∧
      zone.Extends ((shared, decision, zone) : _ × FillLockDecision × _).2.2 ∧
      SharedRecords env P ((shared, decision, zone) : _ × FillLockDecision × _).1 :=
    fun _ => ⟨hzone, FillZone.Extends.refl zone, hshared⟩
  simp only [result, fill_lock_decision]
  split
  · split
    · split
      · exact hsame _
      · exact hsame _
    · exact hsame _
  · unfold external_lock_decision
    dsimp only
    split
    · exact ⟨hzone.acquire request key now hfingerprint (by simp),
        FillZone.acquire_extends hzone request key now share_fingerprint none, hshared⟩
    · have hcreated := create_shared_memory_records hshared io pid zone.shared_fill_counter key now
        (lock_age % 2 ^ 64) share_fingerprint
      split
      · rename_i shared' error hcreate
        rw [hcreate] at hcreated
        exact ⟨hzone.acquire_counted request key now hfingerprint (by simp), hcounted none,
          hcreated⟩
      · rename_i shared' handle hcreate
        rw [hcreate] at hcreated
        refine ⟨hzone.acquire_counted request key now hfingerprint ?_, hcounted _, hcreated⟩
        intro handle' hhandle
        obtain rfl := Option.some.inj hhandle
        exact create_shared_memory_handle hfingerprint hcreate
      · rename_i shared' hcreate
        rw [hcreate] at hcreated
        have hloaded := load_memory_external_fill_state_records hcreated io key share_fingerprint
        split
        · rename_i hload
          rw [hload] at hloaded
          exact ⟨hzone.count, hused, hloaded⟩
        · rename_i hload
          rw [hload] at hloaded
          exact ⟨hzone.count, hused, hloaded⟩
    · split
      · rename_i shared' hacquire
        have hcreated := try_acquire_file_records hshared hacquire
        have hfile : SharedRecords env P (create_file env io shared' pid zone.shared_fill_counter
            key now share_fingerprint).1 :=
          persist_lock_and_state_records hcreated io key now (by simp [SharedFillStateRecord.start])
        split
        · rename_i shared'' handle hcreate
          rw [hcreate] at hfile
          refine ⟨hzone.acquire_counted request key now hfingerprint ?_, hcounted _, hfile⟩
          intro handle' hhandle
          obtain rfl := Option.some.inj hhandle
          exact create_file_handle hfingerprint hcreate
        · rename_i shared'' hcreate
          rw [hcreate] at hfile
          exact ⟨hzone.acquire_counted request key now hfingerprint (by simp), hcounted none,
            hfile⟩
      · split
        · exact hsame _
        · exact hsame _

/-! ## What the holder of a fill keeps -/

/-- The records of the fills are such, whatever their holders make of them. -/
def HandleRecords (P : SharedFillStateRecord → Prop) (zone : FillZone) : Prop :=
  ∀ generation fill handle, zone.fills generation = some fill →
    fill.external_state = some handle → ∀ update : SharedFillUpdate,
      P (update.apply handle.state)

/-- A handle after a change is the one of before, with its nonce and its fingerprint. -/
theorem update_external_state_handle (io : FillIo) (shared : SharedFills γ)
    (external_state : Option SharedFillExternalStateHandle) (update : SharedFillUpdate) :
    (update_external_state env io shared external_state update).2 =
      external_state.map fun handle => { handle with state := update.apply handle.state } := by
  cases external_state <;> rfl

theorem update_external_state_records {zone : FillZone} {shared : SharedFills γ}
    (hshared : SharedRecords env P shared) (hrecords : HandleRecords P zone) (io : FillIo)
    {generation : Nat} {fill : CacheFill} (hfill : zone.fills generation = some fill)
    (update : SharedFillUpdate) :
    SharedRecords env P
      (update_external_state env io shared fill.external_state update).1 := by
  rcases hexternal : fill.external_state with _ | handle
  · exact hshared
  · exact update_state_records hshared io update (hrecords _ fill handle hfill hexternal update)

variable (env) in
/-- The zone after a change of one of its fills. -/
theorem ZoneOk.update_external {pid : Nat} {zone : FillZone} (h : ZoneOk pid zone)
    {generation : Nat} {fill : CacheFill} (hfill : zone.fills generation = some fill) (io : FillIo)
    (shared : SharedFills γ) (update : SharedFillUpdate)
    (read_state : Option CacheFillReadState) :
    let zone' := { zone with
      fills := Function.update zone.fills generation (some { fill with
        external_state := (update_external_state env io shared fill.external_state update).2
        read_state }) }
    ZoneOk pid zone' ∧ zone.Extends zone' := by
  intro zone'
  refine ⟨h.update_fill hfill rfl ?_, FillZone.Extends.update_fill hfill rfl ?_⟩
  · intro handle' hhandle'
    rw [update_external_state_handle] at hhandle'
    obtain ⟨handle, hhandle, rfl⟩ := Option.map_eq_some_iff.mp hhandle'
    exact ⟨handle, hhandle, update.apply_nonce .., update.apply_share_fingerprint ..⟩
  · intro handle hhandle
    refine ⟨{ handle with state := update.apply handle.state }, ?_,
      update.apply_nonce .., update.apply_share_fingerprint ..⟩
    rw [update_external_state_handle, hhandle]
    rfl

theorem update_fill_keeps {pid : Nat} {zone : FillZone} (hzone : ZoneOk pid zone)
    {shared : SharedFills γ} (hshared : SharedRecords env P shared)
    (hrecords : HandleRecords P zone) (io : FillIo) (generation : Nat)
    (update : SharedFillUpdate) :
    let result := update_fill env io shared zone generation update
    ZoneOk pid result.2 ∧ zone.Extends result.2 ∧ SharedRecords env P result.1 := by
  intro result
  simp only [result, update_fill]
  split
  · exact ⟨hzone, FillZone.Extends.refl zone, hshared⟩
  · rename_i fill hfill
    have hupdated := ZoneOk.update_external env hzone hfill io shared update
      (fill.read_state.map (CacheFillReadState.apply · update))
    exact ⟨hupdated.1, hupdated.2, update_external_state_records hshared hrecords io hfill update⟩

theorem attach_fill_read_state_keeps {pid : Nat} {zone : FillZone} (hzone : ZoneOk pid zone)
    {shared : SharedFills γ} (hshared : SharedRecords env P shared)
    (hrecords : HandleRecords P zone) (io : FillIo) (generation : Nat)
    (state : CacheFillReadState) :
    let result := attach_fill_read_state env io shared zone generation state
    ZoneOk pid result.2 ∧ zone.Extends result.2 ∧ SharedRecords env P result.1 := by
  intro result
  simp only [result, attach_fill_read_state]
  split
  · exact ⟨hzone, FillZone.Extends.refl zone, hshared⟩
  · rename_i fill hfill
    obtain ⟨hupdated, hextends⟩ := ZoneOk.update_external env hzone hfill io shared
      (.publish_response ⟨state.status, shared_headers_from_map state.headers,
        state.body_tmp_path, state.body_path⟩) (some state)
    have hrecords' := update_external_state_records hshared hrecords io hfill
      (.publish_response ⟨state.status, shared_headers_from_map state.headers,
        state.body_tmp_path, state.body_path⟩)
    split
    · rename_i lock hlock
      split
      · exact ⟨hupdated, hextends, hrecords'⟩
      · rename_i hgeneration
        exact ⟨hupdated.attach hlock (not_not.mp hgeneration), hextends, hrecords'⟩
    · exact ⟨hupdated, hextends, hrecords'⟩

theorem drop_guard_keeps {pid : Nat} {zone : FillZone} (hzone : ZoneOk pid zone)
    {shared : SharedFills γ} (hshared : SharedRecords env P shared) (io : FillIo)
    (generation : Nat) :
    let result := drop_guard env io shared zone generation
    ZoneOk pid result.2 ∧ zone.Extends result.2 ∧ SharedRecords env P result.1 := by
  intro result
  simp only [result, drop_guard]
  split
  · exact ⟨hzone, FillZone.Extends.refl zone, hshared⟩
  · rename_i fill hfill
    have hsame := FillZone.Extends.refl zone
    rcases zone.fill_locks[fill.key]? with _ | lock
    · dsimp only
      split
      · exact ⟨hzone, hsame, release_records hshared io _⟩
      · exact ⟨hzone, hsame, hshared⟩
    · by_cases hown : lock.generation = generation
      · simp only [hown, if_true]
        split
        · exact ⟨hzone.drop_lock fill.key, hsame, release_records hshared io _⟩
        · exact ⟨hzone.drop_lock fill.key, hsame, hshared⟩
      · simp only [hown, if_false]
        split
        · exact ⟨hzone, hsame, release_records hshared io _⟩
        · exact ⟨hzone, hsame, hshared⟩

end Decisions

end rginx.cache
