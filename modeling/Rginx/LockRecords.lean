-- The records of the fill locks over a run: fills acquire, update and release
-- locks, and waiters poll them (`wait_for_memory_shared_fill_lock` in
-- `runtime/fill_lock.rs`). A release leaves the record, a poll of a released
-- lock is done with it, and only a stale one is cleared: so there is a record
-- for every key that was ever filled.
import Rginx.FillLeases

open tree_maps

namespace rginx.cache

/-! ## Runs of fills and waiters -/

/-- A call of a fill or of a waiter. A waiter that finds a stale lock clears it, with the time
of its poll. -/
inductive FillEvent (β : Type)
  | acquire (pid : Nat) (key nonce : String) (now : Nat) (state_json : β)
  | heartbeat (key nonce : String) (now : Nat) (state_json : β)
  | release (key nonce : String)
  | poll (key : String) (now : Nat)
  | clear (key : String) (now : Nat)

def FillEvent.key {β : Type} : FillEvent β → String
  | .acquire _ key _ _ _ => key
  | .heartbeat key _ _ _ => key
  | .release key _ => key
  | .poll key _ => key
  | .clear key _ => key

def FillEvent.call {β : Type} (lock_age_ms : Nat) : FillEvent β → StoreCall β
  | .acquire pid key nonce now state_json =>
    .try_acquire_fill_lock pid key now lock_age_ms nonce state_json
  | .heartbeat key nonce now state_json => .update_fill_lock key nonce now state_json
  | .release key nonce => .release_fill_lock key nonce
  | .poll key now => .fill_lock_status key now lock_age_ms
  | .clear key now => .clear_stale_fill_lock key now lock_age_ms

/-- The memory of a zone group, and the polls that found a stale lock. -/
structure FillGroup (γ : Type) where
  memory : SharedMemory γ
  stale : List (String × Nat)

section Runs

variable {γ β : Type} (store : MemorySharedIndexStore γ β) (cache_key_hash : String → String)
  (lock_age_ms : Nat)

def FillGroup.after (group : FillGroup γ) (event : FillEvent β) (clock : Nat)
    (unopened : Option IoError) : FillGroup γ :=
  let (memory, result) :=
    (event.call lock_age_ms).run store cache_key_hash clock unopened group.memory
  { memory
    stale :=
      match event, result with
      | .poll key now, .ok (.status .Stale) => (key, now) :: group.stale
      | _, _ => group.stale }

def FillGroup.Allows (group : FillGroup γ) : FillEvent β → Prop
  | .clear key now => (key, now) ∈ group.stale
  | _ => True

/-- Any calls for keys of a set, from a memory without a segment. -/
inductive FillRuns (keys : Set String) : FillGroup γ → Prop
  | start : FillRuns keys ⟨.missing, []⟩
  | step {group : FillGroup γ} (runs : FillRuns keys group) (event : FillEvent β) (clock : Nat)
      (unopened : Option IoError) (key : event.key ∈ keys) (allowed : group.Allows event) :
      FillRuns keys (group.after store cache_key_hash lock_age_ms event clock unopened)

/-- The records in the document, and those of locks that are held. -/
def FillGroup.records (group : FillGroup γ) : Nat := (fill_locks store group.memory).size

def FillGroup.held (group : FillGroup γ) : Nat :=
  total (fun _ record => if record.released then 0 else 1) (fill_locks store group.memory)

end Runs

/-- The store with a segment of another size. -/
def MemorySharedIndexStore.with_capacity {γ β : Type} (store : MemorySharedIndexStore γ β)
    (document_capacity : Nat) : MemorySharedIndexStore γ β :=
  { store with document_capacity }

/-! ## Only the keys that were asked for have records -/

section Keys

variable {γ β : Type} {store : MemorySharedIndexStore γ β} {cache_key_hash : String → String}
  {lock_age_ms : Nat} {keys : Set String}

theorem FillRuns.reached {group : FillGroup γ}
    (h : FillRuns store cache_key_hash lock_age_ms keys group) :
    ReachedMemory store cache_key_hash group.memory := by
  induction h with
  | start => exact .missing
  | step _ event clock unopened _ _ ih => exact .call ih clock unopened _

/-- The calls of a fill and of a waiter are calls of the lock functions. -/
theorem FillEvent.exists_lock_call (lock_age_ms : Nat) (event : FillEvent β) :
    ∃ (call : LockCall β) (now : Nat), event.call lock_age_ms = call.call now lock_age_ms ∧
      ∀ key, key ≠ event.key → call.action key = .none := by
  cases event with
  | acquire pid key nonce now state_json =>
    exact ⟨.try_acquire pid key nonce state_json, now, rfl, fun _ hne => if_neg (Ne.symm hne)⟩
  | heartbeat key nonce now state_json =>
    exact ⟨.update key nonce state_json, now, rfl, fun _ hne => if_neg (Ne.symm hne)⟩
  | release key nonce => exact ⟨.release key nonce, 0, rfl, fun _ hne => if_neg (Ne.symm hne)⟩
  | poll key now => exact ⟨.status key, now, rfl, fun _ _ => rfl⟩
  | clear key now => exact ⟨.clear_stale key, now, rfl, fun _ hne => if_neg (Ne.symm hne)⟩

theorem FillRuns.record_key {group : FillGroup γ}
    (h : FillRuns store cache_key_hash lock_age_ms keys group) {key : String}
    {record : SharedMemoryFillLockRecord β}
    (hrecord : (fill_locks store group.memory)[key]? = some record) : key ∈ keys := by
  induction h generalizing record with
  | start =>
    simp [fill_locks] at hrecord
  | @step group runs event clock unopened hkey _ ih =>
    by_cases hsame : key = event.key
    · rw [hsame]
      exact hkey
    · have hafter : (group.after store cache_key_hash lock_age_ms event clock unopened).memory =
          ((event.call lock_age_ms).run store cache_key_hash clock unopened group.memory).1 := rfl
      rw [hafter] at hrecord
      obtain ⟨call, now, hcall, hnone⟩ := event.exists_lock_call lock_age_ms
      obtain ⟨error, -, hlocks⟩ | ⟨document, document', reply, hlocks, hmeaning, -, hlocks'⟩ :=
        fill_locks_run runs.reached (event.call lock_age_ms) clock unopened
      · rw [hlocks] at hrecord
        exact ih hrecord
      · rw [hcall] at hmeaning
        rw [hlocks', LockCall.meaning_other hmeaning (hnone key hsame), ← hlocks] at hrecord
        exact ih hrecord

theorem FillRuns.records_le {group : FillGroup γ} (hfinite : keys.Finite)
    (h : FillRuns store cache_key_hash lock_age_ms keys group) :
    group.records store ≤ hfinite.toFinset.card := by
  have hnodup := keys_nodup_toList (fill_locks store group.memory)
  have hlength : group.records store = ((fill_locks store group.memory).toList.map (·.1)).length := by
    simp [FillGroup.records]
  rw [hlength, ← List.toFinset_card_of_nodup hnodup]
  apply Finset.card_le_card
  intro key hkey
  obtain ⟨⟨key', record⟩, hrow, rfl⟩ := List.mem_map.mp (List.mem_toFinset.mp hkey)
  rw [Std.ExtTreeMap.mem_toList_iff_getElem?_eq_some] at hrow
  simpa using h.record_key hrow

end Keys

/-! ## Every key that was filled has one -/

section Leak

variable {γ β : Type} {store : MemorySharedIndexStore γ β} {cache_key_hash : String → String}
  {lock_age_ms : Nat} {keys : Set String}

/-- The document after the keys were filled: one record for each, and all of them released. -/
structure Leaked (filled : List String) (document : SharedMemoryIndexDocument β) : Prop where
  size : document.fill_locks.size = filled.length
  released : ∀ key record, document.fill_locks[key]? = some record →
    key ∈ filled ∧ record.released = true

/-- A run that leaves the document in the memory. -/
def RunsTo (store : MemorySharedIndexStore γ β) (cache_key_hash : String → String)
    (lock_age_ms : Nat) (keys : Set String) (document : SharedMemoryIndexDocument β) : Prop :=
  ∃ group segment, FillRuns store cache_key_hash lock_age_ms keys group ∧
    group.memory = .mapped segment ∧ Keeps store segment document

theorem RunsTo.step {document document' : SharedMemoryIndexDocument β} {reply : StoreReply β}
    (h : RunsTo store cache_key_hash lock_age_ms keys document) {event : FillEvent β}
    (hmeaning : (event.call lock_age_ms).meaning store cache_key_hash document =
      .ok (document', reply)) (hfits : FitsSegment store document') (hkey : event.key ∈ keys)
    (hallowed : ∀ group : FillGroup γ, group.Allows event) :
    RunsTo store cache_key_hash lock_age_ms keys document' := by
  obtain ⟨group, segment, hruns, hmemory, hkeeps⟩ := h
  obtain ⟨segment', hrun, hkeeps'⟩ :=
    StoreCall.run_fits hkeeps 0 cache_key_hash hmeaning hfits
  refine ⟨group.after store cache_key_hash lock_age_ms event 0 none, segment',
    .step hruns event 0 none hkey (hallowed group), ?_, hkeeps'⟩
  change ((event.call lock_age_ms).run store cache_key_hash 0 none group.memory).1 = _
  rw [hmemory, hrun]

/-- The first poll creates the segment. -/
theorem runsTo_empty {key : String} (hkey : key ∈ keys)
    (hfits : FitsSegment store (SharedMemoryIndexDocument.empty 1)) :
    RunsTo store cache_key_hash lock_age_ms keys (SharedMemoryIndexDocument.empty 1) := by
  have hunmapped : ∀ segment : SharedMemorySegment γ, SharedMemory.missing ≠ .mapped segment :=
    nofun
  obtain ⟨segment, hkeeps, ⟨error, -, hlong⟩ | hopen⟩ := open_or_create_cases store 0 hunmapped
  · exact absurd hfits hlong
  · have hsame : open_or_create_segment store 0 .missing =
        open_or_create_segment store 0 (.mapped segment) := hopen
    have hmeaning : ((FillEvent.poll key 0 : FillEvent β).call lock_age_ms).meaning store
        cache_key_hash (SharedMemoryIndexDocument.empty 1) =
          .ok (SharedMemoryIndexDocument.empty 1, .status .Missing) := by
      simp [FillEvent.call, StoreCall.meaning, SharedMemoryIndexDocument.empty]
    obtain ⟨segment', hpoll, hkeeps'⟩ :=
      StoreCall.run_fits hkeeps 0 cache_key_hash hmeaning hfits
    refine ⟨_, segment', .step .start (.poll key 0) 0 none hkey trivial, ?_, hkeeps'⟩
    have hrun := ((FillEvent.poll key 0 : FillEvent β).call lock_age_ms).run_locked_congr store
      cache_key_hash 0 hsame
    exact (congrArg Prod.fst hrun).trans (congrArg Prod.fst hpoll)

variable (γ cache_key_hash lock_age_ms keys) in
/-- A fill acquires a lock for a new key and releases it, a waiter finds it missing, and its
record is left. -/
theorem RunsTo.fill {document : SharedMemoryIndexDocument β} {filled : List String}
    (hleaked : Leaked filled document) {key : String} (hnew : key ∉ filled) (state_json : β) :
    ∃ acquired released : SharedMemoryIndexDocument β, Leaked (key :: filled) released ∧
      ∀ store : MemorySharedIndexStore γ β, FitsSegment store acquired →
        FitsSegment store released → key ∈ keys →
        RunsTo store cache_key_hash lock_age_ms keys document →
        RunsTo store cache_key_hash lock_age_ms keys released := by
  have hnone : document.fill_locks[key]? = none := by
    rcases hlock : document.fill_locks[key]? with _ | record
    · rfl
    · exact absurd (hleaked.released key record hlock).1 hnew
  -- the key serves as the nonce: no two fills of the run share one
  let record := acquired_record cache_key_hash document 0 key 0 key state_json
  let fill_locks := (document.fill_locks.erase key).insert key record
  refine ⟨{ document with fill_locks }, { document with
    fill_locks := fill_locks.insert key { record with released := true } }, ⟨?_, ?_⟩, ?_⟩
  · have hmem : key ∉ document.fill_locks := by
      simpa using hnone
    have hsize := hleaked.size
    simp [fill_locks, Std.ExtTreeMap.size_insert, Std.ExtTreeMap.size_erase, hmem, hsize]
  · intro other held hheld
    simp only [fill_locks, getElem?_insert_eq, getElem?_erase_eq] at hheld
    by_cases hsame : key = other
    · rw [if_pos hsame] at hheld
      obtain rfl := Option.some.inj hheld
      exact ⟨hsame ▸ List.mem_cons_self, rfl⟩
    · simp only [hsame, if_false] at hheld
      obtain ⟨hmem, hreleased⟩ := hleaked.released other held hheld
      exact ⟨List.mem_cons_of_mem _ hmem, hreleased⟩
  · intro store hacquired hreleased hkey hruns
    have hacquire : ((FillEvent.acquire 0 key key 0 state_json).call lock_age_ms).meaning store
        cache_key_hash document = .ok ({ document with fill_locks }, .acquire .Acquired) := by
      simp [FillEvent.call, StoreCall.meaning, hnone, fill_locks, record]
    have hrelease : ((FillEvent.release key key).call lock_age_ms).meaning store cache_key_hash
        { document with fill_locks } = .ok ({ document with
          fill_locks := fill_locks.insert key { record with released := true } }, .done) := by
      simp [FillEvent.call, StoreCall.meaning, fill_locks, record, acquired_record]
    have hpoll : ((FillEvent.poll key 0).call lock_age_ms).meaning store cache_key_hash
        { document with fill_locks := fill_locks.insert key { record with released := true } } =
          .ok ({ document with
            fill_locks := fill_locks.insert key { record with released := true } },
            .status .Missing) := by
      simp [FillEvent.call, StoreCall.meaning]
    have hacquired := hruns.step hacquire hacquired hkey fun _ => trivial
    have hreleased' := hacquired.step hrelease hreleased hkey fun _ => trivial
    exact hreleased'.step hpoll hreleased hkey fun _ => trivial

variable (cache_key_hash lock_age_ms) in
/-- For any keys there is a segment large enough for a run that fills them all. -/
theorem exists_leak (htotal : ∀ document, ∃ bytes, store.document.to_vec document = .ok bytes)
    (state_json : β) (filled : List String) (hnodup : filled.Nodup) {first : String}
    (hfirst : first ∈ keys) (hkeys : ∀ key ∈ filled, key ∈ keys) :
    ∃ (document : SharedMemoryIndexDocument β) (needed : Nat), Leaked filled document ∧
      ∀ capacity, needed ≤ capacity →
        RunsTo (store.with_capacity capacity) cache_key_hash lock_age_ms keys document := by
  have hfits : ∀ document, ∃ needed, ∀ capacity, needed ≤ capacity →
      FitsSegment (store.with_capacity capacity) document := by
    intro document
    obtain ⟨bytes, hbytes⟩ := htotal document
    exact ⟨store.len bytes, fun capacity hle => ⟨bytes, hbytes, hle⟩⟩
  induction filled with
  | nil =>
    obtain ⟨needed, hneeded⟩ := hfits (SharedMemoryIndexDocument.empty 1)
    refine ⟨SharedMemoryIndexDocument.empty 1, needed, ⟨by simp [SharedMemoryIndexDocument.empty],
      by simp [SharedMemoryIndexDocument.empty]⟩, ?_⟩
    intro capacity hle
    exact runsTo_empty hfirst (hneeded capacity hle)
  | cons key filled ih =>
    rw [List.nodup_cons] at hnodup
    obtain ⟨document, needed, hleaked, hruns⟩ :=
      ih hnodup.2 fun key hkey => hkeys key (List.mem_cons_of_mem _ hkey)
    obtain ⟨acquired, released, hleaked', hfill⟩ :=
      RunsTo.fill γ cache_key_hash lock_age_ms keys hleaked hnodup.1 state_json
    obtain ⟨needed₁, hneeded₁⟩ := hfits acquired
    obtain ⟨needed₂, hneeded₂⟩ := hfits released
    refine ⟨released, max needed (max needed₁ needed₂), hleaked', ?_⟩
    intro capacity hle
    exact hfill _ (hneeded₁ capacity (by omega)) (hneeded₂ capacity (by omega))
      (hkeys key List.mem_cons_self) (hruns capacity (by omega))

theorem RunsTo.leak {document : SharedMemoryIndexDocument β} {filled : List String}
    (h : RunsTo store cache_key_hash lock_age_ms keys document) (hleaked : Leaked filled document) :
    ∃ group, FillRuns store cache_key_hash lock_age_ms keys group ∧
      group.records store = filled.length ∧ group.held store = 0 := by
  obtain ⟨group, segment, hruns, hmemory, hkeeps⟩ := h
  have hlocks : fill_locks store group.memory = document.fill_locks := by
    rw [hmemory]
    exact hkeeps.fill_locks
  refine ⟨group, hruns, ?_, ?_⟩
  · unfold FillGroup.records
    rw [hlocks, hleaked.size]
  · unfold FillGroup.held
    rw [hlocks, total_eq_zero]
    intro key record hrecord
    simp [(hleaked.released key record hrecord).2]

variable (cache_key_hash lock_age_ms) in
/-- Among infinitely many keys, any number of records is left by a run without a held lock. -/
theorem exists_records (htotal : ∀ document, ∃ bytes, store.document.to_vec document = .ok bytes)
    (state_json : β) (hinfinite : keys.Infinite) (count : Nat) :
    ∃ document_capacity group,
      FillRuns (store.with_capacity document_capacity) cache_key_hash lock_age_ms keys group ∧
        group.records (store.with_capacity document_capacity) = count ∧
        group.held (store.with_capacity document_capacity) = 0 := by
  obtain ⟨filled, hsubset, hcard⟩ := hinfinite.exists_subset_card_eq count
  have hmem : ∀ key ∈ filled.toList, key ∈ keys := fun key hkey =>
    hsubset (Finset.mem_toList.mp hkey)
  obtain ⟨first, hfirst⟩ := hinfinite.nonempty
  obtain ⟨document, needed, hleaked, hruns⟩ := exists_leak cache_key_hash lock_age_ms htotal
    state_json filled.toList filled.nodup_toList hfirst hmem
  obtain ⟨group, hgroup, hrecords, hheld⟩ := (hruns needed le_rfl).leak hleaked
  rw [Finset.length_toList, hcard] at hrecords
  exact ⟨needed, group, hgroup, hrecords, hheld⟩

end Leak

/-- The records of the locks are bounded for finitely many keys only. Fills and waiters on the keys
of a set leave at most so many records beside those of the locks that are held, for a bound that
is the same for every run and every size of the segment, exactly when the set is finite. -/
theorem lock_records_are_bounded_iff {γ β : Type} (store : MemorySharedIndexStore γ β)
    (cache_key_hash : String → String) (state_json : β)
    (htotal : ∀ document, ∃ bytes, store.document.to_vec document = .ok bytes)
    (keys : Set String) :
    (∃ bound, ∀ document_capacity lock_age_ms group,
      FillRuns (store.with_capacity document_capacity) cache_key_hash lock_age_ms keys group →
        group.records (store.with_capacity document_capacity) ≤
          group.held (store.with_capacity document_capacity) + bound) ↔
      keys.Finite := by
  constructor
  · rintro ⟨bound, hbound⟩
    by_contra hinfinite
    obtain ⟨capacity, group, hruns, hrecords, hheld⟩ :=
      exists_records cache_key_hash 0 htotal state_json hinfinite (bound + 1)
    have hle := hbound capacity 0 group hruns
    rw [hrecords, hheld] at hle
    omega
  · intro hfinite
    refine ⟨hfinite.toFinset.card, ?_⟩
    intro document_capacity lock_age_ms group hruns
    exact (hruns.records_le hfinite).trans (Nat.le_add_left _ _)

/-- One key, any number of fills: there is a bound. -/
theorem one_key_is_bounded :
    ∃ bound, ∀ document_capacity lock_age_ms group,
      FillRuns (plainStore.with_capacity document_capacity) id lock_age_ms {"a"} group →
        group.records (plainStore.with_capacity document_capacity) ≤
          group.held (plainStore.with_capacity document_capacity) + bound :=
  (lock_records_are_bounded_iff plainStore id lockText (fun document => ⟨document, rfl⟩)
    {"a"}).mpr (Set.finite_singleton "a")

/-- Fills of all keys, each released and found missing by a waiter, leave more records than any
bound. -/
theorem released_locks_are_kept :
    ¬ ∃ bound, ∀ document_capacity lock_age_ms group,
      FillRuns (plainStore.with_capacity document_capacity) id lock_age_ms Set.univ group →
        group.records (plainStore.with_capacity document_capacity) ≤
          group.held (plainStore.with_capacity document_capacity) + bound := by
  rintro ⟨bound, hbound⟩
  have hinfinite : (Set.univ : Set String).Infinite := Set.infinite_univ
  have htotal : ∀ document, ∃ bytes, plainStore.document.to_vec document = .ok bytes :=
    fun document => ⟨document, rfl⟩
  obtain ⟨capacity, group, hruns, hrecords, hheld⟩ :=
    exists_records id 0 htotal lockText hinfinite (bound + 1)
  have hle := hbound capacity 0 group hruns
  rw [hrecords, hheld] at hle
  omega

end rginx.cache
