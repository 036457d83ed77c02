-- Zones that share one document, from `shared.rs` and `shared/delta.rs`. A
-- zone publishes what it does to its index and catches up with what others
-- published; its cursor says up to where it has the changes of the document.
import Rginx.SharedStore

namespace rginx.cache

/-! ## A zone and its cursor -/

structure SharedZone where
  index : CacheIndex
  shared_index_generation : Nat
  shared_index_store_epoch : Nat
  shared_index_change_seq : Nat

def SharedZone.store_cursor (zone : SharedZone) (generation store_epoch change_seq : Nat) :
    SharedZone :=
  { zone with
    shared_index_generation := generation
    shared_index_store_epoch := store_epoch
    shared_index_change_seq := change_seq }

/-- The cursor of the zone is the one of the document. -/
def AtDocument {β : Type} (zone : SharedZone) (document : SharedMemoryIndexDocument β) : Prop :=
  zone.shared_index_store_epoch = document.store_epoch ∧
    zone.shared_index_generation = document.generation ∧
    zone.shared_index_change_seq = document.last_change_seq

/-! ## The sync of a zone -/

/-- The check that both reads of the sync state make: there is nothing newer. -/
def nothing_newer (zone : SharedZone) (state : SharedIndexSyncState) : Bool :=
  state.store_epoch = zone.shared_index_store_epoch &&
    state.generation ≤ zone.shared_index_generation

/-- What a zone is about to do under its sync lock. -/
inductive SyncPhase
  | Idle
  | Delta
  | Reload
  deriving DecidableEq, Repr

/-- The choice after the sync state was read again under the lock. -/
def sync_choice (zone : SharedZone) (state : SharedIndexSyncState) : SyncPhase :=
  if nothing_newer zone state then .Idle
  else if state.store_epoch ≠ zone.shared_index_store_epoch then .Reload
  else .Delta

/-- The zone after the replay of a delta, unless the delta asks for a full reload. -/
def replay_delta (zone : SharedZone) (delta : LoadedSharedIndexChanges) : Option SharedZone :=
  if delta.store_epoch = zone.shared_index_store_epoch ∧
      zone.shared_index_generation < delta.generation ∧
      zone.shared_index_change_seq ≤ delta.last_change_seq ∧ delta.operations ≠ [] then
    let index := apply_shared_index_delta zone.index delta.operations
    some ({ zone with index }.store_cursor delta.generation delta.store_epoch
      delta.last_change_seq)
  else none

def reload_zone_shared_index (zone : SharedZone) (loaded : LoadedSharedIndex) : SharedZone :=
  { zone with index := loaded.index }.store_cursor loaded.generation loaded.store_epoch
    loaded.last_change_seq

/-! ## The publication of a call -/

/-- The cursor follows the operations of the zone itself, whatever it was before. -/
def apply_zone_shared_index_operations_locked (zone : SharedZone)
    (applied : AppliedSharedIndexOperations) : SharedZone :=
  zone.store_cursor applied.generation applied.store_epoch applied.last_change_seq

/-! ## The system -/

structure SharedSystem (ι γ : Type) where
  memory : SharedMemory γ
  zones : ι → SharedZone
  phases : ι → SyncPhase

inductive SyncAction (ι : Type)
  | publish (zone : ι) (call : LocalCall)
  | begin (zone : ι)
  | replay (zone : ι)
  | reload (zone : ι)
  | attach (zone : ι)

section System

variable {ι γ β : Type} [DecidableEq ι] (store : MemorySharedIndexStore γ β)

def SharedSystem.put (system : SharedSystem ι γ) (memory : SharedMemory γ) (i : ι)
    (zone : SharedZone) (phase : SyncPhase) : SharedSystem ι γ :=
  { memory
    zones := Function.update system.zones i zone
    phases := Function.update system.phases i phase }

/-- One action of one zone, with every function of the store succeeding. A call that changes
the index holds the sync lock of its zone until its operations are published; a sync reads the
document up to three times under that lock, and other zones may act between two reads. -/
inductive Step : SharedSystem ι γ → SyncAction ι → SharedSystem ι γ → Prop
  | silent {system : SharedSystem ι γ} {i : ι} {call : LocalCall} :
      system.phases i = .Idle →
      (call.run (system.zones i).index).2 = [] →
      Step system (.publish i call)
        (system.put system.memory i
          { system.zones i with index := (call.run (system.zones i).index).1 } .Idle)
  | publish {system : SharedSystem ι γ} {i : ι} {call : LocalCall} (clock : Nat)
      (applied : AppliedSharedIndexOperations) :
      system.phases i = .Idle →
      (call.run (system.zones i).index).2 ≠ [] →
      (apply_operations store clock system.memory (call.run (system.zones i).index).2).2 =
        .ok applied →
      Step system (.publish i call)
        (system.put
          (apply_operations store clock system.memory (call.run (system.zones i).index).2).1 i
          (apply_zone_shared_index_operations_locked
            { system.zones i with index := (call.run (system.zones i).index).1 } applied) .Idle)
  | begin {system : SharedSystem ι γ} {i : ι} {clock : Nat} {state : SharedIndexSyncState} :
      system.phases i = .Idle →
      (sync_state store clock system.memory).2 = .ok state →
      Step system (.begin i)
        (system.put (sync_state store clock system.memory).1 i (system.zones i)
          (sync_choice (system.zones i) state))
  | replay {system : SharedSystem ι γ} {i : ι} {clock : Nat} {delta : LoadedSharedIndexChanges}
      {zone : SharedZone} :
      system.phases i = .Delta →
      (load_changes_since store clock system.memory
        (system.zones i).shared_index_change_seq).2 = .ok delta →
      replay_delta (system.zones i) delta = some zone →
      Step system (.replay i)
        (system.put (load_changes_since store clock system.memory
          (system.zones i).shared_index_change_seq).1 i zone .Idle)
  | fallback {system : SharedSystem ι γ} {i : ι} {clock : Nat}
      {delta : LoadedSharedIndexChanges} :
      system.phases i = .Delta →
      (load_changes_since store clock system.memory
        (system.zones i).shared_index_change_seq).2 = .ok delta →
      replay_delta (system.zones i) delta = none →
      Step system (.replay i)
        (system.put (load_changes_since store clock system.memory
          (system.zones i).shared_index_change_seq).1 i (system.zones i) .Reload)
  | reload {system : SharedSystem ι γ} {i : ι} {clock : Nat} {loaded : LoadedSharedIndex} :
      system.phases i = .Reload →
      (load store clock system.memory).2 = .ok loaded →
      Step system (.reload i)
        (system.put (load store clock system.memory).1 i
          (reload_zone_shared_index (system.zones i) loaded) .Idle)
  | attach {system : SharedSystem ι γ} {i : ι} {clock : Nat} {loaded : LoadedSharedIndex} :
      system.phases i = .Idle →
      (load store clock system.memory).2 = .ok loaded →
      Step system (.attach i)
        (system.put (load store clock system.memory).1 i
          (reload_zone_shared_index (system.zones i) loaded) .Idle)

/-- The states that a run reaches by actions that are allowed in the state before them. -/
inductive Runs (allowed : SharedSystem ι γ → SyncAction ι → Prop) (start : SharedSystem ι γ) :
    SharedSystem ι γ → Prop
  | start : Runs allowed start start
  | step {system system' : SharedSystem ι γ} {action : SyncAction ι} :
      Runs allowed start system → allowed system action → Step store system action system' →
      Runs allowed start system'

/-- The start of a run: one process has recreated the document from an index, and the zones have
that index, as they built it or as they loaded it. -/
structure Started (origin : CacheIndex) (system : SharedSystem ι γ) : Prop where
  document : ∃ store_epoch generation rebuild_total document,
    recreated_document store.json store_epoch generation rebuild_total origin = .ok document ∧
      Holds store system.memory document ∧ ∀ i, AtDocument (system.zones i) document
  ok : ∀ i, (system.zones i).index.Ok
  view : ∀ i, (system.zones i).index.view = origin.view
  idle : ∀ i, system.phases i = .Idle

/-- A zone whose cursor is the one of the document has the entries, the admission counts and
the rules that the document loads to. -/
def Agreement (system : SharedSystem ι γ) : Prop :=
  ∀ document, Holds store system.memory document →
    ∀ i, AtDocument (system.zones i) document →
      ∃ loaded, loaded_index_from_document store.json document = .ok loaded ∧
        (system.zones i).index.view = loaded.index.view

/-- A zone that publishes is at the document: it has nothing to catch up with. -/
def CaughtUp (system : SharedSystem ι γ) : SyncAction ι → Prop
  | .publish i call =>
    (call.run (system.zones i).index).2 = [] ∨
      ∃ document, Holds store system.memory document ∧ AtDocument (system.zones i) document
  | _ => True

/-! ## What a step keeps -/

/-- The memory holds a document of the history, and every zone is at a place of the history: it
has what the operations before that place give. -/
structure OnHistory (origin : SharedView) (system : SharedSystem ι γ)
    (history : List SharedIndexOperation) (document : SharedMemoryIndexDocument β) : Prop where
  holds : Holds store system.memory document
  tracks : Tracks store.json store.operation_ring_capacity origin history document
  ok : ∀ i, (system.zones i).index.Ok
  epoch : ∀ i, (system.zones i).shared_index_store_epoch = document.store_epoch
  place : ∀ i, (system.zones i).shared_index_change_seq ≤ history.length
  view : ∀ i, (system.zones i).index.view =
    origin.applyAll (history.take (system.zones i).shared_index_change_seq)

variable {store}

omit [DecidableEq ι] in
theorem Holds.unique {memory : SharedMemory γ} {document document' : SharedMemoryIndexDocument β}
    (h : Holds store memory document) (h' : Holds store memory document') :
    document = document' := by
  obtain ⟨segment, rfl, hread, -⟩ := h
  obtain ⟨segment', hseg, hread', -⟩ := h'
  obtain rfl := SharedMemory.mapped.inj hseg
  exact Except.ok.inj (hread.symm.trans hread')

omit [DecidableEq ι] in
/-- A reload gives what the whole history gives. -/
theorem Tracks.reloaded {memory : SharedMemory γ} {document : SharedMemoryIndexDocument β}
    {origin : SharedView} {history : List SharedIndexOperation}
    (htracks : Tracks store.json store.operation_ring_capacity origin history document)
    (h : Holds store memory document) {clock : Nat} {loaded : LoadedSharedIndex}
    (hload : (load store clock memory).2 = .ok loaded) :
    (load store clock memory).1 = memory ∧ loaded.index.view = origin.applyAll history ∧
      loaded.index.Ok ∧ loaded.store_epoch = document.store_epoch ∧
      loaded.last_change_seq = history.length := by
  rw [h.load clock] at hload ⊢
  obtain ⟨spec, hspec, hview, hok, -, -, hepoch, hseq⟩ := loaded_index_spec htracks.decodes
  obtain rfl := Except.ok.inj (hspec.symm.trans hload)
  exact ⟨rfl, hview, hok, hepoch, hseq.trans htracks.seq⟩

omit [DecidableEq ι] in
/-- A replay makes the operations after the place of the zone. -/
theorem Tracks.replayed {memory : SharedMemory γ} {document : SharedMemoryIndexDocument β}
    {origin : SharedView} {history : List SharedIndexOperation}
    (htracks : Tracks store.json store.operation_ring_capacity origin history document)
    (h : Holds store memory document) {clock : Nat} {zone zone' : SharedZone} {delta : LoadedSharedIndexChanges}
    (hload : (load_changes_since store clock memory zone.shared_index_change_seq).2 = .ok delta)
    (hreplay : replay_delta zone delta = some zone') :
    (load_changes_since store clock memory zone.shared_index_change_seq).1 = memory ∧
      zone'.index =
        apply_shared_index_delta zone.index (history.drop zone.shared_index_change_seq) ∧
      zone'.shared_index_store_epoch = document.store_epoch ∧
      zone'.shared_index_change_seq = history.length := by
  rw [h.load_changes_since clock, htracks.operations_since] at hload ⊢
  obtain rfl := Except.ok.inj hload
  rw [replay_delta, Option.ite_none_right_eq_some] at hreplay
  obtain ⟨⟨-, -, -, hne⟩, hzone⟩ := hreplay
  obtain rfl := Option.some.inj hzone
  dsimp only at hne ⊢
  have hring : ¬ zone.shared_index_change_seq <
      history.length - store.operation_ring_capacity := by
    intro hlt
    exact hne (if_pos hlt)
  refine ⟨rfl, ?_, rfl, htracks.seq⟩
  change apply_shared_index_delta zone.index _ = _
  rw [if_neg hring]

/-- A zone that changed to a place of the history, in a memory that holds the same document. -/
theorem OnHistory.put {origin : SharedView} {system : SharedSystem ι γ}
    {history : List SharedIndexOperation} {document : SharedMemoryIndexDocument β}
    (h : OnHistory store origin system history document) (i : ι) {zone : SharedZone}
    (phase : SyncPhase) (hok : zone.index.Ok)
    (hepoch : zone.shared_index_store_epoch = document.store_epoch)
    (hplace : zone.shared_index_change_seq ≤ history.length)
    (hview : zone.index.view =
      origin.applyAll (history.take zone.shared_index_change_seq)) :
    OnHistory store origin (system.put system.memory i zone phase) history document := by
  refine ⟨h.holds, h.tracks, ?_, ?_, ?_, ?_⟩ <;> intro j <;> by_cases hj : j = i
  · subst hj; simpa [SharedSystem.put] using hok
  · simpa [SharedSystem.put, hj] using h.ok j
  · subst hj; simpa [SharedSystem.put] using hepoch
  · simpa [SharedSystem.put, hj] using h.epoch j
  · subst hj; simpa [SharedSystem.put] using hplace
  · simpa [SharedSystem.put, hj] using h.place j
  · subst hj; simpa [SharedSystem.put] using hview
  · simpa [SharedSystem.put, hj] using h.view j

theorem OnHistory.reload {origin : SharedView} {system : SharedSystem ι γ}
    {history : List SharedIndexOperation} {document : SharedMemoryIndexDocument β}
    (h : OnHistory store origin system history document) (i : ι) {clock : Nat}
    {loaded : LoadedSharedIndex} (hload : (load store clock system.memory).2 = .ok loaded) :
    OnHistory store origin
      (system.put (load store clock system.memory).1 i
        (reload_zone_shared_index (system.zones i) loaded) .Idle) history document := by
  obtain ⟨hmemory, hview, hok, hepoch, hlast⟩ := h.tracks.reloaded h.holds hload
  rw [hmemory]
  refine h.put i .Idle hok hepoch (le_of_eq hlast) ?_
  change loaded.index.view = origin.applyAll (history.take loaded.last_change_seq)
  rw [hlast, List.take_length, hview]

/-- A zone that replays is then at the end of the history. -/
theorem OnHistory.replay {origin : SharedView} {system : SharedSystem ι γ}
    {history : List SharedIndexOperation} {document : SharedMemoryIndexDocument β}
    (h : OnHistory store origin system history document) (i : ι) {clock : Nat}
    {delta : LoadedSharedIndexChanges} {zone : SharedZone}
    (hload : (load_changes_since store clock system.memory
      (system.zones i).shared_index_change_seq).2 = .ok delta)
    (hreplay : replay_delta (system.zones i) delta = some zone) :
    OnHistory store origin
      (system.put (load_changes_since store clock system.memory
        (system.zones i).shared_index_change_seq).1 i zone .Idle) history document := by
  obtain ⟨hmemory, hindex, hepoch, hlast⟩ := h.tracks.replayed h.holds hload hreplay
  rw [hmemory]
  refine h.put i .Idle ?_ hepoch (le_of_eq hlast) ?_
  · rw [hindex]
    exact apply_shared_index_delta_ok (h.ok i) _
  · rw [hindex, view_apply_shared_index_delta, h.view i, ← applyAll_append,
      List.take_append_drop, hlast, List.take_length]

/-- A zone that publishes while it is at the document takes the history with it. -/
theorem OnHistory.publish {origin : SharedView} {system : SharedSystem ι γ}
    {history : List SharedIndexOperation} {document : SharedMemoryIndexDocument β}
    (h : OnHistory store origin system history document) (i : ι) (call : LocalCall) {clock : Nat}
    {applied : AppliedSharedIndexOperations}
    (hat : (system.zones i).shared_index_change_seq = document.last_change_seq)
    (happly : (apply_operations store clock system.memory
      (call.run (system.zones i).index).2).2 = .ok applied) :
    ∃ document', OnHistory store origin
      (system.put
        (apply_operations store clock system.memory (call.run (system.zones i).index).2).1 i
        (apply_zone_shared_index_operations_locked
          { system.zones i with index := (call.run (system.zones i).index).1 } applied) .Idle)
      (history ++ (call.run (system.zones i).index).2) document' := by
  obtain ⟨document', hops, hholds, rfl⟩ :=
    h.holds.apply_operations h.tracks.decodes clock happly
  have htracks := h.tracks.apply_operations hops
  obtain ⟨-, hepoch, -⟩ := apply_operations_to_document_counters h.tracks.decodes hops
  have hrun := call.run_view (h.ok i)
  have hend : (call.run (system.zones i).index).1.view =
      origin.applyAll (history ++ (call.run (system.zones i).index).2) := by
    rw [hrun, h.view i, hat, h.tracks.seq, List.take_length, applyAll_append]
  refine ⟨document', hholds, htracks, ?_, ?_, ?_, ?_⟩ <;> intro j <;> by_cases hj : j = i
  · subst hj
    simpa [SharedSystem.put, apply_zone_shared_index_operations_locked, SharedZone.store_cursor]
      using call.run_ok (h.ok j)
  · simpa [SharedSystem.put, hj] using h.ok j
  · subst hj
    simp [SharedSystem.put, apply_zone_shared_index_operations_locked, SharedZone.store_cursor]
  · simpa [SharedSystem.put, hj, hepoch] using h.epoch j
  · subst hj
    simp [SharedSystem.put, apply_zone_shared_index_operations_locked, SharedZone.store_cursor,
      htracks.seq]
  · have := h.place j
    simp only [SharedSystem.put, Function.update_of_ne hj, List.length_append]
    omega
  · subst hj
    simp only [SharedSystem.put, Function.update_self, apply_zone_shared_index_operations_locked,
      SharedZone.store_cursor, htracks.seq, List.take_length]
    exact hend
  · -- The places of the other zones are in the old part of the history.
    simp only [SharedSystem.put, Function.update_of_ne hj]
    rw [List.take_append_of_le_length (h.place j)]
    exact h.view j

theorem step_onHistory {origin : SharedView} {system system' : SharedSystem ι γ}
    {action : SyncAction ι} {history : List SharedIndexOperation}
    {document : SharedMemoryIndexDocument β}
    (h : OnHistory store origin system history document)
    (hallowed : CaughtUp store system action) (hstep : Step store system action system') :
    ∃ history' document', OnHistory store origin system' history' document' := by
  cases hstep with
  | @silent i call _ hnil =>
    have hview := call.run_view (h.ok i)
    rw [hnil, applyAll_nil] at hview
    exact ⟨history, document, h.put i .Idle (call.run_ok (h.ok i)) (h.epoch i) (h.place i)
      (hview.trans (h.view i))⟩
  | @publish i call clock applied _ hne happly =>
    rcases hallowed with hnil | ⟨document', hholds, hat⟩
    · exact absurd hnil hne
    · obtain rfl := h.holds.unique hholds
      obtain ⟨document', h'⟩ := h.publish i call hat.2.2 happly
      exact ⟨_, document', h'⟩
  | @begin i clock state _ hstate =>
    rw [h.holds.sync_state clock]
    exact ⟨history, document, h.put i _ (h.ok i) (h.epoch i) (h.place i) (h.view i)⟩
  | @replay i clock delta zone _ hload hreplay =>
    exact ⟨history, document, h.replay i hload hreplay⟩
  | @fallback i clock delta _ hload _ =>
    rw [h.holds.load_changes_since clock]
    exact ⟨history, document, h.put i _ (h.ok i) (h.epoch i) (h.place i) (h.view i)⟩
  | @reload i clock loaded _ hload => exact ⟨history, document, h.reload i hload⟩
  | @attach i clock loaded _ hload => exact ⟨history, document, h.reload i hload⟩

omit [DecidableEq ι] in
theorem OnHistory.agreement {origin : SharedView} {system : SharedSystem ι γ}
    {history : List SharedIndexOperation} {document : SharedMemoryIndexDocument β}
    (h : OnHistory store origin system history document) : Agreement store system := by
  intro document' hholds i hat
  obtain rfl := h.holds.unique hholds
  obtain ⟨loaded, hload, hview, -⟩ := loaded_index_spec h.tracks.decodes
  refine ⟨loaded, hload, ?_⟩
  rw [hview, h.view i, hat.2.2, h.tracks.seq, List.take_length]

omit [DecidableEq ι] in
theorem Started.onHistory {origin : CacheIndex} {system : SharedSystem ι γ}
    (h : Started store origin system) :
    ∃ document, OnHistory store origin.view system [] document := by
  obtain ⟨store_epoch, generation, rebuild_total, document, hdoc, hholds, hat⟩ := h.document
  obtain ⟨htracks, -⟩ := recreated_document_tracks store.operation_ring_capacity hdoc
  refine ⟨document, hholds, htracks, h.ok, fun i => (hat i).1, ?_, ?_⟩
  · intro i
    rw [(hat i).2.2, htracks.seq]
  · intro i
    rw [List.take_nil, applyAll_nil]
    exact h.view i

/-! ## The laws -/

/-- Replicas that publish at the document agree. In every run in which a zone publishes only
while its cursor is the one of the document, every zone whose cursor is the one of the document
has what the document loads to. -/
theorem zones_agree_when_they_publish_at_the_document (origin : CacheIndex)
    (start system : SharedSystem ι γ) (hstart : Started store origin start)
    (hrun : Runs store (CaughtUp store) start system) : Agreement store system := by
  have hhistory : ∃ history document,
      OnHistory store origin.view system history document := by
    induction hrun with
    | start =>
      obtain ⟨document, h⟩ := hstart.onHistory
      exact ⟨[], document, h⟩
    | step _ hallowed hstep ih =>
      obtain ⟨history, document, h⟩ := ih
      exact step_onHistory h hallowed hstep
  obtain ⟨history, document, h⟩ := hhistory
  exact h.agreement

end System

/-! ## Two zones that publish one after the other -/

/-- A store whose texts are the documents themselves. -/
def plainStore : MemorySharedIndexStore (SharedMemoryIndexDocument PlainText) PlainText where
  json := plainJson
  document :=
    { to_vec := .ok
      from_slice := .ok
      round_trip := by
        intro a b h
        obtain rfl := Except.ok.inj h
        rfl }
  len := fun _ => 1
  document_capacity := 1024
  operation_ring_capacity := 4

abbrev PlainSystem := SharedSystem Bool (SharedMemoryIndexDocument PlainText)

/-- Two zones on the document of an empty index. -/
def bothAttached : PlainSystem where
  memory := .mapped ⟨⟨1, 7, 0, 0, 0⟩, .text emptyDocument⟩
  zones := fun _ => ⟨CacheIndex.default, 1, 7, 0⟩
  phases := fun _ => .Idle

/-- The first use of a key of which two are asked for. -/
def firstUse (key : String) : LocalCall := .admission key 2

def oneCounted : PlainSystem :=
  bothAttached.put
    (apply_operations plainStore 0 bothAttached.memory [.SetAdmissionCount "a" 1]).1 false
    ⟨(firstUse "a" |>.run CacheIndex.default).1, 2, 7, 1⟩ .Idle

def bothCounted : PlainSystem :=
  oneCounted.put
    (apply_operations plainStore 0 oneCounted.memory [.SetAdmissionCount "b" 1]).1 true
    ⟨(firstUse "b" |>.run CacheIndex.default).1, 3, 7, 2⟩ .Idle

theorem bothAttached_started : Started plainStore CacheIndex.default bothAttached where
  document := ⟨7, 1, 1, emptyDocument, rfl, ⟨_, rfl, rfl, rfl⟩, fun _ => ⟨rfl, rfl, rfl⟩⟩
  ok := fun _ => default_ok
  view := fun _ => rfl
  idle := fun _ => rfl

theorem oneCounted_step :
    Step plainStore bothAttached (.publish false (firstUse "a")) oneCounted :=
  Step.publish 0 ⟨2, 7, 1⟩ rfl (by decide) rfl

theorem bothCounted_step :
    Step plainStore oneCounted (.publish true (firstUse "b")) bothCounted :=
  Step.publish 0 ⟨3, 7, 2⟩ rfl (by decide) rfl

/-- The first zone publishes at the document, and agrees with it. -/
theorem the_first_count_agrees : Agreement plainStore oneCounted :=
  have hat : CaughtUp plainStore bothAttached (.publish false (firstUse "a")) :=
    Or.inr ⟨emptyDocument, ⟨_, rfl, rfl, rfl⟩, rfl, rfl, rfl⟩
  zones_agree_when_they_publish_at_the_document CacheIndex.default bothAttached oneCounted
    bothAttached_started (.step .start hat oneCounted_step)

/-- The second zone publishes behind the document. Its cursor moves past the count of the first
zone, which it does not have. -/
theorem a_publication_can_skip_a_foreign_change :
    ¬ ∀ (origin : CacheIndex) (start system : PlainSystem),
      Started plainStore origin start → Runs plainStore (fun _ _ => True) start system →
        Agreement plainStore system := by
  intro h
  have hrun : Runs plainStore (fun _ _ => True) bothAttached bothCounted :=
    .step (.step .start trivial oneCounted_step) trivial bothCounted_step
  have hagree := h CacheIndex.default bothAttached bothCounted bothAttached_started hrun
  obtain ⟨loaded, hload, hview⟩ := hagree
    { emptyDocument with
      generation := 3
      last_change_seq := 2
      admission_counts := ((∅ : Map Nat).insert "a" 1).insert "b" 1
      changes :=
        [⟨1, 2, CHANGE_OP_SET_ADMISSION_COUNT, "a", none, some 1, none⟩,
          ⟨2, 3, CHANGE_OP_SET_ADMISSION_COUNT, "b", none, some 1, none⟩] }
    ⟨_, rfl, rfl, rfl⟩ true ⟨rfl, rfl, rfl⟩
  obtain rfl := Except.ok.inj hload
  have hcount := congrArg (fun view => view.admission_counts["a"]?) hview
  revert hcount
  decide

end rginx.cache
