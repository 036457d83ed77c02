-- Publications that fail, from `apply_zone_shared_index_operations_locked` in
-- `shared.rs`. A call has changed the index of its zone when the store answers
-- with an error; the error is logged, and the zone keeps both the change and
-- its cursor. So the next sync decides as if there had been no call.
import Rginx.SharedRebuild

open rust_result

namespace rginx.cache

/-! ## A call and the sync after it -/

section Failures

variable {γ β : Type} (store : MemorySharedIndexStore γ β)

/-- `apply_operations`, which also fails when the lock or the segment cannot be opened. -/
def try_apply_operations (clock : Nat) (unopened : Option IoError) (memory : SharedMemory γ)
    (operations : List SharedIndexOperation) :
    SharedMemory γ × IoResult AppliedSharedIndexOperations :=
  match unopened with
  | some error => (memory, .error error)
  | none => apply_operations store clock memory operations

/-- A call of a zone: the index changes first, and then the operations are published. -/
def SharedZone.call (clock : Nat) (unopened : Option IoError) (memory : SharedMemory γ)
    (zone : SharedZone) (call : LocalCall) : SharedMemory γ × SharedZone :=
  let (index, operations) := call.run zone.index
  let zone := { zone with index }
  if operations = [] then (memory, zone)
  else
    match try_apply_operations store clock unopened memory operations with
    | (memory, .ok applied) => (memory, apply_zone_shared_index_operations_locked zone applied)
    | (memory, .error _) => (memory, zone)

/-- A sync whose four reads find the same memory. -/
def SharedZone.sync (clock : Nat) (memory : SharedMemory γ) (zone : SharedZone) : SharedZone :=
  (sync_zone_shared_index_if_needed zone (sync_state store clock memory).2
    (sync_state store clock memory).2
    (load_changes_since store clock memory zone.shared_index_change_seq).2
    (load store clock memory).2).1

/-- The zone has the entries, the admission counts and the rules that the document loads to. -/
def Agrees (zone : SharedZone) (document : SharedMemoryIndexDocument β) : Prop :=
  ∃ loaded, loaded_index_from_document store.json document = .ok loaded ∧
    zone.index.view = loaded.index.view

/-- The cursor makes a sync load the whole document: it is of another epoch, or it is behind and
the ring does not have the changes after it. -/
def Reloads (zone : SharedZone) (document : SharedMemoryIndexDocument β) : Prop :=
  zone.shared_index_store_epoch ≠ document.store_epoch ∨
    (zone.shared_index_generation < document.generation ∧
      (document.last_change_seq ≤ zone.shared_index_change_seq ∨
        zone.shared_index_change_seq + store.operation_ring_capacity < document.last_change_seq))

/-- The changes that a sync replays when it does not reload: those after the cursor, and none
when the generation of the document is not a later one. -/
def replayed_since (zone : SharedZone) (document : SharedMemoryIndexDocument β) :
    List SharedIndexOperation :=
  if zone.shared_index_generation < document.generation then
    match operations_since store.json document zone.shared_index_change_seq with
    | .ok operations => operations
    | .error _ => []
  else []

/-- The operations, made before the changes that the sync replays, leave no trace behind them. -/
def NoDifference (zone : SharedZone) (document : SharedMemoryIndexDocument β)
    (operations : List SharedIndexOperation) : Prop :=
  (zone.index.view.applyAll operations).applyAll (replayed_since store zone document) =
    zone.index.view.applyAll (replayed_since store zone document)

/-! ## What a sync makes of a zone -/

variable {store}

theorem OnLineage.loads {origin : SharedView} {memory : SharedMemory γ}
    {document : SharedMemoryIndexDocument β} (h : OnLineage store origin memory document) :
    ∃ loaded, loaded_index_from_document store.json document = .ok loaded := by
  obtain ⟨history, htracks⟩ := h.tracks
  obtain ⟨loaded, hload, -⟩ := loaded_index_spec htracks.decodes
  exact ⟨loaded, hload⟩

/-- A zone with a cursor that makes it reload agrees, whatever its index was. -/
theorem agrees_of_reloads {origin : SharedView} {memory : SharedMemory γ}
    {document : SharedMemoryIndexDocument β} (h : OnLineage store origin memory document)
    (clock : Nat) {zone : SharedZone} (hreloads : Reloads store zone document) :
    Agrees store (zone.sync store clock memory) document := by
  obtain ⟨history, htracks⟩ := h.tracks
  obtain ⟨loaded, hload⟩ := h.loads
  refine ⟨loaded, hload, ?_⟩
  unfold SharedZone.sync
  rw [h.holds.sync_state, h.holds.load_changes_since, h.holds.load, htracks.operations_since,
    hload]
  by_cases hepoch : zone.shared_index_store_epoch = document.store_epoch
  · rcases hreloads with hother | ⟨hgen, hring⟩
    · exact absurd hepoch hother
    · have hnone := (replay_delta_eq_none htracks hepoch.symm hgen
        (htracks.operations_since zone.shared_index_change_seq)).mpr hring
      simp only [ok_bind, pure_eq_ok]
      rw [sync_of_same_epoch _ _ hepoch.symm hgen hgen, hnone]
      rfl
  · rw [sync_of_other_epoch _ _ (Ne.symm hepoch) (Ne.symm hepoch)]
    rfl

/-- A zone that does not reload has its own index, after the changes that it replays. -/
theorem sync_view_of_not_reloads {origin : SharedView} {memory : SharedMemory γ}
    {document : SharedMemoryIndexDocument β} (h : OnLineage store origin memory document)
    (clock : Nat) {zone : SharedZone} (hkeeps : ¬ Reloads store zone document) :
    (zone.sync store clock memory).index.view =
      zone.index.view.applyAll (replayed_since store zone document) := by
  obtain ⟨history, htracks⟩ := h.tracks
  obtain ⟨loaded, hload⟩ := h.loads
  have hepoch : zone.shared_index_store_epoch = document.store_epoch := by
    by_contra hother
    exact hkeeps (.inl hother)
  have hoperations := htracks.operations_since zone.shared_index_change_seq
  unfold SharedZone.sync replayed_since
  rw [h.holds.sync_state, h.holds.load_changes_since, h.holds.load, hload]
  by_cases hgen : zone.shared_index_generation < document.generation
  · have hsome : replay_delta zone ⟨document.generation, document.store_epoch,
        document.last_change_seq, _⟩ ≠ none := fun hnone =>
      hkeeps (.inr ⟨hgen, (replay_delta_eq_none htracks hepoch.symm hgen hoperations).mp hnone⟩)
    rw [hoperations]
    simp only [ok_bind, pure_eq_ok, hgen, if_true]
    rw [sync_of_same_epoch _ _ hepoch.symm hgen hgen]
    rcases hdelta : replay_delta zone _ with _ | replayed
    · exact absurd hdelta hsome
    · rw [replay_delta, Option.ite_none_right_eq_some] at hdelta
      obtain rfl := Option.some.inj hdelta.2
      exact view_apply_shared_index_delta _ _
  · have hnewer : nothing_newer zone ⟨document.generation, document.store_epoch⟩ = true :=
      nothing_newer_iff.mpr ⟨hepoch.symm, Nat.le_of_not_lt hgen⟩
    rw [sync_of_nothing_newer _ _ _ hnewer]
    simp [hgen]

/-! ## The failure -/

/-- What is left of a call whose publication fails is its change of the index. -/
theorem SharedZone.call_of_error {clock : Nat} {unopened : Option IoError}
    {memory : SharedMemory γ} {zone : SharedZone} {call : LocalCall} {error : IoError}
    (hfails : (try_apply_operations store clock unopened memory (call.run zone.index).2).2 =
      .error error) :
    (zone.call store clock unopened memory call).2 =
      { zone with index := (call.run zone.index).1 } := by
  unfold SharedZone.call
  dsimp only
  split
  · rfl
  · rcases happly : try_apply_operations store clock unopened memory (call.run zone.index).2 with
      ⟨memory', error' | applied⟩
    · rfl
    · rw [happly] at hfails
      cases hfails

/-- A failed publication is repaired by a reload only. A call of a zone has an error for its
publication, on any memory. Let the zone be one that would agree with the document after its
next sync without the call. With the call it agrees then, if and only if the sync reloads the
document or the operations of the call make no difference. -/
theorem a_failed_publication_is_repaired_iff (store : MemorySharedIndexStore γ β) (clock : Nat)
    (unopened : Option IoError) (memory : SharedMemory γ) (zone : SharedZone) (call : LocalCall)
    (error : IoError) (hok : zone.index.Ok)
    (hfails : (try_apply_operations store clock unopened memory (call.run zone.index).2).2 =
      .error error)
    (later : SharedMemory γ) (origin : SharedView) (document : SharedMemoryIndexDocument β)
    (hlater : OnLineage store origin later document)
    (hagrees : Agrees store (zone.sync store clock later) document) :
    Agrees store ((zone.call store clock unopened memory call).2.sync store clock later)
        document ↔
      Reloads store zone document ∨ NoDifference store zone document (call.run zone.index).2 := by
  rw [SharedZone.call_of_error hfails]
  by_cases hreloads : Reloads store zone document
  · -- the cursor of the zone is the one before the call
    have hsame : Reloads store { zone with index := (call.run zone.index).1 } document := hreloads
    exact iff_of_true (agrees_of_reloads hlater clock hsame) (.inl hreloads)
  · have hsame : ¬ Reloads store { zone with index := (call.run zone.index).1 } document := hreloads
    obtain ⟨loaded, hload, hview⟩ := hagrees
    rw [sync_view_of_not_reloads hlater clock hreloads] at hview
    have hafter : (({ zone with index := (call.run zone.index).1 } : SharedZone).sync store clock
        later).index.view = (zone.index.view.applyAll (call.run zone.index).2).applyAll
          (replayed_since store zone document) := by
      rw [sync_view_of_not_reloads hlater clock hsame, call.run_view hok]
      rfl
    simp only [hreloads, false_or, NoDifference, hview]
    constructor
    · rintro ⟨loaded', hload', hview'⟩
      obtain rfl := Except.ok.inj (hload.symm.trans hload')
      exact hafter.symm.trans hview'
    · intro hsame
      exact ⟨loaded, hload, hafter.trans hsame⟩

end Failures

/-! ## A count that does not fit -/

/-- A store with room for a document without changes. -/
def fullStore : MemorySharedIndexStore (SharedMemoryIndexDocument PlainText) PlainText :=
  { plainStore with
    len := fun document => document.changes.length + 1
    document_capacity := 1 }

/-- The document of an empty index, in an epoch. -/
def emptyIn (store_epoch : Nat) : SharedMemoryIndexDocument PlainText :=
  { emptyDocument with store_epoch }

def emptyMemory (store_epoch : Nat) : SharedMemory (SharedMemoryIndexDocument PlainText) :=
  .mapped ⟨⟨1, store_epoch, 0, 0, 0⟩, .text (emptyIn store_epoch)⟩

theorem emptyMemory_onLineage (store_epoch : Nat) :
    OnLineage fullStore CacheIndex.default.view (emptyMemory store_epoch) (emptyIn store_epoch) := by
  have hdocument : recreated_document fullStore.json store_epoch 1 1 CacheIndex.default =
      .ok (emptyIn store_epoch) := rfl
  obtain ⟨htracks, -⟩ := recreated_document_tracks fullStore.operation_ring_capacity hdocument
  exact ⟨⟨_, rfl, rfl, rfl⟩, ⟨[], htracks⟩, Nat.le_add_left 1 _⟩

/-- A zone at the document of an empty index. -/
def attachedZone : SharedZone := ⟨CacheIndex.default, 1, 7, 0⟩

theorem firstUse_fails :
    (try_apply_operations fullStore 0 none (emptyMemory 7)
      ((firstUse "a").run attachedZone.index).2).2 =
        .error ⟨.OutOfMemory,
          "shared memory index document exceeds capacity: length 2, capacity 1"⟩ := by
  decide +kernel

/-- When the segment was created anew the next sync takes the count back. -/
theorem a_new_segment_repairs_the_zone :
    Agrees fullStore ((attachedZone.call fullStore 0 none (emptyMemory 7) (firstUse "a")).2.sync
      fullStore 0 (emptyMemory 8)) (emptyIn 8) :=
  have hreloads : Reloads fullStore attachedZone (emptyIn 8) := .inl (by decide)
  (a_failed_publication_is_repaired_iff fullStore 0 none (emptyMemory 7) attachedZone (firstUse "a")
    _ default_ok firstUse_fails (emptyMemory 8) CacheIndex.default.view (emptyIn 8)
    (emptyMemory_onLineage 8)
    (agrees_of_reloads (emptyMemory_onLineage 8) 0 hreloads)).mpr (.inl hreloads)

/-- The first use of a key is counted in the zone and not in the document, and the next sync
finds nothing newer. -/
theorem a_failed_count_stays_in_the_zone :
    ¬ ∀ (memory : SharedMemory (SharedMemoryIndexDocument PlainText))
      (document : SharedMemoryIndexDocument PlainText) (zone : SharedZone) (call : LocalCall)
      (error : IoError), OnLineage fullStore CacheIndex.default.view memory document →
        zone.index.Ok → AtDocument zone document → Agrees fullStore zone document →
        (try_apply_operations fullStore 0 none memory (call.run zone.index).2).2 = .error error →
        Agrees fullStore ((zone.call fullStore 0 none memory call).2.sync fullStore 0
          (zone.call fullStore 0 none memory call).1) document := by
  intro h
  obtain ⟨loaded, hload, hview⟩ := h (emptyMemory 7) (emptyIn 7) attachedZone (firstUse "a") _
    (emptyMemory_onLineage 7) default_ok ⟨rfl, rfl, rfl⟩ ⟨_, rfl, rfl⟩ firstUse_fails
  obtain rfl := Except.ok.inj hload
  have hcount := congrArg (fun view => view.admission_counts["a"]?) hview
  revert hcount
  decide +kernel

end rginx.cache
