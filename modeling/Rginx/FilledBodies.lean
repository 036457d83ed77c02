-- What a fill commits. Until the upstream is complete, what was written, the queue and the frame at
-- hand are together what the upstream gave; the file of the fill comes to the path of the entry, and
-- the entry into the index, with the whole body or not at all, in every order of the steps.
import Rginx.StreamingFills

open step_runs

namespace rginx.cache.streaming

/-! ## The queue and the upstream -/

/-- What the holder of the sending end has still to send. -/
inductive Hold
  | Sends (pending : List UInt8)
  | Aborts
  | Leaves

def Producer.hold : Producer → Hold
  | .Body _ | .Reading _ | .TryFinish _ | .Finish _ _ => .Sends []
  | .TrySendData _ bytes _ | .SendData _ bytes _ => .Sends bytes
  | .AbortFails | .AbortSends => .Aborts
  | .Passing | .MarkUpstreamComplete | .OriginFails _ | .Gone => .Leaves

/-- What comes after `sofar` through the queue and from its sender is the rest of what the upstream
gave, or some of the rest when the sender gives up. A `Finish` is the last message, and stands behind
all of it. -/
def Delivers (upstream : Upstream) (hold : Hold) :
    List UInt8 → List StreamingCacheWriteMessage → Prop
  | sofar, [] =>
    match hold with
    | .Sends pending => sofar ++ pending = upstream.received
    | _ => sofar <+: upstream.received
  | sofar, .Data bytes :: queue => Delivers upstream hold (sofar ++ bytes) queue
  | sofar, .Finish trailers :: queue =>
    queue = [] ∧ hold = .Leaves ∧ sofar = upstream.received ∧ upstream.completed = some trailers
  | sofar, .Abort :: queue => queue = [] ∧ hold = .Leaves ∧ sofar <+: upstream.received

section Queue

variable {upstream upstream' : Upstream} {hold hold' : Hold} {sofar : List UInt8}
  {queue more : List StreamingCacheWriteMessage}

theorem Delivers.is_received (h : Delivers upstream hold sofar queue) :
    sofar <+: upstream.received := by
  induction queue generalizing sofar with
  | nil =>
    cases hold with
    | Sends pending => exact ⟨pending, h⟩
    | Aborts => exact h
    | Leaves => exact h
  | cons message queue ih =>
    cases message with
    | Data bytes => exact (List.prefix_append sofar bytes).trans (ih h)
    | Finish trailers => exact h.2.2.1 ▸ List.prefix_refl sofar
    | Abort => exact h.2.2

/-- While there is more to send, the queue holds data only, and what follows it decides. -/
theorem Delivers.append (h : Delivers upstream hold sofar queue) (hhold : hold ≠ .Leaves)
    (hmore : ∀ sofar, Delivers upstream hold sofar [] → Delivers upstream' hold' sofar more) :
    Delivers upstream' hold' sofar (queue ++ more) := by
  induction queue generalizing sofar with
  | nil => exact hmore sofar h
  | cons message queue ih =>
    cases message with
    | Data bytes => exact ih h
    | Finish trailers => exact absurd h.2.1 hhold
    | Abort => exact absurd h.2.1 hhold

theorem Delivers.changes (h : Delivers upstream hold sofar queue) (hhold : hold ≠ .Leaves)
    (hends : ∀ sofar, Delivers upstream hold sofar [] → Delivers upstream' hold' sofar []) :
    Delivers upstream' hold' sofar queue := by
  have happended : Delivers upstream' hold' sofar (queue ++ []) := h.append hhold hends
  rwa [List.append_nil] at happended

theorem Delivers.data {bytes : List UInt8} (h : Delivers upstream (.Sends bytes) sofar []) :
    Delivers upstream (.Sends []) sofar [.Data bytes] := by
  simpa [Delivers] using h

theorem Delivers.finish {trailers : Option HeaderMap}
    (h : Delivers upstream (.Sends []) sofar []) (hcompleted : upstream.completed = some trailers) :
    Delivers upstream .Leaves sofar [.Finish trailers] := by
  refine ⟨rfl, rfl, ?_, hcompleted⟩
  simpa [Delivers] using h

theorem Delivers.abort (h : Delivers upstream .Aborts sofar []) :
    Delivers upstream .Leaves sofar [.Abort] :=
  ⟨rfl, rfl, h⟩

/-- Frames that pass a sender that has left. -/
theorem Delivers.passes (h : Delivers upstream .Leaves sofar queue)
    (hcompleted : upstream.completed = none)
    (hreceived : upstream.received <+: upstream'.received) :
    Delivers upstream' .Leaves sofar queue := by
  induction queue generalizing sofar with
  | nil => exact List.IsPrefix.trans h hreceived
  | cons message queue ih =>
    cases message with
    | Data bytes => exact ih h
    | Finish trailers =>
      have hlast := h.2.2.2
      rw [hcompleted] at hlast
      cases hlast
    | Abort => exact ⟨h.1, h.2.1, h.2.2.trans hreceived⟩

end Queue

/-! ## The invariant -/

/-- The frame at hand is the last one exactly when the upstream is complete. -/
def Producer.Knows (producer : Producer) (upstream : Upstream) : Prop :=
  match producer with
  | .Body _ | .Reading _ => upstream.completed = none
  | .TrySendData _ _ completed | .SendData _ _ completed => upstream.completed = completed
  | .TryFinish trailers | .Finish _ trailers => upstream.completed = some trailers
  | _ => True

/-- The body that the upstream completed has been written. -/
structure WholeBody (upstream : Upstream) (hold : Hold) (written : List UInt8)
    (body_size_bytes bytes_written : Nat) : Prop where
  body : written = upstream.received
  completed : upstream.completed.isSome
  size : body_size_bytes = written.length
  recorded : bytes_written = written.length
  leaves : hold = .Leaves

/-- It has come to the file, and its trailers are known. -/
structure SettledBody (upstream : Upstream) (hold : Hold) (written : List UInt8) (visible : Nat)
    (body_size_bytes bytes_written : Nat) (trailers : Option HeaderMap) : Prop
    extends WholeBody upstream hold written body_size_bytes bytes_written where
  synced : visible = written.length
  last : upstream.completed = some trailers

def StreamingFill.Whole (fill : StreamingFill) : Prop :=
  WholeBody fill.upstream fill.producer.hold fill.tmp.written fill.body_size_bytes
    fill.fill_state.bytes_written

def StreamingFill.Settled (fill : StreamingFill) : Prop :=
  SettledBody fill.upstream fill.producer.hold fill.tmp.written fill.tmp.visible
    fill.body_size_bytes fill.fill_state.bytes_written fill.fill_state.trailers

/-- Nobody has seen an end of the fill. -/
def StreamingFill.Fresh (fill : StreamingFill) : Prop :=
  fill.fill_state.finished = false ∧ fill.body_path ≠ some .Own ∧ fill.committed = none

/-- The writer has taken `taken` out of the queue, and not written it yet. -/
def StreamingFill.Filling (fill : StreamingFill) (taken : List UInt8) : Prop :=
  fill.Fresh ∧ fill.body_size_bytes = fill.tmp.written.length ∧
    Delivers fill.upstream fill.producer.hold (fill.tmp.written ++ taken) fill.queue

/-- The size of a body that may be kept. -/
def StreamingFill.Fits (fill : StreamingFill) : Prop :=
  fill.body_size_bytes ≤ fill.plan.max_entry_bytes ∧
    ∀ expected_body_bytes, fill.plan.expected_body_bytes = some expected_body_bytes →
      expected_body_bytes = fill.body_size_bytes

/-- What holds before each operation of the writer. -/
def StreamingFill.Stands (fill : StreamingFill) : Prop :=
  match fill.writer with
  | .Receive => fill.Filling [] ∧ fill.fill_state.bytes_written = fill.tmp.written.length
  | .WriteAll bytes => fill.Filling bytes
  | .RecordBytesWritten => fill.Filling []
  | .Flush trailers => fill.Fresh ∧ fill.Whole ∧ fill.upstream.completed = some trailers
  | .StoreTrailers trailers =>
    fill.Fresh ∧ fill.Whole ∧ fill.upstream.completed = some trailers ∧
      fill.tmp.visible = fill.tmp.written.length
  | .StoreFinished => fill.Fresh ∧ fill.Settled
  | .CheckSize => fill.Settled
  | .PrepareResponseHead | .CreateDir | .WriteMetadata | .RenameBody => fill.Settled ∧ fill.Fits
  | .RenameMetadata | .UpdateIndex =>
    fill.Settled ∧ fill.Fits ∧ ∀ content, fill.body_path ≠ some (.Other content)
  | _ => True

structure StreamingFill.Ok (fill : StreamingFill) : Prop where
  knows : fill.producer.Knows fill.upstream
  stands : fill.Stands
  is_received : fill.tmp.written <+: fill.upstream.received
  recorded : fill.fill_state.bytes_written ≤ fill.tmp.written.length
  visible : fill.tmp.visible ≤ fill.tmp.written.length
  finished : fill.fill_state.finished = true → fill.Settled
  own : fill.body_path = some .Own → fill.Settled ∧ fill.Fits
  committed : ∀ entry, fill.committed = some entry →
    fill.Settled ∧ fill.Fits ∧ entry = fill.plan.entry fill.body_size_bytes

/-- Where nothing is finished, renamed or committed, five of the conditions are left. -/
theorem StreamingFill.Fresh.ok {fill : StreamingFill} (hfresh : fill.Fresh)
    (hknows : fill.producer.Knows fill.upstream) (hstands : fill.Stands)
    (hreceived : fill.tmp.written <+: fill.upstream.received)
    (hrecorded : fill.fill_state.bytes_written ≤ fill.tmp.written.length)
    (hvisible : fill.tmp.visible ≤ fill.tmp.written.length) : fill.Ok := by
  obtain ⟨hfinished, hown, hcommitted⟩ := hfresh
  refine ⟨hknows, hstands, hreceived, hrecorded, hvisible, ?_, fun h => absurd h hown, ?_⟩
  · intro h
    rw [hfinished] at h
    cases h
  · intro entry h
    rw [hcommitted] at h
    cases h

theorem store_streaming_response_ok (plan : StreamingCachePlan) (trims : Bool)
    (body_path : Option (List UInt8)) : (store_streaming_response plan trims body_path).Ok := by
  have hpath : body_path.map OpenedFile.Other ≠ some .Own := by
    cases body_path <;> simp
  apply StreamingFill.Fresh.ok ⟨rfl, hpath, rfl⟩
  · cases trims <;> rfl
  · refine ⟨⟨⟨rfl, hpath, rfl⟩, rfl, ?_⟩, rfl⟩
    cases trims <;> rfl
  · exact List.prefix_refl _
  · exact Nat.le_refl _
  · exact Nat.le_refl _

/-! ## The producer -/

/-- What a step of the producer leaves as it is, and what it does to the queue. -/
structure StreamingFill.Produced (fill fill' : StreamingFill) : Prop where
  plan : fill'.plan = fill.plan
  writer : fill'.writer = fill.writer
  size : fill'.body_size_bytes = fill.body_size_bytes
  tmp : fill'.tmp = fill.tmp
  body_path : fill'.body_path = fill.body_path
  committed : fill'.committed = fill.committed
  bytes_written : fill'.fill_state.bytes_written = fill.fill_state.bytes_written
  is_finished : fill'.fill_state.finished = fill.fill_state.finished
  trailers : fill'.fill_state.trailers = fill.fill_state.trailers
  knows : fill.producer.Knows fill.upstream → fill'.producer.Knows fill'.upstream
  delivers : ∀ sofar, fill.producer.Knows fill.upstream →
    Delivers fill.upstream fill.producer.hold sofar fill.queue →
    Delivers fill'.upstream fill'.producer.hold sofar fill'.queue
  received : fill.upstream.received <+: fill'.upstream.received
  leaves : fill.producer.hold = .Leaves → fill'.producer.hold = .Leaves
  completed : fill.upstream.completed.isSome → fill'.upstream = fill.upstream

section Producer

variable {fill fill' : StreamingFill}

theorem StreamingFill.Produced.whole (h : fill.Produced fill') (hwhole : fill.Whole) :
    fill'.Whole := by
  have hupstream := h.completed hwhole.completed
  constructor
  · rw [h.tmp, hupstream, hwhole.body]
  · rw [hupstream]
    exact hwhole.completed
  · rw [h.size, h.tmp, hwhole.size]
  · rw [h.bytes_written, h.tmp, hwhole.recorded]
  · exact h.leaves hwhole.leaves

theorem StreamingFill.Produced.settled (h : fill.Produced fill') (hsettled : fill.Settled) :
    fill'.Settled := by
  refine ⟨h.whole hsettled.toWholeBody, ?_, ?_⟩
  · rw [h.tmp, hsettled.synced]
  · rw [h.completed hsettled.completed, h.trailers, hsettled.last]

theorem StreamingFill.Produced.fresh (h : fill.Produced fill') (hfresh : fill.Fresh) :
    fill'.Fresh := by
  unfold StreamingFill.Fresh
  rw [h.is_finished, h.body_path, h.committed]
  exact hfresh

theorem StreamingFill.Produced.fits (h : fill.Produced fill') (hfits : fill.Fits) :
    fill'.Fits := by
  unfold StreamingFill.Fits
  rw [h.size, h.plan]
  exact hfits

theorem StreamingFill.Produced.filling (h : fill.Produced fill')
    (hknows : fill.producer.Knows fill.upstream) {taken : List UInt8}
    (hfilling : fill.Filling taken) : fill'.Filling taken := by
  obtain ⟨hfresh, hsize, hdelivers⟩ := hfilling
  refine ⟨h.fresh hfresh, ?_, ?_⟩
  · rw [h.size, h.tmp, hsize]
  · rw [h.tmp]
    exact h.delivers _ hknows hdelivers

theorem StreamingFill.Produced.ok (h : fill.Produced fill') (hok : fill.Ok) : fill'.Ok := by
  constructor
  · exact h.knows hok.knows
  · have hstands := hok.stands
    unfold StreamingFill.Stands at hstands ⊢
    rw [h.writer]
    cases hwriter : fill.writer with
    | Receive =>
      rw [hwriter] at hstands
      refine ⟨h.filling hok.knows hstands.1, ?_⟩
      rw [h.bytes_written, h.tmp]
      exact hstands.2
    | WriteAll bytes =>
      rw [hwriter] at hstands
      exact h.filling hok.knows hstands
    | RecordBytesWritten =>
      rw [hwriter] at hstands
      exact h.filling hok.knows hstands
    | Flush trailers =>
      rw [hwriter] at hstands
      obtain ⟨hfresh, hwhole, hcompleted⟩ := hstands
      refine ⟨h.fresh hfresh, h.whole hwhole, ?_⟩
      rw [h.completed hwhole.completed, hcompleted]
    | StoreTrailers trailers =>
      rw [hwriter] at hstands
      obtain ⟨hfresh, hwhole, hcompleted, hvisible⟩ := hstands
      refine ⟨h.fresh hfresh, h.whole hwhole, ?_, ?_⟩
      · rw [h.completed hwhole.completed, hcompleted]
      · rw [h.tmp, hvisible]
    | StoreFinished =>
      rw [hwriter] at hstands
      exact ⟨h.fresh hstands.1, h.settled hstands.2⟩
    | CheckSize =>
      rw [hwriter] at hstands
      exact h.settled hstands
    | PrepareResponseHead =>
      rw [hwriter] at hstands
      exact ⟨h.settled hstands.1, h.fits hstands.2⟩
    | CreateDir =>
      rw [hwriter] at hstands
      exact ⟨h.settled hstands.1, h.fits hstands.2⟩
    | WriteMetadata =>
      rw [hwriter] at hstands
      exact ⟨h.settled hstands.1, h.fits hstands.2⟩
    | RenameBody =>
      rw [hwriter] at hstands
      exact ⟨h.settled hstands.1, h.fits hstands.2⟩
    | RenameMetadata =>
      rw [hwriter] at hstands
      rw [h.body_path]
      exact ⟨h.settled hstands.1, h.fits hstands.2.1, hstands.2.2⟩
    | UpdateIndex =>
      rw [hwriter] at hstands
      rw [h.body_path]
      exact ⟨h.settled hstands.1, h.fits hstands.2.1, hstands.2.2⟩
    | Fail reason flushes => trivial
    | FlushAborted => trivial
    | RemoveTmp remove_final => trivial
    | RemoveFinal => trivial
    | Done => trivial
  · rw [h.tmp]
    exact hok.is_received.trans h.received
  · rw [h.bytes_written, h.tmp]
    exact hok.recorded
  · rw [h.tmp]
    exact hok.visible
  · intro hfinished
    rw [h.is_finished] at hfinished
    exact h.settled (hok.finished hfinished)
  · intro hown
    rw [h.body_path] at hown
    exact ⟨h.settled (hok.own hown).1, h.fits (hok.own hown).2⟩
  · intro entry hentry
    rw [h.committed] at hentry
    obtain ⟨hsettled, hfits, rfl⟩ := hok.committed entry hentry
    refine ⟨h.settled hsettled, h.fits hfits, ?_⟩
    rw [h.plan, h.size]

/-- A step that changes the producer, and lets the upstream be. -/
theorem produced_by {producer : Producer} {state : CacheFillReadState}
    {queue : List StreamingCacheWriteMessage}
    (hstate : state.bytes_written = fill.fill_state.bytes_written ∧
      state.finished = fill.fill_state.finished ∧ state.trailers = fill.fill_state.trailers)
    (hknows : fill.producer.Knows fill.upstream → producer.Knows fill.upstream)
    (hdelivers : ∀ sofar, fill.producer.Knows fill.upstream →
      Delivers fill.upstream fill.producer.hold sofar fill.queue →
      Delivers fill.upstream producer.hold sofar queue)
    (hleaves : fill.producer.hold = .Leaves → producer.hold = .Leaves) :
    fill.Produced { fill with producer, fill_state := state, queue } where
  plan := rfl
  writer := rfl
  size := rfl
  tmp := rfl
  body_path := rfl
  committed := rfl
  bytes_written := hstate.1
  is_finished := hstate.2.1
  trailers := hstate.2.2
  knows := hknows
  delivers := hdelivers
  received := List.prefix_refl _
  leaves := hleaves
  completed := fun _ => rfl

theorem StreamingFill.Produced.refl (fill : StreamingFill) : fill.Produced fill :=
  produced_by ⟨rfl, rfl, rfl⟩ id (fun _ _ h => h) id

/-- A message that carries on what the producer has to send. -/
theorem sends_produced {message : StreamingCacheWriteMessage} {producer : Producer}
    (hhold : fill.producer.hold ≠ .Leaves)
    (hknows : fill.producer.Knows fill.upstream → producer.Knows fill.upstream)
    (hmore : ∀ sofar, fill.producer.Knows fill.upstream →
      Delivers fill.upstream fill.producer.hold sofar [] →
      Delivers fill.upstream producer.hold sofar [message]) :
    fill.Produced (fill.sends message producer) :=
  produced_by ⟨rfl, rfl, rfl⟩ hknows
    (fun _ hk h => h.append hhold fun sofar hends => hmore sofar hk hends)
    (fun h => absurd h hhold)

/-- A producer that goes on without a message. -/
theorem goes_on_produced {producer : Producer} {state : CacheFillReadState}
    (hstate : state.bytes_written = fill.fill_state.bytes_written ∧
      state.finished = fill.fill_state.finished ∧ state.trailers = fill.fill_state.trailers)
    (hhold : fill.producer.hold ≠ .Leaves)
    (hknows : fill.producer.Knows fill.upstream → producer.Knows fill.upstream)
    (hends : ∀ sofar, Delivers fill.upstream fill.producer.hold sofar [] →
      Delivers fill.upstream producer.hold sofar []) :
    fill.Produced { fill with producer, fill_state := state } :=
  produced_by hstate hknows
    (fun _ _ h => h.changes hhold hends) (fun h => absurd h hhold)

/-- A producer that gives up: the writer gets no more of the body. -/
theorem gives_up_produced {producer : Producer} {state : CacheFillReadState}
    (hstate : state.bytes_written = fill.fill_state.bytes_written ∧
      state.finished = fill.fill_state.finished ∧ state.trailers = fill.fill_state.trailers)
    (hhold : fill.producer.hold ≠ .Leaves) (hknows : ∀ upstream, producer.Knows upstream)
    (hproducer : ∀ pending, producer.hold ≠ .Sends pending) :
    fill.Produced { fill with producer, fill_state := state } := by
  refine goes_on_produced hstate hhold (fun _ => hknows _) ?_
  intro sofar h
  have hprefix := h.is_received
  unfold Delivers
  cases hnew : producer.hold with
  | Sends pending => exact absurd hnew (hproducer pending)
  | Aborts => exact hprefix
  | Leaves => exact hprefix

/-- A poll of the upstream by a producer that still has its writer, or by a body without. -/
theorem polled_produced {upstream : Upstream} {producer : Producer}
    (hnone : fill.upstream.completed = none)
    (hreceived : fill.upstream.received <+: upstream.received)
    (hproducer : fill.producer = .Passing ∧ producer = .Passing ∨
      fill.producer.hold = .Sends [] ∧ producer.Knows upstream ∧
        Delivers upstream producer.hold fill.upstream.received []) :
    fill.Produced { fill with upstream, producer } where
  plan := rfl
  writer := rfl
  size := rfl
  tmp := rfl
  body_path := rfl
  committed := rfl
  bytes_written := rfl
  is_finished := rfl
  trailers := rfl
  knows := by
    intro _
    rcases hproducer with ⟨_, rfl⟩ | ⟨_, hknows, _⟩
    · trivial
    · exact hknows
  delivers := by
    intro sofar _ h
    rcases hproducer with ⟨hpassing, rfl⟩ | ⟨hhold, _, hends⟩
    · rw [hpassing] at h
      exact h.passes hnone hreceived
    · rw [hhold] at h
      refine h.changes (by simp) fun sofar h => ?_
      obtain rfl : sofar = fill.upstream.received := by simpa [Delivers] using h
      exact hends
  received := hreceived
  leaves := by
    intro h
    rcases hproducer with ⟨_, rfl⟩ | ⟨hhold, _⟩
    · rfl
    · rw [hhold] at h
      cases h
  completed := by
    intro h
    rw [hnone] at h
    cases h

theorem Producer.polls_cases {producer : Producer} (h : producer.polls) :
    producer = .Passing ∨ (∃ cached_body_bytes, producer = .Body cached_body_bytes) ∨
      producer = .Reading .Origin ∨
      ∃ cached_body_bytes, producer = .Reading (.Drain cached_body_bytes) := by
  cases producer with
  | Body cached_body_bytes => exact .inr (.inl ⟨cached_body_bytes, rfl⟩)
  | Passing => exact .inl rfl
  | Reading task =>
    cases task with
    | Origin => exact .inr (.inr (.inl rfl))
    | Drain cached_body_bytes => exact .inr (.inr (.inr ⟨cached_body_bytes, rfl⟩))
  | _ => cases h

/-- A frame of data adds its bytes to what the producer has to send, unless it gives up. -/
theorem on_data_produced {upstream : Upstream} {max_entry_bytes : Nat} {data : List UInt8}
    {completed : Option (Option HeaderMap)} (hpolls : fill.producer.polls)
    (hnone : fill.upstream.completed = none)
    (hasks : fill.producer.asks_is_end_stream = false → completed = none)
    (hreceived : upstream.received = fill.upstream.received ++ data)
    (hcompleted : upstream.completed = completed) :
    fill.Produced
      { fill with upstream, producer := fill.producer.on_data max_entry_bytes data completed } := by
  have hprefix : fill.upstream.received <+: upstream.received := ⟨data, hreceived.symm⟩
  refine polled_produced hnone hprefix ?_
  rcases Producer.polls_cases hpolls with h | ⟨cached_body_bytes, h⟩ | h | ⟨cached_body_bytes, h⟩
  · exact .inl ⟨h, by rw [h]; rfl⟩
  · right
    by_cases hdata : data = []
    · cases completed <;>
        simp_all [Producer.on_data, Producer.hold, Producer.Knows, Delivers]
    · simp_all [Producer.on_data, Producer.hold, Producer.Knows, Delivers]
  · right
    by_cases hdata : data = []
    · cases completed <;>
        simp_all [Producer.on_data, Producer.hold, Producer.Knows, Delivers]
    · simp_all [Producer.on_data, Producer.hold, Producer.Knows, Delivers]
  · right
    obtain rfl : completed = none := hasks (by rw [h, Producer.asks_is_end_stream])
    by_cases hdata : data = []
    · simp_all [Producer.on_data, Producer.hold, Producer.Knows, Delivers]
    by_cases hsize : max_entry_bytes < cached_body_bytes + data.length
    · simp [Producer.on_data, Producer.hold, Producer.Knows, Delivers, h, hdata, hsize, hprefix]
    · simp [Producer.on_data, Producer.hold, Producer.Knows, Delivers, h, hdata, hsize, hreceived,
        hcompleted]

theorem on_end_produced {upstream : Upstream} {trailers : Option HeaderMap}
    (hpolls : fill.producer.polls) (hnone : fill.upstream.completed = none)
    (hreceived : upstream.received = fill.upstream.received)
    (hcompleted : upstream.completed = some trailers) :
    fill.Produced { fill with upstream, producer := fill.producer.on_end trailers } := by
  refine polled_produced hnone (hreceived ▸ List.prefix_refl _) ?_
  rcases Producer.polls_cases hpolls with h | ⟨cached_body_bytes, h⟩ | h | ⟨cached_body_bytes, h⟩
  · exact .inl ⟨h, by rw [h]; rfl⟩
  all_goals
    right
    simp [h, Producer.on_end, Producer.hold, Producer.Knows, Delivers, hreceived, hcompleted]

theorem on_error_produced {upstream : Upstream} (hpolls : fill.producer.polls)
    (hnone : fill.upstream.completed = none)
    (hreceived : upstream.received = fill.upstream.received) :
    fill.Produced { fill with upstream, producer := fill.producer.on_error } := by
  refine polled_produced hnone (hreceived ▸ List.prefix_refl _) ?_
  rcases Producer.polls_cases hpolls with h | ⟨cached_body_bytes, h⟩ | h | ⟨cached_body_bytes, h⟩
  · exact .inl ⟨h, by rw [h]; rfl⟩
  all_goals
    right
    simp [h, Producer.on_error, Producer.hold, Producer.Knows, Delivers, hreceived]

theorem poll_frame_produced (fill : StreamingFill) (answer : UpstreamPoll) :
    fill.Produced (fill.poll_frame answer) := by
  unfold StreamingFill.poll_frame
  split
  · exact .refl fill
  rename_i hpolled
  obtain ⟨hended, hpolls⟩ : fill.upstream.ended = false ∧ fill.producer.polls = true := by
    simpa using hpolled
  have hnone : fill.upstream.completed = none := by
    unfold Upstream.ended at hended
    cases hcompleted : fill.upstream.completed with
    | none => rfl
    | some trailers => simp [hcompleted] at hended
  split
  · exact .refl fill
  · dsimp only
    split
    · rename_i hlast
      refine on_data_produced hpolls hnone ?_ rfl rfl
      intro hasks
      simp [hasks] at hlast
    · exact on_data_produced hpolls hnone (fun _ => rfl) rfl hnone
  · exact on_end_produced hpolls hnone rfl rfl
  · exact on_error_produced hpolls hnone rfl
  · exact on_end_produced hpolls hnone rfl rfl

theorem drop_body_produced (fill : StreamingFill) : fill.Produced fill.drop_body := by
  unfold StreamingFill.drop_body
  split
  · rename_i hproducer
    apply goes_on_produced ⟨rfl, rfl, rfl⟩ <;> simp [hproducer, Producer.hold, Producer.Knows]
  · rename_i hproducer
    apply produced_by ⟨rfl, rfl, rfl⟩ <;> simp [hproducer, Producer.hold, Producer.Knows]
  · exact .refl fill

theorem produce_produced (fill : StreamingFill) : fill.Produced fill.produce := by
  unfold StreamingFill.produce
  cases hproducer : fill.producer with
  | TrySendData cached_body_bytes bytes completed =>
    dsimp only
    split
    · apply gives_up_produced ⟨rfl, rfl, rfl⟩ <;> simp [hproducer, Producer.hold, Producer.Knows]
    split
    · apply sends_produced
      · simp [hproducer, Producer.hold]
      · cases completed <;> simp [hproducer, Producer.Knows]
      · intro sofar _ h
        rw [hproducer] at h
        cases completed <;> exact Delivers.data h
    · apply gives_up_produced ⟨rfl, rfl, rfl⟩ <;> simp [hproducer, Producer.hold, Producer.Knows]
  | AbortFails =>
    apply gives_up_produced <;>
      simp [hproducer, Producer.hold, Producer.Knows, CacheFillReadState.fail]
  | AbortSends =>
    dsimp only
    split
    · apply sends_produced
      · simp [hproducer, Producer.hold]
      · exact fun _ => trivial
      · intro sofar _ h
        rw [hproducer] at h
        exact Delivers.abort h
    · apply gives_up_produced ⟨rfl, rfl, rfl⟩ <;> simp [hproducer, Producer.hold, Producer.Knows]
  | TryFinish trailers =>
    dsimp only
    split
    · apply sends_produced
      · simp [hproducer, Producer.hold]
      · exact fun _ => trivial
      · intro sofar hknows h
        rw [hproducer] at h hknows
        exact Delivers.finish h hknows
    · apply goes_on_produced ⟨rfl, rfl, rfl⟩ <;> simp [hproducer, Producer.hold, Producer.Knows]
  | SendData task bytes completed =>
    dsimp only
    split
    · cases task <;> apply gives_up_produced ⟨rfl, rfl, rfl⟩ <;>
        simp [hproducer, Producer.hold, Producer.Knows]
    split
    · apply sends_produced
      · simp [hproducer, Producer.hold]
      · cases completed <;> simp [hproducer, Producer.Knows]
      · intro sofar _ h
        rw [hproducer] at h
        cases completed <;> exact Delivers.data h
    · exact .refl fill
  | Finish reports trailers =>
    dsimp only
    split
    · cases reports <;> apply gives_up_produced ⟨rfl, rfl, rfl⟩ <;>
        simp [hproducer, Producer.hold, Producer.Knows]
    split
    · apply sends_produced
      · simp [hproducer, Producer.hold]
      · exact fun _ => trivial
      · intro sofar hknows h
        rw [hproducer] at h hknows
        exact Delivers.finish h hknows
    · exact .refl fill
  | MarkUpstreamComplete =>
    apply produced_by <;>
      simp [hproducer, Producer.hold, Producer.Knows, CacheFillReadState.mark_upstream_complete]
  | OriginFails reason =>
    apply produced_by <;>
      simp [hproducer, Producer.hold, Producer.Knows, CacheFillReadState.fail]
  | Body cached_body_bytes => exact .refl fill
  | Passing => exact .refl fill
  | Reading task => exact .refl fill
  | Gone => exact .refl fill

end Producer

/-! ## The writer -/

section Writer

variable {fill : StreamingFill}

theorem receive_ok (hok : fill.Ok) (hwriter : fill.writer = .Receive) (outcome : WriteOutcome) :
    (fill.write outcome).Ok := by
  have hstands := hok.stands
  unfold StreamingFill.Stands at hstands
  rw [hwriter] at hstands
  obtain ⟨⟨hfresh, hsize, hdelivers⟩, hrecorded⟩ := hstands
  unfold StreamingFill.write
  rw [hwriter]
  dsimp only
  split
  · split
    · exact hok
    · exact { hok with stands := trivial }
  · rename_i message queue hqueue
    rw [hqueue, List.append_nil] at hdelivers
    cases message with
    | Data bytes => exact { hok with stands := ⟨hfresh, hsize, hdelivers⟩ }
    | Finish trailers =>
      obtain ⟨_, hleaves, hwritten, hcompleted⟩ := hdelivers
      have hwhole : fill.Whole :=
        ⟨hwritten, by rw [hcompleted]; rfl, hsize, hrecorded, hleaves⟩
      exact { hok with stands := ⟨hfresh, hwhole, hcompleted⟩ }
    | Abort => exact { hok with stands := trivial }

theorem write_all_ok (hok : fill.Ok) {bytes : List UInt8} (hwriter : fill.writer = .WriteAll bytes)
    (outcome : WriteOutcome) : (fill.write outcome).Ok := by
  have hstands := hok.stands
  unfold StreamingFill.Stands at hstands
  rw [hwriter] at hstands
  obtain ⟨⟨hfinished, hown, hcommitted⟩, hsize, hdelivers⟩ := hstands
  have hreceived := hdelivers.is_received
  have hleft : fill.tmp.written ++ bytes.take outcome.left <+: fill.upstream.received :=
    ((List.prefix_append_right_inj _).mpr (List.take_prefix _ _)).trans hreceived
  have hrecorded := hok.recorded
  have hvisible := hok.visible
  unfold StreamingFill.write
  rw [hwriter]
  dsimp only
  split
  · apply StreamingFill.Fresh.ok
    · exact ⟨hfinished, hown, hcommitted⟩
    · exact hok.knows
    · refine ⟨⟨hfinished, hown, hcommitted⟩, ?_, ?_⟩
      · simp [hsize]
      · simpa using hdelivers
    · exact hreceived
    · simp only [List.length_append]
      omega
    · simp only [List.length_append]
      omega
  · apply StreamingFill.Fresh.ok
    · exact ⟨hfinished, hown, hcommitted⟩
    · exact hok.knows
    · trivial
    · exact hleft
    · simp only [List.length_append]
      omega
    · simp only [List.length_append]
      omega

theorem record_ok (hok : fill.Ok) (hwriter : fill.writer = .RecordBytesWritten)
    (outcome : WriteOutcome) : (fill.write outcome).Ok := by
  have hstands := hok.stands
  unfold StreamingFill.Stands at hstands
  rw [hwriter] at hstands
  obtain ⟨⟨hfinished, hown, hcommitted⟩, hsize, hdelivers⟩ := hstands
  unfold StreamingFill.write
  rw [hwriter]
  apply StreamingFill.Fresh.ok
  · exact ⟨hfinished, hown, hcommitted⟩
  · exact hok.knows
  · exact ⟨⟨⟨hfinished, hown, hcommitted⟩, hsize, hdelivers⟩, hsize⟩
  · exact hok.is_received
  · exact le_of_eq hsize
  · exact hok.visible

theorem finish_ok (hok : fill.Ok) {trailers : Option HeaderMap}
    (hwriter : fill.writer = .Flush trailers ∨ fill.writer = .StoreTrailers trailers ∨
      fill.writer = .StoreFinished) (outcome : WriteOutcome) : (fill.write outcome).Ok := by
  have hstands := hok.stands
  unfold StreamingFill.Stands at hstands
  unfold StreamingFill.write
  rcases hwriter with hwriter | hwriter | hwriter
  · rw [hwriter] at hstands ⊢
    obtain ⟨⟨hfinished, hown, hcommitted⟩, hwhole, hcompleted⟩ := hstands
    dsimp only
    split
    · apply StreamingFill.Fresh.ok
      · exact ⟨hfinished, hown, hcommitted⟩
      · exact hok.knows
      · exact ⟨⟨hfinished, hown, hcommitted⟩, hwhole, hcompleted, rfl⟩
      · exact hok.is_received
      · exact hok.recorded
      · exact Nat.le_refl _
    · exact { hok with stands := trivial }
  · rw [hwriter] at hstands ⊢
    obtain ⟨⟨hfinished, hown, hcommitted⟩, hwhole, hcompleted, hvisible⟩ := hstands
    apply StreamingFill.Fresh.ok
    · exact ⟨hfinished, hown, hcommitted⟩
    · exact hok.knows
    · exact ⟨⟨hfinished, hown, hcommitted⟩, hwhole, hvisible, hcompleted⟩
    · exact hok.is_received
    · exact hok.recorded
    · exact hok.visible
  · rw [hwriter] at hstands ⊢
    exact { hok with stands := hstands.2, finished := fun _ => hstands.2 }

theorem check_size_cases (fill : StreamingFill) :
    fill.check_size = .RemoveTmp false ∨ (∃ reason, fill.check_size = .Fail reason false) ∨
      fill.check_size = .PrepareResponseHead ∧ fill.Fits := by
  unfold StreamingFill.check_size
  split
  · exact .inl rfl
  · rename_i hmax
    have hmax : fill.body_size_bytes ≤ fill.plan.max_entry_bytes := by omega
    right
    split
    · rename_i expected_body_bytes hexpected
      split
      · exact .inl ⟨_, rfl⟩
      · rename_i heq
        refine .inr ⟨rfl, hmax, fun expected h => ?_⟩
        obtain rfl := Option.some.inj (hexpected.symm.trans h)
        exact not_not.mp heq
    · rename_i hexpected
      refine .inr ⟨rfl, hmax, fun expected h => ?_⟩
      rw [hexpected] at h
      cases h

theorem check_size_ok (hok : fill.Ok) (hwriter : fill.writer = .CheckSize)
    (outcome : WriteOutcome) : (fill.write outcome).Ok := by
  have hstands := hok.stands
  unfold StreamingFill.Stands at hstands
  unfold StreamingFill.write
  rw [hwriter] at hstands ⊢
  dsimp only
  rcases check_size_cases fill with h | ⟨reason, h⟩ | ⟨h, hfits⟩
  · rw [h]
    exact { hok with stands := trivial }
  · rw [h]
    exact { hok with stands := trivial }
  · rw [h]
    exact { hok with stands := ⟨hstands, hfits⟩ }

theorem rename_body_ok (hok : fill.Ok) (hwriter : fill.writer = .RenameBody)
    (outcome : WriteOutcome) : (fill.write outcome).Ok := by
  have hstands := hok.stands
  unfold StreamingFill.Stands at hstands
  unfold StreamingFill.write
  rw [hwriter] at hstands ⊢
  obtain ⟨hsettled, hfits⟩ := hstands
  dsimp only
  split
  · have hpath : ∀ content, some OpenedFile.Own ≠ some (.Other content) := by simp
    exact { hok with stands := ⟨hsettled, hfits, hpath⟩, own := fun _ => ⟨hsettled, hfits⟩ }
  · exact { hok with stands := trivial }

/-- The steps of a commit before its renames. -/
theorem prepare_ok (hok : fill.Ok)
    (hwriter : fill.writer = .PrepareResponseHead ∨ fill.writer = .CreateDir ∨
      fill.writer = .WriteMetadata) (outcome : WriteOutcome) : (fill.write outcome).Ok := by
  have hstands := hok.stands
  unfold StreamingFill.Stands at hstands
  unfold StreamingFill.write
  rcases hwriter with hwriter | hwriter | hwriter
  · rw [hwriter] at hstands ⊢
    cases outcome.error with
    | none => exact { hok with stands := hstands }
    | some error => exact { hok with stands := trivial }
  · rw [hwriter] at hstands ⊢
    cases outcome.error with
    | none => exact { hok with stands := hstands }
    | some error => exact { hok with stands := trivial }
  · rw [hwriter] at hstands ⊢
    cases outcome.error with
    | none => exact { hok with stands := hstands }
    | some error => exact { hok with stands := trivial }

theorem rename_metadata_ok (hok : fill.Ok) (hwriter : fill.writer = .RenameMetadata)
    (outcome : WriteOutcome) : (fill.write outcome).Ok := by
  have hstands := hok.stands
  unfold StreamingFill.Stands at hstands
  unfold StreamingFill.write
  rw [hwriter] at hstands ⊢
  cases outcome.error with
  | none => exact { hok with stands := hstands }
  | some error => exact { hok with stands := trivial }

theorem remove_final_ok (hok : fill.Ok) (hwriter : fill.writer = .RemoveFinal)
    (outcome : WriteOutcome) : (fill.write outcome).Ok := by
  unfold StreamingFill.write
  rw [hwriter]
  dsimp only
  cases outcome.error with
  | none =>
    refine { hok with stands := trivial, own := ?_ }
    intro h
    cases h
  | some error => exact { hok with stands := trivial }

/-- The steps that give up, or clean up. -/
theorem give_up_ok (hok : fill.Ok)
    (hwriter : (∃ reason flushes, fill.writer = .Fail reason flushes) ∨
      fill.writer = .FlushAborted ∨ (∃ remove_final, fill.writer = .RemoveTmp remove_final))
    (outcome : WriteOutcome) : (fill.write outcome).Ok := by
  unfold StreamingFill.write
  rcases hwriter with ⟨reason, flushes, hwriter⟩ | hwriter | ⟨remove_final, hwriter⟩
  · rw [hwriter]
    cases flushes <;> exact { hok with stands := trivial }
  · rw [hwriter]
    exact { hok with stands := trivial }
  · rw [hwriter]
    cases remove_final <;> exact { hok with stands := trivial }

theorem update_index_ok (hok : fill.Ok) (hwriter : fill.writer = .UpdateIndex)
    (outcome : WriteOutcome) : (fill.write outcome).Ok := by
  have hstands := hok.stands
  unfold StreamingFill.Stands at hstands
  unfold StreamingFill.write
  rw [hwriter] at hstands ⊢
  obtain ⟨hsettled, hfits, _⟩ := hstands
  refine { hok with stands := trivial, committed := ?_ }
  rintro entry ⟨⟩
  exact ⟨hsettled, hfits, rfl⟩

theorem write_ok (hok : fill.Ok) (outcome : WriteOutcome) : (fill.write outcome).Ok := by
  cases hwriter : fill.writer with
  | Receive => exact receive_ok hok hwriter outcome
  | WriteAll bytes => exact write_all_ok hok hwriter outcome
  | RecordBytesWritten => exact record_ok hok hwriter outcome
  | Flush trailers => exact finish_ok hok (.inl hwriter) outcome
  | StoreTrailers trailers => exact finish_ok hok (.inr (.inl hwriter)) outcome
  | StoreFinished => exact @finish_ok _ hok none (.inr (.inr hwriter)) outcome
  | CheckSize => exact check_size_ok hok hwriter outcome
  | RenameBody => exact rename_body_ok hok hwriter outcome
  | PrepareResponseHead => exact prepare_ok hok (.inl hwriter) outcome
  | CreateDir => exact prepare_ok hok (.inr (.inl hwriter)) outcome
  | WriteMetadata => exact prepare_ok hok (.inr (.inr hwriter)) outcome
  | RenameMetadata => exact rename_metadata_ok hok hwriter outcome
  | UpdateIndex => exact update_index_ok hok hwriter outcome
  | Fail reason flushes => exact give_up_ok hok (.inl ⟨reason, flushes, hwriter⟩) outcome
  | FlushAborted => exact give_up_ok hok (.inr (.inl hwriter)) outcome
  | RemoveTmp remove_final => exact give_up_ok hok (.inr (.inr ⟨remove_final, hwriter⟩)) outcome
  | RemoveFinal => exact remove_final_ok hok hwriter outcome
  | Done =>
    unfold StreamingFill.write
    rw [hwriter]
    exact hok

end Writer

/-! ## Runs -/

theorem sync_ok {fill : StreamingFill} (hok : fill.Ok) (count : Nat) : (fill.sync count).Ok := by
  have hvisible := hok.visible
  have hsettled : fill.Settled → (fill.sync count).Settled := by
    intro h
    refine ⟨h.toWholeBody, ?_, h.last⟩
    have hsynced := h.synced
    simp only [StreamingFill.sync]
    omega
  constructor
  · exact hok.knows
  · have hstands := hok.stands
    unfold StreamingFill.Stands at hstands ⊢
    unfold StreamingFill.sync
    dsimp only
    split at hstands
    · exact hstands
    · exact hstands
    · exact hstands
    · exact hstands
    · obtain ⟨hfresh, hwhole, hcompleted, hsynced⟩ := hstands
      refine ⟨hfresh, hwhole, hcompleted, ?_⟩
      omega
    · exact ⟨hstands.1, hsettled hstands.2⟩
    · exact hsettled hstands
    · exact ⟨hsettled hstands.1, hstands.2⟩
    · exact ⟨hsettled hstands.1, hstands.2⟩
    · exact ⟨hsettled hstands.1, hstands.2⟩
    · exact ⟨hsettled hstands.1, hstands.2⟩
    · exact ⟨hsettled hstands.1, hstands.2⟩
    · exact ⟨hsettled hstands.1, hstands.2⟩
    · trivial
  · exact hok.is_received
  · exact hok.recorded
  · simp only [StreamingFill.sync]
    omega
  · exact fun h => hsettled (hok.finished h)
  · exact fun h => ⟨hsettled (hok.own h).1, (hok.own h).2⟩
  · intro entry h
    obtain ⟨h, hfits, hentry⟩ := hok.committed entry h
    exact ⟨hsettled h, hfits, hentry⟩

/-- Another file at the path, or none. -/
theorem other_path_ok {fill : StreamingFill} (hok : fill.Ok) {body_path : Option OpenedFile}
    (hother : body_path ≠ some .Own)
    (hlock : body_path = none ∨ fill.writer.holds_io_lock = false) :
    StreamingFill.Ok { fill with body_path } := by
  have hfresh : fill.Fresh → StreamingFill.Fresh { fill with body_path } := fun h =>
    ⟨h.1, hother, h.2.2⟩
  refine { hok with stands := ?_, own := fun h => absurd h hother }
  have hstands := hok.stands
  unfold StreamingFill.Stands at hstands ⊢
  have hnone : fill.writer.holds_io_lock = true →
      ∀ content, body_path ≠ some (.Other content) := by
    intro hholds content
    rcases hlock with rfl | hlock
    · simp
    · rw [hholds] at hlock
      cases hlock
  dsimp only
  cases hwriter : fill.writer with
  | Receive =>
    rw [hwriter] at hstands
    exact ⟨⟨hfresh hstands.1.1, hstands.1.2⟩, hstands.2⟩
  | WriteAll bytes =>
    rw [hwriter] at hstands
    exact ⟨hfresh hstands.1, hstands.2⟩
  | RecordBytesWritten =>
    rw [hwriter] at hstands
    exact ⟨hfresh hstands.1, hstands.2⟩
  | Flush trailers =>
    rw [hwriter] at hstands
    exact ⟨hfresh hstands.1, hstands.2⟩
  | StoreTrailers trailers =>
    rw [hwriter] at hstands
    exact ⟨hfresh hstands.1, hstands.2⟩
  | StoreFinished =>
    rw [hwriter] at hstands
    exact ⟨hfresh hstands.1, hstands.2⟩
  | RenameMetadata =>
    rw [hwriter] at hstands hnone
    exact ⟨hstands.1, hstands.2.1, hnone rfl⟩
  | UpdateIndex =>
    rw [hwriter] at hstands hnone
    exact ⟨hstands.1, hstands.2.1, hnone rfl⟩
  | _ =>
    rw [hwriter] at hstands
    exact hstands

theorem replace_body_ok {fill : StreamingFill} (hok : fill.Ok) (content : Option (List UInt8)) :
    (fill.replace_body content).Ok := by
  unfold StreamingFill.replace_body
  cases content with
  | none => exact other_path_ok hok (by simp) (.inl rfl)
  | some content =>
    dsimp only
    split
    · exact hok
    · rename_i hlock
      exact other_path_ok hok (by simp) (.inr (by simpa using hlock))

theorem step_ok (fill : StreamingFill) (event : FillEvent) (hok : fill.Ok) :
    (fill.step event).Ok := by
  cases event with
  | poll_frame answer => exact (poll_frame_produced fill answer).ok hok
  | drop_body => exact (drop_body_produced fill).ok hok
  | produce => exact (produce_produced fill).ok hok
  | write outcome => exact write_ok hok outcome
  | sync count => exact sync_ok hok count
  | replace_body content => exact replace_body_ok hok content
  | join => exact { hok with }
  | read reader outcome => exact { hok with }
  | drop_reader reader => exact { hok with }

theorem step_plan (fill : StreamingFill) (event : FillEvent) :
    (fill.step event).plan = fill.plan := by
  cases event with
  | poll_frame answer => exact (poll_frame_produced fill answer).plan
  | drop_body => exact (drop_body_produced fill).plan
  | produce => exact (produce_produced fill).plan
  | write outcome =>
    unfold StreamingFill.step StreamingFill.write StreamingFill.rename_body
    grind
  | replace_body content =>
    unfold StreamingFill.step StreamingFill.replace_body
    grind
  | _ => rfl

section Run

variable (plan : StreamingCachePlan) (trims : Bool) (body_path : Option (List UInt8))
  (events : List FillEvent)

theorem run_ok :
    (after StreamingFill.step (store_streaming_response plan trims body_path) events).Ok :=
  after_of_invariant (fun fill event => step_ok fill event)
    (store_streaming_response_ok plan trims body_path) events

theorem run_plan :
    (after StreamingFill.step (store_streaming_response plan trims body_path) events).plan =
      plan :=
  @after_of_invariant _ _ _ (fun fill : StreamingFill => fill.plan = plan)
    (fun fill event h => (step_plan fill event).trans h) _ (by rfl) events

end Run

/-- The file of the fill holds all that the upstream gave, the upstream is complete, and the size is
one that may be kept. -/
structure StreamingFill.KeepsWhole (fill : StreamingFill) : Prop where
  content : fill.tmp.content .Own = fill.upstream.received
  completed : fill.upstream.completed.isSome
  size : fill.upstream.received.length ≤ fill.plan.max_entry_bytes
  expected : ∀ expected_body_bytes, fill.plan.expected_body_bytes = some expected_body_bytes →
    expected_body_bytes = fill.upstream.received.length

theorem StreamingFill.Settled.body_size {fill : StreamingFill} (h : fill.Settled) :
    fill.body_size_bytes = fill.upstream.received.length := by
  rw [h.size, h.body]

theorem StreamingFill.Settled.keeps_whole {fill : StreamingFill} (h : fill.Settled)
    (hfits : fill.Fits) : fill.KeepsWhole := by
  have hsize := h.body_size
  obtain ⟨hmax, hexpected⟩ := hfits
  rw [hsize] at hmax hexpected
  refine ⟨?_, h.completed, hmax, hexpected⟩
  unfold TmpFile.content
  rw [h.synced, List.take_length, h.body]

/-- In every order of the steps of the upstream, its readers, the queue, the writer and what happens
to the files beside: the file of the fill has the name of the entry, and the entry stands in the
index, only with a body that is whole. -/
theorem a_fill_commits_whole_bodies (plan : StreamingCachePlan) (trims : Bool)
    (body_path : Option (List UInt8)) (events : List FillEvent) :
    let fill :=
      after StreamingFill.step (store_streaming_response plan trims body_path) events
    (fill.body_path = some .Own → fill.KeepsWhole) ∧
      (fill.writer = .UpdateIndex →
        fill.KeepsWhole ∧ ∀ content, fill.body_path ≠ some (.Other content)) ∧
      ∀ entry, fill.committed = some entry →
        fill.KeepsWhole ∧ entry = plan.entry fill.upstream.received.length := by
  intro fill
  have hok : fill.Ok := run_ok plan trims body_path events
  have hplan : fill.plan = plan := run_plan plan trims body_path events
  refine ⟨?_, ?_, ?_⟩
  · intro hown
    exact (hok.own hown).1.keeps_whole (hok.own hown).2
  · intro hwriter
    have hstands := hok.stands
    unfold StreamingFill.Stands at hstands
    rw [hwriter] at hstands
    exact ⟨hstands.1.keeps_whole hstands.2.1, hstands.2.2⟩
  · intro entry hentry
    obtain ⟨hsettled, hfits, rfl⟩ := hok.committed entry hentry
    refine ⟨hsettled.keeps_whole hfits, ?_⟩
    rw [hplan, hsettled.body_size]

/-- A response of three bytes under the key `page`. -/
def threeBytePlan : StreamingCachePlan :=
  { base_key := "page", final_key := "page", vary := [], tags := []
    freshness := ⟨60, none, none, false, false⟩, now := 0, hash := "h", max_entry_bytes := 4
    grace := none, keep := none, pass_ttl := none, expected_body_bytes := some 3
    replaced_entry := none }

/-- Two frames, of which the second one comes while the first one is written. -/
def twoFrames : List FillEvent :=
  [.poll_frame (.Frame (.Data [1, 2]) false), .produce, .write ⟨none, 0⟩,
    .poll_frame (.Frame (.Data [3]) true), .produce, .produce] ++
    List.replicate 16 (.write ⟨none, 0⟩)

theorem a_fill_commits_two_frames :
    let fill :=
      after StreamingFill.step (store_streaming_response threeBytePlan false none) twoFrames
    fill.tmp.content .Own = [1, 2, 3] ∧ fill.committed = some (threeBytePlan.entry 3) := by
  intro fill
  have hentry : fill.committed = some (threeBytePlan.entry 3) := rfl
  obtain ⟨hkept, _⟩ := (a_fill_commits_whole_bodies threeBytePlan false none twoFrames).2.2 _ hentry
  exact ⟨hkept.content, hentry⟩

end rginx.cache.streaming
