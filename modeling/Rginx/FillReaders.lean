-- What the readers of a fill in progress give their clients: a reader that has opened the file of the
-- fill follows what the upstream gave, comes to a clean end behind a complete upstream only, and then
-- has all of it, unless bytes were recorded between its two last looks at the fill.
import Rginx.FilledBodies

open step_runs

namespace rginx.cache.streaming

/-! ## What a step leaves to the readers -/

/-- The file and the record of a fill grow, and a fill that is finished stays as it is. -/
structure StreamingFill.Grows (fill fill' : StreamingFill) : Prop where
  written : fill.tmp.written <+: fill'.tmp.written
  bytes_written : fill.fill_state.bytes_written ≤ fill'.fill_state.bytes_written
  finished : fill.fill_state.finished = true → fill'.fill_state = { fill.fill_state with
    upstream_completed := fill'.fill_state.upstream_completed
    error := fill'.fill_state.error }

theorem StreamingFill.Produced.grows {fill fill' : StreamingFill} (h : fill.Produced fill') :
    fill.Grows fill' := by
  refine ⟨?_, ?_, fun _ => ?_⟩
  · rw [h.tmp]
  · rw [h.bytes_written]
  · have hbytes := h.bytes_written
    have hfinished := h.is_finished
    have htrailers := h.trailers
    cases hstate : fill'.fill_state
    simp_all

theorem write_grows {fill : StreamingFill} (hok : fill.Ok) (outcome : WriteOutcome) :
    fill.Grows (fill.write outcome) := by
  have hstands := hok.stands
  unfold StreamingFill.Stands at hstands
  unfold StreamingFill.write
  cases hwriter : fill.writer with
  | Receive =>
    dsimp only
    split
    · split <;> exact ⟨List.prefix_refl _, Nat.le_refl _, fun _ => rfl⟩
    · exact ⟨List.prefix_refl _, Nat.le_refl _, fun _ => rfl⟩
  | WriteAll bytes =>
    dsimp only
    split <;> exact ⟨List.prefix_append _ _, Nat.le_refl _, fun _ => rfl⟩
  | RecordBytesWritten =>
    rw [hwriter] at hstands
    obtain ⟨⟨hfinished, _⟩, hsize, _⟩ := hstands
    refine ⟨List.prefix_refl _, ?_, fun h => ?_⟩
    · exact hok.recorded.trans_eq hsize.symm
    · rw [hfinished] at h
      cases h
  | Flush trailers =>
    dsimp only
    split <;> exact ⟨List.prefix_refl _, Nat.le_refl _, fun _ => rfl⟩
  | StoreTrailers trailers =>
    rw [hwriter] at hstands
    obtain ⟨⟨hfinished, _⟩, _⟩ := hstands
    refine ⟨List.prefix_refl _, Nat.le_refl _, fun h => ?_⟩
    rw [hfinished] at h
    cases h
  | StoreFinished =>
    refine ⟨List.prefix_refl _, Nat.le_refl _, fun h => ?_⟩
    simp [CacheFillReadState.store_finished, h]
  | PrepareResponseHead =>
    dsimp only
    split <;> exact ⟨List.prefix_refl _, Nat.le_refl _, fun _ => rfl⟩
  | RenameBody =>
    dsimp only
    split <;> exact ⟨List.prefix_refl _, Nat.le_refl _, fun _ => rfl⟩
  | _ => exact ⟨List.prefix_refl _, Nat.le_refl _, fun _ => rfl⟩

theorem step_grows {fill : StreamingFill} (hok : fill.Ok) (event : FillEvent) :
    fill.Grows (fill.step event) := by
  cases event with
  | poll_frame answer => exact (poll_frame_produced fill answer).grows
  | drop_body => exact (drop_body_produced fill).grows
  | produce => exact (produce_produced fill).grows
  | write outcome => exact write_grows hok outcome
  | replace_body content =>
    change fill.Grows (fill.replace_body content)
    unfold StreamingFill.replace_body
    split
    · exact ⟨List.prefix_refl _, Nat.le_refl _, fun _ => rfl⟩
    · split <;> exact ⟨List.prefix_refl _, Nat.le_refl _, fun _ => rfl⟩
  | _ => exact ⟨List.prefix_refl _, Nat.le_refl _, fun _ => rfl⟩

/-! ## A reader of the file -/

/-- What the reader has read and not sent yet. -/
def ReaderPhase.unsent : ReaderPhase → List UInt8
  | .SendChunk buffer => buffer
  | _ => []

/-- A phase between a reader's opening of the file and its end, with no chunk at hand. -/
def ReaderPhase.reads : ReaderPhase → Bool
  | .SendChunk _ | .Ended | .Dropped => false
  | _ => true

theorem reads_cases {phase : ReaderPhase} (h : phase.reads) :
    phase ≠ .Dropped ∧ phase ≠ .Ended ∧ phase.unsent = [] := by
  cases phase <;> simp_all [ReaderPhase.reads, ReaderPhase.unsent]

/-- The size of a chunk. -/
def IsChunk (length : Nat) : Prop := 0 < length ∧ length ≤ IN_FLIGHT_FILL_READ_CHUNK_BYTES

/-- What the reader knows before its next operation, by what the fill has recorded. -/
def InFlightFillBody.Stands (body : InFlightFillBody) (fill : StreamingFill) : Prop :=
  match body.phase with
  | .OpenTmp | .AskFinished | .OpenBody => body.opened = none
  | .Read chunk_len buffer | .ReadNothing chunk_len buffer =>
    IsChunk chunk_len ∧ buffer.length < chunk_len ∧
      body.offset + chunk_len ≤ fill.fill_state.bytes_written ∧
      buffer = (fill.tmp.written.drop body.offset).take buffer.length
  | .SendChunk buffer => IsChunk buffer.length
  | .LockTrailers => fill.fill_state.finished = true
  | .SendTrailers trailers =>
    fill.fill_state.finished = true ∧ fill.fill_state.trailers = some trailers
  | .Ended =>
    match body.last with
    | some (.error _) => True
    | some (.ok trailers) =>
      fill.fill_state.finished = true ∧ fill.fill_state.trailers = some trailers
    | none => fill.fill_state.finished = true ∧ fill.fill_state.trailers = none
  | _ => True

/-- A reader of the file of the fill has sent the bytes before its offset, chunk by chunk. -/
structure InFlightFillBody.Follows (body : InFlightFillBody) (fill : StreamingFill) : Prop where
  stands : body.Stands fill
  offset : body.offset ≤ fill.fill_state.bytes_written
  sent : body.chunks.flatten <+: fill.tmp.written
  position : body.phase ≠ .Dropped →
    body.chunks.flatten ++ body.phase.unsent = fill.tmp.written.take body.offset
  chunks : ∀ chunk ∈ body.chunks, IsChunk chunk.length
  last : body.phase ≠ .Ended → body.phase ≠ .Dropped → body.last = none

def ReaderPhase.opens : ReaderPhase → Bool
  | .OpenTmp | .AskFinished | .OpenBody => true
  | _ => false

/-- It has come too late to the path of the entry, where another file stands. -/
def InFlightFillBody.ReadsOther (body : InFlightFillBody) : Prop :=
  (∃ content, body.opened = some (.Other content)) ∧ body.phase.opens = false

def InFlightFillBody.Ok (body : InFlightFillBody) (fill : StreamingFill) : Prop :=
  body.ReadsOther ∨ body.Follows fill

theorem take_of_grown {α : Type} {l l' : List α} (h : l <+: l') {n : Nat} (hn : n ≤ l.length) :
    l'.take n = l.take n := by
  obtain ⟨more, rfl⟩ := h
  rw [List.take_append_of_le_length hn]

theorem take_drop_of_grown {α : Type} {l l' : List α} (h : l <+: l') {n k : Nat}
    (hn : n + k ≤ l.length) : (l'.drop n).take k = (l.drop n).take k := by
  obtain ⟨more, rfl⟩ := h
  rw [List.drop_append_of_le_length (by omega), List.take_append_of_le_length (by simp; omega)]

section Follows

variable {body : InFlightFillBody} {fill fill' : StreamingFill}

theorem InFlightFillBody.Stands.grows (h : body.Stands fill) (hok : fill.Ok)
    (hgrows : fill.Grows fill') : body.Stands fill' := by
  have hrecorded := hok.recorded
  have hbytes := hgrows.bytes_written
  have hfinished : fill.fill_state.finished = true →
      fill'.fill_state.finished = true ∧
        fill'.fill_state.trailers = fill.fill_state.trailers := by
    intro hfin
    rw [hgrows.finished hfin]
    exact ⟨hfin, rfl⟩
  have hread : ∀ (chunk_len : Nat) (buffer : List UInt8),
      IsChunk chunk_len ∧ buffer.length < chunk_len ∧
        body.offset + chunk_len ≤ fill.fill_state.bytes_written ∧
        buffer = (fill.tmp.written.drop body.offset).take buffer.length →
      IsChunk chunk_len ∧ buffer.length < chunk_len ∧
        body.offset + chunk_len ≤ fill'.fill_state.bytes_written ∧
        buffer = (fill'.tmp.written.drop body.offset).take buffer.length := by
    intro chunk_len buffer hread
    obtain ⟨hchunk, hlength, hannounced, hbuffer⟩ := hread
    refine ⟨hchunk, hlength, by omega, ?_⟩
    rw [take_drop_of_grown hgrows.written (by omega)]
    exact hbuffer
  unfold InFlightFillBody.Stands at h ⊢
  cases hphase : body.phase with
  | Read chunk_len buffer =>
    rw [hphase] at h
    exact hread chunk_len buffer h
  | ReadNothing chunk_len buffer =>
    rw [hphase] at h
    exact hread chunk_len buffer h
  | LockTrailers =>
    rw [hphase] at h
    exact (hfinished h).1
  | SendTrailers trailers =>
    rw [hphase] at h
    exact ⟨(hfinished h.1).1, (hfinished h.1).2.trans h.2⟩
  | Ended =>
    rw [hphase] at h
    dsimp only at h ⊢
    split
    · trivial
    · rename_i trailers hlast
      rw [hlast] at h
      exact ⟨(hfinished h.1).1, (hfinished h.1).2.trans h.2⟩
    · rename_i hlast
      rw [hlast] at h
      exact ⟨(hfinished h.1).1, (hfinished h.1).2.trans h.2⟩
  | _ =>
    rw [hphase] at h
    exact h

theorem InFlightFillBody.Follows.grows (h : body.Follows fill) (hok : fill.Ok)
    (hgrows : fill.Grows fill') : body.Follows fill' where
  stands := h.stands.grows hok hgrows
  offset := h.offset.trans hgrows.bytes_written
  sent := h.sent.trans hgrows.written
  position := by
    intro hphase
    rw [take_of_grown hgrows.written (h.offset.trans hok.recorded)]
    exact h.position hphase
  chunks := h.chunks
  last := h.last

/-- What a read adds to the buffer comes next in the file. -/
theorem read_comes_next {written buffer : List UInt8} {offset visible count : Nat}
    (hbuffer : buffer = (written.drop offset).take buffer.length) :
    let filled := buffer ++ ((written.take visible).drop (offset + buffer.length)).take count
    filled = (written.drop offset).take filled.length := by
  intro filled
  set more := ((written.take visible).drop (offset + buffer.length)).take count with hmore
  have hprefix : more <+: written.drop (offset + buffer.length) :=
    (List.take_prefix _ _).trans ((List.take_prefix _ _).drop _)
  have hnext : more = (written.drop (offset + buffer.length)).take more.length :=
    List.prefix_iff_eq_take.mp hprefix
  calc filled = buffer ++ more := rfl
    _ = (written.drop offset).take buffer.length ++
        ((written.drop offset).drop buffer.length).take more.length := by
      rw [List.drop_drop, ← hnext, ← hbuffer]
    _ = (written.drop offset).take (buffer.length + more.length) := (List.take_add ..).symm
    _ = (written.drop offset).take filled.length := by rw [List.length_append]

/-- A reader with nothing at hand goes on to a phase with nothing at hand. -/
theorem InFlightFillBody.Follows.goes_on (h : body.Follows fill) (hreads : body.phase.reads)
    {phase : ReaderPhase} {opened : Option OpenedFile} (hphase : phase.unsent = [])
    (hstands : InFlightFillBody.Stands { body with phase, opened } fill) :
    InFlightFillBody.Follows { body with phase, opened } fill where
  stands := hstands
  offset := h.offset
  sent := h.sent
  position := by
    intro _
    have hposition := h.position (reads_cases hreads).1
    rw [(reads_cases hreads).2.2] at hposition
    rw [hphase]
    exact hposition
  chunks := h.chunks
  last := fun _ _ => h.last (reads_cases hreads).2.1 (reads_cases hreads).1

/-- A reader with nothing at hand sends the last of what it gives. -/
theorem InFlightFillBody.Follows.ends (h : body.Follows fill) (hreads : body.phase.reads)
    {last : Except FillReadError HeaderMap}
    (hstands : InFlightFillBody.Stands { body with last := some last, phase := .Ended } fill) :
    InFlightFillBody.Follows { body with last := some last, phase := .Ended } fill where
  stands := hstands
  offset := h.offset
  sent := h.sent
  position := by
    intro _
    have hposition := h.position (reads_cases hreads).1
    rw [(reads_cases hreads).2.2] at hposition
    exact hposition
  chunks := h.chunks
  last := fun hended => absurd rfl hended

theorem InFlightFillBody.Follows.dropped (h : body.Follows fill) :
    InFlightFillBody.Follows { body with phase := .Dropped } fill where
  stands := trivial
  offset := h.offset
  sent := h.sent
  position := fun hphase => absurd rfl hphase
  chunks := h.chunks
  last := fun _ hdropped => absurd rfl hdropped

/-- A file stays open. -/
theorem step_reads_other (h : body.ReadsOther) (outcome : ReadOutcome) {tmp : TmpFile}
    {body_path : Option OpenedFile} {state : CacheFillReadState} :
    (body.step tmp body_path state outcome).ReadsOther := by
  obtain ⟨⟨content, hopened⟩, hopens⟩ := h
  have hkept : (body.step tmp body_path state outcome).opened = body.opened ∧
      (body.step tmp body_path state outcome).phase.opens = false := by
    unfold InFlightFillBody.step InFlightFillBody.read
    grind [ReaderPhase.opens]
  exact ⟨⟨content, hkept.1.trans hopened⟩, hkept.2⟩

theorem follows_new (fill : StreamingFill) : InFlightFillBody.new.Follows fill where
  stands := rfl
  offset := Nat.zero_le _
  sent := List.nil_prefix
  position := fun _ => rfl
  chunks := by simp [InFlightFillBody.new]
  last := fun _ _ => rfl

/-- A read gives nothing, or the bytes that come next, up to the end of the chunk. -/
theorem read_follows (h : body.Follows fill) (hok : fill.Ok) {chunk_len count : Nat}
    {buffer : List UInt8} (hphase : body.phase = .Read chunk_len buffer) :
    (body.read (fill.tmp.content .Own) chunk_len buffer count).Follows fill := by
  have hstands := h.stands
  unfold InFlightFillBody.Stands at hstands
  rw [hphase] at hstands
  obtain ⟨hchunk, hlength, hannounced, hbuffer⟩ := hstands
  have hreads : body.phase.reads := by rw [hphase]; rfl
  have hposition := h.position (reads_cases hreads).1
  have hlast := h.last (reads_cases hreads).2.1 (reads_cases hreads).1
  have hrecorded := hok.recorded
  rw [(reads_cases hreads).2.2, List.append_nil] at hposition
  unfold InFlightFillBody.read
  dsimp only
  split
  · exact h.goes_on hreads rfl ⟨hchunk, hlength, hannounced, hbuffer⟩
  set filled := buffer ++ ((fill.tmp.content .Own).drop (body.offset + buffer.length)).take
    (min (max 1 count) (chunk_len - buffer.length)) with hfilled
  have hnext : filled = (fill.tmp.written.drop body.offset).take filled.length :=
    read_comes_next hbuffer
  have hle : filled.length ≤ chunk_len := by
    simp only [hfilled, List.length_append, List.length_take]
    omega
  split
  · rename_i hshort
    exact h.goes_on hreads rfl ⟨hchunk, hshort, hannounced, hnext⟩
  · rename_i hfull
    have hfull : filled.length = chunk_len := by omega
    refine ⟨?_, hannounced, h.sent, fun _ => ?_, h.chunks, fun _ _ => hlast⟩
    · change IsChunk filled.length
      rw [hfull]
      exact hchunk
    · change body.chunks.flatten ++ filled = fill.tmp.written.take (body.offset + chunk_len)
      rw [hposition, List.take_add, ← hfull, ← hnext]

/-- The phases that open a file. -/
theorem open_follows (h : body.Follows fill)
    (hphase : body.phase = .OpenTmp ∨ body.phase = .AskFinished ∨ body.phase = .OpenBody)
    (outcome : ReadOutcome) :
    (body.step fill.tmp fill.body_path fill.fill_state outcome).Ok fill := by
  have hstands := h.stands
  unfold InFlightFillBody.Stands at hstands
  unfold InFlightFillBody.step
  rcases hphase with hphase | hphase | hphase
  · rw [hphase] at hstands ⊢
    have hreads : body.phase.reads := by rw [hphase]; rfl
    dsimp only
    split
    · exact .inr (h.goes_on hreads rfl trivial)
    · split
      · exact .inr (h.goes_on hreads rfl trivial)
      · exact .inr (h.goes_on hreads rfl hstands)
  · rw [hphase] at hstands ⊢
    have hreads : body.phase.reads := by rw [hphase]; rfl
    dsimp only
    split
    · exact .inr (h.goes_on hreads rfl hstands)
    · exact .inr (h.goes_on hreads rfl trivial)
  · rw [hphase] at hstands ⊢
    have hreads : body.phase.reads := by rw [hphase]; rfl
    dsimp only
    split
    · rename_i file _ _
      cases file with
      | Own => exact .inr (h.goes_on hreads rfl trivial)
      | Other content => exact .inl ⟨⟨content, rfl⟩, rfl⟩
    · exact .inr (h.goes_on hreads rfl trivial)
    · exact .inr (h.goes_on hreads rfl trivial)

theorem step_follows (h : body.Follows fill) (hok : fill.Ok) (outcome : ReadOutcome) :
    (body.step fill.tmp fill.body_path fill.fill_state outcome).Ok fill := by
  have hstands := h.stands
  unfold InFlightFillBody.Stands at hstands
  cases hphase : body.phase with
  | OpenTmp => exact open_follows h (.inl hphase) outcome
  | AskFinished => exact open_follows h (.inr (.inl hphase)) outcome
  | OpenBody => exact open_follows h (.inr (.inr hphase)) outcome
  | LoadBytesWritten =>
    have hreads : body.phase.reads := by rw [hphase]; rfl
    right
    unfold InFlightFillBody.step
    rw [hphase]
    dsimp only
    split
    · rename_i hmore
      have hchunk : IsChunk (min (fill.fill_state.bytes_written - body.offset)
          IN_FLIGHT_FILL_READ_CHUNK_BYTES) := by
        unfold IsChunk IN_FLIGHT_FILL_READ_CHUNK_BYTES
        omega
      refine h.goes_on hreads rfl ⟨hchunk, hchunk.1, ?_, by simp⟩
      dsimp only
      omega
    · exact h.goes_on hreads rfl trivial
  | Read chunk_len buffer =>
    have hreads : body.phase.reads := by rw [hphase]; rfl
    unfold InFlightFillBody.step
    rw [hphase]
    dsimp only
    split
    · rename_i file _ hopened
      cases file with
      | Own => exact .inr (read_follows h hok hphase)
      | Other content =>
        left
        unfold InFlightFillBody.read
        dsimp only
        split
        · exact ⟨⟨content, hopened⟩, rfl⟩
        · split <;> exact ⟨⟨content, hopened⟩, rfl⟩
    · exact .inr h
    · exact .inr (h.goes_on hreads rfl trivial)
  | ReadNothing chunk_len buffer =>
    have hreads : body.phase.reads := by rw [hphase]; rfl
    rw [hphase] at hstands
    right
    unfold InFlightFillBody.step
    rw [hphase]
    dsimp only
    split
    · exact h.goes_on hreads rfl trivial
    · exact h.goes_on hreads rfl hstands
  | SendChunk buffer =>
    rw [hphase] at hstands
    have hposition := h.position (by simp [hphase])
    rw [hphase] at hposition
    change body.chunks.flatten ++ buffer = _ at hposition
    right
    unfold InFlightFillBody.step
    rw [hphase]
    refine ⟨trivial, h.offset, ?_, fun _ => ?_, ?_, fun _ _ => h.last (by simp [hphase])
      (by simp [hphase])⟩
    · simp only [List.flatten_append, List.flatten_singleton, hposition]
      exact List.take_prefix _ _
    · simp [ReaderPhase.unsent, hposition]
    · intro chunk hchunk
      rcases List.mem_append.mp hchunk with hchunk | hchunk
      · exact h.chunks chunk hchunk
      · obtain rfl := List.mem_singleton.mp hchunk
        exact hstands
  | LoadError =>
    have hreads : body.phase.reads := by rw [hphase]; rfl
    right
    unfold InFlightFillBody.step
    rw [hphase]
    dsimp only
    split <;> exact h.goes_on hreads rfl trivial
  | LoadFinished =>
    have hreads : body.phase.reads := by rw [hphase]; rfl
    right
    unfold InFlightFillBody.step
    rw [hphase]
    dsimp only
    split
    · rename_i hfinished
      exact h.goes_on hreads rfl hfinished
    · exact h.goes_on hreads rfl trivial
  | LockTrailers =>
    have hreads : body.phase.reads := by rw [hphase]; rfl
    have hlast := h.last (by simp [hphase]) (by simp [hphase])
    rw [hphase] at hstands
    right
    unfold InFlightFillBody.step
    rw [hphase]
    dsimp only
    split
    · rename_i trailers htrailers
      exact h.goes_on hreads rfl ⟨hstands, htrailers⟩
    · rename_i htrailers
      refine h.goes_on hreads rfl ?_
      unfold InFlightFillBody.Stands
      dsimp only
      rw [hlast]
      exact ⟨hstands, htrailers⟩
  | SendTrailers trailers =>
    have hreads : body.phase.reads := by rw [hphase]; rfl
    rw [hphase] at hstands
    right
    unfold InFlightFillBody.step
    rw [hphase]
    exact h.ends hreads hstands
  | SendError error =>
    have hreads : body.phase.reads := by rw [hphase]; rfl
    right
    unfold InFlightFillBody.step
    rw [hphase]
    exact h.ends hreads trivial
  | Ended =>
    right
    unfold InFlightFillBody.step
    rw [hphase]
    exact h
  | Dropped =>
    right
    unfold InFlightFillBody.step
    rw [hphase]
    exact h

end Follows

/-! ## All readers -/

/-- The reader after a step is the reader before it, or a new one, or one that has taken a step. -/
theorem reader_step (fill : StreamingFill) (event : FillEvent) {reader : Nat}
    {body' : InFlightFillBody} (h : (fill.step event).readers[reader]? = some body') :
    fill.readers[reader]? = some body' ∨ body' = .new ∨
      (∃ body, fill.readers[reader]? = some body ∧ ∃ outcome, event.is_write = false ∧
        body' = body.step fill.tmp fill.body_path fill.fill_state outcome) ∨
      ∃ body, fill.readers[reader]? = some body ∧ body' = { body with phase := .Dropped } := by
  cases event with
  | poll_frame answer =>
    left
    have hreaders : (fill.poll_frame answer).readers = fill.readers := by
      unfold StreamingFill.poll_frame
      grind
    exact hreaders ▸ h
  | drop_body =>
    left
    have hreaders : fill.drop_body.readers = fill.readers := by
      unfold StreamingFill.drop_body
      grind
    exact hreaders ▸ h
  | produce =>
    left
    have hreaders : fill.produce.readers = fill.readers := by
      unfold StreamingFill.produce StreamingFill.sends
      grind
    exact hreaders ▸ h
  | write outcome =>
    left
    have hreaders : (fill.write outcome).readers = fill.readers := by
      unfold StreamingFill.write StreamingFill.rename_body
      grind
    exact hreaders ▸ h
  | sync count => exact .inl h
  | replace_body content =>
    left
    have hreaders : (fill.replace_body content).readers = fill.readers := by
      unfold StreamingFill.replace_body
      grind
    exact hreaders ▸ h
  | join =>
    change (fill.readers ++ [.new])[reader]? = some body' at h
    rw [List.getElem?_append] at h
    split at h
    · exact .inl h
    · exact .inr (.inl (List.mem_singleton.mp (List.mem_of_getElem? h)))
  | read other outcome =>
    change (fill.readers.modify other _)[reader]? = some body' at h
    rw [List.getElem?_modify] at h
    obtain ⟨body, hbody, hsome⟩ := Option.map_eq_some_iff.mp h
    split at hsome
    · exact .inr (.inr (.inl ⟨body, hbody, outcome, rfl, hsome.symm⟩))
    · exact .inl (hbody.trans (congrArg some hsome))
  | drop_reader other =>
    change (fill.readers.modify other _)[reader]? = some body' at h
    rw [List.getElem?_modify] at h
    obtain ⟨body, hbody, hsome⟩ := Option.map_eq_some_iff.mp h
    split at hsome
    · exact .inr (.inr (.inr ⟨body, hbody, hsome.symm⟩))
    · exact .inl (hbody.trans (congrArg some hsome))

def StreamingFill.ReadersOk (fill : StreamingFill) : Prop :=
  fill.Ok ∧ ∀ body ∈ fill.readers, body.Ok fill

theorem readers_step (fill : StreamingFill) (event : FillEvent) (h : fill.ReadersOk) :
    (fill.step event).ReadersOk := by
  obtain ⟨hok, hreaders⟩ := h
  have hgrows := step_grows hok event
  refine ⟨step_ok fill event hok, fun body' hbody' => ?_⟩
  have hlater : ∀ body : InFlightFillBody, body.Ok fill → body.Ok (fill.step event) := by
    rintro body (hother | hfollows)
    · exact .inl hother
    · exact .inr (hfollows.grows hok hgrows)
  obtain ⟨reader, hreader⟩ := List.mem_iff_getElem?.mp hbody'
  rcases reader_step fill event hreader with
    hbody | rfl | ⟨body, hbody, outcome, _, rfl⟩ | ⟨body, hbody, rfl⟩
  · exact hlater _ (hreaders _ (List.mem_of_getElem? hbody))
  · exact .inr (follows_new _)
  · rcases hreaders body (List.mem_of_getElem? hbody) with hother | hfollows
    · exact .inl (step_reads_other hother outcome)
    · exact hlater _ (step_follows hfollows hok outcome)
  · rcases hlater body (hreaders body (List.mem_of_getElem? hbody)) with ⟨hother, _⟩ | hfollows
    · exact .inl ⟨hother, rfl⟩
    · exact .inr (hfollows.dropped)

/-! ## The last looks of a reader -/

/-- No count is recorded while the reader stands between its look at the count and its look at the
end: these are two loads with no lock around them. -/
def LooksUndisturbed (reader : Nat) (fill : StreamingFill) (event : FillEvent) : Prop :=
  event.is_write = true → fill.writer = .RecordBytesWritten →
    ∀ body, fill.readers[reader]? = some body →
      body.phase ≠ .LoadError ∧ body.phase ≠ .LoadFinished

/-- From one of its looks at the count on, and so between its last two looks, the reader is not
disturbed; it may have been before, and the other readers at any time. -/
def LastLooksUndisturbed (reader : Nat) (start : StreamingFill) (events : List FillEvent) : Prop :=
  ∃ earlier later, events = earlier ++ later ∧
    ((after StreamingFill.step start earlier).readers[reader]?).map InFlightFillBody.phase =
      some .LoadBytesWritten ∧
    Along StreamingFill.step (LooksUndisturbed reader) (after StreamingFill.step start earlier) later

/-- A reader that has seen no more to read has read all that is recorded. -/
def InFlightFillBody.CaughtUp (body : InFlightFillBody) (fill : StreamingFill) : Prop :=
  match body.phase with
  | .LoadError | .LoadFinished | .LockTrailers | .SendTrailers _ =>
    body.offset = fill.fill_state.bytes_written
  | .Ended =>
    match body.last with
    | some (.error _) => True
    | _ => body.offset = fill.fill_state.bytes_written
  | _ => True

section CaughtUp

variable {body : InFlightFillBody} {fill fill' : StreamingFill}

theorem caught_up_step (h : body.CaughtUp fill) (hoffset : body.offset ≤ fill.fill_state.bytes_written)
    (outcome : ReadOutcome) :
    (body.step fill.tmp fill.body_path fill.fill_state outcome).CaughtUp fill := by
  unfold InFlightFillBody.CaughtUp at h
  unfold InFlightFillBody.step
  cases hphase : body.phase with
  | LoadBytesWritten =>
    dsimp only
    split
    · trivial
    · change body.offset = fill.fill_state.bytes_written
      omega
  | LoadError =>
    rw [hphase] at h
    dsimp only
    split
    · trivial
    · exact h
  | LoadFinished =>
    rw [hphase] at h
    dsimp only
    split
    · exact h
    · trivial
  | LockTrailers =>
    rw [hphase] at h
    dsimp only
    split
    · exact h
    · unfold InFlightFillBody.CaughtUp
      dsimp only
      split
      · trivial
      · exact h
  | SendTrailers trailers =>
    rw [hphase] at h
    exact h
  | Ended =>
    unfold InFlightFillBody.CaughtUp
    rw [hphase] at h ⊢
    exact h
  | OpenTmp =>
    dsimp only
    split
    · trivial
    · split <;> trivial
  | AskFinished =>
    dsimp only
    split <;> trivial
  | OpenBody =>
    dsimp only
    split <;> trivial
  | Read chunk_len buffer =>
    dsimp only
    split
    · unfold InFlightFillBody.read
      dsimp only
      split
      · trivial
      · split <;> trivial
    · unfold InFlightFillBody.CaughtUp
      rw [hphase]
      trivial
    · trivial
  | ReadNothing chunk_len buffer =>
    dsimp only
    split <;> trivial
  | SendChunk buffer => trivial
  | SendError error => trivial
  | Dropped =>
    unfold InFlightFillBody.CaughtUp
    rw [hphase]
    trivial

/-- Between the two looks the count stays, and behind them it is final. -/
theorem InFlightFillBody.CaughtUp.grows (h : body.CaughtUp fill) (hfollows : body.Follows fill)
    (hgrows : fill.Grows fill')
    (hlooks : body.phase = .LoadError ∨ body.phase = .LoadFinished →
      fill'.fill_state.bytes_written = fill.fill_state.bytes_written) : body.CaughtUp fill' := by
  have hstands := hfollows.stands
  have hfinal : fill.fill_state.finished = true →
      fill'.fill_state.bytes_written = fill.fill_state.bytes_written := by
    intro hfinished
    rw [hgrows.finished hfinished]
  unfold InFlightFillBody.Stands at hstands
  unfold InFlightFillBody.CaughtUp at h ⊢
  cases hphase : body.phase with
  | LoadError =>
    rw [hphase] at h
    exact h.trans (hlooks (.inl hphase)).symm
  | LoadFinished =>
    rw [hphase] at h
    exact h.trans (hlooks (.inr hphase)).symm
  | LockTrailers =>
    rw [hphase] at h hstands
    exact h.trans (hfinal hstands).symm
  | SendTrailers trailers =>
    rw [hphase] at h hstands
    exact h.trans (hfinal hstands.1).symm
  | Ended =>
    rw [hphase] at h hstands
    dsimp only at h hstands ⊢
    cases hlast : body.last with
    | none =>
      rw [hlast] at h hstands
      exact h.trans (hfinal hstands.1).symm
    | some last =>
      rw [hlast] at h hstands
      cases last with
      | error error => trivial
      | ok trailers => exact h.trans (hfinal hstands.1).symm
  | _ => trivial

end CaughtUp

/-- Only the writer changes the count, at one operation. -/
theorem step_bytes_written (fill : StreamingFill) (event : FillEvent) :
    (fill.step event).fill_state.bytes_written = fill.fill_state.bytes_written ∨
      event.is_write = true ∧ fill.writer = .RecordBytesWritten := by
  cases event with
  | poll_frame answer => exact .inl (poll_frame_produced fill answer).bytes_written
  | drop_body => exact .inl (drop_body_produced fill).bytes_written
  | produce => exact .inl (produce_produced fill).bytes_written
  | write outcome =>
    by_cases hwriter : fill.writer = .RecordBytesWritten
    · exact .inr ⟨rfl, hwriter⟩
    · left
      change (fill.write outcome).fill_state.bytes_written = _
      unfold StreamingFill.write StreamingFill.rename_body CacheFillReadState.fail
        CacheFillReadState.store_trailers CacheFillReadState.store_finished
      grind
  | replace_body content =>
    left
    change (fill.replace_body content).fill_state.bytes_written = _
    unfold StreamingFill.replace_body
    grind
  | _ => exact .inl rfl

def StreamingFill.ReaderCaughtUp (reader : Nat) (fill : StreamingFill) : Prop :=
  fill.ReadersOk ∧
    ∀ body, fill.readers[reader]? = some body → body.ReadsOther ∨ body.CaughtUp fill

theorem reader_caught_up_step {reader : Nat} (fill : StreamingFill) (event : FillEvent)
    (h : fill.ReaderCaughtUp reader) (hlooks : LooksUndisturbed reader fill event) :
    (fill.step event).ReaderCaughtUp reader := by
  obtain ⟨⟨hok, hreaders⟩, hcaught⟩ := h
  have hgrows := step_grows hok event
  refine ⟨readers_step fill event ⟨hok, hreaders⟩, fun body' hbody' => ?_⟩
  have hlater : ∀ body : InFlightFillBody, body.Follows fill → body.CaughtUp fill →
      (fill.readers[reader]? = some body ∨ event.is_write = false) →
        body.CaughtUp (fill.step event) := by
    intro body hfollows hcaught hbody
    refine hcaught.grows hfollows hgrows fun hphase => ?_
    rcases step_bytes_written fill event with hsame | ⟨hwrite, hwriter⟩
    · exact hsame
    · rcases hbody with hbody | hbody
      · have hquiet := hlooks hwrite hwriter body hbody
        rcases hphase with hphase | hphase
        · exact absurd hphase hquiet.1
        · exact absurd hphase hquiet.2
      · rw [hwrite] at hbody
        cases hbody
  rcases reader_step fill event hbody' with
    hbody | rfl | ⟨body, hbody, outcome, hwrite, rfl⟩ | ⟨body, hbody, rfl⟩
  · rcases hreaders _ (List.mem_of_getElem? hbody) with hother | hfollows
    · exact .inl hother
    · rcases hcaught _ hbody with hother | hcaught
      · exact .inl hother
      · exact .inr (hlater _ hfollows hcaught (.inl hbody))
  · exact .inr trivial
  · rcases hcaught body hbody with hother | hcaught
    · exact .inl (step_reads_other hother outcome)
    · rcases hreaders body (List.mem_of_getElem? hbody) with hother | hfollows
      · exact .inl (step_reads_other hother outcome)
      · rcases step_follows hfollows hok outcome with hother | hfollows'
        · exact .inl hother
        · exact .inr (hlater _ hfollows' (caught_up_step hcaught hfollows.offset outcome)
            (.inr hwrite))
  · exact .inr trivial

/-! ## Runs -/

theorem start_readers_ok (plan : StreamingCachePlan) (trims : Bool)
    (body_path : Option (List UInt8)) :
    (store_streaming_response plan trims body_path).ReadersOk := by
  refine ⟨store_streaming_response_ok plan trims body_path, fun body hbody => ?_⟩
  have hnew : body = .new := by
    cases trims <;> simp_all [store_streaming_response]
  rw [hnew]
  exact .inr (follows_new _)

/-- A reader that is not disturbed in its last looks has read all that is recorded, where it has
come to an end. -/
theorem caught_up_of_last_looks {start : StreamingFill} (hstart : start.ReadersOk)
    {events : List FillEvent} {reader : Nat} (h : LastLooksUndisturbed reader start events) :
    (after StreamingFill.step start events).ReaderCaughtUp reader := by
  obtain ⟨earlier, later, rfl, hphase, hlooks⟩ := h
  rw [after_append]
  refine after_of_along reader_caught_up_step ?_ hlooks
  refine ⟨after_of_invariant readers_step hstart earlier, fun body hbody => .inr ?_⟩
  have hlook : body.phase = .LoadBytesWritten := by
    rw [hbody] at hphase
    exact Option.some.inj hphase
  unfold InFlightFillBody.CaughtUp
  rw [hlook]
  trivial

/-- The trailers that a reader has sent, where it has come to its end without an error. -/
def InFlightFillBody.last_trailers (body : InFlightFillBody) : Option HeaderMap :=
  match body.last with
  | some (.ok trailers) => some trailers
  | _ => none

/-- In every order of the steps, a reader of the file of the fill has sent a beginning of what the
upstream gave, in chunks that are not empty and not too long. Where it has come to an end without an
error the upstream is complete, with the trailers that it has sent; and it has sent the whole body,
where nothing was recorded between its own two last looks. -/
theorem a_reader_follows_the_upstream (plan : StreamingCachePlan) (trims : Bool)
    (body_path : Option (List UInt8)) (events : List FillEvent) (reader : Nat)
    (body : InFlightFillBody)
    (hreader : (after StreamingFill.step (store_streaming_response plan trims body_path)
      events).readers[reader]? = some body) (hopened : body.opened = some .Own) :
    let start := store_streaming_response plan trims body_path
    let fill := after StreamingFill.step start events
    body.chunks.flatten <+: fill.upstream.received ∧
      (∀ chunk ∈ body.chunks,
        0 < chunk.length ∧ chunk.length ≤ IN_FLIGHT_FILL_READ_CHUNK_BYTES) ∧
      (body.EndedCleanly →
        fill.upstream.completed = some body.last_trailers ∧
          (LastLooksUndisturbed reader start events →
            body.chunks.flatten = fill.upstream.received)) := by
  intro start fill
  have hbody : body ∈ fill.readers := List.mem_of_getElem? hreader
  obtain ⟨hok, hreaders⟩ : fill.ReadersOk :=
    after_of_invariant readers_step (start_readers_ok plan trims body_path) events
  have hown : ¬ body.ReadsOther := by
    rintro ⟨⟨content, hother⟩, _⟩
    rw [hopened] at hother
    cases hother
  have hfollows : body.Follows fill := (hreaders body hbody).resolve_left hown
  refine ⟨hfollows.sent.trans hok.is_received, hfollows.chunks, ?_⟩
  rintro ⟨hphase, hlast⟩
  have hfinal : fill.fill_state.finished = true ∧
      fill.fill_state.trailers = body.last_trailers := by
    have hstands := hfollows.stands
    unfold InFlightFillBody.Stands at hstands
    unfold InFlightFillBody.last_trailers
    rw [hphase] at hstands
    dsimp only at hstands
    cases hcase : body.last with
    | none =>
      rw [hcase] at hstands
      exact hstands
    | some last =>
      rw [hcase] at hstands
      cases last with
      | error error => exact absurd hcase (hlast error)
      | ok trailers => exact hstands
  have hsettled := hok.finished hfinal.1
  refine ⟨hsettled.last.trans (congrArg some hfinal.2), fun hlooks => ?_⟩
  have hcaught : fill.ReaderCaughtUp reader :=
    caught_up_of_last_looks (start_readers_ok plan trims body_path) hlooks
  have hoffset : body.offset = fill.fill_state.bytes_written := by
    have h := (hcaught.2 body hreader).resolve_left hown
    unfold InFlightFillBody.CaughtUp at h
    rw [hphase] at h
    dsimp only at h
    cases hcase : body.last with
    | none =>
      rw [hcase] at h
      exact h
    | some last =>
      rw [hcase] at h
      cases last with
      | error error => exact absurd hcase (hlast error)
      | ok trailers => exact h
  have hposition := hfollows.position (by simp [hphase])
  rw [hphase, hoffset, hsettled.recorded, List.take_length, hsettled.body] at hposition
  simpa [ReaderPhase.unsent] using hposition

/-- A frame of two bytes, the last one, and the writer up to the end of the fill. -/
def oneFrame : List FillEvent :=
  [.poll_frame (.Frame (.Data [1, 2]) true), .produce, .produce] ++
    List.replicate 7 (.write ⟨none, 0⟩)

/-- The reader joins when the fill has ended; its last looks are its fifth operation and its
seventh. -/
theorem a_reader_follows_one_frame :
    let fill := after StreamingFill.step (store_streaming_response threeBytePlan false none)
      (oneFrame ++ .join :: List.replicate 8 (.read 0 ⟨none, 2⟩))
    ∃ body ∈ fill.readers, body.EndedCleanly ∧ body.chunks.flatten = fill.upstream.received ∧
      fill.upstream.completed = some none := by
  intro fill
  have hreader : fill.readers[0]? = some ⟨.Ended, some .Own, 2, [[1, 2]], none⟩ := rfl
  have hclean : InFlightFillBody.EndedCleanly ⟨.Ended, some .Own, 2, [[1, 2]], none⟩ :=
    ⟨rfl, fun _ => by simp⟩
  obtain ⟨hcompleted, hwhole⟩ := (a_reader_follows_the_upstream threeBytePlan false none _ 0 _ hreader
    rfl).2.2 hclean
  refine ⟨_, List.mem_of_getElem? hreader, hclean, hwhole ?_, hcompleted⟩
  refine ⟨oneFrame ++ .join :: List.replicate 4 (.read 0 ⟨none, 2⟩),
    List.replicate 4 (.read 0 ⟨none, 2⟩), rfl, rfl, ?_⟩
  refine along_of_mem ?_ _
  rintro event hevent fill hwrite
  rw [List.eq_of_mem_replicate hevent] at hwrite
  cases hwrite

/-- The first part is written and read, and the reader has looked at how much is written. -/
def upToTheLook (first : List UInt8) : List FillEvent :=
  [.poll_frame (.Frame (.Data first) false), .produce, .write ⟨none, 0⟩, .write ⟨none, 0⟩,
    .write ⟨none, 0⟩, .sync first.length, .join, .read 0 ⟨none, 0⟩, .read 0 ⟨none, 0⟩,
    .read 0 ⟨none, first.length⟩, .read 0 ⟨none, 0⟩, .read 0 ⟨none, 0⟩, .read 0 ⟨none, 0⟩]

/-- The rest is written and the fill ends. -/
def restIsWritten (rest : List UInt8) : List FillEvent :=
  [.poll_frame (.Frame (.Data rest) true), .produce, .produce] ++
    List.replicate 7 (.write ⟨none, 0⟩)

/-- All of it comes while the reader stands between its two looks. -/
def lateRest (first rest : List UInt8) : List FillEvent :=
  upToTheLook first ++ (restIsWritten rest ++ List.replicate 2 (.read 0 ⟨none, 0⟩))

def readerBetween (first : List UInt8) : InFlightFillBody :=
  ⟨.LoadFinished, some .Own, first.length, [first], none⟩

def fillBetween (plan : StreamingCachePlan) (first : List UInt8) : StreamingFill where
  plan
  upstream := ⟨first, none, false⟩
  producer := .Body first.length
  queue := []
  writer := .Receive
  body_size_bytes := first.length
  tmp := ⟨first, first.length, true⟩
  body_path := none
  fill_state := ⟨first.length, false, false, none, none⟩
  committed := none
  readers := [readerBetween first]

theorem first_is_written (plan : StreamingCachePlan) {first : List UInt8} (hfirst : first ≠ [])
    (hsize : first.length ≤ plan.max_entry_bytes) :
    after StreamingFill.step (store_streaming_response plan false none)
        [.poll_frame (.Frame (.Data first) false), .produce, .write ⟨none, 0⟩, .write ⟨none, 0⟩,
          .write ⟨none, 0⟩, .sync first.length] =
      { fillBetween plan first with readers := [] } := by
  have hmax : ¬ plan.max_entry_bytes < first.length := by omega
  simp [after, store_streaming_response, StreamingFill.step, StreamingFill.poll_frame,
    Upstream.ended, Producer.polls, Upstream.receive, frame_data, Producer.on_data, hfirst,
    StreamingFill.produce, hmax, StreamingFill.receiver_open, StreamingFill.has_room,
    StreamingFill.sends, STREAMING_CACHE_WRITE_QUEUE_DEPTH, StreamingFill.write, StreamingFill.sync,
    CacheFillReadState.record_bytes_written, fillBetween]

/-- What is written is read as one chunk, and there is no more to read. -/
theorem reader_looks (plan : StreamingCachePlan) {first : List UInt8} (hfirst : first ≠ [])
    (hchunk : first.length ≤ IN_FLIGHT_FILL_READ_CHUNK_BYTES) :
    after StreamingFill.step { fillBetween plan first with readers := [] }
        [.join, .read 0 ⟨none, 0⟩, .read 0 ⟨none, 0⟩, .read 0 ⟨none, first.length⟩,
          .read 0 ⟨none, 0⟩, .read 0 ⟨none, 0⟩, .read 0 ⟨none, 0⟩] =
      fillBetween plan first := by
  have hpos : 0 < first.length := List.length_pos_iff.mpr hfirst
  have hone : max 1 first.length = first.length := by omega
  have hmin : min first.length IN_FLIGHT_FILL_READ_CHUNK_BYTES = first.length := by omega
  let step (body : InFlightFillBody) (count : Nat) : InFlightFillBody :=
    body.step ⟨first, first.length, true⟩ none ⟨first.length, false, false, none, none⟩
      ⟨none, count⟩
  have hopens : step .new 0 = ⟨.LoadBytesWritten, some .Own, 0, [], none⟩ := rfl
  have hlooks : step ⟨.LoadBytesWritten, some .Own, 0, [], none⟩ 0 =
      ⟨.Read first.length [], some .Own, 0, [], none⟩ := by
    simp [step, InFlightFillBody.step, hpos, hmin]
  have hreads : step ⟨.Read first.length [], some .Own, 0, [], none⟩ first.length =
      ⟨.SendChunk first, some .Own, first.length, [], none⟩ := by
    simp [step, InFlightFillBody.step, InFlightFillBody.read, TmpFile.content, hfirst, hone]
  have hsends : step ⟨.SendChunk first, some .Own, first.length, [], none⟩ 0 =
      ⟨.LoadBytesWritten, some .Own, first.length, [first], none⟩ := rfl
  have hlooks_again : step ⟨.LoadBytesWritten, some .Own, first.length, [first], none⟩ 0 =
      ⟨.LoadError, some .Own, first.length, [first], none⟩ := by
    simp [step, InFlightFillBody.step]
  have hgoes_on : step ⟨.LoadError, some .Own, first.length, [first], none⟩ 0 =
      readerBetween first := rfl
  change { fillBetween plan first with
    readers := [step (step (step (step (step (step .new 0) 0) first.length) 0) 0) 0] } = _
  rw [hopens, hlooks, hreads, hsends, hlooks_again, hgoes_on]
  rfl

theorem up_to_the_look (plan : StreamingCachePlan) {first : List UInt8} (hfirst : first ≠ [])
    (hchunk : first.length ≤ IN_FLIGHT_FILL_READ_CHUNK_BYTES)
    (hsize : first.length ≤ plan.max_entry_bytes) :
    after StreamingFill.step (store_streaming_response plan false none) (upToTheLook first) =
      fillBetween plan first := by
  rw [← reader_looks plan hfirst hchunk, ← first_is_written plan hfirst hsize, ← after_append]
  rfl

theorem rest_is_written (plan : StreamingCachePlan) {first rest : List UInt8} (hrest : rest ≠ [])
    (hsize : first.length + rest.length ≤ plan.max_entry_bytes) :
    let fill := after StreamingFill.step (fillBetween plan first) (restIsWritten rest)
    fill.upstream = ⟨first ++ rest, some none, false⟩ ∧ fill.fill_state.finished = true ∧
      fill.fill_state.trailers = none ∧ fill.readers = [readerBetween first] := by
  have hmax : ¬ plan.max_entry_bytes < first.length + rest.length := by omega
  simp [after, restIsWritten, fillBetween, StreamingFill.step, StreamingFill.poll_frame,
    Upstream.ended, Producer.polls, Upstream.receive, Upstream.complete, frame_data,
    Producer.on_data, Producer.asks_is_end_stream, hrest, StreamingFill.produce, hmax,
    StreamingFill.receiver_open, StreamingFill.has_room, StreamingFill.sends,
    STREAMING_CACHE_WRITE_QUEUE_DEPTH, StreamingFill.write,
    CacheFillReadState.record_bytes_written, CacheFillReadState.store_trailers,
    CacheFillReadState.store_finished]

/-- The second look finds the end, and no trailers. -/
theorem between_ends {fill : StreamingFill} {first : List UInt8}
    (hfinished : fill.fill_state.finished = true) (htrailers : fill.fill_state.trailers = none)
    (hreaders : fill.readers = [readerBetween first]) :
    let fill' := after StreamingFill.step fill (List.replicate 2 (.read 0 ⟨none, 0⟩))
    fill'.upstream = fill.upstream ∧
      fill'.readers = [⟨.Ended, some .Own, first.length, [first], none⟩] := by
  simp [after, StreamingFill.step, hreaders, readerBetween, InFlightFillBody.step, hfinished,
    htrailers]

/-- The two looks are needed: a body that comes in two parts may reach a reader without the second
one, and with an end that is clean. -/
theorem a_reader_may_end_early (plan : StreamingCachePlan) {first rest : List UInt8}
    (hfirst : first ≠ []) (hchunk : first.length ≤ IN_FLIGHT_FILL_READ_CHUNK_BYTES)
    (hrest : rest ≠ []) (hsize : first.length + rest.length ≤ plan.max_entry_bytes) :
    let fill := after StreamingFill.step (store_streaming_response plan false none)
      (lateRest first rest)
    fill.upstream = ⟨first ++ rest, some none, false⟩ ∧
      ∃ body ∈ fill.readers, body.opened = some .Own ∧ body.EndedCleanly ∧
        body.chunks.flatten = first := by
  intro fill
  have hbetween := up_to_the_look plan hfirst hchunk (Nat.le_of_add_right_le hsize)
  obtain ⟨hupstream, hfinished, htrailers, hreaders⟩ := rest_is_written plan hrest hsize
  obtain ⟨hgiven, hends⟩ := between_ends hfinished htrailers hreaders
  have hfill : fill = after StreamingFill.step
      (after StreamingFill.step (fillBetween plan first) (restIsWritten rest))
      (List.replicate 2 (.read 0 ⟨none, 0⟩)) := by
    rw [← after_append, ← hbetween, ← after_append]
    rfl
  rw [hfill]
  refine ⟨hgiven.trans hupstream, _, hends ▸ List.mem_singleton_self _, rfl,
    ⟨rfl, fun _ => by simp⟩, ?_⟩
  simp

theorem a_reader_may_end_early_of_two_bytes :
    let fill := after StreamingFill.step (store_streaming_response threeBytePlan false none)
      (lateRest [1] [2])
    fill.upstream.received = [1, 2] ∧
      ∃ body ∈ fill.readers, body.EndedCleanly ∧ body.chunks.flatten = [1] := by
  intro fill
  obtain ⟨hupstream, body, hbody, _, hclean, hchunks⟩ :=
    @a_reader_may_end_early threeBytePlan [1] [2] (by simp) (by decide) (by simp) (by decide)
  exact ⟨congrArg Upstream.received hupstream, body, hbody, hclean, hchunks⟩

end rginx.cache.streaming
