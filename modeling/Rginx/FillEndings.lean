-- How a fill ends: once nobody holds the sending end of its queue, the writer returns after a number
-- of its own operations that does not depend on the body, and leaves no temporary file.
import Rginx.FilledBodies

open step_runs

namespace rginx.cache.streaming

/-! ## The queue -/

theorem produce_queue {fill : StreamingFill}
    (h : fill.queue.length ≤ STREAMING_CACHE_WRITE_QUEUE_DEPTH) :
    fill.produce.queue.length ≤ STREAMING_CACHE_WRITE_QUEUE_DEPTH := by
  have hsends : fill.has_room = true → ∀ message producer,
      (fill.sends message producer).queue.length ≤ STREAMING_CACHE_WRITE_QUEUE_DEPTH := by
    intro hroom message producer
    have hlt : fill.queue.length < STREAMING_CACHE_WRITE_QUEUE_DEPTH := by
      simpa [StreamingFill.has_room] using hroom
    simpa [StreamingFill.sends] using hlt
  unfold StreamingFill.produce
  split
  · dsimp only
    split
    · exact h
    · split
      · rename_i hroom
        exact hsends (Bool.and_elim_right hroom) _ _
      · exact h
  · exact h
  · split
    · rename_i hroom
      exact hsends (Bool.and_elim_right hroom) _ _
    · exact h
  · split
    · rename_i hroom
      exact hsends (Bool.and_elim_right hroom) _ _
    · exact h
  · split
    · exact h
    · split
      · rename_i hroom
        exact hsends hroom _ _
      · exact h
  · split
    · exact h
    · split
      · rename_i hroom
        exact hsends hroom _ _
      · exact h
  all_goals exact h

theorem write_queue (fill : StreamingFill) (outcome : WriteOutcome) :
    (fill.write outcome).queue.length ≤ fill.queue.length := by
  unfold StreamingFill.write
  split
  · split
    · split
      · exact Nat.le_refl _
      · exact Nat.le_refl _
    · rename_i message queue hqueue
      simp [hqueue]
  all_goals grind [StreamingFill.rename_body]

theorem poll_frame_keeps (fill : StreamingFill) (answer : UpstreamPoll) :
    (fill.poll_frame answer).queue = fill.queue := by
  unfold StreamingFill.poll_frame
  grind

theorem queue_step (fill : StreamingFill) (event : FillEvent)
    (h : fill.queue.length ≤ STREAMING_CACHE_WRITE_QUEUE_DEPTH) :
    (fill.step event).queue.length ≤ STREAMING_CACHE_WRITE_QUEUE_DEPTH := by
  cases event with
  | poll_frame answer => exact (congrArg List.length (poll_frame_keeps fill answer)).trans_le h
  | drop_body =>
    change fill.drop_body.queue.length ≤ _
    unfold StreamingFill.drop_body
    split <;> exact h
  | produce => exact produce_queue h
  | write outcome => exact (write_queue fill outcome).trans h
  | replace_body content =>
    unfold StreamingFill.step StreamingFill.replace_body
    grind
  | _ => exact h

/-! ## The operations that are left -/

/-- The most operations that the writer has left when nobody sends any more. -/
def StreamingFill.left (fill : StreamingFill) : Nat :=
  match fill.writer with
  | .Receive => 12 + 3 * fill.queue.length
  | .RecordBytesWritten => 13 + 3 * fill.queue.length
  | .WriteAll _ => 14 + 3 * fill.queue.length
  | .Flush _ => 11
  | .StoreTrailers _ => 10
  | .StoreFinished => 9
  | .CheckSize => 8
  | .PrepareResponseHead => 7
  | .CreateDir => 6
  | .WriteMetadata => 5
  | .RenameBody => 4
  | .RenameMetadata => 3
  | .UpdateIndex => 1
  | .Fail _ _ => 4
  | .FlushAborted => 3
  | .RemoveTmp _ => 2
  | .RemoveFinal => 1
  | .Done => 0

theorem left_le {fill : StreamingFill}
    (h : fill.queue.length ≤ STREAMING_CACHE_WRITE_QUEUE_DEPTH) :
    fill.left ≤ 14 + 3 * STREAMING_CACHE_WRITE_QUEUE_DEPTH := by
  unfold StreamingFill.left
  split <;> omega

theorem left_eq_zero {fill : StreamingFill} (h : fill.left = 0) : fill.writer = .Done := by
  unfold StreamingFill.left at h
  split at h <;> omega

/-- Each operation of the writer counts. -/
theorem left_write {fill : StreamingFill} (hgone : fill.producer.holds_sender = false)
    (hwriter : fill.writer ≠ .Done) (outcome : WriteOutcome) :
    (fill.write outcome).left < fill.left := by
  unfold StreamingFill.write
  cases hcase : fill.writer with
  | Receive =>
    cases hqueue : fill.queue with
    | nil => simp [hgone, StreamingFill.left, hcase, hqueue]
    | cons message queue =>
      cases message <;> simp [StreamingFill.left, hcase, hqueue] <;> omega
  | WriteAll bytes =>
    cases outcome.error <;> simp [StreamingFill.left, hcase]
    omega
  | Flush trailers => cases outcome.error <;> simp [StreamingFill.left, hcase]
  | CheckSize =>
    rcases check_size_cases fill with h | ⟨reason, h⟩ | ⟨h, _⟩ <;>
      simp [StreamingFill.left, hcase, h]
  | PrepareResponseHead => cases outcome.error <;> simp [StreamingFill.left, hcase]
  | CreateDir => cases outcome.error <;> simp [StreamingFill.left, hcase]
  | WriteMetadata => cases outcome.error <;> simp [StreamingFill.left, hcase]
  | RenameBody =>
    dsimp only
    split <;> simp [StreamingFill.left, hcase]
  | RenameMetadata => cases outcome.error <;> simp [StreamingFill.left, hcase]
  | Fail reason flushes => cases flushes <;> simp [StreamingFill.left, hcase]
  | RemoveTmp remove_final => cases remove_final <;> simp [StreamingFill.left, hcase]
  | Done => exact absurd hcase hwriter
  | _ => simp [StreamingFill.left, hcase]

theorem left_congr {fill fill' : StreamingFill} (hwriter : fill'.writer = fill.writer)
    (hqueue : fill'.queue = fill.queue) : fill'.left = fill.left := by
  unfold StreamingFill.left
  rw [hwriter, hqueue]

/-- A body without its writer, or nobody, reads the upstream. -/
theorem holds_sender_false {producer : Producer} (h : producer.holds_sender = false) :
    producer = .Passing ∨ producer = .Gone := by
  cases producer <;> simp_all [Producer.holds_sender]

/-- Nobody gets the sending end again, and nothing comes into the queue without it. -/
theorem gone_step {fill : StreamingFill} (hgone : fill.producer.holds_sender = false)
    (event : FillEvent) :
    (fill.step event).producer.holds_sender = false ∧
      (event.is_write = false → (fill.step event).left = fill.left) := by
  have hcases := holds_sender_false hgone
  cases event with
  | poll_frame answer =>
    have hwriter := (poll_frame_produced fill answer).writer
    refine ⟨?_, fun _ => left_congr hwriter (poll_frame_keeps fill answer)⟩
    unfold StreamingFill.step StreamingFill.poll_frame
    rcases hcases with h | h <;>
      grind [Producer.on_data, Producer.on_end, Producer.on_error, Producer.holds_sender]
  | drop_body =>
    unfold StreamingFill.step StreamingFill.drop_body
    rcases hcases with h | h
    · simp [h, Producer.holds_sender, StreamingFill.left]
    · simp [h, Producer.holds_sender]
  | produce =>
    unfold StreamingFill.step StreamingFill.produce
    rcases hcases with h | h <;> simp [h, Producer.holds_sender]
  | write outcome =>
    refine ⟨?_, fun h => by cases h⟩
    unfold StreamingFill.step StreamingFill.write
    grind [StreamingFill.rename_body]
  | replace_body content =>
    unfold StreamingFill.step StreamingFill.replace_body
    grind [StreamingFill.left]
  | _ => exact ⟨hgone, fun _ => rfl⟩

theorem done_step {fill : StreamingFill} (h : fill.writer = .Done) (event : FillEvent) :
    (fill.step event).writer = .Done := by
  cases event with
  | poll_frame answer => exact (poll_frame_produced fill answer).writer.trans h
  | drop_body => exact (drop_body_produced fill).writer.trans h
  | produce => exact (produce_produced fill).writer.trans h
  | write outcome =>
    unfold StreamingFill.step StreamingFill.write
    rw [h]
    exact h
  | replace_body content =>
    unfold StreamingFill.step StreamingFill.replace_body
    grind
  | _ => exact h

/-- The writer returns once it has had its operations. -/
theorem writer_returns {fill : StreamingFill} (hgone : fill.producer.holds_sender = false)
    (events : List FillEvent) (h : fill.left ≤ events.countP FillEvent.is_write) :
    (after StreamingFill.step fill events).writer = .Done := by
  induction events generalizing fill with
  | nil => exact left_eq_zero (Nat.le_zero.mp h)
  | cons event events ih =>
    by_cases hdone : fill.writer = .Done
    · exact @after_of_invariant _ _ _ (fun fill : StreamingFill => fill.writer = .Done)
        (fun fill event h => done_step h event) _ hdone (event :: events)
    · obtain ⟨hgone', hleft⟩ := gone_step hgone event
      apply ih hgone'
      rw [List.countP_cons] at h
      cases hwrite : event.is_write with
      | false =>
        rw [hleft hwrite]
        simpa [hwrite] using h
      | true =>
        cases event with
        | write outcome =>
          have hless := left_write hgone hdone outcome
          simp only [hwrite, if_true] at h
          exact Nat.le_of_lt_succ (hless.trans_le h)
        | _ => cases hwrite

/-! ## The temporary file -/

/-- The operations that end the temporary file do not fail: its removal, and making the directory
before the commit, whose error leaves the file. -/
def FilesRemoved (fill : StreamingFill) (event : FillEvent) : Prop :=
  match event with
  | .write outcome =>
    (fill.writer = .CreateDir ∨ ∃ remove_final, fill.writer = .RemoveTmp remove_final) →
      outcome.error = none
  | _ => True

/-- The temporary file is gone behind its rename or its removal. -/
def StreamingFill.Tidy (fill : StreamingFill) : Prop :=
  match fill.writer with
  | .RenameMetadata | .UpdateIndex | .RemoveFinal | .Done => fill.tmp.linked = false
  | _ => True

theorem tidy_congr {fill fill' : StreamingFill} (hwriter : fill'.writer = fill.writer)
    (htmp : fill'.tmp.linked = fill.tmp.linked) (h : fill.Tidy) : fill'.Tidy := by
  unfold StreamingFill.Tidy at h ⊢
  rw [hwriter, htmp]
  exact h

theorem tidy_write {fill : StreamingFill} (h : fill.Tidy) {outcome : WriteOutcome}
    (hremoved : FilesRemoved fill (.write outcome)) : (fill.write outcome).Tidy := by
  unfold StreamingFill.Tidy at h
  unfold FilesRemoved at hremoved
  unfold StreamingFill.write
  cases hwriter : fill.writer with
  | Receive =>
    cases hqueue : fill.queue with
    | nil => cases hsender : fill.producer.holds_sender <;> simp [StreamingFill.Tidy, hwriter]
    | cons message queue => cases message <;> simp [StreamingFill.Tidy]
  | WriteAll bytes => cases outcome.error <;> simp [StreamingFill.Tidy]
  | Flush trailers => cases outcome.error <;> simp [StreamingFill.Tidy]
  | CheckSize =>
    rcases check_size_cases fill with hcase | ⟨reason, hcase⟩ | ⟨hcase, _⟩ <;>
      simp [StreamingFill.Tidy, hcase]
  | PrepareResponseHead => cases outcome.error <;> simp [StreamingFill.Tidy]
  | CreateDir =>
    have hnone := hremoved (.inl hwriter)
    simp [StreamingFill.Tidy, hnone]
  | WriteMetadata => cases outcome.error <;> simp [StreamingFill.Tidy]
  | RenameBody =>
    dsimp only
    split <;> simp [StreamingFill.Tidy, StreamingFill.rename_body]
  | RenameMetadata =>
    rw [hwriter] at h
    cases outcome.error <;> simp [StreamingFill.Tidy, h]
  | UpdateIndex =>
    rw [hwriter] at h
    exact h
  | Fail reason flushes => cases flushes <;> simp [StreamingFill.Tidy]
  | RemoveTmp remove_final =>
    have hnone := hremoved (.inr ⟨remove_final, hwriter⟩)
    cases remove_final <;> simp [StreamingFill.Tidy, hnone]
  | RemoveFinal =>
    rw [hwriter] at h
    exact h
  | Done =>
    rw [hwriter] at h
    unfold StreamingFill.Tidy
    rw [hwriter]
    exact h
  | _ => trivial

theorem tidy_step (fill : StreamingFill) (event : FillEvent) (h : fill.Tidy)
    (hremoved : FilesRemoved fill event) : (fill.step event).Tidy := by
  cases event with
  | poll_frame answer =>
    have hproduced := poll_frame_produced fill answer
    exact tidy_congr hproduced.writer (congrArg TmpFile.linked hproduced.tmp) h
  | drop_body =>
    have hproduced := drop_body_produced fill
    exact tidy_congr hproduced.writer (congrArg TmpFile.linked hproduced.tmp) h
  | produce =>
    have hproduced := produce_produced fill
    exact tidy_congr hproduced.writer (congrArg TmpFile.linked hproduced.tmp) h
  | write outcome => exact tidy_write h hremoved
  | replace_body content =>
    apply tidy_congr _ _ h <;> unfold StreamingFill.step StreamingFill.replace_body <;> grind
  | _ => exact tidy_congr rfl rfl h

/-- In every order of the steps: once nobody sends any more, the writer returns after so many of its
own operations at most, whatever the others do between them. Then the temporary file is gone, where
the operations that end it do not fail. -/
theorem a_fill_ends (plan : StreamingCachePlan) (trims : Bool) (body_path : Option (List UInt8))
    (before later : List FillEvent)
    (hgone : (after StreamingFill.step (store_streaming_response plan trims body_path)
      before).producer.holds_sender = false)
    (hwrites : 14 + 3 * STREAMING_CACHE_WRITE_QUEUE_DEPTH ≤ later.countP FillEvent.is_write) :
    let start := store_streaming_response plan trims body_path
    let fill := after StreamingFill.step start (before ++ later)
    fill.writer = .Done ∧
      (Along StreamingFill.step FilesRemoved start (before ++ later) →
        fill.tmp.linked = false) := by
  intro start fill
  have hqueue : (after StreamingFill.step start before).queue.length ≤
      STREAMING_CACHE_WRITE_QUEUE_DEPTH :=
    @after_of_invariant _ _ _ (fun fill : StreamingFill =>
      fill.queue.length ≤ STREAMING_CACHE_WRITE_QUEUE_DEPTH) queue_step _ (by simp [start,
        store_streaming_response]) before
  have hdone : fill.writer = .Done := by
    unfold fill
    rw [after_append]
    exact writer_returns hgone later ((left_le hqueue).trans hwrites)
  refine ⟨hdone, fun hremoved => ?_⟩
  have htidy : fill.Tidy := after_of_along tidy_step (show start.Tidy from trivial) hremoved
  unfold StreamingFill.Tidy at htidy
  rw [hdone] at htidy
  exact htidy

/-- The body of an empty response, and nothing fails. -/
theorem the_fill_of_an_empty_body_ends :
    let start := store_streaming_response threeBytePlan false none
    let fill := after StreamingFill.step start ([.poll_frame .End, .produce, .produce] ++
      List.replicate 38 (.write ⟨none, 0⟩))
    fill.writer = .Done ∧ fill.tmp.linked = false := by
  have hgone : (after StreamingFill.step (store_streaming_response threeBytePlan false none)
      [.poll_frame .End, .produce, .produce]).producer.holds_sender = false := rfl
  have hwrites : 14 + 3 * STREAMING_CACHE_WRITE_QUEUE_DEPTH ≤
      (List.replicate 38 (FillEvent.write ⟨none, 0⟩)).countP FillEvent.is_write := by
    rw [List.countP_replicate]
    exact Nat.le_refl 38
  have hends := a_fill_ends threeBytePlan false none _ _ hgone hwrites
  refine ⟨hends.1, hends.2 (along_of_mem (fun event hevent state => ?_) _)⟩
  rcases List.mem_append.mp hevent with hevent | hevent
  · simp only [List.mem_cons, List.not_mem_nil, or_false] at hevent
    rcases hevent with rfl | rfl | rfl <;> trivial
  · obtain rfl := List.eq_of_mem_replicate hevent
    exact fun _ => rfl

end rginx.cache.streaming
