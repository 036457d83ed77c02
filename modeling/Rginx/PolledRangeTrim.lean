-- The body of a slice, poll by poll: `DownstreamRangeTrimBody` of `cache/store/range.rs` over an
-- inner body that may be pending, end or fail between any two frames.
import Rginx.PolledBodies
import Rginx.RangeTrim

open polled_bodies polled_bodies.Body

namespace rginx.cache.polled

/-! ## The body -/

/-- The inner body gives these answers to its polls, and then its end. -/
structure DownstreamRangeTrimBody where
  inner : List (Poll (IoResult BodyFrame))
  skip_bytes : Nat
  emit_bytes : Nat
  done : Bool

def DownstreamRangeTrimBody.new (inner : List (Poll (IoResult BodyFrame)))
    (plan : DownstreamRangeTrimPlan) : DownstreamRangeTrimBody :=
  ⟨inner, plan.skip_bytes, plan.emit_bytes, false⟩

/-- The loop of `poll_frame`. -/
def DownstreamRangeTrimBody.poll_loop (skip_bytes emit_bytes : Nat) :
    List (Poll (IoResult BodyFrame)) →
      Poll (Option (IoResult BodyFrame)) × DownstreamRangeTrimBody
  | .Ready (.ok (.Data data)) :: inner =>
    if data.length ≤ skip_bytes then poll_loop (skip_bytes - data.length) emit_bytes inner
    else
      let data := data.drop skip_bytes
      if emit_bytes = 0 then poll_loop 0 emit_bytes inner
      else
        let data := data.take emit_bytes
        let emit_bytes := emit_bytes - data.length
        if data = [] then poll_loop 0 emit_bytes inner
        else (.Ready (some (.ok (.Data data))), ⟨inner, 0, emit_bytes, emit_bytes = 0⟩)
  | .Ready (.ok (.Trailers trailers)) :: inner =>
    if 0 < skip_bytes ∨ 0 < emit_bytes then
      (.Ready (some (.error truncated_range_error)), ⟨inner, skip_bytes, emit_bytes, true⟩)
    else (.Ready (some (.ok (.Trailers trailers))), ⟨inner, skip_bytes, emit_bytes, true⟩)
  | .Ready (.error error) :: inner =>
    (.Ready (some (.error error)), ⟨inner, skip_bytes, emit_bytes, true⟩)
  | .Pending :: inner => (.Pending, ⟨inner, skip_bytes, emit_bytes, false⟩)
  | [] =>
    if 0 < skip_bytes ∨ 0 < emit_bytes then
      (.Ready (some (.error truncated_range_error)), ⟨[], skip_bytes, emit_bytes, true⟩)
    else (.Ready none, ⟨[], skip_bytes, emit_bytes, true⟩)

instance : Body DownstreamRangeTrimBody BodyFrame IoError where
  poll_frame this :=
    if this.done then (.Ready none, this)
    else if this.emit_bytes = 0 then (.Ready none, { this with done := true })
    else DownstreamRangeTrimBody.poll_loop this.skip_bytes this.emit_bytes this.inner

def DownstreamRangeTrimBody.is_end_stream (this : DownstreamRangeTrimBody) : Bool := this.done

/-- The exact hint. -/
def DownstreamRangeTrimBody.size_hint (this : DownstreamRangeTrimBody) : Nat := this.emit_bytes

/-! ## What is delivered and what is emitted -/

/-- The bytes of the inner body before its end, its trailers or its first error. -/
def delivered : List (Poll (IoResult BodyFrame)) → List UInt8
  | .Ready (.ok (.Data data)) :: inner => data ++ delivered inner
  | .Pending :: inner => delivered inner
  | _ => []

/-- The bytes among the answers to some polls. -/
def emitted : List (Poll (Option (IoResult BodyFrame))) → List UInt8
  | .Ready (some (.ok (.Data data))) :: rest => data ++ emitted rest
  | _ :: rest => emitted rest
  | [] => []

/-- The part of the inner body that is still to be emitted, as far as it is delivered. -/
def DownstreamRangeTrimBody.owed (this : DownstreamRangeTrimBody) : List UInt8 :=
  ((delivered this.inner).drop this.skip_bytes).take this.emit_bytes

/-- The inner body ends too early. -/
def DownstreamRangeTrimBody.Short (this : DownstreamRangeTrimBody) : Prop :=
  (delivered this.inner).length < this.skip_bytes + this.emit_bytes

namespace DownstreamRangeTrimBody

/-- What one poll of an unfinished body does. -/
inductive Polled (this : DownstreamRangeTrimBody) :
    Poll (Option (IoResult BodyFrame)) × DownstreamRangeTrimBody → Prop
  | pending {next : DownstreamRangeTrimBody} (hdone : next.done = false)
      (hemit : next.emit_bytes = this.emit_bytes) (howed : next.owed = this.owed)
      (hshort : next.Short ↔ this.Short) : this.Polled (.Pending, next)
  | data {data : List UInt8} {next : DownstreamRangeTrimBody}
      (hdone : next.done = decide (next.emit_bytes = 0))
      (hemit : next.emit_bytes + data.length = this.emit_bytes)
      (howed : data ++ next.owed = this.owed)
      (hshort : next.Short ↔ this.Short) :
      this.Polled (.Ready (some (.ok (.Data data))), next)
  | error {error : IoError} {next : DownstreamRangeTrimBody} (hdone : next.done = true)
      (hemit : next.emit_bytes = this.emit_bytes) (hshort : this.Short) :
      this.Polled (.Ready (some (.error error)), next)

theorem Polled.of_same {this that : DownstreamRangeTrimBody}
    {answer : Poll (Option (IoResult BodyFrame)) × DownstreamRangeTrimBody} (h : that.Polled answer)
    (hemit : that.emit_bytes = this.emit_bytes) (howed : that.owed = this.owed)
    (hshort : that.Short ↔ this.Short) : this.Polled answer := by
  cases h with
  | pending hdone hemit' howed' hshort' =>
    exact .pending hdone (hemit'.trans hemit) (howed'.trans howed) (hshort'.trans hshort)
  | data hdone hemit' howed' hshort' =>
    exact .data hdone (hemit'.trans hemit) (howed'.trans howed) (hshort'.trans hshort)
  | error hdone hemit' hshort' => exact .error hdone (hemit'.trans hemit) (hshort.mp hshort')

/-- One turn of the loop passes over what is skipped; the rest is as it was. -/
theorem poll_loop_polled (inner : List (Poll (IoResult BodyFrame))) {skip emit : Nat}
    (hemit : 0 < emit) : Polled ⟨inner, skip, emit, false⟩ (poll_loop skip emit inner) := by
  induction inner generalizing skip with
  | nil =>
    rw [poll_loop, if_pos (.inr hemit)]
    refine .error rfl rfl ?_
    simp only [Short, delivered, List.length_nil]
    omega
  | cons answer inner ih =>
    match answer with
    | .Pending => exact .pending rfl rfl rfl Iff.rfl
    | .Ready (.error error) =>
      refine .error rfl rfl ?_
      simp only [Short, delivered, List.length_nil]
      omega
    | .Ready (.ok (.Trailers trailers)) =>
      rw [poll_loop, if_pos (.inr hemit)]
      refine .error rfl rfl ?_
      simp only [Short, delivered, List.length_nil]
      omega
    | .Ready (.ok (.Data data)) =>
      rw [poll_loop]
      by_cases hskip : data.length ≤ skip
      · rw [if_pos hskip]
        have hrest : Polled ⟨inner, skip - data.length, emit, false⟩ _ := ih
        refine hrest.of_same rfl ?_ ?_
        · simp only [owed, delivered]
          rw [List.drop_append, List.drop_eq_nil_of_le hskip, List.nil_append]
        · simp only [Short, delivered, List.length_append]
          omega
      · have hne : (data.drop skip).take emit ≠ [] := by
          rw [← List.length_pos_iff, List.length_take, List.length_drop]
          omega
        have hpos : emit ≠ 0 := by omega
        simp only [if_neg hskip, if_neg hpos, if_neg hne]
        have hlen : ((data.drop skip).take emit).length = min emit (data.length - skip) := by
          rw [List.length_take, List.length_drop]
        refine .data rfl ?_ ?_ ?_
        · simp only [hlen]
          omega
        · simp only [owed, delivered, List.drop_zero]
          rw [List.drop_append_of_le_length (by omega), List.take_append, hlen, List.length_drop]
          congr 2
          omega
        · simp only [Short, delivered, List.length_append, hlen]
          omega

/-! ## Polls of a body -/

theorem poll_frame_of_done {this : DownstreamRangeTrimBody} (h : this.done = true) :
    poll_frame this = (.Ready none, this) :=
  if_pos h

theorem poll_frame_of_zero {this : DownstreamRangeTrimBody} (h : this.done = false)
    (hzero : this.emit_bytes = 0) : poll_frame this = (.Ready none, { this with done := true }) := by
  show (if this.done then _ else _) = _
  rw [if_neg (by simp [h]), if_pos hzero]

theorem poll_frame_polled {this : DownstreamRangeTrimBody} (h : this.done = false)
    (hemit : this.emit_bytes ≠ 0) : this.Polled (poll_frame this) := by
  obtain ⟨inner, skip_bytes, emit_bytes, done⟩ := this
  obtain rfl : done = false := h
  have hpoll : poll_frame (⟨inner, skip_bytes, emit_bytes, false⟩ : DownstreamRangeTrimBody) =
      poll_loop skip_bytes emit_bytes inner := if_neg hemit
  rw [hpoll]
  exact poll_loop_polled inner (Nat.pos_of_ne_zero hemit)

/-- A poll that leaves more to poll for has taken an answer from the inner body. -/
theorem poll_loop_shorter (inner : List (Poll (IoResult BodyFrame))) {skip emit : Nat} :
    (poll_loop skip emit inner).2.inner.length < inner.length ∨
      Final (poll_loop skip emit inner).1 := by
  induction inner generalizing skip emit with
  | nil =>
    refine .inr ?_
    rw [poll_loop]
    split <;> exact trivial
  | cons answer inner ih =>
    have hloop : ∀ {skip emit : Nat},
        (poll_loop skip emit inner).2.inner.length < (answer :: inner).length ∨
          Final (poll_loop skip emit inner).1 :=
      ih.imp_left Nat.lt_succ_of_lt
    match answer with
    | .Pending => exact .inl (Nat.lt_succ_self _)
    | .Ready (.error error) => exact .inr trivial
    | .Ready (.ok (.Trailers trailers)) =>
      refine .inl ?_
      rw [poll_loop]
      split <;> exact Nat.lt_succ_self _
    | .Ready (.ok (.Data data)) =>
      simp only [poll_loop]
      split
      · exact hloop
      · split
        · exact hloop
        · split
          · exact hloop
          · exact .inl (Nat.lt_succ_self _)

theorem after_shorter {this next : DownstreamRangeTrimBody} (h : After next this) :
    next.inner.length < this.inner.length := by
  have hgoes : ¬ Final (poll_frame this).1 ∧ next = (poll_frame this).2 := by
    rcases h with h | h <;> exact ⟨by simp [h, Final], by rw [h]⟩
  obtain ⟨hmore, rfl⟩ := hgoes
  by_cases hdone : this.done = true
  · rw [poll_frame_of_done hdone] at hmore
    exact absurd trivial hmore
  · by_cases hzero : this.emit_bytes = 0
    · rw [poll_frame_of_zero (by simpa using hdone) hzero] at hmore
      exact absurd trivial hmore
    · have hpoll : poll_frame this = poll_loop this.skip_bytes this.emit_bytes this.inner := by
        show (if this.done then _ else _) = _
        rw [if_neg hdone, if_neg hzero]
      rw [hpoll] at hmore ⊢
      exact (poll_loop_shorter this.inner).resolve_right hmore

instance : Ends DownstreamRangeTrimBody BodyFrame IoError where
  ends := Subrelation.wf after_shorter
    (measure fun this : DownstreamRangeTrimBody => this.inner.length).wf

/-! ## All the polls -/

theorem answers_of_done {this : DownstreamRangeTrimBody} (h : this.done = true) (count : Nat) :
    answers count this = List.replicate count (.Ready none) ∧ after_polls count this = this := by
  induction count with
  | zero => exact ⟨rfl, rfl⟩
  | succ count ih =>
    rw [answers, after_polls, poll_frame_of_done h, ih.1, ih.2]
    exact ⟨rfl, rfl⟩

theorem emitted_replicate (count : Nat) : emitted (List.replicate count (.Ready none)) = [] := by
  induction count with
  | zero => rfl
  | succ count ih => rw [List.replicate_succ, emitted, ih]; simp

/-- A body that is done, or has nothing to emit, gives its end to every poll. -/
theorem ended_polls {this : DownstreamRangeTrimBody}
    (h : this.done = true ∨ this.emit_bytes = 0) (count : Nat) :
    answers count this = List.replicate count (.Ready none) ∧
      (after_polls count this).emit_bytes = this.emit_bytes := by
  by_cases hdone : this.done = true
  · obtain ⟨hanswers, hafter⟩ := answers_of_done hdone count
    exact ⟨hanswers, by rw [hafter]⟩
  · have hzero : this.emit_bytes = 0 := h.resolve_left hdone
    cases count with
    | zero => exact ⟨rfl, rfl⟩
    | succ count =>
      have hpoll := poll_frame_of_zero (by simpa using hdone) hzero
      have hended : DownstreamRangeTrimBody.done { this with done := true } = true := rfl
      obtain ⟨hanswers, hafter⟩ := answers_of_done hended count
      rw [answers, after_polls, hpoll, hanswers, hafter]
      exact ⟨rfl, rfl⟩

/-- After its end, or after an error, the body gives nothing more. -/
theorem done_of_final {this : DownstreamRangeTrimBody} (h : Final (poll_frame this).1) :
    (poll_frame this).2.done = true := by
  by_cases hdone : this.done = true
  · rw [poll_frame_of_done hdone]
    exact hdone
  · by_cases hzero : this.emit_bytes = 0
    · rw [poll_frame_of_zero (by simpa using hdone) hzero]
    · have hpolled := poll_frame_polled (by simpa using hdone) hzero
      rcases hpoll : poll_frame this with ⟨answer, next⟩
      rw [hpoll] at hpolled h
      cases hpolled with
      | pending => exact absurd h id
      | data => exact absurd h id
      | error hdone => exact hdone

/-- However many polls: a prefix of what is owed, and the rest is in the hint. -/
theorem emitted_polls (count : Nat) (this : DownstreamRangeTrimBody) :
    emitted (answers count this) <+: this.owed ∧
      (after_polls count this).emit_bytes + (emitted (answers count this)).length =
        this.emit_bytes := by
  induction count generalizing this with
  | zero => exact ⟨List.nil_prefix, rfl⟩
  | succ count ih =>
    by_cases hended : this.done = true ∨ this.emit_bytes = 0
    · obtain ⟨hanswers, hemit⟩ := ended_polls hended (count + 1)
      rw [hanswers, emitted_replicate, hemit]
      exact ⟨List.nil_prefix, rfl⟩
    · obtain ⟨hdone, hzero⟩ := not_or.mp hended
      have hpolled := poll_frame_polled (by simpa using hdone) hzero
      rw [answers, after_polls]
      rcases hpoll : poll_frame this with ⟨answer, next⟩
      rw [hpoll] at hpolled
      obtain ⟨hstart, hhint⟩ := ih next
      cases hpolled with
      | pending hdone hemit howed hshort =>
        rw [emitted, ← howed, ← hemit]
        · exact ⟨hstart, hhint⟩
        · simp
      | data hdone hemit howed hshort =>
        rw [emitted, ← howed, List.length_append]
        refine ⟨(List.prefix_append_right_inj _).mpr hstart, ?_⟩
        dsimp only
        omega
      | error hdone hemit hshort =>
        obtain ⟨hanswers, hafter⟩ := answers_of_done hdone count
        rw [emitted, hanswers, hafter, emitted_replicate]
        · exact ⟨List.nil_prefix, hemit⟩
        · simp

/-- The bytes of some frames. -/
def bytes : List BodyFrame → List UInt8
  | .Data data :: rest => data ++ bytes rest
  | _ :: rest => bytes rest
  | [] => []

theorem owed_length (this : DownstreamRangeTrimBody) :
    this.owed.length = min this.emit_bytes ((delivered this.inner).length - this.skip_bytes) := by
  rw [owed, List.length_take, List.length_drop]

/-- A body that has not failed ends without an error where nothing is missing. -/
theorem drain_slice (this : DownstreamRangeTrimBody)
    (h : this.done = true → this.emit_bytes = 0) :
    ((drain this).2 = none ↔ this.emit_bytes = 0 ∨ ¬ this.Short) ∧
      ((drain this).2 = none → bytes (drain this).1 = this.owed) := by
  induction this using poll_induction with
  | step this ih =>
    by_cases hzero : this.emit_bytes = 0
    · have hend : ∃ next, poll_frame this = (.Ready none, next) := by
        by_cases hdone : this.done = true
        · exact ⟨_, poll_frame_of_done hdone⟩
        · exact ⟨_, poll_frame_of_zero (by simpa using hdone) hzero⟩
      obtain ⟨next, hend⟩ := hend
      rw [drain_of_end hend]
      refine ⟨iff_of_true rfl (.inl hzero), fun _ => ?_⟩
      rw [owed, hzero, List.take_zero, bytes]
    · have hdone : this.done = false := by simpa using fun hdone => hzero (h hdone)
      have hpolled := poll_frame_polled hdone hzero
      rcases hpoll : poll_frame this with ⟨answer, next⟩
      rw [hpoll] at hpolled
      cases hpolled with
      | pending hdone' hemit howed hshort =>
        rw [drain_of_pending hpoll, ← howed, ← hemit, ← hshort]
        exact ih next (.pending hpoll) (by simp [hdone'])
      | @data data _ hdone' hemit howed hshort =>
        obtain ⟨hends, hbytes⟩ := ih next (.frame hpoll) (by simp [hdone'])
        rw [drain_of_frame hpoll, ← howed]
        refine ⟨?_, fun hnone => ?_⟩
        · -- The last bytes have come only where nothing is missing.
          have hlast : next.emit_bytes = 0 → ¬ this.Short := by
            intro hlast hshort'
            have hlen := this.owed_length
            rw [← howed, List.length_append, next.owed_length] at hlen
            unfold Short at hshort'
            omega
          rw [hends, hshort]
          constructor
          · rintro (hnext | hlong)
            · exact .inr (hlast hnext)
            · exact .inr hlong
          · rintro (hthis | hlong)
            · exact absurd hthis hzero
            · exact .inr hlong
        · rw [bytes, hbytes hnone]
      | error hdone' hemit hshort =>
        rw [drain_of_error hpoll]
        exact ⟨iff_of_false (by simp) (by simp [hzero, hshort]), fun hnone => by simp at hnone⟩

/-- The polls so far and the ones to come give together what the body gives. -/
theorem emitted_append_bytes (count : Nat) (this : DownstreamRangeTrimBody) :
    emitted (answers count this) ++ bytes (drain (after_polls count this)).1 =
      bytes (drain this).1 := by
  induction count generalizing this with
  | zero => rfl
  | succ count ih =>
    rw [answers, after_polls]
    rcases hpoll : poll_frame this with ⟨answer, next⟩
    have hfinal : Final answer → emitted (answers count next) = [] ∧
        bytes (drain (after_polls count next)).1 = [] := by
      intro hfinal
      have hdone : next.done = true := by
        have hdone : (poll_frame this).2.done = true :=
          done_of_final (by rw [hpoll]; exact hfinal)
        rwa [hpoll] at hdone
      obtain ⟨hanswers, hafter⟩ := answers_of_done hdone count
      rw [hanswers, hafter, emitted_replicate, drain_of_end (poll_frame_of_done hdone)]
      exact ⟨rfl, rfl⟩
    rcases answer with _ | (_ | (error | (data | trailers)))
    · simp [drain_of_pending hpoll, emitted, ih next]
    · simp [drain_of_end hpoll, emitted, bytes, hfinal trivial]
    · simp [drain_of_error hpoll, emitted, bytes, hfinal trivial]
    · simp [drain_of_frame hpoll, emitted, bytes, ih next]
    · simp [drain_of_frame hpoll, emitted, bytes, ih next]

/-- The body emits the slice: a prefix of it after any number of polls, all of it where the inner
body delivers it, and an error otherwise. -/
theorem emits_the_slice (inner : List (Poll (IoResult BodyFrame)))
    (plan : DownstreamRangeTrimPlan) :
    let body := DownstreamRangeTrimBody.new inner plan
    let slice := ((delivered inner).drop plan.skip_bytes).take plan.emit_bytes
    (∀ count, emitted (answers count body) <+: slice ∧
      (after_polls count body).size_hint + (emitted (answers count body)).length =
        plan.emit_bytes) ∧
    ((drain body).2 = none ↔
      plan.emit_bytes = 0 ∨ plan.skip_bytes + plan.emit_bytes ≤ (delivered inner).length) ∧
    ((drain body).2 = none → bytes (drain body).1 = slice ∧ slice.length = plan.emit_bytes ∧
      ∀ count, (bytes (drain (after_polls count body)).1).length =
        (after_polls count body).size_hint) ∧
    ∀ count, Final (poll_frame (after_polls count body)).1 →
      ∀ later, answers later (after_polls (count + 1) body) =
        List.replicate later (.Ready none) := by
  intro body slice
  have hdrain := drain_slice body (fun hdone => absurd hdone Bool.false_ne_true)
  have hends : (drain body).2 = none ↔
      plan.emit_bytes = 0 ∨ plan.skip_bytes + plan.emit_bytes ≤ (delivered inner).length := by
    rw [hdrain.1, Short, not_lt]
    exact Iff.rfl
  refine ⟨fun count => emitted_polls count body, hends, fun hnone => ?_, ?_⟩
  · have hbytes : bytes (drain body).1 = slice := hdrain.2 hnone
    have hlength : slice.length = plan.emit_bytes := by
      have hlen : slice.length =
          min plan.emit_bytes ((delivered inner).length - plan.skip_bytes) := body.owed_length
      rcases hends.mp hnone with hzero | hlong
      · omega
      · omega
    refine ⟨hbytes, hlength, fun count => ?_⟩
    have htogether := congrArg List.length (emitted_append_bytes count body)
    have hhint : (after_polls count body).emit_bytes + (emitted (answers count body)).length =
        plan.emit_bytes := (emitted_polls count body).2
    rw [hbytes, List.length_append, hlength] at htogether
    show _ = (after_polls count body).emit_bytes
    omega
  · intro count hfinal later
    rw [after_polls_add, after_polls, after_polls]
    exact (answers_of_done (done_of_final hfinal) later).1

/-! ## Inner bodies that are never pending -/

/-- The answers of an inner body that always has its next frame. -/
def ready (inner : BodyFrames) : List (Poll (IoResult BodyFrame)) := inner.map .Ready

/-- Over such an inner body the polls are those of the body over frames. -/
theorem poll_loop_ready (inner : BodyFrames) (skip emit : Nat) :
    poll_loop skip emit (ready inner) =
      (.Ready (cache.DownstreamRangeTrimBody.poll_loop skip emit inner).1,
        let next := (cache.DownstreamRangeTrimBody.poll_loop skip emit inner).2
        ⟨ready next.inner, next.skip_bytes, next.emit_bytes, next.done⟩) := by
  induction inner generalizing skip emit with
  | nil =>
    simp only [ready, List.map_nil, poll_loop, cache.DownstreamRangeTrimBody.poll_loop]
    split <;> rfl
  | cons frame inner ih =>
    have hready : ready (frame :: inner) = .Ready frame :: ready inner := rfl
    rcases frame with error | data | trailers
    · rfl
    · simp only [hready, poll_loop, cache.DownstreamRangeTrimBody.poll_loop]
      repeat' split
      · exact ih _ _
      · exact ih _ _
      · exact ih _ _
      · rfl
    · simp only [hready, poll_loop, cache.DownstreamRangeTrimBody.poll_loop]
      split <;> rfl

end DownstreamRangeTrimBody

end rginx.cache.polled
