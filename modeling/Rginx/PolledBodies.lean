-- Bodies that are polled for their frames: what one poll gives, and what the
-- polls give together, up to the end of the body or to its first error.
import Mathlib.Logic.Relation
import Mathlib.Order.WellFounded

namespace polled_bodies

inductive Poll (α : Type)
  | Pending
  | Ready (value : α)
  deriving DecidableEq

/-- A body gives a frame, an error or, with no frame, its end. -/
class Body (B : Type) (Frame Error : outParam Type) where
  poll_frame : B → Poll (Option (Except Error Frame)) × B

open Body (poll_frame)

section Polls

variable {B Frame Error : Type} [Body B Frame Error]

/-- The body after a poll that leaves more to poll for. -/
inductive After : B → B → Prop
  | pending {body next : B} (h : poll_frame body = (.Pending, next)) : After next body
  | frame {body next : B} {frame : Frame} (h : poll_frame body = (.Ready (some (.ok frame)), next)) :
    After next body

end Polls

theorem next_of_after {B Frame Error : Type} [Body B Frame Error] {body next other : B}
    {answer : Poll (Option (Except Error Frame))} (h : After next body)
    (hpoll : poll_frame body = (answer, other)) : next = other := by
  rcases h with h | h
  · exact (Prod.mk.inj (h.symm.trans hpoll)).2
  · exact (Prod.mk.inj (h.symm.trans hpoll)).2

/-! ## A number of polls -/

section Count

variable {B Frame Error : Type} [Body B Frame Error]

def after_polls : Nat → B → B
  | 0, body => body
  | count + 1, body => after_polls count (poll_frame body).2

/-- What that many polls give. -/
def answers : Nat → B → List (Poll (Option (Except Error Frame)))
  | 0, _ => []
  | count + 1, body => (poll_frame body).1 :: answers count (poll_frame body).2

theorem after_polls_add (count later : Nat) (body : B) :
    after_polls (count + later) body = after_polls later (after_polls count body) := by
  induction count generalizing body with
  | zero => simp [after_polls]
  | succ count ih =>
    rw [Nat.add_right_comm, after_polls, ih, after_polls]

/-- The answer that ends a body: its end, or an error. -/
def Final : Poll (Option (Except Error Frame)) → Prop
  | .Ready none => True
  | .Ready (some (.error _)) => True
  | _ => False

end Count

/-! ## Bodies that end -/

/-- A body that comes to an end, or to an error, after some polls. -/
class Ends (B : Type) (Frame Error : outParam Type) [Body B Frame Error] : Prop where
  ends : WellFounded (After : B → B → Prop)

section Read

variable {B Frame Error : Type} [Body B Frame Error]

/-- Later is less. -/
instance laterFirst [Ends B Frame Error] : WellFoundedRelation B :=
  ⟨Relation.TransGen After, Ends.ends.transGen⟩

/-- The frames of a body up to its end or its first error, and that error. -/
def drain [Ends B Frame Error] (body : B) : List Frame × Option Error :=
  match _h : poll_frame body with
  | (.Ready none, _) => ([], none)
  | (.Ready (some (.error error)), _) => ([], some error)
  | (.Ready (some (.ok frame)), next) => (frame :: (drain next).1, (drain next).2)
  | (.Pending, next) => drain next
termination_by body
decreasing_by
  · exact .single (.frame _h)
  · exact .single (.pending _h)

variable [Ends B Frame Error]

theorem drain_of_end {body next : B} (h : poll_frame body = (.Ready none, next)) :
    drain body = ([], none) := by
  rw [drain]
  split <;> simp_all

theorem drain_of_error {body next : B} {error : Error}
    (h : poll_frame body = (.Ready (some (.error error)), next)) :
    drain body = ([], some error) := by
  rw [drain]
  split <;> simp_all

theorem drain_of_frame {body next : B} {frame : Frame}
    (h : poll_frame body = (.Ready (some (.ok frame)), next)) :
    drain body = (frame :: (drain next).1, (drain next).2) := by
  rw [drain]
  split <;> simp_all

theorem drain_of_pending {body next : B} (h : poll_frame body = (.Pending, next)) :
    drain body = drain next := by
  conv_lhs => rw [drain]
  split <;> simp_all

/-- What the first poll gives decides what the body gives. -/
theorem drain_congr {body other : B} (h : poll_frame body = poll_frame other) :
    drain body = drain other := by
  rcases hother : poll_frame other with ⟨answer, next⟩
  rw [hother] at h
  match answer, h, hother with
  | .Ready none, h, hother => rw [drain_of_end h, drain_of_end hother]
  | .Ready (some (.error error)), h, hother => rw [drain_of_error h, drain_of_error hother]
  | .Ready (some (.ok frame)), h, hother => rw [drain_of_frame h, drain_of_frame hother]
  | .Pending, h, hother => rw [drain_of_pending h, drain_of_pending hother]

/-- The frames, where no error came. -/
def completed : List Frame × Option Error → Except Error (List Frame)
  | (frames, none) => .ok frames
  | (_, some error) => .error error

/-- The frames of a body, read to its end or to its first error. -/
def read (body : B) : Except Error (List Frame) := completed (drain body)

theorem read_of_end {body next : B} (h : poll_frame body = (.Ready none, next)) :
    read body = .ok [] := by
  rw [read, drain_of_end h, completed]

theorem read_of_error {body next : B} {error : Error}
    (h : poll_frame body = (.Ready (some (.error error)), next)) : read body = .error error := by
  rw [read, drain_of_error h, completed]

theorem read_of_frame {body next : B} {frame : Frame}
    (h : poll_frame body = (.Ready (some (.ok frame)), next)) :
    read body = (read next).map (frame :: ·) := by
  rw [read, drain_of_frame h, read]
  rcases drain next with ⟨frames, _ | error⟩ <;> rfl

theorem read_of_pending {body next : B} (h : poll_frame body = (.Pending, next)) :
    read body = read next := by
  rw [read, drain_of_pending h, read]

theorem read_congr {body other : B} (h : poll_frame body = poll_frame other) :
    read body = read other := by
  rw [read, drain_congr h, read]

/-- The induction over the polls of a body. -/
theorem poll_induction {P : B → Prop} (body : B)
    (step : ∀ body, (∀ next, After next body → P next) → P body) : P body :=
  Ends.ends.induction body step

omit [Ends B Frame Error] in
/-- A body ends where each poll of it goes on with an earlier body or leaves a later one. -/
theorem after_wellFounded {earlier : B → B → Prop} (hwf : WellFounded earlier)
    (hpoll : ∀ body, (∃ other, earlier other body ∧ poll_frame body = poll_frame other) ∨
      ∀ next, After next body → earlier next body) : WellFounded (After : B → B → Prop) := by
  refine ⟨fun body => ?_⟩
  induction body using hwf.induction with
  | _ body ih =>
    refine ⟨_, fun next hnext => ?_⟩
    rcases hpoll body with ⟨other, hother, hsame⟩ | hlater
    · refine (ih other hother).inv ?_
      rcases hnext with h | h
      · exact .pending (hsame ▸ h)
      · exact .frame (hsame ▸ h)
    · exact ih next (hlater next hnext)

end Read

/-! ## Bodies that relay an inner body -/

/-- The frames up to the first one that stops. -/
def up_to {Frame : Type} (stops : Frame → Bool) : List Frame → List Frame
  | [] => []
  | frame :: frames => if stops frame then [frame] else frame :: up_to stops frames

section Relays

variable {L B Frame Error InnerError : Type} [Body L Frame Error] [Body B Frame InnerError]

/-- What one poll can do of a body that gives the frames of an inner one, up to a frame that stops
it, to an error, or to the end of the inner one. -/
inductive Relays (inner : L → B) (done : L → Bool) (stops : Frame → Bool) (this : L) : Prop
  | done (hdone : done this = true) (hpoll : poll_frame this = (.Ready none, this))
  | frame {frame : Frame} {next : L} (hopen : done this = false)
    (hinner : poll_frame (inner this) = (.Ready (some (.ok frame)), inner next))
    (hpoll : poll_frame this = (.Ready (some (.ok frame)), next)) (hdone : done next = stops frame)
  | ended {next : L} (hopen : done this = false)
    (hinner : poll_frame (inner this) = (.Ready none, inner next))
    (hpoll : poll_frame this = (.Ready none, next))
  | error {error : Error} {next : L} (hopen : done this = false)
    (hpoll : poll_frame this = (.Ready (some (.error error)), next))
  | pending {next : L} (hopen : done this = false)
    (hinner : poll_frame (inner this) = (.Pending, inner next))
    (hpoll : poll_frame this = (.Pending, next)) (hdone : done next = false)

variable {inner : L → B} {done : L → Bool} {stops : Frame → Bool}

/-- A poll that leaves more to poll for has polled the inner body, and so did that. -/
theorem Relays.after_inner {next this : L} (hrelays : Relays inner done stops this)
    (h : After next this) : After (inner next) (inner this) := by
  have hfinal : ∀ {answer other}, poll_frame this = (answer, other) → ¬ Final answer := by
    intro answer other hpoll hanswer
    rcases h with h | h
    · obtain rfl := (Prod.mk.inj (h.symm.trans hpoll)).1
      exact hanswer
    · obtain rfl := (Prod.mk.inj (h.symm.trans hpoll)).1
      exact hanswer
  cases hrelays with
  | done _ hpoll => exact absurd trivial (hfinal hpoll)
  | frame _ hinner hpoll =>
    rw [next_of_after h hpoll]
    exact .frame hinner
  | ended _ _ hpoll => exact absurd trivial (hfinal hpoll)
  | error _ hpoll => exact absurd trivial (hfinal hpoll)
  | pending _ hinner hpoll =>
    rw [next_of_after h hpoll]
    exact .pending hinner

theorem ends_of_relays [Ends B Frame InnerError]
    (hrelays : ∀ this : L, Relays inner done stops this) : WellFounded (After : L → L → Prop) :=
  Subrelation.wf (fun h => (hrelays _).after_inner h) (InvImage.wf inner Ends.ends)

variable [Ends L Frame Error]

theorem Relays.drain_done {this : L} (hrelays : Relays inner done stops this)
    (hdone : done this = true) : drain this = ([], none) := by
  cases hrelays with
  | done _ hpoll => exact drain_of_end hpoll
  | frame hopen => exact absurd (hopen.symm.trans hdone) Bool.false_ne_true
  | ended hopen => exact absurd (hopen.symm.trans hdone) Bool.false_ne_true
  | error hopen => exact absurd (hopen.symm.trans hdone) Bool.false_ne_true
  | pending hopen => exact absurd (hopen.symm.trans hdone) Bool.false_ne_true

/-- Nothing comes after a frame that stops. -/
theorem drain_stops (hrelays : ∀ this : L, Relays inner done stops this) (this : L) :
    up_to stops (drain this).1 = (drain this).1 ∧
      ((drain this).1.any stops → (drain this).2 = none) := by
  induction this using poll_induction with
  | step this ih =>
    cases hrelays this with
    | done _ hpoll => simp [drain_of_end hpoll, up_to]
    | @frame frame next _ _ hpoll hdone =>
      rw [drain_of_frame hpoll]
      by_cases hstops : stops frame
      · rw [(hrelays next).drain_done (hdone.trans hstops)]
        simp [up_to, hstops]
      · obtain ⟨hframes, herror⟩ := ih next (.frame hpoll)
        simpa [up_to, hstops, hframes] using herror
    | ended _ _ hpoll => simp [drain_of_end hpoll, up_to]
    | error _ hpoll => simp [drain_of_error hpoll, up_to]
    | pending _ _ hpoll =>
      rw [drain_of_pending hpoll]
      exact ih _ (.pending hpoll)

/-- Without an error, everything is relayed up to a frame that stops, or else to the end. -/
theorem drain_relayed [Ends B Frame InnerError] (hrelays : ∀ this : L, Relays inner done stops this)
    {this : L} (hopen : done this = false) (herror : (drain this).2 = none) :
    (drain this).1 = up_to stops (drain (inner this)).1 ∧
      ((drain (inner this)).1.any stops ∨ (drain (inner this)).2 = none) := by
  induction this using poll_induction with
  | step this ih =>
    cases hrelays this with
    | done hdone => exact absurd (hopen.symm.trans hdone) Bool.false_ne_true
    | @frame frame next _ hinner hpoll hdone =>
      rw [drain_of_frame hpoll] at herror
      rw [drain_of_frame hpoll, drain_of_frame hinner]
      by_cases hstops : stops frame
      · rw [(hrelays next).drain_done (hdone.trans hstops)]
        simp [up_to, hstops]
      · have hnext := ih next (.frame hpoll) (hdone.trans (Bool.eq_false_iff.mpr hstops)) herror
        simpa [up_to, hstops] using hnext
    | ended _ hinner hpoll => simp [drain_of_end hpoll, drain_of_end hinner, up_to]
    | error _ hpoll =>
      rw [drain_of_error hpoll] at herror
      cases herror
    | pending _ hinner hpoll hdone =>
      rw [drain_of_pending hpoll] at herror
      rw [drain_of_pending hpoll, drain_of_pending hinner]
      exact ih _ (.pending hpoll) hdone herror

end Relays

/-! ## Bodies over an inner body -/

section Inner

variable {B Frame Error : Type} [Body B Frame Error] [Ends B Frame Error]

/-- What a body over an inner one has before it: the end of the inner one, the polls of the inner
one, and what the body holds back itself. -/
def remaining (inner_finished : Bool) (inner : B) (held : Nat) : Nat × B × Nat :=
  (if inner_finished then 0 else 1, inner, held)

def Nearer (next this : Nat × B × Nat) : Prop := WellFoundedRelation.rel next this

theorem nearer_wellFounded : WellFounded (Nearer : Nat × B × Nat → Nat × B × Nat → Prop) :=
  WellFoundedRelation.wf

theorem nearer_of_finishing {inner next : B} {held held' : Nat} {finished finished' : Bool}
    (h : finished = false) (h' : finished' = true) :
    Nearer (remaining finished' next held') (remaining finished inner held) := by
  subst h h'
  exact .left _ _ Nat.zero_lt_one

theorem nearer_of_after {inner next : B} {held held' : Nat} (finished : Bool)
    (h : After next inner) :
    Nearer (remaining finished next held') (remaining finished inner held) :=
  .right _ (.left _ _ (.single h))

theorem nearer_of_less (finished : Bool) (inner : B) {held held' : Nat} (h : held' < held) :
    Nearer (remaining finished inner held') (remaining finished inner held) :=
  .right _ (.right _ h)

end Inner

/-! ## Bodies from a list of polls -/

/-- The body whose polls give these answers, and then its end. -/
structure Polls (Frame Error : Type) where
  answers : List (Poll (Except Error Frame))

variable {Frame Error : Type}

instance : Body (Polls Frame Error) Frame Error where
  poll_frame
    | ⟨[]⟩ => (.Ready none, ⟨[]⟩)
    | ⟨.Pending :: answers⟩ => (.Pending, ⟨answers⟩)
    | ⟨.Ready answer :: answers⟩ => (.Ready (some answer), ⟨answers⟩)

instance : Ends (Polls Frame Error) Frame Error where
  ends := by
    refine Subrelation.wf ?_ (measure fun body : Polls Frame Error => body.answers.length).wf
    rintro next ⟨answers⟩ h
    show next.answers.length < answers.length
    rcases h with h | h
    · match answers, h with
      | .Pending :: answers, h => simp [poll_frame] at h; simp [← h]
      | .Ready answer :: answers, h => simp [poll_frame] at h
      | [], h => simp [poll_frame] at h
    · match answers, h with
      | .Pending :: answers, h => simp [poll_frame] at h
      | .Ready answer :: answers, h => simp [poll_frame] at h; simp [← h.2]
      | [], h => simp [poll_frame] at h

/-- The frames among the answers up to the first error, and that error. -/
def drained : List (Poll (Except Error Frame)) → List Frame × Option Error
  | [] => ([], none)
  | .Pending :: answers => drained answers
  | .Ready (.ok frame) :: answers => (frame :: (drained answers).1, (drained answers).2)
  | .Ready (.error error) :: _ => ([], some error)

theorem drain_polls (answers : List (Poll (Except Error Frame))) :
    drain (Polls.mk answers) = drained answers := by
  induction answers with
  | nil =>
    have hpoll : poll_frame (Polls.mk ([] : List (Poll (Except Error Frame)))) =
        (.Ready none, ⟨[]⟩) := rfl
    rw [drain_of_end hpoll, drained]
  | cons answer answers ih =>
    match answer with
    | .Pending =>
      have hpoll : poll_frame (Polls.mk (Poll.Pending :: answers)) = (.Pending, ⟨answers⟩) := rfl
      rw [drain_of_pending hpoll, drained, ih]
    | .Ready (.ok frame) =>
      have hpoll : poll_frame (Polls.mk (Poll.Ready (.ok frame) :: answers)) =
          (.Ready (some (.ok frame)), ⟨answers⟩) := rfl
      rw [drain_of_frame hpoll, drained, ih]
    | .Ready (.error error) =>
      have hpoll : poll_frame (Polls.mk (Poll.Ready (.error error) :: answers)) =
          (.Ready (some (.error error)), ⟨answers⟩) := rfl
      rw [drain_of_error hpoll, drained]

theorem read_polls (answers : List (Poll (Except Error Frame))) :
    read (Polls.mk answers) = completed (drained answers) := by
  rw [read, drain_polls]

end polled_bodies
