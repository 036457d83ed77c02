-- Bodies whose polls go round a loop. A turn that leaves the poll to go on gives the body at a
-- moment inside of the poll; a run is told by its turns and by what its polls give.
import Rginx.PolledBodies

namespace polled_bodies

open Body (poll_frame)

/-- The turn of a poll that leaves it to go on, where there is one. -/
class Turns (B : Type) {Frame Error : outParam Type} [Body B Frame Error] where
  turn : B → Option B
  poll_turn {body next : B} (h : turn body = some next) : poll_frame body = poll_frame next
  ends : WellFounded fun next body => turn body = some next

open Turns (turn poll_turn)

/-- What a poll that ended gave up. -/
def given {Frame Error : Type} : Poll (Option (Except Error Frame)) → List Frame
  | .Ready (some (.ok frame)) => [frame]
  | _ => []

section Runs

variable {B Frame Error : Type} [Body B Frame Error] [Turns B]

/-- The body at a moment of a run, and the frames given until then. A poll is one step where no
turn of it is left. -/
inductive Run (allowed : List Frame → B → B → Prop) (start : B) : List Frame → B → Prop
  | begun : Run allowed start [] start
  | turned {frames : List Frame} {body next : B} (h : Run allowed start frames body)
      (hturn : turn body = some next) (hallowed : allowed frames body next) :
      Run allowed start frames next
  | polled {frames : List Frame} {body next : B} {answer : Poll (Option (Except Error Frame))}
      (h : Run allowed start frames body) (hturn : turn body = none)
      (hpoll : poll_frame body = (answer, next)) : Run allowed start (frames ++ given answer) next

/-- Every run is one of these. -/
def anything (_ : List Frame) (_ _ : B) : Prop := True

/-- The turns of a poll come to an end, and a run goes through them. -/
theorem Run.settles {start body : B} {frames : List Frame} (h : Run anything start frames body) :
    ∃ last, Run anything start frames last ∧ turn last = none ∧
      poll_frame body = poll_frame last := by
  induction body using (Turns.ends (B := B)).induction with
  | _ body ih =>
    cases hturn : turn body with
    | none => exact ⟨body, h, hturn, rfl⟩
    | some next =>
      obtain ⟨last, hrun, hlast, hpoll⟩ := ih next hturn (.turned h hturn trivial)
      exact ⟨last, hrun, hlast, (poll_turn hturn).trans hpoll⟩

/-- No poll is missed: the body after any number of polls is one of a run. -/
theorem run_after_polls (count : Nat) {start body : B} {frames : List Frame}
    (h : Run anything start frames body) :
    Run anything start (frames ++ (answers count body).flatMap given) (after_polls count body) := by
  induction count generalizing body frames with
  | zero => simpa [answers, after_polls] using h
  | succ count ih =>
    obtain ⟨last, hrun, hturn, hpoll⟩ := h.settles
    rcases hanswer : poll_frame body with ⟨answer, next⟩
    have hnext := ih (.polled hrun hturn (hpoll.symm.trans hanswer))
    rw [answers, List.flatMap_cons, after_polls, hanswer, ← List.append_assoc]
    exact hnext

end Runs

/-! ## Turns of a body over an inner one -/

section Inner

variable {B Frame Error : Type} [Body B Frame Error] [Turns B]

/-- A turn, or a poll that leaves more to poll for. -/
def Onward (next body : B) : Prop := turn body = some next ∨ After next body

/-- A turn leaves the same polls, so the turns between two polls put nothing off for ever. -/
theorem onward_wellFounded [Ends B Frame Error] : WellFounded (Onward : B → B → Prop) := by
  refine ⟨fun body => ?_⟩
  induction body using (Ends.ends (B := B)).induction with
  | _ body ihpoll =>
    induction body using (Turns.ends (B := B)).induction with
    | _ body ihturn =>
      refine ⟨_, fun next hnext => ?_⟩
      rcases hnext with hturn | hafter
      · apply ihturn next hturn
        intro later hlater
        apply ihpoll later
        rcases hlater with h | h
        · exact .pending ((poll_turn hturn).trans h)
        · exact .frame ((poll_turn hturn).trans h)
      · exact ihpoll next hafter

/-- What a loop over an inner body has before it, as `remaining` has it. -/
def Sooner : Nat × B × Nat → Nat × B × Nat → Prop :=
  Prod.Lex (· < ·) (Prod.Lex Onward (· < ·))

theorem sooner_wellFounded [Ends B Frame Error] :
    WellFounded (Sooner : Nat × B × Nat → Nat × B × Nat → Prop) :=
  WellFounded.prod_lex Nat.lt_wfRel.wf (WellFounded.prod_lex onward_wellFounded Nat.lt_wfRel.wf)

variable {inner next : B} {held held' : Nat}

theorem sooner_of_finishing {finished finished' : Bool} (h : finished = false)
    (h' : finished' = true) :
    Sooner (remaining finished' next held') (remaining finished inner held) := by
  subst h h'
  exact .left _ _ Nat.zero_lt_one

theorem sooner_of_onward (finished : Bool) (h : Onward next inner) :
    Sooner (remaining finished next held') (remaining finished inner held) :=
  .right _ (.left _ _ h)

theorem sooner_of_less (finished : Bool) (inner : B) (h : held' < held) :
    Sooner (remaining finished inner held') (remaining finished inner held) :=
  .right _ (.right _ h)

end Inner

end polled_bodies
