-- Runs of a step function, and what holds at every step of them.
import Mathlib.Logic.Basic

namespace step_runs

variable {State Event : Type} (step : State → Event → State)

/-- What holds before each event of a run. -/
def Along (P : State → Event → Prop) : State → List Event → Prop
  | _, [] => True
  | state, event :: events => P state event ∧ Along P (step state event) events

def after (state : State) (events : List Event) : State := events.foldl step state

variable {step}

theorem after_append (state : State) (before later : List Event) :
    after step state (before ++ later) = after step (after step state before) later :=
  List.foldl_append

/-- What holds along a run holds where the run has come to an event. -/
theorem Along.at_event {P : State → Event → Prop} {state : State} {before : List Event}
    {event : Event} {later : List Event} (h : Along step P state (before ++ event :: later)) :
    P (after step state before) event := by
  induction before generalizing state with
  | nil => exact h.1
  | cons first before ih => exact ih h.2

/-- What each event of a list meets in every state. -/
theorem along_of_mem {P : State → Event → Prop} {events : List Event}
    (h : ∀ event ∈ events, ∀ state, P state event) (state : State) : Along step P state events := by
  induction events generalizing state with
  | nil => trivial
  | cons event events ih =>
    exact ⟨h event List.mem_cons_self state,
      ih (fun other hother => h other (List.mem_cons_of_mem _ hother)) _⟩

section Invariant

variable {Invariant : State → Prop}
  (hstep : ∀ state event, Invariant state → Invariant (step state event))

include hstep

/-- The induction over a run. -/
theorem after_of_invariant {state : State} (h : Invariant state) (events : List Event) :
    Invariant (after step state events) := by
  induction events generalizing state with
  | nil => exact h
  | cons event events ih => exact ih (hstep state event h)

theorem along_of_invariant {P : State → Event → Prop}
    (hP : ∀ state event, Invariant state → P state event) {state : State} (h : Invariant state)
    (events : List Event) : Along step P state events := by
  induction events generalizing state with
  | nil => trivial
  | cons event events ih => exact ⟨hP state event h, ih (hstep state event h)⟩

/-- What is the same at each step is the same along a run. -/
theorem along_iff {P Q : State → Event → Prop}
    (hPQ : ∀ state event, Invariant state → (P state event ↔ Q state event)) {state : State}
    (h : Invariant state) (events : List Event) :
    Along step P state events ↔ Along step Q state events := by
  induction events generalizing state with
  | nil => exact Iff.rfl
  | cons event events ih => exact and_congr (hPQ state event h) (ih (hstep state event h))

end Invariant

/-- What follows at each step from a condition on the step follows along a run whose steps all meet
the condition. -/
theorem along_of_along {Invariant : State → Prop} {P Q : State → Event → Prop}
    (hstep : ∀ state event, Invariant state → P state event → Invariant (step state event))
    (hPQ : ∀ state event, Invariant state → P state event → Q state event) {state : State}
    (h : Invariant state) (events : List Event) :
    Along step P state events → Along step Q state events := by
  induction events generalizing state with
  | nil => exact fun _ => trivial
  | cons event events ih =>
    exact fun hrun => ⟨hPQ state event h hrun.1, ih (hstep state event h hrun.1) hrun.2⟩

/-- An invariant that the steps keep under a condition holds after a run whose steps all meet it. -/
theorem after_of_along {Invariant : State → Prop} {P : State → Event → Prop}
    (hstep : ∀ state event, Invariant state → P state event → Invariant (step state event))
    {state : State} (h : Invariant state) {events : List Event} (hrun : Along step P state events) :
    Invariant (after step state events) := by
  induction events generalizing state with
  | nil => exact h
  | cons event events ih => exact ih (hstep state event h hrun.1) hrun.2

/-! ## Changes one by one -/

/-- The states after each of the changes, and the last one. A change may fail, and ends the run. -/
def passed : List (State → Option State) → State → List State × Option State
  | [], state => ([], some state)
  | change :: changes, state =>
    match change state with
    | none => ([], none)
    | some next =>
      let rest := passed changes next
      (next :: rest.1, rest.2)

/-- No change fails; every state on the way is good, and the last one is as it should end. -/
structure Passes (Good End : State → Prop) (changes : List (State → Option State))
    (state : State) : Prop where
  good : ∀ between ∈ (passed changes state).1, Good between
  ends : ∃ last, (passed changes state).2 = some last ∧ End last

section Passes

variable {Good End : State → Prop} {state : State}

theorem passed_cons {change : State → Option State} {changes : List (State → Option State)}
    {next : State} (h : change state = some next) :
    passed (change :: changes) state = (next :: (passed changes next).1, (passed changes next).2) := by
  rw [passed, h]

theorem Passes.nil (h : End state) : Passes Good End [] state :=
  ⟨by simp [passed], state, rfl, h⟩

theorem Passes.cons {change : State → Option State} {changes : List (State → Option State)}
    {next : State} (hchange : change state = some next) (hgood : Good next)
    (h : Passes Good End changes next) : Passes Good End (change :: changes) state := by
  constructor
  · rw [passed_cons hchange]
    exact List.forall_mem_cons.mpr ⟨hgood, h.good⟩
  · rw [passed_cons hchange]
    exact h.ends

theorem Passes.append {Middle : State → Prop} {first later : List (State → Option State)}
    (h : Passes Good Middle first state)
    (hlater : ∀ middle, Middle middle → Passes Good End later middle) :
    Passes Good End (first ++ later) state := by
  induction first generalizing state with
  | nil =>
    obtain ⟨last, hlast, hmiddle⟩ := h.ends
    obtain rfl := Option.some.inj hlast
    exact hlater state hmiddle
  | cons change changes ih =>
    cases hchange : change state with
    | none =>
      obtain ⟨last, hlast, _⟩ := h.ends
      rw [passed, hchange] at hlast
      cases hlast
    | some next =>
      have hgood := h.good
      have hends := h.ends
      rw [passed_cons hchange] at hgood hends
      obtain ⟨hnext, hrest⟩ := List.forall_mem_cons.mp hgood
      exact Passes.cons hchange hnext (ih ⟨hrest, hends⟩)

/-- A change for each item, where the invariant knows the items that are left. -/
theorem Passes.each {Item : Type} {change_of : Item → State → Option State}
    {Left : List Item → State → Prop}
    (hchange : ∀ item items state, Left (item :: items) state →
      ∃ next, change_of item state = some next ∧ Good next ∧ Left items next)
    {items : List Item} (h : Left items state) :
    Passes Good (Left []) (items.map change_of) state := by
  induction items generalizing state with
  | nil => exact Passes.nil h
  | cons item items ih =>
    obtain ⟨next, hnext, hgood, hleft⟩ := hchange item items state h
    exact Passes.cons hnext hgood (ih hleft)

/-- The last state on the way is the one that the changes end in. -/
theorem passed_getLastD {changes : List (State → Option State)} {last : State}
    (h : (passed changes state).2 = some last) : (passed changes state).1.getLastD state = last := by
  induction changes generalizing state with
  | nil => exact Option.some.inj h
  | cons change changes ih =>
    cases hchange : change state with
    | none =>
      rw [passed, hchange] at h
      cases h
    | some next =>
      rw [passed_cons hchange] at h ⊢
      rw [List.getLastD_cons]
      exact ih h

end Passes

end step_runs
