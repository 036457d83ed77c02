-- Programs of atomic sections. Tasks take turns on one state: a turn runs a
-- whole section, or takes a lock, or gives one back. An outline says what each
-- section needs of the state, and the rule here carries an outline through
-- every order of the turns.
import Mathlib

namespace atomic_sections

/-- What a task has still to do. A section runs at once. Its outcome is not its own to choose,
and the task goes on from the outcome and from the state that the section met. -/
inductive Program (Lock Section Outcome State : Type)
  | done
  | acquire (lock : Lock) (next : Program Lock Section Outcome State)
  | release (lock : Lock) (next : Program Lock Section Outcome State)
  | run (part : Section) (next : Outcome → State → Program Lock Section Outcome State)

/-- The state, who holds each lock, and the program of each task. -/
structure World (Lock Section Outcome State : Type) where
  state : State
  holder : Lock → Option Nat
  programs : Nat → Program Lock Section Outcome State

inductive Turn (Lock Section Outcome State : Type)
  | spawn (task : Nat) (program : Program Lock Section Outcome State)
  | step (task : Nat) (outcome : Outcome)

variable {Lock Section Outcome State : Type}

/-- No task has begun. -/
def World.start (state : State) : World Lock Section Outcome State :=
  ⟨state, fun _ => none, fun _ => .done⟩

/-- No task is in progress. -/
def World.Idle (world : World Lock Section Outcome State) : Prop :=
  ∀ task, world.programs task = .done

def World.goes_on (world : World Lock Section Outcome State) (task : Nat)
    (program : Program Lock Section Outcome State) : World Lock Section Outcome State :=
  { world with programs := Function.update world.programs task program }

section Turns

variable [DecidableEq Lock] (effect : Section → Outcome → State → State)

/-- A task waits for a lock that is held: its turn then does nothing. A new task takes the
number of one that is done. -/
def World.turn (world : World Lock Section Outcome State) :
    Turn Lock Section Outcome State → World Lock Section Outcome State
  | .spawn task program =>
    match world.programs task with
    | .done => world.goes_on task program
    | _ => world
  | .step task outcome =>
    match world.programs task with
    | .done => world
    | .acquire lock next =>
      if world.holder lock = none then
        { world.goes_on task next with
          holder := Function.update world.holder lock (some task) }
      else world
    | .release lock next =>
      { world.goes_on task next with holder := Function.update world.holder lock none }
    | .run part next =>
      { world.goes_on task (next outcome world.state) with
        state := effect part outcome world.state }

def World.run (world : World Lock Section Outcome State)
    (turns : List (Turn Lock Section Outcome State)) : World Lock Section Outcome State :=
  turns.foldl (World.turn effect) world

end Turns

/-! ## Conditions on the turns -/

section Conditions

variable [DecidableEq Lock] (effect : Section → Outcome → State → State)
  (allowed : World Lock Section Outcome State → Nat → Section → Outcome → Prop)

/-- The section that the turn runs, if it runs one, is allowed in the world before it. -/
def World.Allows (world : World Lock Section Outcome State) :
    Turn Lock Section Outcome State → Prop
  | .spawn _ _ => True
  | .step task outcome =>
    match world.programs task with
    | .run part _ => allowed world task part outcome
    | _ => True

/-- Each turn is allowed in the world that it meets. -/
def World.AllowsAll (world : World Lock Section Outcome State) :
    List (Turn Lock Section Outcome State) → Prop
  | [] => True
  | turn :: turns => world.Allows allowed turn ∧ (world.turn effect turn).AllowsAll turns

variable {effect} {allowed}

theorem World.allowsAll_append {world : World Lock Section Outcome State}
    {turns later : List (Turn Lock Section Outcome State)} :
    world.AllowsAll effect allowed (turns ++ later) ↔
      world.AllowsAll effect allowed turns ∧ (world.run effect turns).AllowsAll effect allowed later := by
  induction turns generalizing world with
  | nil => simp [World.AllowsAll, World.run]
  | cons turn turns ih =>
    rw [List.cons_append, World.AllowsAll, World.AllowsAll, ih, and_assoc]
    rfl

theorem World.AllowsAll.and {allowed' : World Lock Section Outcome State → Nat → Section → Outcome → Prop}
    {world : World Lock Section Outcome State} {turns : List (Turn Lock Section Outcome State)}
    (h : world.AllowsAll effect allowed turns) (h' : world.AllowsAll effect allowed' turns) :
    world.AllowsAll effect (fun world task part outcome => allowed world task part outcome ∧
      allowed' world task part outcome) turns := by
  induction turns generalizing world with
  | nil => trivial
  | cons turn turns ih =>
    refine ⟨?_, ih h.2 h'.2⟩
    have hfirst := h.1
    have hfirst' := h'.1
    cases turn with
    | spawn task program => trivial
    | step task outcome =>
      unfold World.Allows at hfirst hfirst' ⊢
      cases hprogram : world.programs task <;> simp_all

end Conditions

/-! ## Outlines -/

/-- The task holds this lock and no other. -/
def World.Holds (world : World Lock Section Outcome State) (task : Nat) (held : Option Lock) :
    Prop :=
  ∀ lock, world.holder lock = some task ↔ held = some lock

theorem World.Holds.ne {world : World Lock Section Outcome State} {task other : Nat}
    {held : Option Lock} {lock : Lock} (h : world.Holds task held)
    (h' : world.Holds other (some lock)) (hne : other ≠ task) : held ≠ some lock := by
  intro hheld
  have htask : world.holder lock = some task := (h lock).mpr hheld
  have hother : world.holder lock = some other := (h' lock).mpr rfl
  rw [htask] at hother
  exact hne (Option.some.inj hother).symm

/-- What holds between the turns, and what a task needs of the state before a section, given
the lock that it holds. A section keeps the invariant, and it keeps what the other tasks need. -/
structure Outline (effect : Section → Outcome → State → State)
    (allowed : World Lock Section Outcome State → Nat → Section → Outcome → Prop) where
  Invariant : State → Prop
  Needs : Option Lock → Section → State → Prop
  keeps : ∀ {world : World Lock Section Outcome State} {task : Nat} {held : Option Lock}
    {part : Section} {outcome : Outcome}, world.Holds task held → Invariant world.state →
    Needs held part world.state → allowed world task part outcome →
    Invariant (effect part outcome world.state)
  spares : ∀ {world : World Lock Section Outcome State} {task other : Nat}
    {held held' : Option Lock} {part part' : Section} {outcome : Outcome}
    {next : Outcome → State → Program Lock Section Outcome State}, other ≠ task →
    world.Holds task held → world.Holds other held' → world.programs other = .run part' next →
    Invariant world.state → Needs held part world.state → allowed world task part outcome →
    Needs held' part' world.state → Needs held' part' (effect part outcome world.state)

section Rules

variable {effect : Section → Outcome → State → State}
  {allowed : World Lock Section Outcome State → Nat → Section → Outcome → Prop}
  (outline : Outline effect allowed)

/-- The state is what the next section needs. -/
def Program.Ready (held : Option Lock) (state : State) :
    Program Lock Section Outcome State → Prop
  | .run part _ => outline.Needs held part state
  | _ => True

/-- The program takes one lock at a time and gives it back, and each section leaves what the
next one needs. -/
def Program.Follows : Option Lock → Program Lock Section Outcome State → Prop
  | held, .done => held = none
  | held, .acquire lock next =>
    held = none ∧ (∀ state, outline.Invariant state → next.Ready outline (some lock) state) ∧
      next.Follows (some lock)
  | held, .release lock next =>
    held = some lock ∧ (∀ state, outline.Invariant state → next.Ready outline none state) ∧
      next.Follows none
  | held, .run part next =>
    ∀ (world : World Lock Section Outcome State) (task : Nat) (outcome : Outcome),
      world.Holds task held → outline.Invariant world.state →
      outline.Needs held part world.state → allowed world task part outcome →
      (next outcome world.state).Ready outline held (effect part outcome world.state) ∧
        (next outcome world.state).Follows held

/-- The program can begin in any state of the invariant. -/
structure Program.Sound (held : Option Lock) (program : Program Lock Section Outcome State) :
    Prop where
  ready : ∀ state, outline.Invariant state → program.Ready outline held state
  follows : program.Follows outline held

structure World.TaskOk (world : World Lock Section Outcome State) (task : Nat)
    (held : Option Lock) : Prop where
  holds : world.Holds task held
  ready : (world.programs task).Ready outline held world.state
  follows : (world.programs task).Follows outline held

structure World.Ok (world : World Lock Section Outcome State) : Prop where
  invariant : outline.Invariant world.state
  tasks : ∀ task, ∃ held, world.TaskOk outline task held

variable {outline}

theorem Program.Sound.done : (Program.done : Program Lock Section Outcome State).Sound outline
    none :=
  ⟨fun _ _ => trivial, rfl⟩

theorem Program.Sound.acquire {lock : Lock} {next : Program Lock Section Outcome State}
    (h : next.Sound outline (some lock)) : (Program.acquire lock next).Sound outline none :=
  ⟨fun _ _ => trivial, rfl, h.ready, h.follows⟩

theorem Program.Sound.release {lock : Lock} {next : Program Lock Section Outcome State}
    (h : next.Sound outline none) : (Program.release lock next).Sound outline (some lock) :=
  ⟨fun _ _ => trivial, rfl, h.ready, h.follows⟩

/-- After a section that needs nothing, a program that needs only the invariant. -/
theorem Program.Sound.run {held : Option Lock} {part : Section}
    {next : Outcome → State → Program Lock Section Outcome State}
    (hneeds : ∀ state, outline.Invariant state → outline.Needs held part state)
    (h : ∀ outcome state, (next outcome state).Sound outline held) :
    (Program.run part next).Sound outline held := by
  refine ⟨hneeds, ?_⟩
  intro world task outcome hholds hinv hneeds hallowed
  have hnext := h outcome world.state
  exact ⟨hnext.ready _ (outline.keeps hholds hinv hneeds hallowed), hnext.follows⟩

theorem World.start_ok {state : State} (h : outline.Invariant state) :
    (World.start state).Ok outline := by
  refine ⟨h, ?_⟩
  intro task
  refine ⟨none, ?_, trivial, rfl⟩
  intro lock
  simp [World.start]

/-- The other tasks after a turn that leaves the state as it was. -/
theorem World.TaskOk.of_same {world world' : World Lock Section Outcome State} {task : Nat}
    {held : Option Lock} (h : world.TaskOk outline task held) (hstate : world'.state = world.state)
    (hprogram : world'.programs task = world.programs task) (hholds : world'.Holds task held) :
    world'.TaskOk outline task held := by
  refine ⟨hholds, ?_, ?_⟩
  · rw [hprogram, hstate]
    exact h.ready
  · rw [hprogram]
    exact h.follows

theorem World.Ok.part {world : World Lock Section Outcome State} (h : world.Ok outline)
    {task : Nat} {outcome : Outcome} {part : Section}
    {next : Outcome → State → Program Lock Section Outcome State}
    (hprogram : world.programs task = .run part next)
    (hallowed : allowed world task part outcome) :
    World.Ok outline { world.goes_on task (next outcome world.state) with
      state := effect part outcome world.state } := by
  obtain ⟨held, hok⟩ := h.tasks task
  have hneeds := hok.ready
  have hfollows := hok.follows
  rw [hprogram] at hneeds hfollows
  obtain ⟨hready, hnext⟩ := hfollows world task outcome hok.holds h.invariant hneeds hallowed
  refine ⟨outline.keeps hok.holds h.invariant hneeds hallowed, ?_⟩
  intro other
  by_cases hother : other = task
  · subst hother
    refine ⟨held, hok.holds, ?_, ?_⟩
    · simpa [World.goes_on] using hready
    · simpa [World.goes_on] using hnext
  · obtain ⟨held', hok'⟩ := h.tasks other
    refine ⟨held', hok'.holds, ?_, ?_⟩
    · simp only [World.goes_on, Function.update_of_ne hother]
      have hready' := hok'.ready
      rcases hother' : world.programs other with _ | _ | _ | ⟨part', next'⟩
      · trivial
      · trivial
      · trivial
      · rw [hother'] at hready'
        exact outline.spares hother hok.holds hok'.holds hother' h.invariant hneeds hallowed hready'
    · simpa only [World.goes_on, Function.update_of_ne hother] using hok'.follows

variable [DecidableEq Lock]

theorem World.Ok.spawn {world : World Lock Section Outcome State} (h : world.Ok outline)
    (task : Nat) {program : Program Lock Section Outcome State}
    (hsound : program.Sound outline none) : (world.turn effect (.spawn task program)).Ok outline := by
  unfold World.turn
  dsimp only
  split
  · rename_i hdone
    refine ⟨h.invariant, ?_⟩
    intro other
    obtain ⟨held, hok⟩ := h.tasks other
    by_cases hother : other = task
    · subst hother
      have hfollows := hok.follows
      rw [hdone] at hfollows
      obtain rfl : held = none := hfollows
      refine ⟨none, hok.holds, ?_, ?_⟩
      · simpa [World.goes_on] using hsound.ready _ h.invariant
      · simpa [World.goes_on] using hsound.follows
    · refine ⟨held, hok.of_same rfl ?_ hok.holds⟩
      simp [World.goes_on, Function.update_of_ne hother]
  · exact h

theorem World.Ok.acquire {world : World Lock Section Outcome State} (h : world.Ok outline)
    {task : Nat} {lock : Lock} {next : Program Lock Section Outcome State}
    (hprogram : world.programs task = .acquire lock next) (hfree : world.holder lock = none) :
    World.Ok outline { world.goes_on task next with
      holder := Function.update world.holder lock (some task) } := by
  refine ⟨h.invariant, ?_⟩
  intro other
  obtain ⟨held, hok⟩ := h.tasks other
  by_cases hother : other = task
  · subst hother
    have hfollows := hok.follows
    rw [hprogram] at hfollows
    obtain ⟨rfl, hready, hnext⟩ := hfollows
    refine ⟨some lock, ?_, ?_, ?_⟩
    · intro lock'
      by_cases hlock : lock' = lock
      · simp [hlock]
      · have hheld := hok.holds lock'
        simp only [reduceCtorEq, iff_false] at hheld
        simp [Function.update_of_ne hlock, hheld, Ne.symm hlock]
    · simpa [World.goes_on] using hready _ h.invariant
    · simpa [World.goes_on] using hnext
  · refine ⟨held, hok.of_same rfl ?_ ?_⟩
    · simp [World.goes_on, Function.update_of_ne hother]
    · intro lock'
      by_cases hlock : lock' = lock
      · subst hlock
        have hheld := hok.holds lock'
        simp only [hfree, reduceCtorEq, false_iff] at hheld
        simp [hheld, Ne.symm hother]
      · simpa [Function.update_of_ne hlock] using hok.holds lock'

theorem World.Ok.release {world : World Lock Section Outcome State} (h : world.Ok outline)
    {task : Nat} {lock : Lock} {next : Program Lock Section Outcome State}
    (hprogram : world.programs task = .release lock next) :
    World.Ok outline { world.goes_on task next with
      holder := Function.update world.holder lock none } := by
  obtain ⟨held, hok⟩ := h.tasks task
  have hfollows := hok.follows
  rw [hprogram] at hfollows
  obtain ⟨rfl, hready, hnext⟩ := hfollows
  refine ⟨h.invariant, ?_⟩
  intro other
  by_cases hother : other = task
  · subst hother
    refine ⟨none, ?_, ?_, ?_⟩
    · intro lock'
      by_cases hlock : lock' = lock
      · simp [hlock]
      · have hheld := hok.holds lock'
        simp only [Option.some.injEq, Ne.symm hlock, iff_false] at hheld
        simp [Function.update_of_ne hlock, hheld]
    · simpa [World.goes_on] using hready _ h.invariant
    · simpa [World.goes_on] using hnext
  · obtain ⟨held', hok'⟩ := h.tasks other
    refine ⟨held', hok'.of_same rfl ?_ ?_⟩
    · simp [World.goes_on, Function.update_of_ne hother]
    · intro lock'
      by_cases hlock : lock' = lock
      · subst hlock
        have hheld : held' ≠ some lock' := hok'.holds.ne hok.holds (Ne.symm hother)
        simp [hheld]
      · simpa [Function.update_of_ne hlock] using hok'.holds lock'

/-- One turn keeps the outline. -/
theorem World.Ok.turn {world : World Lock Section Outcome State} (h : world.Ok outline)
    {turn : Turn Lock Section Outcome State} (hallows : world.Allows allowed turn)
    (hspawned : ∀ task program, turn = .spawn task program → program.Sound outline none) :
    (world.turn effect turn).Ok outline := by
  cases turn with
  | spawn task program => exact h.spawn task (hspawned task program rfl)
  | step task outcome =>
    unfold World.turn
    unfold World.Allows at hallows
    dsimp only at hallows ⊢
    rcases hprogram : world.programs task with _ | ⟨lock, next⟩ | ⟨lock, next⟩ | ⟨part, next⟩
    · exact h
    · dsimp only
      split
      · rename_i hfree
        exact h.acquire hprogram hfree
      · exact h
    · exact h.release hprogram
    · rw [hprogram] at hallows
      exact h.part hprogram hallows

/-- A run keeps the outline when its turns are allowed and its tasks begin soundly. -/
theorem World.Ok.run {world : World Lock Section Outcome State} (h : world.Ok outline)
    {turns : List (Turn Lock Section Outcome State)}
    (hallows : world.AllowsAll effect allowed turns)
    (hspawned : ∀ task program, Turn.spawn task program ∈ turns → program.Sound outline none) :
    (world.run effect turns).Ok outline := by
  induction turns generalizing world with
  | nil => exact h
  | cons turn turns ih =>
    have hturn : (world.turn effect turn).Ok outline := by
      apply h.turn hallows.1
      intro task program hspawn
      exact hspawned task program (by simp [hspawn])
    apply ih hturn hallows.2
    intro task program hmem
    exact hspawned task program (List.mem_cons_of_mem _ hmem)

end Rules

/-! ## The sections of a program -/

section Parts

variable (parts : Section → Prop)

/-- Every section that the program can come to is one of these. -/
def Program.Only : Program Lock Section Outcome State → Prop
  | .done => True
  | .acquire _ next => next.Only
  | .release _ next => next.Only
  | .run part next => parts part ∧ ∀ outcome state, (next outcome state).Only

/-- The state is in order, and the tasks run no other sections. -/
structure World.Within (Invariant : State → Prop) (world : World Lock Section Outcome State) :
    Prop where
  invariant : Invariant world.state
  tasks : ∀ task, (world.programs task).Only parts

variable {parts} {effect : Section → Outcome → State → State} {Invariant : State → Prop}

theorem World.start_within {state : State} (h : Invariant state) :
    (World.start state : World Lock Section Outcome State).Within parts Invariant :=
  ⟨h, fun _ => trivial⟩

theorem Program.Only.goes_on {world : World Lock Section Outcome State}
    (h : ∀ task, (world.programs task).Only parts) (task : Nat)
    {program : Program Lock Section Outcome State} (hprogram : program.Only parts) (other : Nat) :
    ((world.goes_on task program).programs other).Only parts := by
  by_cases hother : other = task
  · subst hother
    simpa [World.goes_on] using hprogram
  · simpa [World.goes_on, Function.update_of_ne hother] using h other

/-- A turn that is allowed stays within the sections, when its task begins there, and where an
allowed section keeps the invariant the turn does. -/
theorem World.Within.turn_allowed [DecidableEq Lock] {world : World Lock Section Outcome State}
    {allowed : World Lock Section Outcome State → Nat → Section → Outcome → Prop}
    (h : world.Within parts Invariant)
    (hkeeps : ∀ (world : World Lock Section Outcome State) task part outcome, parts part →
      allowed world task part outcome → Invariant world.state →
      Invariant (effect part outcome world.state))
    {turn : Turn Lock Section Outcome State} (hallows : world.Allows allowed turn)
    (hspawned : ∀ task program, turn = .spawn task program → program.Only parts) :
    (world.turn effect turn).Within parts Invariant := by
  cases turn with
  | spawn task program =>
    unfold World.turn
    dsimp only
    split
    · exact ⟨h.invariant, Program.Only.goes_on h.tasks task (hspawned task program rfl)⟩
    · exact h
  | step task outcome =>
    have htask := h.tasks task
    unfold World.turn
    unfold World.Allows at hallows
    dsimp only at hallows ⊢
    rcases hprogram : world.programs task with _ | ⟨lock, next⟩ | ⟨lock, next⟩ | ⟨part, next⟩
    · exact h
    · rw [hprogram] at htask
      dsimp only
      split
      · exact ⟨h.invariant, Program.Only.goes_on h.tasks task htask⟩
      · exact h
    · rw [hprogram] at htask
      exact ⟨h.invariant, Program.Only.goes_on h.tasks task htask⟩
    · rw [hprogram] at htask hallows
      exact ⟨hkeeps world task part outcome htask.1 hallows h.invariant,
        Program.Only.goes_on h.tasks task (htask.2 outcome world.state)⟩

/-- A turn stays within the sections that keep the invariant, when its task begins there. -/
theorem World.Within.turn [DecidableEq Lock] {world : World Lock Section Outcome State}
    (h : world.Within parts Invariant)
    (hkeeps : ∀ part outcome state, parts part → Invariant state →
      Invariant (effect part outcome state))
    {turn : Turn Lock Section Outcome State}
    (hspawned : ∀ task program, turn = .spawn task program → program.Only parts) :
    (world.turn effect turn).Within parts Invariant := by
  have hallows : world.Allows (fun _ _ _ _ => True) turn := by
    cases turn with
    | spawn task program => trivial
    | step task outcome =>
      unfold World.Allows
      dsimp only
      split <;> trivial
  exact h.turn_allowed (fun world _ part outcome hpart _ hinv =>
    hkeeps part outcome world.state hpart hinv) hallows hspawned

/-- A run whose turns are allowed stays within the sections and keeps the invariant. -/
theorem World.Within.run [DecidableEq Lock] {world : World Lock Section Outcome State}
    {allowed : World Lock Section Outcome State → Nat → Section → Outcome → Prop}
    (h : world.Within parts Invariant)
    (hkeeps : ∀ (world : World Lock Section Outcome State) task part outcome, parts part →
      allowed world task part outcome → Invariant world.state →
      Invariant (effect part outcome world.state))
    {turns : List (Turn Lock Section Outcome State)}
    (hallows : world.AllowsAll effect allowed turns)
    (hspawned : ∀ task program, Turn.spawn task program ∈ turns → program.Only parts) :
    (world.run effect turns).Within parts Invariant := by
  induction turns generalizing world with
  | nil => exact h
  | cons turn turns ih =>
    have hturn : (world.turn effect turn).Within parts Invariant := by
      apply h.turn_allowed hkeeps hallows.1
      intro task program hspawn
      exact hspawned task program (by simp [hspawn])
    apply ih hturn hallows.2
    intro task program hmem
    exact hspawned task program (List.mem_cons_of_mem _ hmem)

end Parts

end atomic_sections
