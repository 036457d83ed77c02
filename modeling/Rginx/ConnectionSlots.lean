-- The slots for connections, from `state/connections/operations/acquire.rs`, `state/connections/guards.rs`
-- and `state/lifecycle/status.rs`: each atomic operation of a connection is a turn of its own, and any
-- number of connections are accepted, upgraded and dropped between the turns of another.
import Mathlib.Data.List.Count
import Mathlib.Logic.Function.Basic
import Rginx.StepRuns

open step_runs

namespace rginx.state

/-- The next operation of a connection on the counters, with the number of its listener's counter.
A slot is accepted, or retained for an upgrade. -/
inductive SlotPhase
  | Lookup (limit : Option Nat)
  | LookupRetained
  | Load (counter : Nat) (limit : Option Nat)
  | CompareExchange (counter : Nat) (limit : Option Nat) (current : Nat)
  | AddListener (counter : Nat)
  | AddActive (counter : Nat) (retained : Bool)
  /-- The guard is alive. -/
  | Held (counter : Nat) (retained : Bool)
  | SubListener (counter : Nat) (retained : Bool)
  | Refused
  | Panicked
  | Dropped

structure Connection where
  listener_id : String
  phase : SlotPhase

/-- `active_connections`, the counters that are shared through an `Arc`, and the map of the
listeners to them. -/
structure ConnectionState where
  active_connections : Nat
  counters : Nat → Nat
  allocated : Nat
  listener_active_connections : String → Option Nat
  connections : List Connection

inductive ConnectionEvent
  | try_acquire_connection (listener_id : String) (limit : Option Nat)
  | retain_connection_slot (listener_id : String)
  /-- `compare_exchange_weak` may fail without a reason. -/
  | turn (connection : Nat) (spurious : Bool)
  | drop_guard (connection : Nat)
  | sync_listener_active_connections (listener_id : String)
  | remove_retired_listener_runtime (listener_id : String)

/-- There are never so many connections that an addition wraps. -/
def fetch_add (value : Nat) : Nat := value + 1

def fetch_sub (value : Nat) : Nat := if value = 0 then UInt64.size - 1 else value - 1

namespace ConnectionState

def new : ConnectionState := ⟨0, fun _ => 0, 0, fun _ => none, []⟩

def add_listener (state : ConnectionState) (counter : Nat) : ConnectionState :=
  { state with
    counters := Function.update state.counters counter (fetch_add (state.counters counter)) }

def sub_listener (state : ConnectionState) (counter : Nat) : ConnectionState :=
  { state with
    counters := Function.update state.counters counter (fetch_sub (state.counters counter)) }

/-- The counters after the next operation of a connection, and where the connection stands then. -/
def operate (state : ConnectionState) (spurious : Bool) (connection : Connection) :
    ConnectionState × SlotPhase :=
  match connection.phase with
  | .Lookup limit =>
    match state.listener_active_connections connection.listener_id with
    | none => (state, .Refused)
    | some counter => (state, .Load counter limit)
  | .LookupRetained =>
    match state.listener_active_connections connection.listener_id with
    | none => (state, .Panicked)
    | some counter => (state, .AddListener counter)
  | .Load counter limit =>
    let current := state.counters counter
    if limit.any fun limit => limit ≤ current then (state, .Refused)
    else (state, .CompareExchange counter limit current)
  | .CompareExchange counter limit current =>
    if !spurious && state.counters counter = current then
      (state.add_listener counter, .AddActive counter false)
    else (state, .Load counter limit)
  | .AddListener counter => (state.add_listener counter, .AddActive counter true)
  | .AddActive counter retained =>
    ({ state with active_connections := fetch_add state.active_connections },
      .Held counter retained)
  | .SubListener counter _ => (state.sub_listener counter, .Dropped)
  | .Held counter retained => (state, .Held counter retained)
  | .Refused => (state, .Refused)
  | .Panicked => (state, .Panicked)
  | .Dropped => (state, .Dropped)

def stands (state : ConnectionState) (index : Nat) (connection : Connection)
    (phase : SlotPhase) : ConnectionState :=
  { state with connections := state.connections.set index { connection with phase } }

def turn (state : ConnectionState) (index : Nat) (spurious : Bool) : ConnectionState :=
  match state.connections[index]? with
  | none => state
  | some connection =>
    let (operated, phase) := state.operate spurious connection
    operated.stands index connection phase

/-- The first operation of the drop of a guard. -/
def drop_guard (state : ConnectionState) (index : Nat) : ConnectionState :=
  match state.connections[index]? with
  | some ⟨listener_id, .Held counter retained⟩ =>
    { state with active_connections := fetch_sub state.active_connections }.stands index
      ⟨listener_id, .Held counter retained⟩ (.SubListener counter retained)
  | _ => state

/-- One listener of `sync_listener_active_connections`, or `retire_listener_runtime`. -/
def sync_listener (state : ConnectionState) (listener_id : String) : ConnectionState :=
  match state.listener_active_connections listener_id with
  | some _ => state
  | none =>
    { state with
      counters := Function.update state.counters state.allocated 0
      allocated := state.allocated + 1
      listener_active_connections :=
        Function.update state.listener_active_connections listener_id (some state.allocated) }

def step (state : ConnectionState) : ConnectionEvent → ConnectionState
  | .try_acquire_connection listener_id limit =>
    { state with connections := state.connections ++ [⟨listener_id, .Lookup limit⟩] }
  | .retain_connection_slot listener_id =>
    { state with connections := state.connections ++ [⟨listener_id, .LookupRetained⟩] }
  | .turn index spurious => state.turn index spurious
  | .drop_guard index => state.drop_guard index
  | .sync_listener_active_connections listener_id => state.sync_listener listener_id
  | .remove_retired_listener_runtime listener_id =>
    { state with
      listener_active_connections :=
        Function.update state.listener_active_connections listener_id none }

end ConnectionState

/-! ## What the counters count -/

def SlotPhase.counter : SlotPhase → Option Nat
  | .Load counter _ | .CompareExchange counter _ _ | .AddListener counter | .AddActive counter _
  | .Held counter _ | .SubListener counter _ => some counter
  | _ => none

/-- The connection has a slot of the counter. -/
def Connection.counts (counter : Nat) (connection : Connection) : Bool :=
  match connection.phase with
  | .AddActive own _ | .Held own _ | .SubListener own _ => own = counter
  | _ => false

def Connection.held (connection : Connection) : Bool :=
  match connection.phase with
  | .Held _ _ => true
  | _ => false

/-- The connection has a slot that it was given under a limit. -/
def Connection.accepted (listener_id : String) (connection : Connection) : Bool :=
  match connection.phase with
  | .AddActive _ retained | .Held _ retained | .SubListener _ retained =>
    connection.listener_id = listener_id && !retained
  | _ => false

structure ConnectionState.Ok (state : ConnectionState) : Prop where
  active : state.active_connections = state.connections.countP Connection.held
  counters : ∀ counter,
    state.counters counter = state.connections.countP (Connection.counts counter)
  allocated : ∀ connection ∈ state.connections, ∀ counter,
    connection.phase.counter = some counter → counter < state.allocated
  listed : ∀ listener_id counter,
    state.listener_active_connections listener_id = some counter → counter < state.allocated

/-- What a set of an element changes in a count. -/
theorem countP_set_add {α : Type} {l : List α} {index : Nat} {x : α} (h : l[index]? = some x)
    (y : α) (p : α → Bool) :
    (l.set index y).countP p + (if p x then 1 else 0) = l.countP p + (if p y then 1 else 0) := by
  induction l generalizing index with
  | nil => simp at h
  | cons z l ih =>
    cases index with
    | zero =>
      obtain rfl : z = x := by simpa using h
      simp only [List.set_cons_zero, List.countP_cons]
      omega
    | succ index =>
      have hget : l[index]? = some x := by simpa using h
      have hrest := ih hget
      simp only [List.set_cons_succ, List.countP_cons]
      omega

theorem fetch_sub_add_one {value : Nat} (h : 0 < value) : fetch_sub value + 1 = value := by
  unfold fetch_sub
  rw [if_neg (by omega)]
  omega

def bit (value : Bool) : Nat := if value then 1 else 0

section Steps

variable {state : ConnectionState}

theorem ConnectionState.Ok.new : ConnectionState.new.Ok where
  active := rfl
  counters := fun _ => rfl
  allocated := by simp [ConnectionState.new]
  listed := by simp [ConnectionState.new]

/-- A connection goes from one phase to another, and the counters change with what it has. -/
theorem ConnectionState.Ok.stands (hok : state.Ok) {index : Nat} {connection : Connection}
    (hconnection : state.connections[index]? = some connection) {operated : ConnectionState}
    {phase : SlotPhase}
    (hconnections : operated.connections = state.connections)
    (hallocated : operated.allocated = state.allocated)
    (hlisted : operated.listener_active_connections = state.listener_active_connections)
    (hactive : operated.active_connections + bit connection.held =
      state.active_connections + bit (Connection.held { connection with phase }))
    (hcounters : ∀ counter, operated.counters counter + bit (connection.counts counter) =
      state.counters counter + bit (Connection.counts counter { connection with phase }))
    (hcounter : ∀ counter, phase.counter = some counter → counter < state.allocated) :
    (operated.stands index connection phase).Ok := by
  unfold ConnectionState.stands
  constructor
  · have hset := countP_set_add hconnection { connection with phase } Connection.held
    have hold := hok.active
    unfold bit at hactive
    dsimp only
    rw [hconnections]
    omega
  · intro counter
    have hset := countP_set_add hconnection { connection with phase } (Connection.counts counter)
    have hold := hok.counters counter
    have hnew := hcounters counter
    unfold bit at hnew
    dsimp only
    rw [hconnections]
    omega
  · intro other hother counter hphase
    dsimp only at hother ⊢
    rw [hconnections] at hother
    rw [hallocated]
    rcases List.mem_or_eq_of_mem_set hother with hother | rfl
    · exact hok.allocated other hother counter hphase
    · exact hcounter counter hphase
  · intro listener_id counter h
    dsimp only at h ⊢
    rw [hlisted] at h
    rw [hallocated]
    exact hok.listed listener_id counter h

theorem add_listener_counters (state : ConnectionState) (counter other : Nat) :
    (state.add_listener counter).counters other =
      state.counters other + bit (counter = other : Bool) := by
  unfold ConnectionState.add_listener bit
  by_cases h : other = counter
  · subst h
    simp [fetch_add]
  · simp [Function.update_of_ne h, Ne.symm h]

theorem sub_listener_counters {counter : Nat} (h : 0 < state.counters counter) (other : Nat) :
    (state.sub_listener counter).counters other + bit (counter = other : Bool) =
      state.counters other := by
  unfold ConnectionState.sub_listener bit
  by_cases hother : other = counter
  · subst hother
    simpa using fetch_sub_add_one h
  · simp [Function.update_of_ne hother, Ne.symm hother]

theorem ConnectionState.Ok.turn (hok : state.Ok) (index : Nat) (spurious : Bool) :
    (state.turn index spurious).Ok := by
  unfold ConnectionState.turn
  split
  · exact hok
  rename_i connection hconnection
  have hmem : connection ∈ state.connections := List.mem_of_getElem? hconnection
  have hallocated := hok.allocated connection hmem
  obtain ⟨listener_id, phase⟩ := connection
  unfold ConnectionState.operate
  cases phase with
  | Lookup limit =>
    dsimp only
    split
    · apply hok.stands hconnection <;>
        simp [Connection.held, Connection.counts, SlotPhase.counter]
    · rename_i counter hlisted
      have hcounter := hok.listed listener_id counter hlisted
      apply hok.stands hconnection <;>
        simp [Connection.held, Connection.counts, SlotPhase.counter, hcounter]
  | LookupRetained =>
    dsimp only
    split
    · apply hok.stands hconnection <;>
        simp [Connection.held, Connection.counts, SlotPhase.counter]
    · rename_i counter hlisted
      have hcounter := hok.listed listener_id counter hlisted
      apply hok.stands hconnection <;>
        simp [Connection.held, Connection.counts, SlotPhase.counter, hcounter]
  | Load counter limit =>
    have hcounter := hallocated counter rfl
    dsimp only
    split <;> apply hok.stands hconnection <;>
      simp [Connection.held, Connection.counts, SlotPhase.counter, hcounter]
  | CompareExchange counter limit current =>
    have hcounter := hallocated counter rfl
    dsimp only
    split
    · change ((state.add_listener counter).stands index _ (.AddActive counter false)).Ok
      apply hok.stands hconnection
      · rfl
      · rfl
      · rfl
      · rfl
      · intro other
        rw [add_listener_counters]
        rfl
      · simp [SlotPhase.counter, hcounter]
    · apply hok.stands hconnection <;>
        simp [Connection.held, Connection.counts, SlotPhase.counter, hcounter]
  | AddListener counter =>
    have hcounter := hallocated counter rfl
    change ((state.add_listener counter).stands index _ (.AddActive counter true)).Ok
    apply hok.stands hconnection
    · rfl
    · rfl
    · rfl
    · rfl
    · intro other
      rw [add_listener_counters]
      rfl
    · simp [SlotPhase.counter, hcounter]
  | AddActive counter retained =>
    have hcounter := hallocated counter rfl
    apply hok.stands hconnection <;>
      simp [Connection.held, Connection.counts, SlotPhase.counter, hcounter, fetch_add, bit]
  | SubListener counter retained =>
    have hpos : 0 < state.counters counter := by
      rw [hok.counters]
      exact List.countP_pos_iff.mpr ⟨_, hmem, by simp [Connection.counts]⟩
    change ((state.sub_listener counter).stands index _ .Dropped).Ok
    apply hok.stands hconnection
    · rfl
    · rfl
    · rfl
    · rfl
    · intro other
      exact sub_listener_counters hpos other
    · simp [SlotPhase.counter]
  | Held counter retained =>
    have hcounter := hallocated counter rfl
    apply hok.stands hconnection <;> simp [SlotPhase.counter, hcounter]
  | Refused => apply hok.stands hconnection <;> simp [SlotPhase.counter]
  | Panicked => apply hok.stands hconnection <;> simp [SlotPhase.counter]
  | Dropped => apply hok.stands hconnection <;> simp [SlotPhase.counter]

theorem ConnectionState.Ok.drop_guard (hok : state.Ok) (index : Nat) :
    (state.drop_guard index).Ok := by
  unfold ConnectionState.drop_guard
  split
  · rename_i listener_id counter retained hconnection
    have hmem := List.mem_of_getElem? hconnection
    have hpos : 0 < state.active_connections := by
      rw [hok.active]
      exact List.countP_pos_iff.mpr ⟨_, hmem, rfl⟩
    have hcounter := hok.allocated _ hmem counter rfl
    apply hok.stands hconnection
    · rfl
    · rfl
    · rfl
    · simpa [Connection.held, bit] using fetch_sub_add_one hpos
    · simp [Connection.counts]
    · simp [SlotPhase.counter, hcounter]
  · exact hok

theorem ConnectionState.Ok.sync_listener (hok : state.Ok) (listener_id : String) :
    (state.sync_listener listener_id).Ok := by
  unfold ConnectionState.sync_listener
  split
  · exact hok
  constructor
  · exact hok.active
  · intro counter
    dsimp only
    by_cases h : counter = state.allocated
    · -- Nobody can have a slot of a counter that is new.
      subst h
      rw [Function.update_self, eq_comm, List.countP_eq_zero]
      intro connection hconnection hcounts
      have hless := hok.allocated connection hconnection state.allocated
      unfold Connection.counts at hcounts
      split at hcounts <;> simp_all [SlotPhase.counter]
    · rw [Function.update_of_ne h]
      exact hok.counters counter
  · intro connection hconnection counter hcounter
    exact Nat.lt_succ_of_lt (hok.allocated connection hconnection counter hcounter)
  · intro other counter h
    dsimp only at h ⊢
    by_cases hother : other = listener_id
    · subst hother
      rw [Function.update_self] at h
      obtain rfl := Option.some.inj h
      exact Nat.lt_succ_self _
    · rw [Function.update_of_ne hother] at h
      exact Nat.lt_succ_of_lt (hok.listed other counter h)

/-- A new connection has no slot. -/
theorem ConnectionState.Ok.arrives (hok : state.Ok) {connection : Connection}
    (hcounter : connection.phase.counter = none) (hheld : connection.held = false)
    (hcounts : ∀ counter, connection.counts counter = false) :
    ConnectionState.Ok { state with connections := state.connections ++ [connection] } := by
  constructor
  · simp [hok.active, hheld]
  · intro counter
    simp [hok.counters, hcounts]
  · intro other hother counter h
    rcases List.mem_append.mp hother with hother | hother
    · exact hok.allocated other hother counter h
    · obtain rfl := List.mem_singleton.mp hother
      rw [hcounter] at h
      cases h
  · exact hok.listed

theorem ConnectionState.Ok.step (state : ConnectionState) (event : ConnectionEvent)
    (hok : state.Ok) : (state.step event).Ok := by
  cases event with
  | try_acquire_connection listener_id limit => exact hok.arrives rfl rfl fun _ => rfl
  | retain_connection_slot listener_id => exact hok.arrives rfl rfl fun _ => rfl
  | turn index spurious => exact hok.turn index spurious
  | drop_guard index => exact hok.drop_guard index
  | sync_listener_active_connections listener_id => exact hok.sync_listener listener_id
  | remove_retired_listener_runtime listener_id =>
    refine ⟨hok.active, hok.counters, hok.allocated, fun other counter h => ?_⟩
    by_cases hother : other = listener_id
    · subst hother
      simp [ConnectionState.step] at h
    · apply hok.listed other counter
      simpa [ConnectionState.step, Function.update_of_ne hother] using h

end Steps

/-! ## The limit -/

/-- What a connection of the listener knows before its next operation, where its limits are at most
`max_connections`. -/
def SlotPhase.Knows (max_connections : Nat) : SlotPhase → Prop
  | .Lookup limit | .Load _ limit => ∃ bound ≤ max_connections, limit = some bound
  | .CompareExchange _ limit current =>
    ∃ bound ≤ max_connections, limit = some bound ∧ current < bound
  | _ => True

structure ConnectionState.Limited (listener_id : String) (max_connections : Nat)
    (state : ConnectionState) : Prop extends state.Ok where
  own : ∀ connection ∈ state.connections, connection.listener_id = listener_id → ∀ counter,
    connection.phase.counter = some counter →
    state.listener_active_connections listener_id = some counter
  knows : ∀ connection ∈ state.connections, connection.listener_id = listener_id →
    connection.phase.Knows max_connections
  accepted : state.connections.countP (Connection.accepted listener_id) ≤ max_connections

/-- The listener keeps its counter, and its connections come with a limit. -/
def KeepsListener (listener_id : String) (max_connections : Nat) (event : ConnectionEvent) :
    Prop :=
  event ≠ .remove_retired_listener_runtime listener_id ∧
    ∀ limit, event = .try_acquire_connection listener_id limit →
      ∃ bound ≤ max_connections, limit = some bound

section Limit

variable {state : ConnectionState} {listener_id : String} {max_connections : Nat}

/-- A connection that has a slot of the listener has it of the counter that is listed. -/
theorem accepted_le (h : state.Limited listener_id max_connections) {counter : Nat}
    (hlisted : state.listener_active_connections listener_id = some counter) :
    state.connections.countP (Connection.accepted listener_id) ≤ state.counters counter := by
  rw [h.counters counter]
  apply List.countP_mono_left
  intro connection hconnection haccepted
  have hown := h.own connection hconnection
  unfold Connection.accepted at haccepted
  unfold Connection.counts
  rw [hlisted] at hown
  cases hphase : connection.phase <;> simp_all [SlotPhase.counter]

/-- A connection goes from one phase to another, and has a slot only where the counter has room. -/
theorem ConnectionState.Limited.stands (h : state.Limited listener_id max_connections) {index : Nat}
    {connection : Connection} (hconnection : state.connections[index]? = some connection)
    {operated : ConnectionState} {phase : SlotPhase}
    (hok : (operated.stands index connection phase).Ok)
    (hconnections : operated.connections = state.connections)
    (hlisted : operated.listener_active_connections = state.listener_active_connections)
    (hown : connection.listener_id = listener_id → ∀ counter, phase.counter = some counter →
      state.listener_active_connections listener_id = some counter)
    (hknows : connection.listener_id = listener_id → phase.Knows max_connections)
    (haccepted : connection.accepted listener_id = false →
      Connection.accepted listener_id { connection with phase } = true →
      state.connections.countP (Connection.accepted listener_id) < max_connections) :
    (operated.stands index connection phase).Limited listener_id max_connections := by
  refine ⟨hok, ?_, ?_, ?_⟩
  · intro other hother hlistener counter hcounter
    unfold ConnectionState.stands at hother ⊢
    dsimp only at hother ⊢
    rw [hconnections] at hother
    rw [hlisted]
    rcases List.mem_or_eq_of_mem_set hother with hother | rfl
    · exact h.own other hother hlistener counter hcounter
    · exact hown hlistener counter hcounter
  · intro other hother hlistener
    unfold ConnectionState.stands at hother
    dsimp only at hother
    rw [hconnections] at hother
    rcases List.mem_or_eq_of_mem_set hother with hother | rfl
    · exact h.knows other hother hlistener
    · exact hknows hlistener
  · have hset := countP_set_add hconnection { connection with phase }
      (Connection.accepted listener_id)
    have hold := h.accepted
    unfold ConnectionState.stands
    dsimp only
    rw [hconnections]
    cases hbefore : connection.accepted listener_id with
    | true =>
      simp only [hbefore, if_true] at hset
      split at hset <;> omega
    | false =>
      cases hafter : Connection.accepted listener_id { connection with phase } with
      | true =>
        have hroom := haccepted hbefore hafter
        simp [hbefore, hafter] at hset
        omega
      | false =>
        simp [hbefore, hafter] at hset
        omega

/-- In a phase without a counter there is nothing to know, and no slot. -/
theorem ConnectionState.Limited.stands_without (h : state.Limited listener_id max_connections)
    {index : Nat} {connection : Connection} (hconnection : state.connections[index]? = some connection)
    {operated : ConnectionState} {phase : SlotPhase}
    (hok : (operated.stands index connection phase).Ok)
    (hconnections : operated.connections = state.connections)
    (hlisted : operated.listener_active_connections = state.listener_active_connections)
    (hcounter : phase.counter = none) (hknows : phase.Knows max_connections)
    (haccepted : Connection.accepted listener_id { connection with phase } = false) :
    (operated.stands index connection phase).Limited listener_id max_connections := by
  apply h.stands hconnection hok hconnections hlisted
  · intro _ counter hphase
    rw [hcounter] at hphase
    cases hphase
  · exact fun _ => hknows
  · intro _ hafter
    rw [haccepted] at hafter
    cases hafter

theorem ConnectionState.Limited.turn (h : state.Limited listener_id max_connections) (index : Nat)
    (spurious : Bool) : (state.turn index spurious).Limited listener_id max_connections := by
  have hok := h.toOk.turn index spurious
  unfold ConnectionState.turn at hok ⊢
  cases hconnection : state.connections[index]? with
  | none => exact h
  | some connection =>
    rw [hconnection] at hok
    have hmem : connection ∈ state.connections := List.mem_of_getElem? hconnection
    have hown := h.own connection hmem
    have hknows := h.knows connection hmem
    obtain ⟨own_id, phase⟩ := connection
    unfold ConnectionState.operate at hok ⊢
    cases phase with
    | Lookup limit =>
      cases hlisted : state.listener_active_connections own_id with
      | none =>
        simp only [hlisted] at hok ⊢
        exact h.stands_without hconnection hok rfl rfl rfl trivial rfl
      | some counter =>
        simp only [hlisted] at hok ⊢
        apply h.stands hconnection hok
        · rfl
        · rfl
        · rintro rfl own ⟨⟩
          exact hlisted
        · exact hknows
        · simp [Connection.accepted]
    | LookupRetained =>
      cases hlisted : state.listener_active_connections own_id with
      | none =>
        simp only [hlisted] at hok ⊢
        exact h.stands_without hconnection hok rfl rfl rfl trivial rfl
      | some counter =>
        simp only [hlisted] at hok ⊢
        apply h.stands hconnection hok
        · rfl
        · rfl
        · rintro rfl own ⟨⟩
          exact hlisted
        · exact fun _ => trivial
        · simp [Connection.accepted]
    | Load counter limit =>
      dsimp only at hok ⊢
      split at hok
      · rename_i hfull
        rw [if_pos hfull]
        exact h.stands_without hconnection hok rfl rfl rfl trivial rfl
      · rename_i hroom
        rw [if_neg hroom]
        apply h.stands hconnection hok
        · rfl
        · rfl
        · exact hown
        · intro hlistener
          obtain ⟨bound, hbound, rfl⟩ := hknows hlistener
          exact ⟨bound, hbound, rfl, by simpa using hroom⟩
        · simp [Connection.accepted]
    | CompareExchange counter limit current =>
      dsimp only at hok ⊢
      split at hok
      · rename_i hsame
        rw [if_pos hsame]
        apply h.stands hconnection hok
        · rfl
        · rfl
        · exact hown
        · exact fun _ => trivial
        · -- The count was below the limit, and is still the same.
          intro _ haccepted
          obtain rfl : own_id = listener_id := by simpa [Connection.accepted] using haccepted
          obtain ⟨bound, hbound, _, hless⟩ := hknows rfl
          have hcurrent : state.counters counter = current := by
            simp only [Bool.and_eq_true, decide_eq_true_eq] at hsame
            exact hsame.2
          have hle := accepted_le h (hown rfl counter rfl)
          omega
      · rename_i hother
        rw [if_neg hother]
        apply h.stands hconnection hok
        · rfl
        · rfl
        · exact hown
        · intro hlistener
          obtain ⟨bound, hbound, hlimit, _⟩ := hknows hlistener
          exact ⟨bound, hbound, hlimit⟩
        · simp [Connection.accepted]
    | AddListener counter =>
      apply h.stands hconnection hok
      · rfl
      · rfl
      · exact hown
      · exact fun _ => trivial
      · simp [Connection.accepted]
    | AddActive counter retained =>
      apply h.stands hconnection hok
      · rfl
      · rfl
      · exact hown
      · exact fun _ => trivial
      · exact fun hbefore hafter => absurd (hbefore.symm.trans hafter) (by simp)
    | SubListener counter retained =>
      apply h.stands hconnection hok
      · rfl
      · rfl
      · simp [SlotPhase.counter]
      · exact fun _ => trivial
      · simp [Connection.accepted]
    | Held counter retained =>
      apply h.stands hconnection hok
      · rfl
      · rfl
      · exact hown
      · exact fun _ => trivial
      · exact fun hbefore hafter => absurd (hbefore.symm.trans hafter) (by simp)
    | Refused =>
      exact h.stands_without hconnection hok rfl rfl rfl trivial rfl
    | Panicked =>
      exact h.stands_without hconnection hok rfl rfl rfl trivial rfl
    | Dropped =>
      exact h.stands_without hconnection hok rfl rfl rfl trivial rfl

theorem ConnectionState.Limited.drop_guard (h : state.Limited listener_id max_connections)
    (index : Nat) : (state.drop_guard index).Limited listener_id max_connections := by
  have hok := h.toOk.drop_guard index
  unfold ConnectionState.drop_guard
  split
  · rename_i own_id counter retained hconnection
    unfold ConnectionState.drop_guard at hok
    rw [hconnection] at hok
    have hown := h.own _ (List.mem_of_getElem? hconnection)
    apply h.stands hconnection hok
    · rfl
    · rfl
    · exact hown
    · exact fun _ => trivial
    · exact fun hbefore hafter => absurd (hbefore.symm.trans hafter) (by simp)
  · exact h

/-- A new connection of the listener comes with a limit. -/
theorem ConnectionState.Limited.arrives (h : state.Limited listener_id max_connections)
    {connection : Connection}
    (hok : ConnectionState.Ok { state with connections := state.connections ++ [connection] })
    (hcounter : connection.phase.counter = none)
    (hknows : connection.listener_id = listener_id → connection.phase.Knows max_connections)
    (haccepted : connection.accepted listener_id = false) :
    ConnectionState.Limited listener_id max_connections
      { state with connections := state.connections ++ [connection] } := by
  refine ⟨hok, ?_, ?_, ?_⟩
  · intro other hother hlistener counter hphase
    rcases List.mem_append.mp hother with hother | hother
    · exact h.own other hother hlistener counter hphase
    · obtain rfl := List.mem_singleton.mp hother
      rw [hcounter] at hphase
      cases hphase
  · intro other hother hlistener
    rcases List.mem_append.mp hother with hother | hother
    · exact h.knows other hother hlistener
    · obtain rfl := List.mem_singleton.mp hother
      exact hknows hlistener
  · simpa [haccepted] using h.accepted

/-- A change of the map that keeps the counter of the listener. -/
theorem ConnectionState.Limited.relisted (h : state.Limited listener_id max_connections)
    {state' : ConnectionState} (hok : state'.Ok) (hconnections : state'.connections = state.connections)
    (hlisted : ∀ counter, state.listener_active_connections listener_id = some counter →
      state'.listener_active_connections listener_id = some counter) :
    state'.Limited listener_id max_connections := by
  refine ⟨hok, ?_, ?_, ?_⟩
  · rw [hconnections]
    exact fun connection hconnection hlistener counter hcounter =>
      hlisted counter (h.own connection hconnection hlistener counter hcounter)
  · rw [hconnections]
    exact h.knows
  · rw [hconnections]
    exact h.accepted

theorem ConnectionState.Limited.step (state : ConnectionState) (event : ConnectionEvent)
    (h : state.Limited listener_id max_connections)
    (hkeeps : KeepsListener listener_id max_connections event) :
    (state.step event).Limited listener_id max_connections := by
  have hok := ConnectionState.Ok.step state event h.toOk
  cases event with
  | try_acquire_connection own_id limit =>
    apply h.arrives hok
    · rfl
    · rintro rfl
      exact hkeeps.2 limit rfl
    · rfl
  | retain_connection_slot own_id =>
    apply h.arrives hok
    · rfl
    · exact fun _ => trivial
    · rfl
  | turn index spurious => exact h.turn index spurious
  | drop_guard index => exact h.drop_guard index
  | sync_listener_active_connections own_id =>
    apply h.relisted hok
    · unfold ConnectionState.step ConnectionState.sync_listener
      dsimp only
      split <;> rfl
    · intro counter hcounter
      change (state.sync_listener own_id).listener_active_connections listener_id = _
      unfold ConnectionState.sync_listener
      split
      · exact hcounter
      · rename_i hnone
        have hne : listener_id ≠ own_id := by
          rintro rfl
          rw [hnone] at hcounter
          cases hcounter
        simpa [Function.update_of_ne hne] using hcounter
  | remove_retired_listener_runtime own_id =>
    apply h.relisted hok rfl
    intro counter hcounter
    have hne : listener_id ≠ own_id := by
      rintro rfl
      exact hkeeps.1 rfl
    simpa [ConnectionState.step, Function.update_of_ne hne] using hcounter

end Limit

/-- In every order of the atomic operations of any number of connections: a listener that stays has
at most so many connections as its largest limit at any moment, beside those that were retained for
an upgrade; its counter is the number of all slots that are taken, and the count of the process the
number of all guards. No count wraps. -/
theorem max_connections_is_kept_by_listeners (listener_id : String) (max_connections : Nat)
    (events : List ConnectionEvent)
    (hkeeps : ∀ event ∈ events, KeepsListener listener_id max_connections event) :
    let state := after ConnectionState.step .new events
    state.connections.countP (Connection.accepted listener_id) ≤ max_connections ∧
      (∀ counter, state.listener_active_connections listener_id = some counter →
        state.counters counter = state.connections.countP (Connection.counts counter)) ∧
      state.active_connections = state.connections.countP Connection.held := by
  intro state
  have hnew : ConnectionState.new.Limited listener_id max_connections :=
    ⟨.new, by simp [ConnectionState.new], by simp [ConnectionState.new], Nat.zero_le _⟩
  have h : state.Limited listener_id max_connections :=
    after_of_along ConnectionState.Limited.step hnew
      (along_of_mem (fun event hevent _ => hkeeps event hevent) _)
  exact ⟨h.accepted, fun counter _ => h.counters counter, h.active⟩

/-- Two connections at a limit of one: the first one is accepted. -/
def twoAtOnce : List ConnectionEvent :=
  [.sync_listener_active_connections "web", .try_acquire_connection "web" (some 1),
    .try_acquire_connection "web" (some 1), .turn 0 false, .turn 1 false, .turn 0 false,
    .turn 1 false, .turn 0 false, .turn 1 false, .turn 1 false, .turn 0 false]

theorem one_of_two_connections_is_accepted :
    let state := after ConnectionState.step .new twoAtOnce
    state.connections.countP (Connection.accepted "web") = 1 ∧ state.active_connections = 1 := by
  intro state
  have hkeeps : ∀ event ∈ twoAtOnce, KeepsListener "web" 1 event := by
    simp [twoAtOnce, KeepsListener]
  obtain ⟨hle, _, hactive⟩ := max_connections_is_kept_by_listeners "web" 1 twoAtOnce hkeeps
  have hsome : 1 ≤ state.connections.countP (Connection.accepted "web") :=
    List.countP_pos_iff.mpr ⟨⟨"web", .Held 0 false⟩, List.mem_cons_self, by decide⟩
  exact ⟨Nat.le_antisymm hle hsome, hactive.trans rfl⟩

end rginx.state
