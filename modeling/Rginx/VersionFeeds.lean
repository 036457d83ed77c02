-- Cells that carry versions, the writers that stamp them, and a reader that asks what
-- is newer than the version it has. A writer changes its data, takes the next version
-- and stores it into its cells, one section after the other; the reader takes the
-- version first, and then goes through the cells, one part after the other.
import Mathlib.Data.List.Nodup

namespace version_feeds

/-! ## The parties -/

/-- A store with a version for each cell. -/
structure Cells (Store Cell : Type) [DecidableEq Cell] where
  version_of : Store → Cell → Nat
  write : Store → List Cell → Nat → Store
  version_of_write : ∀ store cells version cell,
    version_of (write store cells version) cell =
      if cell ∈ cells then version else version_of store cell

/-- How a reader goes through the cells, and which of them it has seen to be newer. -/
structure Reader {Store Cell : Type} [DecidableEq Cell] (cells : Cells Store Cell)
    (Part Reading : Type) where
  parts : List Part
  covers : Part → Cell → Prop
  empty : Reading
  read : Store → Nat → Part → Reading → Reading
  sees : Reading → Cell → Prop
  covered : ∀ cell, ∃ part ∈ parts, covers part cell
  sees_read : ∀ store since part reading cell, covers part cell →
    (sees (read store since part reading) cell ↔ since < cells.version_of store cell)
  sees_other : ∀ store since part reading cell, ¬ covers part cell →
    (sees (read store since part reading) cell ↔ sees reading cell)

/-- The sections of a writer: no cell is written twice. -/
structure WritePlan (Cell : Type) where
  sections : List (List Cell)
  nodup : sections.flatten.Nodup

/-- A writer: when it changed its data, the version that it took, and the sections that it has
still to write. -/
structure Writer (Cell : Type) where
  plan : WritePlan Cell
  changed_at : Nat
  version : Option Nat
  remaining : List (List Cell)
  finished_at : Option Nat

structure Poll (Part Reading : Type) where
  started_at : Nat
  current : Nat
  unread : List Part
  reading : Reading

structure Report (Reading : Type) where
  started_at : Nat
  since : Nat
  current : Nat
  reading : Reading

structure Feed (Store Cell Part Reading : Type) where
  time : Nat
  version : Nat
  store : Store
  writers : Nat → Option (Writer Cell)
  since : Nat
  poll : Option (Poll Part Reading)
  reports : List (Report Reading)

/-- What the parties do; `pass` is something else that happens. -/
inductive FeedEvent (Cell : Type)
  | pass
  | change (id : Nat) (plan : WritePlan Cell)
  | take_version (id : Nat)
  | write (id : Nat)
  | start_poll
  | read_part
  | finish_poll

variable {Store Cell Part Reading : Type}

namespace Feed

def start (store : Store) (since : Nat) : Feed Store Cell Part Reading :=
  ⟨0, 0, store, fun _ => none, since, none, []⟩

def with_writer (feed : Feed Store Cell Part Reading) (id : Nat) (writer : Writer Cell) :
    Feed Store Cell Part Reading :=
  { feed with writers := Function.update feed.writers id (some writer) }

def tick (feed : Feed Store Cell Part Reading) : Feed Store Cell Part Reading :=
  { feed with time := feed.time + 1 }

end Feed

/-- The cells that the writer has stored its version into. -/
def Writer.Written (writer : Writer Cell) (cell : Cell) (version : Nat) : Prop :=
  writer.version = some version ∧ cell ∈ writer.plan.sections.flatten ∧
    cell ∉ writer.remaining.flatten

theorem writers_with_writer (feed : Feed Store Cell Part Reading) (id other : Nat)
    (writer : Writer Cell) :
    (feed.with_writer id writer).writers other =
      if other = id then some writer else feed.writers other := by
  unfold Feed.with_writer
  dsimp only
  by_cases h : other = id
  · subst h
    rw [Function.update_self, if_pos rfl]
  · rw [Function.update_of_ne h, if_neg h]

/-- What is so of a writer at any time after its change. -/
structure Writer.Ok (writer : Writer Cell) (time : Nat) : Prop where
  past : writer.changed_at < time
  untaken : writer.version = none → writer.remaining = writer.plan.sections
  tail : ∃ before, writer.plan.sections = before ++ writer.remaining
  finished : ∀ finished, writer.finished_at = some finished →
    writer.changed_at ≤ finished ∧ writer.remaining = [] ∧ ∃ version, writer.version = some version

def Feed.WritersOk (feed : Feed Store Cell Part Reading) : Prop :=
  ∀ id writer, feed.writers id = some writer → writer.Ok feed.time

theorem Writer.Ok.later {writer : Writer Cell} {time later : Nat} (h : writer.Ok time)
    (hle : time ≤ later) : writer.Ok later :=
  ⟨Nat.lt_of_lt_of_le h.past hle, h.untaken, h.tail, h.finished⟩

/-- The cells of a section are written once it is. -/
theorem Writer.Ok.written {writer : Writer Cell} {time version : Nat} {first : List Cell}
    {rest : List (List Cell)} (h : writer.Ok time) (hversion : writer.version = some version)
    (hremaining : writer.remaining = first :: rest) {cell : Cell} (hcell : cell ∈ first)
    (finished_at : Option Nat) :
    { writer with remaining := rest, finished_at }.Written cell version := by
  obtain ⟨before, htail⟩ := h.tail
  rw [hremaining] at htail
  have hnodup := writer.plan.nodup
  rw [htail, List.flatten_append, List.flatten_cons] at hnodup
  refine ⟨hversion, ?_, ?_⟩
  · rw [show ({ writer with remaining := rest, finished_at } : Writer Cell).plan = writer.plan from rfl,
      htail, List.flatten_append, List.flatten_cons]
    exact List.mem_append_right _ (List.mem_append_left _ hcell)
  · exact List.disjoint_of_nodup_append (List.Nodup.of_append_right hnodup) hcell

/-! ## Events -/

variable [DecidableEq Cell] {cells : Cells Store Cell}

namespace Feed

variable (reader : Reader cells Part Reading)

/-- What an event does; one that its party is not ready for does nothing. -/
def act (feed : Feed Store Cell Part Reading) : FeedEvent Cell → Feed Store Cell Part Reading
  | .pass => feed
  | .change id plan =>
    match feed.writers id with
    | none => feed.with_writer id ⟨plan, feed.time, none, plan.sections, none⟩
    | some _ => feed
  | .take_version id =>
    match feed.writers id with
    | some writer =>
      match writer.version with
      | none =>
        { feed with version := feed.version + 1 }
          |>.with_writer id { writer with version := some (feed.version + 1) }
      | some _ => feed
    | none => feed
  | .write id =>
    match feed.writers id with
    | some writer =>
      match writer.version, writer.remaining with
      | some version, first :: rest =>
        { feed with store := cells.write feed.store first version }
          |>.with_writer id
            { writer with
              remaining := rest
              finished_at := if rest.isEmpty then some feed.time else none }
      | _, _ => feed
    | none => feed
  | .start_poll =>
    match feed.poll with
    | none => { feed with poll := some ⟨feed.time, feed.version, reader.parts, reader.empty⟩ }
    | some _ => feed
  | .read_part =>
    match feed.poll with
    | some poll =>
      match poll.unread with
      | part :: unread =>
        { feed with
          poll := some
            { poll with unread, reading := reader.read feed.store feed.since part poll.reading } }
      | [] => feed
    | none => feed
  | .finish_poll =>
    match feed.poll with
    | some poll =>
      match poll.unread with
      | [] =>
        { feed with
          since := poll.current
          poll := none
          reports := ⟨poll.started_at, feed.since, poll.current, poll.reading⟩ :: feed.reports }
      | _ :: _ => feed
    | none => feed

def step (feed : Feed Store Cell Part Reading) (event : FeedEvent Cell) :
    Feed Store Cell Part Reading := (feed.act reader event).tick

end Feed

/-- The poll has the cell before it. -/
def Reader.Unread (reader : Reader cells Part Reading) (poll : Poll Part Reading) (cell : Cell) :
    Prop := ∃ part ∈ poll.unread, reader.covers part cell

namespace Feed

variable (feed : Feed Store Cell Part Reading) (reader : Reader cells Part Reading)

/-- No later version was stored into the cell. -/
def InTurn (version : Nat) (cell : Cell) : Prop :=
  ∀ id writer later, feed.writers id = some writer → writer.Written cell later → later ≤ version

/-- When the reader comes to the cell the next time, it asks for that version. -/
def WillSee (version : Nat) (cell : Cell) : Prop :=
  match feed.poll with
  | none => feed.since < version
  | some poll =>
    (reader.Unread poll cell → feed.since < version) ∧
      (¬ reader.Unread poll cell → poll.current < version)

/-- Each version is stored in turn, and before a poll that has taken it has passed the cell. -/
def Meets (event : FeedEvent Cell) : Prop :=
  ∀ id writer version first rest, event = .write id → feed.writers id = some writer →
    writer.version = some version → writer.remaining = first :: rest →
      ∀ cell ∈ first, feed.InTurn version cell ∧ feed.WillSee reader version cell

/-- Once a poll was started after the writer had stored its version everywhere, and has finished,
each of its cells was seen by a poll that started after the change. -/
def Reported : Prop :=
  ∀ id writer finished, feed.writers id = some writer → writer.finished_at = some finished →
    (∃ report ∈ feed.reports, finished < report.started_at) →
      ∀ cell ∈ writer.plan.sections.flatten,
        ∃ report ∈ feed.reports, writer.changed_at < report.started_at ∧
          reader.sees report.reading cell

end Feed

/-! ## What an event changes -/

/-- The outcomes of an event. -/
inductive Acts (reader : Reader cells Part Reading) (feed : Feed Store Cell Part Reading) :
    FeedEvent Cell → Feed Store Cell Part Reading → Prop
  | idle {event} : Acts reader feed event feed
  | change {id plan} (hnone : feed.writers id = none) :
    Acts reader feed (.change id plan)
      (feed.with_writer id ⟨plan, feed.time, none, plan.sections, none⟩)
  | take_version {id writer} (hwriter : feed.writers id = some writer)
      (hversion : writer.version = none) :
    Acts reader feed (.take_version id)
      ({ feed with version := feed.version + 1 }.with_writer id
        { writer with version := some (feed.version + 1) })
  | write {id writer version first rest} (hwriter : feed.writers id = some writer)
      (hversion : writer.version = some version) (hremaining : writer.remaining = first :: rest) :
    Acts reader feed (.write id)
      ({ feed with store := cells.write feed.store first version }.with_writer id
        { writer with
          remaining := rest
          finished_at := if rest.isEmpty then some feed.time else none })
  | start_poll (hpoll : feed.poll = none) :
    Acts reader feed .start_poll
      { feed with poll := some ⟨feed.time, feed.version, reader.parts, reader.empty⟩ }
  | read_part {poll part unread} (hpoll : feed.poll = some poll)
      (hunread : poll.unread = part :: unread) :
    Acts reader feed .read_part
      { feed with
        poll := some
          { poll with unread, reading := reader.read feed.store feed.since part poll.reading } }
  | finish_poll {poll} (hpoll : feed.poll = some poll) (hunread : poll.unread = []) :
    Acts reader feed .finish_poll
      { feed with
        since := poll.current
        poll := none
        reports := ⟨poll.started_at, feed.since, poll.current, poll.reading⟩ :: feed.reports }

theorem acts (reader : Reader cells Part Reading) (feed : Feed Store Cell Part Reading)
    (event : FeedEvent Cell) : Acts reader feed event (feed.act reader event) := by
  cases event with
  | pass => exact .idle
  | change id plan =>
    unfold Feed.act
    dsimp only
    split
    · rename_i hnone
      exact .change hnone
    · exact .idle
  | take_version id =>
    unfold Feed.act
    dsimp only
    split
    · rename_i writer hwriter
      split
      · rename_i hversion
        exact .take_version hwriter hversion
      · exact .idle
    · exact .idle
  | write id =>
    unfold Feed.act
    dsimp only
    split
    · rename_i writer hwriter
      split
      · rename_i version first rest hversion hremaining
        exact .write hwriter hversion hremaining
      · exact .idle
    · exact .idle
  | start_poll =>
    unfold Feed.act
    dsimp only
    split
    · rename_i hpoll
      exact .start_poll hpoll
    · exact .idle
  | read_part =>
    unfold Feed.act
    dsimp only
    split
    · rename_i poll hpoll
      split
      · rename_i part unread hunread
        exact .read_part hpoll hunread
      · exact .idle
    · exact .idle
  | finish_poll =>
    unfold Feed.act
    dsimp only
    split
    · rename_i poll hpoll
      split
      · rename_i hunread
        exact .finish_poll hpoll hunread
      · exact .idle
    · exact .idle

section Invariants

variable {feed feed' : Feed Store Cell Part Reading} {reader : Reader cells Part Reading}
  {event : FeedEvent Cell}

/-! ## The writers -/

theorem Acts.writers_ok (hact : Acts reader feed event feed') (h : feed.WritersOk) :
    feed'.tick.WritersOk := by
  have hle : feed.time ≤ feed.time + 1 := Nat.le_succ _
  have hold : ∀ id writer, feed.writers id = some writer → writer.Ok (feed.time + 1) :=
    fun id writer hwriter => (h id writer hwriter).later hle
  cases hact with
  | idle => exact hold
  | change hnone =>
    intro other writer' hother
    rw [Feed.tick, writers_with_writer] at hother
    split at hother
    · obtain rfl := Option.some.inj hother
      exact ⟨Nat.lt_succ_self _, fun _ => rfl, ⟨[], rfl⟩, nofun⟩
    · exact hold other writer' hother
  | take_version hwriter hversion =>
    intro other writer' hother
    rw [Feed.tick, writers_with_writer] at hother
    split at hother
    · obtain rfl := Option.some.inj hother
      have hbefore := hold _ _ hwriter
      refine ⟨hbefore.past, nofun, hbefore.tail, ?_⟩
      intro finished hfinished
      obtain ⟨-, -, version, hsome⟩ := hbefore.finished finished hfinished
      rw [hversion] at hsome
      cases hsome
    · exact hold other writer' hother
  | @write id writer version first rest hwriter hversion hremaining =>
    intro other writer' hother
    rw [Feed.tick, writers_with_writer] at hother
    split at hother
    · obtain rfl := Option.some.inj hother
      have hbefore := hold _ _ hwriter
      obtain ⟨before, htail⟩ := hbefore.tail
      refine ⟨hbefore.past, ?_, ⟨before ++ [first], ?_⟩, ?_⟩
      · intro hnone
        rw [hversion] at hnone
        cases hnone
      · rw [hremaining] at htail
        simpa using htail
      · intro finished hfinished
        split at hfinished
        · rename_i hrest
          obtain rfl := Option.some.inj hfinished
          exact ⟨Nat.le_of_lt_succ hbefore.past, List.isEmpty_iff.mp hrest, version, hversion⟩
        · cases hfinished
    · exact hold other writer' hother
  | start_poll hpoll => exact hold
  | read_part hpoll hunread => exact hold
  | finish_poll hpoll hunread => exact hold

/-- A writer begins. -/
theorem writers_change {id : Nat} {plan : WritePlan Cell} (hnone : feed.writers id = none) :
    (feed.step reader (.change id plan)).writers id =
      some ⟨plan, feed.time, none, plan.sections, none⟩ := by
  unfold Feed.step Feed.act
  dsimp only
  rw [hnone]
  exact Function.update_self _ _ _

/-- A writer that has begun keeps its plan and the time of its change. -/
theorem Acts.kept (hact : Acts reader feed event feed') {id : Nat} {writer : Writer Cell}
    (hwriter : feed.writers id = some writer) :
    ∃ later, feed'.writers id = some later ∧ later.plan = writer.plan ∧
      later.changed_at = writer.changed_at := by
  cases hact with
  | change hnone =>
    rw [writers_with_writer]
    split
    · rename_i hid
      subst hid
      rw [hnone] at hwriter
      cases hwriter
    · exact ⟨writer, hwriter, rfl, rfl⟩
  | take_version hbefore =>
    rw [writers_with_writer]
    split
    · rename_i hid
      subst hid
      obtain rfl := Option.some.inj (hbefore.symm.trans hwriter)
      exact ⟨_, rfl, rfl, rfl⟩
    · exact ⟨writer, hwriter, rfl, rfl⟩
  | write hbefore =>
    rw [writers_with_writer]
    split
    · rename_i hid
      subst hid
      obtain rfl := Option.some.inj (hbefore.symm.trans hwriter)
      exact ⟨_, rfl, rfl, rfl⟩
    · exact ⟨writer, hwriter, rfl, rfl⟩
  | _ => exact ⟨writer, hwriter, rfl, rfl⟩

/-! ## The cells -/

/-- What a writer has written it had written before, or it has just done so. -/
theorem Acts.written (hact : Acts reader feed event feed') (h : feed.WritersOk)
    {id version : Nat} {writer : Writer Cell} {cell : Cell}
    (hwriter : feed'.writers id = some writer) (hwritten : writer.Written cell version) :
    (∃ before, feed.writers id = some before ∧ before.Written cell version ∧
      before.changed_at = writer.changed_at ∧ ∀ finished, writer.finished_at = some finished →
        before.finished_at = some finished ∨ finished = feed.time) ∨
    ∃ before first rest, event = .write id ∧ feed.writers id = some before ∧
      before.version = some version ∧ before.remaining = first :: rest ∧ cell ∈ first ∧
      before.changed_at = writer.changed_at ∧
      (∀ finished, writer.finished_at = some finished → finished = feed.time) ∧
      feed'.store = cells.write feed.store first version := by
  have hsame : feed.writers id = some writer →
      ∃ before, feed.writers id = some before ∧ before.Written cell version ∧
        before.changed_at = writer.changed_at ∧ ∀ finished, writer.finished_at = some finished →
          before.finished_at = some finished ∨ finished = feed.time :=
    fun hold => ⟨writer, hold, hwritten, rfl, fun _ => .inl⟩
  cases hact with
  | idle => exact .inl (hsame hwriter)
  | change hnone =>
    rw [writers_with_writer] at hwriter
    split at hwriter
    · obtain rfl := Option.some.inj hwriter
      cases hwritten.1
    · exact .inl (hsame hwriter)
  | take_version hbefore hversion =>
    rw [writers_with_writer] at hwriter
    split at hwriter
    · obtain rfl := Option.some.inj hwriter
      obtain ⟨-, hmem, hnot⟩ := hwritten
      dsimp only at hmem hnot
      rw [(h _ _ hbefore).untaken hversion] at hnot
      exact absurd hmem hnot
    · exact .inl (hsame hwriter)
  | @write other before taken first rest hbefore hversion hremaining =>
    rw [writers_with_writer] at hwriter
    split at hwriter
    · rename_i hid
      subst hid
      obtain rfl := Option.some.inj hwriter
      have hfinished : ∀ finished, (if rest.isEmpty then some feed.time else none) = some finished →
          finished = feed.time := by
        intro finished hsome
        split at hsome
        · exact (Option.some.inj hsome).symm
        · cases hsome
      obtain ⟨htaken, hmem, hnot⟩ := hwritten
      by_cases hcell : cell ∈ first
      · exact .inr ⟨before, first, rest, rfl, hbefore, htaken, hremaining, hcell, rfl, hfinished,
          by rw [Option.some.inj (htaken.symm.trans hversion)]; rfl⟩
      · refine .inl ⟨before, hbefore, ⟨htaken, hmem, ?_⟩, rfl,
          fun finished hsome => .inr (hfinished finished hsome)⟩
        rw [hremaining, List.flatten_cons, List.mem_append, not_or]
        exact ⟨hcell, hnot⟩
    · exact .inl (hsame (by simpa using hwriter))
  | start_poll hpoll => exact .inl (hsame hwriter)
  | read_part hpoll hunread => exact .inl (hsame hwriter)
  | finish_poll hpoll hunread => exact .inl (hsame hwriter)

/-- What a writer has written stays written. -/
theorem Acts.still_written (hact : Acts reader feed event feed') {id version : Nat}
    {writer : Writer Cell} {cell : Cell} (hwriter : feed.writers id = some writer)
    (hwritten : writer.Written cell version) :
    ∃ later, feed'.writers id = some later ∧ later.Written cell version := by
  cases hact with
  | idle => exact ⟨writer, hwriter, hwritten⟩
  | @change other plan hnone =>
    refine ⟨writer, ?_, hwritten⟩
    rw [writers_with_writer, if_neg, hwriter]
    rintro rfl
    rw [hnone] at hwriter
    cases hwriter
  | @take_version other before hbefore hversion =>
    refine ⟨writer, ?_, hwritten⟩
    rw [writers_with_writer, if_neg]
    · exact hwriter
    · rintro rfl
      obtain rfl := Option.some.inj (hbefore.symm.trans hwriter)
      rw [hwritten.1] at hversion
      cases hversion
  | @write other before taken first rest hbefore hversion hremaining =>
    rw [writers_with_writer]
    split
    · rename_i hid
      subst hid
      obtain rfl := Option.some.inj (hbefore.symm.trans hwriter)
      obtain ⟨htaken, hmem, hnot⟩ := hwritten
      rw [hremaining, List.flatten_cons, List.mem_append, not_or] at hnot
      exact ⟨_, rfl, htaken, hmem, hnot.2⟩
    · exact ⟨writer, hwriter, hwritten⟩
  | start_poll hpoll => exact ⟨writer, hwriter, hwritten⟩
  | read_part hpoll hunread => exact ⟨writer, hwriter, hwritten⟩
  | finish_poll hpoll hunread => exact ⟨writer, hwriter, hwritten⟩

/-- The version of a cell is the latest one that a writer has stored into it. -/
structure Feed.StoreOk (cells : Cells Store Cell) (feed : Feed Store Cell Part Reading) : Prop where
  stored : ∀ cell, cells.version_of feed.store cell = 0 ∨
    ∃ id writer, feed.writers id = some writer ∧
      writer.Written cell (cells.version_of feed.store cell)
  newest : ∀ id writer version cell, feed.writers id = some writer →
    writer.Written cell version → version ≤ cells.version_of feed.store cell

/-- The store is changed by the sections of the writers only. -/
theorem Acts.store (hact : Acts reader feed event feed') :
    feed'.store = feed.store ∨
    ∃ id writer version first rest, event = .write id ∧ feed.writers id = some writer ∧
      writer.version = some version ∧ writer.remaining = first :: rest ∧
      feed'.store = cells.write feed.store first version := by
  cases hact with
  | write hwriter hversion hremaining =>
    exact .inr ⟨_, _, _, _, _, rfl, hwriter, hversion, hremaining, rfl⟩
  | _ => exact .inl rfl

/-- A version that is stored in turn is no earlier than the one in its place. -/
theorem Feed.StoreOk.le_of_in_turn (h : feed.StoreOk cells) {version : Nat} {cell : Cell}
    (hturn : feed.InTurn version cell) : cells.version_of feed.store cell ≤ version := by
  rcases h.stored cell with hzero | ⟨id, writer, hwriter, hwritten⟩
  · rw [hzero]
    exact Nat.zero_le _
  · exact hturn id writer _ hwriter hwritten

theorem Acts.increases (hact : Acts reader feed event feed') (h : feed.StoreOk cells)
    (hmeets : feed.Meets reader event) (cell : Cell) :
    cells.version_of feed.store cell ≤ cells.version_of feed'.store cell := by
  rcases hact.store with hstore | ⟨id, writer, version, first, rest, rfl, hwriter, hversion,
    hremaining, hstore⟩
  · exact Nat.le_of_eq (by rw [hstore])
  · rw [hstore, cells.version_of_write]
    split
    · rename_i hcell
      exact h.le_of_in_turn
        (hmeets id writer version first rest rfl hwriter hversion hremaining cell hcell).1
    · exact Nat.le_refl _

theorem Acts.store_ok (hact : Acts reader feed event feed') (hwriters : feed.WritersOk)
    (h : feed.StoreOk cells) (hmeets : feed.Meets reader event) : feed'.tick.StoreOk cells := by
  constructor
  · intro cell
    change cells.version_of feed'.store cell = 0 ∨ ∃ id writer, feed'.writers id = some writer ∧
      writer.Written cell (cells.version_of feed'.store cell)
    have hsame : cells.version_of feed'.store cell = cells.version_of feed.store cell →
        cells.version_of feed'.store cell = 0 ∨ ∃ id writer, feed'.writers id = some writer ∧
          writer.Written cell (cells.version_of feed'.store cell) := by
      intro hversion
      rw [hversion]
      rcases h.stored cell with hzero | ⟨id, writer, hwriter, hwritten⟩
      · exact .inl hzero
      · obtain ⟨later, hlater, hstill⟩ := hact.still_written hwriter hwritten
        exact .inr ⟨id, later, hlater, hstill⟩
    cases hact with
    | @write id writer version first rest hwriter hversion hremaining =>
      by_cases hcell : cell ∈ first
      · refine .inr ⟨id, _, (writers_with_writer _ _ _ _).trans (if_pos rfl), ?_⟩
        change Writer.Written _ cell (cells.version_of (cells.write feed.store first version) cell)
        rw [cells.version_of_write, if_pos hcell]
        exact (hwriters id writer hwriter).written hversion hremaining hcell _
      · exact hsame ((cells.version_of_write _ _ _ _).trans (if_neg hcell))
    | _ => exact hsame rfl
  · intro id writer version cell hwriter hwritten
    change version ≤ cells.version_of feed'.store cell
    rcases hact.written hwriters hwriter hwritten with ⟨before, hbefore, hold, -⟩ |
      ⟨before, first, rest, rfl, hbefore, hversion, hremaining, hcell, -, -, hstore⟩
    · exact Nat.le_trans (h.newest id before version cell hbefore hold)
        (hact.increases h hmeets cell)
    · refine Nat.le_of_eq ?_
      rw [hstore, cells.version_of_write, if_pos hcell]

/-! ## The reader -/

/-- What a poll has taken is older than a version that was taken for a later change. -/
structure Feed.PollOk (feed : Feed Store Cell Part Reading) : Prop where
  past : ∀ poll, feed.poll = some poll → poll.started_at < feed.time ∧ poll.current ≤ feed.version
  before : ∀ poll id writer version, feed.poll = some poll → feed.writers id = some writer →
    writer.version = some version → poll.started_at ≤ writer.changed_at → poll.current < version
  reported : ∀ report ∈ feed.reports, report.started_at < feed.time

theorem Acts.poll_ok (hact : Acts reader feed event feed') (hwriters : feed.WritersOk)
    (h : feed.PollOk) : feed'.tick.PollOk := by
  have hold : ∀ poll, feed.poll = some poll →
      poll.started_at < feed.time + 1 ∧ poll.current ≤ feed.version :=
    fun poll hpoll => ⟨Nat.lt_succ_of_lt (h.past poll hpoll).1, (h.past poll hpoll).2⟩
  have hreported : ∀ report ∈ feed.reports, report.started_at < feed.time + 1 :=
    fun report hreport => Nat.lt_succ_of_lt (h.reported report hreport)
  cases hact with
  | idle => exact ⟨hold, h.before, hreported⟩
  | change hnone =>
    refine ⟨hold, ?_, hreported⟩
    intro poll other writer version hpoll hother hversion hstarted
    rw [Feed.tick, writers_with_writer] at hother
    split at hother
    · obtain rfl := Option.some.inj hother
      cases hversion
    · exact h.before poll other writer version hpoll hother hversion hstarted
  | take_version hwriter hnone =>
    refine ⟨fun poll hpoll => ⟨(hold poll hpoll).1, Nat.le_succ_of_le (hold poll hpoll).2⟩, ?_,
      hreported⟩
    intro poll other writer version hpoll hother hversion hstarted
    rw [Feed.tick, writers_with_writer] at hother
    split at hother
    · obtain rfl := Option.some.inj hother
      obtain rfl := Option.some.inj hversion
      exact Nat.lt_succ_of_le (hold poll hpoll).2
    · exact h.before poll other writer version hpoll hother hversion hstarted
  | write hwriter htaken hremaining =>
    refine ⟨hold, ?_, hreported⟩
    intro poll other writer version hpoll hother hversion hstarted
    rw [Feed.tick, writers_with_writer] at hother
    split at hother
    · obtain rfl := Option.some.inj hother
      exact h.before poll _ _ version hpoll hwriter hversion hstarted
    · exact h.before poll other writer version hpoll hother hversion hstarted
  | start_poll hpoll =>
    refine ⟨?_, ?_, hreported⟩
    · intro poll hsome
      obtain rfl := Option.some.inj hsome
      exact ⟨Nat.lt_succ_self _, Nat.le_refl _⟩
    · intro poll id writer version hsome hwriter hversion hstarted
      obtain rfl := Option.some.inj hsome
      exact absurd (hwriters id writer hwriter).past (Nat.not_lt.mpr hstarted)
  | @read_part poll part unread hpoll hunread =>
    refine ⟨?_, ?_, hreported⟩
    · intro later hsome
      obtain rfl := Option.some.inj hsome
      exact hold poll hpoll
    · intro later id writer version hsome hwriter hversion hstarted
      obtain rfl := Option.some.inj hsome
      exact h.before poll id writer version hpoll hwriter hversion hstarted
  | @finish_poll poll hpoll hunread =>
    refine ⟨nofun, nofun, ?_⟩
    intro report hreport
    rcases List.mem_cons.mp hreport with rfl | hmem
    · exact (hold poll hpoll).1
    · exact hreported report hmem

/-- No poll that has finished was started after the writer had. -/
def Feed.Early (feed : Feed Store Cell Part Reading) (writer : Writer Cell) : Prop :=
  ∀ finished, writer.finished_at = some finished →
    ∀ report ∈ feed.reports, report.started_at ≤ finished

/-- Where the reader stands with a cell that a writer has written. -/
inductive Stage (reader : Reader cells Part Reading) (feed : Feed Store Cell Part Reading)
    (writer : Writer Cell) (version : Nat) (cell : Cell) : Prop
  | waiting (hpoll : feed.poll = none) (hsince : feed.since < version) (hearly : feed.Early writer)
  | unread (poll : Poll Part Reading) (hpoll : feed.poll = some poll)
      (hunread : reader.Unread poll cell) (hsince : feed.since < version)
      (hcurrent : writer.changed_at < poll.started_at ∨ poll.current < version)
      (hearly : feed.Early writer)
  | passed (poll : Poll Part Reading) (hpoll : feed.poll = some poll)
      (hread : ¬ reader.Unread poll cell) (hcurrent : poll.current < version)
      (hstarted : ∀ finished, writer.finished_at = some finished → poll.started_at ≤ finished)
      (hearly : feed.Early writer)
  | seen (poll : Poll Part Reading) (hpoll : feed.poll = some poll)
      (hread : ¬ reader.Unread poll cell) (hstarted : writer.changed_at < poll.started_at)
      (hsees : reader.sees poll.reading cell) (hearly : feed.Early writer)
  | reported (report : Report Reading) (hreport : report ∈ feed.reports)
      (hstarted : writer.changed_at < report.started_at) (hsees : reader.sees report.reading cell)

/-- Every cell that was written is on its way to be reported. -/
def Feed.Staged (reader : Reader cells Part Reading) (feed : Feed Store Cell Part Reading) : Prop :=
  ∀ id writer version cell, feed.writers id = some writer → writer.Written cell version →
    Stage reader feed writer version cell

/-- What the writers do leaves the reader where it stands. -/
theorem Stage.kept {before writer : Writer Cell} {version : Nat} {cell : Cell}
    (h : Stage reader feed before version cell) (hok : feed.PollOk)
    (hpoll : feed'.poll = feed.poll) (hsince : feed'.since = feed.since)
    (hreports : feed'.reports = feed.reports) (hchanged : before.changed_at = writer.changed_at)
    (hfinished : ∀ finished, writer.finished_at = some finished →
      before.finished_at = some finished ∨ finished = feed.time) :
    Stage reader feed' writer version cell := by
  have hearly : feed.Early before → feed'.Early writer := by
    intro hearly finished hsome report hreport
    rw [hreports] at hreport
    rcases hfinished finished hsome with hold | rfl
    · exact hearly finished hold report hreport
    · exact Nat.le_of_lt (hok.reported report hreport)
  cases h with
  | waiting hnone hbefore hold =>
    exact .waiting (hpoll.trans hnone) (hsince ▸ hbefore) (hearly hold)
  | unread poll hsome hunread hbefore hcurrent hold =>
    exact .unread poll (hpoll.trans hsome) hunread (hsince ▸ hbefore) (hchanged ▸ hcurrent)
      (hearly hold)
  | passed poll hsome hread hcurrent hstarted hold =>
    refine .passed poll (hpoll.trans hsome) hread hcurrent ?_ (hearly hold)
    intro finished hlater
    rcases hfinished finished hlater with hbefore | rfl
    · exact hstarted finished hbefore
    · exact Nat.le_of_lt (hok.past poll hsome).1
  | seen poll hsome hread hstarted hsees hold =>
    exact .seen poll (hpoll.trans hsome) hread (hchanged ▸ hstarted) hsees (hearly hold)
  | reported report hreport hstarted hsees =>
    exact .reported report (hreports ▸ hreport) (hchanged ▸ hstarted) hsees

/-- A cell that is written before the reader has passed it will be seen. -/
theorem Stage.of_will_see {before writer : Writer Cell} {version id : Nat} {cell : Cell}
    (hok : feed.PollOk) (hbefore : feed.writers id = some before)
    (hversion : before.version = some version) (hsee : feed.WillSee reader version cell)
    (hpoll : feed'.poll = feed.poll) (hsince : feed'.since = feed.since)
    (hreports : feed'.reports = feed.reports) (hchanged : before.changed_at = writer.changed_at)
    (hfinished : ∀ finished, writer.finished_at = some finished → finished = feed.time) :
    Stage reader feed' writer version cell := by
  have hearly : feed'.Early writer := by
    intro finished hsome report hreport
    rw [hreports] at hreport
    rw [hfinished finished hsome]
    exact Nat.le_of_lt (hok.reported report hreport)
  unfold Feed.WillSee at hsee
  split at hsee
  · rename_i hnone
    exact .waiting (hpoll.trans hnone) (hsince ▸ hsee) hearly
  · rename_i poll hsome
    by_cases hunread : reader.Unread poll cell
    · refine .unread poll (hpoll.trans hsome) hunread (hsince ▸ hsee.1 hunread) ?_ hearly
      by_cases hstarted : writer.changed_at < poll.started_at
      · exact .inl hstarted
      · refine .inr (hok.before poll id before version hsome hbefore hversion ?_)
        rw [hchanged]
        exact Nat.not_lt.mp hstarted
    · refine .passed poll (hpoll.trans hsome) hunread (hsee.2 hunread) ?_ hearly
      intro finished hlater
      rw [hfinished finished hlater]
      exact Nat.le_of_lt (hok.past poll hsome).1

/-- A poll begins: it has every cell before it. -/
theorem Stage.start_poll {writer : Writer Cell} {version : Nat} {cell : Cell}
    (h : Stage reader feed writer version cell) (hpast : writer.changed_at < feed.time)
    (hnone : feed.poll = none) :
    Stage reader
      { feed with poll := some ⟨feed.time, feed.version, reader.parts, reader.empty⟩ }
      writer version cell := by
  cases h with
  | waiting _ hsince hearly =>
    exact .unread _ rfl (reader.covered cell) hsince (.inl hpast) hearly
  | unread poll hsome =>
    rw [hnone] at hsome
    cases hsome
  | passed poll hsome =>
    rw [hnone] at hsome
    cases hsome
  | seen poll hsome =>
    rw [hnone] at hsome
    cases hsome
  | reported report hreport hstarted hsees => exact .reported report hreport hstarted hsees

/-- A part is read: the cells in it that no later part has again are seen. -/
theorem Stage.read_part {writer : Writer Cell} {version : Nat} {cell : Cell}
    {poll : Poll Part Reading} {part : Part} {unread : List Part}
    (h : Stage reader feed writer version cell) (hwriter : writer.Ok feed.time)
    (hnewest : version ≤ cells.version_of feed.store cell) (hpoll : feed.poll = some poll)
    (hunread : poll.unread = part :: unread) :
    Stage reader
      { feed with
        poll := some
          { poll with unread, reading := reader.read feed.store feed.since part poll.reading } }
      writer version cell := by
  cases h with
  | waiting hnone =>
    rw [hpoll] at hnone
    cases hnone
  | unread poll' hsome hbefore hsince hcurrent hearly =>
    obtain rfl := Option.some.inj (hpoll.symm.trans hsome)
    by_cases hlater : ∃ later ∈ unread, reader.covers later cell
    · exact .unread _ rfl hlater hsince hcurrent hearly
    · have hcovers : reader.covers part cell := by
        obtain ⟨other, hother, hcovers⟩ := hbefore
        rw [hunread] at hother
        rcases List.mem_cons.mp hother with rfl | hmem
        · exact hcovers
        · exact absurd ⟨other, hmem, hcovers⟩ hlater
      by_cases hstarted : writer.changed_at < poll.started_at
      · refine .seen _ rfl hlater hstarted ?_ hearly
        exact (reader.sees_read _ _ _ _ _ hcovers).mpr (Nat.lt_of_lt_of_le hsince hnewest)
      · refine .passed _ rfl hlater (hcurrent.resolve_left hstarted) ?_ hearly
        intro finished hfinished
        exact Nat.le_trans (Nat.not_lt.mp hstarted) (hwriter.finished finished hfinished).1
  | passed poll' hsome hread hcurrent hstarted hearly =>
    obtain rfl := Option.some.inj (hpoll.symm.trans hsome)
    refine .passed _ rfl ?_ hcurrent hstarted hearly
    rintro ⟨later, hlater, hcovers⟩
    exact hread ⟨later, hunread ▸ List.mem_cons_of_mem _ hlater, hcovers⟩
  | seen poll' hsome hread hstarted hsees hearly =>
    obtain rfl := Option.some.inj (hpoll.symm.trans hsome)
    refine .seen _ rfl ?_ hstarted ?_ hearly
    · rintro ⟨later, hlater, hcovers⟩
      exact hread ⟨later, hunread ▸ List.mem_cons_of_mem _ hlater, hcovers⟩
    · refine (reader.sees_other _ _ _ _ _ ?_).mpr hsees
      exact fun hcovers => hread ⟨part, hunread ▸ List.mem_cons_self, hcovers⟩
  | reported report hreport hstarted hsees => exact .reported report hreport hstarted hsees

/-- A poll ends: what it has seen is reported, and what it has passed it asks for the next time. -/
theorem Stage.finish_poll {writer : Writer Cell} {version : Nat} {cell : Cell}
    {poll : Poll Part Reading} (h : Stage reader feed writer version cell)
    (hpoll : feed.poll = some poll) (hunread : poll.unread = []) :
    Stage reader
      { feed with
        since := poll.current
        poll := none
        reports := ⟨poll.started_at, feed.since, poll.current, poll.reading⟩ :: feed.reports }
      writer version cell := by
  cases h with
  | waiting hnone =>
    rw [hpoll] at hnone
    cases hnone
  | unread poll' hsome hbefore =>
    obtain rfl := Option.some.inj (hpoll.symm.trans hsome)
    obtain ⟨part, hpart, -⟩ := hbefore
    rw [hunread] at hpart
    cases hpart
  | passed poll' hsome hread hcurrent hstarted hearly =>
    obtain rfl := Option.some.inj (hpoll.symm.trans hsome)
    refine .waiting rfl hcurrent ?_
    intro finished hfinished report hreport
    rcases List.mem_cons.mp hreport with rfl | hmem
    · exact hstarted finished hfinished
    · exact hearly finished hfinished report hmem
  | seen poll' hsome hread hstarted hsees hearly =>
    obtain rfl := Option.some.inj (hpoll.symm.trans hsome)
    exact .reported _ List.mem_cons_self hstarted hsees
  | reported report hreport hstarted hsees =>
    exact .reported report (List.mem_cons_of_mem _ hreport) hstarted hsees

/-- The clock is no part of where the reader stands. -/
theorem Stage.tick {writer : Writer Cell} {version : Nat} {cell : Cell}
    (h : Stage reader feed writer version cell) : Stage reader feed.tick writer version cell := by
  cases h with
  | waiting hnone hsince hearly => exact .waiting hnone hsince hearly
  | unread poll hsome hunread hsince hcurrent hearly =>
    exact .unread poll hsome hunread hsince hcurrent hearly
  | passed poll hsome hread hcurrent hstarted hearly =>
    exact .passed poll hsome hread hcurrent hstarted hearly
  | seen poll hsome hread hstarted hsees hearly =>
    exact .seen poll hsome hread hstarted hsees hearly
  | reported report hreport hstarted hsees => exact .reported report hreport hstarted hsees

theorem Acts.staged (hact : Acts reader feed event feed') (hwriters : feed.WritersOk)
    (hstore : feed.StoreOk cells) (hpoll : feed.PollOk) (h : feed.Staged reader)
    (hmeets : feed.Meets reader event) : feed'.tick.Staged reader := by
  intro id writer version cell hwriter hwritten
  refine Stage.tick ?_
  rcases hact.written hwriters hwriter hwritten with
    ⟨before, hbefore, hold, hchanged, hfinished⟩ |
    ⟨before, first, rest, rfl, hbefore, hversion, hremaining, hcell, hchanged, hfinished, -⟩
  · have hstage := h id before version cell hbefore hold
    cases hact with
    | start_poll hnone =>
      obtain rfl := Option.some.inj (hbefore.symm.trans hwriter)
      exact hstage.start_poll (hwriters id before hbefore).past hnone
    | read_part hsome hunread =>
      obtain rfl := Option.some.inj (hbefore.symm.trans hwriter)
      exact hstage.read_part (hwriters id before hbefore)
        (hstore.newest id before version cell hbefore hold) hsome hunread
    | finish_poll hsome hunread =>
      obtain rfl := Option.some.inj (hbefore.symm.trans hwriter)
      exact hstage.finish_poll hsome hunread
    | _ => exact hstage.kept hpoll rfl rfl rfl hchanged hfinished
  · have hsee := (hmeets id before version first rest rfl hbefore hversion hremaining cell hcell).2
    cases hact with
    | _ => exact Stage.of_will_see hpoll hbefore hversion hsee rfl rfl rfl hchanged hfinished

/-! ## What every event keeps -/

structure Feed.Ok (reader : Reader cells Part Reading) (feed : Feed Store Cell Part Reading) :
    Prop where
  writers : feed.WritersOk
  store : feed.StoreOk cells
  poll : feed.PollOk
  staged : feed.Staged reader

theorem Feed.Ok.step (h : feed.Ok reader) (hmeets : feed.Meets reader event) :
    (feed.step reader event).Ok reader :=
  have hact := acts reader feed event
  ⟨hact.writers_ok h.writers, hact.store_ok h.writers h.store hmeets,
    hact.poll_ok h.writers h.poll, hact.staged h.writers h.store h.poll h.staged hmeets⟩

theorem Feed.Ok.reported (h : feed.Ok reader) : feed.Reported reader := by
  rintro id writer finished hwriter hfinished ⟨late, hlate, hafter⟩ cell hcell
  obtain ⟨-, hremaining, version, hversion⟩ := (h.writers id writer hwriter).finished finished
    hfinished
  have hwritten : writer.Written cell version := by
    refine ⟨hversion, hcell, ?_⟩
    rw [hremaining]
    exact List.not_mem_nil
  have hlater : ¬ feed.Early writer :=
    fun hearly => absurd (hearly finished hfinished late hlate) (Nat.not_le.mpr hafter)
  cases h.staged id writer version cell hwriter hwritten with
  | waiting _ _ hearly => exact absurd hearly hlater
  | unread _ _ _ _ _ hearly => exact absurd hearly hlater
  | passed _ _ _ _ _ hearly => exact absurd hearly hlater
  | seen _ _ _ _ _ hearly => exact absurd hearly hlater
  | reported report hreport hstarted hsees => exact ⟨report, hreport, hstarted, hsees⟩

theorem Feed.start_ok {store : Store} (hzero : ∀ cell, cells.version_of store cell = 0)
    (since : Nat) : (Feed.start store since : Feed Store Cell Part Reading).Ok reader :=
  ⟨nofun, ⟨fun cell => .inl (hzero cell), nofun⟩, ⟨nofun, nofun, nofun⟩, nofun⟩

end Invariants

end version_feeds
