-- The lexical forms of RON: string literals with their escapes, raw strings, characters, line
-- comments and nested block comments. A reading keeps what stands outside the string literals as it
-- is written, and gives the value of each literal.
import Mathlib

namespace ron_text

abbrev quote : Char := '\x22'

abbrev apostrophe : Char := '\x27'

abbrev backslash : Char := '\x5c'

/-! ## The states of a reader -/

/-- Outside the string literals. A state behind a slash, an `r` or a star remembers the character
that the next one may go with. -/
inductive SourceState
  | Code
  | Slash
  | LineComment
  | BlockComment (depth : Nat)
  | BlockSlash (depth : Nat)
  | BlockStar (depth : Nat)
  | CharStart
  | CharEscape
  | CharRest
  | RawStart (hashes : Nat)
  | Raw (hashes : Nat)
  | RawEnd (hashes missing : Nat)
  deriving DecidableEq

/-- Inside a string literal: in its text, or in an escape. -/
inductive LiteralState
  | Text
  | Escape
  | Hex (high : Option Nat)
  | Unicode
  | Digits (digits : List Nat)
  deriving DecidableEq

inductive State
  | source (state : SourceState)
  | literal (state : LiteralState)
  deriving DecidableEq

/-- What a reading gives: characters as they are written outside the string literals, and the
characters and bytes of the values of the literals. -/
inductive Item
  | source (c : Char)
  | value (c : Char)
  | byte (n : Nat)
  deriving DecidableEq

/-! ## One character -/

def after_code (c : Char) : State :=
  if c = quote then .literal .Text
  else if c = '/' then .source .Slash
  else if c = apostrophe then .source .CharStart
  else if c = 'r' then .source (.RawStart 0)
  else .source .Code

/-- A raw string ends with as many hashes as it began with. -/
def raw_end (hashes missing : Nat) : SourceState :=
  if missing = 0 then .Code else .RawEnd hashes missing

/-- Block comments nest: a comment ends where each of those inside it has ended. -/
def block_end : Nat → SourceState
  | 0 => .Code
  | depth + 1 => .BlockComment depth

def source_step : SourceState → Char → State
  | .Code, c => after_code c
  | .Slash, c =>
    if c = '/' then .source .LineComment
    else if c = '*' then .source (.BlockComment 0)
    else after_code c
  | .LineComment, c => .source (if c = '\n' then .Code else .LineComment)
  | .BlockComment depth, c =>
    .source (if c = '/' then .BlockSlash depth else if c = '*' then .BlockStar depth
      else .BlockComment depth)
  | .BlockSlash depth, c =>
    .source (if c = '*' then .BlockComment (depth + 1) else if c = '/' then .BlockSlash depth
      else .BlockComment depth)
  | .BlockStar depth, c =>
    .source (if c = '/' then block_end depth else if c = '*' then .BlockStar depth
      else .BlockComment depth)
  | .CharStart, c => .source (if c = backslash then .CharEscape else .CharRest)
  | .CharEscape, _ => .source .CharRest
  | .CharRest, c => .source (if c = apostrophe then .Code else .CharRest)
  | .RawStart hashes, c =>
    if c = '#' then .source (.RawStart (hashes + 1))
    else if c = quote then .source (.Raw hashes)
    else after_code c
  | .Raw hashes, c => .source (if c = quote then raw_end hashes hashes else .Raw hashes)
  | .RawEnd hashes missing, c =>
    .source (if c = '#' then raw_end hashes (missing - 1)
      else if c = quote then raw_end hashes hashes
      else .Raw hashes)

def hex_digit (c : Char) : Option Nat :=
  if '0' ≤ c ∧ c ≤ '9' then some (c.toNat - '0'.toNat)
  else if 'a' ≤ c ∧ c ≤ 'f' then some (c.toNat - 'a'.toNat + 10)
  else if 'A' ≤ c ∧ c ≤ 'F' then some (c.toNat - 'A'.toNat + 10)
  else none

/-- The escapes of one character. -/
def escape_value (c : Char) : Option Char :=
  if c = quote ∨ c = apostrophe ∨ c = backslash then some c
  else if c = 'n' then some '\n'
  else if c = 'r' then some '\r'
  else if c = 't' then some '\t'
  else if c = '0' then some '\x00'
  else none

/-- The character of a Unicode escape: one to six digits, of a scalar value. -/
def unicode_value (digits : List Nat) : Option Char :=
  let n := digits.foldl (fun n digit => 16 * n + digit) 0
  if digits ≠ [] ∧ n.isValidChar then some (Char.ofNat n) else none

/-- No escape is left open, and none that RON does not have is taken. -/
def literal_step : LiteralState → Char → Option (State × List Item)
  | .Text, c =>
    if c = quote then some (.source .Code, [.source c])
    else if c = backslash then some (.literal .Escape, [])
    else some (.literal .Text, [.value c])
  | .Escape, c =>
    if c = 'x' then some (.literal (.Hex none), [])
    else if c = 'u' then some (.literal .Unicode, [])
    else (escape_value c).map fun value => (.literal .Text, [.value value])
  | .Hex none, c => (hex_digit c).map fun high => (.literal (.Hex (some high)), [])
  | .Hex (some high), c => (hex_digit c).map fun low => (.literal .Text, [.byte (16 * high + low)])
  | .Unicode, c => if c = '\x7b' then some (.literal (.Digits []), []) else none
  | .Digits digits, c =>
    if c = '\x7d' then (unicode_value digits).map fun value => (.literal .Text, [.value value])
    else if digits.length < 6 then
      (hex_digit c).map fun digit => (.literal (.Digits (digits ++ [digit])), [])
    else none

def step : State → Char → Option (State × List Item)
  | .source state, c => some (source_step state c, [.source c])
  | .literal state, c => literal_step state c

/-- Where a text may end. -/
def final : State → Bool
  | .source .Code | .source .Slash | .source .LineComment | .source (.RawStart _) => true
  | _ => false

/-! ## A text -/

def run : State → List Char → Option State
  | state, [] => some state
  | state, c :: rest => do
    let (next, _) ← step state c
    run next rest

/-- The run, as long as it stays in one string literal. -/
def literal_run : LiteralState → List Char → Option LiteralState
  | state, [] => some state
  | state, c :: rest =>
    match literal_step state c with
    | some (.literal next, _) => literal_run next rest
    | _ => none

/-- What RON reads. -/
def read : State → List Char → Option (List Item)
  | state, [] => if final state then some [] else none
  | state, c :: rest => do
    let (next, items) ← step state c
    return items ++ (← read next rest)

@[simp]
theorem run_nil (state : State) : run state [] = some state := rfl

theorem run_cons (state : State) (c : Char) (rest : List Char) :
    run state (c :: rest) = (step state c).bind fun next => run next.1 rest := rfl

theorem run_append (state : State) (text more : List Char) :
    run state (text ++ more) = (run state text).bind fun next => run next more := by
  induction text generalizing state with
  | nil => rfl
  | cons c text ih =>
    rw [List.cons_append, run_cons, run_cons, Option.bind_assoc]
    exact congrArg _ (funext fun next => ih next.1)

theorem run_of_literal_run {state state' : LiteralState} {text : List Char}
    (h : literal_run state text = some state') : run (.literal state) text = some (.literal state') := by
  induction text generalizing state with
  | nil =>
    obtain rfl := Option.some.inj h
    rfl
  | cons c text ih =>
    unfold literal_run at h
    split at h
    · rename_i next items hstep
      rw [run_cons, step, hstep]
      exact ih h
    · cases h

theorem read_cons (state : State) (c : Char) (rest : List Char) :
    read state (c :: rest) =
      (step state c).bind fun next => (read next.1 rest).map (next.2 ++ ·) := by
  rw [read]
  cases step state c with
  | none => rfl
  | some next => cases hread : read next.1 rest <;> simp [hread]

/-- Outside the literals a character is read as it stands. -/
theorem read_source (state : SourceState) (c : Char) (rest : List Char) :
    read (.source state) (c :: rest) =
      (read (source_step state c) rest).map (.source c :: ·) := by
  rw [read_cons]
  rfl

/-- In the text of a literal most characters stand for themselves. -/
theorem read_value {c : Char} (hquote : c ≠ quote) (hbackslash : c ≠ backslash) (rest : List Char) :
    read (.literal .Text) (c :: rest) = (read (.literal .Text) rest).map (.value c :: ·) := by
  rw [read_cons, step, literal_step, if_neg hquote, if_neg hbackslash]
  rfl

theorem read_escape {c value : Char} (h : escape_value c = some value) (rest : List Char) :
    read (.literal .Text) (backslash :: c :: rest) =
      (read (.literal .Text) rest).map (.value value :: ·) := by
  have hx : c ≠ 'x' := by
    rintro rfl
    rw [show escape_value 'x' = none from by decide] at h
    cases h
  have hu : c ≠ 'u' := by
    rintro rfl
    rw [show escape_value 'u' = none from by decide] at h
    cases h
  rw [read_cons, step, literal_step, if_neg (by decide), if_pos rfl, Option.bind_some, read_cons, step,
    literal_step, if_neg hx, if_neg hu, h, Option.map_some, Option.bind_some, Option.map_map]
  rfl

/-! ## What a step in a literal can do -/

/-- A character of a numeric escape: a digit or a brace. -/
def OfCode (c : Char) : Prop := (hex_digit c).isSome ∨ c = '\x7b' ∨ c = '\x7d'

instance (c : Char) : Decidable (OfCode c) := inferInstanceAs (Decidable (_ ∨ _))

inductive LiteralStep : LiteralState → Char → State → List Item → Prop
  | close : LiteralStep .Text quote (.source .Code) [.source quote]
  | escape : LiteralStep .Text backslash (.literal .Escape) []
  | text {c : Char} (hquote : c ≠ quote) (hbackslash : c ≠ backslash) :
      LiteralStep .Text c (.literal .Text) [.value c]
  | escaped {c value : Char} (h : escape_value c = some value) :
      LiteralStep .Escape c (.literal .Text) [.value value]
  | code_start {c : Char} {next : LiteralState} (hc : c = 'x' ∨ c = 'u') (hnext : next ≠ .Escape) :
      LiteralStep .Escape c (.literal next) []
  | code {state : LiteralState} {c : Char} {next : LiteralState} {items : List Item}
      (htext : state ≠ .Text) (hescape : state ≠ .Escape) (hc : OfCode c) (hnext : next ≠ .Escape)
      (hitems : items.length ≤ 1) : LiteralStep state c (.literal next) items

theorem literal_step_cases {state : LiteralState} {c : Char} {next : State} {items : List Item}
    (h : literal_step state c = some (next, items)) : LiteralStep state c next items := by
  cases state with
  | Text =>
    simp only [literal_step] at h
    split_ifs at h with hquote hbackslash
    · obtain ⟨rfl, rfl⟩ := Prod.mk.inj (Option.some.inj h)
      rw [hquote]
      exact .close
    · obtain ⟨rfl, rfl⟩ := Prod.mk.inj (Option.some.inj h)
      rw [hbackslash]
      exact .escape
    · obtain ⟨rfl, rfl⟩ := Prod.mk.inj (Option.some.inj h)
      exact .text hquote hbackslash
  | Escape =>
    simp only [literal_step] at h
    split_ifs at h with hx hu
    · obtain ⟨rfl, rfl⟩ := Prod.mk.inj (Option.some.inj h)
      exact .code_start (.inl hx) (by decide)
    · obtain ⟨rfl, rfl⟩ := Prod.mk.inj (Option.some.inj h)
      exact .code_start (.inr hu) (by decide)
    · obtain ⟨value, hvalue, hnext⟩ := Option.map_eq_some_iff.mp h
      obtain ⟨rfl, rfl⟩ := Prod.mk.inj hnext
      exact .escaped hvalue
  | Hex high =>
    have hcode : ∀ digit, hex_digit c = some digit → OfCode c := fun digit hdigit =>
      .inl (by rw [hdigit]; rfl)
    cases high with
    | none =>
      obtain ⟨digit, hdigit, hnext⟩ := Option.map_eq_some_iff.mp h
      obtain ⟨rfl, rfl⟩ := Prod.mk.inj hnext
      exact .code nofun nofun (hcode digit hdigit) nofun (Nat.zero_le 1)
    | some high =>
      obtain ⟨digit, hdigit, hnext⟩ := Option.map_eq_some_iff.mp h
      obtain ⟨rfl, rfl⟩ := Prod.mk.inj hnext
      exact .code nofun nofun (hcode digit hdigit) nofun (Nat.le_refl 1)
  | Unicode =>
    simp only [literal_step] at h
    split_ifs at h with hbrace
    obtain ⟨rfl, rfl⟩ := Prod.mk.inj (Option.some.inj h)
    exact .code nofun nofun (.inr (.inl hbrace)) nofun (Nat.zero_le 1)
  | Digits digits =>
    simp only [literal_step] at h
    split_ifs at h with hbrace hlength
    · obtain ⟨value, _, hnext⟩ := Option.map_eq_some_iff.mp h
      obtain ⟨rfl, rfl⟩ := Prod.mk.inj hnext
      exact .code nofun nofun (.inr (.inr hbrace)) nofun (Nat.le_refl 1)
    · obtain ⟨digit, hdigit, hnext⟩ := Option.map_eq_some_iff.mp h
      obtain ⟨rfl, rfl⟩ := Prod.mk.inj hnext
      exact .code nofun nofun (.inl (by rw [hdigit]; rfl)) nofun (Nat.zero_le 1)

/-- A literal begins at a quote. -/
theorem source_step_literal {state : SourceState} {c : Char} {next : LiteralState}
    (h : source_step state c = .literal next) : c = quote ∧ next = .Text := by
  have hcode : ∀ c, after_code c = .literal next → c = quote ∧ next = .Text := by
    intro c hafter
    unfold after_code at hafter
    split_ifs at hafter with hquote
    exact ⟨hquote, (State.literal.inj hafter).symm⟩
  cases state <;> simp only [source_step] at h
  case Code => exact hcode c h
  case Slash =>
    split_ifs at h
    exact hcode c h
  case RawStart =>
    split_ifs at h
    exact hcode c h
  all_goals cases h

end ron_text
