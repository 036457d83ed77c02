-- Templates in which a name between braces stands for a value and a doubled brace for itself: what
-- a template is made of, how texts and names are written into one, and that both are read back.
-- The offsets of Rust's strings count bytes; a slice must begin and end between two characters.
import Rginx.RustText

open rust_text

namespace rust_text

/-! ## Slices -/

/-- `str::len`. -/
def len (s : Text) : Nat := (s.map Char.utf8Size).sum

/-- `&s[offset..]`; nothing stands for the panic at an offset that is none between characters. -/
def slice_from : Text → Nat → Option Text
  | s, 0 => some s
  | [], _ + 1 => none
  | c :: s, offset + 1 =>
    if c.utf8Size ≤ offset + 1 then slice_from s (offset + 1 - c.utf8Size) else none

/-- `&s[..offset]`. -/
def slice_to : Text → Nat → Option Text
  | _, 0 => some []
  | [], _ + 1 => none
  | c :: s, offset + 1 =>
    if c.utf8Size ≤ offset + 1 then (slice_to s (offset + 1 - c.utf8Size)).map (c :: ·) else none

/-- `str::find` of a character. -/
def find (c : Char) (s : Text) : Option Nat := (split_once c s).map fun parts => len parts.1

@[simp]
theorem len_append (left right : Text) : len (left ++ right) = len left + len right := by
  simp [len]

@[simp]
theorem len_cons (c : Char) (s : Text) : len (c :: s) = c.utf8Size + len s := by
  simp [len]

@[simp]
theorem len_nil : len [] = 0 := rfl

theorem slice_from_append (left right : Text) : slice_from (left ++ right) (len left) = some right := by
  induction left with
  | nil => cases right <;> rfl
  | cons c left ih =>
    obtain ⟨offset, hoffset⟩ : ∃ offset, len (c :: left) = offset + 1 :=
      Nat.exists_eq_add_one.mpr (by rw [len_cons]; exact Nat.add_pos_left c.utf8Size_pos _)
    have hrest : offset + 1 - c.utf8Size = len left := by
      rw [← hoffset, len_cons, Nat.add_sub_cancel_left]
    have hfits : c.utf8Size ≤ offset + 1 := by
      rw [← hoffset, len_cons]
      exact Nat.le_add_right _ _
    rw [hoffset, List.cons_append, slice_from, if_pos hfits, hrest, ih]

theorem slice_to_append (left right : Text) : slice_to (left ++ right) (len left) = some left := by
  induction left with
  | nil => cases right <;> rfl
  | cons c left ih =>
    obtain ⟨offset, hoffset⟩ : ∃ offset, len (c :: left) = offset + 1 :=
      Nat.exists_eq_add_one.mpr (by rw [len_cons]; exact Nat.add_pos_left c.utf8Size_pos _)
    have hrest : offset + 1 - c.utf8Size = len left := by
      rw [← hoffset, len_cons, Nat.add_sub_cancel_left]
    have hfits : c.utf8Size ≤ offset + 1 := by
      rw [← hoffset, len_cons]
      exact Nat.le_add_right _ _
    rw [hoffset, List.cons_append, slice_to, if_pos hfits, hrest, ih]
    rfl

theorem find_append {c : Char} {left : Text} (h : c ∉ left) (right : Text) :
    find c (left ++ c :: right) = some (len left) := by
  unfold find
  rw [split_once_append h]
  rfl

theorem find_eq_none {c : Char} {s : Text} (h : c ∉ s) : find c s = none := by
  unfold find
  rw [split_once_eq_none.mpr h]
  rfl

end rust_text

namespace brace_templates

/-! ## The pieces of a template -/

/-- A text, or a name as it stands between its braces. -/
inductive Piece
  | literal (text : Text)
  | variable (name : Text)
  deriving DecidableEq

inductive BraceError
  | UnclosedVariable
  | EmptyVariable
  | UnescapedClose
  deriving DecidableEq

def push (literal : Text) (pieces : List Piece) : List Piece :=
  if literal = [] then pieces else .literal literal :: pieces

/-- The pieces up to the first error in the braces: outside of a variable with the text before, or
inside of one with its name so far. -/
def scan : Text ⊕ Text → Text → List Piece × Option BraceError
  | .inl literal, '\x7b' :: '\x7b' :: rest => scan (.inl (literal ++ ['\x7b'])) rest
  | .inl literal, '\x7d' :: '\x7d' :: rest => scan (.inl (literal ++ ['\x7d'])) rest
  | .inl literal, '\x7b' :: rest =>
    let scanned := scan (.inr []) rest
    (push literal scanned.1, scanned.2)
  | .inl literal, '\x7d' :: _ => (push literal [], some .UnescapedClose)
  | .inl literal, c :: rest => scan (.inl (literal ++ [c])) rest
  | .inl literal, [] => (push literal [], none)
  | .inr name, '\x7d' :: rest =>
    if trim name = [] then ([], some .EmptyVariable)
    else
      let scanned := scan (.inl []) rest
      (.variable name :: scanned.1, scanned.2)
  | .inr name, c :: rest => scan (.inr (name ++ [c])) rest
  | .inr _, [] => ([], some .UnclosedVariable)

/-- The braces of a text are doubled. -/
def escape (s : Text) : Text :=
  s.flatMap fun c => if c = '\x7b' ∨ c = '\x7d' then [c, c] else [c]

/-- A name between braces, and the text after it. -/
def written (field : Text × Text) : Text := '\x7b' :: field.1 ++ '\x7d' :: escape field.2

def pieces_of (field : Text × Text) : List Piece := .variable field.1 :: push field.2 []

/-- A name that can stand between braces. -/
structure Name (name : Text) : Prop where
  named : trim name ≠ []
  no_open : name.head? ≠ some '\x7b'
  no_close : '\x7d' ∉ name

/-- The braces of a template are in order: it is a text, and names between braces with texts after
them. -/
def Braced (raw : Text) : Prop :=
  ∃ (first : Text) (fields : List (Text × Text)), (∀ field ∈ fields, Name field.1) ∧
    raw = escape first ++ fields.flatMap written

/-! ## Reading back -/

attribute [local simp] scan

theorem scan_char {literal : Text} {c : Char} (hopen : c ≠ '\x7b') (hclose : c ≠ '\x7d')
    (rest : Text) : scan (.inl literal) (c :: rest) = scan (.inl (literal ++ [c])) rest := by
  simp [hopen, hclose]

/-- A doubled brace is one brace of the text. -/
theorem scan_doubled {c : Char} (hbrace : c = '\x7b' ∨ c = '\x7d') (literal rest : Text) :
    scan (.inl literal) (c :: c :: rest) = scan (.inl (literal ++ [c])) rest := by
  rcases hbrace with rfl | rfl
  · rw [scan]
  · rw [scan]

theorem scan_escape (s literal rest : Text) :
    scan (.inl literal) (escape s ++ rest) = scan (.inl (literal ++ s)) rest := by
  induction s generalizing literal with
  | nil => simp [escape]
  | cons c s ih =>
    have hcons : escape (c :: s) =
        (if c = '\x7b' ∨ c = '\x7d' then [c, c] else [c]) ++ escape s := rfl
    have hliteral : literal ++ c :: s = literal ++ [c] ++ s := by simp
    rw [hcons, hliteral, ← ih]
    split
    · rename_i hbrace
      exact scan_doubled hbrace literal _
    · rename_i hplain
      exact scan_char (not_or.mp hplain).1 (not_or.mp hplain).2 _

/-- A single brace opens a variable. -/
theorem scan_open (literal : Text) {rest : Text} (h : rest.head? ≠ some '\x7b') :
    scan (.inl literal) ('\x7b' :: rest) =
      (push literal (scan (.inr []) rest).1, (scan (.inr []) rest).2) := by
  cases rest with
  | nil => rw [scan]; nofun
  | cons c rest =>
    rw [scan]
    intro more hmore
    exact h (congrArg List.head? hmore)

/-- A single brace that closes nothing. -/
theorem scan_close (literal : Text) {rest : Text} (h : rest.head? ≠ some '\x7d') :
    scan (.inl literal) ('\x7d' :: rest) = (push literal [], some .UnescapedClose) := by
  cases rest with
  | nil => rw [scan]; nofun
  | cons c rest =>
    rw [scan]
    intro more hmore
    exact h (congrArg List.head? hmore)

/-- The name goes up to the next brace that closes. -/
theorem scan_name {more : Text} (h : '\x7d' ∉ more) (name rest : Text) :
    scan (.inr name) (more ++ rest) = scan (.inr (name ++ more)) rest := by
  induction more generalizing name with
  | nil => simp
  | cons c more ih =>
    have hc : c ≠ '\x7d' := fun hc => h (hc ▸ List.mem_cons_self)
    have hname : name ++ c :: more = name ++ [c] ++ more := by simp
    rw [hname, ← ih fun hin => h (List.mem_cons_of_mem _ hin)]
    simp [scan]

theorem scan_variable {name : Text} (hnamed : trim name ≠ []) (rest : Text) :
    scan (.inr name) ('\x7d' :: rest) =
      (.variable name :: (scan (.inl []) rest).1, (scan (.inl []) rest).2) := by
  rw [scan, if_neg hnamed]

/-- What is written is read back, with the texts as they were. -/
theorem scan_written {fields : List (Text × Text)} (hfields : ∀ field ∈ fields, Name field.1)
    (literal first : Text) :
    scan (.inl literal) (escape first ++ fields.flatMap written) =
      (push (literal ++ first) (fields.flatMap pieces_of), none) := by
  induction fields generalizing literal first with
  | nil =>
    rw [scan_escape]
    rw [List.flatMap_nil, scan]
    rfl
  | cons field fields ih =>
    obtain ⟨name, text⟩ := field
    obtain ⟨hnamed, hopen, hclose⟩ := hfields (name, text) List.mem_cons_self
    have hhead : (name ++ '\x7d' :: (escape text ++ fields.flatMap written)).head? ≠ some '\x7b' := by
      cases name with
      | nil => exact absurd rfl hnamed
      | cons c name => exact hopen
    have hwritten : ((name, text) :: fields).flatMap written =
        '\x7b' :: (name ++ '\x7d' :: (escape text ++ fields.flatMap written)) := by
      simp [written]
    have hpieces : ((name, text) :: fields).flatMap pieces_of =
        .variable name :: push text (fields.flatMap pieces_of) := by
      unfold push
      split <;> simp_all [pieces_of, push]
    rw [scan_escape, hwritten, scan_open _ hhead, scan_name hclose, List.nil_append,
      scan_variable hnamed, ih (fun other hother => hfields other (List.mem_cons_of_mem _ hother)),
      hpieces, List.nil_append]

/-! ## What is read was written -/

theorem escape_cons (c : Char) (s : Text) :
    escape (c :: s) = (if c = '\x7b' ∨ c = '\x7d' then [c, c] else [c]) ++ escape s := rfl

theorem braced_nil : Braced [] := ⟨[], [], nofun, rfl⟩

theorem braced_char {c : Char} {rest : Text} (hopen : c ≠ '\x7b') (hclose : c ≠ '\x7d')
    (h : Braced rest) : Braced (c :: rest) := by
  obtain ⟨first, fields, hfields, rfl⟩ := h
  refine ⟨c :: first, fields, hfields, ?_⟩
  rw [escape_cons, if_neg (not_or.mpr ⟨hopen, hclose⟩)]
  rfl

theorem braced_doubled {c : Char} {rest : Text} (hbrace : c = '\x7b' ∨ c = '\x7d')
    (h : Braced rest) : Braced (c :: c :: rest) := by
  obtain ⟨first, fields, hfields, rfl⟩ := h
  refine ⟨c :: first, fields, hfields, ?_⟩
  rw [escape_cons, if_pos hbrace]
  rfl

theorem braced_variable {name rest : Text} (hname : Name name) (h : Braced rest) :
    Braced ('\x7b' :: (name ++ '\x7d' :: rest)) := by
  obtain ⟨first, fields, hfields, rfl⟩ := h
  refine ⟨[], (name, first) :: fields, ?_, ?_⟩
  · intro field hfield
    rcases List.mem_cons.mp hfield with rfl | hfield
    · exact hname
    · exact hfields field hfield
  · simp [written, escape]

/-- A scan without an error outside of a variable read text and variables; inside of one, the rest
of its name first. -/
theorem braced_of_scan {state : Text ⊕ Text} {rest : Text} (h : (scan state rest).2 = none) :
    match state with
    | .inl _ => Braced rest
    | .inr name => ∃ more after, rest = more ++ '\x7d' :: after ∧ '\x7d' ∉ more ∧
        trim (name ++ more) ≠ [] ∧ Braced after := by
  induction state, rest using scan.induct with
  | case1 literal rest ih =>
    rw [scan] at h
    exact braced_doubled (.inl rfl) (ih h)
  | case2 literal rest ih =>
    rw [scan] at h
    exact braced_doubled (.inr rfl) (ih h)
  | case3 literal rest hsingle ih =>
    rw [scan_open literal fun hhead => ?_] at h
    · obtain ⟨name, after, rfl, hclose, hnamed, hafter⟩ := ih h
      refine braced_variable ⟨hnamed, ?_, hclose⟩ hafter
      cases name with
      | nil => exact absurd rfl hnamed
      | cons c name =>
        intro hhead
        exact hsingle _ (congrArg (· :: _) (Option.some.inj hhead))
    · obtain ⟨more, rfl⟩ := List.head?_eq_some_iff.mp hhead
      exact hsingle more rfl
  | case4 literal rest hsingle =>
    rw [scan] at h
    · cases h
    · exact hsingle
  | case5 literal c rest _ _ hopen hclose ih =>
    rw [scan_char (fun hc => hopen hc) fun hc => hclose hc] at h
    exact braced_char (fun hc => hopen hc) (fun hc => hclose hc) (ih h)
  | case6 literal => exact braced_nil
  | case7 name rest htrim =>
    rw [scan, if_pos htrim] at h
    cases h
  | case8 name rest htrim ih =>
    rw [scan_variable htrim] at h
    refine ⟨[], rest, rfl, List.not_mem_nil, ?_, ih h⟩
    rwa [List.append_nil]
  | case9 name c rest hclose ih =>
    rw [scan] at h
    · obtain ⟨more, after, rfl, hmore, hnamed, hafter⟩ := ih h
      refine ⟨c :: more, after, rfl, ?_, ?_, hafter⟩
      · intro hin
        rcases List.mem_cons.mp hin with hc | hin
        · exact hclose hc.symm
        · exact hmore hin
      · rwa [List.append_assoc] at hnamed
    · exact hclose
  | case10 name => cases h

/-- The scanner finds no fault exactly in the templates that are written from texts and names. -/
theorem scan_valid_iff (raw : Text) : (scan (.inl []) raw).2 = none ↔ Braced raw := by
  constructor
  · intro h
    exact braced_of_scan h
  · rintro ⟨first, fields, hfields, rfl⟩
    rw [scan_written hfields]

end brace_templates
