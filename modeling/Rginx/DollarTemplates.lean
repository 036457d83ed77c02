-- Templates in which a dollar and a name stand for a value: what a template is made of, and that
-- every text is made of it. A name without braces goes as far as it can; a doubled dollar is one; a
-- dollar that begins nothing is itself. Its pieces lie among the bytes of the text, where a dollar
-- and the characters of a name are one byte each.
import Rginx.BraceTemplates

open rust_text

namespace rust_text

/-! ## Bytes -/

/-- `&s[start..end]`; nothing stands for the panic. -/
def slice (s : Text) (start end_ : Nat) : Option Text :=
  if end_ < start then none else (slice_from s start).bind (slice_to · (end_ - start))

theorem slice_append (left between right : Text) :
    slice (left ++ (between ++ right)) (len left) (len left + len between) = some between := by
  unfold slice
  rw [if_neg (Nat.not_lt.mpr (Nat.le_add_right _ _)), slice_from_append, Option.bind_some,
    Nat.add_sub_cancel_left, slice_to_append]

theorem as_bytes_append (left right : Text) :
    as_bytes (left ++ right) = as_bytes left ++ as_bytes right := by
  simp [as_bytes]

theorem as_bytes_cons (c : Char) (s : Text) :
    as_bytes (c :: s) = String.utf8EncodeChar c ++ as_bytes s := rfl

theorem length_as_bytes (s : Text) : (as_bytes s).length = len s := by
  induction s with
  | nil => rfl
  | cons c s ih => rw [as_bytes_cons, List.length_append, ih, String.length_utf8EncodeChar, len_cons]

/-- A byte of ASCII is a character. -/
theorem utf8EncodeChar_of_ascii {c : Char} (h : c.toNat < 128) :
    String.utf8EncodeChar c = [c.toNat.toUInt8] := by
  have hone := @as_bytes_of_ascii [c] (by simpa using h)
  simpa [as_bytes] using hone

/-- In a character that is not one of ASCII no byte is one of ASCII. -/
theorem ascii_of_mem {c : Char} {b : UInt8} (h : b ∈ String.utf8EncodeChar c) (hb : b.toNat < 128) :
    c.toNat = b.toNat := by
  unfold String.utf8EncodeChar at h
  dsimp only at h
  have hval : c.val.toNat = c.toNat := rfl
  split at h
  · rw [List.mem_singleton] at h
    subst h
    simp
    omega
  · exfalso
    split at h
    · simp only [List.mem_cons, List.not_mem_nil, or_false] at h
      rcases h with rfl | rfl <;> simp at hb <;> omega
    · split at h
      · simp only [List.mem_cons, List.not_mem_nil, or_false] at h
        rcases h with rfl | rfl | rfl <;> simp at hb <;> omega
      · simp only [List.mem_cons, List.not_mem_nil, or_false] at h
        rcases h with rfl | rfl | rfl | rfl <;> simp at hb <;> omega

theorem char_of_mem {c : Char} {b : UInt8} (h : b ∈ String.utf8EncodeChar c) (hb : b.toNat < 128) :
    c = Char.ofNat b.toNat := by
  rw [← ascii_of_mem h hb, Char.ofNat_toNat]

/-- A text begins with a byte of ASCII exactly if it begins with that character. -/
theorem head_byte_iff {d : Char} (hd : d.toNat < 128) (s : Text) :
    (as_bytes s).head? = some d.toNat.toUInt8 ↔ s.head? = some d := by
  cases s with
  | nil => simp [as_bytes]
  | cons c s =>
    rw [as_bytes_cons, List.head?_cons, Option.some_inj]
    constructor
    · intro h
      have hin : d.toNat.toUInt8 ∈ String.utf8EncodeChar c := by
        cases hbytes : String.utf8EncodeChar c with
        | nil =>
          have hsize := c.utf8Size_pos
          rw [← String.length_utf8EncodeChar, hbytes] at hsize
          exact absurd hsize (lt_irrefl _)
        | cons b bytes =>
          rw [hbytes] at h
          rw [← Option.some_inj.mp h]
          exact List.mem_cons_self
      have hsmall : d.toNat.toUInt8.toNat = d.toNat := by simp; omega
      rw [char_of_mem hin (by omega), hsmall, Char.ofNat_toNat]
    · rintro rfl
      rw [utf8EncodeChar_of_ascii hd]
      rfl

/-- The byte at an offset behind some characters. -/
theorem byte_at (left right : Text) : (as_bytes (left ++ right))[len left]? = (as_bytes right).head? := by
  rw [as_bytes_append, List.getElem?_append_right (length_as_bytes left).le, length_as_bytes,
    Nat.sub_self, List.head?_eq_getElem?]

/-- The bytes that a test for characters of ASCII accepts are those characters. -/
theorem takeWhile_as_bytes {test : UInt8 → Bool} {accepts : Char → Bool}
    (hbytes : ∀ b, test b → b.toNat < 128 ∧ accepts (Char.ofNat b.toNat))
    (hchars : ∀ c, accepts c → c.toNat < 128 ∧ test c.toNat.toUInt8) (s : Text) :
    (as_bytes s).takeWhile test = as_bytes (s.takeWhile accepts) := by
  induction s with
  | nil => rfl
  | cons c s ih =>
    rw [as_bytes_cons]
    cases haccepts : accepts c with
    | true =>
      obtain ⟨hascii, htest⟩ := hchars c haccepts
      rw [utf8EncodeChar_of_ascii hascii, List.singleton_append, List.takeWhile_cons_of_pos htest,
        List.takeWhile_cons_of_pos haccepts, ih, as_bytes_cons, utf8EncodeChar_of_ascii hascii]
      rfl
    | false =>
      rw [List.takeWhile_cons_of_neg (by simp [haccepts])]
      cases hencoded : String.utf8EncodeChar c with
      | nil =>
        have hsize := c.utf8Size_pos
        rw [← String.length_utf8EncodeChar, hencoded] at hsize
        exact absurd hsize (lt_irrefl _)
      | cons b bytes =>
        rw [List.cons_append, List.takeWhile_cons_of_neg]
        · rfl
        · intro htest
          obtain ⟨hascii, hchar⟩ := hbytes b htest
          rw [← char_of_mem (hencoded ▸ List.mem_cons_self) hascii, haccepts] at hchar
          cases hchar

end rust_text

namespace dollar_templates

/-! ## The pieces of a template -/

inductive Piece
  | literal (text : Text)
  | doubled
  | single
  | braced (name : Text)
  | bare (name : Text)
  deriving DecidableEq

def NameChar (c : Char) : Bool := c.isAlphanum || c = '_'

def Piece.written : Piece → Text
  | .literal text => text
  | .doubled => ['$', '$']
  | .single => ['$']
  | .braced name => '$' :: '\x7b' :: (name ++ ['\x7d'])
  | .bare name => '$' :: name

def written (pieces : List Piece) : Text := pieces.flatMap Piece.written

/-- A piece that ends where the rest begins: a text goes up to the next dollar, and a name without
braces up to the next character that is none of a name. -/
def Piece.Before : Piece → Text → Prop
  | .literal text, rest => text ≠ [] ∧ '$' ∉ text ∧ ∀ c ∈ rest.head?, c = '$'
  | .doubled, _ => True
  | .single, rest => ∀ c ∈ rest.head?, c ≠ '$' ∧ c ≠ '\x7b' ∧ NameChar c = false
  | .braced name, _ => '\x7d' ∉ name
  | .bare name, rest =>
    name ≠ [] ∧ (∀ c ∈ name, NameChar c = true) ∧ ∀ c ∈ rest.head?, NameChar c = false

def Fit : List Piece → Text → Prop
  | [], _ => True
  | piece :: pieces, rest => piece.Before (written pieces ++ rest) ∧ Fit pieces rest

/-- A brace that is never closed. -/
def Unclosed (rest : Text) : Prop := ∃ name, rest = '$' :: '\x7b' :: name ∧ '\x7d' ∉ name

/-- The pieces of a text, and what is left of it: nothing, or a brace that is never closed. -/
structure Reads (raw : Text) (pieces : List Piece) (rest : Text) : Prop where
  text : raw = written pieces ++ rest
  fit : Fit pieces rest
  rest : rest = [] ∨ Unclosed rest

@[simp]
theorem written_nil : written [] = [] := rfl

@[simp]
theorem written_cons (piece : Piece) (pieces : List Piece) :
    written (piece :: pieces) = piece.written ++ written pieces := rfl

theorem NameChar.ascii {c : Char} (h : NameChar c = true) : c.toNat < 128 := by
  unfold NameChar at h
  rw [Bool.or_eq_true, decide_eq_true_eq] at h
  rcases h with h | rfl
  · simp only [Char.isAlphanum, Char.isAlpha, Char.isUpper, Char.isLower, Char.isDigit,
      Bool.or_eq_true, Bool.and_eq_true, decide_eq_true_eq, ge_iff_le, UInt32.le_iff_toNat_le] at h
    have hval : c.val.toNat = c.toNat := rfl
    rcases h with (⟨-, h⟩ | ⟨-, h⟩) | ⟨-, h⟩ <;> rw [hval] at h <;> exact Nat.lt_of_le_of_lt h (by decide)
  · decide

/-! ## Every text is made of pieces -/

theorem Reads.cons {raw rest : Text} {piece : Piece} {pieces : List Piece}
    (h : Reads raw pieces rest) (hbefore : piece.Before raw) :
    Reads (piece.written ++ raw) (piece :: pieces) rest := by
  refine ⟨?_, ⟨h.text ▸ hbefore, h.fit⟩, h.rest⟩
  rw [written_cons, List.append_assoc, ← h.text]

theorem head_of_dropWhile {p : Char → Bool} {s : Text} {c : Char} (h : c ∈ (s.dropWhile p).head?) :
    p c = false := by
  have hnot := List.head?_dropWhile_not p s
  rw [Option.mem_def.mp h] at hnot
  simpa using hnot

/-- Every text is made of pieces, up to a brace that is never closed. -/
theorem reads_exists (raw : Text) : ∃ pieces rest, Reads raw pieces rest := by
  induction hlength : raw.length using Nat.strongRecOn generalizing raw with
  | ind length ih =>
    -- The pieces of what is behind a first piece.
    have hnext : ∀ (piece : Piece) (more : Text), raw = piece.written ++ more →
        piece.written ≠ [] → piece.Before more → ∃ pieces rest, Reads raw pieces rest := by
      intro piece more hraw hwritten hbefore
      have hpos := List.length_pos_iff.mpr hwritten
      obtain ⟨pieces, rest, hreads⟩ := ih more.length
        (by rw [← hlength, hraw, List.length_append]; omega) more rfl
      exact ⟨piece :: pieces, rest, hraw ▸ hreads.cons hbefore⟩
    cases raw with
    | nil => exact ⟨[], [], rfl, trivial, .inl rfl⟩
    | cons c s =>
      by_cases hdollar : c = '$'
      · subst hdollar
        by_cases hdoubled : s.head? = some '$'
        · obtain ⟨more, rfl⟩ := List.head?_eq_some_iff.mp hdoubled
          exact hnext .doubled more rfl (by simp [Piece.written]) trivial
        · by_cases hopen : s.head? = some '\x7b'
          · obtain ⟨more, rfl⟩ := List.head?_eq_some_iff.mp hopen
            cases hsplit : split_once '\x7d' more with
            | none =>
              exact ⟨[], _, rfl, trivial, .inr ⟨more, rfl, split_once_eq_none.mp hsplit⟩⟩
            | some split =>
              obtain ⟨name, after⟩ := split
              obtain ⟨hname, rfl⟩ := split_once_eq_some.mp hsplit
              exact hnext (.braced name) after (by simp [Piece.written]) (by simp [Piece.written])
                hname
          · by_cases hname : s.takeWhile NameChar = []
            · refine hnext .single s rfl (by simp [Piece.written]) ?_
              intro d hd
              refine ⟨fun h => hdoubled (h ▸ hd), fun h => hopen (h ▸ hd), ?_⟩
              have hdrop : s.dropWhile NameChar = s := by
                have hsplit := List.takeWhile_append_dropWhile (p := NameChar) (l := s)
                rwa [hname, List.nil_append] at hsplit
              exact head_of_dropWhile (hdrop.symm ▸ hd)
            · refine hnext (.bare (s.takeWhile NameChar)) (s.dropWhile NameChar) ?_
                (by simp [Piece.written]) ⟨hname, fun d hd => ?_, fun d hd => head_of_dropWhile hd⟩
              · rw [Piece.written, List.cons_append, List.takeWhile_append_dropWhile]
              · exact List.mem_takeWhile_imp hd
      · have hsplit := List.takeWhile_append_dropWhile (p := (· ≠ '$')) (l := c :: s)
        refine hnext (.literal ((c :: s).takeWhile (· ≠ '$'))) ((c :: s).dropWhile (· ≠ '$'))
          hsplit.symm ?_ ⟨?_, fun hin => ?_, fun d hd => ?_⟩
        · simp [Piece.written, hdollar]
        · simp [hdollar]
        · simpa using List.mem_takeWhile_imp hin
        · simpa using head_of_dropWhile hd

/-! ## What is written is read back -/

/-- The name of a piece that stands for a value. -/
def Piece.name : Piece → Option Text
  | .braced name | .bare name => some name
  | _ => none

/-- What a piece stands for. -/
def Piece.shown (value : Text → Text) : Piece → Text
  | .literal text => text
  | .doubled | .single => ['$']
  | .braced name | .bare name => value name

/-- The dollars of a text are doubled. -/
def escape (s : Text) : Text := s.flatMap fun c => if c = '$' then ['$', '$'] else [c]

/-- A name between braces, and the text after it. -/
def field (field : Text × Text) : Text := '$' :: '\x7b' :: (field.1 ++ '\x7d' :: escape field.2)

/-- A text is made of pieces that stand for what another text and its pieces stand for, with
characters before it and the same names. -/
def Prefixed (characters raw : Text) (pieces : List Piece) : Prop :=
  ∃ pieces', Reads raw pieces' [] ∧ pieces'.filterMap Piece.name = pieces.filterMap Piece.name ∧
    ∀ value, pieces'.flatMap (Piece.shown value) = characters ++ pieces.flatMap (Piece.shown value)

/-- A character joins a text at the start of what is behind it. -/
theorem reads_char {c : Char} (hc : c ≠ '$') {raw : Text} {pieces : List Piece}
    (h : Reads raw pieces []) : Prefixed [c] (c :: raw) pieces := by
  have hsingle : (∀ d ∈ raw.head?, d = '$') → Prefixed [c] (c :: raw) pieces := by
    intro hhead
    have hbefore : (Piece.literal [c]).Before raw := ⟨by simp, by simpa using Ne.symm hc, hhead⟩
    exact ⟨.literal [c] :: pieces, h.cons hbefore, rfl, fun value => rfl⟩
  have htext := h.text
  rw [List.append_nil] at htext
  cases pieces with
  | nil =>
    rw [written_nil] at htext
    exact hsingle (by simp [htext])
  | cons piece pieces =>
    cases piece with
    | literal text =>
      obtain ⟨⟨_, hdollar, hbehind⟩, hfit⟩ := h.fit
      refine ⟨.literal (c :: text) :: pieces, ⟨?_, ⟨⟨by simp, ?_, hbehind⟩, hfit⟩, .inl rfl⟩, rfl,
        fun value => rfl⟩
      · rw [htext, List.append_nil]
        rfl
      · simpa [hdollar] using Ne.symm hc
    | doubled => exact hsingle (by simp [htext, Piece.written])
    | single => exact hsingle (by simp [htext, Piece.written])
    | braced name => exact hsingle (by simp [htext, Piece.written])
    | bare name => exact hsingle (by simp [htext, Piece.written])

theorem escape_reads (s : Text) {raw : Text} {pieces : List Piece} (h : Reads raw pieces []) :
    Prefixed s (escape s ++ raw) pieces := by
  induction s with
  | nil => exact ⟨pieces, h, rfl, fun value => rfl⟩
  | cons c s ih =>
    obtain ⟨pieces', hreads, hnames, hshown⟩ := ih
    by_cases hc : c = '$'
    · subst hc
      have hbefore : Piece.doubled.Before (escape s ++ raw) := trivial
      exact ⟨.doubled :: pieces', hreads.cons hbefore, hnames,
        fun value => congrArg ('$' :: ·) (hshown value)⟩
    · have hescape : escape (c :: s) ++ raw = c :: (escape s ++ raw) := by simp [escape, hc]
      obtain ⟨pieces'', hreads', hnames', hshown'⟩ := reads_char hc hreads
      exact ⟨pieces'', hescape ▸ hreads', hnames'.trans hnames,
        fun value => (hshown' value).trans (congrArg (c :: ·) (hshown value))⟩

/-- What is written is read back, with the texts as they were. -/
theorem fields_read {fields : List (Text × Text)} (hclose : ∀ f ∈ fields, '\x7d' ∉ f.1)
    (first : Text) :
    ∃ pieces, Reads (escape first ++ fields.flatMap field) pieces [] ∧
      pieces.filterMap Piece.name = fields.map Prod.fst ∧
      ∀ value, pieces.flatMap (Piece.shown value) =
        first ++ fields.flatMap fun f => value f.1 ++ f.2 := by
  induction fields generalizing first with
  | nil =>
    have hnothing : Reads [] [] [] := ⟨rfl, trivial, .inl rfl⟩
    exact escape_reads first hnothing
  | cons f fields ih =>
    obtain ⟨pieces, hreads, hnames, hshown⟩ :=
      ih (fun other hother => hclose other (List.mem_cons_of_mem _ hother)) f.2
    have hbefore : (Piece.braced f.1).Before (escape f.2 ++ fields.flatMap field) :=
      hclose f List.mem_cons_self
    have hwritten : (f :: fields).flatMap field =
        (Piece.braced f.1).written ++ (escape f.2 ++ fields.flatMap field) := by
      simp [field, Piece.written]
    obtain ⟨pieces', hreads', hnames', hshown'⟩ := escape_reads first (hreads.cons hbefore)
    refine ⟨pieces', hwritten ▸ hreads', hnames'.trans (congrArg (f.1 :: ·) hnames), fun value => ?_⟩
    rw [hshown' value, List.flatMap_cons, hshown value, List.flatMap_cons]
    simp [Piece.shown]

end dollar_templates
