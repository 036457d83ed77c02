-- Text as the standard library of Rust cuts and reads it: trimming, splitting,
-- the letters of ASCII and the decimal numbers of 64 bits. A text is the list
-- of its characters.
import Mathlib

namespace rust_text

abbrev Text := List Char

instance : LawfulBEq Text := inferInstanceAs (LawfulBEq (List Char))

/-- `char::is_whitespace`. -/
def isWhitespace (c : Char) : Bool :=
  c.toNat ∈ [0x20, 0x85, 0xA0, 0x1680, 0x2028, 0x2029, 0x202F, 0x205F, 0x3000] ∨
    (9 ≤ c.toNat ∧ c.toNat ≤ 13) ∨ (0x2000 ≤ c.toNat ∧ c.toNat ≤ 0x200A)

/-- `str::trim`. -/
def trim (s : Text) : Text := (s.dropWhile isWhitespace).rdropWhile isWhitespace

/-- `str::split` at a character. -/
def split (c : Char) (s : Text) : List Text := s.splitOn c

/-- `str::split_once` at a character. -/
def split_once (c : Char) : Text → Option (Text × Text)
  | [] => none
  | d :: rest =>
    if d = c then some ([], rest)
    else (split_once c rest).map fun parts => (d :: parts.1, parts.2)

/-- `str::strip_prefix`: what follows `start`, in a text that starts with it. -/
def stripStart (start s : Text) : Option Text :=
  if start <+: s then some (s.drop start.length) else none

/-- `str::starts_with`. -/
def startsWith (start s : Text) : Bool := start <+: s

/-- `str::to_ascii_lowercase`. -/
def to_ascii_lowercase (s : Text) : Text := s.map Char.toLower

/-- `str::eq_ignore_ascii_case`. -/
def eq_ignore_ascii_case (s t : Text) : Bool := to_ascii_lowercase s = to_ascii_lowercase t

/-- The digits of a number, as `to_string` and `format!` write it. -/
def decimal (n : Nat) : Text := Nat.toDigits 10 n

/-- `str::parse::<u64>`: one or more digits, after a plus sign or not, of a number below
`2 ^ 64`. -/
def parse_u64 (s : Text) : Option Nat :=
  let digits := (stripStart ['+'] s).getD s
  if digits ≠ [] ∧ digits.all Char.isDigit ∧ Nat.ofDigitChars 10 digits 0 < 2 ^ 64 then
    some (Nat.ofDigitChars 10 digits 0)
  else none

/-- What `str::parse::<u64>` says of the first character it cannot take. -/
def parse_u64_error (s : Text) : String :=
  let rec go (value : Nat) : Text → String
    | [] => "invalid digit found in string"
    | c :: rest =>
      if c.isDigit = false then "invalid digit found in string"
      else if 2 ^ 64 ≤ value * 10 + (c.toNat - '0'.toNat) then
        "number too large to fit in target type"
      else go (value * 10 + (c.toNat - '0'.toNat)) rest
  if s = [] then "cannot parse integer from empty string"
  else go 0 ((stripStart ['+'] s).getD s)

/-! ## Cutting -/

theorem stripStart_append (start rest : Text) : stripStart start (start ++ rest) = some rest := by
  unfold stripStart
  simp

/-- The first occurrence of the character is where a text without it ends. -/
theorem split_once_append {c : Char} {left : Text} (h : c ∉ left) (right : Text) :
    split_once c (left ++ c :: right) = some (left, right) := by
  induction left with
  | nil => simp [split_once]
  | cons d rest ih =>
    have hd : d ≠ c := fun he => h (he ▸ List.mem_cons_self)
    have hrest : c ∉ rest := fun hm => h (List.mem_cons_of_mem _ hm)
    simp [split_once, hd, ih hrest]

theorem split_once_eq_none {c : Char} {s : Text} : split_once c s = none ↔ c ∉ s := by
  induction s with
  | nil => simp [split_once]
  | cons d rest ih =>
    by_cases hd : d = c
    · simp [split_once, hd]
    · simp [split_once, hd, ih, Ne.symm hd]

theorem stripStart_eq_some {start s rest : Text} (h : stripStart start s = some rest) :
    s = start ++ rest := by
  unfold stripStart at h
  split_ifs at h with hstart
  obtain ⟨rest', rfl⟩ := hstart
  obtain rfl := Option.some.inj h
  rw [List.drop_left]

theorem split_once_eq_some {c : Char} {s left right : Text} :
    split_once c s = some (left, right) ↔ c ∉ left ∧ s = left ++ c :: right := by
  constructor
  · intro h
    induction s generalizing left with
    | nil => cases h
    | cons d rest ih =>
      unfold split_once at h
      split_ifs at h with hd
      · obtain ⟨rfl, rfl⟩ := Prod.mk.inj (Option.some.inj h)
        exact ⟨List.not_mem_nil, by rw [hd, List.nil_append]⟩
      · obtain ⟨⟨left', right'⟩, hrest, hparts⟩ := Option.map_eq_some_iff.mp h
        obtain ⟨rfl, rfl⟩ := Prod.mk.inj hparts
        obtain ⟨hnot, rfl⟩ := ih hrest
        exact ⟨by simp [Ne.symm hd, hnot], rfl⟩
  · rintro ⟨hnot, rfl⟩
    exact split_once_append hnot right

theorem split_once_some {c : Char} {s left right : Text} (h : split_once c s = some (left, right)) :
    left <+: s := by
  obtain ⟨_, rfl⟩ := split_once_eq_some.mp h
  exact List.prefix_append left _

/-- The last occurrence of a character cuts a text in one way. -/
theorem append_cons_inj {c : Char} {left left' right right' : Text} (hright : c ∉ right)
    (hright' : c ∉ right') (h : left ++ c :: right = left' ++ c :: right') :
    left = left' ∧ right = right' := by
  rcases List.append_eq_append_iff.mp h with ⟨d, rfl, hd⟩ | ⟨d, rfl, hd⟩
  · rcases d with _ | ⟨e, d⟩
    · simpa using hd
    · -- The character stands again in the first right part.
      have hmem : c ∈ right := by
        rw [List.cons_append, List.cons.injEq] at hd
        rw [hd.2]
        simp
      exact absurd hmem hright
  · rcases d with _ | ⟨e, d⟩
    · simpa [eq_comm] using hd
    · have hmem : c ∈ right' := by
        rw [List.cons_append, List.cons.injEq] at hd
        rw [hd.2]
        simp
      exact absurd hmem hright'

/-- A text that neither starts nor ends with a blank is its own trim. -/
theorem trim_eq_self {s : Text} (hstart : ∀ c ∈ s.head?, isWhitespace c = false)
    (hend : ∀ c ∈ s.getLast?, isWhitespace c = false) : trim s = s := by
  unfold trim
  rcases s with _ | ⟨c, rest⟩
  · simp
  · have hc : isWhitespace c = false := hstart c rfl
    rw [List.dropWhile_cons_of_neg (by simp [hc]), List.rdropWhile_eq_self_iff]
    intro hne
    simp [hend _ (List.getLast?_eq_some_getLast hne)]

/-- A trimmed text has no blanks left to trim. -/
@[simp]
theorem trim_trim (s : Text) : trim (trim s) = trim s := by
  apply trim_eq_self
  · intro c hc
    have hhead : (trim s).head? = (s.dropWhile isWhitespace).head? := by
      have hprefix : trim s <+: s.dropWhile isWhitespace := List.rdropWhile_prefix _ _
      obtain ⟨rest, hrest⟩ := hprefix
      cases htrim : trim s with
      | nil =>
        rw [htrim] at hc
        cases hc
      | cons first more =>
        rw [← hrest, htrim]
        rfl
    rw [hhead] at hc
    have hnot := List.head?_dropWhile_not isWhitespace s
    rw [Option.mem_def.mp hc] at hnot
    simpa using hnot
  · intro c hc
    have hne : trim s ≠ [] := by
      intro hnil
      rw [hnil] at hc
      cases hc
    have hlast := List.rdropWhile_last_not isWhitespace (s.dropWhile isWhitespace) hne
    rw [Option.mem_def, List.getLast?_eq_some_getLast hne, Option.some.injEq] at hc
    rw [← hc]
    exact Bool.eq_false_iff.mpr hlast

theorem mem_of_mem_trim {s : Text} {c : Char} (h : c ∈ trim s) : c ∈ s := by
  unfold trim at h
  exact (List.dropWhile_sublist _).subset ((List.rdropWhile_prefix _ _).subset h)

/-- Trimming takes nothing away but blanks. -/
theorem mem_trim {s : Text} {c : Char} (hc : isWhitespace c = false) : c ∈ trim s ↔ c ∈ s := by
  refine ⟨mem_of_mem_trim, fun h => ?_⟩
  rw [← List.takeWhile_append_dropWhile (p := isWhitespace) (l := s), List.mem_append] at h
  have hdrop := h.resolve_left fun hin => by simp [List.mem_takeWhile_imp hin] at hc
  rw [← List.rdropWhile_append_rtakeWhile (p := isWhitespace) (l := s.dropWhile isWhitespace),
    List.mem_append] at hdrop
  exact hdrop.resolve_right fun hin => by simp [List.mem_rtakeWhile_imp hin] at hc

/-! ## Numbers -/

theorem isDigit_of_mem_decimal {n : Nat} {c : Char} (h : c ∈ decimal n) : c.isDigit :=
  Nat.isDigit_of_mem_toDigits (by decide) (by decide) h

theorem decimal_ne_nil (n : Nat) : decimal n ≠ [] := Nat.toDigits_ne_nil

theorem decimal_injective : Function.Injective decimal := by
  intro m n h
  have hval : Nat.ofDigitChars 10 (decimal m) 0 = Nat.ofDigitChars 10 (decimal n) 0 := by rw [h]
  simpa [decimal] using hval

/-- A character that is no digit stands in no number. -/
theorem notMem_decimal {c : Char} (hc : c.isDigit = false) (n : Nat) : c ∉ decimal n := by
  intro h
  simp [isDigit_of_mem_decimal h] at hc

theorem isWhitespace_of_isDigit {c : Char} (h : c.isDigit) : isWhitespace c = false := by
  have hlo : 48 ≤ c.toNat := by
    simp only [Char.isDigit, Bool.and_eq_true, decide_eq_true_eq] at h
    exact h.1
  have hhi : c.toNat ≤ 57 := by
    simp only [Char.isDigit, Bool.and_eq_true, decide_eq_true_eq] at h
    exact h.2
  unfold isWhitespace
  simp
  omega

@[simp]
theorem trim_decimal (n : Nat) : trim (decimal n) = decimal n := by
  apply trim_eq_self
  · intro c hc
    exact isWhitespace_of_isDigit (isDigit_of_mem_decimal (List.mem_of_mem_head? hc))
  · intro c hc
    exact isWhitespace_of_isDigit (isDigit_of_mem_decimal (List.mem_of_getLast? hc))

/-- A number reads back from its digits. -/
theorem parse_u64_decimal {n : Nat} (h : n < 2 ^ 64) : parse_u64 (decimal n) = some n := by
  have hplus : stripStart ['+'] (decimal n) = none := by
    unfold stripStart
    rw [if_neg]
    intro hpre
    have hmem : '+' ∈ decimal n := hpre.subset List.mem_cons_self
    exact notMem_decimal rfl n hmem
  have hval : Nat.ofDigitChars 10 (decimal n) 0 = n := by simp [decimal]
  have hdigits : (decimal n).all Char.isDigit :=
    List.all_eq_true.mpr fun c hc => isDigit_of_mem_decimal hc
  unfold parse_u64
  rw [hplus]
  simp only [Option.getD_none, hval]
  exact if_pos ⟨decimal_ne_nil n, hdigits, h⟩

theorem parse_u64_lt {s : Text} {n : Nat} (h : parse_u64 s = some n) : n < 2 ^ 64 := by
  unfold parse_u64 at h
  simp only at h
  split at h
  · rename_i hok
    obtain rfl := Option.some.inj h
    exact hok.2.2
  · cases h

/-! ## Letters -/

theorem isUpper_of_mem_lowercase {s : Text} {c : Char} (h : c ∈ to_ascii_lowercase s) :
    c.isUpper = false := by
  obtain ⟨d, -, rfl⟩ := List.mem_map.mp h
  exact Char.isUpper_toLower_eq_false d

theorem isUpper_iff {c : Char} : c.isUpper ↔ 65 ≤ c.toNat ∧ c.toNat ≤ 90 := by
  simp [Char.isUpper, UInt32.le_iff_toNat_le, ← Char.toNat_val]

/-- A capital letter is 32 below its small one. -/
theorem toNat_toLower_of_isUpper {c : Char} (h : c.isUpper) : c.toLower.toNat = c.toNat + 32 := by
  have hrange := isUpper_iff.mp h
  rw [Char.toLower_eq_of_isUpper h, Char.toNat_ofNat, if_pos (by unfold Nat.isValidChar; omega)]

theorem toLower_lt_iff (c : Char) : c.toLower.toNat < 128 ↔ c.toNat < 128 := by
  by_cases hupper : c.isUpper
  · have hrange := isUpper_iff.mp hupper
    rw [toNat_toLower_of_isUpper hupper]
    omega
  · rw [Char.toLower_eq_of_not_isUpper hupper]

theorem to_ascii_lowercase_idem (s : Text) :
    to_ascii_lowercase (to_ascii_lowercase s) = to_ascii_lowercase s := by
  simp [to_ascii_lowercase]

theorem isWhitespace_toLower (c : Char) : isWhitespace c.toLower = isWhitespace c := by
  by_cases hupper : c.isUpper
  · have hrange := isUpper_iff.mp hupper
    have hsmall := toNat_toLower_of_isUpper hupper
    have hletter : ∀ d : Char, 65 ≤ d.toNat → d.toNat ≤ 122 → isWhitespace d = false := by
      intro d hlow hhigh
      simp only [isWhitespace, List.mem_cons, List.not_mem_nil, or_false, decide_eq_false_iff_not]
      omega
    rw [hletter c (by omega) (by omega), hletter c.toLower (by omega) (by omega)]
  · rw [Char.toLower_eq_of_not_isUpper hupper]

/-- A character that is no letter is where it was before the letters became small. -/
theorem toLower_eq_iff {c d : Char} (hd : d.isAlpha = false) : c.toLower = d ↔ c = d := by
  by_cases hupper : c.isUpper
  · constructor
    · rintro rfl
      rw [Char.isAlpha_toLower_eq_isAlpha, Char.isAlpha, hupper] at hd
      cases hd
    · rintro rfl
      rw [Char.isAlpha, hupper] at hd
      cases hd
  · rw [Char.toLower_eq_of_not_isUpper hupper]

/-- White space is the same in lower case. -/
theorem trim_to_ascii_lowercase (s : Text) :
    trim (to_ascii_lowercase s) = to_ascii_lowercase (trim s) := by
  have hsame : isWhitespace ∘ Char.toLower = isWhitespace := funext isWhitespace_toLower
  unfold trim to_ascii_lowercase List.rdropWhile
  rw [List.dropWhile_map, hsame, ← List.map_reverse, List.dropWhile_map, hsame, List.map_reverse]

theorem split_once_lowercase {c : Char} (hc : c.isAlpha = false) (s : Text) :
    split_once c (to_ascii_lowercase s) =
      (split_once c s).map fun parts => (to_ascii_lowercase parts.1, to_ascii_lowercase parts.2) := by
  induction s with
  | nil => rfl
  | cons d rest ih =>
    unfold to_ascii_lowercase at ih ⊢
    rw [List.map_cons, split_once, split_once]
    by_cases hd : d = c
    · rw [if_pos ((toLower_eq_iff hc).mpr hd), if_pos hd]
      rfl
    · rw [if_neg (fun hlow => hd ((toLower_eq_iff hc).mp hlow)), if_neg hd, ih, Option.map_map,
        Option.map_map]
      rfl

theorem stripStart_lowercase {c : Char} (hc : c.isAlpha = false) (s : Text) :
    stripStart [c] (to_ascii_lowercase s) = (stripStart [c] s).map to_ascii_lowercase := by
  cases s with
  | nil => rfl
  | cons d rest =>
    unfold stripStart to_ascii_lowercase
    by_cases hd : d = c
    · simp [hd, (toLower_eq_iff hc).mpr rfl]
    · have hlow : c ≠ d.toLower := fun hlow => hd ((toLower_eq_iff hc).mp hlow.symm)
      simp [Ne.symm hd, hlow]

theorem split_lowercase {c : Char} (hc : c.isAlpha = false) (s : Text) :
    split c (to_ascii_lowercase s) = (split c s).map to_ascii_lowercase := by
  unfold split
  induction s with
  | nil => simp [to_ascii_lowercase]
  | cons d rest ih =>
    unfold to_ascii_lowercase at ih ⊢
    rw [List.map_cons, List.splitOn_cons_eq_if_modifyHead, List.splitOn_cons_eq_if_modifyHead, ih]
    by_cases hd : d = c
    · simp [hd, (toLower_eq_iff hc).mpr rfl]
    · have hlow : d.toLower ≠ c := fun hlow => hd ((toLower_eq_iff hc).mp hlow)
      cases rest.splitOn c <;> simp [hd, hlow]

/-! ## UTF-8 -/

/-- `str::as_bytes`. -/
def as_bytes (s : Text) : List UInt8 := s.flatMap String.utf8EncodeChar

/-- A character of ASCII is one byte. -/
theorem as_bytes_of_ascii {s : Text} (h : ∀ c ∈ s, c.toNat < 128) :
    as_bytes s = s.map fun c => c.toNat.toUInt8 := by
  unfold as_bytes
  induction s with
  | nil => rfl
  | cons c rest ih =>
    have hc : c.toNat ≤ 127 := Nat.le_of_lt_succ (h c List.mem_cons_self)
    rw [List.flatMap_cons, List.map_cons, ih fun d hd => h d (List.mem_cons_of_mem _ hd)]
    simp [String.utf8EncodeChar, hc]

theorem ascii_of_bytes {s : Text} (h : ∀ c ∈ s, c.toNat < 128) :
    (as_bytes s).map (fun b => Char.ofNat b.toNat) = s := by
  rw [as_bytes_of_ascii h, List.map_map]
  calc s.map ((fun b => Char.ofNat b.toNat) ∘ fun c => c.toNat.toUInt8)
      = s.map id := by
        apply List.map_congr_left
        intro c hc
        have hbyte : c.toNat.toUInt8.toNat = c.toNat := by
          have := h c hc
          simp
          omega
        simp only [Function.comp_apply, id_eq]
        rw [hbyte, Char.ofNat_toNat]
    _ = s := List.map_id s

/-- `str::from_utf8`. -/
def from_utf8 (bytes : List UInt8) : Option Text :=
  (ByteArray.mk bytes.toArray).utf8Decode?.map Array.toList

theorem utf8Encode_eq (s : Text) : s.utf8Encode = ByteArray.mk (as_bytes s).toArray := by
  apply ByteArray.ext
  rw [List.utf8Encode, List.data_toByteArray, as_bytes]

@[simp]
theorem from_utf8_as_bytes (s : Text) : from_utf8 (as_bytes s) = some s := by
  rw [from_utf8, ← utf8Encode_eq, List.utf8Decode?_utf8Encode]
  simp

theorem from_utf8_eq_some {bytes : List UInt8} {s : Text} (h : from_utf8 bytes = some s) :
    bytes = as_bytes s := by
  unfold from_utf8 at h
  rw [Option.map_eq_some_iff] at h
  obtain ⟨chars, hchars, rfl⟩ := h
  have hsome : (ByteArray.mk bytes.toArray).utf8Decode?.isSome := by simp [hchars]
  have hback := ByteArray.utf8Encode_get_utf8Decode? (h := hsome)
  simp only [hchars, Option.get_some, utf8Encode_eq] at hback
  have hdata := congrArg ByteArray.data hback
  simpa using hdata.symm

/-- A text is read one character after the other. -/
theorem from_utf8_cons (c : Char) (bytes : List UInt8) :
    from_utf8 (String.utf8EncodeChar c ++ bytes) = (from_utf8 bytes).map (c :: ·) := by
  have hfirst : ByteArray.mk (String.utf8EncodeChar c ++ bytes).toArray =
      [c].utf8Encode ++ ByteArray.mk bytes.toArray := by
    apply ByteArray.ext
    rw [utf8Encode_eq]
    simp [as_bytes]
  unfold from_utf8
  rw [hfirst, ByteArray.utf8Decode?_utf8Encode_singleton_append]
  cases (ByteArray.mk bytes.toArray).utf8Decode? <;> simp

/-- A byte of ASCII at the end is the last character. -/
theorem as_bytes_append_ascii {s : Text} {bytes : List UInt8} {b : UInt8}
    (h : as_bytes s = bytes ++ [b]) (hb : b.toNat < 128) :
    ∃ t, s = t ++ [Char.ofNat b.toNat] ∧ as_bytes t = bytes := by
  cases s using List.reverseRecOn with
  | nil => simp [as_bytes] at h
  | append_singleton t c =>
    have hsplit : as_bytes (t ++ [c]) = as_bytes t ++ String.utf8EncodeChar c := by
      simp [as_bytes]
    rw [hsplit] at h
    have hlength : 0 < (String.utf8EncodeChar c).length := by
      rw [String.length_utf8EncodeChar]
      exact c.utf8Size_pos
    have hlast : (String.utf8EncodeChar c).getLast? = some b := by
      have hwhole := congrArg List.getLast? h
      rw [List.getLast?_append_of_ne_nil _ (List.length_pos_iff.mp hlength),
        List.getLast?_concat] at hwhole
      exact hwhole
    rw [List.getLast?_eq_getElem?, List.getElem?_eq_some_iff] at hlast
    obtain ⟨hin, hbyte⟩ := hlast
    -- Of the bytes of a character only the first can be one of ASCII.
    have hfirst : b.IsUTF8FirstByte := by
      left
      rw [← UInt8.toNat_inj, UInt8.toNat_and]
      have hbit : b.toNat &&& 2 ^ 7 = 0 := by
        rw [Nat.and_two_pow, Nat.testBit_lt_two_pow hb]
        rfl
      exact hbit
    rw [← hbyte, UInt8.isUTF8FirstByte_getElem_utf8EncodeChar] at hfirst
    have hsize : c.utf8Size = 1 := by
      rw [String.length_utf8EncodeChar] at hfirst hlength
      omega
    have hone := String.utf8EncodeChar_eq_singleton hsize
    rw [hone] at h
    have hc : c.toNat = b.toNat := by
      have hsmall : c.toNat < 128 := by
        unfold Char.utf8Size at hsize
        dsimp only at hsize
        split at hsize
        · rename_i hle
          exact Nat.lt_succ_of_le (UInt32.le_iff_toNat_le.mp hle)
        · split at hsize
          · omega
          · split at hsize <;> omega
      have hsame : c.val.toUInt8 = b := (List.cons.inj (List.append_inj' h rfl).2).1
      rw [← hsame, UInt32.toNat_toUInt8]
      exact (Nat.mod_eq_of_lt (by omega)).symm
    refine ⟨t, ?_, ?_⟩
    · rw [← hc, Char.ofNat_toNat]
    · exact (List.append_inj' h rfl).1

end rust_text
