-- Base64 with the standard alphabet and canonical padding: the text of some
-- bytes, and the bytes of a text, four characters at a time. A text that pads
-- in the middle reads as the texts that it is made of.
import Mathlib

namespace base64

abbrev Bytes := List UInt8

/-! ## Characters -/

/-- The character of six bits. -/
def symbol (n : Nat) : UInt8 :=
  if n < 26 then UInt8.ofNat (65 + n)
  else if n < 52 then UInt8.ofNat (71 + n)
  else if n < 62 then UInt8.ofNat (n - 4)
  else if n = 62 then 43 else 47

/-- The six bits of a character. -/
def sextet (c : UInt8) : Option Nat :=
  let n := c.toNat
  if 65 ≤ n ∧ n ≤ 90 then some (n - 65)
  else if 97 ≤ n ∧ n ≤ 122 then some (n - 71)
  else if 48 ≤ n ∧ n ≤ 57 then some (n + 4)
  else if n = 43 then some 62
  else if n = 47 then some 63
  else none

def padding : UInt8 := 61

theorem sextet_symbol {n : Nat} (h : n < 64) : sextet (symbol n) = some n := by
  have hall : ∀ n : Fin 64, sextet (symbol n) = some n.val := by decide
  exact hall ⟨n, h⟩

theorem symbol_ne_padding {n : Nat} (h : n < 64) : symbol n ≠ padding := by
  have hall : ∀ n : Fin 64, symbol n ≠ padding := by decide
  exact hall ⟨n, h⟩

/-- No character is a space of ASCII. -/
theorem symbol_lower_bound {n : Nat} (h : n < 64) : 43 ≤ (symbol n).toNat := by
  have hall : ∀ n : Fin 64, 43 ≤ (symbol n).toNat := by decide
  exact hall ⟨n, h⟩

/-! ## Encoding -/

def encode_three (a b c : UInt8) : Bytes :=
  [symbol (a.toNat / 4), symbol (a.toNat % 4 * 16 + b.toNat / 16),
    symbol (b.toNat % 16 * 4 + c.toNat / 64), symbol (c.toNat % 64)]

def encode_two (a b : UInt8) : Bytes :=
  [symbol (a.toNat / 4), symbol (a.toNat % 4 * 16 + b.toNat / 16), symbol (b.toNat % 16 * 4)]

def encode_one (a : UInt8) : Bytes := [symbol (a.toNat / 4), symbol (a.toNat % 4 * 16)]

/-- The text without padding. -/
def encode_no_pad : Bytes → Bytes
  | a :: b :: c :: rest => encode_three a b c ++ encode_no_pad rest
  | [a, b] => encode_two a b
  | [a] => encode_one a
  | [] => []

def encode : Bytes → Bytes
  | a :: b :: c :: rest => encode_three a b c ++ encode rest
  | [a, b] => encode_two a b ++ [padding]
  | [a] => encode_one a ++ [padding, padding]
  | [] => []

/-! ## Decoding -/

/-- The bytes of four characters. The bits that a padded text has to spare must be zero. -/
def decode_quantum (p q r s : UInt8) : Option Bytes :=
  match sextet p, sextet q, sextet r, sextet s with
  | some i, some j, some k, some l =>
    some [UInt8.ofNat (i * 4 + j / 16), UInt8.ofNat (j % 16 * 16 + k / 4),
      UInt8.ofNat (k % 4 * 64 + l)]
  | some i, some j, some k, none =>
    if s = padding ∧ k % 4 = 0 then
      some [UInt8.ofNat (i * 4 + j / 16), UInt8.ofNat (j % 16 * 16 + k / 4)]
    else none
  | some i, some j, none, none =>
    if r = padding ∧ s = padding ∧ j % 16 = 0 then some [UInt8.ofNat (i * 4 + j / 16)] else none
  | _, _, _, _ => none

/-- The bytes of a text of whole quanta. -/
def decode_quanta : Bytes → Option Bytes
  | [] => some []
  | p :: q :: r :: s :: rest => do
    let bytes ← decode_quantum p q r s
    let more ← decode_quanta rest
    return bytes ++ more
  | _ => none

theorem sextet_padding : sextet padding = none := by decide

/-- Why four characters are no quantum: the character, and its place among them. -/
inductive DecodeError
  | InvalidByte (offset : Nat) (byte : UInt8)
  | InvalidLastSymbol (offset : Nat) (byte : UInt8)

namespace DecodeError

def offset : DecodeError → Nat
  | .InvalidByte offset _ => offset
  | .InvalidLastSymbol offset _ => offset

def byte : DecodeError → UInt8
  | .InvalidByte _ byte => byte
  | .InvalidLastSymbol _ byte => byte

/-- As `base64` 0.22 writes it. -/
def message : DecodeError → String
  | .InvalidByte offset byte => s!"Invalid symbol {byte}, offset {offset}."
  | .InvalidLastSymbol offset byte => s!"Invalid last symbol {byte}, offset {offset}."

end DecodeError

/-- What is wrong with four characters that do not decode. -/
def quantum_error (p q r s : UInt8) : DecodeError :=
  if sextet p = none then .InvalidByte 0 p
  else if sextet q = none then .InvalidByte 1 q
  else if r = padding then
    -- What follows the first padding is not looked at.
    if s = padding then .InvalidLastSymbol 1 q else .InvalidByte 2 r
  else if sextet r = none then .InvalidByte 2 r
  else if s = padding then .InvalidLastSymbol 2 r
  else .InvalidByte 3 s

/-- One quantum after the other, up to the first that does not decode. What is left at the end is
not looked at. -/
def decode_chunks_exact : Bytes → Except DecodeError Bytes
  | p :: q :: r :: s :: rest =>
    match decode_quantum p q r s with
    | none => .error (quantum_error p q r s)
    | some bytes =>
      match decode_chunks_exact rest with
      | .error error => .error error
      | .ok more => .ok (bytes ++ more)
  | _ => .ok []

/-- An error names a character of the text, at its place. -/
theorem quantum_error_at (p q r s : UInt8) :
    [p, q, r, s][(quantum_error p q r s).offset]? = some (quantum_error p q r s).byte := by
  unfold quantum_error
  split_ifs <;> rfl

/-- The character is no symbol here, or the last one and with bits to spare. -/
theorem quantum_error_reason {p q r s : UInt8} (h : decode_quantum p q r s = none) :
    match quantum_error p q r s with
    | .InvalidByte _ byte => sextet byte = none
    | .InvalidLastSymbol offset byte => ∃ n, sextet byte = some n ∧ n % 4 ^ (3 - offset) ≠ 0 := by
  unfold quantum_error
  unfold decode_quantum at h
  cases hp : sextet p with
  | none => exact hp
  | some i =>
    cases hq : sextet q with
    | none => exact hq
    | some j =>
      rw [if_neg (by simp), if_neg (by simp)]
      rw [hp, hq] at h
      by_cases hr : r = padding
      · subst hr
        rw [if_pos rfl]
        by_cases hs : s = padding
        · subst hs
          rw [if_pos rfl]
          have hspare : j % 16 ≠ 0 := by simpa [sextet_padding] using h
          exact ⟨j, hq, hspare⟩
        · rw [if_neg hs]
          exact sextet_padding
      · rw [if_neg hr]
        cases hr' : sextet r with
        | none => exact hr'
        | some k =>
          rw [if_neg (by simp)]
          rw [hr'] at h
          by_cases hs : s = padding
          · subst hs
            rw [if_pos rfl]
            have hspare : k % 4 ≠ 0 := by simpa [sextet_padding] using h
            exact ⟨k, hr', hspare⟩
          · rw [if_neg hs]
            cases hs' : sextet s with
            | none => exact hs'
            | some l => simp [hs'] at h

theorem not_whole {text : Bytes} (hnil : text = [] → False)
    (hcons : ∀ p q r s rest, text = p :: q :: r :: s :: rest → False) : ¬ 4 ∣ text.length := by
  intro h
  match text, hnil, hcons, h with
  | [], hnil, _, _ => exact hnil rfl
  | [_], _, _, h => simp at h
  | [_, _], _, _, h => simp at h
  | [_, _, _], _, _, h => simp at h
  | p :: q :: r :: s :: rest, _, hcons, _ => exact hcons p q r s rest rfl

/-- On whole quanta it decodes what is decoded. -/
theorem decode_chunks_exact_of_whole {text : Bytes} (h : 4 ∣ text.length) :
    match decode_quanta text with
    | none => ∃ error, decode_chunks_exact text = .error error
    | some bytes => decode_chunks_exact text = .ok bytes := by
  induction text using decode_quanta.induct with
  | case1 => rfl
  | case2 p q r s rest ih =>
    have hrest : 4 ∣ rest.length := by
      simp only [List.length_cons] at h
      omega
    have hmore := ih hrest
    unfold decode_quanta decode_chunks_exact
    cases decode_quantum p q r s with
    | none => exact ⟨_, rfl⟩
    | some bytes =>
      cases hquanta : decode_quanta rest with
      | none =>
        rw [hquanta] at hmore
        obtain ⟨error, herror⟩ := hmore
        dsimp only [Option.bind_eq_bind, Option.bind]
        rw [herror]
        exact ⟨error, rfl⟩
      | some more =>
        rw [hquanta] at hmore
        dsimp only at hmore
        dsimp only [Option.bind_eq_bind, Option.bind]
        rw [hmore]
        rfl
  | case3 text hnil hcons => exact (not_whole hnil hcons h).elim

theorem decode_quantum_three (a b c : UInt8) :
    decode_quantum (symbol (a.toNat / 4)) (symbol (a.toNat % 4 * 16 + b.toNat / 16))
      (symbol (b.toNat % 16 * 4 + c.toNat / 64)) (symbol (c.toNat % 64)) = some [a, b, c] := by
  have ha := a.toNat_lt
  have hb := b.toNat_lt
  have hc := c.toNat_lt
  unfold decode_quantum
  rw [sextet_symbol (by omega), sextet_symbol (by omega), sextet_symbol (by omega),
    sextet_symbol (by omega)]
  simp only [Option.some.injEq, List.cons.injEq, and_true]
  refine ⟨?_, ?_, ?_⟩
  · apply UInt8.toNat_inj.mp
    rw [UInt8.toNat_ofNat']
    omega
  · apply UInt8.toNat_inj.mp
    rw [UInt8.toNat_ofNat']
    omega
  · apply UInt8.toNat_inj.mp
    rw [UInt8.toNat_ofNat']
    omega

theorem decode_quantum_two (a b : UInt8) :
    decode_quantum (symbol (a.toNat / 4)) (symbol (a.toNat % 4 * 16 + b.toNat / 16))
      (symbol (b.toNat % 16 * 4)) padding = some [a, b] := by
  have ha := a.toNat_lt
  have hb := b.toNat_lt
  unfold decode_quantum
  rw [sextet_symbol (by omega), sextet_symbol (by omega), sextet_symbol (by omega), sextet_padding]
  dsimp only
  rw [if_pos ⟨rfl, by omega⟩]
  simp only [Option.some.injEq, List.cons.injEq, and_true]
  refine ⟨?_, ?_⟩
  · apply UInt8.toNat_inj.mp
    rw [UInt8.toNat_ofNat']
    omega
  · apply UInt8.toNat_inj.mp
    rw [UInt8.toNat_ofNat']
    omega

theorem decode_quantum_one (a : UInt8) :
    decode_quantum (symbol (a.toNat / 4)) (symbol (a.toNat % 4 * 16)) padding padding =
      some [a] := by
  have ha := a.toNat_lt
  unfold decode_quantum
  rw [sextet_symbol (by omega), sextet_symbol (by omega), sextet_padding]
  dsimp only
  rw [if_pos ⟨rfl, rfl, by omega⟩]
  simp only [Option.some.injEq, List.cons.injEq, and_true]
  apply UInt8.toNat_inj.mp
  rw [UInt8.toNat_ofNat']
  omega

/-- What was encoded decodes to itself. -/
theorem decode_encode (bytes : Bytes) : decode_quanta (encode bytes) = some bytes := by
  induction bytes using encode.induct with
  | case1 a b c rest ih =>
    simp [encode, encode_three, decode_quanta, decode_quantum_three, ih]
  | case2 a b => simp [encode, encode_two, decode_quanta, decode_quantum_two]
  | case3 a => simp [encode, encode_one, decode_quanta, decode_quantum_one]
  | case4 => rfl

/-! ## Parts of a text -/

theorem encode_append {bytes : Bytes} (h : 3 ∣ bytes.length) (more : Bytes) :
    encode (bytes ++ more) = encode_no_pad bytes ++ encode more := by
  induction bytes using encode_no_pad.induct with
  | case1 a b c rest ih =>
    have hrest : 3 ∣ rest.length := by
      simp only [List.length_cons] at h
      omega
    simp [encode, encode_no_pad, ih hrest]
  | case2 a b => simp at h
  | case3 a => simp at h
  | case4 => rfl

/-- Padding stands at the end, and nowhere else. -/
theorem encode_eq_append (bytes : Bytes) :
    encode bytes = encode_no_pad bytes ++ List.replicate ((3 - bytes.length % 3) % 3) padding := by
  induction bytes using encode.induct with
  | case1 a b c rest ih =>
    have hlength : (a :: b :: c :: rest).length % 3 = rest.length % 3 := by
      simp only [List.length_cons]
      omega
    rw [hlength, encode, encode_no_pad, ih, List.append_assoc]
  | case2 a b => rfl
  | case3 a => rfl
  | case4 => rfl

theorem padding_notMem_encode_no_pad (bytes : Bytes) : padding ∉ encode_no_pad bytes := by
  induction bytes using encode_no_pad.induct with
  | case1 x y z rest ih =>
    have hx := x.toNat_lt
    have hy := y.toNat_lt
    have hz := z.toNat_lt
    intro h
    simp only [encode_no_pad, encode_three, List.cons_append, List.nil_append, List.mem_cons] at h
    rcases h with h | h | h | h | h
    · exact symbol_ne_padding (by omega) h.symm
    · exact symbol_ne_padding (by omega) h.symm
    · exact symbol_ne_padding (by omega) h.symm
    · exact symbol_ne_padding (by omega) h.symm
    · exact ih h
  | case2 x y =>
    have hx := x.toNat_lt
    have hy := y.toNat_lt
    intro h
    simp only [encode_no_pad, encode_two, List.mem_cons, List.not_mem_nil, or_false] at h
    rcases h with h | h | h
    · exact symbol_ne_padding (by omega) h.symm
    · exact symbol_ne_padding (by omega) h.symm
    · exact symbol_ne_padding (by omega) h.symm
  | case3 x =>
    have hx := x.toNat_lt
    intro h
    simp only [encode_no_pad, encode_one, List.mem_cons, List.not_mem_nil, or_false] at h
    rcases h with h | h
    · exact symbol_ne_padding (by omega) h.symm
    · exact symbol_ne_padding (by omega) h.symm
  | case4 => simp [encode_no_pad]

/-- A text of whole quanta and a further text decode one after the other. -/
theorem decode_quanta_append {text : Bytes} (h : 4 ∣ text.length) (more : Bytes) :
    decode_quanta (text ++ more) =
      (decode_quanta text).bind fun bytes => (decode_quanta more).map (bytes ++ ·) := by
  induction text using decode_quanta.induct with
  | case1 => simp [decode_quanta]
  | case2 p q r s rest ih =>
    have hrest : 4 ∣ rest.length := by
      simp only [List.length_cons] at h
      omega
    simp only [List.cons_append, decode_quanta, ih hrest]
    cases decode_quantum p q r s with
    | none => rfl
    | some bytes =>
      cases decode_quanta rest with
      | none => rfl
      | some middle => cases decode_quanta more <;> simp
  | case3 text hnil hcons => exact (not_whole hnil hcons h).elim

theorem length_of_decode_quanta {text bytes : Bytes} (h : decode_quanta text = some bytes) :
    4 ∣ text.length := by
  induction text using decode_quanta.induct generalizing bytes with
  | case1 => simp
  | case2 p q r s rest ih =>
    simp only [decode_quanta, Option.bind_eq_bind, Option.bind_eq_some_iff] at h
    obtain ⟨_, _, more, hmore, _⟩ := h
    have hrest := ih hmore
    simp only [List.length_cons]
    omega
  | case3 text hnil hcons => simp [decode_quanta] at h

theorem decode_quantum_length {p q r s : UInt8} {bytes : Bytes}
    (h : decode_quantum p q r s = some bytes) : bytes.length ≤ 3 := by
  unfold decode_quantum at h
  split at h
  · simp at h
    simp [← h]
  · split at h
    · simp at h
      simp [← h]
    · cases h
  · split at h
    · simp at h
      simp [← h]
    · cases h
  · cases h

/-- Bytes are never more than their text. -/
theorem decode_quanta_length {text bytes : Bytes} (h : decode_quanta text = some bytes) :
    bytes.length ≤ text.length := by
  induction text using decode_quanta.induct generalizing bytes with
  | case1 =>
    obtain rfl := Option.some.inj h
    exact Nat.le_refl _
  | case2 p q r s rest ih =>
    simp only [decode_quanta, Option.bind_eq_bind, Option.bind_eq_some_iff] at h
    obtain ⟨first, hfirst, more, hmore, hbytes⟩ := h
    rw [Option.pure_def, Option.some.injEq] at hbytes
    have hthree := decode_quantum_length hfirst
    have hrest := ih hmore
    simp only [← hbytes, List.length_append, List.length_cons]
    omega
  | case3 text hnil hcons => simp [decode_quanta] at h

/-- The characters of a text, padding included, are no spaces. -/
theorem encode_lower_bound {bytes : Bytes} {c : UInt8} (h : c ∈ encode bytes) : 43 ≤ c.toNat := by
  induction bytes using encode.induct with
  | case1 x y z rest ih =>
    have hx := x.toNat_lt
    have hy := y.toNat_lt
    have hz := z.toNat_lt
    simp only [encode, encode_three, List.cons_append, List.nil_append, List.mem_cons] at h
    rcases h with rfl | rfl | rfl | rfl | h
    · exact symbol_lower_bound (by omega)
    · exact symbol_lower_bound (by omega)
    · exact symbol_lower_bound (by omega)
    · exact symbol_lower_bound (by omega)
    · exact ih h
  | case2 x y =>
    have hx := x.toNat_lt
    have hy := y.toNat_lt
    simp only [encode, encode_two, List.cons_append, List.nil_append, List.mem_cons,
      List.not_mem_nil, or_false] at h
    rcases h with rfl | rfl | rfl | rfl
    · exact symbol_lower_bound (by omega)
    · exact symbol_lower_bound (by omega)
    · exact symbol_lower_bound (by omega)
    · decide
  | case3 x =>
    have hx := x.toNat_lt
    simp only [encode, encode_one, List.cons_append, List.nil_append, List.mem_cons,
      List.not_mem_nil, or_false] at h
    rcases h with rfl | rfl | rfl | rfl
    · exact symbol_lower_bound (by omega)
    · exact symbol_lower_bound (by omega)
    · decide
    · decide
  | case4 => simp [encode] at h

example : encode [102, 111, 111, 98] = [90, 109, 57, 118, 89, 103, 61, 61] := by decide

end base64
