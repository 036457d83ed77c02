-- The block of trailers, written and read again, from `proxy/grpc_web/codec.rs`. The writer
-- copies the bytes of a value as they are; the reader takes UTF-8 alone and trims
-- the spaces of Unicode.
import Rginx.GrpcWebCodec

open rust_text rginx.cache

namespace rginx.grpc_web

/-! ## Names -/

theorem HeaderName_from_as_bytes (name : HeaderName) :
    HeaderName_from_bytes (HeaderName_as_bytes name) = some name := by
  unfold HeaderName_from_bytes HeaderName_as_bytes
  rw [ascii_of_bytes (ascii_of_name name), String.ofList_toList, HeaderName.parse_as_str]

/-- The bytes of a name are visible too. -/
theorem token_of_name_byte {name : HeaderName} {b : UInt8} (h : b ∈ HeaderName_as_bytes name) :
    33 ≤ b.toNat ∧ b.toNat < 127 ∧ b.toNat ≠ 58 := by
  unfold HeaderName_as_bytes at h
  rw [as_bytes_of_ascii (ascii_of_name name)] at h
  obtain ⟨c, hc, rfl⟩ := List.mem_map.mp h
  have htoken := token_of_name hc
  have hbyte : c.toNat.toUInt8.toNat = c.toNat := by
    simp
    omega
  rw [hbyte]
  exact htoken

/-! ## Lines -/

/-- What a reader makes of a value: the same text between its spaces. -/
def trim_value (value : HeaderValue) : Option HeaderValue :=
  (from_utf8 value.as_bytes).bind fun text => HeaderValue.from_str (trim text)

def trim_row (row : HeaderName × HeaderValue) : Option (HeaderName × HeaderValue) :=
  (trim_value row.2).map fun value => (row.1, value)

/-- A text that is trimmed stays a value. -/
theorem from_str_trim {value : HeaderValue} {text : Text}
    (h : from_utf8 value.as_bytes = some text) :
    ∃ trimmed, HeaderValue.from_str (trim text) = some trimmed ∧
      trimmed.as_bytes = as_bytes (trim text) := by
  have hvalid : ∀ b ∈ as_bytes (trim text), (32 ≤ b ∧ b ≠ 127) ∨ b = 9 := by
    intro b hb
    obtain ⟨c, hc, hbc⟩ := List.mem_flatMap.mp hb
    apply value.valid
    rw [from_utf8_eq_some h]
    exact List.mem_flatMap.mpr ⟨c, mem_of_mem_trim hc, hbc⟩
  refine ⟨⟨as_bytes (trim text), hvalid⟩, ?_, rfl⟩
  unfold HeaderValue.from_str
  exact dif_pos hvalid

/-- The line of a row reads as the row with its value trimmed. -/
theorem decode_trailer_line_of_row (name : HeaderName) (value : HeaderValue) :
    decode_trailer_line (HeaderName_as_bytes name ++ 58 :: 32 :: value.as_bytes) =
      match trim_value value with
      | some value => .ok (name, value)
      | none => .error (invalid_grpc_web_body "grpc-web trailer value should be valid utf-8") := by
  have hspan : (HeaderName_as_bytes name ++ 58 :: 32 :: value.as_bytes).span (· ≠ 58) =
      (HeaderName_as_bytes name, 58 :: 32 :: value.as_bytes) := by
    rw [List.span_eq_takeWhile_dropWhile]
    have hname : ∀ b ∈ HeaderName_as_bytes name, (decide (b ≠ 58)) = true := by
      intro b hb
      have htoken := token_of_name_byte hb
      rw [decide_eq_true_iff]
      rintro rfl
      exact htoken.2.2 rfl
    rw [List.takeWhile_append_of_pos hname, List.dropWhile_append_of_pos hname]
    simp
  unfold decode_trailer_line
  rw [hspan]
  dsimp only
  rw [HeaderName_from_as_bytes]
  dsimp only
  have hspace : from_utf8 (32 :: value.as_bytes) = (from_utf8 value.as_bytes).map (' ' :: ·) :=
    from_utf8_cons ' ' value.as_bytes
  rw [hspace]
  unfold trim_value
  cases htext : from_utf8 value.as_bytes with
  | none => rfl
  | some text =>
    obtain ⟨trimmed, htrimmed, _⟩ := from_str_trim htext
    have htrim : trim (' ' :: text) = trim text := by
      unfold trim
      rw [List.dropWhile_cons_of_pos (by decide)]
    simp [htrim, htrimmed]

/-! ## Blocks -/

theorem notMem_of_name {name : HeaderName} {b : UInt8} (h : b.toNat < 33) :
    b ∉ HeaderName_as_bytes name := by
  intro hb
  have htoken := token_of_name_byte hb
  omega

/-- No line holds the end of a line. -/
theorem notMem_of_value {value : HeaderValue} {b : UInt8} (h : b.toNat < 32) (hne : b ≠ 9) :
    b ∉ value.as_bytes := by
  intro hb
  rcases value.valid b hb with ⟨hlow, _⟩ | htab
  · have hlow : 32 ≤ b.toNat := UInt8.le_iff_toNat_le.mp hlow
    omega
  · exact hne htab

theorem trailer_block_cons (row : HeaderName × HeaderValue) (rows : HeaderMap) :
    trailer_block (row :: rows) =
      (HeaderName_as_bytes row.1 ++ 58 :: 32 :: row.2.as_bytes ++ [13]) ++
        10 :: trailer_block rows := by
  simp [trailer_block, trailer_line]

/-- The lines of a block read as its rows, up to the first value that is not UTF-8. -/
theorem decode_trailer_lines_of_block (trailers rows : HeaderMap) :
    decode_trailer_lines trailers ((trailer_block rows).splitOn 10) =
      match rows.mapM trim_row with
      | some trimmed => .ok (trailers ++ trimmed)
      | none => .error (invalid_grpc_web_body "grpc-web trailer value should be valid utf-8") := by
  induction rows generalizing trailers with
  | nil => simp [trailer_block, decode_trailer_lines, without_return]
  | cons row rows ih =>
    have hend : (10 : UInt8) ∉ HeaderName_as_bytes row.1 ++ 58 :: 32 :: row.2.as_bytes ++ [13] := by
      have hname : (10 : UInt8) ∉ HeaderName_as_bytes row.1 := notMem_of_name (by decide)
      have hvalue : (10 : UInt8) ∉ row.2.as_bytes := notMem_of_value (by decide) (by decide)
      simp [hname, hvalue]
    have hline : without_return (HeaderName_as_bytes row.1 ++ 58 :: 32 :: row.2.as_bytes ++ [13]) =
        HeaderName_as_bytes row.1 ++ 58 :: 32 :: row.2.as_bytes := by
      unfold without_return
      rw [if_pos List.getLast?_concat, List.dropLast_concat]
    rw [trailer_block_cons, List.splitOn_append_cons_self_of_not_mem hend]
    unfold decode_trailer_lines
    rw [hline]
    dsimp only
    rw [if_neg (by simp), decode_trailer_line_of_row, List.mapM_cons]
    unfold trim_row
    cases trim_value row.2 with
    | none => rfl
    | some value =>
      have hrest := ih (trailers ++ [(row.1, value)])
      have hbind : ∀ next : HeaderName × HeaderValue → IoResult HeaderMap,
          ((Except.ok (row.1, value) : IoResult (HeaderName × HeaderValue)) >>= next) =
            next (row.1, value) := fun _ => rfl
      dsimp only
      rw [hbind, hrest]
      unfold trim_row
      cases rows.mapM fun row => (trim_value row.2).map fun value => (row.1, value) with
      | none => rfl
      | some trimmed => simp

/-- Two values that are the same text between its spaces. -/
def Trimmed (value trimmed : HeaderValue) : Prop :=
  ∃ text, from_utf8 value.as_bytes = some text ∧ trimmed.as_bytes = as_bytes (trim text)

theorem trim_value_eq_some {value trimmed : HeaderValue} :
    trim_value value = some trimmed ↔ Trimmed value trimmed := by
  unfold trim_value Trimmed
  rw [Option.bind_eq_some_iff]
  apply exists_congr
  intro text
  apply and_congr_right
  intro htext
  obtain ⟨back, hback, hbytes⟩ := from_str_trim htext
  rw [hback, ← hbytes]
  constructor
  · rintro h
    rw [Option.some.inj h]
  · intro h
    cases back
    cases trimmed
    simp_all

theorem trim_rows_eq_some {rows trimmed : HeaderMap} :
    rows.mapM trim_row = some trimmed ↔
      List.Forall₂ (fun row other => other.1 = row.1 ∧ Trimmed row.2 other.2) rows trimmed := by
  induction rows generalizing trimmed with
  | nil => cases trimmed <;> simp
  | cons row rows ih =>
    rw [List.mapM_cons, Option.bind_eq_bind, Option.bind_eq_some_iff]
    constructor
    · rintro ⟨first, hfirst, h⟩
      obtain ⟨rest, hrest, h⟩ := Option.bind_eq_some_iff.mp h
      obtain rfl := Option.some.inj h
      obtain ⟨value, hvalue, rfl⟩ := Option.map_eq_some_iff.mp hfirst
      exact .cons ⟨rfl, trim_value_eq_some.mp hvalue⟩ (ih.mp hrest)
    · rintro (_ | ⟨⟨hname, hvalue⟩, hrest⟩)
      rename_i first rest
      refine ⟨first, ?_, Option.bind_eq_some_iff.mpr ⟨rest, ih.mpr hrest, rfl⟩⟩
      unfold trim_row
      rw [trim_value_eq_some.mpr hvalue, ← hname]
      rfl

/-- A block reads as its rows with their values trimmed, and only where all of them are UTF-8. -/
theorem decode_trailer_block_eq_ok {rows trimmed : HeaderMap} :
    decode_grpc_web_trailer_block (trailer_block rows) = .ok trimmed ↔
      List.Forall₂ (fun row other => other.1 = row.1 ∧ Trimmed row.2 other.2) rows trimmed := by
  unfold decode_grpc_web_trailer_block
  rw [decode_trailer_lines_of_block, ← trim_rows_eq_some]
  cases rows.mapM trim_row with
  | none => simp
  | some other => simp

theorem decode_trailer_block_exists {rows : HeaderMap} :
    (∃ trimmed, decode_grpc_web_trailer_block (trailer_block rows) = .ok trimmed) ↔
      ∀ row ∈ rows, ∃ text, from_utf8 row.2.as_bytes = some text := by
  simp only [decode_trailer_block_eq_ok]
  induction rows with
  | nil => simp
  | cons row rows ih =>
    rw [List.forall_mem_cons, ← ih]
    constructor
    · rintro ⟨_, _ | ⟨⟨_, text, htext, _⟩, hrest⟩⟩
      exact ⟨⟨text, htext⟩, _, hrest⟩
    · rintro ⟨⟨text, htext⟩, trimmed, hrest⟩
      obtain ⟨value, _, hvalue⟩ := from_str_trim htext
      exact ⟨(row.1, value) :: trimmed, .cons ⟨rfl, text, htext, hvalue⟩ hrest⟩

/-! ## The first value of a name -/

theorem get_cons (row : HeaderName × HeaderValue) (rows : HeaderMap) (name : HeaderName) :
    HeaderMap.get (row :: rows) name = if row.1 = name then some row.2 else rows.get name := by
  unfold HeaderMap.get HeaderMap.get_all
  by_cases h : row.1 = name
  · simp [h]
  · simp [h]

theorem get_of_trimmed {rows trimmed : HeaderMap} (name : HeaderName)
    (h : List.Forall₂ (fun row other => other.1 = row.1 ∧ Trimmed row.2 other.2) rows trimmed) :
    (rows.get name = none → trimmed.get name = none) ∧
      ∀ value, rows.get name = some value →
        ∃ other, trimmed.get name = some other ∧ Trimmed value other := by
  induction h with
  | nil => exact ⟨fun _ => rfl, fun value hvalue => by cases hvalue⟩
  | @cons row other rows trimmed hrow _ ih =>
    rw [get_cons, get_cons, hrow.1]
    by_cases hname : row.1 = name
    · rw [if_pos hname, if_pos hname]
      refine ⟨fun hnone => ?_, fun value hvalue => ⟨other.2, rfl, ?_⟩⟩
      · cases hnone
      · rw [← Option.some.inj hvalue]
        exact hrow.2
    · rw [if_neg hname, if_neg hname]
      exact ih

/-- A visible text that is trimmed reads as the same text. -/
theorem to_str_of_trimmed {value other : HeaderValue} {text : Text}
    (htext : value.to_str = some text) (h : Trimmed value other) :
    other.to_str = some (trim text) := by
  obtain ⟨hbytes, hrange⟩ := visible_of_to_str htext
  obtain ⟨same, hsame, hother⟩ := h
  rw [hbytes, from_utf8_as_bytes] at hsame
  obtain rfl := Option.some.inj hsame
  have htrim : ∀ c ∈ trim text, (32 ≤ c.toNat ∧ c.toNat < 127) ∨ c.toNat = 9 :=
    fun c hc => hrange c (mem_of_mem_trim hc)
  have hascii : ∀ c ∈ trim text, c.toNat < 128 := by
    intro c hc
    have := htrim c hc
    omega
  unfold HeaderValue.to_str
  rw [if_pos, hother, ascii_of_bytes hascii]
  intro b hb
  rw [hother, as_bytes_of_ascii hascii] at hb
  obtain ⟨c, hc, rfl⟩ := List.mem_map.mp hb
  have hbyte : c.toNat.toUInt8.toNat = c.toNat := by
    have := hascii c hc
    simp
    omega
  rcases htrim c hc with ⟨hlow, hhigh⟩ | htab
  · left
    rw [UInt8.le_iff_toNat_le, UInt8.lt_iff_toNat_lt, hbyte]
    exact ⟨hlow, hhigh⟩
  · right
    apply UInt8.toNat_inj.mp
    rw [hbyte, htab]
    rfl

end rginx.grpc_web
