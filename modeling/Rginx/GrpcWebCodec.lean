-- The codec of grpc-web, from `proxy/grpc_web/codec.rs` and the observer's copy of it in
-- `handler/grpc/grpc_web.rs`: frames with a length before them, the block of
-- trailers in the last one, and the base64 text of the text mode. The two copies
-- differ in the texts of their errors.
import Rginx.Base64
import Rginx.RangeTrim

open rust_text rginx.cache

namespace rginx.grpc_web

abbrev Bytes := List UInt8

/-! ## The source -/

def invalid_grpc_web_body (message : String) : IoError := ⟨.InvalidData, message⟩

/-- `u32::to_be_bytes` of a length that is cast to `u32`. -/
def to_be_bytes (n : Nat) : Bytes :=
  [UInt8.ofNat (n / 2 ^ 24), UInt8.ofNat (n / 2 ^ 16), UInt8.ofNat (n / 2 ^ 8), UInt8.ofNat n]

/-- `u32::from_be_bytes`. -/
def from_be_bytes (a b c d : UInt8) : Nat :=
  a.toNat * 2 ^ 24 + b.toNat * 2 ^ 16 + c.toNat * 2 ^ 8 + d.toNat

def HeaderName_as_bytes (name : HeaderName) : Bytes := as_bytes name.as_str.toList

/-- `HeaderName::from_bytes`. -/
def HeaderName_from_bytes (bytes : Bytes) : Option HeaderName :=
  HeaderName.parse (String.ofList (bytes.map fun b => Char.ofNat b.toNat))

def append_header_map (destination source : HeaderMap) : HeaderMap := destination ++ source

/-- `line.strip_suffix(b"\r").unwrap_or(line)`. -/
def without_return (line : Bytes) : Bytes :=
  if line.getLast? = some 13 then line.dropLast else line

/-- One line of a trailer block that is not empty. -/
def decode_trailer_line (line : Bytes) : IoResult (HeaderName × HeaderValue) :=
  match line.span (· ≠ 58) with
  | (_, []) => .error (invalid_grpc_web_body "grpc-web trailer line should contain ':'")
  | (name, _ :: value) =>
    match HeaderName_from_bytes name with
    | none =>
      .error (invalid_grpc_web_body "grpc-web trailer name should be a valid HTTP header")
    | some name =>
      match from_utf8 value with
      | none => .error (invalid_grpc_web_body "grpc-web trailer value should be valid utf-8")
      | some value =>
        match HeaderValue.from_str (trim value) with
        | none =>
          .error (invalid_grpc_web_body "grpc-web trailer value should be a valid HTTP header")
        | some value => .ok (name, value)

/-- The lines of a block, with the trailers of the lines before. -/
def decode_trailer_lines (trailers : HeaderMap) : List Bytes → IoResult HeaderMap
  | [] => .ok trailers
  | line :: lines =>
    let line := without_return line
    if line = [] then decode_trailer_lines trailers lines
    else do
      let row ← decode_trailer_line line
      decode_trailer_lines (trailers ++ [row]) lines

/-- `decode_grpc_web_trailer_block`, and the observer's copy. -/
def decode_grpc_web_trailer_block (payload : Bytes) : IoResult HeaderMap :=
  decode_trailer_lines [] (payload.splitOn 10)

inductive ParsedGrpcWebFrame
  | Data (frame : Bytes)
  | Trailers (trailers : HeaderMap)

/-- The frame that the buffer starts with, and the rest of the buffer. -/
def decode_grpc_web_frame (direction : String) (buffer : Bytes)
    (inner_finished saw_grpc_web_trailers : Bool) :
    IoResult (Option ParsedGrpcWebFrame) × Bytes :=
  if buffer = [] then (.ok none, buffer)
  else if saw_grpc_web_trailers then
    (.error (invalid_grpc_web_body s!"grpc-web {direction} trailer frame must be terminal"), buffer)
  else
    match buffer with
    | flags :: a :: b :: c :: d :: payload =>
      let len := from_be_bytes a b c d
      if payload.length < len then
        if inner_finished then
          (.error (invalid_grpc_web_body s!"incomplete grpc-web {direction} frame payload"), buffer)
        else (.ok none, buffer)
      else
        let rest := payload.drop len
        if flags &&& 0x80 ≠ 0 then
          match decode_grpc_web_trailer_block (payload.take len) with
          | .ok trailers => (.ok (some (.Trailers trailers)), rest)
          | .error error => (.error error, rest)
        else (.ok (some (.Data (flags :: a :: b :: c :: d :: payload.take len))), rest)
    | _ =>
      if inner_finished then
        (.error (invalid_grpc_web_body s!"incomplete grpc-web {direction} frame header"), buffer)
      else (.ok none, buffer)

def decode_grpc_web_request_frame : Bytes → Bool → Bool →
    IoResult (Option ParsedGrpcWebFrame) × Bytes :=
  decode_grpc_web_frame "request"

def decode_grpc_web_observability_frame : Bytes → Bool → Bool →
    IoResult (Option ParsedGrpcWebFrame) × Bytes :=
  decode_grpc_web_frame "response"

/-- `u8::is_ascii_whitespace`. -/
def is_ascii_whitespace (b : UInt8) : Bool := b = 32 ∨ b = 9 ∨ b = 10 ∨ b = 12 ∨ b = 13

/-- The bytes of whole quanta; no bytes are none. -/
def decode_text_quanta (scope : String) (encoded : Bytes) : IoResult (Option Bytes) :=
  match base64.decode_chunks_exact encoded with
  | .error error =>
    .error (invalid_grpc_web_body
      s!"invalid grpc-web-text base64 chunk{scope}: {error.message}")
  | .ok decoded => .ok (if decoded = [] then none else some decoded)

/-- What a chunk completes, and the characters that wait for more. -/
def decode_text_chunk (scope : String) (carryover data : Bytes) : IoResult (Option Bytes) × Bytes :=
  let carryover := carryover ++ data.filter fun b => !is_ascii_whitespace b
  let complete_len := carryover.length / 4 * 4
  if complete_len = 0 then (.ok none, carryover)
  else (decode_text_quanta scope (carryover.take complete_len), carryover.drop complete_len)

def decode_text_final (scope body : String) (carryover : Bytes) : IoResult (Option Bytes) × Bytes :=
  if carryover = [] then (.ok none, carryover)
  else if carryover.length % 4 ≠ 0 then
    (.error (invalid_grpc_web_body s!"incomplete grpc-web-text base64 {body}"), carryover)
  else (decode_text_quanta scope carryover, [])

def decode_grpc_web_text_chunk : Bytes → Bytes → IoResult (Option Bytes) × Bytes :=
  decode_text_chunk ""

def decode_grpc_web_text_final : Bytes → IoResult (Option Bytes) × Bytes :=
  decode_text_final "" "body"

def decode_grpc_web_text_observability_chunk : Bytes → Bytes → IoResult (Option Bytes) × Bytes :=
  decode_text_chunk " for observability"

def decode_grpc_web_text_observability_final : Bytes → IoResult (Option Bytes) × Bytes :=
  decode_text_final " for observability" "response body"

/-- The text of the whole groups of three, and the bytes that wait for more. -/
def encode_grpc_web_text_chunk (carryover data : Bytes) : Option Bytes × Bytes :=
  let carryover := carryover ++ data
  let complete_len := carryover.length / 3 * 3
  if complete_len = 0 then (none, carryover)
  else (some (base64.encode_no_pad (carryover.take complete_len)), carryover.drop complete_len)

def flush_grpc_web_text_chunk (carryover : Bytes) : Option Bytes × Bytes :=
  if carryover = [] then (none, carryover) else (some (base64.encode carryover), [])

def GRPC_STATUS : HeaderName := ⟨"grpc-status", by decide⟩
def GRPC_MESSAGE : HeaderName := ⟨"grpc-message", by decide⟩
def GRPC_STATUS_DETAILS_BIN : HeaderName := ⟨"grpc-status-details-bin", by decide⟩

/-- The headers without the trailers that stood among them, and these. -/
def extract_grpc_initial_trailers (headers : HeaderMap) : Option HeaderMap × HeaderMap :=
  let names := [GRPC_STATUS, GRPC_MESSAGE, GRPC_STATUS_DETAILS_BIN]
  let trailers : HeaderMap := names.foldl (fun trailers name =>
    match headers.get name with
    | some value => HeaderMap.insert trailers name value
    | none => trailers) []
  (if trailers = [] then none else some trailers, names.foldl HeaderMap.remove headers)

def trailer_line (row : HeaderName × HeaderValue) : Bytes :=
  HeaderName_as_bytes row.1 ++ [58, 32] ++ row.2.as_bytes ++ [13, 10]

def trailer_block (trailers : HeaderMap) : Bytes := trailers.flatMap trailer_line

def encode_grpc_web_trailers (trailers : HeaderMap) : Bytes :=
  0x80 :: (to_be_bytes (trailer_block trailers).length ++ trailer_block trailers)

/-! ## Frames -/

/-- A frame with its length before its payload. -/
def lengthPrefixed (flags : UInt8) (payload : Bytes) : Bytes :=
  flags :: (to_be_bytes payload.length ++ payload)

/-- A buffer that holds the start of a frame and no whole one. -/
def Unfinished (buffer : Bytes) : Prop :=
  buffer ≠ [] ∧ ∀ flags payload rest, payload.length < 2 ^ 32 →
    buffer ≠ lengthPrefixed flags payload ++ rest

theorem from_be_bytes_lt (a b c d : UInt8) : from_be_bytes a b c d < 2 ^ 32 := by
  have ha := a.toNat_lt
  have hb := b.toNat_lt
  have hc := c.toNat_lt
  have hd := d.toNat_lt
  unfold from_be_bytes
  omega

theorem to_be_bytes_from (a b c d : UInt8) : to_be_bytes (from_be_bytes a b c d) = [a, b, c, d] := by
  have ha := a.toNat_lt
  have hb := b.toNat_lt
  have hc := c.toNat_lt
  have hd := d.toNat_lt
  simp only [to_be_bytes, from_be_bytes, List.cons.injEq, and_true]
  refine ⟨?_, ?_, ?_, ?_⟩
  · apply UInt8.toNat_inj.mp
    rw [UInt8.toNat_ofNat']
    omega
  · apply UInt8.toNat_inj.mp
    rw [UInt8.toNat_ofNat']
    omega
  · apply UInt8.toNat_inj.mp
    rw [UInt8.toNat_ofNat']
    omega
  · apply UInt8.toNat_inj.mp
    rw [UInt8.toNat_ofNat']
    omega

theorem from_be_bytes_to {n : Nat} (h : n < 2 ^ 32) :
    from_be_bytes (UInt8.ofNat (n / 2 ^ 24)) (UInt8.ofNat (n / 2 ^ 16)) (UInt8.ofNat (n / 2 ^ 8))
      (UInt8.ofNat n) = n := by
  simp only [from_be_bytes, UInt8.toNat_ofNat']
  omega

theorem lengthPrefixed_append (flags : UInt8) (payload rest : Bytes) :
    lengthPrefixed flags payload ++ rest =
      flags :: UInt8.ofNat (payload.length / 2 ^ 24) :: UInt8.ofNat (payload.length / 2 ^ 16) ::
        UInt8.ofNat (payload.length / 2 ^ 8) :: UInt8.ofNat payload.length :: (payload ++ rest) := by
  simp [lengthPrefixed, to_be_bytes]

/-- A buffer that is long enough for its length starts with a whole frame. -/
theorem whole_of_length (flags : UInt8) {a b c d : UInt8} {payload : Bytes} {len : Nat}
    (h : len ≤ payload.length) (hbytes : to_be_bytes len = [a, b, c, d]) (hlt : len < 2 ^ 32) :
    ∃ first rest, first.length < 2 ^ 32 ∧
      flags :: a :: b :: c :: d :: payload = lengthPrefixed flags first ++ rest := by
  have hlength : (payload.take len).length = len := by
    rw [List.length_take]
    omega
  refine ⟨payload.take len, payload.drop len, ?_, ?_⟩
  · rw [hlength]
    exact hlt
  · rw [lengthPrefixed, hlength, hbytes]
    simp

/-- A buffer is empty, or starts with a whole frame, or waits for one. -/
theorem buffer_cases (buffer : Bytes) :
    buffer = [] ∨ Unfinished buffer ∨ ∃ flags payload rest, payload.length < 2 ^ 32 ∧
      buffer = lengthPrefixed flags payload ++ rest := by
  by_cases hnil : buffer = []
  · exact .inl hnil
  · right
    by_cases h : ∃ flags payload rest, payload.length < 2 ^ 32 ∧
        buffer = lengthPrefixed flags payload ++ rest
    · exact .inr h
    · exact .inl ⟨hnil, fun flags payload rest hlength hbuffer =>
        h ⟨flags, payload, rest, hlength, hbuffer⟩⟩

variable {direction : String} {inner_finished : Bool}

theorem decode_empty (direction : String) (inner_finished saw : Bool) :
    decode_grpc_web_frame direction [] inner_finished saw = (.ok none, []) := rfl

theorem decode_after_trailers {buffer : Bytes} (direction : String) (inner_finished : Bool)
    (h : buffer ≠ []) :
    decode_grpc_web_frame direction buffer inner_finished true =
      (.error (invalid_grpc_web_body s!"grpc-web {direction} trailer frame must be terminal"),
        buffer) := by
  unfold decode_grpc_web_frame
  rw [if_neg h, if_pos rfl]

/-- A whole frame is cut off the buffer. -/
theorem decode_lengthPrefixed (direction : String) (inner_finished : Bool) (flags : UInt8)
    {payload : Bytes} (hlength : payload.length < 2 ^ 32) (rest : Bytes) :
    decode_grpc_web_frame direction (lengthPrefixed flags payload ++ rest) inner_finished false =
      if flags &&& 0x80 ≠ 0 then
        ((decode_grpc_web_trailer_block payload).map fun trailers => some (.Trailers trailers), rest)
      else (.ok (some (.Data (lengthPrefixed flags payload))), rest) := by
  have hdata := lengthPrefixed_append flags payload []
  rw [List.append_nil, List.append_nil] at hdata
  rw [lengthPrefixed_append, hdata]
  unfold decode_grpc_web_frame
  rw [if_neg (List.cons_ne_nil _ _), if_neg Bool.false_ne_true]
  dsimp only
  rw [from_be_bytes_to hlength, if_neg (by simp)]
  simp only [List.drop_left, List.take_left]
  by_cases hflags : flags &&& 0x80 ≠ 0
  · rw [if_pos hflags, if_pos hflags]
    cases decode_grpc_web_trailer_block payload <;> rfl
  · rw [if_neg hflags, if_neg hflags]

/-- The start of a frame waits for the rest, and is an error at the end. -/
theorem decode_unfinished {buffer : Bytes} (h : Unfinished buffer) (direction : String) :
    decode_grpc_web_frame direction buffer false false = (.ok none, buffer) ∧
      ∃ error, decode_grpc_web_frame direction buffer true false = (.error error, buffer) := by
  obtain ⟨hne, hwhole⟩ := h
  unfold decode_grpc_web_frame
  rw [if_neg hne, if_neg hne, if_neg Bool.false_ne_true]
  match buffer, hwhole with
  | flags :: a :: b :: c :: d :: payload, hwhole =>
    dsimp only
    by_cases hshort : payload.length < from_be_bytes a b c d
    · rw [if_pos hshort, if_pos hshort]
      exact ⟨rfl, _, rfl⟩
    · exfalso
      obtain ⟨first, rest, hlength, hbuffer⟩ := whole_of_length flags (Nat.le_of_not_lt hshort)
        (to_be_bytes_from a b c d) (from_be_bytes_lt a b c d)
      exact hwhole flags first rest hlength hbuffer
  | [], _ => exact ⟨rfl, _, rfl⟩
  | [_], _ => exact ⟨rfl, _, rfl⟩
  | [_, _], _ => exact ⟨rfl, _, rfl⟩
  | [_, _, _], _ => exact ⟨rfl, _, rfl⟩
  | [_, _, _, _], _ => exact ⟨rfl, _, rfl⟩

/-- The decoder of frames never makes the buffer longer, and a frame makes it shorter. -/
theorem decode_shorter {buffer rest : Bytes} {saw : Bool} {parsed : ParsedGrpcWebFrame}
    (h : decode_grpc_web_frame direction buffer inner_finished saw = (.ok (some parsed), rest)) :
    rest.length < buffer.length := by
  cases saw with
  | true =>
    by_cases hnil : buffer = []
    · rw [hnil, decode_empty] at h
      simp at h
    · rw [decode_after_trailers _ _ hnil] at h
      simp at h
  | false =>
    rcases buffer_cases buffer with rfl | hshort | ⟨flags, payload, more, hlength, rfl⟩
    · rw [decode_empty] at h
      simp at h
    · cases inner_finished with
      | true =>
        obtain ⟨error, herror⟩ := (decode_unfinished hshort direction).2
        rw [herror] at h
        simp at h
      | false =>
        rw [(decode_unfinished hshort direction).1] at h
        simp at h
    · rw [decode_lengthPrefixed _ _ _ hlength] at h
      have hrest : more = rest := by
        split at h
        · exact (Prod.mk.inj h).2
        · exact (Prod.mk.inj h).2
      rw [← hrest, lengthPrefixed_append]
      simp only [List.length_cons, List.length_append]
      omega

theorem decode_none {buffer rest : Bytes} {saw : Bool}
    (h : decode_grpc_web_frame direction buffer inner_finished saw = (.ok none, rest)) :
    rest = buffer := by
  cases saw with
  | true =>
    by_cases hnil : buffer = []
    · rw [hnil, decode_empty] at h
      rw [hnil, (Prod.mk.inj h).2]
    · rw [decode_after_trailers _ _ hnil] at h
      simp at h
  | false =>
    rcases buffer_cases buffer with rfl | hshort | ⟨flags, payload, more, hlength, rfl⟩
    · rw [decode_empty] at h
      exact (Prod.mk.inj h).2.symm
    · cases inner_finished with
      | true =>
        obtain ⟨error, herror⟩ := (decode_unfinished hshort direction).2
        rw [herror] at h
        simp at h
      | false =>
        rw [(decode_unfinished hshort direction).1] at h
        exact (Prod.mk.inj h).2.symm
    · rw [decode_lengthPrefixed _ _ _ hlength] at h
      split at h
      · cases hblock : decode_grpc_web_trailer_block payload <;> simp [hblock, Except.map] at h
      · simp at h

theorem lengthPrefixed_injective {flags flags' : UInt8} {payload payload' rest rest' : Bytes}
    (hlength : payload.length < 2 ^ 32) (hlength' : payload'.length < 2 ^ 32)
    (h : lengthPrefixed flags payload ++ rest = lengthPrefixed flags' payload' ++ rest') :
    flags = flags' ∧ payload = payload' ∧ rest = rest' := by
  rw [lengthPrefixed_append, lengthPrefixed_append] at h
  simp only [List.cons.injEq] at h
  obtain ⟨hflags, ha, hb, hc, hd, hpayload⟩ := h
  have hsame : payload.length = payload'.length := by
    rw [← from_be_bytes_to hlength, ← from_be_bytes_to hlength', ha, hb, hc, hd]
  obtain ⟨hpayload, hrest⟩ := List.append_inj hpayload hsame
  exact ⟨hflags, hpayload, hrest⟩

/-! ## Text -/

/-- A text without its spaces. -/
def characters (text : Bytes) : Bytes := text.filter fun b => !is_ascii_whitespace b

theorem characters_append (text more : Bytes) :
    characters (text ++ more) = characters text ++ characters more := List.filter_append ..

/-- A chunk of text gives what its whole quanta hold, and the rest waits. -/
theorem decode_text_chunk_spec (scope : String) {carryover data : Bytes} :
    ∃ whole rest, carryover ++ characters data = whole ++ rest ∧ rest.length < 4 ∧
      4 ∣ whole.length ∧ (decode_text_chunk scope carryover data).2 = rest ∧
      match base64.decode_quanta whole with
      | none => ∃ error, (decode_text_chunk scope carryover data).1 = .error error
      | some decoded => (decode_text_chunk scope carryover data).1 =
          .ok (if decoded = [] then none else some decoded) := by
  obtain ⟨all, hall⟩ : ∃ all, all = carryover ++ characters data := ⟨_, rfl⟩
  refine ⟨all.take (all.length / 4 * 4), all.drop (all.length / 4 * 4), ?_, ?_, ?_, ?_, ?_⟩
  · rw [← hall, List.take_append_drop]
  · rw [List.length_drop]
    omega
  · rw [List.length_take]
    omega
  · unfold decode_text_chunk
    rw [show carryover ++ data.filter _ = all from hall.symm]
    dsimp only
    split
    · rename_i hzero
      rw [hzero, List.drop_zero]
    · rfl
  · unfold decode_text_chunk
    rw [show carryover ++ data.filter _ = all from hall.symm]
    dsimp only
    by_cases hzero : all.length / 4 * 4 = 0
    · rw [hzero, List.take_zero]
      rfl
    · rw [if_neg hzero]
      have hwhole : 4 ∣ (all.take (all.length / 4 * 4)).length := by
        rw [List.length_take]
        omega
      have hchunks := base64.decode_chunks_exact_of_whole hwhole
      unfold decode_text_quanta
      cases hquanta : base64.decode_quanta (all.take (all.length / 4 * 4)) with
      | none =>
        rw [hquanta] at hchunks
        obtain ⟨error, herror⟩ := hchunks
        rw [herror]
        exact ⟨_, rfl⟩
      | some decoded =>
        rw [hquanta] at hchunks
        dsimp only at hchunks
        rw [hchunks]

/-- At the end nothing may wait. -/
theorem decode_text_final_spec (scope body : String) {carryover : Bytes}
    (hlength : carryover.length < 4) :
    (carryover = [] → decode_text_final scope body carryover = (.ok none, [])) ∧
      (carryover ≠ [] → base64.decode_quanta carryover = none ∧
        ∃ error, decode_text_final scope body carryover = (.error error, carryover)) := by
  constructor
  · rintro rfl
    rfl
  · intro hne
    have hpos : 0 < carryover.length := List.length_pos_iff.mpr hne
    refine ⟨?_, ?_⟩
    · by_contra hsome
      obtain ⟨bytes, hbytes⟩ := Option.ne_none_iff_exists'.mp hsome
      have hfour := base64.length_of_decode_quanta hbytes
      omega
    · unfold decode_text_final
      rw [if_neg hne, if_pos (by omega)]
      exact ⟨_, rfl⟩

/-- What comes out are the whole groups of three, and the rest waits. -/
theorem encode_text_chunk_spec (carryover data : Bytes) :
    ∃ groups rest, carryover ++ data = groups ++ rest ∧ rest.length < 3 ∧ 3 ∣ groups.length ∧
      encode_grpc_web_text_chunk carryover data =
        (if groups = [] then none else some (base64.encode_no_pad groups), rest) := by
  obtain ⟨all, hall⟩ : ∃ all, all = carryover ++ data := ⟨_, rfl⟩
  have hlength : (all.take (all.length / 3 * 3)).length = all.length / 3 * 3 := by
    rw [List.length_take]
    omega
  refine ⟨all.take (all.length / 3 * 3), all.drop (all.length / 3 * 3), ?_, ?_, ?_, ?_⟩
  · rw [← hall, List.take_append_drop]
  · rw [List.length_drop]
    omega
  · omega
  · unfold encode_grpc_web_text_chunk
    rw [← hall]
    dsimp only
    by_cases hzero : all.length / 3 * 3 = 0
    · rw [hzero]
      rfl
    · have hne : all.take (all.length / 3 * 3) ≠ [] := by
        intro hnil
        rw [hnil] at hlength
        exact hzero hlength.symm
      rw [if_neg hzero, if_neg hne]

end rginx.grpc_web
