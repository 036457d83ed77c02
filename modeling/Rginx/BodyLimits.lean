-- The memory that a request body takes, from `downstream_request_body` in
-- `proxy/request_body/prepare.rs`: the limit stands outside of the decoder of grpc-web, which holds
-- a frame until it is whole.
import Rginx.PollTurns
import Rginx.RequestBodies

open rust_text rginx.cache rginx.grpc_web polled_bodies

namespace rginx.proxy

open Turns (turn poll_turn)

/-! ## The turns of the layers -/

section Layers

variable {B : Type} [Body B BodyFrame IoError]

/-- The idle timer polls the body of the client once. -/
instance : Turns (IdleTimeoutBody B) where
  turn _ := none
  poll_turn h := nomatch h
  ends := ⟨fun _ => ⟨_, fun _ h => nomatch h⟩⟩

variable [Ends B BodyFrame IoError]

def text_turn (this : GrpcWebTextDecodeBody B) : Option (GrpcWebTextDecodeBody B) :=
  if this.pending_trailers.isSome ∨ this.inner_finished then none
  else
    match Body.poll_frame this.inner with
    | (.Ready (some (.ok (.Data data))), inner) =>
      match decode_grpc_web_text_chunk this.carryover data with
      | (.ok none, carryover) => some { this with inner, carryover }
      | _ => none
    | (.Ready none, inner) => some { this with inner, inner_finished := true }
    | _ => none

omit [Ends B BodyFrame IoError] in
/-- A turn took a chunk without a whole quantum, or saw the end. -/
theorem text_turn_cases {this next : GrpcWebTextDecodeBody B} (h : text_turn this = some next) :
    this.pending_trailers = none ∧ this.inner_finished = false ∧
      ((∃ inner data carryover, Body.poll_frame this.inner = (.Ready (some (.ok (.Data data))), inner) ∧
          decode_grpc_web_text_chunk this.carryover data = (.ok none, carryover) ∧
          next = { this with inner, carryover }) ∨
        ∃ inner, Body.poll_frame this.inner = (.Ready none, inner) ∧
          next = { this with inner, inner_finished := true }) := by
  unfold text_turn at h
  split at h
  · cases h
  · rename_i hopen
    obtain ⟨htrailers, hreading⟩ := not_or.mp hopen
    refine ⟨by simpa using htrailers, by simpa using hreading, ?_⟩
    split at h
    · rename_i data inner hinner
      split at h
      · rename_i carryover hchunk
        exact .inl ⟨inner, data, carryover, hinner, hchunk, (Option.some.inj h).symm⟩
      · cases h
    · rename_i inner hinner
      exact .inr ⟨inner, hinner, (Option.some.inj h).symm⟩
    · cases h

instance : Turns (GrpcWebTextDecodeBody B) where
  turn := text_turn
  poll_turn {this next} h := by
    obtain ⟨htrailers, hreading, ⟨inner, data, carryover, hinner, hchunk, rfl⟩ | ⟨inner, hinner, rfl⟩⟩ :=
      text_turn_cases h
    · rw [GrpcWebTextDecodeBody.poll_of_reading htrailers hreading, hinner]
      dsimp only
      rw [hchunk]
    · rw [GrpcWebTextDecodeBody.poll_of_reading htrailers hreading, hinner]
  ends := by
    refine Subrelation.wf ?_ (InvImage.wf GrpcWebTextDecodeBody.progress nearer_wellFounded)
    intro next this h
    obtain ⟨-, hreading, ⟨inner, data, carryover, hinner, -, rfl⟩ | ⟨inner, -, rfl⟩⟩ :=
      text_turn_cases h
    · exact nearer_of_after _ (.frame hinner)
    · exact nearer_of_finishing hreading rfl

/-! ## The turns of the decoder -/

variable {L : Type} [Body L BodyFrame IoError] [Ends L BodyFrame IoError] [Turns L]

def decoder_turn (this : GrpcWebRequestBody L) : Option (GrpcWebRequestBody L) :=
  match decode_grpc_web_request_frame this.buffer this.inner_finished
      this.saw_grpc_web_trailers with
  | (.ok (some (.Trailers trailers)), buffer) =>
    if append_header_map trailers (this.inner_trailers.getD []) = [] then
      some { this with buffer, saw_grpc_web_trailers := true, inner_trailers := none }
    else none
  | (.ok none, _) =>
    if this.inner_finished then none
    else
      match turn this.inner with
      | some inner => some { this with inner }
      | none =>
        match Body.poll_frame this.inner with
        | (.Ready (some (.ok (.Data data))), inner) =>
          if this.saw_grpc_web_trailers = true ∧ data ≠ [] then none
          else some { this with inner, buffer := this.buffer ++ data }
        | (.Ready (some (.ok (.Trailers trailers))), inner) =>
          let inner_trailers := match this.inner_trailers with
            | some existing => append_header_map existing trailers
            | none => trailers
          some { this with inner, inner_trailers := some inner_trailers, inner_finished := true }
        | (.Ready none, inner) => some { this with inner, inner_finished := true }
        | _ => none
  | _ => none

/-- What a turn of the decoder can do: cut off trailers without a line, or take from the layer
below. -/
inductive DecoderTurn (this : GrpcWebRequestBody L) : GrpcWebRequestBody L → Prop
  | trailers {trailers : HeaderMap} {buffer : Bytes}
      (hdecode : decode_grpc_web_request_frame this.buffer this.inner_finished
        this.saw_grpc_web_trailers = (.ok (some (.Trailers trailers)), buffer))
      (hempty : append_header_map trailers (this.inner_trailers.getD []) = []) :
      DecoderTurn this { this with buffer, saw_grpc_web_trailers := true, inner_trailers := none }
  | inner {inner : L} (hdecode : decode_grpc_web_request_frame this.buffer this.inner_finished
        this.saw_grpc_web_trailers = (.ok none, this.buffer)) (hreading : this.inner_finished = false)
      (hturn : turn this.inner = some inner) : DecoderTurn this { this with inner }
  | data {data : Bytes} {inner : L}
      (hdecode : decode_grpc_web_request_frame this.buffer this.inner_finished
        this.saw_grpc_web_trailers = (.ok none, this.buffer)) (hreading : this.inner_finished = false)
      (hturn : turn this.inner = none)
      (hpoll : Body.poll_frame this.inner = (.Ready (some (.ok (.Data data))), inner))
      (hopen : ¬ (this.saw_grpc_web_trailers = true ∧ data ≠ [])) :
      DecoderTurn this { this with inner, buffer := this.buffer ++ data }
  | finished {inner : L} {answer : Poll (Option (IoResult BodyFrame))}
      {inner_trailers : Option HeaderMap}
      (hdecode : decode_grpc_web_request_frame this.buffer this.inner_finished
        this.saw_grpc_web_trailers = (.ok none, this.buffer)) (hreading : this.inner_finished = false)
      (hturn : turn this.inner = none) (hpoll : Body.poll_frame this.inner = (answer, inner))
      (hsame : Body.poll_frame this =
        Body.poll_frame { this with inner, inner_trailers, inner_finished := true }) :
      DecoderTurn this { this with inner, inner_trailers, inner_finished := true }

theorem decoder_turn_cases {this next : GrpcWebRequestBody L} (h : decoder_turn this = some next) :
    DecoderTurn this next := by
  unfold decoder_turn at h
  split at h
  · rename_i trailers buffer hdecode
    split at h
    · rename_i hempty
      exact Option.some.inj h ▸ .trailers hdecode hempty
    · cases h
  · rename_i buffer hdecode
    have hbuffer := decode_none hdecode
    subst hbuffer
    by_cases hfinished : this.inner_finished = true
    · rw [if_pos hfinished] at h
      cases h
    · have hreading : this.inner_finished = false := Bool.eq_false_iff.mpr hfinished
      have hpoll := GrpcWebRequestBody.poll_of_reading hdecode hreading
      rw [if_neg hfinished] at h
      cases hturn : turn this.inner with
      | some inner =>
        rw [hturn] at h
        exact Option.some.inj h ▸ .inner hdecode hreading hturn
      | none =>
        rw [hturn] at h
        rcases hinner : Body.poll_frame this.inner with ⟨_ | _ | error | data | trailers, inner⟩
        · rw [hinner] at h
          cases h
        · rw [hinner] at h hpoll
          exact Option.some.inj h ▸ .finished hdecode hreading hturn hinner hpoll
        · rw [hinner] at h
          cases h
        · rw [hinner] at h
          dsimp only at h
          split at h
          · cases h
          · rename_i hopen
            exact Option.some.inj h ▸ .data hdecode hreading hturn hinner hopen
        · rw [hinner] at h hpoll
          exact Option.some.inj h ▸ .finished hdecode hreading hturn hinner hpoll
  · cases h

instance : Turns (GrpcWebRequestBody L) where
  turn := decoder_turn
  poll_turn {this next} h := by
    cases decoder_turn_cases h with
    | trailers hdecode hempty => rw [GrpcWebRequestBody.poll_of_trailers hdecode, if_pos hempty]
    | @inner inner hdecode hreading hturn =>
      have hnext := @GrpcWebRequestBody.poll_of_reading L _ _ { this with inner } _ hdecode hreading
      rw [GrpcWebRequestBody.poll_of_reading hdecode hreading, hnext, poll_turn hturn]
    | data hdecode hreading hturn hpoll hopen =>
      rw [GrpcWebRequestBody.poll_of_reading hdecode hreading, hpoll]
      dsimp only
      rw [if_neg hopen]
    | finished _ _ _ _ hsame => exact hsame
  ends := by
    refine Subrelation.wf ?_ (InvImage.wf GrpcWebRequestBody.progress sooner_wellFounded)
    intro next this h
    cases decoder_turn_cases h with
    | trailers hdecode =>
      have hshorter := decode_shorter hdecode
      apply sooner_of_less
      simp only [Option.toList_none, List.length_nil]
      omega
    | inner _ _ hturn => exact sooner_of_onward _ (.inl hturn)
    | data _ _ _ hpoll => exact sooner_of_onward _ (.inr (.frame hpoll))
    | finished _ hreading => exact sooner_of_finishing hreading rfl

/-- The limit hands the poll on. -/
instance : Turns (MaxBytesBody L) where
  turn this := if this.done then none else (turn this.inner).map fun inner => { this with inner }
  poll_turn {this next} h := by
    by_cases hdone : this.done
    · rw [if_pos hdone] at h
      cases h
    · rw [if_neg hdone] at h
      obtain ⟨inner, hturn, rfl⟩ := Option.map_eq_some_iff.mp h
      show MaxBytesBody.poll_frame _ = MaxBytesBody.poll_frame _
      unfold MaxBytesBody.poll_frame
      rw [if_neg hdone, if_neg hdone, poll_turn hturn]
  ends := by
    refine Subrelation.wf ?_ (InvImage.wf MaxBytesBody.inner (Turns.ends (B := L)))
    intro next this h
    by_cases hdone : this.done
    · rw [if_pos hdone] at h
      cases h
    · rw [if_neg hdone] at h
      obtain ⟨inner, hturn, rfl⟩ := Option.map_eq_some_iff.mp h
      exact hturn

end Layers

/-! ## The layers together -/

/-- The body under the limit, by the mode of grpc-web. -/
def DecodedBody (B : Type) : Option GrpcWebEncoding → Type
  | some .Text => GrpcWebRequestBody (GrpcWebTextDecodeBody (IdleTimeoutBody B))
  | some .Binary => GrpcWebRequestBody (IdleTimeoutBody B)
  | none => IdleTimeoutBody B

def DecodedBody.new {B : Type} (body : IdleTimeoutBody B) : (mode : Option GrpcWebEncoding) →
    DecodedBody B mode
  | some .Text => GrpcWebRequestBody.new (GrpcWebTextDecodeBody.new body)
  | some .Binary => GrpcWebRequestBody.new body
  | none => body

section Modes

variable {B : Type} [Body B BodyFrame IoError] [Ends B BodyFrame IoError]

instance : (mode : Option GrpcWebEncoding) → Body (DecodedBody B mode) BodyFrame IoError
  | some .Text =>
    inferInstanceAs (Body (GrpcWebRequestBody (GrpcWebTextDecodeBody (IdleTimeoutBody B))) _ _)
  | some .Binary => inferInstanceAs (Body (GrpcWebRequestBody (IdleTimeoutBody B)) _ _)
  | none => inferInstanceAs (Body (IdleTimeoutBody B) _ _)

instance : (mode : Option GrpcWebEncoding) → Ends (DecodedBody B mode) BodyFrame IoError
  | some .Text =>
    inferInstanceAs (Ends (GrpcWebRequestBody (GrpcWebTextDecodeBody (IdleTimeoutBody B))) _ _)
  | some .Binary => inferInstanceAs (Ends (GrpcWebRequestBody (IdleTimeoutBody B)) _ _)
  | none => inferInstanceAs (Ends (IdleTimeoutBody B) _ _)

instance : (mode : Option GrpcWebEncoding) → Turns (DecodedBody B mode)
  | some .Text =>
    inferInstanceAs (Turns (GrpcWebRequestBody (GrpcWebTextDecodeBody (IdleTimeoutBody B))))
  | some .Binary => inferInstanceAs (Turns (GrpcWebRequestBody (IdleTimeoutBody B)))
  | none => inferInstanceAs (Turns (IdleTimeoutBody B))

instance [SizedBody B] : (mode : Option GrpcWebEncoding) → SizedBody (DecodedBody B mode)
  | some .Text =>
    inferInstanceAs (SizedBody (GrpcWebRequestBody (GrpcWebTextDecodeBody (IdleTimeoutBody B))))
  | some .Binary => inferInstanceAs (SizedBody (GrpcWebRequestBody (IdleTimeoutBody B)))
  | none => inferInstanceAs (SizedBody (IdleTimeoutBody B))

/-- The body that `downstream_request_body` builds, where there is a limit. -/
def limited (mode : Option GrpcWebEncoding) (max_request_body_bytes body_timeout : Nat)
    (label : String) (expired : List Bool) (body : B) : MaxBytesBody (DecodedBody B mode) :=
  MaxBytesBody.new (DecodedBody.new (IdleTimeoutBody.new body body_timeout label expired) mode)
    max_request_body_bytes

theorem downstream_request_body_limited [SizedBody B] (body : B) (body_timeout : Nat)
    (label : String) (expired : List Bool) (mode : Option GrpcWebEncoding)
    (max_request_body_bytes : Nat) :
    downstream_request_body body body_timeout label expired mode (some max_request_body_bytes) =
      boxed_unsync id (limited mode max_request_body_bytes body_timeout label expired body) := by
  rcases mode with _ | _ | _ <;> rfl

end Modes

/-! ## What is held -/

/-- The bytes that wait for a whole frame, and the characters that wait for a whole quantum. -/
class Buffers (L : Type) where
  buffer : L → Bytes
  carryover : L → Bytes

open Buffers (buffer carryover)

instance {B : Type} : Buffers (IdleTimeoutBody B) := ⟨fun _ => [], fun _ => []⟩

instance {B : Type} : Buffers (GrpcWebTextDecodeBody B) :=
  ⟨fun _ => [], GrpcWebTextDecodeBody.carryover⟩

instance {L : Type} [Buffers L] : Buffers (GrpcWebRequestBody L) :=
  ⟨GrpcWebRequestBody.buffer, fun this => carryover this.inner⟩

instance {L : Type} [Buffers L] : Buffers (MaxBytesBody L) :=
  ⟨fun this => buffer this.inner, fun this => carryover this.inner⟩

instance {B : Type} : (mode : Option GrpcWebEncoding) → Buffers (DecodedBody B mode)
  | some .Text =>
    inferInstanceAs (Buffers (GrpcWebRequestBody (GrpcWebTextDecodeBody (IdleTimeoutBody B))))
  | some .Binary => inferInstanceAs (Buffers (GrpcWebRequestBody (IdleTimeoutBody B)))
  | none => inferInstanceAs (Buffers (IdleTimeoutBody B))

def held {L : Type} [Buffers L] (this : L) : Nat := (buffer this).length + (carryover this).length

def emitted (frames : List BodyFrame) : Nat := (data_of frames).length

theorem data_of_append (frames more : List BodyFrame) :
    data_of (frames ++ more) = data_of frames ++ data_of more := by
  induction frames with
  | nil => rfl
  | cons frame frames ih => cases frame <;> simp [data_of, ih]

theorem emitted_append (frames more : List BodyFrame) :
    emitted (frames ++ more) = emitted frames + emitted more := by
  simp [emitted, data_of_append]

/-- The length of the frame that a buffer starts with, where its header is there and the rest of
it is not. -/
def awaited_frame : Bytes → Option Nat
  | _ :: a :: b :: c :: d :: payload =>
    if payload.length < from_be_bytes a b c d then some (5 + from_be_bytes a b c d) else none
  | _ => none

/-- A turn that adds to the buffer of the decoder finds no frame there that is too long for what
is left of the limit. -/
def Fits {L : Type} [Buffers L] (max_request_body_bytes : Nat) (frames : List BodyFrame)
    (this next : L) : Prop :=
  (buffer this).length < (buffer next).length →
    ∀ len ∈ awaited_frame (buffer this), emitted frames + len ≤ max_request_body_bytes

/-- No chunk of the body is longer. -/
def ChunksUpTo {B : Type} [Body B BodyFrame IoError] (chunk : Nat) (body : B) : Prop :=
  ∀ count data, .Ready (some (.ok (.Data data))) ∈ answers count body → data.length ≤ chunk

/-! ## The layers below the decoder -/

section Below

variable {B : Type} [Body B BodyFrame IoError] {chunk : Nat}

theorem ChunksUpTo.next {body next : B} {answer : Poll (Option (IoResult BodyFrame))}
    (h : ChunksUpTo chunk body) (hpoll : Body.poll_frame body = (answer, next)) :
    ChunksUpTo chunk next := by
  intro count data hdata
  apply h (count + 1) data
  rw [answers, hpoll]
  exact List.mem_cons_of_mem _ hdata

theorem ChunksUpTo.length_le {body next : B} {data : Bytes} (h : ChunksUpTo chunk body)
    (hpoll : Body.poll_frame body = (.Ready (some (.ok (.Data data))), next)) :
    data.length ≤ chunk := by
  apply h 1 data
  rw [answers, hpoll]
  exact List.mem_cons_self

/-- The chunks come through the idle timer. -/
theorem idle_poll (this : IdleTimeoutBody B) :
    ((Body.poll_frame this).2.inner = this.inner ∨
        (Body.poll_frame this).2.inner = (Body.poll_frame this.inner).2) ∧
      ∀ data, (Body.poll_frame this).1 = .Ready (some (.ok (.Data data))) →
        (Body.poll_frame this.inner).1 = .Ready (some (.ok (.Data data))) := by
  show ((this.poll_frame).2.inner = _ ∨ (this.poll_frame).2.inner = _) ∧
    ∀ data, (this.poll_frame).1 = _ → _
  unfold IdleTimeoutBody.poll_frame
  split
  · exact ⟨.inl rfl, fun data h => nomatch h⟩
  · rcases hinner : Body.poll_frame this.inner with ⟨_ | _ | error | frame, inner⟩
    · dsimp only
      split
      · exact ⟨.inr rfl, fun data h => nomatch h⟩
      · exact ⟨.inr rfl, fun data h => nomatch h⟩
    · exact ⟨.inr rfl, fun data h => nomatch h⟩
    · exact ⟨.inr rfl, fun data h => nomatch h⟩
    · exact ⟨.inr rfl, fun data h => h⟩

theorem chunks_idle {this : IdleTimeoutBody B} (h : ChunksUpTo chunk this.inner) :
    ChunksUpTo chunk this := by
  intro count data hdata
  induction count generalizing this with
  | zero => cases hdata
  | succ count ih =>
    obtain ⟨hinner, hsame⟩ := idle_poll this
    rw [answers, List.mem_cons] at hdata
    rcases hdata with hfirst | hmore
    · exact h.length_le (Prod.ext (hsame data hfirst.symm) rfl)
    · apply ih _ hmore
      rcases hinner with hstill | hpolled
      · rw [hstill]
        exact h
      · rw [hpolled]
        exact h.next rfl

/-- What the decoder may rely on of the layer below: little waits there, and what comes of it is
not much more than the chunks of the client. -/
structure Feeds {L : Type} [Body L BodyFrame IoError] [Turns L] [Buffers L] (chunk : Nat)
    (P : L → Prop) : Prop where
  turned {this next : L} (h : P this) (hturn : turn this = some next) : P next
  polled {this next : L} {answer : Poll (Option (IoResult BodyFrame))} (h : P this)
    (hturn : turn this = none) (hpoll : Body.poll_frame this = (answer, next)) : P next
  waits {this : L} (h : P this) : (carryover this).length ≤ 3
  gives {this next : L} {data : Bytes} (h : P this) (hturn : turn this = none)
    (hpoll : Body.poll_frame this = (.Ready (some (.ok (.Data data))), next)) :
    data.length ≤ chunk + 3

theorem idle_feeds : Feeds chunk fun this : IdleTimeoutBody B => ChunksUpTo chunk this where
  turned _ hturn := nomatch hturn
  polled h _ hpoll := h.next hpoll
  waits _ := Nat.zero_le _
  gives h _ hpoll := Nat.le_add_right_of_le (h.length_le hpoll)

variable [Ends B BodyFrame IoError]

/-- Less than a quantum waits in the text decoder. -/
structure Texting (chunk : Nat) (this : GrpcWebTextDecodeBody B) : Prop where
  waits : this.carryover.length ≤ 3
  chunks : ChunksUpTo chunk this.inner

omit [Ends B BodyFrame IoError] in
theorem decode_text_chunk_length {carry data left : Bytes}
    {result : IoResult (Option Bytes)} (h : decode_grpc_web_text_chunk carry data = (result, left)) :
    left.length ≤ 3 ∧ ∀ decoded, result = .ok (some decoded) →
      decoded.length ≤ carry.length + data.length := by
  obtain ⟨whole, rest, hall, hrest, -, hleft, hdecoded⟩ := @decode_text_chunk_spec "" carry data
  have hlengths := congrArg List.length hall
  have hcharacters : (characters data).length ≤ data.length := List.length_filter_le ..
  rw [List.length_append, List.length_append] at hlengths
  unfold decode_grpc_web_text_chunk at h
  rw [h] at hleft hdecoded
  dsimp only at hleft hdecoded
  subst hleft
  refine ⟨by omega, ?_⟩
  rintro decoded rfl
  cases hquanta : base64.decode_quanta whole with
  | none =>
    rw [hquanta] at hdecoded
    obtain ⟨error, herror⟩ := hdecoded
    cases herror
  | some bytes =>
    rw [hquanta] at hdecoded
    have hshort := base64.decode_quanta_length hquanta
    by_cases hnil : bytes = []
    · simp [hnil] at hdecoded
    · simp [hnil] at hdecoded
      rw [hdecoded]
      omega

/-- At the end less than a quantum is an error, so it gives nothing. -/
theorem decode_text_final_length {carry left : Bytes} {result : IoResult (Option Bytes)}
    (hcarry : carry.length ≤ 3) (h : decode_grpc_web_text_final carry = (result, left)) :
    left.length ≤ 3 ∧ ∀ decoded, result ≠ .ok (some decoded) := by
  obtain ⟨hempty, hrest⟩ := @decode_text_final_spec "" "body" carry (by omega)
  unfold decode_grpc_web_text_final at h
  by_cases hnil : carry = []
  · rw [hempty hnil] at h
    obtain ⟨rfl, rfl⟩ := Prod.mk.inj h
    exact ⟨Nat.zero_le _, fun decoded => by simp⟩
  · obtain ⟨-, error, herror⟩ := hrest hnil
    rw [herror] at h
    obtain ⟨rfl, rfl⟩ := Prod.mk.inj h
    exact ⟨hcarry, fun decoded => by simp⟩

theorem texting_polled {this next : GrpcWebTextDecodeBody B}
    {answer : Poll (Option (IoResult BodyFrame))} (h : Texting chunk this)
    (hturn : turn this = none) (hpoll : Body.poll_frame this = (answer, next)) :
    Texting chunk next ∧
      ∀ data, answer = .Ready (some (.ok (.Data data))) → data.length ≤ chunk + 3 := by
  cases htrailers : this.pending_trailers with
  | some trailers =>
    rw [GrpcWebTextDecodeBody.poll_of_pending_trailers htrailers] at hpoll
    obtain ⟨rfl, rfl⟩ := Prod.mk.inj hpoll
    exact ⟨⟨h.waits, h.chunks⟩, fun data hdata => by simp at hdata⟩
  | none =>
    cases hfinished : this.inner_finished with
    | true =>
      rw [GrpcWebTextDecodeBody.poll_of_finished htrailers hfinished] at hpoll
      rcases hfinal : decode_grpc_web_text_final this.carryover with ⟨error | _ | decoded, left⟩
      · obtain ⟨hwaits, -⟩ := decode_text_final_length h.waits hfinal
        rw [hfinal] at hpoll
        obtain ⟨rfl, rfl⟩ := Prod.mk.inj hpoll
        exact ⟨⟨hwaits, h.chunks⟩, fun data hdata => by simp at hdata⟩
      · obtain ⟨hwaits, -⟩ := decode_text_final_length h.waits hfinal
        rw [hfinal] at hpoll
        obtain ⟨rfl, rfl⟩ := Prod.mk.inj hpoll
        exact ⟨⟨hwaits, h.chunks⟩, fun data hdata => by simp at hdata⟩
      · exact absurd rfl ((decode_text_final_length h.waits hfinal).2 decoded)
    | false =>
      rw [GrpcWebTextDecodeBody.poll_of_reading htrailers hfinished] at hpoll
      have hopen : ¬ (this.pending_trailers.isSome = true ∨ this.inner_finished = true) := by
        simp [htrailers, hfinished]
      replace hturn : text_turn this = none := hturn
      unfold text_turn at hturn
      rw [if_neg hopen] at hturn
      rcases hinner : Body.poll_frame this.inner with ⟨_ | _ | error | data | trailers, inner⟩
      · rw [hinner] at hpoll
        obtain ⟨rfl, rfl⟩ := Prod.mk.inj hpoll
        exact ⟨⟨h.waits, h.chunks.next hinner⟩, fun data hdata => by simp at hdata⟩
      · rw [hinner] at hturn
        cases hturn
      · rw [hinner] at hpoll
        obtain ⟨rfl, rfl⟩ := Prod.mk.inj hpoll
        exact ⟨⟨h.waits, h.chunks.next hinner⟩, fun data hdata => by simp at hdata⟩
      · rw [hinner] at hpoll hturn
        dsimp only at hpoll hturn
        rcases hchunk : decode_grpc_web_text_chunk this.carryover data with
          ⟨error | _ | decoded, left⟩
        · obtain ⟨hwaits, -⟩ := decode_text_chunk_length hchunk
          rw [hchunk] at hpoll
          obtain ⟨rfl, rfl⟩ := Prod.mk.inj hpoll
          exact ⟨⟨hwaits, h.chunks.next hinner⟩, fun data hdata => by simp at hdata⟩
        · rw [hchunk] at hturn
          cases hturn
        · obtain ⟨hwaits, hlength⟩ := decode_text_chunk_length hchunk
          rw [hchunk] at hpoll
          obtain ⟨rfl, rfl⟩ := Prod.mk.inj hpoll
          refine ⟨⟨hwaits, h.chunks.next hinner⟩, fun given hgiven => ?_⟩
          have hdecoded := hlength decoded rfl
          have hdata := h.chunks.length_le hinner
          have hcarry := h.waits
          simp only [Poll.Ready.injEq, Option.some.injEq, Except.ok.injEq, BodyFrame.Data.injEq]
            at hgiven
          rw [← hgiven]
          omega
      · rw [hinner] at hpoll
        dsimp only at hpoll
        rcases hfinal : decode_grpc_web_text_final this.carryover with ⟨error | _ | decoded, left⟩
        · obtain ⟨hwaits, -⟩ := decode_text_final_length h.waits hfinal
          rw [hfinal] at hpoll
          obtain ⟨rfl, rfl⟩ := Prod.mk.inj hpoll
          exact ⟨⟨hwaits, h.chunks.next hinner⟩, fun data hdata => by simp at hdata⟩
        · obtain ⟨hwaits, -⟩ := decode_text_final_length h.waits hfinal
          rw [hfinal] at hpoll
          obtain ⟨rfl, rfl⟩ := Prod.mk.inj hpoll
          exact ⟨⟨hwaits, h.chunks.next hinner⟩, fun data hdata => by simp at hdata⟩
        · exact absurd rfl ((decode_text_final_length h.waits hfinal).2 decoded)

theorem text_feeds : Feeds chunk (Texting (B := B) chunk) where
  turned {this next} h hturn := by
    obtain ⟨-, -, ⟨inner, data, carryover, hinner, hchunk, rfl⟩ | ⟨inner, hinner, rfl⟩⟩ :=
      text_turn_cases hturn
    · exact ⟨(decode_text_chunk_length hchunk).1, h.chunks.next hinner⟩
    · exact ⟨h.waits, h.chunks.next hinner⟩
  polled h hturn hpoll := (texting_polled h hturn hpoll).1
  waits h := h.waits
  gives h hturn hpoll := (texting_polled h hturn hpoll).2 _ rfl

end Below

/-! ## The decoder -/

section Decoder

/-- The decoder of frames adds no byte, and a frame of data is what it cuts off. -/
theorem decode_keeps {direction : String} {buffer rest : Bytes} {finished saw : Bool}
    {result : IoResult (Option ParsedGrpcWebFrame)}
    (h : decode_grpc_web_frame direction buffer finished saw = (result, rest)) :
    rest.length ≤ buffer.length ∧
      ∀ data, result = .ok (some (.Data data)) → data.length + rest.length = buffer.length := by
  have hsame : ∀ {result' : IoResult (Option ParsedGrpcWebFrame)}, (∀ data, result' ≠ .ok (some (.Data data))) →
      decode_grpc_web_frame direction buffer finished saw = (result', buffer) →
      rest.length ≤ buffer.length ∧
        ∀ data, result = .ok (some (.Data data)) → data.length + rest.length = buffer.length := by
    intro result' hnone hdecode
    obtain ⟨rfl, rfl⟩ := Prod.mk.inj (h.symm.trans hdecode)
    exact ⟨Nat.le_refl _, fun data hdata => absurd hdata (hnone data)⟩
  cases saw with
  | true =>
    by_cases hnil : buffer = []
    · subst hnil
      exact hsame (fun data => by simp) (decode_empty direction finished true)
    · exact hsame (fun data => by simp) (decode_after_trailers direction finished hnil)
  | false =>
    rcases buffer_cases buffer with rfl | hshort | ⟨flags, payload, more, hlength, rfl⟩
    · exact hsame (fun data => by simp) (decode_empty direction finished false)
    · cases finished with
      | true =>
        obtain ⟨error, herror⟩ := (decode_unfinished hshort direction).2
        exact hsame (fun data => by simp) herror
      | false => exact hsame (fun data => by simp) (decode_unfinished hshort direction).1
    · rw [decode_lengthPrefixed _ _ _ hlength] at h
      have hmore : more.length ≤ (lengthPrefixed flags payload ++ more).length := by
        rw [List.length_append]
        omega
      split at h
      · obtain ⟨hresult, rfl⟩ := Prod.mk.inj h
        refine ⟨hmore, fun data hdata => ?_⟩
        rw [← hresult] at hdata
        cases hblock : decode_grpc_web_trailer_block payload <;> simp [hblock, Except.map] at hdata
      · obtain ⟨rfl, rfl⟩ := Prod.mk.inj h
        refine ⟨hmore, fun data hdata => ?_⟩
        simp only [Except.ok.injEq, Option.some.injEq, ParsedGrpcWebFrame.Data.injEq] at hdata
        rw [← hdata, List.length_append]

/-- A buffer that waits has no header yet, or awaits a frame. -/
theorem waiting_buffer {direction : String} {buffer : Bytes} {saw : Bool}
    (h : decode_grpc_web_frame direction buffer false saw = (.ok none, buffer)) :
    buffer.length ≤ 4 ∨
      ∃ len, awaited_frame buffer = some len ∧ buffer.length < len ∧ len < 2 ^ 32 + 5 := by
  match buffer, h with
  | flags :: a :: b :: c :: d :: payload, h =>
    have hlt := from_be_bytes_lt a b c d
    by_cases hshort : payload.length < from_be_bytes a b c d
    · refine .inr ⟨5 + from_be_bytes a b c d, if_pos hshort, ?_, ?_⟩
      · simp only [List.length_cons]
        omega
      · omega
    · -- the frame would be whole
      obtain ⟨first, rest, hlength, hbuffer⟩ := whole_of_length flags (Nat.le_of_not_lt hshort)
        (to_be_bytes_from a b c d) hlt
      rw [hbuffer] at h
      cases saw with
      | true => simp [decode_after_trailers, lengthPrefixed] at h
      | false =>
        rw [decode_lengthPrefixed direction false flags hlength rest] at h
        split at h
        · cases hblock : decode_grpc_web_trailer_block first <;> simp [hblock, Except.map] at h
        · simp at h
  | [], _ => exact .inl (by simp)
  | [_], _ => exact .inl (by simp)
  | [_, _], _ => exact .inl (by simp)
  | [_, _, _], _ => exact .inl (by simp)
  | [_, _, _, _], _ => exact .inl (by simp)

variable {L : Type} [Body L BodyFrame IoError] [Ends L BodyFrame IoError] [Turns L] [Buffers L]
  {limit room chunk : Nat} {P : L → Prop}

/-- Only a chunk of the layer below makes the buffer longer, and it found no whole frame there. -/
theorem buffer_grows {this next : GrpcWebRequestBody L} (hturn : turn this = some next)
    (hgrows : (buffer this).length < (buffer next).length) :
    (buffer this).length ≤ 4 ∨ ∃ len, awaited_frame (buffer this) = some len ∧
      (buffer this).length < len ∧ len < 2 ^ 32 + 5 := by
  cases decoder_turn_cases hturn with
  | trailers hdecode =>
    have hshorter := decode_shorter hdecode
    exact absurd hgrows (Nat.lt_asymm hshorter)
  | inner => exact absurd hgrows (Nat.lt_irrefl _)
  | data hdecode hreading =>
    rw [hreading] at hdecode
    exact waiting_buffer hdecode
  | finished => exact absurd hgrows (Nat.lt_irrefl _)

/-- What the decoder holds, beside what was given: never more than a chunk over the room that the
buffer had before it. -/
structure Holding (limit room chunk : Nat) (P : L → Prop) (given : Nat)
    (this : GrpcWebRequestBody L) : Prop where
  below : P this.inner
  bounded : given + this.buffer.length ≤ limit + room + (chunk + 3)

theorem holding_turned (hfeeds : Feeds chunk P) {given : Nat} {this next : GrpcWebRequestBody L}
    (h : Holding limit room chunk P given this) (hturn : turn this = some next)
    (hroom : (buffer this).length < (buffer next).length →
      given + (buffer this).length ≤ limit + room) : Holding limit room chunk P given next := by
  have hbounded := h.bounded
  cases decoder_turn_cases hturn with
  | trailers hdecode =>
    have hshorter := decode_shorter hdecode
    refine ⟨h.below, ?_⟩
    dsimp only
    omega
  | inner _ _ hinner => exact ⟨hfeeds.turned h.below hinner, hbounded⟩
  | @data data inner _ _ hinner hpoll =>
    refine ⟨hfeeds.polled h.below hinner hpoll, ?_⟩
    have hgives := hfeeds.gives h.below hinner hpoll
    change (this.buffer).length < (this.buffer ++ data).length →
      given + this.buffer.length ≤ limit + room at hroom
    rw [List.length_append] at hroom
    dsimp only
    rw [List.length_append]
    by_cases hdata : data.length = 0
    · omega
    · have hbefore := hroom (by omega)
      omega
  | finished _ _ hinner hpoll => exact ⟨hfeeds.polled h.below hinner hpoll, hbounded⟩

theorem holding_polled (hfeeds : Feeds chunk P) {before after : Nat}
    {this next : GrpcWebRequestBody L} {answer : Poll (Option (IoResult BodyFrame))}
    (h : Holding limit room chunk P before this) (hturn : turn this = none)
    (hpoll : Body.poll_frame this = (answer, next)) (hafter : after ≤ before + emitted (given answer)) :
    Holding limit room chunk P after next := by
  have hbounded := h.bounded
  have hnothing : emitted (given answer) = 0 → after ≤ before := by omega
  replace hturn : decoder_turn this = none := hturn
  unfold decoder_turn at hturn
  rcases hdecode : decode_grpc_web_request_frame this.buffer this.inner_finished
    this.saw_grpc_web_trailers with ⟨error | _ | ⟨data⟩ | ⟨trailers⟩, rest⟩
  · have hrest := (decode_keeps hdecode).1
    rw [GrpcWebRequestBody.poll_of_error hdecode] at hpoll
    obtain ⟨rfl, rfl⟩ := Prod.mk.inj hpoll
    have hle := hnothing rfl
    refine ⟨h.below, ?_⟩
    dsimp only
    omega
  · cases hfinished : this.inner_finished with
    | true =>
      rw [GrpcWebRequestBody.poll_of_finished hdecode hfinished] at hpoll
      cases htrailers : this.inner_trailers with
      | none =>
        rw [htrailers] at hpoll
        obtain ⟨rfl, rfl⟩ := Prod.mk.inj hpoll
        have hle := hnothing rfl
        exact ⟨h.below, by omega⟩
      | some trailers =>
        rw [htrailers] at hpoll
        obtain ⟨rfl, rfl⟩ := Prod.mk.inj hpoll
        have hle := hnothing rfl
        exact ⟨h.below, by dsimp only; omega⟩
    | false =>
      rw [GrpcWebRequestBody.poll_of_reading hdecode hfinished] at hpoll
      rw [hdecode] at hturn
      dsimp only at hturn
      rw [hfinished, if_neg Bool.false_ne_true] at hturn
      cases hinner : turn this.inner with
      | some inner =>
        rw [hinner] at hturn
        cases hturn
      | none =>
        rw [hinner] at hturn
        dsimp only at hturn
        rcases hanswer : Body.poll_frame this.inner with ⟨_ | _ | error | data | trailers, inner⟩
        · rw [hanswer] at hpoll
          obtain ⟨rfl, rfl⟩ := Prod.mk.inj hpoll
          have hle := hnothing rfl
          exact ⟨hfeeds.polled h.below hinner hanswer, by dsimp only; omega⟩
        · rw [hanswer] at hturn
          cases hturn
        · rw [hanswer] at hpoll
          obtain ⟨rfl, rfl⟩ := Prod.mk.inj hpoll
          have hle := hnothing rfl
          exact ⟨hfeeds.polled h.below hinner hanswer, by dsimp only; omega⟩
        · rw [hanswer] at hpoll hturn
          dsimp only at hpoll hturn
          split at hturn
          · rename_i hterminal
            rw [if_pos hterminal] at hpoll
            obtain ⟨rfl, rfl⟩ := Prod.mk.inj hpoll
            have hle := hnothing rfl
            exact ⟨hfeeds.polled h.below hinner hanswer, by dsimp only; omega⟩
          · cases hturn
        · rw [hanswer] at hturn
          cases hturn
  · have hcut := (decode_keeps hdecode).2 data rfl
    rw [GrpcWebRequestBody.poll_of_data hdecode] at hpoll
    obtain ⟨rfl, rfl⟩ := Prod.mk.inj hpoll
    have hdata : emitted (given (.Ready (some (.ok (.Data data))) : Poll (Option (IoResult BodyFrame)))) =
        data.length := by
      simp [emitted, given, data_of]
    refine ⟨h.below, ?_⟩
    dsimp only
    omega
  · have hrest := (decode_keeps hdecode).1
    rw [GrpcWebRequestBody.poll_of_trailers hdecode] at hpoll
    rw [hdecode] at hturn
    dsimp only at hturn
    split at hturn
    · cases hturn
    · rename_i hsome
      rw [if_neg hsome] at hpoll
      obtain ⟨rfl, rfl⟩ := Prod.mk.inj hpoll
      have hle := hnothing rfl
      refine ⟨h.below, ?_⟩
      dsimp only
      omega

end Decoder

/-! ## The limit -/

section Limit

variable {L : Type} [Body L BodyFrame IoError] [Turns L] [Buffers L]
  {limit bound chunk : Nat} {allowed : List BodyFrame → L → L → Prop} {P : Nat → L → Prop}

/-- A body under the limit that stays within a bound, as long as its turns are allowed. -/
structure Within (limit bound : Nat) (allowed : List BodyFrame → L → L → Prop)
    (P : Nat → L → Prop) : Prop where
  turned {frames : List BodyFrame} {this next : L} (h : P (emitted frames) this)
    (hlimit : emitted frames ≤ limit) (hturn : turn this = some next)
    (hallowed : allowed frames this next) : P (emitted frames) next
  polled {before after : Nat} {this next : L} {answer : Poll (Option (IoResult BodyFrame))}
    (h : P before this) (hturn : turn this = none) (hpoll : Body.poll_frame this = (answer, next))
    (hafter : after ≤ before + emitted (given answer)) : P after next
  holds {before : Nat} {this : L} (h : P before this) (hlimit : before ≤ limit) :
    before + held this ≤ bound

/-- What a run keeps of the limit and of the body under it. -/
structure Limited (limit : Nat) (P : Nat → L → Prop) (frames : List BodyFrame)
    (this : MaxBytesBody L) : Prop where
  max_request_body_bytes : this.max_request_body_bytes = limit
  bytes_read : this.bytes_read = emitted frames
  fits : emitted frames ≤ limit
  inner : P (emitted frames) this.inner

omit [Body L BodyFrame IoError] [Turns L] [Buffers L] in
/-- A poll that gives no data leaves the count as it was. -/
theorem Limited.quiet {frames more : List BodyFrame} {this next : MaxBytesBody L} {inner : L}
    (h : Limited limit P frames this) (hmore : data_of more = [])
    (hmax : next.max_request_body_bytes = this.max_request_body_bytes)
    (hread : next.bytes_read = this.bytes_read) (hnext : next.inner = inner)
    (hinner : P (emitted frames) inner) : Limited limit P (frames ++ more) next := by
  have hsame : emitted (frames ++ more) = emitted frames := by
    simp [emitted, data_of_append, hmore]
  subst hnext
  refine ⟨hmax.trans h.max_request_body_bytes, ?_, ?_, ?_⟩
  · rw [hread, h.bytes_read, hsame]
  · rw [hsame]
    exact h.fits
  · rw [hsame]
    exact hinner

theorem limited_polled (hwithin : Within limit bound allowed P) {frames : List BodyFrame}
    {this next : MaxBytesBody L} {answer : Poll (Option (Except BoxError BodyFrame))}
    (h : Limited limit P frames this) (hturn : turn this = none)
    (hpoll : Body.poll_frame this = (answer, next)) :
    Limited limit P (frames ++ given answer) next := by
  replace hpoll : this.poll_frame = (answer, next) := hpoll
  unfold MaxBytesBody.poll_frame at hpoll
  by_cases hdone : this.done
  · rw [if_pos hdone] at hpoll
    obtain ⟨rfl, rfl⟩ := Prod.mk.inj hpoll
    exact h.quiet rfl rfl rfl rfl h.inner
  · rw [if_neg hdone] at hpoll
    replace hturn : (if this.done then none
      else (turn this.inner).map fun inner => { this with inner }) = none := hturn
    rw [if_neg hdone, Option.map_eq_none_iff] at hturn
    rcases hanswer : Body.poll_frame this.inner with ⟨inner_answer, inner⟩
    -- where nothing is given up, the layer below gave that or more
    have hnext : P (emitted frames) inner :=
      hwithin.polled h.inner hturn hanswer (Nat.le_add_right _ _)
    rw [hanswer] at hpoll
    match inner_answer, hanswer, hpoll with
    | .Pending, _, hpoll =>
      obtain ⟨rfl, rfl⟩ := Prod.mk.inj hpoll
      exact h.quiet rfl rfl rfl rfl hnext
    | .Ready none, _, hpoll =>
      obtain ⟨rfl, rfl⟩ := Prod.mk.inj hpoll
      exact h.quiet rfl rfl rfl rfl hnext
    | .Ready (some (.error error)), _, hpoll =>
      obtain ⟨rfl, rfl⟩ := Prod.mk.inj hpoll
      exact h.quiet rfl rfl rfl rfl hnext
    | .Ready (some (.ok (.Trailers trailers))), _, hpoll =>
      obtain ⟨rfl, rfl⟩ := Prod.mk.inj hpoll
      exact h.quiet rfl rfl rfl rfl hnext
    | .Ready (some (.ok (.Data data))), hanswer, hpoll =>
      dsimp only at hpoll
      split at hpoll
      · obtain ⟨rfl, rfl⟩ := Prod.mk.inj hpoll
        exact h.quiet rfl rfl rfl rfl hnext
      · rename_i hroom
        obtain ⟨rfl, rfl⟩ := Prod.mk.inj hpoll
        have hmax := h.max_request_body_bytes
        have hread := h.bytes_read
        have hfits := h.fits
        have hadds : emitted (frames ++ [.Data data]) = emitted frames + data.length := by
          rw [emitted_append]
          simp [emitted, data_of]
        refine ⟨hmax, ?_, ?_, ?_⟩
        · rw [given, hadds]
          dsimp only
          omega
        · rw [given, hadds]
          omega
        · rw [given]
          apply hwithin.polled h.inner hturn hanswer
          rw [emitted_append]
          rfl

theorem limited_run (hwithin : Within limit bound allowed P) {inner : L} (hinner : P 0 inner)
    {frames : List BodyFrame} {this : MaxBytesBody L}
    (h : Run (fun frames this next => allowed frames this.inner next.inner)
      (MaxBytesBody.new inner limit) frames this) : Limited limit P frames this := by
  induction h with
  | begun => exact ⟨rfl, rfl, Nat.zero_le _, hinner⟩
  | @turned frames this next _ hturn hallowed ih =>
    replace hturn : (if this.done then none
      else (turn this.inner).map fun inner => { this with inner }) = some next := hturn
    split at hturn
    · cases hturn
    · obtain ⟨inner, hinner, rfl⟩ := Option.map_eq_some_iff.mp hturn
      exact ⟨ih.max_request_body_bytes, ih.bytes_read, ih.fits,
        hwithin.turned ih.inner ih.fits hinner hallowed⟩
  | polled _ hturn hpoll ih => exact limited_polled hwithin ih hturn hpoll

omit [Turns L] [Buffers L] in
/-- The limit error comes exactly where the data would be more than the limit. -/
theorem limit_error_iff {frames : List BodyFrame} {this : MaxBytesBody L}
    (h : Limited limit P frames this) :
    (Body.poll_frame this).1 = .Ready (some (.error (.RequestBodyLimit limit))) ↔
      this.done = false ∧ ∃ data, (Body.poll_frame this.inner).1 = .Ready (some (.ok (.Data data))) ∧
        limit < emitted frames + data.length := by
  obtain ⟨hmax, hread, hfits, -⟩ := h
  show (this.poll_frame).1 = _ ↔ _
  unfold MaxBytesBody.poll_frame
  by_cases hdone : this.done
  · rw [if_pos hdone]
    simp [hdone]
  · rw [if_neg hdone]
    rcases hanswer : Body.poll_frame this.inner with ⟨_ | _ | error | data | trailers, inner⟩
    · simp
    · simp
    · simp
    · dsimp only
      split
      · rename_i hover
        simp only [hmax, true_iff]
        exact ⟨Bool.eq_false_iff.mpr hdone, data, rfl, by omega⟩
      · rename_i hroom
        simp only [Poll.Ready.injEq, Option.some.injEq, reduceCtorEq, false_iff]
        rintro ⟨-, _, hdata, hover⟩
        obtain rfl := BodyFrame.Data.inj (Except.ok.inj hdata)
        omega
    · simp

end Limit

/-! ## A request body -/

section Requests

variable {L : Type} [Body L BodyFrame IoError] [Ends L BodyFrame IoError] [Turns L] [Buffers L]
  {limit room chunk : Nat}

/-- Whoever leaves the decoder this much room bounds it. -/
theorem decoder_within {P : L → Prop}
    {allowed : List BodyFrame → GrpcWebRequestBody L → GrpcWebRequestBody L → Prop}
    (hfeeds : Feeds chunk P)
    (hroom : ∀ {frames this next}, turn this = some next → allowed frames this next →
      emitted frames ≤ limit → (buffer this).length < (buffer next).length →
      emitted frames + (buffer this).length ≤ limit + room) :
    Within limit (limit + room + chunk + 6) allowed (Holding limit room chunk P) where
  turned h hlimit hturn hallowed := holding_turned hfeeds h hturn (hroom hturn hallowed hlimit)
  polled h hturn hpoll hafter := holding_polled hfeeds h hturn hpoll hafter
  holds {before this} h _ := by
    have hbounded : before + (buffer this).length ≤ limit + room + (chunk + 3) := h.bounded
    have hwaits : (carryover this).length ≤ 3 := hfeeds.waits h.below
    rw [held]
    omega

theorem fits_room {frames : List BodyFrame} {this next : GrpcWebRequestBody L}
    (hturn : turn this = some next) (hallowed : Fits limit frames this next)
    (hlimit : emitted frames ≤ limit) (hgrows : (buffer this).length < (buffer next).length) :
    emitted frames + (buffer this).length ≤ limit + 4 := by
  rcases buffer_grows hturn hgrows with hheader | ⟨len, hlen, hwaits, -⟩
  · omega
  · have hfits := hallowed hgrows len hlen
    omega

theorem any_room {frames : List BodyFrame} {this next : GrpcWebRequestBody L}
    (hturn : turn this = some next) (hlimit : emitted frames ≤ limit)
    (hgrows : (buffer this).length < (buffer next).length) :
    emitted frames + (buffer this).length ≤ limit + (2 ^ 32 + 4) := by
  rcases buffer_grows hturn hgrows with hheader | ⟨len, -, hwaits, hmost⟩ <;> omega

theorem idle_within {B : Type} [Body B BodyFrame IoError] (bound : Nat)
    (allowed : List BodyFrame → IdleTimeoutBody B → IdleTimeoutBody B → Prop) :
    Within limit (limit + bound) allowed
      (fun _ (this : IdleTimeoutBody B) => ChunksUpTo chunk this) where
  turned _ _ hturn := nomatch hturn
  polled h _ hpoll _ := h.next hpoll
  holds _ hlimit := Nat.le_add_right_of_le hlimit

variable {B : Type} [Body B BodyFrame IoError] [Ends B BodyFrame IoError]

/-- In every mode, the layers under the limit stay within these bounds. -/
theorem decoded_within {body : IdleTimeoutBody B} (hchunks : ChunksUpTo chunk body)
    (mode : Option GrpcWebEncoding) :
    (∃ P : Nat → DecodedBody B mode → Prop, P 0 (DecodedBody.new body mode) ∧
        Within limit (limit + 4 + chunk + 6) (Fits limit) P) ∧
      ∃ P : Nat → DecodedBody B mode → Prop, P 0 (DecodedBody.new body mode) ∧
        Within limit (limit + (2 ^ 32 + 4) + chunk + 6) anything P := by
  have hempty : ∀ room, 0 + 0 ≤ limit + room + (chunk + 3) := fun _ => Nat.zero_le _
  match mode with
  | none =>
    refine ⟨⟨fun _ this => ChunksUpTo chunk (B := IdleTimeoutBody B) this, hchunks, ?_⟩,
      ⟨fun _ this => ChunksUpTo chunk (B := IdleTimeoutBody B) this, hchunks, ?_⟩⟩
    · rw [Nat.add_assoc, Nat.add_assoc]
      exact idle_within _ (Fits limit)
    · rw [Nat.add_assoc, Nat.add_assoc]
      exact idle_within _ anything
  | some .Binary =>
    exact ⟨⟨_, ⟨hchunks, hempty 4⟩, decoder_within idle_feeds fits_room⟩,
      ⟨_, ⟨hchunks, hempty _⟩, decoder_within idle_feeds fun hturn _ => any_room hturn⟩⟩
  | some .Text =>
    have htexting : Texting chunk (GrpcWebTextDecodeBody.new body) := ⟨Nat.zero_le _, hchunks⟩
    exact ⟨⟨_, ⟨htexting, hempty 4⟩, decoder_within text_feeds fits_room⟩,
      ⟨_, ⟨htexting, hempty _⟩, decoder_within text_feeds fun hturn _ => any_room hturn⟩⟩

/-- At any moment of a run the limit error comes exactly where the data would be more than the
limit, and what is held is bounded by the longest frame. -/
theorem limited_moment {mode : Option GrpcWebEncoding} {limit body_timeout : Nat} {label : String}
    {expired : List Bool} {body : B} {chunk : Nat} (hchunks : ChunksUpTo chunk body)
    {frames : List BodyFrame} {this : MaxBytesBody (DecodedBody B mode)}
    (h : Run anything (limited mode limit body_timeout label expired body) frames this) :
    ((Body.poll_frame this).1 = .Ready (some (.error (.RequestBodyLimit limit))) ↔
      this.done = false ∧ ∃ data,
        (Body.poll_frame this.inner).1 = .Ready (some (.ok (.Data data))) ∧
          limit < emitted frames + data.length) ∧
    emitted frames + held this ≤ limit + chunk + (2 ^ 32 + 10) := by
  have hidle : ChunksUpTo chunk (IdleTimeoutBody.new body body_timeout label expired) :=
    chunks_idle hchunks
  obtain ⟨-, Q, hQ, hany⟩ := decoded_within hidle mode
  have hlimited := limited_run hany hQ h
  have hholds : emitted frames + held this.inner ≤ _ := hany.holds hlimited.inner hlimited.fits
  refine ⟨limit_error_iff hlimited, ?_⟩
  show emitted frames + held this.inner ≤ _
  omega

/-- As long as no frame that a client announces is longer than what is left of the limit, what was
given up and what is held are at most the limit, one chunk and ten bytes, at every moment of every
run. Whatever a client announces, the limit error comes exactly where the data would be more than
the limit; but what is held is only bounded by the longest frame. -/
theorem request_body_memory (mode : Option GrpcWebEncoding) (limit body_timeout : Nat)
    (label : String) (expired : List Bool) (body : B) {chunk : Nat}
    (hchunks : ChunksUpTo chunk body) :
    (∀ frames this, Run (Fits limit) (limited mode limit body_timeout label expired body)
        frames this → emitted frames + held this ≤ limit + chunk + 10) ∧
      ∀ frames this, Run anything (limited mode limit body_timeout label expired body)
        frames this →
        ((Body.poll_frame this).1 = .Ready (some (.error (.RequestBodyLimit limit))) ↔
          this.done = false ∧ ∃ data,
            (Body.poll_frame this.inner).1 = .Ready (some (.ok (.Data data))) ∧
              limit < emitted frames + data.length) ∧
        emitted frames + held this ≤ limit + chunk + (2 ^ 32 + 10) := by
  have hidle : ChunksUpTo chunk (IdleTimeoutBody.new body body_timeout label expired) :=
    chunks_idle hchunks
  obtain ⟨⟨P, hP, hwithin⟩, -⟩ := decoded_within hidle mode
  refine ⟨fun frames this h => ?_, fun frames this h => limited_moment hchunks h⟩
  have hlimited := limited_run hwithin hP h
  have hholds : emitted frames + held this.inner ≤ _ := hwithin.holds hlimited.inner hlimited.fits
  show emitted frames + held this.inner ≤ _
  omega

theorem chunks_of_polls {answers : List (Poll (Except IoError BodyFrame))} {chunk : Nat}
    (h : ∀ data, .Ready (.ok (.Data data)) ∈ answers → data.length ≤ chunk) :
    ChunksUpTo chunk (Polls.mk answers) := by
  intro count data hdata
  induction count generalizing answers with
  | zero => cases hdata
  | succ count ih =>
    rw [polled_bodies.answers, List.mem_cons] at hdata
    cases answers with
    | nil =>
      rcases hdata with hfirst | hmore
      · cases hfirst
      · exact ih h hmore
    | cons first answers =>
      have hrest : ∀ data, .Ready (.ok (.Data data)) ∈ answers → data.length ≤ chunk :=
        fun data hdata => h data (List.mem_cons_of_mem _ hdata)
      rcases hdata with hfirst | hmore
      · cases first with
        | Pending => cases hfirst
        | Ready answer =>
          apply h data
          rw [← Option.some.inj (Poll.Ready.inj hfirst)]
          exact List.mem_cons_self
      · cases first with
        | Pending => exact ih hrest hmore
        | Ready answer => exact ih hrest hmore

/-- A binary body under the limit, with a buffer and with the chunks that the client still
sends. -/
def awaiting (limit : Nat) (buffer : Bytes) (chunks : List Bytes) :
    MaxBytesBody (DecodedBody (Polls BodyFrame IoError) (some .Binary)) :=
  MaxBytesBody.new (⟨IdleTimeoutBody.new ⟨chunks.map fun data => .Ready (.ok (.Data data))⟩ 30000
    "request body" [], false, none, buffer, false⟩ : GrpcWebRequestBody (IdleTimeoutBody _)) limit

/-- The start of a header, which fits. -/
theorem request_body_memory_header : emitted [] + held (awaiting 8 [0, 0, 0] [[0, 1, 7]]) ≤ 8 + 3 + 10 :=
  (request_body_memory (some .Binary) 8 30000 "request body" []
    (Polls.mk [.Ready (.ok (.Data [0, 0, 0])), .Ready (.ok (.Data [0, 1, 7]))])
    (chunks_of_polls (by simp))).1 _ _ (.turned .begun rfl fun _ len hlen => by cases hlen)

/-- Between any two polls it is such a moment. -/
theorem request_body_between_polls (mode : Option GrpcWebEncoding) (limit body_timeout : Nat)
    (label : String) (expired : List Bool) (body : B) {chunk : Nat}
    (hchunks : ChunksUpTo chunk body) (count : Nat) :
    let start := limited mode limit body_timeout label expired body
    let frames := (polled_bodies.answers count start).flatMap given
    let this := after_polls count start
    ((Body.poll_frame this).1 = .Ready (some (.error (.RequestBodyLimit limit))) ↔
      this.done = false ∧ ∃ data,
        (Body.poll_frame this.inner).1 = .Ready (some (.ok (.Data data))) ∧
          limit < emitted frames + data.length) ∧
    emitted frames + held this ≤ limit + chunk + (2 ^ 32 + 10) :=
  limited_moment hchunks (run_after_polls count .begun)

/-- A buffer that awaits a frame takes the next chunk, however long the frame. -/
theorem takes_chunk (limit : Nat) {data buffer : Bytes} (chunks : List Bytes)
    (h : decode_grpc_web_request_frame buffer false false = (.ok none, buffer)) :
    turn (awaiting limit buffer (data :: chunks)) = some (awaiting limit (buffer ++ data) chunks) := by
  have hturn : ∀ inner : IdleTimeoutBody (Polls BodyFrame IoError),
      (∃ next, Body.poll_frame inner = (.Ready (some (.ok (.Data data))), next) ∧
        next = IdleTimeoutBody.new ⟨chunks.map fun data => .Ready (.ok (.Data data))⟩ 30000
          "request body" []) →
      decoder_turn ⟨inner, false, none, buffer, false⟩ = some ⟨IdleTimeoutBody.new
        ⟨chunks.map fun data => .Ready (.ok (.Data data))⟩ 30000 "request body" [], false, none,
        buffer ++ data, false⟩ := by
    rintro inner ⟨next, hinner, rfl⟩
    have hnone : turn inner = none := rfl
    unfold decoder_turn
    dsimp only
    rw [h]
    dsimp only
    rw [if_neg Bool.false_ne_true, hnone]
    dsimp only
    rw [hinner]
    dsimp only
    rw [if_neg fun hterminal => Bool.false_ne_true hterminal.1]
  exact congrArg (Option.map _) (hturn _ ⟨_, rfl, rfl⟩)

/-- A client that announces a frame of four gigabytes has its chunks held far over the limit. -/
theorem announced_frame_is_held :
    ¬ ∃ constant < 2 ^ 30, ∀ (mode : Option GrpcWebEncoding) (limit body_timeout : Nat)
      (label : String) (expired : List Bool) (body : Polls BodyFrame IoError) (chunk : Nat),
      ChunksUpTo chunk body → ∀ frames this,
        Run anything (limited mode limit body_timeout label expired body) frames this →
        emitted frames + held this ≤ limit + chunk + constant := by
  rintro ⟨constant, hsmall, hbound⟩
  obtain ⟨first, hfirst⟩ : ∃ first : Bytes, first =
    0 :: 255 :: 255 :: 255 :: 255 :: List.replicate (constant + 1095) 0 := ⟨_, rfl⟩
  obtain ⟨second, hsecond⟩ : ∃ second : Bytes, second = List.replicate (constant + 1100) 0 :=
    ⟨_, rfl⟩
  have hlengths : first.length = constant + 1100 ∧ second.length = constant + 1100 := by
    simp [hfirst, hsecond]
  have hwaits : decode_grpc_web_request_frame first false false = (.ok none, first) := by
    have hshort : (List.replicate (constant + 1095) (0 : UInt8)).length <
        from_be_bytes 255 255 255 255 := by
      have hlen : from_be_bytes 255 255 255 255 = 4294967295 := rfl
      rw [List.length_replicate, hlen]
      omega
    rw [hfirst]
    unfold decode_grpc_web_request_frame decode_grpc_web_frame
    rw [if_neg (List.cons_ne_nil _ _), if_neg Bool.false_ne_true]
    dsimp only
    rw [if_pos hshort, if_neg Bool.false_ne_true]
  have hrun : Run anything (awaiting 1024 [] [first, second]) []
      (awaiting 1024 (first ++ second) []) :=
    .turned (.turned .begun (takes_chunk 1024 [second] rfl) trivial) (takes_chunk 1024 [] hwaits)
      trivial
  have hheld := hbound (some .Binary) 1024 30000 "request body" []
    (Polls.mk [.Ready (.ok (.Data first)), .Ready (.ok (.Data second))]) (constant + 1100)
    (chunks_of_polls (by simp [hlengths])) _ _ hrun
  have hfull : emitted [] + held (awaiting 1024 (first ++ second) []) = (first ++ second).length :=
    Nat.zero_add _
  rw [hfull, List.length_append] at hheld
  omega

end Requests

end rginx.proxy
