-- The body of a grpc-web response, from `proxy/grpc_web/body/response.rs`, and the observer that
-- reads it for the access log (`handler/grpc/grpc_web.rs`, `observability.rs`): trailers
-- become a last frame of data, and the observer finds the status in it again.
import Rginx.GrpcWebTexts
import Rginx.GrpcWebTrailers

open rust_text rginx.cache polled_bodies

namespace rginx.grpc_web

/-! ## The body -/

structure GrpcWebResponseBody (B : Type) where
  inner : B
  pending_frame : Option Bytes
  fallback_trailers : Option HeaderMap
  inner_finished : Bool

def GrpcWebResponseBody.new {B : Type} (inner : B) (fallback_trailers : Option HeaderMap) :
    GrpcWebResponseBody B :=
  ⟨inner, none, fallback_trailers, false⟩

variable {B : Type} [Body B BodyFrame IoError]

namespace GrpcWebResponseBody

def progress (this : GrpcWebResponseBody B) : Nat × B × Nat :=
  remaining this.inner_finished this.inner this.pending_frame.toList.length

def poll_frame [Ends B BodyFrame IoError] (this : GrpcWebResponseBody B) :
    Poll (Option (IoResult BodyFrame)) × GrpcWebResponseBody B :=
  match this.pending_frame with
  | some frame => (.Ready (some (.ok (.Data frame))), { this with pending_frame := none })
  | none =>
    if _hfinished : this.inner_finished = true then (.Ready none, this)
    else
      match _hpoll : Body.poll_frame this.inner with
      | (.Ready (some (.ok (.Data data))), inner) =>
        (.Ready (some (.ok (.Data data))), { this with inner })
      | (.Ready (some (.ok (.Trailers trailers))), inner) =>
        poll_frame { this with
          inner, fallback_trailers := none, pending_frame := some (encode_grpc_web_trailers trailers) }
      | (.Ready (some (.error error)), inner) =>
        (.Ready (some (.error error)), { this with inner, inner_finished := true })
      | (.Ready none, inner) =>
        let finished := { this with inner, fallback_trailers := none, inner_finished := true }
        match this.fallback_trailers with
        | some trailers =>
          if trailers ≠ [] then
            poll_frame { finished with pending_frame := some (encode_grpc_web_trailers trailers) }
          else (.Ready none, finished)
        | none => (.Ready none, finished)
      | (.Pending, inner) => (.Pending, { this with inner })
termination_by this.progress
decreasing_by
  · exact nearer_of_after _ (.frame _hpoll)
  · exact nearer_of_finishing (Bool.eq_false_iff.mpr _hfinished) rfl

variable [Ends B BodyFrame IoError]

instance : Body (GrpcWebResponseBody B) BodyFrame IoError := ⟨poll_frame⟩

variable {this : GrpcWebResponseBody B}

theorem poll_of_pending_frame {frame : Bytes} (h : this.pending_frame = some frame) :
    Body.poll_frame this =
      (.Ready (some (.ok (.Data frame))), { this with pending_frame := none }) := by
  show this.poll_frame = _
  rw [poll_frame]
  split <;> simp_all

theorem poll_of_finished (h : this.pending_frame = none) (hfinished : this.inner_finished = true) :
    Body.poll_frame this = (.Ready none, this) := by
  show this.poll_frame = _
  rw [poll_frame]
  split
  · simp_all
  · rw [dif_pos hfinished]

theorem poll_of_reading (h : this.pending_frame = none) (hreading : this.inner_finished = false) :
    Body.poll_frame this = match Body.poll_frame this.inner with
      | (.Ready (some (.ok (.Data data))), inner) =>
        (.Ready (some (.ok (.Data data))), { this with inner })
      | (.Ready (some (.ok (.Trailers trailers))), inner) =>
        Body.poll_frame { this with
          inner, fallback_trailers := none, pending_frame := some (encode_grpc_web_trailers trailers) }
      | (.Ready (some (.error error)), inner) =>
        (.Ready (some (.error error)), { this with inner, inner_finished := true })
      | (.Ready none, inner) =>
        let finished := { this with inner, fallback_trailers := none, inner_finished := true }
        match this.fallback_trailers with
        | some trailers =>
          if trailers ≠ [] then
            Body.poll_frame
              { finished with pending_frame := some (encode_grpc_web_trailers trailers) }
          else (.Ready none, finished)
        | none => (.Ready none, finished)
      | (.Pending, inner) => (.Pending, { this with inner }) := by
  show this.poll_frame = _
  rw [poll_frame]
  split
  · simp_all
  · rw [dif_neg (by simp [hreading])]
    split <;> simp_all <;> rfl

instance : Ends (GrpcWebResponseBody B) BodyFrame IoError where
  ends := by
    refine after_wellFounded (InvImage.wf progress nearer_wellFounded) fun this => ?_
    cases hpending : this.pending_frame with
    | some frame =>
      right
      intro next hnext
      rw [next_of_after hnext (poll_of_pending_frame hpending)]
      exact nearer_of_less _ _ (by simp [hpending])
    | none =>
      cases hfinished : this.inner_finished with
      | true =>
        right
        intro next hnext
        rcases hnext with h | h <;> simp [poll_of_finished hpending hfinished] at h
      | false =>
        have hpoll := poll_of_reading hpending hfinished
        rcases hinner : Body.poll_frame this.inner with ⟨_ | _ | error | data | trailers, inner⟩
        · right
          intro next hnext
          rw [hinner] at hpoll
          rw [next_of_after hnext hpoll]
          exact nearer_of_after _ (.pending hinner)
        · rw [hinner] at hpoll
          dsimp only at hpoll
          cases hfallback : this.fallback_trailers with
          | none =>
            right
            intro next hnext
            rw [hfallback] at hpoll
            rcases hnext with h | h <;> simp [hpoll] at h
          | some trailers =>
            rw [hfallback] at hpoll
            dsimp only at hpoll
            split at hpoll
            · left
              exact ⟨_, nearer_of_finishing hfinished rfl, hpoll⟩
            · right
              intro next hnext
              rcases hnext with h | h <;> simp [hpoll] at h
        · right
          intro next hnext
          rw [hinner] at hpoll
          rcases hnext with h | h <;> simp [hpoll] at h
        · right
          intro next hnext
          rw [hinner] at hpoll
          rw [next_of_after hnext hpoll]
          exact nearer_of_after _ (.frame hinner)
        · left
          rw [hinner] at hpoll
          refine ⟨_, ?_, hpoll⟩
          exact nearer_of_after _ (.frame hinner)

end GrpcWebResponseBody

/-- The trailers that end a response: those of the upstream, or the ones in its headers where the
upstream ended without any. -/
def trailer_frame (trailers fallback_trailers : Option HeaderMap) (error : Option IoError) :
    Option HeaderMap :=
  match trailers, error with
  | some trailers, _ => some trailers
  | none, none => fallback_trailers.filter (· ≠ [])
  | none, some _ => none

namespace GrpcWebResponseBody

variable [Ends B BodyFrame IoError]

theorem drain_finished (inner : B) (fallback_trailers : Option HeaderMap) :
    drain (GrpcWebResponseBody.mk inner none fallback_trailers true) = ([], none) :=
  drain_of_end (@poll_of_finished B _ _ ⟨inner, none, fallback_trailers, true⟩ rfl rfl)

/-- A frame that waits comes first. -/
theorem drain_pending (inner : B) (frame : Bytes) (fallback_trailers : Option HeaderMap)
    (finished : Bool) :
    drain (GrpcWebResponseBody.mk inner (some frame) fallback_trailers finished) =
      (.Data frame :: (drain (GrpcWebResponseBody.mk inner none fallback_trailers finished)).1,
        (drain (GrpcWebResponseBody.mk inner none fallback_trailers finished)).2) :=
  drain_of_frame
    (@poll_of_pending_frame B _ _ ⟨inner, some frame, fallback_trailers, finished⟩ _ rfl)

/-- A body that has no more frames leaves only its end, or its error. -/
theorem drain_over {inner : B} {error : Option IoError} (h : drain inner = ([], error)) :
    drain (GrpcWebResponseBody.mk inner none none false) = ([], error) := by
  induction inner using poll_induction with
  | step inner ih =>
    have hpoll := @poll_of_reading B _ _ ⟨inner, none, none, false⟩ rfl rfl
    rcases hinner : Body.poll_frame inner with ⟨_ | _ | error | frame, next⟩
    · rw [hinner] at hpoll
      rw [drain_of_pending hinner] at h
      rw [drain_of_pending hpoll]
      exact ih next (.pending hinner) h
    · rw [hinner] at hpoll
      rw [drain_of_end hinner] at h
      rw [drain_of_end hpoll, h]
    · rw [hinner] at hpoll
      rw [drain_of_error hinner] at h
      rw [drain_of_error hpoll, h]
    · rw [drain_of_frame hinner] at h
      cases (Prod.mk.inj h).1

/-- The data of the upstream as they are, and after them one frame of trailers at most. -/
theorem responds (inner : B) (fallback_trailers : Option HeaderMap) :
    ∀ {chunks : List Bytes} {trailers : Option HeaderMap} {error : Option IoError},
      drain inner = (supplied chunks trailers, error) →
      drain (GrpcWebResponseBody.new inner fallback_trailers) =
        ((chunks ++ (trailer_frame trailers fallback_trailers error).toList.map
          encode_grpc_web_trailers).map .Data, error) := by
  induction inner using poll_induction with
  | step inner ih =>
    intro chunks trailers error h
    have hpoll := @poll_of_reading B _ _ ⟨inner, none, fallback_trailers, false⟩ rfl rfl
    rcases hinner : Body.poll_frame inner with ⟨_ | _ | error' | frame, next⟩
    · rw [hinner] at hpoll
      rw [drain_of_pending hinner] at h
      rw [GrpcWebResponseBody.new, drain_of_pending hpoll]
      exact ih next (.pending hinner) h
    · rw [hinner] at hpoll
      rw [drain_of_end hinner] at h
      obtain ⟨hframes, rfl⟩ := Prod.mk.inj h
      obtain ⟨rfl, rfl⟩ := eq_nil_of_supplied hframes.symm
      dsimp only at hpoll
      rw [GrpcWebResponseBody.new]
      cases fallback_trailers with
      | none =>
        rw [drain_of_end hpoll]
        rfl
      | some trailers =>
        dsimp only at hpoll
        by_cases hempty : trailers = []
        · rw [if_neg (not_not.mpr hempty)] at hpoll
          rw [drain_of_end hpoll]
          simp [trailer_frame, hempty]
        · rw [if_pos hempty] at hpoll
          rw [drain_congr hpoll, drain_pending, drain_finished]
          simp [trailer_frame, Option.filter, hempty]
    · rw [hinner] at hpoll
      rw [drain_of_error hinner] at h
      obtain ⟨hframes, rfl⟩ := Prod.mk.inj h
      obtain ⟨rfl, rfl⟩ := eq_nil_of_supplied hframes.symm
      rw [GrpcWebResponseBody.new, drain_of_error hpoll]
      rfl
    · rw [drain_of_frame hinner] at h
      obtain ⟨hframes, hrest⟩ := Prod.mk.inj h
      rw [hinner] at hpoll
      cases chunks with
      | cons data chunks =>
        obtain ⟨rfl, hmore⟩ := List.cons.inj hframes
        rw [GrpcWebResponseBody.new, drain_of_frame hpoll]
        have hnext := ih next (.frame hinner) (Prod.ext hmore hrest)
        rw [GrpcWebResponseBody.new] at hnext
        rw [hnext]
        rfl
      | nil =>
        cases trailers with
        | none => cases hframes
        | some trailers =>
          obtain ⟨rfl, hmore⟩ := List.cons.inj hframes
          rw [GrpcWebResponseBody.new, drain_congr hpoll, drain_pending,
            drain_over (Prod.ext hmore hrest)]
          rfl

end GrpcWebResponseBody

/-! ## The observer -/

/-- The trimmed text of the first value of a name. -/
def header_value (headers : HeaderMap) (name : HeaderName) : Option Text :=
  ((headers.get name).bind HeaderValue.to_str).map trim

structure GrpcObservability where
  status : Option Text
  message : Option Text

def GrpcObservability.update_from_headers (this : GrpcObservability) (headers : HeaderMap) :
    GrpcObservability where
  status := (header_value headers GRPC_STATUS).or this.status
  message := (header_value headers GRPC_MESSAGE).or this.message

structure GrpcWebObservabilityParser where
  is_text : Bool
  encoded_carryover : Bytes
  buffer : Bytes
  saw_trailers : Bool
  disabled : Bool

namespace GrpcWebObservabilityParser

def for_protocol (protocol : String) : Option GrpcWebObservabilityParser :=
  if protocol = "grpc-web" then some ⟨false, [], [], false, false⟩
  else if protocol = "grpc-web-text" then some ⟨true, [], [], false, false⟩
  else none

/-- The frames in the buffer, one after the other. -/
def observe_frames (this : GrpcWebObservabilityParser) (inner_finished : Bool)
    (grpc : GrpcObservability) :
    IoResult Unit × GrpcWebObservabilityParser × GrpcObservability :=
  match _h : decode_grpc_web_observability_frame this.buffer inner_finished this.saw_trailers with
  | (.error error, buffer) => (.error error, { this with buffer }, grpc)
  | (.ok none, buffer) => (.ok (), { this with buffer }, grpc)
  | (.ok (some (.Data _)), buffer) => observe_frames { this with buffer } inner_finished grpc
  | (.ok (some (.Trailers trailers)), buffer) =>
    observe_frames { this with buffer, saw_trailers := true } inner_finished
      (grpc.update_from_headers trailers)
termination_by this.buffer.length
decreasing_by
  · exact decode_shorter _h
  · exact decode_shorter _h

def observe_binary_chunk (this : GrpcWebObservabilityParser) (data : Bytes) (inner_finished : Bool)
    (grpc : GrpcObservability) : IoResult Unit × GrpcWebObservabilityParser × GrpcObservability :=
  observe_frames { this with buffer := this.buffer ++ data } inner_finished grpc

/-- An error ends the observation. -/
def disable : IoResult Unit × GrpcWebObservabilityParser × GrpcObservability →
    GrpcWebObservabilityParser × GrpcObservability
  | (.ok (), this, grpc) => (this, grpc)
  | (.error _, this, grpc) => ({ this with disabled := true }, grpc)

def observe_chunk (this : GrpcWebObservabilityParser) (data : Bytes) (grpc : GrpcObservability) :
    GrpcWebObservabilityParser × GrpcObservability :=
  if this.disabled then (this, grpc)
  else if this.is_text then
    let (result, encoded_carryover) :=
      decode_grpc_web_text_observability_chunk this.encoded_carryover data
    let this := { this with encoded_carryover }
    match result with
    | .error error => disable (.error error, this, grpc)
    | .ok none => (this, grpc)
    | .ok (some decoded) => disable (this.observe_binary_chunk decoded false grpc)
  else disable (this.observe_binary_chunk data false grpc)

def finish (this : GrpcWebObservabilityParser) (grpc : GrpcObservability) :
    GrpcWebObservabilityParser × GrpcObservability :=
  if this.disabled then (this, grpc)
  else if this.is_text then
    let (result, encoded_carryover) :=
      decode_grpc_web_text_observability_final this.encoded_carryover
    let this := { this with encoded_carryover }
    match result with
    | .error error => disable (.error error, this, grpc)
    | .ok decoded => disable (this.observe_binary_chunk (decoded.getD []) true grpc)
  else disable (this.observe_binary_chunk [] true grpc)

/-- The chunks of a response, and its end. -/
def observe (this : GrpcWebObservabilityParser) (grpc : GrpcObservability) :
    List Bytes → GrpcObservability
  | [] => (this.finish grpc).2
  | data :: chunks =>
    let (this, grpc) := this.observe_chunk data grpc
    this.observe grpc chunks

/-! ### What is observed -/

variable {this : GrpcWebObservabilityParser} {grpc : GrpcObservability} {buffer : Bytes}
  {inner_finished : Bool}

theorem observe_of_none
    (h : decode_grpc_web_observability_frame this.buffer inner_finished this.saw_trailers =
      (.ok none, buffer)) :
    this.observe_frames inner_finished grpc = (.ok (), { this with buffer }, grpc) := by
  rw [observe_frames]
  split <;> simp_all

theorem observe_of_error {error : IoError}
    (h : decode_grpc_web_observability_frame this.buffer inner_finished this.saw_trailers =
      (.error error, buffer)) :
    this.observe_frames inner_finished grpc = (.error error, { this with buffer }, grpc) := by
  rw [observe_frames]
  split <;> simp_all

theorem observe_of_data {data : Bytes}
    (h : decode_grpc_web_observability_frame this.buffer inner_finished this.saw_trailers =
      (.ok (some (.Data data)), buffer)) :
    this.observe_frames inner_finished grpc =
      observe_frames { this with buffer } inner_finished grpc := by
  rw [observe_frames]
  split <;> simp_all

theorem observe_of_trailers {trailers : HeaderMap}
    (h : decode_grpc_web_observability_frame this.buffer inner_finished this.saw_trailers =
      (.ok (some (.Trailers trailers)), buffer)) :
    this.observe_frames inner_finished grpc =
      observe_frames { this with buffer, saw_trailers := true } inner_finished
        (grpc.update_from_headers trailers) := by
  rw [observe_frames]
  split <;> simp_all

/-- What the trailers of a body make of an observation. -/
def updated (grpc : GrpcObservability) : Option HeaderMap → GrpcObservability
  | some trailers => grpc.update_from_headers trailers
  | none => grpc

/-- An observer between two chunks, with these bytes still to come: it waits for the rest of a
frame, or has seen the last one. -/
structure Observing (this : GrpcWebObservabilityParser) (grpc : GrpcObservability) (rest : Bytes)
    (result : GrpcObservability) : Prop where
  enabled : this.disabled = false
  state : (this.saw_trailers = false ∧ (this.buffer = [] ∨ Unfinished this.buffer) ∧
      ∃ data trailers, Grammar (this.buffer ++ rest) data trailers ∧
        result = updated grpc trailers) ∨
    (this.saw_trailers = true ∧ this.buffer = [] ∧ rest = [] ∧ result = grpc)

theorem observing_of_buffer {data rest : Bytes} {trailers : Option HeaderMap}
    (henabled : this.disabled = false) (hsaw : this.saw_trailers = false)
    (hgrammar : Grammar (this.buffer ++ rest) data trailers)
    (hfinished : inner_finished = true → rest = []) :
    ∃ next grpc', this.observe_frames inner_finished grpc = (.ok (), next, grpc') ∧
      next.is_text = this.is_text ∧ next.encoded_carryover = this.encoded_carryover ∧
      Observing next grpc' rest (updated grpc trailers) := by
  induction hlen : this.buffer.length using Nat.strong_induction_on
    generalizing this data with
  | _ len ih =>
    have hwaiting : this.buffer = [] ∨ Unfinished this.buffer →
        decode_grpc_web_observability_frame this.buffer inner_finished this.saw_trailers =
          (.ok none, this.buffer) := by
      rintro (hnil | hunfinished)
      · rw [hnil]
        exact decode_empty _ _ _
      · cases hinner : inner_finished with
        | false =>
          rw [hsaw]
          exact (decode_unfinished hunfinished "response").1
        | true =>
          rw [hfinished hinner, List.append_nil] at hgrammar
          exact absurd hgrammar (grammar_unfinished hunfinished)
    rcases buffer_cases this.buffer with hnil | hunfinished | ⟨flags, payload, more, hlength, hbuffer⟩
    · exact ⟨this, grpc, observe_of_none (hwaiting (.inl hnil)), rfl, rfl, henabled,
        .inl ⟨hsaw, .inl hnil, data, trailers, hgrammar, rfl⟩⟩
    · exact ⟨this, grpc, observe_of_none (hwaiting (.inr hunfinished)), rfl, rfl, henabled,
        .inl ⟨hsaw, .inr hunfinished, data, trailers, hgrammar, rfl⟩⟩
    · have hdecode := decode_lengthPrefixed "response" inner_finished flags hlength more
      rw [hbuffer, List.append_assoc] at hgrammar
      rcases grammar_frame hlength hgrammar with
        ⟨hflags, rest', _, hrest'⟩ | ⟨hflags, hnil, _, decoded, rfl, hblock⟩
      · rw [if_neg (not_not.mpr hflags), ← hbuffer, ← hsaw] at hdecode
        rw [observe_of_data hdecode]
        refine ih more.length ?_ henabled hsaw hrest' rfl
        rw [← hlen, hbuffer, lengthPrefixed_append]
        simp only [List.length_cons, List.length_append]
        omega
      · obtain ⟨rfl, rfl⟩ := List.append_eq_nil_iff.mp hnil
        rw [if_pos hflags, hblock, ← hbuffer, ← hsaw] at hdecode
        have hend := @observe_of_none { this with buffer := [], saw_trailers := true }
          (grpc.update_from_headers decoded) _ inner_finished (decode_empty _ _ _)
        rw [observe_of_trailers hdecode, hend]
        exact ⟨_, _, rfl, rfl, rfl, henabled, .inr ⟨rfl, rfl, rfl, rfl⟩⟩

theorem Observing.with_carryover {rest : Bytes} {result : GrpcObservability}
    (h : Observing this grpc rest result) (encoded_carryover : Bytes) :
    Observing { this with encoded_carryover } grpc rest result := ⟨h.enabled, h.state⟩

/-- A chunk of bytes is observed without an error. -/
theorem observing_binary_chunk {data rest : Bytes} {result : GrpcObservability}
    (h : Observing this grpc (data ++ rest) result) (hfinished : inner_finished = true → rest = []) :
    ∃ next grpc', this.observe_binary_chunk data inner_finished grpc = (.ok (), next, grpc') ∧
      next.is_text = this.is_text ∧ next.encoded_carryover = this.encoded_carryover ∧
      Observing next grpc' rest result := by
  unfold observe_binary_chunk
  rcases h.state with ⟨hsaw, _, decoded, trailers, hgrammar, rfl⟩ | ⟨hsaw, hbuffer, hnil, rfl⟩
  · rw [← List.append_assoc] at hgrammar
    exact @observing_of_buffer { this with buffer := this.buffer ++ data } _ _ _ _ _ h.enabled hsaw
      hgrammar hfinished
  · obtain ⟨rfl, rfl⟩ := List.append_eq_nil_iff.mp hnil
    rw [hbuffer]
    have hend := @observe_of_none { this with buffer := [] } result _ inner_finished
      (decode_empty _ _ _)
    rw [List.append_nil, hend]
    exact ⟨_, _, rfl, rfl, rfl, h.enabled, .inr ⟨hsaw, rfl, rfl, rfl⟩⟩

theorem Observing.over {result : GrpcObservability} (h : Observing this grpc [] result) :
    result = grpc := by
  rcases h.state with ⟨_, hbuffer, _, trailers, hgrammar, rfl⟩ | ⟨_, _, _, rfl⟩
  · rw [List.append_nil] at hgrammar
    rcases hbuffer with hnil | hunfinished
    · rw [hnil] at hgrammar
      obtain ⟨_, rfl⟩ := grammar_nil hgrammar
      rfl
    · exact absurd hgrammar (grammar_unfinished hunfinished)
  · rfl

/-- At the end nothing waits in the buffer. -/
theorem observing_finish {result : GrpcObservability} (h : Observing this grpc [] result) :
    (disable (this.observe_binary_chunk [] true grpc)).2 = result := by
  obtain ⟨next, grpc', hchunk, _, _, hnext⟩ :=
    @observing_binary_chunk this grpc true [] [] result h fun _ => rfl
  rw [hchunk, hnext.over]
  rfl

theorem observe_binary {chunks : List Bytes} {result : GrpcObservability}
    (htext : this.is_text = false) (h : Observing this grpc chunks.flatten result) :
    this.observe grpc chunks = result := by
  induction chunks generalizing this grpc with
  | nil =>
    rw [observe, finish, if_neg (by simp [h.enabled]), if_neg (by simp [htext])]
    exact observing_finish h
  | cons data chunks ih =>
    obtain ⟨next, grpc', hchunk, hsame, _, hnext⟩ :=
      @observing_binary_chunk this grpc false data chunks.flatten result h (by simp)
    rw [observe, observe_chunk, if_neg (by simp [h.enabled]), if_neg (by simp [htext]), hchunk]
    exact ih (hsame.trans htext) hnext

theorem observe_text {pieces : List Bytes} {bytes : Bytes} {result : GrpcObservability}
    (htext : this.is_text = true) (hlength : this.encoded_carryover.length < 4)
    (hbytes : base64.decode_quanta (this.encoded_carryover ++ characters pieces.flatten) =
      some bytes)
    (h : Observing this grpc bytes result) : this.observe grpc pieces = result := by
  induction pieces generalizing this grpc bytes with
  | nil =>
    rw [List.flatten_nil, show characters [] = [] from rfl, List.append_nil] at hbytes
    obtain ⟨hempty, hrest⟩ :=
      decode_text_final_spec " for observability" "response body" hlength
    by_cases hnil : this.encoded_carryover = []
    · rw [hnil] at hbytes
      obtain rfl := Option.some.inj hbytes
      have hfinal : decode_grpc_web_text_observability_final this.encoded_carryover =
          (.ok none, []) := hempty hnil
      rw [observe, finish, if_neg (by simp [h.enabled]), if_pos htext, hfinal]
      exact observing_finish (h.with_carryover [])
    · rw [(hrest hnil).1] at hbytes
      cases hbytes
  | cons piece pieces ih =>
    obtain ⟨whole, rest, hall, hrest, hwhole, hleft, hdecoded⟩ :=
      @decode_text_chunk_spec " for observability" this.encoded_carryover piece
    rw [List.flatten_cons, characters_append, ← List.append_assoc, hall, List.append_assoc,
      base64.decode_quanta_append hwhole, Option.bind_eq_some_iff] at hbytes
    obtain ⟨decoded, hquanta, hbytes⟩ := hbytes
    obtain ⟨more, hmore, rfl⟩ := Option.map_eq_some_iff.mp hbytes
    rw [hquanta] at hdecoded
    have hchunk : decode_grpc_web_text_observability_chunk this.encoded_carryover piece =
        (.ok (if decoded = [] then none else some decoded), rest) := Prod.ext hdecoded hleft
    rw [observe, observe_chunk, if_neg (by simp [h.enabled]), if_pos htext, hchunk]
    dsimp only
    by_cases hnil : decoded = []
    · subst hnil
      rw [if_pos rfl]
      exact ih htext hrest hmore (h.with_carryover rest)
    · obtain ⟨next, grpc', hobserved, hsame, hcarryover, hnext⟩ :=
        @observing_binary_chunk { this with encoded_carryover := rest } grpc false decoded more
          result (h.with_carryover rest) (by simp)
      rw [if_neg hnil]
      dsimp only
      rw [hobserved]
      show next.observe grpc' pieces = result
      refine ih (hsame.trans htext) ?_ ?_ hnext
      · rw [hcarryover]
        exact hrest
      · rw [hcarryover]
        exact hmore

end GrpcWebObservabilityParser

/-! ## From the upstream to the observer -/

/-- The observer finds a visible value that the upstream sent, without the spaces around it. -/
theorem header_value_of_trimmed {rows trimmed : HeaderMap} {name : HeaderName}
    {value : HeaderValue} {text : Text}
    (h : List.Forall₂ (fun row other => other.1 = row.1 ∧ Trimmed row.2 other.2) rows trimmed)
    (hvalue : rows.get name = some value) (htext : value.to_str = some text) :
    header_value trimmed name = some (trim text) := by
  obtain ⟨other, hother, htrimmed⟩ := (get_of_trimmed name h).2 value hvalue
  unfold header_value
  rw [hother, Option.bind_some, to_str_of_trimmed htext htrimmed, Option.map_some, trim_trim]

/-- An observer of a new response, before its first chunk. -/
theorem observing_new {parser : GrpcWebObservabilityParser} {protocol : String}
    {grpc : GrpcObservability} {bytes data : Bytes} {trailers : Option HeaderMap}
    (hparser : GrpcWebObservabilityParser.for_protocol protocol = some parser)
    (hgrammar : Grammar bytes data trailers) :
    parser.Observing grpc bytes (GrpcWebObservabilityParser.updated grpc trailers) ∧
      parser.encoded_carryover = [] ∧ (parser.is_text = false ↔ protocol = "grpc-web") := by
  unfold GrpcWebObservabilityParser.for_protocol at hparser
  split at hparser
  · rename_i hprotocol
    obtain rfl := Option.some.inj hparser
    exact ⟨⟨rfl, .inl ⟨rfl, .inl rfl, data, trailers, hgrammar, rfl⟩⟩, rfl, by simp [hprotocol]⟩
  · rename_i hprotocol
    split at hparser
    · obtain rfl := Option.some.inj hparser
      exact ⟨⟨rfl, .inl ⟨rfl, .inl rfl, data, trailers, hgrammar, rfl⟩⟩, rfl, by simp [hprotocol]⟩
    · cases hparser

variable [Ends B BodyFrame IoError]

/-- Trailers are written and read, carried once and at the end, and observed. -/
theorem response_trailers_observed {inner : B} {chunks : List Bytes}
    {trailers fallback_trailers : Option HeaderMap} {error : Option IoError}
    (h : drain inner = (supplied chunks trailers, error)) :
    -- The block of any trailers reads as them, with their values trimmed, if these are UTF-8.
    (∀ rows trimmed, decode_grpc_web_trailer_block (trailer_block rows) = .ok trimmed ↔
      List.Forall₂ (fun row other => other.1 = row.1 ∧ Trimmed row.2 other.2) rows trimmed) ∧
    (∀ rows, (∃ trimmed, decode_grpc_web_trailer_block (trailer_block rows) = .ok trimmed) ↔
      ∀ row ∈ rows, ∃ text, from_utf8 row.2.as_bytes = some text) ∧
    -- The response carries one frame of trailers at most, and carries it last.
    drain (GrpcWebResponseBody.new inner fallback_trailers) =
      ((chunks ++ (trailer_frame trailers fallback_trailers error).toList.map
        encode_grpc_web_trailers).map .Data, error) ∧
    -- The observer of whole messages ends with the status of that frame.
    ∀ frame trimmed grpc, trailer_frame trailers fallback_trailers error = some frame →
      decode_grpc_web_trailer_block (trailer_block frame) = .ok trimmed →
      (trailer_block frame).length < 2 ^ 32 → (∃ data, Grammar chunks.flatten data none) →
      (∀ parser pieces, GrpcWebObservabilityParser.for_protocol "grpc-web" = some parser →
        pieces.flatten = chunks.flatten ++ encode_grpc_web_trailers frame →
        parser.observe grpc pieces = grpc.update_from_headers trimmed) ∧
      (error = none → ∃ texts : List Bytes,
        polled_bodies.read
            (GrpcWebTextEncodeBody.new (GrpcWebResponseBody.new inner fallback_trailers)) =
          .ok (texts.map .Data) ∧
        ∀ parser pieces, GrpcWebObservabilityParser.for_protocol "grpc-web-text" = some parser →
          pieces.flatten = texts.flatten →
          parser.observe grpc pieces = grpc.update_from_headers trimmed) ∧
      (∀ value text, frame.get GRPC_STATUS = some value → value.to_str = some text →
        (grpc.update_from_headers trimmed).status = some (trim text)) ∧
      (∀ value text, frame.get GRPC_MESSAGE = some value → value.to_str = some text →
        (grpc.update_from_headers trimmed).message = some (trim text)) := by
  have hresponds := GrpcWebResponseBody.responds inner fallback_trailers h
  refine ⟨fun rows trimmed => decode_trailer_block_eq_ok, fun rows => decode_trailer_block_exists,
    hresponds, ?_⟩
  intro frame trimmed grpc hframe hblock hlength hmessages
  obtain ⟨data, hdata⟩ := hmessages
  have hrows := decode_trailer_block_eq_ok.mp hblock
  have hgrammar : Grammar (chunks.flatten ++ encode_grpc_web_trailers frame) data (some trimmed) :=
    grammar_append hdata (by decide) hlength hblock
  refine ⟨?_, ?_, ?_, ?_⟩
  · intro parser pieces hparser hpieces
    obtain ⟨hobserving, _, htext⟩ := observing_new hparser hgrammar
    exact GrpcWebObservabilityParser.observe_binary (htext.mpr rfl) (hpieces ▸ hobserving)
  · rintro rfl
    have hread : polled_bodies.read (GrpcWebResponseBody.new inner fallback_trailers) =
        .ok (supplied (chunks ++ [encode_grpc_web_trailers frame]) none) := by
      rw [polled_bodies.read, hresponds, hframe]
      simp [supplied, completed]
    obtain ⟨texts, htexts, hflatten⟩ := GrpcWebTextEncodeBody.encodes_supplied hread
    refine ⟨texts, htexts, ?_⟩
    intro parser pieces hparser hpieces
    obtain ⟨hobserving, hcarryover, htext⟩ := observing_new hparser hgrammar
    refine GrpcWebObservabilityParser.observe_text ?_ ?_ ?_ hobserving
    · rw [← Bool.not_eq_false, htext]
      simp
    · simp [hcarryover]
    · rw [hcarryover, hpieces, hflatten, List.nil_append, characters_encode, base64.decode_encode]
      simp
  · intro value text hvalue htext
    rw [GrpcObservability.update_from_headers, header_value_of_trimmed hrows hvalue htext]
    rfl
  · intro value text hvalue htext
    rw [GrpcObservability.update_from_headers, header_value_of_trimmed hrows hvalue htext]
    rfl

/-- One message, and a status after it. -/
theorem response_trailers_observed_message :
    let frame : HeaderMap := [(GRPC_STATUS, ⟨[48], by simp⟩)]
    let inner : Polls BodyFrame IoError :=
      ⟨[.Ready (.ok (.Data [0, 0, 0, 0, 1, 7])), .Pending, .Ready (.ok (.Trailers frame))]⟩
    drain (GrpcWebResponseBody.new inner none) =
        ([.Data [0, 0, 0, 0, 1, 7], .Data (encode_grpc_web_trailers frame)], none) ∧
      ∃ parser, GrpcWebObservabilityParser.for_protocol "grpc-web" = some parser ∧
        (parser.observe ⟨none, none⟩
          [[0, 0, 0, 0, 1, 7], encode_grpc_web_trailers frame]).status = some ['0'] := by
  intro frame inner
  obtain ⟨-, -, hdrain, hobserved⟩ := @response_trailers_observed _ _ _ inner [[0, 0, 0, 0, 1, 7]]
    (some frame) none none (drain_polls _)
  have hblock : decode_grpc_web_trailer_block (trailer_block frame) = .ok frame :=
    decode_trailer_block_eq_ok.mpr (.cons ⟨rfl, ['0'], by decide, by decide⟩ .nil)
  have hmessage : Grammar [0, 0, 0, 0, 1, 7] [0, 0, 0, 0, 1, 7] none :=
    @Grammar.message 0 [7] [] [] none (by decide) (by decide) .nil
  obtain ⟨hbinary, -, hstatus, -⟩ :=
    hobserved frame frame ⟨none, none⟩ rfl hblock (by decide) ⟨_, hmessage⟩
  refine ⟨hdrain, _, rfl, ?_⟩
  rw [hbinary _ _ rfl rfl]
  exact hstatus _ ['0'] rfl (by simp [HeaderValue.to_str])

/-- A value that is not UTF-8: the reader gives up, and the observer misses the status. -/
theorem response_trailers_lost :
    let frame : HeaderMap := [(GRPC_STATUS, ⟨[48], by simp⟩), (GRPC_MESSAGE, ⟨[255], by simp⟩)]
    (∀ trimmed, decode_grpc_web_trailer_block (trailer_block frame) ≠ .ok trimmed) ∧
      ∀ parser, GrpcWebObservabilityParser.for_protocol "grpc-web" = some parser →
        (parser.observe ⟨none, none⟩ [encode_grpc_web_trailers frame]).status = none := by
  intro frame
  have hlost : ∀ trimmed, decode_grpc_web_trailer_block (trailer_block frame) ≠ .ok trimmed := by
    intro trimmed hblock
    obtain ⟨text, htext⟩ := decode_trailer_block_exists.mp ⟨trimmed, hblock⟩
      (GRPC_MESSAGE, ⟨[255], by simp⟩) (by simp [frame])
    have hnone : from_utf8 [255] = none := by decide
    rw [hnone] at htext
    cases htext
  refine ⟨hlost, ?_⟩
  intro parser hparser
  obtain rfl := Option.some.inj hparser
  obtain ⟨error, herror⟩ : ∃ error, decode_grpc_web_trailer_block (trailer_block frame) =
      .error error := by
    cases hblock : decode_grpc_web_trailer_block (trailer_block frame) with
    | error error => exact ⟨error, rfl⟩
    | ok trimmed => exact absurd hblock (hlost trimmed)
  have hdecode := @decode_lengthPrefixed "response" false 0x80 (trailer_block frame) (by decide) []
  rw [if_pos (by decide), herror, List.append_nil] at hdecode
  have hobserved := @GrpcWebObservabilityParser.observe_of_error
    ⟨false, [], encode_grpc_web_trailers frame, false, false⟩ ⟨none, none⟩ [] false error hdecode
  rw [GrpcWebObservabilityParser.observe, GrpcWebObservabilityParser.observe_chunk,
    if_neg (by simp), if_neg (by simp), GrpcWebObservabilityParser.observe_binary_chunk,
    List.nil_append, hobserved]
  rfl

end rginx.grpc_web
