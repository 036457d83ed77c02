-- The two bodies of the text mode of grpc-web, from `proxy/grpc_web/body/text_decode.rs`
-- and `text_encode.rs`: base64 on the way in and on the way out. A text may be cut
-- anywhere, and so may the data.
import Rginx.GrpcWebRequests

open rust_text rginx.cache polled_bodies

namespace rginx.grpc_web

/-! ## Decoding -/

structure GrpcWebTextDecodeBody (B : Type) where
  inner : B
  pending_trailers : Option HeaderMap
  carryover : Bytes
  inner_finished : Bool

def GrpcWebTextDecodeBody.new {B : Type} (inner : B) : GrpcWebTextDecodeBody B :=
  ⟨inner, none, [], false⟩

variable {B : Type} [Body B BodyFrame IoError]

namespace GrpcWebTextDecodeBody

def progress (this : GrpcWebTextDecodeBody B) : Nat × B × Nat :=
  remaining this.inner_finished this.inner
    (this.carryover.length + this.pending_trailers.toList.length)

def poll_frame [Ends B BodyFrame IoError] (this : GrpcWebTextDecodeBody B) :
    Poll (Option (IoResult BodyFrame)) × GrpcWebTextDecodeBody B :=
  match this.pending_trailers with
  | some trailers =>
    (.Ready (some (.ok (.Trailers trailers))), { this with pending_trailers := none })
  | none =>
    if _hfinished : this.inner_finished = true then
      match decode_grpc_web_text_final this.carryover with
      | (.ok (some data), carryover) =>
        (.Ready (some (.ok (.Data data))), { this with carryover })
      | (.ok none, carryover) => (.Ready none, { this with carryover })
      | (.error error, carryover) => (.Ready (some (.error error)), { this with carryover })
    else
      match _hpoll : Body.poll_frame this.inner with
      | (.Ready (some (.ok (.Data data))), inner) =>
        match decode_grpc_web_text_chunk this.carryover data with
        | (.ok (some decoded), carryover) =>
          (.Ready (some (.ok (.Data decoded))), { this with inner, carryover })
        | (.ok none, carryover) => poll_frame { this with inner, carryover }
        | (.error error, carryover) => (.Ready (some (.error error)), { this with inner, carryover })
      | (.Ready (some (.ok (.Trailers trailers))), inner) =>
        match decode_grpc_web_text_final this.carryover with
        | (.ok (some decoded), carryover) =>
          (.Ready (some (.ok (.Data decoded))),
            { this with inner, carryover, pending_trailers := some trailers })
        | (.ok none, carryover) =>
          (.Ready (some (.ok (.Trailers trailers))), { this with inner, carryover })
        | (.error error, carryover) => (.Ready (some (.error error)), { this with inner, carryover })
      | (.Ready (some (.error error)), inner) =>
        (.Ready (some (.error error)), { this with inner, inner_finished := true })
      | (.Ready none, inner) => poll_frame { this with inner, inner_finished := true }
      | (.Pending, inner) => (.Pending, { this with inner })
termination_by this.progress
decreasing_by
  · exact nearer_of_after _ (.frame _hpoll)
  · exact nearer_of_finishing (Bool.eq_false_iff.mpr _hfinished) rfl

variable [Ends B BodyFrame IoError]

instance : Body (GrpcWebTextDecodeBody B) BodyFrame IoError := ⟨poll_frame⟩

variable {this : GrpcWebTextDecodeBody B}

theorem poll_of_pending_trailers {trailers : HeaderMap}
    (h : this.pending_trailers = some trailers) :
    Body.poll_frame this =
      (.Ready (some (.ok (.Trailers trailers))), { this with pending_trailers := none }) := by
  show this.poll_frame = _
  rw [poll_frame]
  split <;> simp_all

theorem poll_of_finished (h : this.pending_trailers = none) (hfinished : this.inner_finished = true) :
    Body.poll_frame this = match decode_grpc_web_text_final this.carryover with
      | (.ok (some data), carryover) =>
        (.Ready (some (.ok (.Data data))), { this with carryover })
      | (.ok none, carryover) => (.Ready none, { this with carryover })
      | (.error error, carryover) => (.Ready (some (.error error)), { this with carryover }) := by
  show this.poll_frame = _
  rw [poll_frame]
  split
  · simp_all
  · rw [dif_pos hfinished]

theorem poll_of_reading (h : this.pending_trailers = none) (hreading : this.inner_finished = false) :
    Body.poll_frame this = match Body.poll_frame this.inner with
      | (.Ready (some (.ok (.Data data))), inner) =>
        match decode_grpc_web_text_chunk this.carryover data with
        | (.ok (some decoded), carryover) =>
          (.Ready (some (.ok (.Data decoded))), { this with inner, carryover })
        | (.ok none, carryover) => Body.poll_frame { this with inner, carryover }
        | (.error error, carryover) => (.Ready (some (.error error)), { this with inner, carryover })
      | (.Ready (some (.ok (.Trailers trailers))), inner) =>
        match decode_grpc_web_text_final this.carryover with
        | (.ok (some decoded), carryover) =>
          (.Ready (some (.ok (.Data decoded))),
            { this with inner, carryover, pending_trailers := some trailers })
        | (.ok none, carryover) =>
          (.Ready (some (.ok (.Trailers trailers))), { this with inner, carryover })
        | (.error error, carryover) => (.Ready (some (.error error)), { this with inner, carryover })
      | (.Ready (some (.error error)), inner) =>
        (.Ready (some (.error error)), { this with inner, inner_finished := true })
      | (.Ready none, inner) => Body.poll_frame { this with inner, inner_finished := true }
      | (.Pending, inner) => (.Pending, { this with inner }) := by
  show this.poll_frame = _
  rw [poll_frame]
  split
  · simp_all
  · rw [dif_neg (by simp [hreading])]
    split <;> simp_all <;> rfl

theorem decode_text_final_shorter {scope body : String} {carryover rest data : Bytes}
    (h : decode_text_final scope body carryover = (.ok (some data), rest)) :
    rest.length < carryover.length := by
  unfold decode_text_final at h
  split at h
  · simp at h
  · rename_i hne
    split at h
    · simp at h
    · rw [← (Prod.mk.inj h).2]
      exact List.length_pos_iff.mpr hne

instance : Ends (GrpcWebTextDecodeBody B) BodyFrame IoError where
  ends := by
    refine after_wellFounded (InvImage.wf progress nearer_wellFounded) fun this => ?_
    cases htrailers : this.pending_trailers with
    | some trailers =>
      right
      intro next hnext
      rw [next_of_after hnext (poll_of_pending_trailers htrailers)]
      exact nearer_of_less _ _ (by simp [htrailers])
    | none =>
      cases hfinished : this.inner_finished with
      | true =>
        right
        intro next hnext
        have hpoll := poll_of_finished htrailers hfinished
        rcases hfinal : decode_grpc_web_text_final this.carryover with
          ⟨error | _ | data, carryover⟩
        · rw [hfinal] at hpoll
          rcases hnext with h | h <;> simp [hpoll] at h
        · rw [hfinal] at hpoll
          rcases hnext with h | h <;> simp [hpoll] at h
        · rw [hfinal] at hpoll
          rw [next_of_after hnext hpoll]
          have hshorter := decode_text_final_shorter hfinal
          exact nearer_of_less _ _ (by simpa [htrailers] using hshorter)
      | false =>
        have hpoll := poll_of_reading htrailers hfinished
        rcases hinner : Body.poll_frame this.inner with ⟨_ | _ | error | data | trailers, inner⟩
        · right
          intro next hnext
          rw [hinner] at hpoll
          rw [next_of_after hnext hpoll]
          exact nearer_of_after _ (.pending hinner)
        · left
          rw [hinner] at hpoll
          exact ⟨_, nearer_of_finishing hfinished rfl, hpoll⟩
        · right
          intro next hnext
          rw [hinner] at hpoll
          rcases hnext with h | h <;> simp [hpoll] at h
        · rw [hinner] at hpoll
          dsimp only at hpoll
          rcases hchunk : decode_grpc_web_text_chunk this.carryover data with
            ⟨error | _ | decoded, carryover⟩
          · right
            intro next hnext
            rw [hchunk] at hpoll
            rcases hnext with h | h <;> simp [hpoll] at h
          · left
            rw [hchunk] at hpoll
            refine ⟨_, ?_, hpoll⟩
            exact nearer_of_after _ (.frame hinner)
          · right
            intro next hnext
            rw [hchunk] at hpoll
            rw [next_of_after hnext hpoll]
            exact nearer_of_after _ (.frame hinner)
        · right
          intro next hnext
          rw [hinner] at hpoll
          dsimp only at hpoll
          rcases hfinal : decode_grpc_web_text_final this.carryover with
            ⟨error | _ | decoded, carryover⟩
          · rw [hfinal] at hpoll
            rcases hnext with h | h <;> simp [hpoll] at h
          · rw [hfinal] at hpoll
            rw [next_of_after hnext hpoll]
            exact nearer_of_after _ (.frame hinner)
          · rw [hfinal] at hpoll
            rw [next_of_after hnext hpoll]
            exact nearer_of_after _ (.frame hinner)

/-- The bytes of a text: the characters that wait and the rest of the text, in whole quanta. -/
def Texts (this : GrpcWebTextDecodeBody B) (trailers : Option HeaderMap) : Option Bytes → Prop
  | none => Breaks this
  | some bytes => ∃ chunks, read this = .ok (supplied chunks trailers) ∧ chunks.flatten = bytes

theorem Texts.of_poll {this next : GrpcWebTextDecodeBody B} {trailers : Option HeaderMap}
    {bytes : Option Bytes} (hpoll : Body.poll_frame this = Body.poll_frame next)
    (h : Texts next trailers bytes) : Texts this trailers bytes := by
  cases bytes with
  | none =>
    cases h with
    | pending h hnext => exact .pending (hpoll.trans h) hnext
    | data h hnext => exact .data (hpoll.trans h) hnext
    | error h => exact .error (hpoll.trans h)
  | some bytes =>
    obtain ⟨chunks, hread, hbytes⟩ := h
    exact ⟨chunks, (read_congr hpoll).trans hread, hbytes⟩

theorem Texts.of_pending {this next : GrpcWebTextDecodeBody B} {trailers : Option HeaderMap}
    {bytes : Option Bytes} (hpoll : Body.poll_frame this = (.Pending, next))
    (h : Texts next trailers bytes) : Texts this trailers bytes := by
  cases bytes with
  | none => exact .pending hpoll h
  | some bytes =>
    obtain ⟨chunks, hread, hbytes⟩ := h
    exact ⟨chunks, (read_of_pending hpoll).trans hread, hbytes⟩

theorem Texts.of_data {this next : GrpcWebTextDecodeBody B} {trailers : Option HeaderMap}
    {data : Bytes} {bytes : Option Bytes}
    (hpoll : Body.poll_frame this = (.Ready (some (.ok (.Data data))), next))
    (h : Texts next trailers bytes) : Texts this trailers (bytes.map (data ++ ·)) := by
  cases bytes with
  | none => exact .data hpoll h
  | some bytes =>
    obtain ⟨chunks, hread, hbytes⟩ := h
    refine ⟨data :: chunks, ?_, ?_⟩
    · rw [read_of_frame hpoll, hread]
      rfl
    · rw [List.flatten_cons, hbytes]

/-- A chunk of text, and then the rest of it. -/
theorem texts_chunk {inner next : B} {carryover data more : Bytes} {trailers : Option HeaderMap}
    (hinner : Body.poll_frame inner = (.Ready (some (.ok (.Data data))), next))
    (h : ∀ carryover, carryover.length < 4 → Texts (.mk next none carryover false) trailers
      (base64.decode_quanta (carryover ++ characters more))) :
    Texts (.mk inner none carryover false) trailers
      (base64.decode_quanta (carryover ++ characters (data ++ more))) := by
  obtain ⟨whole, rest, hall, hlength, hwhole, hrest, hdecoded⟩ :=
    @decode_text_chunk_spec "" carryover data
  have hpoll := @poll_of_reading B _ _ ⟨inner, none, carryover, false⟩ rfl rfl
  rw [hinner] at hpoll
  dsimp only at hpoll
  rw [characters_append, ← List.append_assoc, hall, List.append_assoc,
    base64.decode_quanta_append hwhole]
  have hnext := h rest hlength
  rcases hchunk : decode_grpc_web_text_chunk carryover data with ⟨result, left⟩
  rw [hchunk] at hpoll
  unfold decode_grpc_web_text_chunk at hchunk
  rw [hchunk] at hrest hdecoded
  dsimp only at hrest hdecoded hpoll
  subst hrest
  cases hquanta : base64.decode_quanta whole with
  | none =>
    rw [hquanta] at hdecoded
    obtain ⟨error, rfl⟩ := hdecoded
    exact .error hpoll
  | some decoded =>
    rw [hquanta] at hdecoded
    dsimp only at hdecoded
    subst hdecoded
    by_cases hnil : decoded = []
    · subst hnil
      rw [if_pos rfl] at hpoll
      have hsame := Texts.of_poll hpoll hnext
      cases hmore : base64.decode_quanta (left ++ characters more) <;>
        simpa [hmore] using hsame
    · rw [if_neg hnil] at hpoll
      have hsame := Texts.of_data hpoll hnext
      cases hmore : base64.decode_quanta (left ++ characters more) <;>
        simpa [hmore] using hsame

/-- Nothing comes of a body that has nothing. -/
theorem read_drained {inner : B} (h : read inner = .ok []) :
    read (GrpcWebTextDecodeBody.mk inner none [] false) = .ok [] := by
  have hfinished : ∀ next : B, read (GrpcWebTextDecodeBody.mk next none [] true) = .ok [] :=
    fun next => read_of_end (@poll_of_finished B _ _ ⟨next, none, [], true⟩ rfl rfl)
  induction inner using poll_induction with
  | step inner ih =>
    have hpoll := @poll_of_reading B _ _ ⟨inner, none, [], false⟩ rfl rfl
    have hfirst : FirstPoll inner [] none := first_poll h
    cases hfirst with
    | pending hinner hread =>
      rw [hinner] at hpoll
      rw [read_of_pending hpoll]
      exact ih _ (.pending hinner) hread
    | last hinner =>
      rw [hinner] at hpoll
      rw [read_congr hpoll]
      exact hfinished _

/-- The characters that wait and the text of the inner body are decoded as one. -/
theorem texts (inner : B) (trailers : Option HeaderMap) :
    ∀ chunks carryover, carryover.length < 4 → read inner = .ok (supplied chunks trailers) →
      Texts (.mk inner none carryover false) trailers
        (base64.decode_quanta (carryover ++ characters chunks.flatten)) := by
  induction inner using poll_induction with
  | step inner ih =>
    intro chunks carryover hlength h
    obtain ⟨hempty, hrest⟩ := decode_text_final_spec "" "body" hlength
    have hpoll := @poll_of_reading B _ _ ⟨inner, none, carryover, false⟩ rfl rfl
    cases first_poll h with
    | pending hinner hread =>
      rw [hinner] at hpoll
      exact Texts.of_pending hpoll (ih _ (.pending hinner) _ _ hlength hread)
    | @data next data chunks _ hinner hread =>
      rw [List.flatten_cons]
      exact texts_chunk hinner fun carryover hlength =>
        ih next (.frame hinner) chunks carryover hlength hread
    | @last next hinner =>
      rw [hinner] at hpoll
      rw [List.flatten_nil, show characters [] = [] from rfl, List.append_nil]
      apply Texts.of_poll hpoll
      have hfinished := @poll_of_finished B _ _ ⟨next, none, carryover, true⟩ rfl rfl
      unfold decode_grpc_web_text_final at hfinished
      dsimp only at hfinished
      by_cases hnil : carryover = []
      · subst hnil
        exact ⟨[], read_of_end hfinished, rfl⟩
      · obtain ⟨hquanta, error, herror⟩ := hrest hnil
        rw [herror] at hfinished
        rw [hquanta]
        exact .error hfinished
    | @trailers next trailers hinner hread =>
      rw [hinner] at hpoll
      rw [List.flatten_nil, show characters [] = [] from rfl, List.append_nil]
      unfold decode_grpc_web_text_final at hpoll
      dsimp only at hpoll
      by_cases hnil : carryover = []
      · subst hnil
        rw [hempty rfl] at hpoll
        refine ⟨[], ?_, rfl⟩
        rw [read_of_frame hpoll, read_drained hread]
        rfl
      · obtain ⟨hquanta, error, herror⟩ := hrest hnil
        rw [herror] at hpoll
        rw [hquanta]
        exact .error hpoll

end GrpcWebTextDecodeBody

/-! ## What a reader of a request gets -/

/-- The data and the trailers of a body that was read without an error. -/
def received : IoResult (List BodyFrame) → Option (Bytes × HeaderMap)
  | .ok frames => some (data_of frames, trailers_of frames)
  | .error _ => none

/-- The body of these bytes in one chunk. -/
def whole (bytes : Bytes) (trailers : Option HeaderMap) : Polls BodyFrame IoError :=
  ⟨(supplied [bytes] trailers).map fun frame => .Ready (.ok frame)⟩

theorem read_whole (bytes : Bytes) (trailers : Option HeaderMap) :
    read (whole bytes trailers) = .ok (supplied [bytes] trailers) := by
  unfold whole
  rw [read_polls]
  cases trailers <;> rfl

/-- A request is decoded as these bytes: a reader receives what it would of the bytes in one
chunk, which is what the grammar makes of them. -/
structure DecodedAs (bytes : Bytes) (inner_trailers : Option HeaderMap)
    (result : IoResult (List BodyFrame)) : Prop where
  one_chunk : received result =
    received (read (GrpcWebRequestBody.new (whole bytes inner_trailers)))
  accepted : (∃ answer, received result = some answer) ↔
    ∃ data trailers, Grammar bytes data trailers
  yields : ∀ data trailers, Grammar bytes data trailers →
    received result = some (data, trailers.getD [] ++ inner_trailers.getD [])

theorem received_of_grammar {bytes data : Bytes} {trailers inner_trailers : Option HeaderMap}
    {result : IoResult (List BodyFrame)} (h : Decodes bytes inner_trailers result)
    (hgrammar : Grammar bytes data trailers) :
    received result = some (data, trailers.getD [] ++ inner_trailers.getD []) := by
  cases result with
  | error error => exact absurd hgrammar (h data trailers)
  | ok frames =>
    obtain ⟨other, hother, htrailers⟩ := h
    obtain ⟨hdata, rfl⟩ := grammar_unique hother hgrammar
    rw [received, hdata, htrailers]

theorem grammar_of_received {bytes : Bytes} {inner_trailers : Option HeaderMap}
    {result : IoResult (List BodyFrame)} {answer : Bytes × HeaderMap}
    (h : Decodes bytes inner_trailers result) (hreceived : received result = some answer) :
    ∃ data trailers, Grammar bytes data trailers := by
  cases result with
  | error error => cases hreceived
  | ok frames =>
    obtain ⟨trailers, hgrammar, _⟩ := h
    exact ⟨_, trailers, hgrammar⟩

/-- The grammar leaves a reader no choice. -/
theorem decodedAs_of_decodes {bytes : Bytes} {inner_trailers : Option HeaderMap}
    {result : IoResult (List BodyFrame)} (h : Decodes bytes inner_trailers result) :
    DecodedAs bytes inner_trailers result := by
  have hwhole := GrpcWebRequestBody.decodes _ (read_whole bytes inner_trailers)
  rw [List.flatten_singleton] at hwhole
  refine ⟨?_, ?_, fun data trailers => received_of_grammar h⟩
  · by_cases hgrammar : ∃ data trailers, Grammar bytes data trailers
    · obtain ⟨data, trailers, hgrammar⟩ := hgrammar
      rw [received_of_grammar h hgrammar, received_of_grammar hwhole hgrammar]
    · have hnone : ∀ {result}, Decodes bytes inner_trailers result → received result = none :=
        fun hdecodes => Option.eq_none_iff_forall_ne_some.mpr fun _ hreceived =>
          hgrammar (grammar_of_received hdecodes hreceived)
      rw [hnone h, hnone hwhole]
  · constructor
    · rintro ⟨answer, hreceived⟩
      exact grammar_of_received h hreceived
    · rintro ⟨data, trailers, hgrammar⟩
      exact ⟨_, received_of_grammar h hgrammar⟩

/-- A request is decoded as its bytes, and a request in text as the bytes of its quanta, wherever
the inner body cuts them. -/
theorem request_decoded_as [Ends B BodyFrame IoError] {inner : B} {chunks : List Bytes}
    {inner_trailers : Option HeaderMap} (h : read inner = .ok (supplied chunks inner_trailers)) :
    DecodedAs chunks.flatten inner_trailers (read (GrpcWebRequestBody.new inner)) ∧
      match base64.decode_quanta (characters chunks.flatten) with
      | some bytes => DecodedAs bytes inner_trailers
          (read (GrpcWebRequestBody.new (GrpcWebTextDecodeBody.new inner)))
      | none => received (read (GrpcWebRequestBody.new (GrpcWebTextDecodeBody.new inner))) =
          none := by
  refine ⟨decodedAs_of_decodes (GrpcWebRequestBody.decodes inner h), ?_⟩
  have htexts := GrpcWebTextDecodeBody.texts inner inner_trailers chunks [] (by simp) h
  rw [List.nil_append] at htexts
  cases hquanta : base64.decode_quanta (characters chunks.flatten) with
  | none =>
    rw [hquanta] at htexts
    obtain ⟨error, herror⟩ := GrpcWebRequestBody.read_of_breaks htexts [] false
    dsimp only
    rw [GrpcWebRequestBody.new, GrpcWebTextDecodeBody.new, herror, received]
  | some bytes =>
    rw [hquanta] at htexts
    obtain ⟨decoded, hread, rfl⟩ := htexts
    exact decodedAs_of_decodes (GrpcWebRequestBody.decodes _ hread)

/-- A message of one byte that is cut in the middle of its length. -/
theorem request_decoded_as_cut :
    let inner : Polls BodyFrame IoError :=
      ⟨[.Ready (.ok (.Data [0, 0, 0])), .Pending, .Ready (.ok (.Data [])),
        .Ready (.ok (.Data [0, 1, 7]))]⟩
    DecodedAs [0, 0, 0, 0, 1, 7] none (read (GrpcWebRequestBody.new inner)) ∧
      received (read (GrpcWebRequestBody.new (GrpcWebTextDecodeBody.new inner))) = none := by
  intro inner
  exact @request_decoded_as _ _ _ inner [[0, 0, 0], [], [0, 1, 7]] none (read_polls _)

/-! ## Encoding -/

structure GrpcWebTextEncodeBody (B : Type) where
  inner : B
  carryover : Bytes
  inner_finished : Bool

def GrpcWebTextEncodeBody.new {B : Type} (inner : B) : GrpcWebTextEncodeBody B := ⟨inner, [], false⟩

/-- The bytes that a frame of the upstream brings. -/
def bytes_to_encode : BodyFrame → Bytes
  | .Data data => data
  | .Trailers trailers => encode_grpc_web_trailers trailers

namespace GrpcWebTextEncodeBody

def progress (this : GrpcWebTextEncodeBody B) : Nat × B × Nat :=
  remaining this.inner_finished this.inner this.carryover.length

def poll_frame [Ends B BodyFrame IoError] (this : GrpcWebTextEncodeBody B) :
    Poll (Option (IoResult BodyFrame)) × GrpcWebTextEncodeBody B :=
  if _hfinished : this.inner_finished = true then
    match flush_grpc_web_text_chunk this.carryover with
    | (some data, carryover) => (.Ready (some (.ok (.Data data))), { this with carryover })
    | (none, carryover) => (.Ready none, { this with carryover })
  else
    match _hpoll : Body.poll_frame this.inner with
    | (.Ready (some (.ok frame)), inner) =>
      match encode_grpc_web_text_chunk this.carryover (bytes_to_encode frame) with
      | (some encoded, carryover) =>
        (.Ready (some (.ok (.Data encoded))), { this with inner, carryover })
      | (none, carryover) => poll_frame { this with inner, carryover }
    | (.Ready (some (.error error)), inner) =>
      (.Ready (some (.error error)), { this with inner, inner_finished := true })
    | (.Ready none, inner) => poll_frame { this with inner, inner_finished := true }
    | (.Pending, inner) => (.Pending, { this with inner })
termination_by this.progress
decreasing_by
  · exact nearer_of_after _ (.frame _hpoll)
  · exact nearer_of_finishing (Bool.eq_false_iff.mpr _hfinished) rfl

variable [Ends B BodyFrame IoError]

instance : Body (GrpcWebTextEncodeBody B) BodyFrame IoError := ⟨poll_frame⟩

variable {this : GrpcWebTextEncodeBody B}

theorem poll_of_finished (hfinished : this.inner_finished = true) :
    Body.poll_frame this = match flush_grpc_web_text_chunk this.carryover with
      | (some data, carryover) => (.Ready (some (.ok (.Data data))), { this with carryover })
      | (none, carryover) => (.Ready none, { this with carryover }) := by
  show this.poll_frame = _
  rw [poll_frame, dif_pos hfinished]

theorem poll_of_reading (hreading : this.inner_finished = false) :
    Body.poll_frame this = match Body.poll_frame this.inner with
      | (.Ready (some (.ok frame)), inner) =>
        match encode_grpc_web_text_chunk this.carryover (bytes_to_encode frame) with
        | (some encoded, carryover) =>
          (.Ready (some (.ok (.Data encoded))), { this with inner, carryover })
        | (none, carryover) => Body.poll_frame { this with inner, carryover }
      | (.Ready (some (.error error)), inner) =>
        (.Ready (some (.error error)), { this with inner, inner_finished := true })
      | (.Ready none, inner) => Body.poll_frame { this with inner, inner_finished := true }
      | (.Pending, inner) => (.Pending, { this with inner }) := by
  show this.poll_frame = _
  rw [poll_frame, dif_neg (by simp [hreading])]
  split <;> simp_all <;> rfl

theorem flush_shorter {carryover rest data : Bytes}
    (h : flush_grpc_web_text_chunk carryover = (some data, rest)) :
    rest.length < carryover.length := by
  unfold flush_grpc_web_text_chunk at h
  split at h
  · simp at h
  · rename_i hne
    rw [← (Prod.mk.inj h).2]
    exact List.length_pos_iff.mpr hne

instance : Ends (GrpcWebTextEncodeBody B) BodyFrame IoError where
  ends := by
    refine after_wellFounded (InvImage.wf progress nearer_wellFounded) fun this => ?_
    cases hfinished : this.inner_finished with
    | true =>
      right
      intro next hnext
      have hpoll := poll_of_finished hfinished
      rcases hflush : flush_grpc_web_text_chunk this.carryover with ⟨_ | data, carryover⟩
      · rw [hflush] at hpoll
        rcases hnext with h | h <;> simp [hpoll] at h
      · rw [hflush] at hpoll
        rw [next_of_after hnext hpoll]
        exact nearer_of_less _ _ (flush_shorter hflush)
    | false =>
      have hpoll := poll_of_reading hfinished
      rcases hinner : Body.poll_frame this.inner with ⟨_ | _ | error | frame, inner⟩
      · right
        intro next hnext
        rw [hinner] at hpoll
        rw [next_of_after hnext hpoll]
        exact nearer_of_after _ (.pending hinner)
      · left
        rw [hinner] at hpoll
        exact ⟨_, nearer_of_finishing hfinished rfl, hpoll⟩
      · right
        intro next hnext
        rw [hinner] at hpoll
        rcases hnext with h | h <;> simp [hpoll] at h
      · rw [hinner] at hpoll
        dsimp only at hpoll
        rcases hchunk : encode_grpc_web_text_chunk this.carryover (bytes_to_encode frame) with
          ⟨_ | encoded, carryover⟩
        · left
          rw [hchunk] at hpoll
          refine ⟨_, ?_, hpoll⟩
          exact nearer_of_after _ (.frame hinner)
        · right
          intro next hnext
          rw [hchunk] at hpoll
          rw [next_of_after hnext hpoll]
          exact nearer_of_after _ (.frame hinner)

/-- At the end the bytes that wait come out with their padding. -/
theorem read_finished (inner : B) (carryover : Bytes) :
    ∃ texts : List Bytes, read (GrpcWebTextEncodeBody.mk inner carryover true) =
        .ok (texts.map .Data) ∧ texts.flatten = base64.encode carryover := by
  have hempty : read (GrpcWebTextEncodeBody.mk inner [] true) = .ok [] :=
    read_of_end (@poll_of_finished B _ _ ⟨inner, [], true⟩ rfl)
  by_cases hnil : carryover = []
  · subst hnil
    exact ⟨[], hempty, rfl⟩
  · have hpoll := @poll_of_finished B _ _ ⟨inner, carryover, true⟩ rfl
    unfold flush_grpc_web_text_chunk at hpoll
    rw [if_neg hnil] at hpoll
    refine ⟨[base64.encode carryover], ?_, List.flatten_singleton⟩
    rw [read_of_frame hpoll, hempty]
    rfl

/-- The bytes that wait and the bytes of the inner body are encoded as one. -/
theorem encodes (inner : B) :
    ∀ frames carryover, carryover.length < 3 → read inner = .ok frames →
      ∃ texts : List Bytes, read (GrpcWebTextEncodeBody.mk inner carryover false) =
          .ok (texts.map .Data) ∧
        texts.flatten = base64.encode (carryover ++ frames.flatMap bytes_to_encode) := by
  induction inner using poll_induction with
  | step inner ih =>
    intro frames carryover hlength h
    have hpoll := @poll_of_reading B _ _ ⟨inner, carryover, false⟩ rfl
    rcases hinner : Body.poll_frame inner with ⟨_ | _ | error | frame, next⟩
    · rw [hinner] at hpoll
      rw [read_of_pending hpoll]
      exact ih next (.pending hinner) frames carryover hlength (read_of_pending hinner ▸ h)
    · rw [hinner] at hpoll
      rw [read_of_end hinner] at h
      obtain rfl := Except.ok.inj h
      rw [read_congr hpoll, List.flatMap_nil, List.append_nil]
      exact read_finished next carryover
    · rw [read_of_error hinner] at h
      cases h
    · rw [read_of_frame hinner] at h
      cases hread : read next with
      | error error =>
        rw [hread] at h
        cases h
      | ok more =>
        rw [hread] at h
        obtain rfl := Except.ok.inj h
        obtain ⟨groups, rest, hall, hrest, hgroups, hchunk⟩ :=
          encode_text_chunk_spec carryover (bytes_to_encode frame)
        obtain ⟨texts, htexts, hflatten⟩ := ih next (.frame hinner) more rest hrest hread
        rw [hinner] at hpoll
        dsimp only at hpoll
        rw [hchunk] at hpoll
        have hencode : base64.encode (carryover ++ (frame :: more).flatMap bytes_to_encode) =
            base64.encode_no_pad groups ++ texts.flatten := by
          rw [List.flatMap_cons, ← List.append_assoc, hall, List.append_assoc,
            base64.encode_append hgroups, hflatten]
        rw [hencode]
        by_cases hnil : groups = []
        · subst hnil
          rw [if_pos rfl] at hpoll
          exact ⟨texts, (read_congr hpoll).trans htexts, rfl⟩
        · rw [if_neg hnil] at hpoll
          refine ⟨base64.encode_no_pad groups :: texts, ?_, List.flatten_cons⟩
          rw [read_of_frame hpoll, htexts]
          rfl

end GrpcWebTextEncodeBody

/-! ## From text to text -/

/-- A text in pieces, through the decoder of chunks and then the one of the end. -/
def decode_pieces (carryover : Bytes) : List Bytes → IoResult Bytes
  | [] => (decode_grpc_web_text_final carryover).1.map (·.getD [])
  | piece :: pieces => do
    let (result, carryover) := decode_grpc_web_text_chunk carryover piece
    let decoded ← result
    let more ← decode_pieces carryover pieces
    return decoded.getD [] ++ more

theorem decode_pieces_eq {pieces : List Bytes} {carryover bytes : Bytes}
    (hlength : carryover.length < 4)
    (h : base64.decode_quanta (carryover ++ characters pieces.flatten) = some bytes) :
    decode_pieces carryover pieces = .ok bytes := by
  induction pieces generalizing carryover bytes with
  | nil =>
    rw [List.flatten_nil, show characters [] = [] from rfl, List.append_nil] at h
    obtain ⟨hempty, hrest⟩ := decode_text_final_spec "" "body" hlength
    by_cases hnil : carryover = []
    · subst hnil
      obtain rfl := Option.some.inj h
      rfl
    · rw [(hrest hnil).1] at h
      cases h
  | cons piece pieces ih =>
    obtain ⟨whole, rest, hall, hrest, hwhole, hleft, hdecoded⟩ :=
      @decode_text_chunk_spec "" carryover piece
    rw [List.flatten_cons, characters_append, ← List.append_assoc, hall, List.append_assoc,
      base64.decode_quanta_append hwhole, Option.bind_eq_some_iff] at h
    obtain ⟨decoded, hquanta, h⟩ := h
    obtain ⟨more, hmore, rfl⟩ := Option.map_eq_some_iff.mp h
    rw [hquanta] at hdecoded
    unfold decode_pieces decode_grpc_web_text_chunk
    simp only [hleft, hdecoded, ih hrest hmore]
    by_cases hnil : decoded = []
    · simp [hnil]
    · simp [hnil]

/-- What was encoded has no spaces. -/
theorem characters_encode (bytes : Bytes) : characters (base64.encode bytes) = base64.encode bytes := by
  apply List.filter_eq_self.mpr
  intro c hc
  have hbound := base64.encode_lower_bound hc
  unfold is_ascii_whitespace
  have hne : ∀ n : UInt8, n.toNat < 43 → c ≠ n := by
    rintro n hn rfl
    omega
  simp [hne 32 (by decide), hne 9 (by decide), hne 10 (by decide), hne 12 (by decide),
    hne 13 (by decide)]

/-- The texts of a response are, one behind the other, the base64 of its data and its frame of
trailers. -/
theorem GrpcWebTextEncodeBody.encodes_supplied [Ends B BodyFrame IoError] {inner : B}
    {chunks : List Bytes} {trailers : Option HeaderMap}
    (h : read inner = .ok (supplied chunks trailers)) :
    ∃ texts : List Bytes, read (GrpcWebTextEncodeBody.new inner) = .ok (texts.map .Data) ∧
      texts.flatten =
        base64.encode (chunks.flatten ++ (trailers.map encode_grpc_web_trailers).getD []) := by
  obtain ⟨texts, hread, htexts⟩ := GrpcWebTextEncodeBody.encodes inner _ [] (by simp) h
  have hbytes : (supplied chunks trailers).flatMap bytes_to_encode =
      chunks.flatten ++ (trailers.map encode_grpc_web_trailers).getD [] := by
    have hchunks : (chunks.map BodyFrame.Data).flatMap bytes_to_encode = chunks.flatten := by
      rw [List.flatMap_map]
      exact List.flatMap_id
    unfold supplied
    rw [List.flatMap_append, hchunks]
    cases trailers with
    | none => simp
    | some trailers => simp [bytes_to_encode]
  rw [List.nil_append, hbytes] at htexts
  exact ⟨texts, hread, htexts⟩

/-- The text of a response is the base64 of its data and its frame of trailers, with padding at
the end alone, and its pieces decode to the same bytes however it is cut. -/
theorem response_text_decodes [Ends B BodyFrame IoError] {inner : B} {chunks : List Bytes}
    {trailers : Option HeaderMap} (h : read inner = .ok (supplied chunks trailers)) :
    let bytes := chunks.flatten ++ (trailers.map encode_grpc_web_trailers).getD []
    ∃ texts : List Bytes, read (GrpcWebTextEncodeBody.new inner) = .ok (texts.map .Data) ∧
      texts.flatten = base64.encode bytes ∧
      (∃ text count, base64.encode bytes = text ++ List.replicate count base64.padding ∧
        count < 3 ∧ base64.padding ∉ text) ∧
      ∀ pieces : List Bytes, pieces.flatten = texts.flatten →
        decode_pieces [] pieces = .ok bytes := by
  intro bytes
  obtain ⟨texts, hread, htexts⟩ := GrpcWebTextEncodeBody.encodes_supplied h
  refine ⟨texts, hread, htexts, ?_, ?_⟩
  · refine ⟨_, _, base64.encode_eq_append bytes, ?_, base64.padding_notMem_encode_no_pad bytes⟩
    omega
  · intro pieces hpieces
    apply decode_pieces_eq (by simp)
    rw [hpieces, htexts, List.nil_append, characters_encode, base64.decode_encode]

/-- Four bytes in two frames, and no trailers. -/
theorem response_text_decodes_four :
    let inner : Polls BodyFrame IoError :=
      ⟨[.Ready (.ok (.Data [102])), .Pending, .Ready (.ok (.Data [111, 111, 98]))]⟩
    ∃ texts : List Bytes, read (GrpcWebTextEncodeBody.new inner) = .ok (texts.map .Data) ∧
      texts.flatten = [90, 109, 57, 118, 89, 103, 61, 61] ∧
      ∀ pieces : List Bytes, pieces.flatten = texts.flatten →
        decode_pieces [] pieces = .ok [102, 111, 111, 98] := by
  intro inner
  obtain ⟨texts, hread, htexts, -, hpieces⟩ :=
    @response_text_decodes _ _ _ inner [[102], [111, 111, 98]] none (read_polls _)
  exact ⟨texts, hread, htexts, hpieces⟩

end rginx.grpc_web
