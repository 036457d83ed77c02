-- The body of a grpc-web request on its way to the upstream, from
-- `proxy/grpc_web/body/request.rs`, over any inner body. What it gives is told
-- from the bytes of the inner body alone, by the grammar of the frames.
import Rginx.PolledBodies
import Rginx.GrpcWebCodec

open rust_text rginx.cache polled_bodies

namespace rginx.grpc_web

/-! ## The body -/

/-- The fields of the source that nothing sets are left out. -/
structure GrpcWebRequestBody (B : Type) where
  inner : B
  inner_finished : Bool
  inner_trailers : Option HeaderMap
  buffer : Bytes
  saw_grpc_web_trailers : Bool

def GrpcWebRequestBody.new {B : Type} (inner : B) : GrpcWebRequestBody B :=
  ⟨inner, false, none, [], false⟩

variable {B : Type} [Body B BodyFrame IoError]

namespace GrpcWebRequestBody

/-- What a turn of the loop brings nearer to its end. -/
def progress (this : GrpcWebRequestBody B) : Nat × B × Nat :=
  remaining this.inner_finished this.inner
    (this.buffer.length + this.inner_trailers.toList.length)

theorem nearer_of_decoded [Ends B BodyFrame IoError] {this : GrpcWebRequestBody B}
    {parsed : ParsedGrpcWebFrame} {buffer : Bytes} (saw : Bool) (inner_trailers : Option HeaderMap)
    (h : decode_grpc_web_request_frame this.buffer this.inner_finished
      this.saw_grpc_web_trailers = (.ok (some parsed), buffer))
    (htrailers : inner_trailers.toList.length ≤ this.inner_trailers.toList.length) :
    Nearer (progress ⟨this.inner, this.inner_finished, inner_trailers, buffer, saw⟩)
      this.progress := by
  have hshorter := decode_shorter h
  apply nearer_of_less
  dsimp only
  omega

/-- The turns of the loop: first the buffer, then the inner body. -/
def poll_frame [Ends B BodyFrame IoError] (this : GrpcWebRequestBody B) :
    Poll (Option (IoResult BodyFrame)) × GrpcWebRequestBody B :=
  match _hdecode : decode_grpc_web_request_frame this.buffer this.inner_finished
      this.saw_grpc_web_trailers with
  | (.error error, buffer) => (.Ready (some (.error error)), { this with buffer })
  | (.ok (some (.Data data)), buffer) => (.Ready (some (.ok (.Data data))), { this with buffer })
  | (.ok (some (.Trailers trailers)), buffer) =>
    let trailers := append_header_map trailers (this.inner_trailers.getD [])
    let next := { this with buffer, saw_grpc_web_trailers := true, inner_trailers := none }
    if trailers = [] then poll_frame next else (.Ready (some (.ok (.Trailers trailers))), next)
  | (.ok none, _) =>
    if _hfinished : this.inner_finished = true then
      match this.inner_trailers with
      | some trailers =>
        (.Ready (some (.ok (.Trailers trailers))), { this with inner_trailers := none })
      | none => (.Ready none, this)
    else
      match _hpoll : Body.poll_frame this.inner with
      | (.Ready (some (.ok (.Data data))), inner) =>
        if this.saw_grpc_web_trailers = true ∧ data ≠ [] then
          (.Ready (some (.error
            (invalid_grpc_web_body "grpc-web request trailer frame must be terminal"))),
            { this with inner })
        else poll_frame { this with inner, buffer := this.buffer ++ data }
      | (.Ready (some (.ok (.Trailers trailers))), inner) =>
        let inner_trailers := match this.inner_trailers with
          | some existing => append_header_map existing trailers
          | none => trailers
        poll_frame { this with inner, inner_trailers := some inner_trailers, inner_finished := true }
      | (.Ready (some (.error error)), inner) =>
        (.Ready (some (.error error)), { this with inner, inner_finished := true })
      | (.Ready none, inner) => poll_frame { this with inner, inner_finished := true }
      | (.Pending, inner) => (.Pending, { this with inner })
termination_by this.progress
decreasing_by
  · exact nearer_of_decoded true none _hdecode (Nat.zero_le _)
  · exact nearer_of_after _ (.frame _hpoll)
  · exact nearer_of_finishing (Bool.eq_false_iff.mpr _hfinished) rfl
  · exact nearer_of_finishing (Bool.eq_false_iff.mpr _hfinished) rfl

variable [Ends B BodyFrame IoError]

instance : Body (GrpcWebRequestBody B) BodyFrame IoError := ⟨poll_frame⟩

/-! ## One poll -/

variable {this : GrpcWebRequestBody B} {buffer : Bytes}

theorem poll_of_error {error : IoError}
    (h : decode_grpc_web_request_frame this.buffer this.inner_finished
      this.saw_grpc_web_trailers = (.error error, buffer)) :
    Body.poll_frame this = (.Ready (some (.error error)), { this with buffer }) := by
  show this.poll_frame = _
  rw [poll_frame]
  split <;> simp_all

theorem poll_of_data {data : Bytes}
    (h : decode_grpc_web_request_frame this.buffer this.inner_finished
      this.saw_grpc_web_trailers = (.ok (some (.Data data)), buffer)) :
    Body.poll_frame this = (.Ready (some (.ok (.Data data))), { this with buffer }) := by
  show this.poll_frame = _
  rw [poll_frame]
  split <;> simp_all

theorem poll_of_trailers {trailers : HeaderMap}
    (h : decode_grpc_web_request_frame this.buffer this.inner_finished
      this.saw_grpc_web_trailers = (.ok (some (.Trailers trailers)), buffer)) :
    Body.poll_frame this =
      if append_header_map trailers (this.inner_trailers.getD []) = [] then
        Body.poll_frame
          { this with buffer, saw_grpc_web_trailers := true, inner_trailers := none }
      else
        (.Ready (some (.ok (.Trailers (append_header_map trailers (this.inner_trailers.getD []))))),
          { this with buffer, saw_grpc_web_trailers := true, inner_trailers := none }) := by
  show this.poll_frame = _
  rw [poll_frame]
  split <;> simp_all
  rfl

theorem poll_of_finished
    (h : decode_grpc_web_request_frame this.buffer this.inner_finished
      this.saw_grpc_web_trailers = (.ok none, buffer)) (hfinished : this.inner_finished = true) :
    Body.poll_frame this = match this.inner_trailers with
      | some trailers =>
        (.Ready (some (.ok (.Trailers trailers))), { this with inner_trailers := none })
      | none => (.Ready none, this) := by
  show this.poll_frame = _
  rw [poll_frame]
  split <;> simp_all

/-- A buffer without a whole frame leaves the turn to the inner body. -/
theorem poll_of_reading
    (h : decode_grpc_web_request_frame this.buffer this.inner_finished
      this.saw_grpc_web_trailers = (.ok none, buffer)) (hreading : this.inner_finished = false) :
    Body.poll_frame this =
      match Body.poll_frame this.inner with
      | (.Ready (some (.ok (.Data data))), inner) =>
        if this.saw_grpc_web_trailers = true ∧ data ≠ [] then
          (.Ready (some (.error
            (invalid_grpc_web_body "grpc-web request trailer frame must be terminal"))),
            { this with inner })
        else Body.poll_frame { this with inner, buffer := this.buffer ++ data }
      | (.Ready (some (.ok (.Trailers trailers))), inner) =>
        let inner_trailers := match this.inner_trailers with
          | some existing => append_header_map existing trailers
          | none => trailers
        Body.poll_frame
          { this with inner, inner_trailers := some inner_trailers, inner_finished := true }
      | (.Ready (some (.error error)), inner) =>
        (.Ready (some (.error error)), { this with inner, inner_finished := true })
      | (.Ready none, inner) => Body.poll_frame { this with inner, inner_finished := true }
      | (.Pending, inner) => (.Pending, { this with inner }) := by
  show this.poll_frame = _
  rw [poll_frame]
  split
  · simp_all
  · simp_all
  · simp_all
  · rw [dif_neg (by simp [hreading])]
    split <;> simp_all <;> rfl

instance : Ends (GrpcWebRequestBody B) BodyFrame IoError where
  ends := by
    refine after_wellFounded (InvImage.wf progress nearer_wellFounded) fun this => ?_
    rcases hdecode : decode_grpc_web_request_frame this.buffer this.inner_finished
      this.saw_grpc_web_trailers with ⟨error | _ | ⟨data⟩ | ⟨trailers⟩, buffer⟩
    · right
      intro next hnext
      rcases hnext with h | h <;> simp [poll_of_error hdecode] at h
    · cases hfinished : this.inner_finished with
      | true =>
        right
        intro next hnext
        have hpoll := poll_of_finished hdecode hfinished
        cases htrailers : this.inner_trailers with
        | none =>
          rw [htrailers] at hpoll
          rcases hnext with h | h <;> simp [hpoll] at h
        | some trailers =>
          rw [htrailers] at hpoll
          rw [next_of_after hnext hpoll]
          exact nearer_of_less _ _ (by simp [htrailers])
      | false =>
        have hpoll := poll_of_reading hdecode hfinished
        rcases hinner : Body.poll_frame this.inner with ⟨_ | _ | error | data | trailers, inner⟩
        · right
          intro next hnext
          rw [hinner] at hpoll
          rw [next_of_after hnext hpoll]
          exact nearer_of_after _ (.pending hinner)
        · left
          rw [hinner] at hpoll
          exact ⟨_, nearer_of_finishing hfinished rfl, hpoll⟩
        · right
          intro next hnext
          rw [hinner] at hpoll
          rcases hnext with h | h <;> simp [hpoll] at h
        · rw [hinner] at hpoll
          dsimp only at hpoll
          split at hpoll
          · right
            intro next hnext
            rcases hnext with h | h <;> simp [hpoll] at h
          · left
            refine ⟨_, ?_, hpoll⟩
            exact nearer_of_after _ (.frame hinner)
        · left
          rw [hinner] at hpoll
          exact ⟨_, nearer_of_finishing hfinished rfl, hpoll⟩
    · right
      intro next hnext
      rw [next_of_after hnext (poll_of_data hdecode)]
      exact nearer_of_decoded _ _ hdecode (Nat.le_refl _)
    · have hpoll := poll_of_trailers hdecode
      have hnearer := nearer_of_decoded true none hdecode (Nat.zero_le _)
      split at hpoll
      · exact .inl ⟨_, hnearer, hpoll⟩
      · right
        intro next hnext
        rw [next_of_after hnext hpoll]
        exact hnearer

end GrpcWebRequestBody

/-! ## The frames that a body gives -/

/-- The frames of a body with this data, in these chunks, and trailers after it or not. -/
def supplied (chunks : List Bytes) (trailers : Option HeaderMap) : List BodyFrame :=
  chunks.map .Data ++ trailers.toList.map .Trailers

def data_of : List BodyFrame → Bytes
  | [] => []
  | .Data data :: frames => data ++ data_of frames
  | .Trailers _ :: frames => data_of frames

def trailers_of : List BodyFrame → HeaderMap
  | [] => []
  | .Data _ :: frames => trailers_of frames
  | .Trailers trailers :: frames => trailers ++ trailers_of frames

theorem data_of_supplied (chunks : List Bytes) (trailers : Option HeaderMap) :
    data_of (supplied chunks trailers) = chunks.flatten := by
  unfold supplied
  induction chunks with
  | nil => cases trailers <;> rfl
  | cons data chunks ih => simp [data_of, ih]

theorem trailers_of_supplied (chunks : List Bytes) (trailers : Option HeaderMap) :
    trailers_of (supplied chunks trailers) = trailers.getD [] := by
  unfold supplied
  induction chunks with
  | nil => cases trailers <;> simp [trailers_of]
  | cons data chunks ih => simp [trailers_of, ih]

theorem eq_nil_of_supplied {chunks : List Bytes} {trailers : Option HeaderMap}
    (h : supplied chunks trailers = []) : chunks = [] ∧ trailers = none := by
  unfold supplied at h
  rw [List.append_eq_nil_iff, List.map_eq_nil_iff, List.map_eq_nil_iff, Option.toList_eq_nil_iff]
    at h
  exact h

/-- The first poll of a body that gives these frames. -/
inductive FirstPoll (inner : B) [Ends B BodyFrame IoError] :
    List Bytes → Option HeaderMap → Prop
  | pending {next : B} {chunks : List Bytes} {trailers : Option HeaderMap}
      (hpoll : Body.poll_frame inner = (.Pending, next))
      (hread : read next = .ok (supplied chunks trailers)) : FirstPoll inner chunks trailers
  | last {next : B} (hpoll : Body.poll_frame inner = (.Ready none, next)) : FirstPoll inner [] none
  | data {next : B} {data : Bytes} {chunks : List Bytes} {trailers : Option HeaderMap}
      (hpoll : Body.poll_frame inner = (.Ready (some (.ok (.Data data))), next))
      (hread : read next = .ok (supplied chunks trailers)) :
      FirstPoll inner (data :: chunks) trailers
  | trailers {next : B} {trailers : HeaderMap}
      (hpoll : Body.poll_frame inner = (.Ready (some (.ok (.Trailers trailers))), next))
      (hread : read next = .ok []) : FirstPoll inner [] (some trailers)

/-- A body that gives an error, and no trailers before it. -/
inductive Breaks : B → Prop
  | pending {inner next : B} (hpoll : Body.poll_frame inner = (.Pending, next))
      (hnext : Breaks next) : Breaks inner
  | data {inner next : B} {data : Bytes}
      (hpoll : Body.poll_frame inner = (.Ready (some (.ok (.Data data))), next))
      (hnext : Breaks next) : Breaks inner
  | error {inner next : B} {error : IoError}
      (hpoll : Body.poll_frame inner = (.Ready (some (.error error)), next)) : Breaks inner

section Inner

variable [Ends B BodyFrame IoError]

theorem first_poll {inner : B} {chunks : List Bytes} {trailers : Option HeaderMap}
    (h : read inner = .ok (supplied chunks trailers)) : FirstPoll inner chunks trailers := by
  rcases hpoll : Body.poll_frame inner with ⟨_ | _ | error | frame, next⟩
  · exact .pending hpoll (read_of_pending hpoll ▸ h)
  · rw [read_of_end hpoll] at h
    cases chunks with
    | nil =>
      cases trailers with
      | none => exact .last hpoll
      | some trailers => cases h
    | cons data chunks => cases h
  · rw [read_of_error hpoll] at h
    cases h
  · rw [read_of_frame hpoll] at h
    cases hread : read next with
    | error error =>
      rw [hread] at h
      cases h
    | ok frames =>
      rw [hread] at h
      have hframes := Except.ok.inj h
      cases chunks with
      | nil =>
        cases trailers with
        | none => cases hframes
        | some trailers =>
          obtain ⟨rfl, rfl⟩ := List.cons.inj hframes
          exact .trailers hpoll hread
      | cons data chunks =>
        obtain ⟨rfl, rfl⟩ := List.cons.inj hframes
        exact .data hpoll hread

end Inner

/-! ## The grammar -/

/-- Complete messages, and one frame of trailers after them or not: the bytes, the frames of the
messages one after the other, and the trailers. -/
inductive Grammar : Bytes → Bytes → Option HeaderMap → Prop
  | nil : Grammar [] [] none
  | message {flags : UInt8} {payload rest data : Bytes} {trailers : Option HeaderMap}
      (hflags : flags &&& 0x80 = 0) (hlength : payload.length < 2 ^ 32)
      (hrest : Grammar rest data trailers) :
      Grammar (lengthPrefixed flags payload ++ rest) (lengthPrefixed flags payload ++ data) trailers
  | trailers {flags : UInt8} {block : Bytes} {trailers : HeaderMap}
      (hflags : flags &&& 0x80 ≠ 0) (hlength : block.length < 2 ^ 32)
      (hblock : decode_grpc_web_trailer_block block = .ok trailers) :
      Grammar (lengthPrefixed flags block) [] (some trailers)

theorem lengthPrefixed_ne_nil (flags : UInt8) (payload rest : Bytes) :
    lengthPrefixed flags payload ++ rest ≠ [] := by
  rw [lengthPrefixed_append]
  exact List.cons_ne_nil _ _

theorem grammar_nil {data : Bytes} {trailers : Option HeaderMap} (h : Grammar [] data trailers) :
    data = [] ∧ trailers = none := by
  generalize hbytes : ([] : Bytes) = bytes at h
  cases h with
  | nil => exact ⟨rfl, rfl⟩
  | message => exact absurd hbytes.symm (lengthPrefixed_ne_nil _ _ _)
  | trailers => cases hbytes

theorem grammar_unfinished {bytes data : Bytes} {trailers : Option HeaderMap}
    (hunfinished : Unfinished bytes) : ¬ Grammar bytes data trailers := by
  intro h
  cases h with
  | nil => exact hunfinished.1 rfl
  | message _ hlength _ => exact hunfinished.2 _ _ _ hlength rfl
  | @trailers flags block trailers _ hlength _ =>
    exact hunfinished.2 flags block [] hlength (List.append_nil _).symm

/-- A message frame comes first, or the bytes are one frame of trailers. -/
theorem grammar_frame {flags : UInt8} {payload rest data : Bytes} {trailers : Option HeaderMap}
    (hlength : payload.length < 2 ^ 32)
    (h : Grammar (lengthPrefixed flags payload ++ rest) data trailers) :
    (flags &&& 0x80 = 0 ∧ ∃ more, data = lengthPrefixed flags payload ++ more ∧
        Grammar rest more trailers) ∨
      (flags &&& 0x80 ≠ 0 ∧ rest = [] ∧ data = [] ∧ ∃ decoded, trailers = some decoded ∧
        decode_grpc_web_trailer_block payload = .ok decoded) := by
  generalize hbytes : lengthPrefixed flags payload ++ rest = bytes at h
  cases h with
  | nil => exact absurd hbytes (lengthPrefixed_ne_nil _ _ _)
  | @message flags' payload' rest' data' _ hflags hlength' hrest =>
    obtain ⟨rfl, rfl, rfl⟩ := lengthPrefixed_injective hlength hlength' hbytes
    exact .inl ⟨hflags, data', rfl, hrest⟩
  | @trailers flags' block decoded hflags hlength' hblock =>
    rw [← List.append_nil (lengthPrefixed flags' block)] at hbytes
    obtain ⟨rfl, rfl, rfl⟩ := lengthPrefixed_injective hlength hlength' hbytes
    exact .inr ⟨hflags, rfl, rfl, decoded, rfl, hblock⟩

/-- The bytes decide the data and the trailers. -/
theorem grammar_unique {bytes data data' : Bytes} {trailers trailers' : Option HeaderMap}
    (h : Grammar bytes data trailers) (h' : Grammar bytes data' trailers') :
    data = data' ∧ trailers = trailers' := by
  induction h generalizing data' with
  | nil =>
    obtain ⟨rfl, rfl⟩ := grammar_nil h'
    exact ⟨rfl, rfl⟩
  | message hflags hlength _ ih =>
    rcases grammar_frame hlength h' with ⟨_, more, rfl, hmore⟩ | ⟨hne, _⟩
    · obtain ⟨rfl, rfl⟩ := ih hmore
      exact ⟨rfl, rfl⟩
    · exact absurd hflags hne
  | @trailers flags block _ hflags hlength hblock =>
    rw [← List.append_nil (lengthPrefixed flags block)] at h'
    rcases grammar_frame hlength h' with ⟨hzero, _⟩ | ⟨_, _, rfl, decoded, rfl, hdecoded⟩
    · exact absurd hzero hflags
    · rw [hblock] at hdecoded
      exact ⟨rfl, congrArg some (Except.ok.inj hdecoded)⟩

/-- A frame of trailers may follow whole messages. -/
theorem grammar_append {bytes data block : Bytes} {flags : UInt8} {trailers : HeaderMap}
    (h : Grammar bytes data none) (hflags : flags &&& 0x80 ≠ 0) (hlength : block.length < 2 ^ 32)
    (hblock : decode_grpc_web_trailer_block block = .ok trailers) :
    Grammar (bytes ++ lengthPrefixed flags block) data (some trailers) := by
  generalize hnone : (none : Option HeaderMap) = last at h
  induction h with
  | nil => exact .trailers hflags hlength hblock
  | message hzero hpayload _ ih =>
    rw [List.append_assoc]
    exact .message hzero hpayload (ih hnone)
  | trailers => cases hnone

/-- What a reader gets is what the grammar makes of the bytes, with the trailers of the inner body
at the end. -/
def Decodes (bytes : Bytes) (inner_trailers : Option HeaderMap) :
    IoResult (List BodyFrame) → Prop
  | .ok frames => ∃ trailers, Grammar bytes (data_of frames) trailers ∧
      trailers_of frames = trailers.getD [] ++ inner_trailers.getD []
  | .error _ => ∀ data trailers, ¬ Grammar bytes data trailers

namespace GrpcWebRequestBody

variable [Ends B BodyFrame IoError]

/-- At the end of the inner body nothing may be left. -/
theorem read_finished (inner : B) (inner_trailers : Option HeaderMap) (saw : Bool) :
    read (GrpcWebRequestBody.mk inner true inner_trailers [] saw) =
      .ok (inner_trailers.toList.map .Trailers) := by
  have hdecode : ∀ inner_trailers, decode_grpc_web_request_frame
      (GrpcWebRequestBody.mk inner true inner_trailers [] saw).buffer true saw = (.ok none, []) :=
    fun _ => rfl
  have hnone : read (GrpcWebRequestBody.mk inner true none [] saw) = .ok [] :=
    read_of_end (poll_of_finished (hdecode none) rfl)
  cases inner_trailers with
  | none => exact hnone
  | some trailers =>
    rw [read_of_frame (poll_of_finished (hdecode (some trailers)) rfl), hnone]
    rfl

theorem read_unfinished (inner : B) (inner_trailers : Option HeaderMap) {buffer : Bytes}
    (h : Unfinished buffer) :
    ∃ error, read (GrpcWebRequestBody.mk inner true inner_trailers buffer false) = .error error := by
  obtain ⟨error, herror⟩ := (decode_unfinished h "request").2
  exact ⟨error, read_of_error (poll_of_error herror)⟩

/-- After the frame of trailers no byte may follow. -/
theorem read_after_trailers (inner : B) {chunks : List Bytes} {trailers : Option HeaderMap}
    (h : read inner = .ok (supplied chunks trailers)) :
    (chunks.flatten = [] → read (GrpcWebRequestBody.mk inner false none [] true) =
        .ok (trailers.toList.map .Trailers)) ∧
      (chunks.flatten ≠ [] → ∃ error,
        read (GrpcWebRequestBody.mk inner false none [] true) = .error error) := by
  induction inner using poll_induction generalizing chunks with
  | step inner ih =>
    have hdecode : decode_grpc_web_request_frame [] false true = (.ok none, []) := rfl
    have hpoll := @poll_of_reading B _ _ ⟨inner, false, none, [], true⟩ _ hdecode rfl
    dsimp only at hpoll
    cases first_poll h with
    | pending hinner hread =>
      rw [hinner] at hpoll
      rw [read_of_pending hpoll]
      exact ih _ (.pending hinner) hread
    | last hinner =>
      rw [hinner] at hpoll
      rw [read_congr hpoll, read_finished]
      exact ⟨fun _ => rfl, fun hne => absurd rfl hne⟩
    | @data next data chunks _ hinner hread =>
      rw [hinner] at hpoll
      dsimp only at hpoll
      by_cases hdata : data = []
      · subst hdata
        rw [if_neg fun hne => hne.2 rfl] at hpoll
        rw [read_congr hpoll, List.flatten_cons, List.nil_append]
        exact ih _ (.frame hinner) hread
      · rw [if_pos ⟨rfl, hdata⟩] at hpoll
        refine ⟨fun hnil => ?_, fun _ => ⟨_, read_of_error hpoll⟩⟩
        rw [List.flatten_cons, List.append_eq_nil_iff] at hnil
        exact absurd hnil.1 hdata
    | trailers hinner hread =>
      rw [hinner] at hpoll
      rw [read_congr hpoll, read_finished]
      exact ⟨fun _ => rfl, fun hne => absurd rfl hne⟩

theorem Decodes.message {flags : UInt8} {payload rest : Bytes} {trailers : Option HeaderMap}
    {result : IoResult (List BodyFrame)} (hflags : flags &&& 0x80 = 0)
    (hlength : payload.length < 2 ^ 32) (h : Decodes rest trailers result) :
    Decodes (lengthPrefixed flags payload ++ rest) trailers
      (result.map (.Data (lengthPrefixed flags payload) :: ·)) := by
  cases result with
  | error error =>
    intro data decoded hgrammar
    rcases grammar_frame hlength hgrammar with ⟨_, more, _, hmore⟩ | ⟨hne, _⟩
    · exact h more decoded hmore
    · exact hne hflags
  | ok frames =>
    obtain ⟨decoded, hgrammar, htrailers⟩ := h
    exact ⟨decoded, .message hflags hlength hgrammar, htrailers⟩

/-- Trailers that are empty are not given, and nobody misses them. -/
theorem Decodes.without_empty {bytes : Bytes} {trailers : Option HeaderMap}
    {result : IoResult (List BodyFrame)}
    (h : Decodes bytes trailers (result.map (.Trailers [] :: ·))) :
    Decodes bytes trailers result := by
  cases result with
  | error error => exact h
  | ok frames => exact h

/-- The frame of trailers ends the data. -/
theorem decodes_trailers {inner : B} {chunks : List Bytes} {inner_trailers : Option HeaderMap}
    {flags : UInt8} {block rest : Bytes} (hread : read inner = .ok (supplied chunks inner_trailers))
    (hflags : flags &&& 0x80 ≠ 0) (hlength : block.length < 2 ^ 32) :
    Decodes (lengthPrefixed flags block ++ rest ++ chunks.flatten) inner_trailers
      (read (GrpcWebRequestBody.mk inner false none (lengthPrefixed flags block ++ rest) false)) := by
  obtain ⟨this, hthis⟩ : ∃ this, this =
      GrpcWebRequestBody.mk inner false none (lengthPrefixed flags block ++ rest) false := ⟨_, rfl⟩
  have hdecode : decode_grpc_web_request_frame this.buffer this.inner_finished
      this.saw_grpc_web_trailers = ((decode_grpc_web_trailer_block block).map
        fun trailers => some (.Trailers trailers), rest) := by
    have hframe := decode_lengthPrefixed "request" false flags hlength rest
    rw [if_pos hflags] at hframe
    rw [hthis]
    exact hframe
  rw [List.append_assoc, ← hthis]
  cases hblock : decode_grpc_web_trailer_block block with
  | error error =>
    rw [hblock] at hdecode
    rw [read_of_error (poll_of_error hdecode)]
    intro data decoded hgrammar
    rcases grammar_frame hlength hgrammar with ⟨hzero, _⟩ | ⟨_, _, _, decoded, _, hok⟩
    · exact hflags hzero
    · rw [hblock] at hok
      cases hok
  | ok trailers =>
    rw [hblock] at hdecode
    -- The rest of the buffer, and of the inner body, has to be empty now.
    have hrest : Decodes (lengthPrefixed flags block ++ (rest ++ chunks.flatten)) inner_trailers
        ((read (GrpcWebRequestBody.mk inner false none rest true)).map
          (.Trailers trailers :: ·)) := by
      by_cases hnil : rest ++ chunks.flatten = []
      · obtain ⟨rfl, hchunks⟩ := List.append_eq_nil_iff.mp hnil
        rw [(read_after_trailers inner hread).1 hchunks, hchunks, List.append_nil, List.append_nil]
        refine ⟨some trailers, ?_, ?_⟩
        · have hdata := data_of_supplied [] inner_trailers
          simp only [supplied, List.map_nil, List.nil_append, List.flatten_nil] at hdata
          rw [data_of, hdata]
          exact .trailers hflags hlength hblock
        · have htrailers := trailers_of_supplied [] inner_trailers
          simp only [supplied, List.map_nil, List.nil_append] at htrailers
          rw [trailers_of, htrailers]
          rfl
      · have herror : ∃ error, read (GrpcWebRequestBody.mk inner false none rest true) =
            .error error := by
          by_cases hrest : rest = []
          · subst hrest
            exact (read_after_trailers inner hread).2 hnil
          · exact ⟨_, read_of_error (poll_of_error (decode_after_trailers "request" false hrest))⟩
        obtain ⟨error, herror⟩ := herror
        rw [herror]
        intro data decoded hgrammar
        rcases grammar_frame hlength hgrammar with ⟨hzero, _⟩ | ⟨_, hempty, _⟩
        · exact hflags hzero
        · exact hnil hempty
    have hpoll := poll_of_trailers hdecode
    simp only [hthis, Option.getD_none, append_header_map, List.append_nil] at hpoll
    rw [hthis]
    by_cases hempty : trailers = []
    · rw [if_pos hempty] at hpoll
      rw [read_congr hpoll]
      exact Decodes.without_empty (hempty ▸ hrest)
    · rw [if_neg hempty] at hpoll
      rw [read_of_frame hpoll]
      exact hrest

/-- A buffer without a whole frame waits for the inner body. -/
theorem decodes_waiting {inner : B} {chunks : List Bytes} {inner_trailers : Option HeaderMap}
    {buffer : Bytes} (hread : read inner = .ok (supplied chunks inner_trailers))
    (hbuffer : buffer = [] ∨ Unfinished buffer)
    (ih : ∀ next, After next inner → ∀ chunks buffer,
      read next = .ok (supplied chunks inner_trailers) →
      Decodes (buffer ++ chunks.flatten) inner_trailers
        (read (GrpcWebRequestBody.mk next false none buffer false))) :
    Decodes (buffer ++ chunks.flatten) inner_trailers
      (read (GrpcWebRequestBody.mk inner false none buffer false)) := by
  have hdecode : decode_grpc_web_request_frame buffer false false = (.ok none, buffer) := by
    rcases hbuffer with rfl | hunfinished
    · rfl
    · exact (decode_unfinished hunfinished "request").1
  have hpoll := @poll_of_reading B _ _ ⟨inner, false, none, buffer, false⟩ _ hdecode rfl
  -- The inner body has ended, with trailers or without.
  have hfinished : ∀ next : B, Decodes buffer inner_trailers
      (read (GrpcWebRequestBody.mk next true inner_trailers buffer false)) := by
    intro next
    rcases hbuffer with rfl | hunfinished
    · rw [read_finished]
      have hdata := data_of_supplied [] inner_trailers
      have htrailers := trailers_of_supplied [] inner_trailers
      simp only [supplied, List.map_nil, List.nil_append, List.flatten_nil] at hdata htrailers
      refine ⟨none, ?_, ?_⟩
      · rw [hdata]
        exact .nil
      · rw [htrailers]
        rfl
    · obtain ⟨error, herror⟩ := read_unfinished next inner_trailers hunfinished
      rw [herror]
      exact fun data decoded => grammar_unfinished hunfinished
  cases first_poll hread with
  | pending hinner hnext =>
    rw [hinner] at hpoll
    rw [read_of_pending hpoll]
    exact ih _ (.pending hinner) chunks buffer hnext
  | last hinner =>
    rw [hinner] at hpoll
    rw [read_congr hpoll, List.flatten_nil, List.append_nil]
    exact hfinished _
  | @data next data chunks _ hinner hnext =>
    rw [hinner] at hpoll
    dsimp only at hpoll
    rw [if_neg (by simp)] at hpoll
    rw [read_congr hpoll, List.flatten_cons, ← List.append_assoc]
    exact ih _ (.frame hinner) chunks (buffer ++ data) hnext
  | trailers hinner hnext =>
    rw [hinner] at hpoll
    rw [read_congr hpoll, List.flatten_nil, List.append_nil]
    exact hfinished _

/-- What waits in the buffer and what the inner body still gives are decoded as one. -/
theorem decodes_buffered (inner : B) (inner_trailers : Option HeaderMap) :
    ∀ chunks buffer, read inner = .ok (supplied chunks inner_trailers) →
      Decodes (buffer ++ chunks.flatten) inner_trailers
        (read (GrpcWebRequestBody.mk inner false none buffer false)) := by
  induction inner using poll_induction with
  | step inner ih =>
    intro chunks buffer hread
    induction hlen : buffer.length using Nat.strong_induction_on generalizing buffer with
    | _ len ihbuffer =>
      rcases buffer_cases buffer with hnil | hunfinished | ⟨flags, payload, rest, hlength, rfl⟩
      · exact decodes_waiting hread (.inl hnil) ih
      · exact decodes_waiting hread (.inr hunfinished) ih
      · by_cases hflags : flags &&& 0x80 = 0
        · have hdecode := decode_lengthPrefixed "request" false flags hlength rest
          rw [if_neg (not_not.mpr hflags)] at hdecode
          have hpoll := @poll_of_data B _ _
            ⟨inner, false, none, lengthPrefixed flags payload ++ rest, false⟩ _ _ hdecode
          rw [read_of_frame hpoll, List.append_assoc]
          have hshorter : rest.length < len := by
            rw [← hlen, lengthPrefixed_append]
            simp only [List.length_cons, List.length_append]
            omega
          exact Decodes.message hflags hlength (ihbuffer _ hshorter rest rfl)
        · exact decodes_trailers hread hflags hlength

theorem decodes (inner : B) {chunks : List Bytes} {inner_trailers : Option HeaderMap}
    (h : read inner = .ok (supplied chunks inner_trailers)) :
    Decodes chunks.flatten inner_trailers (read (GrpcWebRequestBody.new inner)) :=
  decodes_buffered inner inner_trailers chunks [] h

/-- The frames in the buffer change nothing about an error that follows them. -/
theorem error_of_inner {inner : B}
    (h : ∀ buffer saw, decode_grpc_web_request_frame buffer false saw = (.ok none, buffer) →
      ∃ error, read (GrpcWebRequestBody.mk inner false none buffer saw) = .error error)
    (buffer : Bytes) (saw : Bool) :
    ∃ error, read (GrpcWebRequestBody.mk inner false none buffer saw) = .error error := by
  induction hlen : buffer.length using Nat.strong_induction_on generalizing buffer saw with
  | _ len ih =>
    rcases hdecode : decode_grpc_web_request_frame buffer false saw with
      ⟨error | _ | ⟨data⟩ | ⟨trailers⟩, rest⟩
    · exact ⟨_, read_of_error (@poll_of_error B _ _ ⟨inner, false, none, buffer, saw⟩ _ _ hdecode)⟩
    · rw [decode_none hdecode] at hdecode
      exact h buffer saw hdecode
    · have hshorter := decode_shorter hdecode
      obtain ⟨error, herror⟩ := ih _ (hlen ▸ hshorter) rest saw rfl
      have hpoll := @poll_of_data B _ _ ⟨inner, false, none, buffer, saw⟩ _ _ hdecode
      rw [read_of_frame hpoll, herror]
      exact ⟨error, rfl⟩
    · have hshorter := decode_shorter hdecode
      obtain ⟨error, herror⟩ := ih _ (hlen ▸ hshorter) rest true rfl
      have hpoll := @poll_of_trailers B _ _ ⟨inner, false, none, buffer, saw⟩ _ _ hdecode
      split at hpoll
      · rw [read_congr hpoll]
        exact ⟨error, herror⟩
      · rw [read_of_frame hpoll, herror]
        exact ⟨error, rfl⟩

/-- An error of the inner body comes out, unless another one came before it. -/
theorem read_of_breaks {inner : B} (h : Breaks inner) :
    ∀ buffer saw, ∃ error,
      read (GrpcWebRequestBody.mk inner false none buffer saw) = .error error := by
  induction h with
  | @pending inner next hinner _ ih =>
    refine error_of_inner fun buffer saw hdecode => ?_
    have hpoll := @poll_of_reading B _ _ ⟨inner, false, none, buffer, saw⟩ _ hdecode rfl
    rw [hinner] at hpoll
    rw [read_of_pending hpoll]
    exact ih buffer saw
  | @data inner next data hinner _ ih =>
    refine error_of_inner fun buffer saw hdecode => ?_
    have hpoll := @poll_of_reading B _ _ ⟨inner, false, none, buffer, saw⟩ _ hdecode rfl
    rw [hinner] at hpoll
    dsimp only at hpoll
    split at hpoll
    · exact ⟨_, read_of_error hpoll⟩
    · rw [read_congr hpoll]
      exact ih _ saw
  | @error inner next error hinner =>
    refine error_of_inner fun buffer saw hdecode => ?_
    have hpoll := @poll_of_reading B _ _ ⟨inner, false, none, buffer, saw⟩ _ hdecode rfl
    rw [hinner] at hpoll
    exact ⟨_, read_of_error hpoll⟩

end GrpcWebRequestBody

end rginx.grpc_web
