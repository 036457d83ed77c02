-- The body of a request between the client and the upstream, from `timeout/body/idle.rs`,
-- `timeout/body/max_bytes.rs` and `proxy/request_body/prepare.rs`: the layers over the body, and the
-- choice between a body that is collected and one that is streamed.
import Rginx.CacheKeys
import Rginx.GrpcWebTexts

open rust_text rginx.cache rginx.grpc_web polled_bodies

namespace rginx.proxy

/-! ## Layers -/

structure SizeHint where
  lower : Nat
  upper : Option Nat
  deriving DecidableEq, Repr

def SizeHint.default : SizeHint := ⟨0, none⟩

/-- What `hyper::body::Body` tells of a body without a poll. -/
class SizedBody (B : Type) where
  is_end_stream : B → Bool
  size_hint : B → SizeHint

inductive BoxError
  | Io (error : IoError)
  | RequestBodyLimit (max_request_body_bytes : Nat)
  deriving DecidableEq, Repr

/-- The timer is known by what it says at the polls to come that find nothing: whether the idle
time is over. -/
structure IdleTimeoutBody (B : Type) where
  inner : B
  timeout_ms : Nat
  label : String
  expired : List Bool
  done : Bool

structure MaxBytesBody (B : Type) where
  inner : B
  max_request_body_bytes : Nat
  bytes_read : Nat
  done : Bool

def is_trailers : BodyFrame → Bool
  | .Data _ => false
  | .Trailers _ => true

section Layers

variable {B : Type} [Body B BodyFrame IoError]

def IdleTimeoutBody.new (inner : B) (timeout_ms : Nat) (label : String) (expired : List Bool) :
    IdleTimeoutBody B :=
  ⟨inner, timeout_ms, label, expired, false⟩

def IdleTimeoutBody.stalled (this : IdleTimeoutBody B) : IoError :=
  ⟨.TimedOut, this.label ++ " stalled for " ++ toString this.timeout_ms ++ " ms"⟩

def IdleTimeoutBody.poll_frame (this : IdleTimeoutBody B) :
    Poll (Option (IoResult BodyFrame)) × IdleTimeoutBody B :=
  if this.done then (.Ready none, this)
  else
    match Body.poll_frame this.inner with
    | (.Ready (some (.ok frame)), inner) =>
      (.Ready (some (.ok frame)), { this with inner, done := is_trailers frame })
    | (.Ready (some (.error error)), inner) =>
      (.Ready (some (.error error)), { this with inner, done := true })
    | (.Ready none, inner) => (.Ready none, { this with inner, done := true })
    | (.Pending, inner) =>
      let expired := this.expired.tail
      if this.expired.headD false then
        (.Ready (some (.error this.stalled)), { this with inner, expired, done := true })
      else (.Pending, { this with inner, expired })

instance : Body (IdleTimeoutBody B) BodyFrame IoError := ⟨IdleTimeoutBody.poll_frame⟩

def MaxBytesBody.new (inner : B) (max_request_body_bytes : Nat) : MaxBytesBody B :=
  ⟨inner, max_request_body_bytes, 0, false⟩

def MaxBytesBody.poll_frame (this : MaxBytesBody B) :
    Poll (Option (Except BoxError BodyFrame)) × MaxBytesBody B :=
  if this.done then (.Ready none, this)
  else
    match Body.poll_frame this.inner with
    | (.Ready (some (.ok (.Data data))), inner) =>
      if this.max_request_body_bytes - this.bytes_read < data.length then
        (.Ready (some (.error (.RequestBodyLimit this.max_request_body_bytes))),
          { this with inner, done := true })
      else
        (.Ready (some (.ok (.Data data))),
          { this with inner, bytes_read := this.bytes_read + data.length })
    | (.Ready (some (.ok (.Trailers trailers))), inner) =>
      (.Ready (some (.ok (.Trailers trailers))), { this with inner, done := true })
    | (.Ready (some (.error error)), inner) =>
      (.Ready (some (.error (.Io error))), { this with inner, done := true })
    | (.Ready none, inner) => (.Ready none, { this with inner, done := true })
    | (.Pending, inner) => (.Pending, { this with inner })

instance : Body (MaxBytesBody B) BodyFrame BoxError := ⟨MaxBytesBody.poll_frame⟩

theorem IdleTimeoutBody.relays (this : IdleTimeoutBody B) :
    Relays IdleTimeoutBody.inner IdleTimeoutBody.done is_trailers this := by
  by_cases hdone : this.done
  · exact .done hdone (if_pos hdone)
  · have hopen : this.done = false := Bool.eq_false_iff.mpr hdone
    have hpoll : Body.poll_frame this = this.poll_frame := rfl
    rw [IdleTimeoutBody.poll_frame, if_neg hdone] at hpoll
    rcases hinner : Body.poll_frame this.inner with ⟨_ | _ | error | frame, inner⟩
    · rw [hinner] at hpoll
      dsimp only at hpoll
      split at hpoll
      · exact .error hopen hpoll
      · exact .pending hopen hinner hpoll hopen
    · exact .ended hopen hinner (hinner ▸ hpoll)
    · exact .error hopen (hinner ▸ hpoll)
    · exact .frame hopen hinner (hinner ▸ hpoll) rfl

theorem MaxBytesBody.relays (this : MaxBytesBody B) :
    Relays MaxBytesBody.inner MaxBytesBody.done is_trailers this := by
  by_cases hdone : this.done
  · exact .done hdone (if_pos hdone)
  · have hopen : this.done = false := Bool.eq_false_iff.mpr hdone
    have hpoll : Body.poll_frame this = this.poll_frame := rfl
    rw [MaxBytesBody.poll_frame, if_neg hdone] at hpoll
    rcases hinner : Body.poll_frame this.inner with ⟨_ | _ | error | frame, inner⟩
    · rw [hinner] at hpoll
      exact .pending hopen hinner hpoll hopen
    · exact .ended hopen hinner (hinner ▸ hpoll)
    · exact .error hopen (hinner ▸ hpoll)
    · cases frame with
      | Data data =>
        rw [hinner] at hpoll
        dsimp only at hpoll
        split at hpoll
        · exact .error hopen hpoll
        · exact .frame hopen hinner hpoll hopen
      | Trailers trailers => exact .frame hopen hinner (hinner ▸ hpoll) rfl

variable [Ends B BodyFrame IoError]

instance : Ends (IdleTimeoutBody B) BodyFrame IoError := ⟨ends_of_relays IdleTimeoutBody.relays⟩

instance : Ends (MaxBytesBody B) BodyFrame BoxError := ⟨ends_of_relays MaxBytesBody.relays⟩

variable [SizedBody B]

instance : SizedBody (IdleTimeoutBody B) where
  is_end_stream this := this.done
  size_hint this := SizedBody.size_hint this.inner

instance : SizedBody (MaxBytesBody B) where
  is_end_stream this := this.done || SizedBody.is_end_stream this.inner
  size_hint this :=
    let remaining := this.max_request_body_bytes - this.bytes_read
    let inner := SizedBody.size_hint this.inner
    ⟨min inner.lower remaining, some ((inner.upper.map (min · remaining)).getD remaining)⟩

end Layers

instance {B : Type} : SizedBody (GrpcWebTextDecodeBody B) where
  is_end_stream this := this.inner_finished && this.pending_trailers.isNone && this.carryover.isEmpty
  size_hint _ := SizeHint.default

instance {B : Type} : SizedBody (GrpcWebRequestBody B) where
  is_end_stream this := this.inner_finished && this.inner_trailers.isNone && this.buffer.isEmpty
  size_hint _ := SizeHint.default

/-- `HttpBody`, a boxed body: the frames that it gives up to its end or its first error, and what
it tells without a poll. -/
structure HttpBody where
  frames : List BodyFrame
  error : Option BoxError
  is_end_stream : Bool
  size_hint : SizeHint

inductive GrpcWebEncoding
  | Binary
  | Text
  deriving DecidableEq, Repr

section Requests

def boxed_unsync {B E : Type} [Body B BodyFrame E] [Ends B BodyFrame E] [SizedBody B]
    (to_box_error : E → BoxError) (body : B) : HttpBody :=
  ⟨(drain body).1, (drain body).2.map to_box_error, SizedBody.is_end_stream body,
    SizedBody.size_hint body⟩

/-- The outermost layer, where there is a limit. -/
def limited_body {B : Type} [Body B BodyFrame IoError] [Ends B BodyFrame IoError] [SizedBody B]
    (max_request_body_bytes : Option Nat) (body : B) : HttpBody :=
  match max_request_body_bytes with
  | some max_request_body_bytes => boxed_unsync id (MaxBytesBody.new body max_request_body_bytes)
  | none => boxed_unsync .Io body

variable {B : Type} [Body B BodyFrame IoError] [Ends B BodyFrame IoError] [SizedBody B]

def downstream_request_body (body : B) (body_timeout : Nat) (label : String) (expired : List Bool)
    (grpc_web_mode : Option GrpcWebEncoding) (max_request_body_bytes : Option Nat) : HttpBody :=
  let body := IdleTimeoutBody.new body body_timeout label expired
  match grpc_web_mode with
  | some .Text => limited_body max_request_body_bytes
      (GrpcWebRequestBody.new (GrpcWebTextDecodeBody.new body))
  | some .Binary => limited_body max_request_body_bytes (GrpcWebRequestBody.new body)
  | none => limited_body max_request_body_bytes body

/-! ## Preparing -/

def TE : HeaderName := ⟨"te", rfl⟩

inductive RouteBufferingPolicy
  | Auto
  | On
  | Off
  deriving DecidableEq, Repr

inductive PrepareRequestError
  | PayloadTooLarge (max_request_body_bytes : Nat)
  | Other (error : BoxError)
  deriving DecidableEq, Repr

def PrepareRequestError.boxed : BoxError → PrepareRequestError
  | .RequestBodyLimit max_request_body_bytes => .PayloadTooLarge max_request_body_bytes
  | error => .Other error

/-- Whether `preserved_te_trailers_value` finds a value: every token of `TE` is `trailers`, and
there is one. -/
def preserves_te_trailers (headers : HeaderMap) : Bool :=
  match (headers.get_all TE).mapM HeaderValue.to_str with
  | none => false
  | some values =>
    let tokens := values.flatMap fun value => ((split ',' value).map trim).filter (· ≠ [])
    tokens ≠ [] && tokens.all fun token => eq_ignore_ascii_case token "trailers".toList

def is_idempotent_method (method : Method) : Bool :=
  method = .GET || method = .HEAD || method = .PUT || method = .DELETE || method = .OPTIONS ||
    method = .TRACE

structure CollectedRequestBody where
  body : Bytes
  trailers : Option HeaderMap

inductive PreparedRequestBody
  | Replayable (body : Bytes) (trailers : Option HeaderMap)
  | Streaming (body : Option HttpBody)

structure PrepareRequestBodyConfig where
  upstream_name : String
  method : Method
  headers : HeaderMap
  body_timeout : Nat
  max_replayable_request_body_bytes : Nat
  max_request_body_bytes : Option Nat
  request_buffering : RouteBufferingPolicy
  grpc_web_mode : Option GrpcWebEncoding

/-- The loop of `collect_request_body`, over the frames of the body. -/
def collect_loop (collected : CollectedRequestBody) : List BodyFrame → CollectedRequestBody
  | [] => collected
  | .Data data :: frames => collect_loop { collected with body := collected.body ++ data } frames
  | .Trailers frame_trailers :: frames =>
    let trailers := match collected.trailers with
      | some existing => append_header_map existing frame_trailers
      | none => frame_trailers
    collect_loop { collected with trailers := some trailers } frames

/-- A body that ends in an error is not collected. -/
def collect_request_body (body : HttpBody) : Except PrepareRequestError CollectedRequestBody :=
  match body.error with
  | some error => .error (.boxed error)
  | none => .ok (collect_loop ⟨[], none⟩ body.frames)

def collected_body (body : HttpBody) : Except PrepareRequestError PreparedRequestBody :=
  (collect_request_body body).map fun collected => .Replayable collected.body collected.trailers

def PrepareRequestBodyConfig.downstream_body (config : PrepareRequestBodyConfig)
    (expired : List Bool) (body : B) : HttpBody :=
  downstream_request_body body config.body_timeout
    ("upstream `" ++ config.upstream_name ++ "` request body") expired config.grpc_web_mode
    config.max_request_body_bytes

def prepare_request_body (body : B) (expired : List Bool) (config : PrepareRequestBodyConfig) :
    Except PrepareRequestError PreparedRequestBody :=
  match config.max_request_body_bytes.filter (· < (SizedBody.size_hint body).lower) with
  | some max_request_body_bytes => .error (.PayloadTooLarge max_request_body_bytes)
  | none =>
    let body := config.downstream_body expired body
    if body.is_end_stream then
      match config.request_buffering with
      | .Off => .ok (.Streaming (some body))
      | .On | .Auto => .ok (.Replayable [] none)
    else if config.grpc_web_mode.isSome then collected_body body
    else
      match config.request_buffering with
      | .Off => .ok (.Streaming (some body))
      | .On =>
        if !preserves_te_trailers config.headers then collected_body body
        else .ok (.Streaming (some body))
      | .Auto =>
        if !preserves_te_trailers config.headers && is_idempotent_method config.method &&
            body.size_hint.upper.any (· ≤ config.max_replayable_request_body_bytes) then
          collected_body body
        else .ok (.Streaming (some body))

/-! ## What is collected -/

/-- A fresh layer has not ended, whatever its inner body says. -/
theorem downstream_body_not_ended (config : PrepareRequestBodyConfig) (expired : List Bool)
    (body : B) : (config.downstream_body expired body).is_end_stream = false := by
  unfold PrepareRequestBodyConfig.downstream_body downstream_request_body limited_body
  rcases config.grpc_web_mode with _ | _ | _ <;> cases config.max_request_body_bytes <;> rfl

/-- Where it is not decoded, a body that ends without an error is the one of the client, up to its
trailers. -/
theorem downstream_body_whole {config : PrepareRequestBodyConfig} {expired : List Bool} {body : B}
    (hgrpc : config.grpc_web_mode = none)
    (herror : (config.downstream_body expired body).error = none) :
    (config.downstream_body expired body).frames = up_to is_trailers (drain body).1 ∧
      ((drain body).1.any is_trailers ∨ (drain body).2 = none) := by
  unfold PrepareRequestBodyConfig.downstream_body downstream_request_body limited_body at herror ⊢
  rw [hgrpc] at herror ⊢
  cases hlimit : config.max_request_body_bytes with
  | none =>
    rw [hlimit] at herror
    exact drain_relayed IdleTimeoutBody.relays rfl (Option.map_eq_none_iff.mp herror)
  | some max_request_body_bytes =>
    rw [hlimit] at herror
    obtain ⟨hframes, hended⟩ :=
      drain_relayed MaxBytesBody.relays rfl (Option.map_eq_none_iff.mp herror)
    -- the idle timer has nothing after the trailers
    obtain ⟨hstops, htrailers⟩ := drain_stops IdleTimeoutBody.relays (IdleTimeoutBody.new body
      config.body_timeout ("upstream `" ++ config.upstream_name ++ "` request body") expired)
    obtain ⟨hidle, hinner⟩ := drain_relayed IdleTimeoutBody.relays rfl (hended.elim htrailers id)
    exact ⟨hframes.trans (hstops.trans hidle), hinner⟩

theorem collected_body_ok {body : HttpBody} {prepared : PreparedRequestBody}
    (h : collected_body body = .ok prepared) :
    body.error = none ∧ prepared = .Replayable (collect_loop ⟨[], none⟩ body.frames).body
      (collect_loop ⟨[], none⟩ body.frames).trailers := by
  unfold collected_body collect_request_body at h
  cases herror : body.error with
  | some error =>
    rw [herror] at h
    cases h
  | none =>
    rw [herror] at h
    exact ⟨rfl, (Except.ok.inj h).symm⟩

/-- The loop gathers the data and the trailers of the frames. -/
theorem collect_loop_eq (frames : List BodyFrame) (collected : CollectedRequestBody) :
    (collect_loop collected frames).body = collected.body ++ data_of frames ∧
      (collect_loop collected frames).trailers.getD [] =
        collected.trailers.getD [] ++ trailers_of frames := by
  induction frames generalizing collected with
  | nil => simp [collect_loop, data_of, trailers_of]
  | cons frame frames ih =>
    cases frame with
    | Data data =>
      rw [collect_loop, (ih _).1, (ih _).2]
      simp [data_of, trailers_of]
    | Trailers trailers =>
      rw [collect_loop, (ih _).1, (ih _).2]
      cases collected.trailers <;> simp [data_of, trailers_of, append_header_map]

/-- A body that may be replayed was read to its end, and has all of its data and trailers; one
that is streamed has not been taken yet. -/
theorem prepare_request_body_ok {body : B} {expired : List Bool} {config : PrepareRequestBodyConfig}
    {prepared : PreparedRequestBody} (h : prepare_request_body body expired config = .ok prepared) :
    (prepared = .Streaming (some (config.downstream_body expired body))) ∨
      ((config.downstream_body expired body).error = none ∧ ∃ trailers,
        prepared = .Replayable (data_of (config.downstream_body expired body).frames) trailers ∧
        trailers.getD [] = trailers_of (config.downstream_body expired body).frames) := by
  have hcollected : ∀ {prepared}, collected_body (config.downstream_body expired body) =
      .ok prepared → (config.downstream_body expired body).error = none ∧ ∃ trailers,
        prepared = .Replayable (data_of (config.downstream_body expired body).frames) trailers ∧
        trailers.getD [] = trailers_of (config.downstream_body expired body).frames := by
    intro prepared hprepared
    obtain ⟨herror, rfl⟩ := collected_body_ok hprepared
    obtain ⟨hbody, htrailers⟩ := collect_loop_eq (config.downstream_body expired body).frames ⟨[], none⟩
    exact ⟨herror, _, by rw [hbody]; rfl, by rw [htrailers]; rfl⟩
  unfold prepare_request_body at h
  split at h
  · cases h
  · dsimp only at h
    rw [downstream_body_not_ended, if_neg Bool.false_ne_true] at h
    by_cases hgrpc : config.grpc_web_mode.isSome
    · rw [if_pos hgrpc] at h
      exact .inr (hcollected h)
    · rw [if_neg hgrpc] at h
      split at h
      · exact .inl (Except.ok.inj h).symm
      · split at h
        · exact .inr (hcollected h)
        · exact .inl (Except.ok.inj h).symm
      · split at h
        · exact .inr (hcollected h)
        · exact .inl (Except.ok.inj h).symm

end Requests

end rginx.proxy
