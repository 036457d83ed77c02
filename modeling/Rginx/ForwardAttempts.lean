-- The attempts of a proxied request, from `proxy/request_body/replay.rs`, `proxy/forward/setup.rs` and
-- `proxy/forward/attempt/primary.rs`: what goes to each peer, and when the next peer has its turn.
-- A body goes to one peer, unless it was collected and the method may be repeated.
import Rginx.PeerSelection
import Rginx.RequestBodies
import Rginx.RouteSelection

open rust_text rginx.cache rginx.grpc_web rginx.http polled_bodies

namespace rginx.proxy

/-! ## A body that is sent again -/

structure ReplayableRequestBody where
  body : Option Bytes
  trailers : Option HeaderMap

def ReplayableRequestBody.new (body : Bytes) (trailers : Option HeaderMap) :
    ReplayableRequestBody :=
  ⟨some body, trailers⟩

def ReplayableRequestBody.poll_frame (this : ReplayableRequestBody) :
    Poll (Option (Except BoxError BodyFrame)) × ReplayableRequestBody :=
  match this.body.filter (!·.isEmpty) with
  | some body => (.Ready (some (.ok (.Data body))), { this with body := none })
  | none =>
    match this.trailers with
    | some trailers => (.Ready (some (.ok (.Trailers trailers))), ⟨none, none⟩)
    | none => (.Ready none, ⟨none, none⟩)

instance : Body ReplayableRequestBody BodyFrame BoxError := ⟨ReplayableRequestBody.poll_frame⟩

/-- How many frames are left. -/
def ReplayableRequestBody.left (this : ReplayableRequestBody) : Nat :=
  (this.body.filter (!·.isEmpty)).toList.length + this.trailers.toList.length

theorem ReplayableRequestBody.left_of_after {next this : ReplayableRequestBody}
    (h : After next this) : next.left < this.left := by
  rcases h with h | h
  · change this.poll_frame = _ at h
    unfold ReplayableRequestBody.poll_frame at h
    split at h
    · cases h
    · split at h <;> cases h
  · change this.poll_frame = _ at h
    unfold ReplayableRequestBody.poll_frame at h
    split at h
    · rename_i body hbody
      obtain ⟨-, rfl⟩ := Prod.mk.inj h
      simp [left, hbody]
    · rename_i hnone
      split at h
      · rename_i trailers htrailers
        obtain ⟨-, rfl⟩ := Prod.mk.inj h
        simp [left, htrailers]
      · cases h

instance : Ends ReplayableRequestBody BodyFrame BoxError where
  ends := Subrelation.wf ReplayableRequestBody.left_of_after
    (measure ReplayableRequestBody.left).wf

instance : SizedBody ReplayableRequestBody where
  is_end_stream this := this.body.all List.isEmpty && this.trailers.isNone
  size_hint this :=
    let exact := (this.body.map List.length).getD 0
    ⟨exact, some exact⟩

/-- A body gives its data and its trailers each time it is sent. -/
theorem drain_replayable (body : Bytes) (trailers : Option HeaderMap) :
    drain (ReplayableRequestBody.new body trailers) =
      (supplied (if body = [] then [] else [body]) trailers, none) := by
  have htrailers : ∀ rest : Option Bytes, rest.filter (!·.isEmpty) = none →
      drain (ReplayableRequestBody.mk rest trailers) = (supplied [] trailers, none) := by
    intro rest hrest
    cases trailers with
    | none =>
      have hend : Body.poll_frame (ReplayableRequestBody.mk rest none) =
          (.Ready none, ⟨none, none⟩) := by
        show ReplayableRequestBody.poll_frame _ = _
        simp [ReplayableRequestBody.poll_frame, hrest]
      exact drain_of_end hend
    | some trailers =>
      have hpoll : Body.poll_frame (ReplayableRequestBody.mk rest (some trailers)) =
          (.Ready (some (.ok (.Trailers trailers))), ⟨none, none⟩) := by
        show ReplayableRequestBody.poll_frame _ = _
        simp [ReplayableRequestBody.poll_frame, hrest]
      have hend : Body.poll_frame (ReplayableRequestBody.mk none none) =
          (.Ready none, ⟨none, none⟩) := rfl
      rw [drain_of_frame hpoll, drain_of_end hend]
      rfl
  by_cases hbody : body = []
  · rw [if_pos hbody]
    exact htrailers (some body) (by simp [hbody])
  · have hpoll : Body.poll_frame (ReplayableRequestBody.new body trailers) =
        (.Ready (some (.ok (.Data body))), ⟨none, trailers⟩) := by
      show ReplayableRequestBody.poll_frame _ = _
      simp [ReplayableRequestBody.poll_frame, ReplayableRequestBody.new, Option.filter, hbody]
    rw [drain_of_frame hpoll, htrailers none rfl, if_neg hbody]
    rfl

/-! ## The request for a peer -/

structure DialedPeer extends ResolvedUpstreamPeer where
  scheme : Text
  upstream_authority : Text

structure HttpRequest (B : Type) where
  method : Method
  uri : Uri
  headers : HeaderMap
  body : B

/-- What `from_request` takes beside the request. -/
structure BodyOptions where
  upstream_name : String
  request_body_read_timeout : Option Nat
  write_timeout : Nat
  max_replayable_request_body_bytes : Nat
  max_request_body_bytes : Option Nat
  request_buffering : RouteBufferingPolicy
  grpc_web_mode : Option GrpcWebEncoding

structure PreparedProxyRequest where
  method : Method
  uri : Uri
  headers : HeaderMap
  body : PreparedRequestBody
  peer_failover_enabled : Bool
  wait_for_streaming_body : Bool

/-- What an attempt depends on beside the request: which parts make a URI, the headers for a peer,
the part of the path that is cut off, and the peers that are selected, up to a number of them. -/
structure ForwardEnv where
  uri_parts_ok : Text → Text → Text → Bool
  sanitize_request_headers : DialedPeer → HeaderMap → Option HeaderMap
  strip_start : Option Text
  select_peers : Nat → List DialedPeer

structure BuiltUri where
  scheme : Text
  authority : Text
  path_and_query : Text

inductive BuildError
  | InvalidUri
  | InvalidHeaders
  | StreamingBodyTaken
  deriving DecidableEq, Repr

/-- The body of a request to a peer; a streamed one is relayed where its end is waited for. -/
inductive SentBody
  | Replayed (body : ReplayableRequestBody)
  | Streamed (body : HttpBody) (relayed : Bool)

/-- The frames of a body, and the error that ends it. -/
def SentBody.drained : SentBody → List BodyFrame × Option BoxError
  | .Replayed body => drain body
  | .Streamed body _ => (body.frames, body.error)

structure BuiltUpstreamRequest where
  method : Method
  uri : BuiltUri
  headers : HeaderMap
  body : SentBody

/-- `http::Uri::query`. -/
def uri_query (uri : Uri) : Option Text :=
  uri.path_and_query.bind fun target => (split_once '?' target.data).map Prod.snd

/-- The path and query of `normalize_request_target`. -/
def normalized_path_and_query (uri : Uri) : Text :=
  match uri_query uri with
  | some query => normalized_path uri ++ '?' :: query
  | none => normalized_path uri

/-- The path and query of `build_proxy_uri`. -/
def proxied_path_and_query (strip_start : Option Text) (uri : Uri) : Text :=
  let original_path := normalized_path_and_query uri
  match strip_start.bind fun start => stripStart start original_path with
  | none => original_path
  | some stripped =>
    if stripped = [] then ['/']
    else if ['?'] <+: stripped ∨ ['/'] <+: stripped then stripped
    else original_path

def is_replayable : PreparedRequestBody → Bool
  | .Replayable _ _ => true
  | .Streaming _ => false

def can_failover (prepared : PreparedProxyRequest) : Bool :=
  prepared.peer_failover_enabled && is_idempotent_method prepared.method &&
    is_replayable prepared.body

def can_retry_peer_request (prepared : PreparedProxyRequest) (peer_count attempt_index : Nat) :
    Bool :=
  can_failover prepared && attempt_index + 1 < peer_count

section Attempts

variable (env : ForwardEnv)

def build_proxy_uri (peer : DialedPeer) (uri : Uri) : Option BuiltUri :=
  let path_and_query := proxied_path_and_query env.strip_start uri
  if env.uri_parts_ok peer.scheme peer.upstream_authority path_and_query then
    some ⟨peer.scheme, peer.upstream_authority, path_and_query⟩
  else none

/-- The request for a peer, and what is left of the prepared one. -/
def build_for_peer (prepared : PreparedProxyRequest) (peer : DialedPeer) :
    Except BuildError BuiltUpstreamRequest × PreparedProxyRequest :=
  match build_proxy_uri env peer prepared.uri with
  | none => (.error .InvalidUri, prepared)
  | some uri =>
    match env.sanitize_request_headers peer prepared.headers with
    | none => (.error .InvalidHeaders, prepared)
    | some headers =>
      match prepared.body with
      | .Replayable body trailers =>
        (.ok ⟨prepared.method, uri, headers, .Replayed (.new body trailers)⟩, prepared)
      | .Streaming none => (.error .StreamingBodyTaken, prepared)
      | .Streaming (some body) =>
        (.ok ⟨prepared.method, uri, headers, .Streamed body prepared.wait_for_streaming_body⟩,
          { prepared with body := .Streaming none })

/-! ## Attempts -/

/-- What comes of `client.request`: a response (whose request body could be finalized or not), an
error, or the timeout. -/
inductive AttemptOutcome
  | Response (finalized : Bool)
  | Failed (error : String)
  | TimedOut
  deriving DecidableEq, Repr

structure Attempt where
  peer : DialedPeer
  request : BuiltUpstreamRequest
  outcome : AttemptOutcome

/-- Where `forward_request` returns; the responses themselves are left out. -/
inductive ForwardEnd
  | NotPrepared (error : PrepareRequestError)
  | NoHealthyPeers
  | FailedToBuild (error : BuildError)
  | Responded (finalized : Bool)
  | Failed (error : String)
  | TimedOut
  | Unavailable
  deriving DecidableEq

/-- The loop over the peers, with the number of the attempt. -/
def forward_loop (outcomes : Nat → AttemptOutcome) (peer_count : Nat) :
    PreparedProxyRequest → Nat → List DialedPeer → List Attempt × ForwardEnd
  | _, _, [] => ([], .Unavailable)
  | prepared, attempt_index, peer :: peers =>
    match build_for_peer env prepared peer with
    | (.error error, _) => ([], .FailedToBuild error)
    | (.ok request, prepared) =>
      let attempt := ⟨peer, request, outcomes attempt_index⟩
      let next := forward_loop outcomes peer_count prepared (attempt_index + 1) peers
      match outcomes attempt_index with
      | .Response finalized => ([attempt], .Responded finalized)
      | .Failed error =>
        if can_retry_peer_request prepared peer_count attempt_index then (attempt :: next.1, next.2)
        else ([attempt], .Failed error)
      | .TimedOut =>
        if can_retry_peer_request prepared peer_count attempt_index then (attempt :: next.1, next.2)
        else ([attempt], .TimedOut)

/-! ## What one turn does -/

/-- The body that a peer is sent, while there is one. -/
def sent_body (prepared : PreparedProxyRequest) : Option SentBody :=
  match prepared.body with
  | .Replayable body trailers => some (.Replayed (.new body trailers))
  | .Streaming body => body.map (.Streamed · prepared.wait_for_streaming_body)

/-- An attempt carries the prepared request. -/
structure Carries (prepared : PreparedProxyRequest) (attempt : Attempt) : Prop where
  method : attempt.request.method = prepared.method
  target : attempt.request.uri.path_and_query =
    proxied_path_and_query env.strip_start prepared.uri
  body : sent_body prepared = some attempt.request.body

def Attempt.responded (attempt : Attempt) : Prop :=
  ∃ finalized, attempt.outcome = .Response finalized

theorem can_failover_iff (prepared : PreparedProxyRequest) :
    can_failover prepared ↔ prepared.peer_failover_enabled ∧
      is_idempotent_method prepared.method ∧ is_replayable prepared.body := by
  simp [can_failover, and_assoc]

/-- A request that is built carries the prepared one, which is left as it was where the next peer
may have its turn. -/
theorem build_for_peer_ok {prepared left : PreparedProxyRequest} {peer : DialedPeer}
    {request : BuiltUpstreamRequest} (h : build_for_peer env prepared peer = (.ok request, left))
    (outcome : AttemptOutcome) :
    Carries env prepared ⟨peer, request, outcome⟩ ∧ (can_failover left → left = prepared) := by
  unfold build_for_peer at h
  cases huri : build_proxy_uri env peer prepared.uri with
  | none =>
    rw [huri] at h
    cases (Prod.mk.inj h).1
  | some uri =>
    have htarget : uri.path_and_query = proxied_path_and_query env.strip_start prepared.uri := by
      unfold build_proxy_uri at huri
      dsimp only at huri
      split at huri
      · rw [← Option.some.inj huri]
      · cases huri
    rw [huri] at h
    dsimp only at h
    split at h
    · cases (Prod.mk.inj h).1
    · split at h
      · rename_i body trailers hbody
        obtain ⟨hrequest, rfl⟩ := Prod.mk.inj h
        obtain rfl := Except.ok.inj hrequest
        exact ⟨⟨rfl, htarget, by simp [sent_body, hbody]⟩, fun _ => rfl⟩
      · cases (Prod.mk.inj h).1
      · rename_i body hbody
        obtain ⟨hrequest, rfl⟩ := Prod.mk.inj h
        obtain rfl := Except.ok.inj hrequest
        refine ⟨⟨rfl, htarget, by simp [sent_body, hbody]⟩, fun hfailover => ?_⟩
        -- a body that was streamed is gone
        exact absurd ((can_failover_iff _).mp hfailover).2.2 Bool.false_ne_true

theorem sent_body_of_taken {prepared : PreparedProxyRequest} {peer : DialedPeer}
    (h : (build_for_peer env prepared peer).1 = .error .StreamingBodyTaken) :
    sent_body prepared = none := by
  unfold build_for_peer at h
  split at h
  · cases h
  · split at h
    · cases h
    · split at h
      · cases h
      · rename_i hbody
        simp [sent_body, hbody]
      · cases h

/-- What a turn can do, with what the turns after it would give. -/
inductive Turn (prepared : PreparedProxyRequest) (peer : DialedPeer)
    (next : List Attempt × ForwardEnd) : List Attempt × ForwardEnd → Prop
  | unbuilt (error : BuildError) (hbuilt : (build_for_peer env prepared peer).1 = .error error) :
    Turn prepared peer next ([], .FailedToBuild error)
  | last (attempt : Attempt) (ends : ForwardEnd) (hpeer : attempt.peer = peer)
    (hcarries : Carries env prepared attempt) (hends : ∀ error, ends ≠ .FailedToBuild error) :
    Turn prepared peer next ([attempt], ends)
  | again (attempt : Attempt) (hpeer : attempt.peer = peer)
    (hcarries : Carries env prepared attempt) (hresponded : ¬ attempt.responded)
    (hfailover : can_failover prepared) : Turn prepared peer next (attempt :: next.1, next.2)

theorem forward_loop_turn (outcomes : Nat → AttemptOutcome) (peer_count : Nat)
    (prepared : PreparedProxyRequest) (attempt_index : Nat) (peer : DialedPeer)
    (peers : List DialedPeer) :
    Turn env prepared peer (forward_loop env outcomes peer_count prepared (attempt_index + 1) peers)
      (forward_loop env outcomes peer_count prepared attempt_index (peer :: peers)) := by
  rw [forward_loop]
  split
  · rename_i error left hbuilt
    exact .unbuilt error (congrArg Prod.fst hbuilt)
  · rename_i request left hbuilt
    obtain ⟨hcarries, hleft⟩ := build_for_peer_ok env hbuilt (outcomes attempt_index)
    dsimp only
    have hretry : can_retry_peer_request left peer_count attempt_index →
        left = prepared ∧ can_failover prepared := by
      intro h
      have hfailover : can_failover left := by
        simp only [can_retry_peer_request, Bool.and_eq_true] at h
        exact h.1
      exact ⟨hleft hfailover, hleft hfailover ▸ hfailover⟩
    cases houtcome : outcomes attempt_index with
    | Response finalized =>
      rw [houtcome] at hcarries
      exact .last _ _ rfl hcarries nofun
    | Failed error =>
      rw [houtcome] at hcarries
      dsimp only
      split
      · rename_i h
        obtain ⟨rfl, hfailover⟩ := hretry h
        exact .again _ rfl hcarries nofun hfailover
      · exact .last _ _ rfl hcarries nofun
    | TimedOut =>
      rw [houtcome] at hcarries
      dsimp only
      split
      · rename_i h
        obtain ⟨rfl, hfailover⟩ := hretry h
        exact .again _ rfl hcarries nofun hfailover
      · exact .last _ _ rfl hcarries nofun

/-! ## What all of them do -/

/-- The head of the request could not be built for the first of the peers. -/
def FirstUnbuilt (prepared : PreparedProxyRequest) (peers : List DialedPeer)
    (error : BuildError) : Prop :=
  ∃ peer rest, peers = peer :: rest ∧ (build_for_peer env prepared peer).1 = .error error

/-- What the loop keeps, from any of its turns. -/
structure Attempts (prepared : PreparedProxyRequest) (peers : List DialedPeer)
    (run : List Attempt × ForwardEnd) : Prop where
  carries : ∀ attempt ∈ run.1, Carries env prepared attempt
  again : 2 ≤ run.1.length → can_failover prepared
  in_order : run.1.map Attempt.peer <+: peers
  last : run.1.Pairwise fun earlier _ => ¬ earlier.responded
  unsent : run.1 = [] → peers = [] ∨
    ∃ error, run.2 = .FailedToBuild error ∧ FirstUnbuilt env prepared peers error
  taken : run.2 ≠ .FailedToBuild .StreamingBodyTaken

theorem attempts_nil {prepared : PreparedProxyRequest} {peers : List DialedPeer} {ends : ForwardEnd}
    (hunsent : peers = [] ∨
      ∃ error, ends = .FailedToBuild error ∧ FirstUnbuilt env prepared peers error)
    (htaken : ends ≠ .FailedToBuild .StreamingBodyTaken) : Attempts env prepared peers ([], ends) := by
  constructor
  case carries =>
    intro attempt hattempt
    exact absurd hattempt List.not_mem_nil
  case again =>
    intro hlength
    simp at hlength
  case in_order => exact List.nil_prefix
  case last => exact .nil
  case unsent => exact fun _ => hunsent
  case taken => exact htaken

/-- Each turn keeps it. -/
theorem attempts_turn {prepared : PreparedProxyRequest} {peer : DialedPeer}
    {peers : List DialedPeer} {next run : List Attempt × ForwardEnd}
    (hbody : sent_body prepared ≠ none) (hturn : Turn env prepared peer next run)
    (hnext : Attempts env prepared peers next) : Attempts env prepared (peer :: peers) run := by
  cases hturn with
  | unbuilt error hbuilt =>
    apply attempts_nil env (.inr ⟨error, rfl, peer, peers, rfl, hbuilt⟩)
    intro htaken
    obtain rfl := ForwardEnd.FailedToBuild.inj htaken
    exact hbody (sent_body_of_taken env hbuilt)
  | last attempt ends hpeer hcarries hends =>
    constructor
    case carries =>
      intro other hother
      rw [List.mem_singleton.mp hother]
      exact hcarries
    case again =>
      intro hlength
      simp at hlength
    case in_order =>
      rw [List.map_singleton, hpeer]
      exact List.cons_prefix_cons.mpr ⟨rfl, List.nil_prefix⟩
    case last => exact List.pairwise_singleton _ _
    case unsent => exact fun hunsent => absurd hunsent (List.cons_ne_nil _ _)
    case taken => exact hends _
  | again attempt hpeer hcarries hresponded hfailover =>
    constructor
    case carries =>
      intro other hother
      rcases List.mem_cons.mp hother with rfl | hother
      · exact hcarries
      · exact hnext.carries other hother
    case again => exact fun _ => hfailover
    case in_order =>
      rw [List.map_cons, hpeer]
      exact List.cons_prefix_cons.mpr ⟨rfl, hnext.in_order⟩
    case last => exact List.pairwise_cons.mpr ⟨fun _ _ => hresponded, hnext.last⟩
    case unsent => exact fun hunsent => absurd hunsent (List.cons_ne_nil _ _)
    case taken => exact hnext.taken

theorem attempts_loop (outcomes : Nat → AttemptOutcome) (peer_count : Nat)
    {prepared : PreparedProxyRequest} (hbody : sent_body prepared ≠ none) (attempt_index : Nat)
    (peers : List DialedPeer) :
    Attempts env prepared peers
      (forward_loop env outcomes peer_count prepared attempt_index peers) := by
  induction peers generalizing attempt_index with
  | nil =>
    rw [forward_loop]
    exact attempts_nil env (.inl rfl) ForwardEnd.noConfusion
  | cons peer peers ih =>
    have hturn := forward_loop_turn env outcomes peer_count prepared attempt_index peer peers
    exact attempts_turn env hbody hturn (ih (attempt_index + 1))

def MAX_FAILOVER_ATTEMPTS : Nat := 2

section Requests

variable {B : Type} [Body B BodyFrame IoError] [Ends B BodyFrame IoError] [SizedBody B]

def body_config (request : HttpRequest B) (options : BodyOptions) : PrepareRequestBodyConfig :=
  { upstream_name := options.upstream_name
    method := request.method
    headers := request.headers
    body_timeout := options.request_body_read_timeout.getD options.write_timeout
    max_replayable_request_body_bytes := options.max_replayable_request_body_bytes
    max_request_body_bytes := options.max_request_body_bytes
    request_buffering := options.request_buffering
    grpc_web_mode := options.grpc_web_mode }

def from_request (request : HttpRequest B) (expired : List Bool) (options : BodyOptions) :
    Except PrepareRequestError PreparedProxyRequest :=
  (prepare_request_body request.body expired (body_config request options)).map fun body =>
    { method := request.method
      uri := request.uri
      headers := request.headers
      body
      peer_failover_enabled := options.request_buffering ≠ .Off
      wait_for_streaming_body := options.max_request_body_bytes.isSome }

def selected_peers (prepared : PreparedProxyRequest) : List DialedPeer :=
  env.select_peers (if can_failover prepared then MAX_FAILOVER_ATTEMPTS else 1)

/-- The request as it comes from the cache, from its preparation to its last attempt. -/
def forward_request (outcomes : Nat → AttemptOutcome) (request : HttpRequest B)
    (expired : List Bool) (options : BodyOptions) : List Attempt × ForwardEnd :=
  match from_request request expired options with
  | .error error => ([], .NotPrepared error)
  | .ok prepared =>
    let peers := selected_peers env prepared
    if peers.isEmpty then ([], .NoHealthyPeers)
    else forward_loop env outcomes peers.length prepared 0 peers

/-! ## Sent once, or replayed -/

/-- The body of the client, under the layers of the proxy. -/
def client_body (request : HttpRequest B) (expired : List Bool) (options : BodyOptions) : HttpBody :=
  (body_config request options).downstream_body expired request.body

/-- The body was read to its end before a peer was chosen. -/
structure Collected (request : HttpRequest B) (expired : List Bool) (options : BodyOptions)
    (data : Bytes) (trailers : Option HeaderMap) : Prop where
  prepared : prepare_request_body request.body expired (body_config request options) =
    .ok (.Replayable data trailers)
  ended : (client_body request expired options).error = none
  data_eq : data = data_of (client_body request expired options).frames
  trailers_eq : trailers.getD [] = trailers_of (client_body request expired options).frames
  whole : options.grpc_web_mode = none →
    (client_body request expired options).frames = up_to is_trailers (drain request.body).1 ∧
      ((drain request.body).1.any is_trailers ∨ (drain request.body).2 = none)

def MayReplay (request : HttpRequest B) (expired : List Bool) (options : BodyOptions) : Prop :=
  is_idempotent_method request.method ∧ options.request_buffering ≠ .Off ∧
    ∃ data trailers, Collected request expired options data trailers

def forward_peers (request : HttpRequest B) (expired : List Bool) (options : BodyOptions) :
    List DialedPeer :=
  match from_request request expired options with
  | .ok prepared => selected_peers env prepared
  | .error _ => []

/-- The ends that no attempt comes before, each with what it comes from: the body of this request
could not be prepared, no peer was selected for it, or its head could not be built for the first
peer. -/
inductive Unsent (request : HttpRequest B) (expired : List Bool) (options : BodyOptions) :
    ForwardEnd → Prop
  | NotPrepared {error : PrepareRequestError}
      (h : prepare_request_body request.body expired (body_config request options) = .error error) :
    Unsent request expired options (.NotPrepared error)
  | NoHealthyPeers {prepared : PreparedProxyRequest}
      (h : from_request request expired options = .ok prepared)
      (hnone : selected_peers env prepared = []) : Unsent request expired options .NoHealthyPeers
  | FailedToBuild {prepared : PreparedProxyRequest} {error : BuildError}
      (h : from_request request expired options = .ok prepared)
      (hbuilt : FirstUnbuilt env prepared (selected_peers env prepared) error) :
    Unsent request expired options (.FailedToBuild error)

/-- What goes out for a request. -/
structure SentOnceOrReplayed (request : HttpRequest B) (expired : List Bool)
    (options : BodyOptions) (run : List Attempt × ForwardEnd) : Prop where
  again : 2 ≤ run.1.length → MayReplay request expired options
  once : ¬ MayReplay request expired options → run.1.length ≤ 1
  delivered : ¬ MayReplay request expired options → ∀ sends : Attempt → Nat,
    (∀ attempt, sends attempt ≤ 1) → (run.1.map sends).sum ≤ 1
  unsent : run.1 = [] → Unsent env request expired options run.2
  carries : ∀ attempt ∈ run.1, attempt.request.method = request.method ∧
    attempt.request.uri.path_and_query = proxied_path_and_query env.strip_start request.uri ∧
    data_of attempt.request.body.drained.1 = data_of (client_body request expired options).frames ∧
    trailers_of attempt.request.body.drained.1 =
      trailers_of (client_body request expired options).frames
  alike : MayReplay request expired options → ∃ data trailers,
    Collected request expired options data trailers ∧ ∀ attempt ∈ run.1,
      attempt.request.body = .Replayed (.new data trailers) ∧
      attempt.request.body.drained = (supplied (if data = [] then [] else [data]) trailers, none)
  taken : run.2 ≠ .FailedToBuild .StreamingBodyTaken
  in_order : run.1.map Attempt.peer <+: forward_peers env request expired options
  few : run.1.length ≤ (forward_peers env request expired options).length
  last : run.1.Pairwise fun earlier _ => ¬ earlier.responded

theorem from_request_ok {request : HttpRequest B} {expired : List Bool} {options : BodyOptions}
    {prepared : PreparedProxyRequest} (h : from_request request expired options = .ok prepared) :
    prepare_request_body request.body expired (body_config request options) = .ok prepared.body ∧
      prepared.method = request.method ∧ prepared.uri = request.uri ∧
      (prepared.peer_failover_enabled → options.request_buffering ≠ .Off) := by
  unfold from_request at h
  cases hbody : prepare_request_body request.body expired (body_config request options) with
  | error error =>
    rw [hbody] at h
    cases h
  | ok body =>
    rw [hbody] at h
    obtain rfl := Except.ok.inj h
    exact ⟨rfl, rfl, rfl, of_decide_eq_true⟩

theorem not_prepared {request : HttpRequest B} {expired : List Bool} {options : BodyOptions}
    {error : PrepareRequestError} (h : from_request request expired options = .error error) :
    prepare_request_body request.body expired (body_config request options) = .error error := by
  unfold from_request at h
  cases hbody : prepare_request_body request.body expired (body_config request options) with
  | error other =>
    rw [hbody] at h
    rw [Except.error.inj h]
  | ok body =>
    rw [hbody] at h
    cases h

/-- A prepared body is the one of the client, to be streamed, or else it was collected. -/
theorem prepared_body {request : HttpRequest B} {expired : List Bool} {options : BodyOptions}
    {body : PreparedRequestBody}
    (h : prepare_request_body request.body expired (body_config request options) = .ok body) :
    body = .Streaming (some (client_body request expired options)) ∨
      ∃ data trailers, body = .Replayable data trailers ∧
        Collected request expired options data trailers := by
  rcases prepare_request_body_ok h with hstreaming | ⟨hended, trailers, hbody, htrailers⟩
  · exact .inl hstreaming
  · refine .inr ⟨_, trailers, hbody, ?_⟩
    exact
      { prepared := hbody ▸ h
        ended := hended
        data_eq := rfl
        trailers_eq := htrailers
        whole := fun hgrpc => downstream_body_whole hgrpc hended }

theorem sent_body_of_prepared {request : HttpRequest B} {expired : List Bool}
    {options : BodyOptions} {prepared : PreparedProxyRequest}
    (h : from_request request expired options = .ok prepared) :
    ∃ body, sent_body prepared = some body ∧
      data_of body.drained.1 = data_of (client_body request expired options).frames ∧
      trailers_of body.drained.1 = trailers_of (client_body request expired options).frames := by
  rcases prepared_body (from_request_ok h).1 with hbody | ⟨data, trailers, hbody, hcollected⟩
  · exact ⟨.Streamed (client_body request expired options) prepared.wait_for_streaming_body,
      by simp [sent_body, hbody], rfl, rfl⟩
  · refine ⟨.Replayed (.new data trailers), by simp [sent_body, hbody], ?_, ?_⟩
    · rw [SentBody.drained, drain_replayable, data_of_supplied, ← hcollected.data_eq]
      split <;> simp [*]
    · rw [SentBody.drained, drain_replayable, trailers_of_supplied]
      exact hcollected.trailers_eq

theorem may_replay_of_failover {request : HttpRequest B} {expired : List Bool}
    {options : BodyOptions} {prepared : PreparedProxyRequest}
    (h : from_request request expired options = .ok prepared) (hfailover : can_failover prepared) :
    MayReplay request expired options := by
  obtain ⟨hbody, hmethod, -, hbuffering⟩ := from_request_ok h
  obtain ⟨henabled, hidempotent, hreplayable⟩ := (can_failover_iff prepared).mp hfailover
  refine ⟨hmethod ▸ hidempotent, hbuffering henabled, ?_⟩
  rcases prepared_body hbody with hstreaming | ⟨data, trailers, -, hcollected⟩
  · rw [hstreaming] at hreplayable
    cases hreplayable
  · exact ⟨data, trailers, hcollected⟩

/-- What `forward_request` ends with before its first attempt. -/
theorem sent_of_unsent {request : HttpRequest B} {expired : List Bool} {options : BodyOptions}
    {ends : ForwardEnd} (hunsent : Unsent env request expired options ends)
    (htaken : ends ≠ .FailedToBuild .StreamingBodyTaken) :
    SentOnceOrReplayed env request expired options ([], ends) := by
  constructor
  case again =>
    intro hlength
    simp at hlength
  case once => exact fun _ => Nat.zero_le 1
  case delivered => exact fun _ _ _ => Nat.zero_le 1
  case unsent => exact fun _ => hunsent
  case carries =>
    intro attempt hattempt
    exact absurd hattempt List.not_mem_nil
  case alike =>
    rintro ⟨-, -, data, trailers, hcollected⟩
    refine ⟨data, trailers, hcollected, fun attempt hattempt => ?_⟩
    exact absurd hattempt List.not_mem_nil
  case taken => exact htaken
  case in_order => exact List.nil_prefix
  case few => exact Nat.zero_le _
  case last => exact .nil

theorem sent_of_attempts {request : HttpRequest B} {expired : List Bool} {options : BodyOptions}
    {prepared : PreparedProxyRequest} {run : List Attempt × ForwardEnd}
    (h : from_request request expired options = .ok prepared)
    (hpeers : selected_peers env prepared ≠ [])
    (hrun : Attempts env prepared (selected_peers env prepared) run) :
    SentOnceOrReplayed env request expired options run := by
  obtain ⟨hbody, hmethod, huri, -⟩ := from_request_ok h
  have hforward : forward_peers env request expired options = selected_peers env prepared := by
    simp only [forward_peers, h]
  have hagain : 2 ≤ run.1.length → MayReplay request expired options := fun hlength =>
    may_replay_of_failover h (hrun.again hlength)
  have honce : ¬ MayReplay request expired options → run.1.length ≤ 1 := by
    intro hreplay
    by_contra hlength
    exact hreplay (hagain (by omega))
  constructor
  case again => exact hagain
  case once => exact honce
  case delivered =>
    intro hreplay sends hsends
    calc (run.1.map sends).sum ≤ (run.1.map sends).length • 1 :=
          List.sum_le_card_nsmul _ _ (by simp [hsends])
      _ ≤ 1 := by simpa using honce hreplay
  case unsent =>
    intro hunsent
    rcases hrun.unsent hunsent with hnone | ⟨error, herror, hbuilt⟩
    · exact absurd hnone hpeers
    · rw [herror]
      exact .FailedToBuild h hbuilt
  case carries =>
    intro attempt hattempt
    obtain ⟨body, hsent, hdata, htrailers⟩ := sent_body_of_prepared h
    obtain ⟨hsame, htarget, hcarried⟩ := hrun.carries attempt hattempt
    obtain rfl := Option.some.inj (hsent.symm.trans hcarried)
    exact ⟨hsame.trans hmethod, huri ▸ htarget, hdata, htrailers⟩
  case alike =>
    rintro ⟨-, -, data, trailers, hcollected⟩
    have hprepared : prepared.body = .Replayable data trailers :=
      Except.ok.inj (hbody.symm.trans hcollected.prepared)
    refine ⟨data, trailers, hcollected, fun attempt hattempt => ?_⟩
    have hcarried := (hrun.carries attempt hattempt).body
    simp only [sent_body, hprepared, Option.some.injEq] at hcarried
    rw [← hcarried]
    exact ⟨rfl, drain_replayable data trailers⟩
  case taken => exact hrun.taken
  case in_order => exact hforward ▸ hrun.in_order
  case few =>
    rw [hforward, ← List.length_map (f := Attempt.peer)]
    exact hrun.in_order.length_le
  case last => exact hrun.last

/-- A body goes to one peer at most, unless it was collected and the method may be repeated; then
every attempt carries the same. -/
theorem forward_request_sends (outcomes : Nat → AttemptOutcome) (request : HttpRequest B)
    (expired : List Bool) (options : BodyOptions) :
    SentOnceOrReplayed env request expired options
      (forward_request env outcomes request expired options) := by
  unfold forward_request
  split
  · rename_i error herror
    exact sent_of_unsent env (.NotPrepared (not_prepared herror)) ForwardEnd.noConfusion
  · rename_i prepared hprepared
    dsimp only
    split
    · rename_i hpeers
      exact sent_of_unsent env (.NoHealthyPeers hprepared (List.isEmpty_iff.mp hpeers))
        ForwardEnd.noConfusion
    · rename_i hpeers
      have hselected : selected_peers env prepared ≠ [] := by
        simpa [List.isEmpty_iff] using hpeers
      obtain ⟨body, hsent, -⟩ := sent_body_of_prepared hprepared
      have hbody : sent_body prepared ≠ none := by
        rw [hsent]
        exact Option.some_ne_none body
      exact sent_of_attempts env hprepared hselected
        (attempts_loop env outcomes _ hbody 0 (selected_peers env prepared))

end Requests

end Attempts

/-- A body of known length. -/
instance : SizedBody (Polls BodyFrame IoError) where
  is_end_stream this := this.answers.isEmpty
  size_hint this :=
    let exact := (data_of (drained this.answers).1).length
    ⟨exact, some exact⟩

def first_peer : DialedPeer :=
  { logical_peer_url := "http://10.0.0.1:80"
    endpoint_key := "10.0.0.1:80"
    dial_authority := "10.0.0.1:80"
    weight := 1
    max_conns := none
    scheme := "http".toList
    upstream_authority := "10.0.0.1:80".toList }

def second_peer : DialedPeer :=
  { first_peer with
    logical_peer_url := "http://10.0.0.2:80"
    endpoint_key := "10.0.0.2:80"
    dial_authority := "10.0.0.2:80"
    upstream_authority := "10.0.0.2:80".toList }

/-- Both peers are up, and nothing is refused. -/
def two_peers : ForwardEnv where
  uri_parts_ok _ _ _ := true
  sanitize_request_headers _ headers := some headers
  strip_start := none
  select_peers limit := [first_peer, second_peer].take limit

def posted : HttpRequest (Polls BodyFrame IoError) where
  method := .POST
  uri := ⟨none, none⟩
  headers := []
  body := ⟨[.Ready (.ok (.Data [104, 105]))]⟩

def streaming_up_to (max_request_body_bytes : Nat) : BodyOptions where
  upstream_name := "backend"
  request_body_read_timeout := none
  write_timeout := 30000
  max_replayable_request_body_bytes := 65536
  max_request_body_bytes := some max_request_body_bytes
  request_buffering := .Off
  grpc_web_mode := none

/-- The first peer is sent the body, and the second one has no turn. -/
theorem posted_once : SentOnceOrReplayed two_peers posted [] (streaming_up_to 2)
      (forward_request two_peers (fun _ => .TimedOut) posted [] (streaming_up_to 2)) ∧
    (forward_request two_peers (fun _ => .TimedOut) posted [] (streaming_up_to 2)).1.length = 1 :=
  ⟨forward_request_sends two_peers (fun _ => .TimedOut) posted [] (streaming_up_to 2), rfl⟩

/-- A body that is known to be too long is not sent at all. -/
theorem too_long_unsent : ¬ MayReplay posted [] (streaming_up_to 1) ∧
    forward_request two_peers (fun _ => .Response true) posted [] (streaming_up_to 1) =
      ([], .NotPrepared (.PayloadTooLarge 1)) := by
  refine ⟨fun hreplay => ?_, rfl⟩
  cases hreplay.1

end rginx.proxy
