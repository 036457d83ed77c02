-- What the key of a request says of its route: the host and the target stand in the key with colons
-- between them. The virtual host is chosen by `request_host`, which reads the `Host` header in
-- another way than the key does.
import Rginx.KeySeparation
import Rginx.RouteSelection
import Rginx.SeparatedFields

open rust_text separated_fields rginx.cache rginx.config

namespace rginx.http

/-! ## Keys and dispatch -/

/-- The scheme of a request, by the listener that it came to. -/
def downstream_scheme (tls_enabled : Bool) : Text :=
  if tls_enabled then "https".toList else "http".toList

/-- The key of a request before its suffixes. -/
def rendered_template (policy : RouteCachePolicy) (scheme : Text) (request : CacheRequest) : Text :=
  policy.key.render
    { scheme
      host := cache_key_host request.uri request.headers
      uri := request.request_uri
      method := (cache_key_method request.method policy).as_str.toList
      headers := request.headers }

/-- The rest of a key are its suffixes. -/
theorem cache_key_eq_template (policy : RouteCachePolicy) (scheme : Text) (request : CacheRequest) :
    request.cache_key scheme policy = rendered_template policy scheme request ++
      method_text request.method policy ++ encoding_text request.headers ++
      range_text (cacheable_range_request request policy) := rfl

theorem rendered_default {policy : RouteCachePolicy}
    (hkey : CacheKeyTemplate.parse DEFAULT_CACHE_KEY = .ok policy.key) (scheme : Text)
    (request : CacheRequest) :
    rendered_template policy scheme request = scheme ++ ':' ::
      (cache_key_host request.uri request.headers ++ ':' :: request.request_uri) := by
  rw [parse_default] at hkey
  unfold rendered_template CacheKeyTemplate.render
  rw [← Except.ok.inj hkey]
  simp [CacheKeyTemplatePart.render]

/-- The virtual host of a request. -/
def vhost_of (config : ConfigSnapshot) (request : CacheRequest) : VirtualHost :=
  select_vhost_for_request config request.headers request.uri.authority

/-- The requests are for one target of one host, and go to one virtual host and one route. -/
structure SameDispatch (first second : CacheRequest) : Prop where
  target : first.request_uri = second.request_uri
  host : request_host first.headers first.uri.authority =
    request_host second.headers second.uri.authority
  vhost : ∀ config, vhost_of config first = vhost_of config second
  route : ∀ (α : Type) (routes : List (Route α)) (grpc : Option GrpcRequestMatch),
    select_route_with_context routes ⟨normalized_path first.uri, grpc⟩ =
      select_route_with_context routes ⟨normalized_path second.uri, grpc⟩

theorem sameDispatch_iff {first second : CacheRequest} :
    SameDispatch first second ↔ first.request_uri = second.request_uri ∧
      request_host first.headers first.uri.authority =
        request_host second.headers second.uri.authority := by
  constructor
  · intro h
    exact ⟨h.target, h.host⟩
  · rintro ⟨htarget, hhost⟩
    refine ⟨htarget, hhost, fun config => ?_, fun α routes grpc => ?_⟩
    · unfold vhost_of select_vhost_for_request
      rw [hhost]
    · rw [normalized_path_congr htarget]

/-! ## Requests that the key confuses -/

/-- The host of the first request goes on after a colon, with the text that begins the target of
the second. -/
def HostRunsOn (first second : CacheRequest) : Prop :=
  ∃ more, cache_key_host first.uri first.headers =
      cache_key_host second.uri second.headers ++ ':' :: more ∧
    second.request_uri = more ++ ':' :: first.request_uri

/-- The blank text that a virtual host is chosen by where the key has another host: a `Host` header
of blanks, or nothing where there is no host at all. -/
def blank_host (request : CacheRequest) : Option Text :=
  match request.headers.get_str HOST with
  | some text =>
    if trim text = [] ∧ text ≠ cache_key_host request.uri request.headers then some text else none
  | none => if request.uri.authority = none then some [] else none

/-- One request has a blank host that the key does not show, and the other has not the same. -/
def BlankHost (first second : CacheRequest) : Prop :=
  cache_key_host first.uri first.headers = cache_key_host second.uri second.headers ∧
    first.request_uri = second.request_uri ∧ blank_host first ≠ blank_host second

/-- Without a blank host, the virtual host is chosen by the host in the key. -/
theorem request_host_eq (request : CacheRequest) :
    request_host request.headers request.uri.authority =
      (blank_host request).getD (cache_key_host request.uri request.headers) := by
  unfold request_host blank_host
  cases htext : request.headers.get_str HOST with
  | none =>
    cases hauthority : request.uri.authority with
    | none => rfl
    | some authority => simp [cache_key_host, htext, hauthority]
  | some text =>
    by_cases hblank : trim text = []
    · by_cases hshown : text = cache_key_host request.uri request.headers
      · simp [← hshown]
      · simp [hblank, hshown]
    · simp [cache_key_host, htext, hblank, Option.filter]

theorem blank_host_ne {request : CacheRequest} {text : Text}
    (h : blank_host request = some text) : text ≠ cache_key_host request.uri request.headers := by
  unfold blank_host at h
  split at h
  · split_ifs at h with hblank
    obtain rfl := Option.some.inj h
    exact hblank.2
  · rename_i hnone
    split_ifs at h with hauthority
    obtain rfl := Option.some.inj h
    simp [cache_key_host, hnone, hauthority]

/-- Of two requests with one host in their keys, the virtual hosts are chosen by one host exactly
where their blank hosts are the same. -/
theorem request_host_eq_iff {first second : CacheRequest}
    (h : cache_key_host first.uri first.headers = cache_key_host second.uri second.headers) :
    request_host first.headers first.uri.authority =
        request_host second.headers second.uri.authority ↔
      blank_host first = blank_host second := by
  rw [request_host_eq, request_host_eq, h]
  cases hfirst : blank_host first with
  | none =>
    cases hsecond : blank_host second with
    | none => simp
    | some text => simp [Ne.symm (blank_host_ne hsecond)]
  | some text =>
    have hne := blank_host_ne hfirst
    rw [h] at hne
    cases hsecond : blank_host second with
    | none => simp [hne]
    | some text' => simp

theorem HostRunsOn.target_ne {first second : CacheRequest} (h : HostRunsOn first second) :
    first.request_uri ≠ second.request_uri := by
  obtain ⟨more, -, htarget⟩ := h
  intro heq
  have hlength := congrArg List.length (heq.trans htarget)
  rw [List.length_append, List.length_cons] at hlength
  omega

theorem scheme_separates {tls tls' : Bool} {rest rest' : Text} :
    downstream_scheme tls ++ ':' :: rest = downstream_scheme tls' ++ ':' :: rest' ↔
      tls = tls' ∧ rest = rest' := by
  have hcolon : ∀ tls, ':' ∉ downstream_scheme tls := by decide
  constructor
  · intro h
    obtain ⟨hscheme, hrest⟩ := first_inj (hcolon tls) (hcolon tls') h
    refine ⟨?_, hrest⟩
    revert hscheme
    cases tls <;> cases tls' <;> decide
  · rintro ⟨rfl, rfl⟩
    rfl

/-- The key tells the route, but for a host that runs on into the target, and for a blank host. -/
theorem key_determines_dispatch_iff {policy : RouteCachePolicy}
    (hkey : CacheKeyTemplate.parse DEFAULT_CACHE_KEY = .ok policy.key) (tls tls' : Bool)
    (first second : CacheRequest) :
    (rendered_template policy (downstream_scheme tls) first =
        rendered_template policy (downstream_scheme tls') second → SameDispatch first second) ↔
      ¬ (tls = tls' ∧
        (HostRunsOn first second ∨ HostRunsOn second first ∨ BlankHost first second)) := by
  rw [rendered_default hkey, rendered_default hkey, scheme_separates, append_cons_eq_iff,
    sameDispatch_iff]
  constructor
  · rintro hsame ⟨rfl, hruns | hruns | ⟨hhost, htarget, hblank⟩⟩
    · exact hruns.target_ne (hsame ⟨rfl, .inr (.inl hruns)⟩).1
    · exact hruns.target_ne (hsame ⟨rfl, .inr (.inr hruns)⟩).1.symm
    · exact hblank ((request_host_eq_iff hhost).mp (hsame ⟨rfl, .inl ⟨hhost, htarget⟩⟩).2)
  · rintro hclash ⟨rfl, hsame | hruns | hruns⟩
    · refine ⟨hsame.2, (request_host_eq_iff hsame.1).mpr ?_⟩
      by_contra hblank
      exact hclash ⟨rfl, .inr (.inr ⟨hsame.1, hsame.2, hblank⟩)⟩
    · exact absurd ⟨rfl, .inl hruns⟩ hclash
    · exact absurd ⟨rfl, .inr (.inl hruns)⟩ hclash

/-- A `GET` for a target, with a `Host` header. -/
def getFrom (host : String) (target : PathAndQuery) : CacheRequest :=
  { method := .GET, uri := ⟨none, some target⟩, headers := [(HOST, plainValue host)] }

def target_y : PathAndQuery := ⟨['/', 'y'], by decide⟩

def target_x_y : PathAndQuery := ⟨['/', 'x', ':', '/', 'y'], by decide⟩

/-- A `POST` with its host in the target. -/
def postTo (authority : Text) (target : PathAndQuery) : CacheRequest :=
  { method := .POST, uri := ⟨some authority, some target⟩, headers := [] }

/-- Two requests for one host and target, which name the host in different places. -/
theorem key_determines_dispatch_iff_two_places :
    getFrom "a" target_y ≠ postTo ['a'] target_y ∧
      SameDispatch (getFrom "a" target_y) (postTo ['a'] target_y) := by
  have hkey : rendered_template (plainPolicy false) (downstream_scheme true) (getFrom "a" target_y) =
      rendered_template (plainPolicy false) (downstream_scheme true) (postTo ['a'] target_y) := by
    decide +kernel
  refine ⟨fun h => Method.noConfusion (congrArg CacheRequest.method h), ?_⟩
  apply (@key_determines_dispatch_iff (plainPolicy false) parse_default true true _ _).mpr ?_ hkey
  rintro ⟨-, hruns | hruns | hblank⟩
  · exact hruns.target_ne rfl
  · exact hruns.target_ne rfl
  · exact hblank.2.2 (by decide +kernel)

/-- The host `a:/x` with the target `/y`, and the host `a` with the target `/x:/y`; and an empty
`Host` header beside the authority `b`, and the host `b`. -/
theorem keys_of_two_routes :
    (rendered_template (plainPolicy false) (downstream_scheme true) (getFrom "a:/x" target_y) =
        rendered_template (plainPolicy false) (downstream_scheme true) (getFrom "a" target_x_y) ∧
      (getFrom "a:/x" target_y).request_uri ≠ (getFrom "a" target_x_y).request_uri) ∧
    (rendered_template (plainPolicy false) (downstream_scheme true)
          { getFrom "" target_y with uri := ⟨some ['b'], some target_y⟩ } =
        rendered_template (plainPolicy false) (downstream_scheme true) (getFrom "b" target_y) ∧
      request_host (getFrom "" target_y).headers (some ['b']) = [] ∧
      request_host (getFrom "b" target_y).headers none = ['b']) := by
  decide +kernel

end rginx.http
