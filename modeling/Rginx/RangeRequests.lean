-- Which requests the cache takes, and for which bytes, from `cache/request.rs`:
-- a single bounded range, alone or widened to the slice that it lies in.
import Rginx.CacheRequest

open rust_text

namespace rginx.cache

/-! ## Requests that pass the cache by -/

def cache_control_contains (headers : HeaderMap) (directives : List Text) : Bool :=
  ((headers.get_all CACHE_CONTROL).filterMap HeaderValue.to_str).any fun value =>
    (split ',' value).any fun directive =>
      let name := trim (((split_once '=' directive).map Prod.fst).getD directive)
      directives.any fun expected => eq_ignore_ascii_case name expected

def cache_key_method (method : Method) (policy : RouteCachePolicy) : Method :=
  if method = .HEAD ∧ policy.convert_head then .GET else method

def is_grpc (content_type : Text) : Bool :=
  let mime := to_ascii_lowercase (trim ((split ';' content_type).headD []))
  mime = "application/grpc".toList || startsWith "application/grpc+".toList mime ||
    startsWith "application/grpc-web".toList mime

/-! ## Ranges -/

structure CacheableRangeRequest where
  request_start : Nat
  request_end : Nat
  cache_start : Nat
  cache_end : Nat
  deriving DecidableEq, Repr

def parse_single_bounded_byte_range (value : Text) : Option CacheableRangeRequest := do
  let value := trim (← stripStart "bytes=".toList (trim value))
  if value.contains ',' then none
  else
    let (start, end_) ← split_once '-' value
    if trim start = [] ∨ trim end_ = [] then none
    else
      let start ← parse_u64 (trim start)
      let end_ ← parse_u64 (trim end_)
      if start ≤ end_ then some ⟨start, end_, start, end_⟩ else none

def cacheable_range_request_for_policy (request : CacheableRangeRequest)
    (policy : RouteCachePolicy) : Option CacheableRangeRequest :=
  match policy.slice_size_bytes with
  | none => some request
  | some slice_size =>
    let slice_start := request.request_start / slice_size.toNat * slice_size.toNat
    let slice_end := saturating_add slice_start (slice_size.toNat - 1)
    if request.request_end ≤ slice_end then
      some { request with cache_start := slice_start, cache_end := slice_end }
    else none

def cacheable_range_request_from_parts (method : Method) (headers : HeaderMap)
    (policy : RouteCachePolicy) : Option CacheableRangeRequest :=
  if policy.range_requests ≠ .Cache ∨ (method ≠ .GET ∧ method ≠ .HEAD) then none
  else
    match headers.get_all RANGE with
    | [value] => do
      let range ← parse_single_bounded_byte_range (← value.to_str)
      cacheable_range_request_for_policy range policy
    | _ => none

def cacheable_range_request (request : CacheRequest) (policy : RouteCachePolicy) :
    Option CacheableRangeRequest :=
  cacheable_range_request_from_parts (cache_key_method request.method policy) request.headers
    policy

def CacheableRangeRequest.upstream_header_value (range : CacheableRangeRequest) : Text :=
  "bytes=".toList ++ decimal range.cache_start ++ '-' :: decimal range.cache_end

def CacheableRangeRequest.needs_downstream_trimming (range : CacheableRangeRequest) : Bool :=
  range.request_start ≠ range.cache_start || range.request_end ≠ range.cache_end

/-- The headers that go upstream; a value that is no header value (there is none) would stop the
process, and is left out here. -/
def apply_upstream_range_headers (method : Method) (headers : HeaderMap)
    (policy : RouteCachePolicy) : HeaderMap :=
  match cacheable_range_request_from_parts (cache_key_method method policy) headers policy with
  | none => headers
  | some range =>
    match HeaderValue.from_str range.upstream_header_value with
    | some value => (headers.remove RANGE).insert RANGE value
    | none => headers

def response_content_range_matches_request (request : CacheRequest) (policy : RouteCachePolicy)
    (headers : HeaderMap) : Bool :=
  (do
    let expected ← cacheable_range_request request policy
    let value ← headers.get_str CONTENT_RANGE
    let value ← stripStart "bytes ".toList (trim value)
    let (range, _) ← split_once '/' value
    let (start, end_) ← split_once '-' range
    let start ← parse_u64 (trim start)
    let end_ ← parse_u64 (trim end_)
    return start = expected.cache_start && expected.request_end ≤ end_ &&
      end_ ≤ expected.cache_end).getD false

def cache_request_bypass (request : CacheRequest) (policy : RouteCachePolicy) : Bool :=
  if !policy.methods.contains (cache_key_method request.method policy) then true
  else if request.method ≠ .GET ∧ request.method ≠ .HEAD then true
  else if request.headers.contains_key AUTHORIZATION then true
  else if cache_control_contains request.headers ["no-store".toList] then true
  else if request.method = .GET ∧ request.headers.contains_key IF_RANGE ∧
      request.headers.contains_key RANGE then true
  else if request.headers.contains_key RANGE ∧ (cacheable_range_request request policy).isNone then
    true
  else
    (request.headers.get_str CONTENT_TYPE).any is_grpc ||
      policy.cache_bypass.any fun predicate => predicate.matches_request request

/-! ## What the ranges are -/

/-- A range of a request lies in the range that is cached for it, and all its numbers are of 64
bits. -/
structure CacheableRangeRequest.Ok (range : CacheableRangeRequest) : Prop where
  start : range.cache_start ≤ range.request_start
  bounded : range.request_start ≤ range.request_end
  inside : range.request_end ≤ range.cache_end
  small : range.cache_end < 2 ^ 64

theorem parse_single_bounded_byte_range_ok {value : Text} {range : CacheableRangeRequest}
    (h : parse_single_bounded_byte_range value = some range) :
    range.Ok ∧ range.cache_start = range.request_start ∧ range.cache_end = range.request_end := by
  unfold parse_single_bounded_byte_range at h
  simp only [Option.bind_eq_bind, Option.bind_eq_some_iff] at h
  obtain ⟨_, -, h⟩ := h
  split at h
  · cases h
  obtain ⟨⟨start, end_⟩, -, h⟩ := Option.bind_eq_some_iff.mp h
  dsimp only at h
  split at h
  · cases h
  obtain ⟨first, -, h⟩ := Option.bind_eq_some_iff.mp h
  obtain ⟨last, hlast, h⟩ := Option.bind_eq_some_iff.mp h
  split at h
  · rename_i hle
    obtain rfl := Option.some.inj h
    exact ⟨⟨le_refl _, hle, le_refl _, parse_u64_lt hlast⟩, rfl, rfl⟩
  · cases h

theorem cacheable_range_request_for_policy_ok {range range' : CacheableRangeRequest}
    {policy : RouteCachePolicy} (hrange : range.Ok)
    (h : cacheable_range_request_for_policy range policy = some range') : range'.Ok := by
  unfold cacheable_range_request_for_policy at h
  split at h
  · obtain rfl := Option.some.inj h
    exact hrange
  · rename_i slice_size _
    dsimp only at h
    split at h
    · rename_i hle
      obtain rfl := Option.some.inj h
      refine ⟨Nat.div_mul_le_self _ _, hrange.bounded, hle, ?_⟩
      show saturating_add _ _ < 2 ^ 64
      unfold saturating_add U64_MAX
      omega
    · cases h

theorem cacheable_range_request_from_parts_some {method : Method} {headers : HeaderMap}
    {policy : RouteCachePolicy} {range : CacheableRangeRequest}
    (h : cacheable_range_request_from_parts method headers policy = some range) :
    ∃ value text parsed, headers.get_all RANGE = [value] ∧ value.to_str = some text ∧
      parse_single_bounded_byte_range text = some parsed ∧
      cacheable_range_request_for_policy parsed policy = some range := by
  unfold cacheable_range_request_from_parts at h
  split at h
  · cases h
  · split at h
    · rename_i value hvalue
      simp only [Option.bind_eq_bind, Option.bind_eq_some_iff] at h
      obtain ⟨text, htext, parsed, hparsed, hrange⟩ := h
      exact ⟨value, text, parsed, hvalue, htext, hparsed, hrange⟩
    · cases h

theorem cacheable_range_request_ok {request : CacheRequest} {policy : RouteCachePolicy}
    {range : CacheableRangeRequest} (h : cacheable_range_request request policy = some range) :
    range.Ok := by
  obtain ⟨_, _, parsed, -, -, hparsed, hrange⟩ := cacheable_range_request_from_parts_some h
  exact cacheable_range_request_for_policy_ok (parse_single_bounded_byte_range_ok hparsed).1 hrange

/-- A part of a slice has fewer than `2 ^ 64` bytes: the slice that starts at zero does not reach
to the last number. -/
theorem cacheable_range_request_short {request : CacheRequest} {policy : RouteCachePolicy}
    {range : CacheableRangeRequest} (h : cacheable_range_request request policy = some range)
    (htrim : range.needs_downstream_trimming = true) :
    range.request_end - range.request_start + 1 < 2 ^ 64 := by
  have hok := cacheable_range_request_ok h
  obtain ⟨_, _, parsed, -, -, hparsed, hrange⟩ := cacheable_range_request_from_parts_some h
  obtain ⟨-, hstart, hend⟩ := parse_single_bounded_byte_range_ok hparsed
  unfold cacheable_range_request_for_policy at hrange
  split at hrange
  · obtain rfl := Option.some.inj hrange
    simp [CacheableRangeRequest.needs_downstream_trimming, hstart, hend] at htrim
  · rename_i slice_size _
    dsimp only at hrange
    split at hrange
    · rename_i hle
      obtain rfl := Option.some.inj hrange
      have hsmall := hok.inside.trans_lt hok.small
      dsimp only at hsmall ⊢
      rcases Nat.eq_zero_or_pos parsed.request_start with hzero | hpos
      · have hsize := slice_size.toNat_lt
        rw [hzero, Nat.zero_div, Nat.zero_mul] at hle
        unfold saturating_add U64_MAX at hle
        omega
      · omega
    · cases hrange

end rginx.cache
