-- The slice of a range request on its way to the client, from
-- `cache/entry/response.rs` and `cache/store/range.rs`: the plan that cuts the
-- range of the request out of the slice, and the body that follows the plan.
-- Upstream responses, committed entries and fills in progress all go through
-- them.
import Rginx.RangeRequests
import Rginx.DocumentView

open rust_text rust_result

namespace rginx.cache

/-! ## The plan -/

structure CachedContentRange where
  start : Nat
  end_ : Nat
  total : Option Nat
  deriving DecidableEq, Repr

structure DownstreamRangeTrimPlan where
  headers : HeaderMap
  skip_bytes : Nat
  emit_bytes : Nat

def invalid_data {α : Type} (message : String) : IoResult α := .error ⟨.InvalidData, message⟩

/-- `parse::<u64>` with its error. -/
def parse_u64_io (s : Text) : IoResult Nat :=
  match parse_u64 s with
  | some value => .ok value
  | none => invalid_data (parse_u64_error s)

/-- The size of the whole object; a star stands for an unknown one. -/
def parse_total (total : Text) : IoResult (Option Nat) :=
  if trim total = ['*'] then .ok none else (parse_u64_io (trim total)).map some

def parse_cached_content_range (headers : HeaderMap) : IoResult CachedContentRange :=
  match headers.get CONTENT_RANGE with
  | none => invalid_data "cached slice metadata is missing Content-Range"
  | some value =>
    match value.to_str with
    | none => invalid_data "failed to convert header to a str"
    | some value =>
      match stripStart "bytes ".toList (trim value) with
      | none => invalid_data ("cached Content-Range `" ++ String.ofList value ++
          "` is not a byte range")
      | some value =>
        let malformed := "cached Content-Range `" ++ String.ofList value ++ "` is malformed"
        match split_once '/' value with
        | none => invalid_data malformed
        | some (range, total) =>
          match split_once '-' range with
          | none => invalid_data malformed
          | some (start, end_) => do
            let start ← parse_u64_io (trim start)
            let end_ ← parse_u64_io (trim end_)
            let total ← parse_total total
            return ⟨start, end_, total⟩

/-- `HeaderValue::from_str` with its error. -/
def header_value_io (text : Text) : IoResult HeaderValue :=
  match HeaderValue.from_str text with
  | some value => .ok value
  | none => invalid_data "failed to parse header value"

def content_range_text (response_start response_end : Nat) (total : Option Nat) : Text :=
  "bytes ".toList ++ (decimal response_start ++ '-' :: (decimal response_end ++
    '/' :: (total.map decimal).getD ['*']))

def update_downstream_range_headers (headers : HeaderMap) (response_start response_end : Nat)
    (total : Option Nat) (response_len : Nat) : IoResult HeaderMap := do
  let length ← header_value_io (decimal response_len)
  let range ← header_value_io (content_range_text response_start response_end total)
  return (headers.insert CONTENT_LENGTH length).insert CONTENT_RANGE range

def downstream_range_trim_plan (status : StatusCode) (headers : HeaderMap)
    (request : CacheRequest) (policy : RouteCachePolicy) :
    IoResult (Option DownstreamRangeTrimPlan) :=
  match (cacheable_range_request request policy).filter (·.needs_downstream_trimming) with
  | none => .ok none
  | some request_range =>
    if status ≠ PARTIAL_CONTENT ∨
        response_content_range_matches_request request policy headers = false then .ok none
    else do
      let cached_range ← parse_cached_content_range headers
      if cached_range.start ≠ request_range.cache_start then
        invalid_data ("cached content-range start `" ++ toString cached_range.start ++
          "` does not match expected slice start `" ++ toString request_range.cache_start ++ "`")
      else
        let response_end := min request_range.request_end cached_range.end_
        if request_range.request_start < cached_range.start ∨
            response_end < request_range.request_start then
          invalid_data ("requested range `" ++ toString request_range.request_start ++ "-" ++
            toString request_range.request_end ++ "` is not satisfiable from cached slice `" ++
            toString cached_range.start ++ "-" ++ toString cached_range.end_ ++ "`")
        else
          -- The conversions to `usize` cannot fail on a target of 64 bits.
          let skip_bytes := request_range.request_start - cached_range.start
          let emit_bytes := response_end - request_range.request_start + 1
          let headers ← update_downstream_range_headers headers request_range.request_start
            response_end cached_range.total emit_bytes
          return some ⟨headers, skip_bytes, emit_bytes⟩

/-! ## Bodies -/

/-- `hyper::body::Frame`. -/
inductive BodyFrame
  | Data (data : List UInt8)
  | Trailers (trailers : HeaderMap)

/-- What the polls of a body give until they give nothing more. -/
abbrev BodyFrames := List (IoResult BodyFrame)

structure DownstreamRangeTrimBody where
  inner : BodyFrames
  skip_bytes : Nat
  emit_bytes : Nat
  done : Bool

def DownstreamRangeTrimBody.new (inner : BodyFrames) (plan : DownstreamRangeTrimPlan) :
    DownstreamRangeTrimBody :=
  ⟨inner, plan.skip_bytes, plan.emit_bytes, false⟩

def truncated_range_error : IoError :=
  ⟨.UnexpectedEof, "streamed range response ended before the requested subrange was fully produced"⟩

/-- The loop of `poll_frame`, over the frames of the inner body. -/
def DownstreamRangeTrimBody.poll_loop (skip_bytes emit_bytes : Nat) :
    BodyFrames → Option (IoResult BodyFrame) × DownstreamRangeTrimBody
  | .ok (.Data data) :: inner =>
    if data.length ≤ skip_bytes then poll_loop (skip_bytes - data.length) emit_bytes inner
    else
      let data := data.drop skip_bytes
      if emit_bytes = 0 then poll_loop 0 emit_bytes inner
      else
        let data := data.take emit_bytes
        let emit_bytes := emit_bytes - data.length
        if data = [] then poll_loop 0 emit_bytes inner
        else (some (.ok (.Data data)), ⟨inner, 0, emit_bytes, emit_bytes = 0⟩)
  | .ok (.Trailers trailers) :: inner =>
    if 0 < skip_bytes ∨ 0 < emit_bytes then
      (some (.error truncated_range_error), ⟨inner, skip_bytes, emit_bytes, true⟩)
    else (some (.ok (.Trailers trailers)), ⟨inner, skip_bytes, emit_bytes, true⟩)
  | .error error :: inner => (some (.error error), ⟨inner, skip_bytes, emit_bytes, true⟩)
  | [] =>
    if 0 < skip_bytes ∨ 0 < emit_bytes then
      (some (.error truncated_range_error), ⟨[], skip_bytes, emit_bytes, true⟩)
    else (none, ⟨[], skip_bytes, emit_bytes, true⟩)

def DownstreamRangeTrimBody.poll_frame (this : DownstreamRangeTrimBody) :
    Option (IoResult BodyFrame) × DownstreamRangeTrimBody :=
  if this.done then (none, this)
  else if this.emit_bytes = 0 then (none, { this with done := true })
  else poll_loop this.skip_bytes this.emit_bytes this.inner

/-- The first polls of a body, up to the one that gives nothing. -/
def DownstreamRangeTrimBody.polls : Nat → DownstreamRangeTrimBody → BodyFrames
  | 0, _ => []
  | count + 1, this =>
    match this.poll_frame with
    | (none, _) => []
    | (some frame, this) => frame :: this.polls count

/-- All that the body gives: one poll more than the inner body, and the one that gives nothing. -/
def DownstreamRangeTrimBody.frames (this : DownstreamRangeTrimBody) : BodyFrames :=
  this.polls (this.inner.length + 2)

structure HttpResponse where
  status : StatusCode
  headers : HeaderMap
  body : BodyFrames

def build_downstream_response (status : StatusCode) (headers : HeaderMap) (body : BodyFrames)
    (trim_plan : Option DownstreamRangeTrimPlan) : HttpResponse :=
  match trim_plan with
  | some plan => ⟨PARTIAL_CONTENT, plan.headers, (DownstreamRangeTrimBody.new body plan).frames⟩
  | none => ⟨status, headers, body⟩

/-- `finalize_response_for_request`; `store_response` and the readers of fills do the same with
the headers and the body that they have. -/
def finalize_response_for_request (status : StatusCode) (headers : HeaderMap) (body : BodyFrames)
    (request : CacheRequest) (policy : RouteCachePolicy) : IoResult HttpResponse := do
  let trim_plan ← downstream_range_trim_plan status headers request policy
  return build_downstream_response status headers body trim_plan

/-! ## What the trimmed body gives -/

/-- The frames of a body: its data in any chunks, and trailers after it or not. -/
def bodyFrames (chunks : List (List UInt8)) (trailers : Option HeaderMap) : BodyFrames :=
  chunks.map (fun data => .ok (.Data data)) ++
    trailers.toList.map fun trailers => .ok (.Trailers trailers)

/-- What a client reads: all the data, or the first error. -/
def received : BodyFrames → IoResult (List UInt8)
  | [] => .ok []
  | .error error :: _ => .error error
  | .ok (.Data data) :: rest => (received rest).map (data ++ ·)
  | .ok (.Trailers _) :: rest => received rest

theorem received_bodyFrames (chunks : List (List UInt8)) (trailers : Option HeaderMap) :
    received (bodyFrames chunks trailers) = .ok chunks.flatten := by
  unfold bodyFrames
  induction chunks with
  | nil => cases trailers <;> rfl
  | cons data rest ih =>
    simp only [List.map_cons, List.cons_append, received, ih, List.flatten_cons, Except.map]

namespace DownstreamRangeTrimBody

theorem polls_of_done (count : Nat) {this : DownstreamRangeTrimBody} (h : this.done = true) :
    this.polls count = [] := by
  cases count with
  | zero => rfl
  | succ count => simp [polls, poll_frame, h]

/-- The body gives the bytes after those it skips, as many as it was told to. -/
theorem received_polls (chunks : List (List UInt8)) (rest : BodyFrames) {count skip emit : Nat}
    (hcount : chunks.length ≤ count) (hemit : 0 < emit)
    (hlen : skip + emit ≤ chunks.flatten.length) :
    received (polls count
      ⟨chunks.map (fun data => .ok (.Data data)) ++ rest, skip, emit, false⟩) =
        .ok ((chunks.flatten.drop skip).take emit) := by
  induction chunks generalizing count skip emit with
  | nil =>
    have hzero : skip + emit ≤ 0 := hlen
    omega
  | cons data chunks ih =>
    rw [List.flatten_cons, List.length_append] at hlen
    rw [List.length_cons] at hcount
    obtain ⟨count, rfl⟩ : ∃ n, count = n + 1 := ⟨count - 1, by omega⟩
    by_cases hskip : data.length ≤ skip
    · -- The chunk lies before the range: the same poll goes on with the next.
      have hpoll : polls (count + 1) ⟨(data :: chunks).map (fun data => .ok (.Data data)) ++ rest,
          skip, emit, false⟩ = polls (count + 1) ⟨chunks.map (fun data => .ok (.Data data)) ++ rest,
          skip - data.length, emit, false⟩ := by
        have hne : emit ≠ 0 := by omega
        simp [polls, poll_frame, poll_loop, hskip, hne]
      rw [hpoll, ih (by omega) hemit (by omega), List.flatten_cons, List.drop_append,
        List.drop_eq_nil_of_le hskip, List.nil_append]
    · have hshort : skip < data.length := by omega
      obtain ⟨cut, hcut⟩ : ∃ cut, cut = (data.drop skip).take emit := ⟨_, rfl⟩
      have hcutlen : cut.length = min emit (data.length - skip) := by simp [hcut]
      have hne : cut ≠ [] := by
        rw [← List.length_pos_iff]
        omega
      have hpoll : polls (count + 1) ⟨(data :: chunks).map (fun data => .ok (.Data data)) ++ rest,
          skip, emit, false⟩ = .ok (.Data cut) :: polls count
            ⟨chunks.map (fun data => .ok (.Data data)) ++ rest, 0, emit - cut.length,
              emit - cut.length = 0⟩ := by
        have hemit' : emit ≠ 0 := by omega
        simp [polls, poll_frame, poll_loop, hskip, hemit', ← hcut, hne]
      rw [hpoll, List.flatten_cons, List.drop_append_of_le_length (by omega), List.take_append]
      by_cases hlast : emit - cut.length = 0
      · -- The range ends in this chunk.
        rw [polls_of_done _ (by simp [hlast])]
        have hzero : emit - (data.drop skip).length = 0 := by
          rw [List.length_drop]
          omega
        rw [hzero, ← hcut]
        simp [received, Except.map]
      · have hdrop : cut.length = (data.drop skip).length := by
          rw [List.length_drop]
          omega
        rw [decide_eq_false hlast, received, ih (by omega) (by omega) (by omega), ← hcut, ← hdrop]
        simp [Except.map]

end DownstreamRangeTrimBody

/-! ## The headers of the range -/

/-- The length that the headers announce, as `size_hint_from_headers` reads it. -/
def content_length (headers : HeaderMap) : Option Nat :=
  (headers.get_str CONTENT_LENGTH).bind parse_u64

theorem parse_u64_io_ok {s : Text} {n : Nat} :
    parse_u64_io s = .ok n ↔ parse_u64 s = some n := by
  unfold parse_u64_io
  split
  · rename_i value hvalue
    simp [hvalue]
  · rename_i hnone
    simp [invalid_data, hnone]

/-- What a `Content-Range` that can be read is made of. -/
theorem parse_cached_content_range_ok {headers : HeaderMap} {range : CachedContentRange}
    (h : parse_cached_content_range headers = .ok range) :
    ∃ text value parts bounds, headers.get_str CONTENT_RANGE = some text ∧
      stripStart "bytes ".toList (trim text) = some value ∧
      split_once '/' value = some parts ∧ split_once '-' parts.1 = some bounds ∧
      parse_u64 (trim bounds.1) = some range.start ∧
      parse_u64 (trim bounds.2) = some range.end_ ∧ ∀ n, range.total = some n → n < 2 ^ 64 := by
  unfold parse_cached_content_range at h
  split at h
  · cases h
  rename_i value hvalue
  split at h
  · cases h
  rename_i text htext
  split at h
  · cases h
  rename_i value' hstrip
  split at h
  · cases h
  rename_i first total hslash
  split at h
  · cases h
  rename_i start end_ hdash
  obtain ⟨first_byte, hfirst, h⟩ := bind_eq_ok.mp h
  obtain ⟨last_byte, hlast, h⟩ := bind_eq_ok.mp h
  obtain ⟨size, hsize, h⟩ := bind_eq_ok.mp h
  obtain rfl := Except.ok.inj h
  refine ⟨text, value', _, _, ?_, hstrip, hslash, hdash, parse_u64_io_ok.mp hfirst,
    parse_u64_io_ok.mp hlast, ?_⟩
  · simp [HeaderMap.get_str, hvalue, htext]
  · rintro n rfl
    unfold parse_total at hsize
    split at hsize
    · cases hsize
    · rcases hparse : parse_u64_io (trim total) with error | n'
      · rw [hparse] at hsize
        cases hsize
      · rw [hparse] at hsize
        obtain rfl := Option.some.inj (Except.ok.inj hsize)
        exact parse_u64_lt (parse_u64_io_ok.mp hparse)

/-- The check and the plan read the same numbers. -/
theorem response_content_range_matches_request_eq {request : CacheRequest}
    {policy : RouteCachePolicy} {headers : HeaderMap} {range : CacheableRangeRequest}
    {cached : CachedContentRange} (hrange : cacheable_range_request request policy = some range)
    (hcached : parse_cached_content_range headers = .ok cached) :
    response_content_range_matches_request request policy headers =
      decide (cached.start = range.cache_start ∧ range.request_end ≤ cached.end_ ∧
        cached.end_ ≤ range.cache_end) := by
  obtain ⟨text, value, parts, bounds, htext, hstrip, hslash, hdash, hfirst, hlast, -⟩ :=
    parse_cached_content_range_ok hcached
  unfold response_content_range_matches_request
  simp only [hrange, htext, hstrip, hslash, hdash, hfirst, hlast, Option.bind_eq_bind,
    Option.bind_some, Option.pure_def, Option.getD_some, Bool.decide_and, Bool.and_assoc]

theorem toNat_of_mem_decimal {n : Nat} {c : Char} (h : c ∈ decimal n) :
    32 ≤ c.toNat ∧ c.toNat < 127 := by
  have hdigit := isDigit_of_mem_decimal h
  simp only [Char.isDigit, Bool.and_eq_true, decide_eq_true_eq] at hdigit
  have hlo : 48 ≤ c.toNat := hdigit.1
  have hhi : c.toNat ≤ 57 := hdigit.2
  omega

theorem header_value_io_visible {s : Text} (h : ∀ c ∈ s, 32 ≤ c.toNat ∧ c.toNat < 127) :
    ∃ value, header_value_io s = .ok value ∧ value.to_str = some s := by
  obtain ⟨value, hvalue, hread⟩ := HeaderValue.from_str_visible h
  refine ⟨value, ?_, hread⟩
  unfold header_value_io
  rw [hvalue]

theorem content_range_text_visible (first last : Nat) (total : Option Nat) :
    ∀ c ∈ content_range_text first last total, 32 ≤ c.toNat ∧ c.toNat < 127 := by
  intro c hc
  unfold content_range_text at hc
  simp only [List.mem_append, List.mem_cons] at hc
  rcases hc with hc | hc | rfl | hc | rfl | hc
  · have hmem : c ∈ ['b', 'y', 't', 'e', 's', ' '] := hc
    simp only [List.mem_cons, List.not_mem_nil, or_false] at hmem
    rcases hmem with rfl | rfl | rfl | rfl | rfl | rfl <;> decide
  · exact toNat_of_mem_decimal hc
  · decide
  · exact toNat_of_mem_decimal hc
  · decide
  · cases total with
    | none =>
      obtain rfl := List.mem_singleton.mp hc
      decide
    | some n => exact toNat_of_mem_decimal hc

/-- The text neither starts nor ends with a blank. -/
theorem trim_content_range_text (first last : Nat) (total : Option Nat) :
    trim (content_range_text first last total) = content_range_text first last total := by
  apply trim_eq_self
  · intro c hc
    unfold content_range_text at hc
    obtain rfl : 'b' = c := by simpa using hc
    decide
  · intro c hc
    unfold content_range_text at hc
    cases total with
    | none =>
      obtain rfl : '*' = c := by simpa [List.getLast?_append, List.getLast?_cons] using hc
      decide
    | some n =>
      have hlast : c ∈ (decimal n).getLast? := by
        simpa [List.getLast?_append, List.getLast?_cons,
          List.getLast?_eq_some_getLast (decimal_ne_nil n)] using hc
      exact isWhitespace_of_isDigit (isDigit_of_mem_decimal (List.mem_of_getLast? hlast))

theorem parse_total_text {total : Option Nat} (htotal : ∀ n, total = some n → n < 2 ^ 64) :
    parse_total ((total.map decimal).getD ['*']) = .ok total := by
  unfold parse_total
  cases total with
  | none => rfl
  | some n =>
    have hdigits : decimal n ≠ ['*'] := by
      intro hstar
      have hmem : '*' ∈ decimal n := hstar ▸ List.mem_singleton_self _
      exact notMem_decimal rfl n hmem
    rw [Option.map_some, Option.getD_some, trim_decimal, if_neg hdigits,
      parse_u64_io_ok.mpr (parse_u64_decimal (htotal n rfl))]
    rfl

/-- The text of a range reads back. -/
theorem parse_content_range_text {headers : HeaderMap} {range : CachedContentRange}
    (hstart : range.start < 2 ^ 64) (hend : range.end_ < 2 ^ 64)
    (htotal : ∀ n, range.total = some n → n < 2 ^ 64)
    (h : headers.get_str CONTENT_RANGE =
      some (content_range_text range.start range.end_ range.total)) :
    parse_cached_content_range headers = .ok range := by
  obtain ⟨value, hvalue, htext⟩ := Option.bind_eq_some_iff.mp h
  have hparse := parse_total_text htotal
  generalize hsize : (range.total.map decimal).getD ['*'] = size at hparse
  have hslash : '/' ∉ decimal range.start ++ '-' :: decimal range.end_ := by
    have hnone : ∀ n, '/' ∉ decimal n := notMem_decimal rfl
    simp [hnone]
  unfold parse_cached_content_range
  rw [hvalue]
  dsimp only
  rw [htext]
  dsimp only
  rw [trim_content_range_text]
  unfold content_range_text
  rw [stripStart_append]
  dsimp only
  rw [hsize, show decimal range.start ++ '-' :: (decimal range.end_ ++ '/' :: size) =
    (decimal range.start ++ '-' :: decimal range.end_) ++ '/' :: size by simp,
    split_once_append hslash]
  dsimp only
  rw [split_once_append (notMem_decimal rfl _)]
  dsimp only
  rw [trim_decimal, trim_decimal, parse_u64_io_ok.mpr (parse_u64_decimal hstart),
    parse_u64_io_ok.mpr (parse_u64_decimal hend)]
  rw [ok_bind, ok_bind, hparse]
  rfl

/-! ## The law -/

/-- The bytes of an object from one position to another. -/
def objectBytes (object : Nat → UInt8) (first last : Nat) : List UInt8 :=
  (List.range' first (last + 1 - first)).map object

theorem objectBytes_cut (object : Nat → UInt8) {start first last end_ : Nat}
    (hstart : start ≤ first) (hbounded : first ≤ last) (hend : last ≤ end_) :
    ((objectBytes object start end_).drop (first - start)).take (last - first + 1) =
      objectBytes object first last := by
  unfold objectBytes
  rw [← List.map_drop, ← List.map_take]
  congr 1
  apply List.ext_getElem
  · simp only [List.length_take, List.length_drop, List.length_range']
    omega
  · intro i hi hi'
    simp only [List.getElem_take, List.getElem_drop, List.getElem_range']
    omega

/-- The plan for a slice that reaches to the end of the request. -/
theorem downstream_range_trim_plan_some {request : CacheRequest} {policy : RouteCachePolicy}
    {range : CacheableRangeRequest} (hrange : cacheable_range_request request policy = some range)
    (htrim : range.needs_downstream_trimming = true) {headers : HeaderMap} {end_ : Nat}
    {total : Option Nat}
    (hcached : parse_cached_content_range headers = .ok ⟨range.cache_start, end_, total⟩)
    (hcover : range.request_end ≤ end_) (hend : end_ ≤ range.cache_end) :
    ∃ headers', downstream_range_trim_plan PARTIAL_CONTENT headers request policy =
        .ok (some ⟨headers', range.request_start - range.cache_start,
          range.request_end - range.request_start + 1⟩) ∧
      content_length headers' = some (range.request_end - range.request_start + 1) ∧
      parse_cached_content_range headers' =
        .ok ⟨range.request_start, range.request_end, total⟩ := by
  have hok := cacheable_range_request_ok hrange
  have hlast : range.request_end < 2 ^ 64 :=
    lt_of_le_of_lt (hcover.trans hend) hok.small
  have hdigits : ∀ c ∈ decimal (range.request_end - range.request_start + 1),
      32 ≤ c.toNat ∧ c.toNat < 127 := fun c hc => toNat_of_mem_decimal hc
  obtain ⟨length, hlength, hlengthstr⟩ := header_value_io_visible hdigits
  obtain ⟨value, hvalue, hvaluestr⟩ := header_value_io_visible
    (content_range_text_visible range.request_start range.request_end total)
  refine ⟨(headers.insert CONTENT_LENGTH length).insert CONTENT_RANGE value, ?_, ?_, ?_⟩
  · have hmatch := response_content_range_matches_request_eq hrange hcached
    rw [decide_eq_true ⟨rfl, hcover, hend⟩] at hmatch
    have hbounds : ¬(range.request_start < range.cache_start ∨
        min range.request_end end_ < range.request_start) := by
      have := hok.start
      have := hok.bounded
      omega
    have hmin : min range.request_end end_ = range.request_end := by omega
    unfold downstream_range_trim_plan
    rw [hrange, Option.filter_some, if_pos htrim]
    dsimp only
    rw [if_neg (by simp [hmatch]), hcached, ok_bind]
    dsimp only
    rw [if_neg (by simp), if_neg hbounds, hmin]
    simp [update_downstream_range_headers, hlength, hvalue]
  · unfold content_length HeaderMap.get_str
    rw [HeaderMap.get_insert_of_ne _ _ (by decide), HeaderMap.get_insert_self, Option.bind_some,
      hlengthstr, Option.bind_some]
    exact parse_u64_decimal (cacheable_range_request_short hrange htrim)
  · have hbounded := hok.bounded
    apply parse_content_range_text
    · exact lt_of_le_of_lt hbounded hlast
    · exact hlast
    · obtain ⟨_, _, _, _, -, -, -, -, -, -, htotal⟩ := parse_cached_content_range_ok hcached
      exact htotal
    · unfold HeaderMap.get_str
      rw [HeaderMap.get_insert_self, Option.bind_some, hvaluestr]

/-- A slice that is the range of the request, or that ends before it, is passed on as it is. -/
theorem downstream_range_trim_plan_none {request : CacheRequest} {policy : RouteCachePolicy}
    {range : CacheableRangeRequest} (hrange : cacheable_range_request request policy = some range)
    {headers : HeaderMap} {cached : CachedContentRange}
    (hcached : parse_cached_content_range headers = .ok cached)
    (h : ¬(range.needs_downstream_trimming = true ∧ range.request_end ≤ cached.end_)) :
    downstream_range_trim_plan PARTIAL_CONTENT headers request policy = .ok none := by
  unfold downstream_range_trim_plan
  rw [hrange, Option.filter_some]
  by_cases htrim : range.needs_downstream_trimming = true
  · have hshort : ¬range.request_end ≤ cached.end_ := fun hcover => h ⟨htrim, hcover⟩
    rw [if_pos htrim]
    dsimp only
    rw [response_content_range_matches_request_eq hrange hcached, if_pos]
    right
    exact decide_eq_false fun hmatch => hshort hmatch.2.1
  · rw [if_neg htrim]

/-- Of a slice that answers the request, the client gets exactly the bytes of its range, with
their `Content-Range` and `Content-Length`, in these cases and no others: the slice reaches to the
end of the request or starts with it; and where it is passed on as it is, it has the right
`Content-Length`. -/
theorem a_slice_answers_the_range_of_its_request (request : CacheRequest)
    (policy : RouteCachePolicy) (range : CacheableRangeRequest)
    (hrange : cacheable_range_request request policy = some range) (headers : HeaderMap)
    (end_ : Nat) (total : Option Nat)
    (hcached : parse_cached_content_range headers = .ok ⟨range.cache_start, end_, total⟩)
    (hstart : range.request_start ≤ end_) (hend : end_ ≤ range.cache_end)
    (object : Nat → UInt8) (chunks : List (List UInt8)) (trailers : Option HeaderMap)
    (hbody : chunks.flatten = objectBytes object range.cache_start end_) :
    (∃ response, finalize_response_for_request PARTIAL_CONTENT headers
        (bodyFrames chunks trailers) request policy = .ok response ∧
      received response.body =
        .ok (objectBytes object range.request_start (min range.request_end end_)) ∧
      parse_cached_content_range response.headers =
        .ok ⟨range.request_start, min range.request_end end_, total⟩ ∧
      content_length response.headers =
        some (min range.request_end end_ - range.request_start + 1)) ↔
    (range.request_end ≤ end_ ∨ range.request_start = range.cache_start) ∧
      (range.request_start = range.cache_start →
        range.request_end = range.cache_end ∨ end_ < range.request_end →
        content_length headers = some (end_ - range.request_start + 1)) := by
  have hok := cacheable_range_request_ok hrange
  by_cases htrimmed : range.needs_downstream_trimming = true ∧ range.request_end ≤ end_
  · -- The slice is cut, and both sides hold.
    obtain ⟨htrim, hcover⟩ := htrimmed
    obtain ⟨headers', hplan, hlength, hparsed⟩ :=
      downstream_range_trim_plan_some hrange htrim hcached hcover hend
    have hmin : min range.request_end end_ = range.request_end := by omega
    have hreceived : received (DownstreamRangeTrimBody.new (bodyFrames chunks trailers)
        ⟨headers', range.request_start - range.cache_start,
          range.request_end - range.request_start + 1⟩).frames =
        .ok (objectBytes object range.request_start range.request_end) := by
      have hbytes : (objectBytes object range.cache_start end_).length =
          end_ + 1 - range.cache_start := by simp [objectBytes]
      rw [← objectBytes_cut object hok.start hok.bounded hcover, ← hbody]
      show received (DownstreamRangeTrimBody.polls _ ⟨_, range.request_start - range.cache_start,
        range.request_end - range.request_start + 1, false⟩) = _
      apply DownstreamRangeTrimBody.received_polls
      · simp only [DownstreamRangeTrimBody.new, bodyFrames, List.length_append, List.length_map]
        omega
      · omega
      · have hfirst := hok.start
        have hbounded := hok.bounded
        rw [hbody, hbytes]
        omega
    rw [hmin]
    refine ⟨fun _ => ⟨.inl hcover, ?_⟩,
      fun _ => ⟨⟨PARTIAL_CONTENT, headers', _⟩, ?_, hreceived, hparsed, hlength⟩⟩
    · intro hfirst hwhole
      simp only [CacheableRangeRequest.needs_downstream_trimming, hfirst] at htrim
      rcases hwhole with hwhole | hshort
      · simp [hwhole] at htrim
      · omega
    · unfold finalize_response_for_request
      rw [hplan, ok_bind]
      rfl
  · -- The slice is passed on, and it must be the range itself.
    have hplan := downstream_range_trim_plan_none hrange hcached htrimmed
    have hfinal : finalize_response_for_request PARTIAL_CONTENT headers
        (bodyFrames chunks trailers) request policy =
          .ok ⟨PARTIAL_CONTENT, headers, bodyFrames chunks trailers⟩ := by
      unfold finalize_response_for_request
      rw [hplan, ok_bind]
      rfl
    have hwhole : range.request_end = range.cache_end ∧
        range.request_start = range.cache_start ∨ end_ < range.request_end := by
      by_cases hcover : range.request_end ≤ end_
      · left
        have hno : range.needs_downstream_trimming = false := by simpa [hcover] using htrimmed
        simp only [CacheableRangeRequest.needs_downstream_trimming, Bool.or_eq_false_iff,
          decide_eq_false_iff_not, not_not] at hno
        exact ⟨hno.2, hno.1⟩
      · right
        omega
    have hmin : min range.request_end end_ = end_ := by omega
    rw [hmin]
    refine ⟨?_, ?_⟩
    · rintro ⟨response, hresponse, hreceived, -, hlength⟩
      rw [hfinal] at hresponse
      obtain rfl := Except.ok.inj hresponse
      rw [received_bodyFrames, hbody] at hreceived
      have hsame := congrArg List.length (Except.ok.inj hreceived)
      simp only [objectBytes, List.length_map, List.length_range'] at hsame
      have hfirst := hok.start
      exact ⟨.inr (by omega), fun _ _ => hlength⟩
    · rintro ⟨hcases, hlength⟩
      have hfirst : range.request_start = range.cache_start := by omega
      refine ⟨_, hfinal, ?_, ?_, ?_⟩
      · rw [received_bodyFrames, hbody, hfirst]
      · rw [hcached, hfirst]
      · exact hlength hfirst (by omega)

/-- An object of five bytes in slices of eight: the bytes 2 to 4 of the request 2-4. -/
theorem a_short_slice_answers_a_range_inside_it :
    ∃ response, finalize_response_for_request PARTIAL_CONTENT
        [(CONTENT_RANGE, plainValue "bytes 0-4/5"), (CONTENT_LENGTH, plainValue "5")]
        (bodyFrames [[0, 1, 2], [3, 4]] none) (plainGet [(RANGE, plainValue "bytes=2-4")])
        { plainPolicy true with slice_size_bytes := some 8 } = .ok response ∧
      received response.body = .ok [2, 3, 4] := by
  obtain ⟨response, hresponse, hreceived, -, -⟩ :=
    (a_slice_answers_the_range_of_its_request (plainGet [(RANGE, plainValue "bytes=2-4")])
      { plainPolicy true with slice_size_bytes := some 8 } ⟨2, 4, 0, 7⟩ (by decide +kernel)
      [(CONTENT_RANGE, plainValue "bytes 0-4/5"), (CONTENT_LENGTH, plainValue "5")] 4 (some 5)
      (by decide +kernel) (by decide) (by decide) Nat.toUInt8 [[0, 1, 2], [3, 4]] none
      (by decide)).mpr ⟨.inl (by decide), fun hfirst => absurd hfirst (by decide)⟩
  exact ⟨response, hresponse, hreceived⟩

/-- The request 2-7 of the same object gets the whole slice, with the two bytes before its
range. -/
theorem a_short_slice_shows_the_bytes_before_the_range :
    let request := plainGet [(RANGE, plainValue "bytes=2-7")]
    let policy := { plainPolicy true with slice_size_bytes := some 8 }
    let headers : HeaderMap :=
      [(CONTENT_RANGE, plainValue "bytes 0-4/5"), (CONTENT_LENGTH, plainValue "5")]
    cacheable_range_request request policy = some ⟨2, 7, 0, 7⟩ ∧
    parse_cached_content_range headers = .ok ⟨0, 4, some 5⟩ ∧
    ∃ response, finalize_response_for_request PARTIAL_CONTENT headers
        (bodyFrames [objectBytes Nat.toUInt8 0 4] none) request policy = .ok response ∧
      received response.body = .ok (objectBytes Nat.toUInt8 0 4) ∧
      received response.body ≠ .ok (objectBytes Nat.toUInt8 2 (min 7 4)) := by
  intro request policy headers
  have hrange : cacheable_range_request request policy = some ⟨2, 7, 0, 7⟩ := by decide +kernel
  have hcached : parse_cached_content_range headers = .ok ⟨0, 4, some 5⟩ := by decide +kernel
  refine ⟨hrange, hcached, ⟨PARTIAL_CONTENT, headers,
    bodyFrames [objectBytes Nat.toUInt8 0 4] none⟩, ?_, rfl, by decide⟩
  unfold finalize_response_for_request
  rw [downstream_range_trim_plan_none hrange hcached (by decide)]
  rfl

end rginx.cache
