-- What the cache reads of a request: its headers, its target, and the policy
-- of its route (`rginx-core/src/config/cache.rs`, `cache/request.rs`,
-- `cache/vary.rs` and `cache/policy/directives.rs`). The types of the `http`
-- crate carry what its constructors check.
import Rginx.CacheState
import Rginx.RustText

open rust_text

namespace rginx.cache

/-! ## Headers -/

/-- `http::HeaderValue`: any bytes but the control characters, the tab apart. -/
structure HeaderValue where
  as_bytes : List UInt8
  valid : ∀ b ∈ as_bytes, (32 ≤ b ∧ b ≠ 127) ∨ b = 9
  deriving DecidableEq

/-- `HeaderValue::from_str`. -/
def HeaderValue.from_str (s : Text) : Option HeaderValue :=
  if h : ∀ b ∈ s.flatMap String.utf8EncodeChar, (32 ≤ b ∧ b ≠ 127) ∨ b = 9 then
    some ⟨s.flatMap String.utf8EncodeChar, h⟩
  else none

/-- `HeaderValue::to_str`: the text of a value of visible ASCII characters and tabs. -/
def HeaderValue.to_str (value : HeaderValue) : Option Text :=
  if ∀ b ∈ value.as_bytes, (32 ≤ b ∧ b < 127) ∨ b = 9 then
    some (value.as_bytes.map fun b => Char.ofNat b.toNat)
  else none

/-- `http::HeaderMap`: the values of a name stand in the order in which they were added. -/
abbrev HeaderMap := List (HeaderName × HeaderValue)

namespace HeaderMap

def get_all (headers : HeaderMap) (name : HeaderName) : List HeaderValue :=
  (headers.filter fun row => row.1 = name).map Prod.snd

def get (headers : HeaderMap) (name : HeaderName) : Option HeaderValue :=
  (headers.get_all name).head?

def contains_key (headers : HeaderMap) (name : HeaderName) : Bool :=
  headers.any fun row => row.1 = name

def remove (headers : HeaderMap) (name : HeaderName) : HeaderMap :=
  headers.filter fun row => row.1 ≠ name

/-- The value takes the place of all values of its name. -/
def insert (headers : HeaderMap) (name : HeaderName) (value : HeaderValue) : HeaderMap :=
  headers.remove name ++ [(name, value)]

/-- `headers.get(name)` with `to_str().ok()`. -/
def get_str (headers : HeaderMap) (name : HeaderName) : Option Text :=
  (headers.get name).bind HeaderValue.to_str

theorem get_all_remove_of_ne {name other : HeaderName} (headers : HeaderMap) (h : other ≠ name) :
    (headers.remove name).get_all other = headers.get_all other := by
  unfold remove get_all
  rw [List.filter_filter]
  congr 1
  apply List.filter_congr
  intro row _
  by_cases hrow : row.1 = other
  · simp [hrow, h]
  · simp [hrow]

theorem get_all_remove_self (headers : HeaderMap) (name : HeaderName) :
    (headers.remove name).get_all name = [] := by
  unfold remove get_all
  rw [List.filter_filter]
  simp

theorem get_all_append (headers more : HeaderMap) (name : HeaderName) :
    HeaderMap.get_all (headers ++ more) name = headers.get_all name ++ more.get_all name := by
  simp [get_all]

@[simp]
theorem get_all_insert_self (headers : HeaderMap) (name : HeaderName) (value : HeaderValue) :
    (headers.insert name value).get_all name = [value] := by
  unfold insert
  rw [get_all_append, get_all_remove_self]
  simp [get_all]

theorem get_all_insert_of_ne {name other : HeaderName} (headers : HeaderMap)
    (value : HeaderValue) (h : other ≠ name) :
    (headers.insert name value).get_all other = headers.get_all other := by
  unfold insert
  rw [get_all_append, get_all_remove_of_ne headers h]
  simp [get_all, Ne.symm h]

theorem get_all_insert (headers : HeaderMap) (name other : HeaderName) (value : HeaderValue) :
    (headers.insert name value).get_all other =
      if other = name then [value] else headers.get_all other := by
  split
  · rename_i hsame
    rw [hsame, get_all_insert_self]
  · rename_i hother
    exact get_all_insert_of_ne headers value hother

theorem get_all_remove (headers : HeaderMap) (name other : HeaderName) :
    (headers.remove name).get_all other = if other = name then [] else headers.get_all other := by
  split
  · rename_i hsame
    rw [hsame, get_all_remove_self]
  · rename_i hother
    exact get_all_remove_of_ne headers hother

@[simp]
theorem get_insert_self (headers : HeaderMap) (name : HeaderName) (value : HeaderValue) :
    (headers.insert name value).get name = some value := by
  simp [get]

theorem get_insert_of_ne {name other : HeaderName} (headers : HeaderMap) (value : HeaderValue)
    (h : other ≠ name) : (headers.insert name value).get other = headers.get other := by
  unfold get
  rw [get_all_insert_of_ne headers value h]

end HeaderMap

def ACCEPT_ENCODING : HeaderName := ⟨"accept-encoding", by decide⟩
def AUTHORIZATION : HeaderName := ⟨"authorization", by decide⟩
def CACHE_CONTROL : HeaderName := ⟨"cache-control", by decide⟩
def CONTENT_LENGTH : HeaderName := ⟨"content-length", by decide⟩
def CONTENT_RANGE : HeaderName := ⟨"content-range", by decide⟩
def CONTENT_TYPE : HeaderName := ⟨"content-type", by decide⟩
def COOKIE : HeaderName := ⟨"cookie", by decide⟩
def HOST : HeaderName := ⟨"host", by decide⟩
def IF_RANGE : HeaderName := ⟨"if-range", by decide⟩
def RANGE : HeaderName := ⟨"range", by decide⟩
def X_FORWARDED_FOR : HeaderName := ⟨"x-forwarded-for", by decide⟩

/-- A text of visible ASCII characters is a header value and reads back from it. -/
theorem HeaderValue.from_str_visible {s : Text}
    (h : ∀ c ∈ s, 32 ≤ c.toNat ∧ c.toNat < 127) :
    ∃ value, HeaderValue.from_str s = some value ∧ value.to_str = some s := by
  have hascii : ∀ c ∈ s, c.toNat < 128 := fun c hc => Nat.lt_succ_of_lt (h c hc).2
  have hbytes : s.flatMap String.utf8EncodeChar = s.map fun c => c.toNat.toUInt8 :=
    as_bytes_of_ascii hascii
  have hbyte : ∀ c ∈ s, c.toNat.toUInt8.toNat = c.toNat := by
    intro c hc
    have := (h c hc).2
    simp
    omega
  have hvisible : ∀ b ∈ s.map fun c => c.toNat.toUInt8, 32 ≤ b ∧ b < 127 := by
    intro b hb
    obtain ⟨c, hc, rfl⟩ := List.mem_map.mp hb
    have hrange := h c hc
    rw [UInt8.le_iff_toNat_le, UInt8.lt_iff_toNat_lt, hbyte c hc]
    exact hrange
  have hvalid : ∀ b ∈ s.flatMap String.utf8EncodeChar, (32 ≤ b ∧ b ≠ 127) ∨ b = 9 := by
    intro b hb
    rw [hbytes] at hb
    exact .inl ⟨(hvisible b hb).1, UInt8.ne_of_lt (hvisible b hb).2⟩
  refine ⟨⟨s.flatMap String.utf8EncodeChar, hvalid⟩, ?_, ?_⟩
  · unfold HeaderValue.from_str
    rw [dif_pos hvalid]
  · unfold HeaderValue.to_str
    rw [if_pos fun b hb => .inl (hvisible b (hbytes ▸ hb))]
    exact congrArg some (ascii_of_bytes hascii)

/-- The bytes of a visible text are its characters. -/
theorem visible_of_to_str {value : HeaderValue} {text : Text} (h : value.to_str = some text) :
    value.as_bytes = as_bytes text ∧ ∀ c ∈ text, (32 ≤ c.toNat ∧ c.toNat < 127) ∨ c.toNat = 9 := by
  unfold HeaderValue.to_str at h
  split at h
  · rename_i hvisible
    have htext := Option.some.inj h
    have hchar : ∀ b ∈ value.as_bytes, (Char.ofNat b.toNat).toNat = b.toNat := by
      intro b _
      have hb := b.toNat_lt
      have hvalid : b.toNat.isValidChar := by
        left
        omega
      rw [Char.toNat_ofNat, if_pos hvalid]
    have hrange : ∀ c ∈ text, (32 ≤ c.toNat ∧ c.toNat < 127) ∨ c.toNat = 9 := by
      intro c hc
      rw [← htext] at hc
      obtain ⟨b, hb, rfl⟩ := List.mem_map.mp hc
      rw [hchar b hb]
      rcases hvisible b hb with ⟨hlow, hhigh⟩ | rfl
      · exact .inl ⟨UInt8.le_iff_toNat_le.mp hlow, UInt8.lt_iff_toNat_lt.mp hhigh⟩
      · exact .inr rfl
    refine ⟨?_, hrange⟩
    rw [as_bytes_of_ascii fun c hc => by have := hrange c hc; omega, ← htext, List.map_map]
    symm
    calc value.as_bytes.map ((fun c => c.toNat.toUInt8) ∘ fun b => Char.ofNat b.toNat)
        = value.as_bytes.map id := by
          apply List.map_congr_left
          intro b hb
          simp only [Function.comp_apply, id_eq]
          rw [hchar b hb]
          exact UInt8.ofNat_toNat
      _ = value.as_bytes := List.map_id _
  · cases h

/-! ## Requests -/

/-- `http::Method`; a token that is none of the standard ones is an extension. -/
inductive Method
  | OPTIONS
  | GET
  | POST
  | PUT
  | DELETE
  | HEAD
  | TRACE
  | CONNECT
  | PATCH
  | Extension (token : String)
  deriving DecidableEq, Repr

def Method.as_str : Method → String
  | .OPTIONS => "OPTIONS"
  | .GET => "GET"
  | .POST => "POST"
  | .PUT => "PUT"
  | .DELETE => "DELETE"
  | .HEAD => "HEAD"
  | .TRACE => "TRACE"
  | .CONNECT => "CONNECT"
  | .PATCH => "PATCH"
  | .Extension token => token

/-- The characters that `http::uri::PathAndQuery` takes in a path. -/
def pathChar (c : Char) : Bool :=
  let n := c.toNat
  n = 0x21 ∨ n = 0x22 ∨ (0x24 ≤ n ∧ n ≤ 0x3B) ∨ n = 0x3D ∨ (0x40 ≤ n ∧ n ≤ 0x5F) ∨
    0x61 ≤ n

/-- The characters that it takes in a query. -/
def queryChar (c : Char) : Bool :=
  let n := c.toNat
  n = 0x21 ∨ (0x24 ≤ n ∧ n ≤ 0x3B) ∨ n = 0x3D ∨ 0x3F ≤ n

/-- `http::uri::PathAndQuery`: a path, and a query after a question mark. -/
structure PathAndQuery where
  data : Text
  valid : (data.takeWhile (· ≠ '?')).all pathChar ∧
    ((data.dropWhile (· ≠ '?')).drop 1).all queryChar

def PathAndQuery.as_str (p : PathAndQuery) : Text := if p.data = [] then ['/'] else p.data

/-- `http::Uri`, less the scheme. -/
structure Uri where
  authority : Option Text
  path_and_query : Option PathAndQuery

structure CacheRequest where
  method : Method
  uri : Uri
  headers : HeaderMap

/-- The path-and-query of a target; one without any (`CONNECT` has none) counts as `/`. -/
def Uri.request_uri (uri : Uri) : Text :=
  (uri.path_and_query.map PathAndQuery.as_str).getD ['/']

def CacheRequest.request_uri (request : CacheRequest) : Text := request.uri.request_uri

def query_pairs (uri : Text) : List (Text × Text) :=
  match split_once '?' uri with
  | none => []
  | some (_, query) =>
    ((split '&' query).filter (· ≠ [])).map fun pair => (split_once '=' pair).getD (pair, [])

def cookie_pairs (headers : HeaderMap) : List (Text × Text) :=
  ((((headers.get_all COOKIE).filterMap HeaderValue.to_str).flatMap (split ';')).map trim
    |>.filter (· ≠ [])).map fun cookie =>
      let pair := (split_once '=' cookie).getD (cookie, [])
      (trim pair.1, trim pair.2)

/-! ## The policy of a route -/

/-- `http::StatusCode`, by its number. -/
abbrev StatusCode := Nat

def PARTIAL_CONTENT : StatusCode := 206

inductive CachePredicate
  | Any (conditions : List CachePredicate)
  | All (conditions : List CachePredicate)
  | Not (condition : CachePredicate)
  | Method (method : Method)
  | HeaderExists (name : HeaderName)
  | HeaderEquals (name : HeaderName) (value : Text)
  | QueryExists (name : Text)
  | QueryEquals (name value : Text)
  | CookieExists (name : Text)
  | CookieEquals (name value : Text)
  | Status (statuses : List StatusCode)

mutual

def CachePredicate.matches_request : CachePredicate → CacheRequest → Bool
  | .Any conditions, request => CachePredicate.any_matches conditions request
  | .All conditions, request => CachePredicate.all_match conditions request
  | .Not condition, request => !condition.matches_request request
  | .Method method, request => method = request.method
  | .HeaderExists name, request => request.headers.contains_key name
  | .HeaderEquals name value, request =>
    ((request.headers.get_all name).filterMap HeaderValue.to_str).any (· = value)
  | .QueryExists name, request => (query_pairs request.request_uri).any (·.1 = name)
  | .QueryEquals name value, request =>
    (query_pairs request.request_uri).any fun pair => pair.1 = name ∧ pair.2 = value
  | .CookieExists name, request => (cookie_pairs request.headers).any (·.1 = name)
  | .CookieEquals name value, request =>
    (cookie_pairs request.headers).any fun pair => pair.1 = name ∧ pair.2 = value
  | .Status _, _ => false

def CachePredicate.any_matches : List CachePredicate → CacheRequest → Bool
  | [], _ => false
  | condition :: rest, request =>
    condition.matches_request request || CachePredicate.any_matches rest request

def CachePredicate.all_match : List CachePredicate → CacheRequest → Bool
  | [], _ => true
  | condition :: rest, request =>
    condition.matches_request request && CachePredicate.all_match rest request

end

inductive CacheUseStaleCondition
  | Error
  | Timeout
  | Updating
  | Http403
  | Http404
  | Http429
  | Http500
  | Http502
  | Http503
  | Http504
  deriving DecidableEq, Repr

inductive CacheIgnoreHeader
  | XAccelExpires
  | Expires
  | CacheControl
  | SetCookie
  | Vary
  deriving DecidableEq, Repr

inductive CacheRangeRequestPolicy
  | Bypass
  | Cache
  deriving DecidableEq, Repr

inductive CacheKeyVariable
  | Scheme
  | Host
  | Uri
  | Method
  | Header (name : HeaderName)
  | Query (name : Text)
  | Cookie (name : Text)
  deriving DecidableEq

inductive CacheKeyTemplatePart
  | Literal (text : Text)
  | Variable (name : CacheKeyVariable)
  deriving DecidableEq

structure CacheKeyTemplate where
  raw : Text
  parts : List CacheKeyTemplatePart
  deriving DecidableEq

/-- The fields of `RouteCachePolicy` that the lookup and the keys read; the durations are in
milliseconds. -/
structure RouteCachePolicy where
  methods : List Method
  key : CacheKeyTemplate
  cache_bypass : Option CachePredicate
  use_stale : List CacheUseStaleCondition
  background_update : Bool
  lock_age : Nat
  ignore_headers : List CacheIgnoreHeader
  range_requests : CacheRangeRequestPolicy
  slice_size_bytes : Option UInt64
  convert_head : Bool

/-! ## The headers that select a variant -/

/-- The values of `Accept-Encoding` as one text in lower case. One value that is no text hides
them all. -/
def normalized_accept_encoding (headers : HeaderMap) : Option Text := do
  let values ← (headers.get_all ACCEPT_ENCODING).mapM HeaderValue.to_str
  let tokens := values.flatMap fun value => ((split ',' value).map trim).filter (· ≠ [])
  if tokens = [] then none
  else some (to_ascii_lowercase (List.intercalate [','] tokens))

/-- The values of the other headers, without those that are no text. -/
def normalized_request_header_values (headers : HeaderMap) (name : HeaderName) : Option Text :=
  if name = ACCEPT_ENCODING then normalized_accept_encoding headers
  else
    let values := (headers.get_all name).filterMap HeaderValue.to_str
    if values = [] then none
    else some (List.intercalate [','] (values.map trim))

def matches_vary_headers (request : CacheRequest) (vary : List CachedVaryHeaderValue) : Bool :=
  vary.all fun header =>
    (normalized_request_header_values request.headers header.name).map String.ofList = header.value

/-- The normal form has no capital letter. -/
theorem isUpper_of_mem_accept_encoding {headers : HeaderMap} {text : Text} {c : Char}
    (h : normalized_accept_encoding headers = some text) (hc : c ∈ text) : c.isUpper = false := by
  unfold normalized_accept_encoding at h
  simp only [Option.bind_eq_bind, Option.bind_eq_some_iff] at h
  obtain ⟨values, -, h⟩ := h
  split at h
  · cases h
  · obtain rfl := Option.some.inj h
    exact isUpper_of_mem_lowercase hc

/-! ## Runs on concrete values -/

/-- A header value for a text that is one. -/
def plainValue (text : String) : HeaderValue :=
  (HeaderValue.from_str text.toList).getD ⟨[], by simp⟩

/-- A `GET` for the root, with these headers. -/
def plainGet (headers : HeaderMap) : CacheRequest :=
  { method := .GET, uri := ⟨none, none⟩, headers }

/-- A policy with the key template of the default, `scheme:host:uri`. -/
def plainPolicy (convert_head : Bool) : RouteCachePolicy :=
  { methods := [.GET, .HEAD]
    key :=
      { raw := "\x7bscheme\x7d:\x7bhost\x7d:\x7buri\x7d".toList
        parts := [.Variable .Scheme, .Literal [':'], .Variable .Host, .Literal [':'],
          .Variable .Uri] }
    cache_bypass := none
    use_stale := []
    background_update := false
    lock_age := 1000
    ignore_headers := []
    range_requests := .Cache
    slice_size_bytes := none
    convert_head }

end rginx.cache
