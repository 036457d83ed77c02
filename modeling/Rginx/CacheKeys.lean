-- The keys of the cache: the template of a route and its rendering
-- (`rginx-core/src/config/cache/key_template.rs`), the key of a request
-- (`cache/request.rs`), and the key of a response that varies
-- (`cache/entry/signature.rs` and `cache/store/helpers.rs`).
import Rginx.RangeRequests

open rust_text

namespace rginx.cache

/-! ## Templates -/

inductive CacheKeyTemplateError
  | UnclosedVariable (template : Text)
  | UnescapedClose (template : Text)
  | EmptyVariable (template : Text)
  | UnknownVariable (name : Text)
  | InvalidRequestHeader (name : Text)
  | EmptyVariableArgument (name : Text)
  deriving DecidableEq

def CacheKeyTemplateError.message : CacheKeyTemplateError → String
  | .UnclosedVariable template =>
    "cache key template `" ++ String.ofList template ++ "` has an unclosed variable"
  | .UnescapedClose template =>
    "cache key template `" ++ String.ofList template ++ "` has an unescaped closing brace"
  | .EmptyVariable template =>
    "cache key template `" ++ String.ofList template ++ "` has an empty variable"
  | .UnknownVariable name =>
    "cache key template variable `" ++ String.ofList name ++ "` is not supported"
  | .InvalidRequestHeader name =>
    "cache key template request header `" ++ String.ofList name ++
      "` is invalid: invalid HTTP header name"
  | .EmptyVariableArgument name =>
    "cache key template variable `" ++ String.ofList name ++ "` requires a non-empty value"

/-- The argument of a variable with this start, once it is trimmed. -/
def variable_argument (start name : Text) : Option (Except CacheKeyTemplateError Text) :=
  (stripStart start name).map fun argument =>
    if trim argument = [] then .error (.EmptyVariableArgument name) else .ok (trim argument)

def parse_cache_key_variable (name : Text) : Except CacheKeyTemplateError CacheKeyVariable :=
  if name = "scheme".toList then .ok .Scheme
  else if name = "host".toList then .ok .Host
  else if name = "uri".toList then .ok .Uri
  else if name = "method".toList then .ok .Method
  else
    match variable_argument "header:".toList name with
    | some argument => do
      let header_name ← argument
      match HeaderName.parse (String.ofList header_name) with
      | some parsed => .ok (.Header parsed)
      | none => .error (.InvalidRequestHeader header_name)
    | none =>
      match variable_argument "query:".toList name with
      | some argument => argument.map .Query
      | none =>
        match variable_argument "cookie:".toList name with
        | some argument => argument.map .Cookie
        | none => .error (.UnknownVariable name)

/-- The parts of a template, with the literal that was read so far. -/
def push_literal (parts : List CacheKeyTemplatePart) (literal : Text) :
    List CacheKeyTemplatePart :=
  if literal = [] then parts else parts ++ [.Literal literal]

/-- The loop of `CacheKeyTemplate::parse`, character by character: outside of a variable with the
literal that was read so far, or inside of one with the text after its brace. -/
def CacheKeyTemplate.parse_loop (raw : Text) (parts : List CacheKeyTemplatePart) :
    Text ⊕ Text → Text → Except CacheKeyTemplateError (List CacheKeyTemplatePart)
  | .inl literal, '\x7b' :: '\x7b' :: rest => parse_loop raw parts (.inl (literal ++ ['\x7b'])) rest
  | .inl literal, '\x7d' :: '\x7d' :: rest => parse_loop raw parts (.inl (literal ++ ['\x7d'])) rest
  | .inl literal, '\x7b' :: rest => parse_loop raw (push_literal parts literal) (.inr []) rest
  | .inl _, '\x7d' :: _ => .error (.UnescapedClose raw)
  | .inl literal, c :: rest => parse_loop raw parts (.inl (literal ++ [c])) rest
  | .inl literal, [] => .ok (push_literal parts literal)
  | .inr text, '\x7d' :: rest =>
    if trim text = [] then .error (.EmptyVariable raw)
    else
      match parse_cache_key_variable (trim text) with
      | .error error => .error error
      | .ok name => parse_loop raw (parts ++ [.Variable name]) (.inl []) rest
  | .inr text, c :: rest => parse_loop raw parts (.inr (text ++ [c])) rest
  | .inr _, [] => .error (.UnclosedVariable raw)

def CacheKeyTemplate.parse (raw : Text) : Except CacheKeyTemplateError CacheKeyTemplate :=
  (parse_loop raw [] (.inl []) raw).map fun parts => ⟨raw, parts⟩

/-- `DEFAULT_CACHE_KEY` of `rginx-config/src/compile/cache.rs`. -/
def DEFAULT_CACHE_KEY : Text := "\x7bscheme\x7d:\x7bhost\x7d:\x7buri\x7d".toList

structure CacheKeyRenderContext where
  scheme : Text
  host : Text
  uri : Text
  method : Text
  headers : HeaderMap

/-- The value of the first pair with this name. -/
def first_value (pairs : List (Text × Text)) (name : Text) : Text :=
  ((pairs.find? fun pair => pair.1 = name).map Prod.snd).getD []

def append_joined_header_values (headers : HeaderMap) (name : HeaderName) : Text :=
  List.intercalate [','] ((headers.get_all name).filterMap HeaderValue.to_str)

def CacheKeyTemplatePart.render (context : CacheKeyRenderContext) : CacheKeyTemplatePart → Text
  | .Literal value => value
  | .Variable .Scheme => context.scheme
  | .Variable .Host => context.host
  | .Variable .Uri => context.uri
  | .Variable .Method => context.method
  | .Variable (.Header name) => append_joined_header_values context.headers name
  | .Variable (.Query name) => first_value (query_pairs context.uri) name
  | .Variable (.Cookie name) => first_value (cookie_pairs context.headers) name

def CacheKeyTemplate.render (template : CacheKeyTemplate) (context : CacheKeyRenderContext) :
    Text :=
  template.parts.flatMap (CacheKeyTemplatePart.render context)

def CacheKeyTemplate.references_method (template : CacheKeyTemplate) : Bool :=
  template.parts.any (· = .Variable .Method)

/-! ## The key of a request -/

/-- The host in a key: the `Host` header, else the authority of the target. -/
def cache_key_host (uri : Uri) (headers : HeaderMap) : Text :=
  (((headers.get_str HOST).filter fun value => trim value ≠ []).or uri.authority).getD ['-']

def CACHE_METHOD_MARK : Text :=
  ['|', 'c', 'a', 'c', 'h', 'e', '-', 'm', 'e', 't', 'h', 'o', 'd', ':']

def AE_MARK : Text := ['|', 'a', 'e', ':']

def RANGE_MARK : Text := ['|', 'r', 'a', 'n', 'g', 'e', ':']

def VARY_MARK : Text := ['|', 'v', 'a', 'r', 'y', ':']

/-- The part of a key for its method. -/
def method_text (method : Method) (policy : RouteCachePolicy) : Text :=
  if !policy.convert_head && !policy.key.references_method then
    CACHE_METHOD_MARK ++ (cache_key_method method policy).as_str.toList
  else []

/-- The part of a key for the encodings. -/
def encoding_text (headers : HeaderMap) : Text :=
  match normalized_accept_encoding headers with
  | some accept_encoding => AE_MARK ++ accept_encoding
  | none => []

/-- The part of a key for its range. -/
def range_text (range : Option CacheableRangeRequest) : Text :=
  match range with
  | some range => RANGE_MARK ++ (decimal range.cache_start ++ '-' :: decimal range.cache_end)
  | none => []

def render_cache_key (method : Method) (uri : Uri) (headers : HeaderMap) (scheme : Text)
    (policy : RouteCachePolicy) : Text :=
  let cache_method := cache_key_method method policy
  policy.key.render
      { scheme
        host := cache_key_host uri headers
        uri := uri.request_uri
        method := cache_method.as_str.toList
        headers } ++
    method_text method policy ++ encoding_text headers ++
    range_text (cacheable_range_request_from_parts cache_method headers policy)

/-! ## The key of a response -/

def VARY : HeaderName := ⟨"vary", by decide⟩

/-- The names that a response varies by; none where one of them is a star or no name. -/
def vary_headers (headers : HeaderMap) : Option (List HeaderName) := do
  let values ← (headers.get_all VARY).mapM HeaderValue.to_str
  let tokens := values.flatMap fun value => ((split ',' value).map trim).filter (· ≠ [])
  let names ← tokens.mapM fun token =>
    if token = ['*'] then none else HeaderName.parse (String.ofList token)
  return names.eraseDups.insertionSort fun left right => left.as_str ≤ right.as_str

/-- The order of the pairs of a name and a value, with a missing value first. -/
def vary_le (left right : CachedVaryHeaderValue) : Bool :=
  left.name.as_str < right.name.as_str || (left.name.as_str = right.name.as_str &&
    match left.value, right.value with
    | none, _ => true
    | some _, none => false
    | some left, some right => left ≤ right)

def canonical_vary_headers (vary : List CachedVaryHeaderValue) : List CachedVaryHeaderValue :=
  vary.insertionSort fun left right => vary_le left right

def cache_vary_values (policy : RouteCachePolicy) (request : CacheRequest)
    (headers : HeaderMap) : List CachedVaryHeaderValue :=
  if policy.ignore_headers.contains .Vary then []
  else
    (((vary_headers headers).getD []).map fun name =>
      ⟨name, (normalized_request_header_values request.headers name).map String.ofList⟩)
        |>.insertionSort fun left right => vary_le left right

def utf8 (text : String) : List UInt8 := text.toList.flatMap String.utf8EncodeChar

/-- What the hash of a variant is taken of. -/
def vary_signature (vary : List CachedVaryHeaderValue) : List UInt8 :=
  (canonical_vary_headers vary).flatMap fun header =>
    utf8 header.name.as_str ++ 0 :: ((header.value.map utf8).getD [] ++ [0xff])

section Variants

-- The digits of the SHA-256 of some bytes.
variable (cache_bytes_hash : List UInt8 → Text)

def cache_variant_key (base_key : Text) (vary : List CachedVaryHeaderValue) : Text :=
  if vary = [] then base_key
  else base_key ++ VARY_MARK ++ cache_bytes_hash (vary_signature vary)

/-- `cache_final_key_for_response`, without the tags. -/
def cache_final_key_for_response (policy : RouteCachePolicy) (base_key : Text)
    (request : CacheRequest) (headers : HeaderMap) : Text × List CachedVaryHeaderValue :=
  let vary := cache_vary_values policy request headers
  (if policy.ignore_headers.contains .Vary || (vary_headers headers).isSome then
      cache_variant_key cache_bytes_hash base_key vary
    else base_key,
    vary)

end Variants

end rginx.cache
