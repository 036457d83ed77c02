-- The format of access logs, `config/access_log.rs` of the crate `rginx-core` with its helpers and
-- variables: a loop over the bytes of a template, and a line for each request. What the loop makes
-- of a template are the pieces that the template is made of.
import Rginx.DollarTemplates

open rust_text dollar_templates

namespace rginx.config

/-! ## Variables -/

inductive AccessLogVariable
  | RequestId
  | RemoteAddr
  | PeerAddr
  | Method
  | Host
  | Path
  | Request
  | Status
  | BodyBytesSent
  | ElapsedMs
  | ClientIpSource
  | Vhost
  | Route
  | Scheme
  | HttpVersion
  | TlsVersion
  | TlsAlpn
  | UserAgent
  | Referer
  | TlsClientAuthenticated
  | TlsClientSubject
  | TlsClientIssuer
  | TlsClientSerial
  | TlsClientSanDnsNames
  | TlsClientChainLength
  | TlsClientChainSubjects
  | GrpcProtocol
  | GrpcService
  | GrpcMethod
  | GrpcStatus
  | GrpcMessage
  | CacheStatus
  | UpstreamName
  | UpstreamAddr
  | UpstreamStatus
  | UpstreamResponseTimeMs
  deriving DecidableEq

/-- An error is the message of an `Error::Config`. -/
def parse_access_log_variable (name : Text) : Except Text AccessLogVariable :=
  match String.ofList name with
  | "request_id" => .ok .RequestId
  | "remote_addr" | "client_ip" => .ok .RemoteAddr
  | "peer_addr" => .ok .PeerAddr
  | "method" | "request_method" => .ok .Method
  | "host" => .ok .Host
  | "path" | "request_uri" => .ok .Path
  | "request" => .ok .Request
  | "status" => .ok .Status
  | "body_bytes_sent" | "bytes_sent" => .ok .BodyBytesSent
  | "request_time_ms" | "elapsed_ms" => .ok .ElapsedMs
  | "client_ip_source" => .ok .ClientIpSource
  | "vhost" | "server_name" => .ok .Vhost
  | "route" => .ok .Route
  | "scheme" => .ok .Scheme
  | "http_version" | "server_protocol" => .ok .HttpVersion
  | "tls_version" | "ssl_protocol" => .ok .TlsVersion
  | "tls_alpn" => .ok .TlsAlpn
  | "http_user_agent" | "user_agent" => .ok .UserAgent
  | "http_referer" | "referer" => .ok .Referer
  | "tls_client_authenticated" => .ok .TlsClientAuthenticated
  | "tls_client_subject" => .ok .TlsClientSubject
  | "tls_client_issuer" => .ok .TlsClientIssuer
  | "tls_client_serial" => .ok .TlsClientSerial
  | "tls_client_san_dns_names" => .ok .TlsClientSanDnsNames
  | "tls_client_chain_length" => .ok .TlsClientChainLength
  | "tls_client_chain_subjects" => .ok .TlsClientChainSubjects
  | "grpc_protocol" => .ok .GrpcProtocol
  | "grpc_service" => .ok .GrpcService
  | "grpc_method" => .ok .GrpcMethod
  | "grpc_status" => .ok .GrpcStatus
  | "grpc_message" => .ok .GrpcMessage
  | "cache_status" | "upstream_cache_status" => .ok .CacheStatus
  | "upstream_name" => .ok .UpstreamName
  | "upstream_addr" => .ok .UpstreamAddr
  | "upstream_status" => .ok .UpstreamStatus
  | "upstream_response_time_ms" => .ok .UpstreamResponseTimeMs
  | _ => .error ("access_log_format variable `$".toList ++ name ++ "` is not supported".toList)

/-! ## Formats -/

inductive AccessLogSegment
  | Literal (text : Text)
  | Variable (parsed : AccessLogVariable)
  deriving DecidableEq

structure AccessLogFormat where
  template : Text
  segments : List AccessLogSegment
  deriving DecidableEq

structure AccessLogValues where
  request_id : Text
  remote_addr : Text
  peer_addr : Text
  method : Text
  host : Text
  path : Text
  request : Text
  status : UInt16
  body_bytes_sent : Option UInt64
  elapsed_ms : UInt64
  client_ip_source : Text
  vhost : Text
  route : Text
  scheme : Text
  http_version : Text
  tls_version : Option Text
  tls_alpn : Option Text
  user_agent : Option Text
  referer : Option Text
  tls_client_authenticated : Bool
  tls_client_subject : Option Text
  tls_client_issuer : Option Text
  tls_client_serial : Option Text
  tls_client_san_dns_names : Option Text
  tls_client_chain_length : Option UInt64
  tls_client_chain_subjects : Option Text
  grpc_protocol : Option Text
  grpc_service : Option Text
  grpc_method : Option Text
  grpc_status : Option Text
  grpc_message : Option Text
  cache_status : Option Text
  upstream_name : Option Text
  upstream_addr : Option Text
  upstream_status : Option UInt16
  upstream_response_time_ms : Option UInt64

def is_access_log_variable_char (byte : UInt8) : Bool :=
  (48 ≤ byte && byte ≤ 57) || (65 ≤ byte && byte ≤ 90) || (97 ≤ byte && byte ≤ 122) || byte = 95

def fallback_access_log_value (value : Text) : Text := if value = [] then ['-'] else value

def fallback_access_log_option (value : Option Text) : Text :=
  (value.filter fun value => value ≠ []).getD ['-']

def unterminated : Text := "access_log_format contains an unterminated `$\x7b...\x7d` variable".toList

/-- Where the characters of a variable end that begins at an offset. -/
def variable_end (template : Text) (start : Nat) : Nat :=
  start + (((as_bytes template).drop start).takeWhile is_access_log_variable_char).length

/-- The text since the last segment, where there is one. -/
def push_literal_before (template : Text) (literal_start index : Nat)
    (segments : List AccessLogSegment) : Option (List AccessLogSegment) :=
  if literal_start < index then
    (slice template literal_start index).map fun literal => segments ++ [.Literal literal]
  else some segments

/-- The loop of `AccessLogFormat::parse` at a byte offset; nothing stands for a slice that panics. -/
def parse_segments (template : Text) (literal_start index : Nat)
    (segments : List AccessLogSegment) : Option (Except Text (List AccessLogSegment)) :=
  if _hindex : index < (as_bytes template).length then
    -- The bytes of `$` and of the brace are 36 and 123.
    if (as_bytes template)[index]? ≠ some 36 then
      parse_segments template literal_start (index + 1) segments
    else do
      let segments ← push_literal_before template literal_start index segments
      let next := (as_bytes template)[index + 1]?
      if next = some 36 then
        parse_segments template (index + 2) (index + 2) (segments ++ [.Literal ['$']])
      else if next = some 123 then
        let remainder ← slice_from template (index + 2)
        match find '\x7d' remainder with
        | none => some (.error unterminated)
        | some relative_end =>
          let end_ := index + 2 + relative_end
          let name ← slice template (index + 2) end_
          match parse_access_log_variable name with
          | .error error => some (.error error)
          | .ok parsed =>
            parse_segments template (end_ + 1) (end_ + 1) (segments ++ [.Variable parsed])
      else if variable_end template (index + 1) = index + 1 then
        parse_segments template (index + 1) (index + 1) (segments ++ [.Literal ['$']])
      else
        let name ← slice template (index + 1) (variable_end template (index + 1))
        match parse_access_log_variable name with
        | .error error => some (.error error)
        | .ok parsed =>
          parse_segments template (variable_end template (index + 1))
            (variable_end template (index + 1)) (segments ++ [.Variable parsed])
  else
    (push_literal_before template literal_start (as_bytes template).length segments).map .ok
  termination_by (as_bytes template).length - index
  decreasing_by
    all_goals try have hend : index + 1 ≤ variable_end template (index + 1) := Nat.le_add_right _ _
    all_goals omega

def AccessLogFormat.parse (template : Text) : Option (Except Text AccessLogFormat) :=
  (parse_segments template 0 0 []).map fun parsed => parsed.map fun segments => ⟨template, segments⟩

def dash_or {α : Type} (write : α → Text) (value : Option α) : Text := (value.map write).getD ['-']

def AccessLogVariable.text (values : AccessLogValues) : AccessLogVariable → Text
  | .RequestId => values.request_id
  | .RemoteAddr => values.remote_addr
  | .PeerAddr => values.peer_addr
  | .Method => values.method
  | .Host => fallback_access_log_value values.host
  | .Path => values.path
  | .Request => values.request
  | .Status => decimal values.status.toNat
  | .BodyBytesSent => dash_or (decimal ·.toNat) values.body_bytes_sent
  | .ElapsedMs => decimal values.elapsed_ms.toNat
  | .ClientIpSource => values.client_ip_source
  | .Vhost => values.vhost
  | .Route => values.route
  | .Scheme => values.scheme
  | .HttpVersion => values.http_version
  | .TlsVersion => fallback_access_log_option values.tls_version
  | .TlsAlpn => fallback_access_log_option values.tls_alpn
  | .UserAgent => fallback_access_log_option values.user_agent
  | .Referer => fallback_access_log_option values.referer
  | .TlsClientAuthenticated => (if values.tls_client_authenticated then "true" else "false").toList
  | .TlsClientSubject => fallback_access_log_option values.tls_client_subject
  | .TlsClientIssuer => fallback_access_log_option values.tls_client_issuer
  | .TlsClientSerial => fallback_access_log_option values.tls_client_serial
  | .TlsClientSanDnsNames => fallback_access_log_option values.tls_client_san_dns_names
  | .TlsClientChainLength => dash_or (decimal ·.toNat) values.tls_client_chain_length
  | .TlsClientChainSubjects => fallback_access_log_option values.tls_client_chain_subjects
  | .GrpcProtocol => fallback_access_log_option values.grpc_protocol
  | .GrpcService => fallback_access_log_option values.grpc_service
  | .GrpcMethod => fallback_access_log_option values.grpc_method
  | .GrpcStatus => fallback_access_log_option values.grpc_status
  | .GrpcMessage => fallback_access_log_option values.grpc_message
  | .CacheStatus => fallback_access_log_option values.cache_status
  | .UpstreamName => fallback_access_log_option values.upstream_name
  | .UpstreamAddr => fallback_access_log_option values.upstream_addr
  | .UpstreamStatus => dash_or (decimal ·.toNat) values.upstream_status
  | .UpstreamResponseTimeMs => dash_or (decimal ·.toNat) values.upstream_response_time_ms

def AccessLogSegment.text (values : AccessLogValues) : AccessLogSegment → Text
  | .Literal literal => literal
  | .Variable parsed => parsed.text values

def AccessLogFormat.render (format : AccessLogFormat) (values : AccessLogValues) : Text :=
  format.segments.foldl (fun rendered segment => rendered ++ segment.text values) []

/-! ## The loop reads the pieces -/

def pending_literal (text : Text) : List AccessLogSegment := if text = [] then [] else [.Literal text]

/-- The segment of a piece. -/
def segment_of : Piece → Except Text AccessLogSegment
  | .literal text => .ok (.Literal text)
  | .doubled | .single => .ok (.Literal ['$'])
  | .braced name | .bare name => (parse_access_log_variable name).map .Variable

/-- The segments of the pieces up to the first name that is not supported, and the error of a brace
that is never closed. -/
def assembled (rest : Text) : List Piece → List AccessLogSegment →
    Except Text (List AccessLogSegment)
  | [], segments => if rest = [] then .ok segments else .error unterminated
  | piece :: pieces, segments =>
    match segment_of piece with
    | .error error => .error error
    | .ok read => assembled rest pieces (segments ++ [read])

section Loop

variable {template consumed right : Text}

theorem is_variable_char_iff (c : Char) (hc : c.toNat < 128) :
    is_access_log_variable_char c.toNat.toUInt8 = NameChar c := by
  have hbyte : c.toNat.toUInt8.toNat = c.toNat := by
    simp
    omega
  have hval : c.val.toNat = c.toNat := rfl
  have hunder : c = '_' ↔ c.toNat = 95 := by
    constructor
    · rintro rfl
      rfl
    · intro h
      rw [← Char.ofNat_toNat c, h]
  rw [Bool.eq_iff_iff]
  unfold is_access_log_variable_char NameChar
  simp only [Char.isAlphanum, Char.isAlpha, Char.isUpper, Char.isLower, Char.isDigit,
    Bool.or_eq_true, Bool.and_eq_true, decide_eq_true_eq, ge_iff_le, UInt32.le_iff_toNat_le,
    UInt8.le_iff_toNat_le, hbyte, hval, hunder, ← UInt8.toNat_inj]
  simp only [UInt8.reduceToNat, Char.reduceVal, UInt32.reduceToNat]
  omega

/-- No byte of a text without dollars is one. -/
theorem dollar_byte_notMem {text : Text} (h : '$' ∉ text) : (36 : UInt8) ∉ as_bytes text := by
  intro hin
  obtain ⟨c, hc, hbyte⟩ := List.mem_flatMap.mp hin
  rw [char_of_mem hbyte (by decide)] at hc
  exact h hc

/-- The loop goes over bytes that are no dollars. -/
theorem parse_segments_walk (literal_start : Nat) (segments : List AccessLogSegment)
    {index stop : Nat} (hle : index ≤ stop) (hstop : stop ≤ (as_bytes template).length)
    (h : ∀ i, index ≤ i → i < stop → (as_bytes template)[i]? ≠ some 36) :
    parse_segments template literal_start index segments =
      parse_segments template literal_start stop segments := by
  induction hdistance : stop - index generalizing index with
  | zero =>
    have hsame : index = stop := by omega
    rw [hsame]
  | succ distance ih =>
    rw [parse_segments, dif_pos (by omega), if_pos (h index le_rfl (by omega))]
    exact ih (by omega) (fun i hi => h i (by omega)) (by omega)

theorem push_nothing (template : Text) (index : Nat) (segments : List AccessLogSegment) :
    push_literal_before template index index segments = some segments :=
  if_neg (lt_irrefl index)

theorem push_pending {pending : Text} (htemplate : template = consumed ++ (pending ++ right))
    (segments : List AccessLogSegment) :
    push_literal_before template (len consumed) (len consumed + len pending) segments =
      some (segments ++ pending_literal pending) := by
  subst htemplate
  unfold push_literal_before pending_literal
  cases pending with
  | nil => simp
  | cons c pending =>
    have hpos : 0 < len (c :: pending) := by
      rw [len_cons]
      have := c.utf8Size_pos
      omega
    rw [if_pos (by omega), slice_append]
    simp

/-- In front of a dollar or at the end, the text before it becomes a segment. -/
theorem parse_segments_flush {pending : Text} (htemplate : template = consumed ++ (pending ++ right))
    (hright : ∀ c ∈ right.head?, c = '$') (segments : List AccessLogSegment) :
    parse_segments template (len consumed) (len consumed + len pending) segments =
      parse_segments template (len consumed + len pending) (len consumed + len pending)
        (segments ++ pending_literal pending) := by
  have hpush := push_pending htemplate segments
  have hindex : len consumed + len pending = len (consumed ++ pending) := by rw [len_append]
  have hsplit : template = (consumed ++ pending) ++ right := by rw [htemplate, List.append_assoc]
  have hlength : (as_bytes template).length = len consumed + len pending + len right := by
    rw [length_as_bytes, hsplit, len_append, len_append]
  cases right with
  | nil =>
    have hend : (as_bytes template).length = len consumed + len pending := hlength
    conv_lhs => rw [parse_segments]
    conv_rhs => rw [parse_segments]
    rw [dif_neg (by omega), dif_neg (by omega), hend, hpush, push_nothing]
  | cons c right =>
    obtain rfl : c = '$' := hright c rfl
    have hdollar : (as_bytes template)[len consumed + len pending]? = some 36 := by
      rw [hindex, hsplit, byte_at]
      exact (@head_byte_iff '$' (by decide) _).mpr rfl
    have hin : len consumed + len pending < (as_bytes template).length := by
      rw [hlength, len_cons]
      have := '$'.utf8Size_pos
      omega
    conv_lhs => rw [parse_segments]
    conv_rhs => rw [parse_segments]
    rw [dif_pos hin, dif_pos hin, if_neg (not_not_intro hdollar), if_neg (not_not_intro hdollar),
      hpush, push_nothing]

/-- One turn of the loop at a dollar, by the characters behind it. -/
theorem parse_segments_dollar (htemplate : template = consumed ++ '$' :: right)
    (segments : List AccessLogSegment) :
    parse_segments template (len consumed) (len consumed) segments =
      (if right.head? = some '$' then
        parse_segments template (len consumed + 2) (len consumed + 2) (segments ++ [.Literal ['$']])
      else if right.head? = some '\x7b' then do
        let remainder ← slice_from template (len consumed + 2)
        match find '\x7d' remainder with
        | none => some (.error unterminated)
        | some relative_end =>
          let end_ := len consumed + 2 + relative_end
          let name ← slice template (len consumed + 2) end_
          match parse_access_log_variable name with
          | .error error => some (.error error)
          | .ok parsed =>
            parse_segments template (end_ + 1) (end_ + 1) (segments ++ [.Variable parsed])
      else if variable_end template (len consumed + 1) = len consumed + 1 then
        parse_segments template (len consumed + 1) (len consumed + 1) (segments ++ [.Literal ['$']])
      else do
        let name ← slice template (len consumed + 1) (variable_end template (len consumed + 1))
        match parse_access_log_variable name with
        | .error error => some (.error error)
        | .ok parsed =>
          parse_segments template (variable_end template (len consumed + 1))
            (variable_end template (len consumed + 1)) (segments ++ [.Variable parsed])) := by
  have hdollar : (as_bytes template)[len consumed]? = some 36 := by
    rw [htemplate, byte_at]
    exact (@head_byte_iff '$' (by decide) _).mpr rfl
  have hin : len consumed < (as_bytes template).length := by
    rw [length_as_bytes, htemplate, len_append, len_cons]
    have := '$'.utf8Size_pos
    omega
  have hnext : (as_bytes template)[len consumed + 1]? = (as_bytes right).head? := by
    have hsplit : template = (consumed ++ ['$']) ++ right := by
      rw [htemplate, List.append_assoc]
      rfl
    have hlen : len consumed + 1 = len (consumed ++ ['$']) := by
      rw [len_append]
      rfl
    rw [hlen, hsplit, byte_at]
  have hdoubled : (as_bytes right).head? = some 36 ↔ right.head? = some '$' :=
    @head_byte_iff '$' (by decide) right
  have hopen : (as_bytes right).head? = some 123 ↔ right.head? = some '\x7b' :=
    @head_byte_iff '\x7b' (by decide) right
  conv_lhs => rw [parse_segments]
  rw [dif_pos hin, if_neg (not_not_intro hdollar), push_nothing]
  simp only [Option.bind_eq_bind, Option.bind_some, hnext, hdoubled, hopen]

theorem variable_end_eq {name : Text} (htemplate : template = consumed ++ '$' :: (name ++ right))
    (hname : ∀ c ∈ name, NameChar c = true) (hright : ∀ c ∈ right.head?, NameChar c = false) :
    variable_end template (len consumed + 1) = len consumed + 1 + len name := by
  have hsplit : template = (consumed ++ ['$']) ++ (name ++ right) := by
    rw [htemplate, List.append_assoc]
    rfl
  have hlen : len consumed + 1 = (as_bytes (consumed ++ ['$'])).length := by
    rw [length_as_bytes, len_append]
    rfl
  have hbytes : ∀ b, is_access_log_variable_char b = true →
      b.toNat < 128 ∧ NameChar (Char.ofNat b.toNat) = true := by
    intro b hb
    have hascii : b.toNat < 128 := by
      unfold is_access_log_variable_char at hb
      simp only [Bool.or_eq_true, Bool.and_eq_true, decide_eq_true_eq, UInt8.le_iff_toNat_le,
        ← UInt8.toNat_inj] at hb
      simp only [UInt8.reduceToNat] at hb
      omega
    have hvalid : b.toNat.isValidChar := .inl (by omega)
    have hchar : (Char.ofNat b.toNat).toNat = b.toNat := by
      rw [Char.toNat_ofNat, if_pos hvalid]
    refine ⟨hascii, ?_⟩
    rw [← is_variable_char_iff _ (by omega), hchar]
    simpa using hb
  have hchars : ∀ c, NameChar c = true →
      c.toNat < 128 ∧ is_access_log_variable_char c.toNat.toUInt8 = true :=
    fun c hc => ⟨NameChar.ascii hc, (is_variable_char_iff c (NameChar.ascii hc)).trans hc⟩
  have htake : (name ++ right).takeWhile NameChar = name := by
    rw [List.takeWhile_append_of_pos hname]
    cases right with
    | nil => simp
    | cons c right => rw [List.takeWhile_cons_of_neg (by simp [hright c rfl]), List.append_nil]
  unfold variable_end
  rw [hsplit, as_bytes_append, hlen, List.drop_left, takeWhile_as_bytes hbytes hchars, htake,
    length_as_bytes name]

/-- A piece becomes its segment, and the loop goes on behind it. -/
theorem parse_segments_piece {piece : Piece} (hbefore : piece.Before right)
    (htemplate : template = consumed ++ (piece.written ++ right))
    (segments : List AccessLogSegment) :
    parse_segments template (len consumed) (len consumed) segments =
      (match segment_of piece with
      | .error error => some (.error error)
      | .ok read =>
        parse_segments template (len consumed + len piece.written)
          (len consumed + len piece.written) (segments ++ [read])) := by
  cases piece with
  | literal text =>
    obtain ⟨htext, hdollar, hright⟩ := hbefore
    have hbytes : ∀ i, len consumed ≤ i → i < len consumed + len text →
        (as_bytes template)[i]? ≠ some 36 := by
      intro i hi hstop hbyte
      have hlength := length_as_bytes consumed
      rw [htemplate, as_bytes_append, as_bytes_append,
        List.getElem?_append_right (by omega), List.getElem?_append_left (by
          rw [Piece.written, length_as_bytes text]
          omega)] at hbyte
      exact dollar_byte_notMem hdollar (List.mem_of_getElem? hbyte)
    have hstop : len consumed + len text ≤ (as_bytes template).length := by
      rw [length_as_bytes, htemplate, len_append, len_append, Piece.written]
      omega
    have hread : template = consumed ++ (text ++ right) := htemplate
    rw [parse_segments_walk _ _ (Nat.le_add_right _ _) hstop hbytes,
      parse_segments_flush hread hright, pending_literal, if_neg htext]
    rfl
  | doubled =>
    have hread : template = consumed ++ '$' :: ('$' :: right) := htemplate
    rw [parse_segments_dollar hread, if_pos List.head?_cons]
    rfl
  | single =>
    have hplain : right.head? ≠ some '$' ∧ right.head? ≠ some '\x7b' := by
      constructor
      · intro hhead
        exact (hbefore _ hhead).1 rfl
      · intro hhead
        exact (hbefore _ hhead).2.1 rfl
    have hread : template = consumed ++ '$' :: right := htemplate
    have hend := @variable_end_eq template consumed right [] hread (by simp)
      fun c hc => (hbefore c hc).2.2
    rw [len_nil, Nat.add_zero] at hend
    rw [parse_segments_dollar hread, if_neg hplain.1, if_neg hplain.2, if_pos hend]
    rfl
  | braced name =>
    have hread : template = consumed ++ '$' :: ('\x7b' :: (name ++ ('\x7d' :: right))) := by
      rw [htemplate]
      simp [Piece.written]
    have hopened : template = (consumed ++ ['$', '\x7b']) ++ (name ++ ('\x7d' :: right)) := by
      rw [hread, List.append_assoc]
      rfl
    have hafter : len consumed + 2 = len (consumed ++ ['$', '\x7b']) := by
      rw [len_append]
      rfl
    have hslice : slice_from template (len consumed + 2) = some (name ++ ('\x7d' :: right)) := by
      rw [hafter, hopened, slice_from_append]
    have hname : slice template (len consumed + 2) (len consumed + 2 + len name) = some name := by
      rw [hafter, hopened, slice_append]
    have hbehind : len consumed + 2 + len name + 1 = len consumed + len (Piece.braced name).written := by
      have hdollar : '$'.utf8Size = 1 := by decide
      have hbraces : '\x7b'.utf8Size = 1 ∧ '\x7d'.utf8Size = 1 := by decide
      rw [Piece.written, len_cons, len_cons, len_append, len_cons, len_nil]
      omega
    rw [parse_segments_dollar hread, if_neg (by simp), if_pos List.head?_cons, hslice]
    simp only [Option.bind_eq_bind, Option.bind_some]
    rw [find_append hbefore]
    dsimp only
    rw [hname, Option.bind_some, hbehind, segment_of]
    cases parse_access_log_variable name <;> rfl
  | bare name =>
    obtain ⟨hname, hchars, hright⟩ := hbefore
    obtain ⟨c, more, rfl⟩ := List.exists_cons_of_ne_nil hname
    have hfirst := hchars c List.mem_cons_self
    have hnext : c ≠ '$' ∧ c ≠ '\x7b' := by
      constructor <;> rintro rfl <;> exact absurd hfirst (by decide)
    have hread : template = consumed ++ '$' :: ((c :: more) ++ right) := htemplate
    have hend := variable_end_eq hread hchars hright
    have hopened : template = (consumed ++ ['$']) ++ ((c :: more) ++ right) := by
      rw [hread, List.append_assoc]
      rfl
    have hafter : len consumed + 1 = len (consumed ++ ['$']) := by
      rw [len_append]
      rfl
    have hslice : slice template (len consumed + 1) (len consumed + 1 + len (c :: more)) =
        some (c :: more) := by
      rw [hafter, hopened, slice_append]
    have hbehind : len consumed + 1 + len (c :: more) =
        len consumed + len (Piece.bare (c :: more)).written := by
      have hdollar : '$'.utf8Size = 1 := by decide
      rw [Piece.written, len_cons '$']
      omega
    have hlong : len consumed + 1 + len (c :: more) ≠ len consumed + 1 := by
      rw [len_cons]
      have := c.utf8Size_pos
      omega
    rw [parse_segments_dollar hread, if_neg (by simpa using hnext.1),
      if_neg (by simpa using hnext.2), hend, if_neg hlong, hslice]
    simp only [Option.bind_eq_bind, Option.bind_some]
    rw [hbehind, segment_of]
    cases parse_access_log_variable (c :: more) <;> rfl

/-- A brace that is never closed is an error. -/
theorem parse_segments_unclosed {name : Text} (hclose : '\x7d' ∉ name)
    (htemplate : template = consumed ++ '$' :: ('\x7b' :: name)) (segments : List AccessLogSegment) :
    parse_segments template (len consumed) (len consumed) segments = some (.error unterminated) := by
  have hopened : template = (consumed ++ ['$', '\x7b']) ++ name := by
    rw [htemplate, List.append_assoc]
    rfl
  have hafter : len consumed + 2 = len (consumed ++ ['$', '\x7b']) := by
    rw [len_append]
    rfl
  have hslice : slice_from template (len consumed + 2) = some name := by
    rw [hafter, hopened, slice_from_append]
  rw [parse_segments_dollar htemplate, if_neg (by simp), if_pos List.head?_cons, hslice]
  simp only [Option.bind_eq_bind, Option.bind_some]
  rw [find_eq_none hclose]

/-- The loop reads the pieces. Its slices begin and end between characters. -/
theorem parse_segments_reads {pieces : List Piece} {rest : Text} (hfit : Fit pieces rest)
    (hrest : rest = [] ∨ Unclosed rest) (htemplate : template = consumed ++ (written pieces ++ rest))
    (segments : List AccessLogSegment) :
    parse_segments template (len consumed) (len consumed) segments =
      some (assembled rest pieces segments) := by
  induction pieces generalizing consumed segments with
  | nil =>
    rcases hrest with rfl | ⟨name, rfl, hclose⟩
    · have hend : template = consumed := by simpa using htemplate
      rw [parse_segments, dif_neg (by rw [length_as_bytes, hend]; exact lt_irrefl _), length_as_bytes,
        hend, push_nothing]
      rfl
    · exact parse_segments_unclosed hclose htemplate segments
  | cons piece pieces ih =>
    obtain ⟨hbefore, hfit⟩ := hfit
    have hpiece : template = consumed ++ (piece.written ++ (written pieces ++ rest)) := by
      rw [htemplate, written_cons, List.append_assoc]
    have hnext : template = (consumed ++ piece.written) ++ (written pieces ++ rest) := by
      rw [hpiece, List.append_assoc]
    rw [parse_segments_piece hbefore hpiece, assembled]
    cases segment_of piece with
    | error error => rfl
    | ok read =>
      dsimp only
      rw [← len_append, ih hfit hnext]

end Loop

/-! ## What is read, and what is rendered -/

/-- A piece that is no name, or the name of a variable. -/
def SupportedPiece (piece : Piece) : Prop :=
  ∀ name ∈ piece.name, ∃ parsed, parse_access_log_variable name = .ok parsed

/-- The value of a name in a line. -/
def value (values : AccessLogValues) (name : Text) : Text :=
  match parse_access_log_variable name with
  | .error _ => []
  | .ok parsed => parsed.text values

theorem segment_of_name {piece : Piece} {name : Text} (h : piece.name = some name) :
    segment_of piece = (parse_access_log_variable name).map .Variable := by
  cases piece <;> cases h <;> rfl

/-- The segment of a piece that is supported shows what the piece stands for. -/
theorem segment_of_supported {piece : Piece} (h : SupportedPiece piece) :
    ∃ read, segment_of piece = .ok read ∧ ∀ values, read.text values = piece.shown (value values) := by
  have hnamed : ∀ name, piece.name = some name →
      (∀ values, piece.shown (value values) = value values name) →
        ∃ read, segment_of piece = .ok read ∧
          ∀ values, read.text values = piece.shown (value values) := by
    intro name hname hshown
    obtain ⟨parsed, hparsed⟩ := h name hname
    refine ⟨.Variable parsed, ?_, fun values => ?_⟩
    · rw [segment_of_name hname, hparsed]
      rfl
    · rw [hshown, value, hparsed]
      rfl
  cases piece with
  | literal text => exact ⟨.Literal text, rfl, fun values => rfl⟩
  | doubled => exact ⟨.Literal ['$'], rfl, fun values => rfl⟩
  | single => exact ⟨.Literal ['$'], rfl, fun values => rfl⟩
  | braced name => exact hnamed name rfl fun values => rfl
  | bare name => exact hnamed name rfl fun values => rfl

/-- Pieces that are supported are read to their end. -/
theorem assembled_of_supported {pieces : List Piece} (h : ∀ piece ∈ pieces, SupportedPiece piece)
    (rest : Text) (segments : List AccessLogSegment) :
    ∃ more, assembled rest pieces segments =
        (if rest = [] then .ok (segments ++ more) else .error unterminated) ∧
      ∀ values, more.flatMap (AccessLogSegment.text values) = pieces.flatMap (Piece.shown (value values)) := by
  induction pieces generalizing segments with
  | nil => exact ⟨[], by rw [assembled, List.append_nil], fun values => rfl⟩
  | cons piece pieces ih =>
    obtain ⟨read, hread, htext⟩ := segment_of_supported (h piece List.mem_cons_self)
    obtain ⟨more, hmore, hshown⟩ := ih (fun other hother => h other (List.mem_cons_of_mem _ hother))
      (segments ++ [read])
    refine ⟨read :: more, ?_, fun values => ?_⟩
    · rw [assembled, hread]
      dsimp only
      rw [hmore, List.append_assoc, List.singleton_append]
    · rw [List.flatMap_cons, List.flatMap_cons, htext, hshown]

/-- The first piece that is not supported is the error, whatever is behind it. -/
theorem assembled_of_unsupported {before after : List Piece} {piece : Piece} {name error : Text}
    (hbefore : ∀ other ∈ before, SupportedPiece other) (hname : piece.name = some name)
    (herror : parse_access_log_variable name = .error error) (rest : Text)
    (segments : List AccessLogSegment) :
    assembled rest (before ++ piece :: after) segments = .error error := by
  induction before generalizing segments with
  | nil =>
    rw [List.nil_append, assembled, segment_of_name hname, herror]
    rfl
  | cons other before ih =>
    obtain ⟨read, hread, _⟩ := segment_of_supported (hbefore other List.mem_cons_self)
    rw [List.cons_append, assembled, hread]
    exact ih (fun more hmore => hbefore more (List.mem_cons_of_mem _ hmore)) _

theorem render_eq (format : AccessLogFormat) (values : AccessLogValues) :
    format.render values = format.segments.flatMap (AccessLogSegment.text values) := by
  have hfold : ∀ (segments : List AccessLogSegment) (rendered : Text),
      segments.foldl (fun rendered segment => rendered ++ segment.text values) rendered =
        rendered ++ segments.flatMap (AccessLogSegment.text values) := by
    intro segments
    induction segments with
    | nil => simp
    | cons segment segments ih =>
      intro rendered
      rw [List.foldl_cons, ih, List.flatMap_cons, List.append_assoc]
  exact (hfold format.segments []).trans (List.nil_append _)

theorem parse_of_reads {template rest : Text} {pieces : List Piece}
    (h : Reads template pieces rest) :
    AccessLogFormat.parse template =
      some ((assembled rest pieces []).map fun segments => ⟨template, segments⟩) := by
  have hloop := @parse_segments_reads template [] pieces rest h.fit h.rest h.text []
  rw [AccessLogFormat.parse, show (0 : Nat) = len [] from rfl, hloop]
  rfl

/-- A format that is read to its end shows what its pieces stand for. -/
theorem parse_of_supported {template : Text} {pieces : List Piece} (h : Reads template pieces [])
    (hsupported : ∀ piece ∈ pieces, SupportedPiece piece) :
    ∃ format, AccessLogFormat.parse template = some (.ok format) ∧ format.template = template ∧
      ∀ values, format.render values = pieces.flatMap (Piece.shown (value values)) := by
  obtain ⟨more, hmore, hshown⟩ := assembled_of_supported hsupported [] []
  rw [parse_of_reads h, hmore, if_pos rfl]
  exact ⟨⟨template, more⟩, rfl, rfl, fun values => (render_eq _ values).trans (hshown values)⟩

/-- The parser ends on every text without a slice that panics, and reads it as the pieces that it is
made of: where all of them are supported and no brace stays open, each line shows what the pieces
stand for; otherwise the error is the first name that is not supported, or else the open brace. -/
theorem a_format_is_read_as_written (template : Text) :
    (∃ pieces rest, Reads template pieces rest) ∧
      ∀ pieces rest, Reads template pieces rest →
        ((∀ piece ∈ pieces, SupportedPiece piece) → rest = [] →
          ∃ format, AccessLogFormat.parse template = some (.ok format) ∧
            format.template = template ∧
            ∀ values, format.render values = pieces.flatMap (Piece.shown (value values))) ∧
        ((∀ piece ∈ pieces, SupportedPiece piece) → rest ≠ [] →
          AccessLogFormat.parse template = some (.error unterminated)) ∧
        ∀ before piece after name error, pieces = before ++ piece :: after →
          (∀ other ∈ before, SupportedPiece other) → piece.name = some name →
          parse_access_log_variable name = .error error →
            AccessLogFormat.parse template = some (.error error) := by
  refine ⟨reads_exists template, fun pieces rest hreads => ⟨?_, ?_, ?_⟩⟩
  · rintro hsupported rfl
    exact parse_of_supported hreads hsupported
  · intro hsupported hrest
    obtain ⟨more, hmore, _⟩ := assembled_of_supported hsupported rest []
    rw [parse_of_reads hreads, hmore, if_neg hrest]
    rfl
  · rintro before piece after name error rfl hbefore hname herror
    rw [parse_of_reads hreads, assembled_of_unsupported hbefore hname herror]
    rfl

/-! ## Round trip -/

/-- No name of a variable has the brace that closes it. -/
theorem close_notMem {name : Text} {parsed : AccessLogVariable}
    (h : parse_access_log_variable name = .ok parsed) : '\x7d' ∉ name := by
  have hname : name = (String.ofList name).toList := String.toList_ofList.symm
  unfold parse_access_log_variable at h
  split at h
  all_goals
    first
    | (cases h; done)
    | rename_i heq
      rw [hname, heq]
      simp

/-- A format of texts with doubled dollars and of supported names between braces is read, and a line
shows the texts as they were, with the values between them. -/
theorem what_is_written_is_rendered (first : Text) (fields : List (Text × Text))
    (hfields : ∀ f ∈ fields, ∃ parsed, parse_access_log_variable f.1 = .ok parsed) :
    ∃ format, AccessLogFormat.parse (escape first ++ fields.flatMap field) = some (.ok format) ∧
      ∀ values, format.render values = first ++ fields.flatMap fun f => value values f.1 ++ f.2 := by
  have hclose : ∀ f ∈ fields, '\x7d' ∉ f.1 := by
    intro f hf
    obtain ⟨parsed, hparsed⟩ := hfields f hf
    exact close_notMem hparsed
  obtain ⟨pieces, hreads, hnames, hshown⟩ := fields_read hclose first
  have hsupported : ∀ piece ∈ pieces, SupportedPiece piece := by
    intro piece hpiece name hname
    have hin : name ∈ pieces.filterMap Piece.name := List.mem_filterMap.mpr ⟨piece, hpiece, hname⟩
    rw [hnames] at hin
    obtain ⟨f, hf, rfl⟩ := List.mem_map.mp hin
    exact hfields f hf
  obtain ⟨format, hparse, _, hrender⟩ := parse_of_supported hreads hsupported
  exact ⟨format, hparse, fun values => (hrender values).trans (hshown _)⟩

/-- The braces keep a name apart from the text behind it. -/
theorem a_status_is_rendered_before_letters :
    ∃ format, AccessLogFormat.parse "$$$\x7bstatus\x7dms".toList = some (.ok format) ∧
      ∀ values, format.render values = '$' :: (decimal values.status.toNat ++ ['m', 's']) := by
  have hstatus : parse_access_log_variable "status".toList = .ok .Status := by decide
  obtain ⟨format, hparse, hrender⟩ := what_is_written_is_rendered ['$'] [("status".toList, ['m', 's'])]
    fun f hf => ⟨.Status, by rw [List.mem_singleton.mp hf]; exact hstatus⟩
  refine ⟨format, hparse, fun values => ?_⟩
  have hvalue : value values "status".toList = decimal values.status.toNat := by
    rw [value, hstatus]
    rfl
  rw [hrender, ← hvalue]
  simp

end rginx.config
