-- The header of the PROXY protocol, version 1, from `server/proxy_protocol.rs`: where it ends in
-- the stream, and which lines the reader takes. It reads the words of a line, wherever the blanks
-- between them come from, and of the destination it reads nothing.
import Rginx.NetAddress
import Rginx.RangeTrim
import Rginx.SeparatedFields

open rust_text rust_net rust_result separated_fields rginx.cache

namespace rginx.server

def MAX_PROXY_PROTOCOL_HEADER_BYTES : Nat := 108

def CRLF : List UInt8 := [13, 10]

/-- The loop that reads the header; what is left of the stream stands beside the result. -/
def read_header (header : List UInt8) (stream : List UInt8) : IoResult (List UInt8) × List UInt8 :=
  if MAX_PROXY_PROTOCOL_HEADER_BYTES ≤ header.length then
    (invalid_data "proxy protocol header is too long", stream)
  else
    match stream with
    | [] => (.error ⟨.UnexpectedEof, "unexpected end of file"⟩, [])
    | byte :: rest =>
      let header := header ++ [byte]
      if CRLF <:+ header then (.ok header, rest) else read_header header rest

/-- `str::split_whitespace`. -/
def split_whitespace (s : Text) : List Text := words isWhitespace s

/-- `str::parse::<u16>`: as for 64 bits, for a number below `2 ^ 16`. -/
def parse_u16 (s : Text) : Option Nat := (parse_u64 s).filter (· < 2 ^ 16)

def trim_start_lfcr : Text → Text
  | '\n' :: '\r' :: rest => trim_start_lfcr rest
  | s => s

/-- `str::trim_end_matches` of the end of a line. -/
def trim_end_crlf (s : Text) : Text := (trim_start_lfcr s.reverse).reverse

def parse_proxy_protocol_v1 (header : Text) (trust_remote_addr : Bool) :
    IoResult (Option SocketAddr) :=
  let header := trim_end_crlf header
  if header = "PROXY UNKNOWN".toList then .ok none
  else
    let parts := split_whitespace header
    let protocol := parts[1]?
    let source_addr := parts[2]?
    let source_port := parts[4]?
    let trailing := parts[6]?
    if parts[0]? ≠ some "PROXY".toList ∨ trailing.isSome then
      invalid_data "invalid proxy protocol header"
    else if protocol = some "TCP4".toList ∨ protocol = some "TCP6".toList then do
      let source_addr ← ok_or_invalid "missing proxy protocol source address" source_addr
      let ip ← ok_or_invalid "invalid proxy protocol source address" (IpAddr.parse source_addr)
      let source_port ← ok_or_invalid "missing proxy protocol source port" source_port
      let port ← ok_or_invalid "invalid proxy protocol source port" (parse_u16 source_port)
      return if trust_remote_addr then some ⟨ip, port⟩ else none
    else invalid_data "unsupported proxy protocol transport"

def read_proxy_protocol_source_addr (stream : List UInt8) (trust_remote_addr : Bool) :
    IoResult (Option SocketAddr) × List UInt8 :=
  let (header, rest) := read_header [] stream
  let source := do
    let header ← header
    let header ← ok_or_invalid "proxy protocol header is not valid utf-8" (from_utf8 header)
    parse_proxy_protocol_v1 header trust_remote_addr
  (source, rest)

/-! ## The grammar -/

/-- The stream up to the first end of a line. -/
structure FirstLine (stream line rest : List UInt8) : Prop where
  split : stream = line ++ CRLF ++ rest
  first : ¬ CRLF <:+: line

/-- An address of the family that the protocol names. -/
def OfFamily (protocol text : Text) (ip : IpAddr) : Prop :=
  IpAddr.parse text = some ip ∧
    ((protocol = "TCP4".toList ∧ ∃ bits, ip = .V4 bits) ∨
      (protocol = "TCP6".toList ∧ ∃ bits, ip = .V6 bits))

structure DecimalPort (text : Text) (port : Nat) : Prop where
  ne_nil : text ≠ []
  digits : ∀ c ∈ text, c.isDigit
  value : Nat.ofDigitChars 10 text 0 = port
  lt : port < 2 ^ 16

/-- The lines of version 1, with the source that they give. -/
inductive V1Line : List UInt8 → Option SocketAddr → Prop
  | unknown (more : List UInt8) : V1Line (as_bytes "PROXY UNKNOWN".toList ++ more) none
  | source {protocol source destination source_port destination_port : Text}
    {ip destination_ip : IpAddr} {port other : Nat} (hsource : OfFamily protocol source ip)
    (hdestination : OfFamily protocol destination destination_ip)
    (hport : DecimalPort source_port port) (hother : DecimalPort destination_port other) :
    V1Line (as_bytes (List.intercalate [' ']
      ["PROXY".toList, protocol, source, destination, source_port, destination_port]))
      (some ⟨ip, port⟩)

/-- A line for an unknown transport that goes on. -/
def LongUnknown (line : List UInt8) : Prop :=
  ∃ more, more ≠ [] ∧ line = as_bytes "PROXY UNKNOWN".toList ++ more

/-- What the reader of a line takes: five or six words, of which it reads four. -/
inductive Accepted : Text → Option SocketAddr → Prop
  | unknown : Accepted "PROXY UNKNOWN".toList none
  | source {text protocol source destination source_port : Text} {more : List Text} {ip : IpAddr}
    {port : Nat}
    (hwords : Worded isWhitespace text
      ("PROXY".toList :: protocol :: source :: destination :: source_port :: more))
    (hmore : more.length ≤ 1) (hprotocol : protocol = "TCP4".toList ∨ protocol = "TCP6".toList)
    (hip : IpAddr.parse source = some ip) (hport : parse_u16 source_port = some port) :
    Accepted text (some ⟨ip, port⟩)

/-- Nothing is known of a source that an untrusted peer gives. -/
def trusted (trust_remote_addr : Bool) (source : Option SocketAddr) : Option SocketAddr :=
  if trust_remote_addr then source else none

/-! ## The end of the line -/

theorem infix_of_suffix_append {header : List UInt8} {byte : UInt8} :
    CRLF <:+: header ++ [byte] ↔ CRLF <:+ header ++ [byte] ∨ CRLF <:+: header :=
  List.infix_concat_iff

/-- The loop goes on up to the first end of a line, if it comes in time. -/
theorem read_header_line {line rest : List UInt8} (hfirst : ¬ CRLF <:+: line)
    (hlength : line.length + 2 ≤ MAX_PROXY_PROTOCOL_HEADER_BYTES) {header stream : List UInt8}
    (hsplit : header ++ stream = line ++ CRLF ++ rest) (hheader : header.length ≤ line.length + 1) :
    read_header header stream = (.ok (line ++ CRLF), rest) := by
  induction stream generalizing header with
  | nil =>
    have hcount := congrArg List.length hsplit
    simp [CRLF] at hcount
    omega
  | cons byte stream ih =>
    unfold read_header
    rw [if_neg (by omega)]
    dsimp only
    have hnext : (header ++ [byte]) ++ stream = line ++ CRLF ++ rest := by
      rw [← hsplit, List.append_assoc, List.singleton_append]
    by_cases hlast : header.length = line.length + 1
    · have hcount : (header ++ [byte]).length = (line ++ CRLF).length := by
        simp [CRLF, hlast]
      obtain ⟨hwhole, hrest⟩ := List.append_inj hnext hcount
      rw [hwhole, if_pos (List.suffix_append line CRLF), hrest]
    · have hbefore : header ++ [byte] <+: line ++ [13] := by
        have hprefix : header ++ [byte] <+: line ++ [13] ++ (10 :: rest) := by
          refine ⟨stream, ?_⟩
          rw [hnext]
          simp [CRLF]
        apply List.prefix_of_prefix_length_le hprefix (List.prefix_append _ _)
        simp only [List.length_append, List.length_singleton]
        omega
      have hnot : ¬ CRLF <:+ header ++ [byte] := by
        intro hsuffix
        have hinfix : CRLF <:+: line ++ [13] := hsuffix.isInfix.trans hbefore.isInfix
        rcases infix_of_suffix_append.mp hinfix with ⟨start, hend⟩ | hinside
        · have hchar := congrArg List.getLast? hend
          simp [CRLF] at hchar
        · exact hfirst hinside
      rw [if_neg hnot]
      apply ih hnext
      simp only [List.length_append, List.length_singleton]
      omega

/-- A header that was read ends a line, and no line before. -/
theorem line_of_read_header {header stream found rest : List UInt8} (hnone : ¬ CRLF <:+: header)
    (h : read_header header stream = (.ok found, rest)) :
    ∃ line, found = line ++ CRLF ∧ header ++ stream = line ++ CRLF ++ rest ∧ ¬ CRLF <:+: line ∧
      line.length + 2 ≤ MAX_PROXY_PROTOCOL_HEADER_BYTES := by
  induction stream generalizing header with
  | nil =>
    unfold read_header at h
    split at h
    · cases h
    · cases h
  | cons byte stream ih =>
    unfold read_header at h
    split at h
    · cases h
    · rename_i hlength
      dsimp only at h
      split at h
      · rename_i hsuffix
        rw [Prod.mk.injEq, Except.ok.injEq] at h
        obtain ⟨line, hline⟩ := hsuffix
        have hparts : (line ++ [13]) ++ [10] = header ++ [byte] := by
          rw [← hline]
          simp [CRLF]
        have hheader : line ++ [13] = header := (List.append_inj' hparts rfl).1
        refine ⟨line, ?_, ?_, fun hinfix => ?_, ?_⟩
        · rw [hline, h.1]
        · rw [hline, h.2, List.append_assoc, List.singleton_append]
        · apply hnone
          rw [← hheader]
          exact hinfix.trans (List.prefix_append _ _).isInfix
        · have hcount := congrArg List.length hheader
          simp only [List.length_append, List.length_singleton] at hcount
          omega
      · rename_i hsuffix
        have hnot : ¬ CRLF <:+: header ++ [byte] := by
          rw [infix_of_suffix_append]
          exact not_or_intro hsuffix hnone
        obtain ⟨line, hfound, hsplit, hfirst, hcount⟩ := ih hnot h
        refine ⟨line, hfound, ?_, hfirst, hcount⟩
        rw [← hsplit, List.append_assoc, List.singleton_append]

/-! ## The words of the line -/

theorem trim_end_crlf_line {text : Text} (h : ¬ ['\r', '\n'] <:+ text) :
    trim_end_crlf (text ++ ['\r', '\n']) = text := by
  have hstop : trim_start_lfcr text.reverse = text.reverse := by
    unfold trim_start_lfcr
    split
    · rename_i rest hrest
      have htext : text = rest.reverse ++ ['\r', '\n'] := by
        rw [← List.reverse_reverse text, hrest]
        simp
      exact absurd ⟨rest.reverse, htext.symm⟩ h
    · rfl
  have hstep : trim_start_lfcr (text ++ ['\r', '\n']).reverse = trim_start_lfcr text.reverse := by
    rw [List.reverse_append]
    rfl
  unfold trim_end_crlf
  rw [hstep, hstop, List.reverse_reverse]

theorem ok_or_invalid_eq_ok {α : Type} {message : String} {found : Option α} {a : α} :
    ok_or_invalid message found = .ok a ↔ found = some a := by
  cases found <;> simp [ok_or_invalid]

/-- The words that are looked at, in a line of five or six. -/
theorem looked_at_iff {α : Type} {parts : List α} {first second third fifth : α} :
    parts[0]? = some first ∧ parts[1]? = some second ∧ parts[2]? = some third ∧
        parts[4]? = some fifth ∧ parts[6]? = none ↔
      ∃ fourth more, parts = first :: second :: third :: fourth :: fifth :: more ∧
        more.length ≤ 1 := by
  constructor
  · rintro ⟨hfirst, hsecond, hthird, hfifth, htrailing⟩
    rcases parts with _ | ⟨one, _ | ⟨two, _ | ⟨three, _ | ⟨four, _ | ⟨five, more⟩⟩⟩⟩⟩
    iterate 5 cases hfifth
    obtain rfl := Option.some.inj hfirst
    obtain rfl := Option.some.inj hsecond
    obtain rfl := Option.some.inj hthird
    obtain rfl := Option.some.inj hfifth
    refine ⟨four, more, rfl, ?_⟩
    rw [List.getElem?_eq_none_iff] at htrailing
    simp only [List.length_cons] at htrailing
    omega
  · rintro ⟨fourth, more, rfl, hmore⟩
    refine ⟨rfl, rfl, rfl, rfl, ?_⟩
    rw [List.getElem?_eq_none_iff]
    simp only [List.length_cons]
    omega

/-- The parser of a line takes what is accepted. -/
theorem parse_eq_ok_iff {text : Text} (hend : ¬ ['\r', '\n'] <:+ text) {trust_remote_addr : Bool}
    {result : Option SocketAddr} :
    parse_proxy_protocol_v1 (text ++ ['\r', '\n']) trust_remote_addr = .ok result ↔
      ∃ source, Accepted text source ∧ result = trusted trust_remote_addr source := by
  unfold parse_proxy_protocol_v1
  rw [trim_end_crlf_line hend]
  dsimp only
  by_cases hunknown : text = "PROXY UNKNOWN".toList
  · have hnone : trusted trust_remote_addr none = none := by
      cases trust_remote_addr <;> rfl
    rw [if_pos hunknown]
    subst hunknown
    constructor
    · intro h
      exact ⟨none, .unknown, by rw [hnone, Except.ok.inj h]⟩
    · rintro ⟨source, haccepted, rfl⟩
      cases haccepted with
      | unknown => rw [hnone]
      | source hwords hmore hprotocol hip hport =>
        have hparts := words_eq_iff.mpr hwords
        have hfew : words isWhitespace "PROXY UNKNOWN".toList =
            ["PROXY".toList, "UNKNOWN".toList] := by decide
        rw [hfew] at hparts
        cases hparts
  · rw [if_neg hunknown]
    constructor
    · intro h
      split at h
      · cases h
      · rename_i hguard
        rw [not_or, Decidable.not_not, Option.not_isSome_iff_eq_none] at hguard
        split at h
        · rename_i hprotocol
          obtain ⟨source, hsource, h⟩ := bind_eq_ok.mp h
          obtain ⟨ip, hip, h⟩ := bind_eq_ok.mp h
          obtain ⟨source_port, hsource_port, h⟩ := bind_eq_ok.mp h
          obtain ⟨port, hport, h⟩ := bind_eq_ok.mp h
          rw [ok_or_invalid_eq_ok] at hsource hip hsource_port hport
          obtain ⟨protocol, hsecond, hnamed⟩ : ∃ protocol,
              (split_whitespace text)[1]? = some protocol ∧
                (protocol = "TCP4".toList ∨ protocol = "TCP6".toList) := by
            rcases hprotocol with hfour | hsix
            · exact ⟨_, hfour, .inl rfl⟩
            · exact ⟨_, hsix, .inr rfl⟩
          obtain ⟨destination, more, hparts, hmore⟩ :=
            looked_at_iff.mp ⟨hguard.1, hsecond, hsource, hsource_port, hguard.2⟩
          refine ⟨some ⟨ip, port⟩, ?_, (Except.ok.inj h).symm⟩
          exact .source (words_eq_iff.mp hparts) hmore hnamed hip hport
        · cases h
    · rintro ⟨source, haccepted, rfl⟩
      cases haccepted with
      | unknown => exact absurd rfl hunknown
      | @source _ protocol source destination source_port more ip port hwords hmore hprotocol hip
        hport =>
        obtain ⟨hfirst, hsecond, hthird, hfifth, htrailing⟩ :=
          looked_at_iff.mpr ⟨destination, more, words_eq_iff.mpr hwords, hmore⟩
        unfold split_whitespace
        have hguard : ¬ ((words isWhitespace text)[0]? ≠ some "PROXY".toList ∨
            (words isWhitespace text)[6]?.isSome) := by
          rw [hfirst, htrailing]
          simp
        have hnamed : (words isWhitespace text)[1]? = some "TCP4".toList ∨
            (words isWhitespace text)[1]? = some "TCP6".toList := by
          rw [hsecond, Option.some.injEq, Option.some.injEq]
          exact hprotocol
        rw [if_neg hguard, if_pos hnamed, hthird, hfifth]
        simp only [bind, Except.bind, ok_or_invalid, hip, hport, pure, Except.pure]
        cases trust_remote_addr <;> rfl

/-- A header is a text where its line is. -/
theorem from_utf8_line {line : List UInt8} {header : Text} :
    from_utf8 (line ++ CRLF) = some header ↔
      ∃ text, header = text ++ ['\r', '\n'] ∧ line = as_bytes text := by
  have hend : ∀ text : Text, as_bytes (text ++ ['\r', '\n']) = as_bytes text ++ CRLF := by
    intro text
    unfold as_bytes
    rw [List.flatMap_append]
    rfl
  constructor
  · intro h
    have hbytes : as_bytes header = (line ++ [13]) ++ [10] := by
      rw [← from_utf8_eq_some h]
      simp [CRLF]
    obtain ⟨start, hheader, hstart⟩ := as_bytes_append_ascii hbytes (by decide)
    obtain ⟨text, htext, hline⟩ := as_bytes_append_ascii hstart (by decide)
    refine ⟨text, ?_, hline.symm⟩
    rw [hheader, htext]
    simp
  · rintro ⟨text, rfl, rfl⟩
    rw [← hend, from_utf8_as_bytes]

/-- The text of a line has no end of a line in it. -/
theorem not_crlf_of_line {text : Text} (h : ¬ CRLF <:+: as_bytes text) :
    ¬ ['\r', '\n'] <:+ text := by
  rintro ⟨start, rfl⟩
  apply h
  refine ⟨as_bytes start, [], ?_⟩
  simp only [as_bytes, List.flatMap_append, List.append_nil]
  rfl

theorem rest_of_read {line rest : List UInt8} (hfirst : ¬ CRLF <:+: line)
    (hlength : line.length + 2 ≤ MAX_PROXY_PROTOCOL_HEADER_BYTES) (trust_remote_addr : Bool) :
    (read_proxy_protocol_source_addr (line ++ CRLF ++ rest) trust_remote_addr).2 = rest := by
  have hread : read_header [] (line ++ CRLF ++ rest) = (.ok (line ++ CRLF), rest) :=
    read_header_line hfirst hlength rfl (Nat.zero_le _)
  unfold read_proxy_protocol_source_addr
  rw [hread]

theorem read_eq_ok_iff {line rest : List UInt8} (hfirst : ¬ CRLF <:+: line)
    (hlength : line.length + 2 ≤ MAX_PROXY_PROTOCOL_HEADER_BYTES) (trust_remote_addr : Bool)
    (result : Option SocketAddr) :
    (read_proxy_protocol_source_addr (line ++ CRLF ++ rest) trust_remote_addr).1 = .ok result ↔
      ∃ text source, line = as_bytes text ∧ Accepted text source ∧
        result = trusted trust_remote_addr source := by
  have hread : read_header [] (line ++ CRLF ++ rest) = (.ok (line ++ CRLF), rest) :=
    read_header_line hfirst hlength rfl (Nat.zero_le _)
  unfold read_proxy_protocol_source_addr
  rw [hread]
  dsimp only
  constructor
  · intro h
    obtain ⟨found, hfound, hdecoded⟩ := bind_eq_ok.mp h
    obtain ⟨header, hheader, hparse⟩ := bind_eq_ok.mp hdecoded
    rw [← Except.ok.inj hfound, ok_or_invalid_eq_ok, from_utf8_line] at hheader
    obtain ⟨text, rfl, rfl⟩ := hheader
    obtain ⟨source, haccepted, hresult⟩ := (parse_eq_ok_iff (not_crlf_of_line hfirst)).mp hparse
    exact ⟨text, source, rfl, haccepted, hresult⟩
  · rintro ⟨text, source, rfl, haccepted, hresult⟩
    refine bind_eq_ok.mpr ⟨_, rfl, bind_eq_ok.mpr ⟨text ++ ['\r', '\n'], ?_, ?_⟩⟩
    · rw [ok_or_invalid_eq_ok, from_utf8_line]
      exact ⟨text, rfl, rfl⟩
    · exact (parse_eq_ok_iff (not_crlf_of_line hfirst)).mpr ⟨source, haccepted, hresult⟩

/-! ## The lines of the grammar -/

theorem isWhitespace_of_visible {c : Char} (h : 33 ≤ c.toNat ∧ c.toNat < 127) :
    isWhitespace c = false := by
  unfold isWhitespace
  simp
  omega

/-- Nothing in an address is a blank. -/
theorem not_blank_of_addr_char {c : Char} (h : AddrChar c) : isWhitespace c = false := by
  have hrange : 46 ≤ c.toNat ∧ c.toNat ≤ 122 := by
    rcases h with hdigit | rfl | rfl
    · obtain ⟨digit, hdigit⟩ := Option.isSome_iff_exists.mp hdigit
      unfold to_digit at hdigit
      have hsome := (Option.filter_eq_some_iff.mp hdigit).1
      split at hsome
      · rename_i hin
        exact ⟨le_trans (by decide) (show 48 ≤ c.toNat from hin.1),
          le_trans (show c.toNat ≤ 57 from hin.2) (by decide)⟩
      · split at hsome
        · rename_i hin
          exact ⟨le_trans (by decide) (show 97 ≤ c.toNat from hin.1), hin.2⟩
        · split at hsome
          · rename_i hin
            exact ⟨le_trans (by decide) (show 65 ≤ c.toNat from hin.1),
              le_trans (show c.toNat ≤ 90 from hin.2) (by decide)⟩
          · cases hsome
    · decide
    · decide
  apply isWhitespace_of_visible
  omega

theorem DecimalPort.parse {text : Text} {port : Nat} (h : DecimalPort text port) :
    parse_u16 text = some port := by
  have hplus : stripStart ['+'] text = none := by
    unfold stripStart
    rw [if_neg]
    intro hsign
    have hdigit := h.digits '+' (hsign.subset List.mem_cons_self)
    revert hdigit
    decide
  have hvalue : parse_u64 text = some port := by
    unfold parse_u64
    dsimp only
    rw [hplus, Option.getD_none, if_pos, h.value]
    refine ⟨h.ne_nil, List.all_eq_true.mpr h.digits, ?_⟩
    rw [h.value]
    exact lt_trans h.lt (by decide)
  unfold parse_u16
  rw [hvalue, Option.filter_some, if_pos (decide_eq_true h.lt)]

theorem OfFamily.field {protocol text : Text} {ip : IpAddr} (h : OfFamily protocol text ip) :
    text ≠ [] ∧ ∀ c ∈ text, isWhitespace c = false := by
  refine ⟨?_, fun c hc => not_blank_of_addr_char (addr_char_of_parse h.1 c hc)⟩
  rintro rfl
  have hnone : IpAddr.parse [] = none := by decide
  rw [h.1] at hnone
  cases hnone

theorem DecimalPort.field {text : Text} {port : Nat} (h : DecimalPort text port) :
    text ≠ [] ∧ ∀ c ∈ text, isWhitespace c = false :=
  ⟨h.ne_nil, fun c hc => isWhitespace_of_isDigit (h.digits c hc)⟩

/-- The fields of a line are its words. -/
theorem words_of_fields {protocol source destination source_port destination_port : Text}
    {ip destination_ip : IpAddr} {port other : Nat} (hsource : OfFamily protocol source ip)
    (hdestination : OfFamily protocol destination destination_ip)
    (hport : DecimalPort source_port port) (hother : DecimalPort destination_port other) :
    words isWhitespace (List.intercalate [' ']
        ["PROXY".toList, protocol, source, destination, source_port, destination_port]) =
      ["PROXY".toList, protocol, source, destination, source_port, destination_port] := by
  have hvisible : ∀ word : Text, (word.all fun c => isWhitespace c = false) = true →
      ∀ c ∈ word, isWhitespace c = false := fun word hword c hc =>
    of_decide_eq_true (List.all_eq_true.mp hword c hc)
  apply words_intercalate (by decide)
  intro field hfield
  simp only [List.mem_cons, List.not_mem_nil, or_false] at hfield
  rcases hfield with rfl | rfl | rfl | rfl | rfl | rfl
  · exact ⟨by decide, hvisible _ (by decide)⟩
  · rcases hsource.2 with ⟨rfl, -⟩ | ⟨rfl, -⟩
    · exact ⟨by decide, hvisible _ (by decide)⟩
    · exact ⟨by decide, hvisible _ (by decide)⟩
  · exact hsource.field
  · exact hdestination.field
  · exact hport.field
  · exact hother.field

/-- The reader takes the lines of the grammar, long ones for an unknown transport apart. -/
theorem accepted_of_v1_line {line : List UInt8} {source : Option SocketAddr}
    (h : V1Line line source) (hshort : ¬ LongUnknown line) :
    ∃ text, line = as_bytes text ∧ Accepted text source := by
  cases h with
  | unknown more =>
    by_cases hmore : more = []
    · rw [hmore, List.append_nil]
      exact ⟨_, rfl, .unknown⟩
    · exact absurd ⟨more, hmore, rfl⟩ hshort
  | source hsource hdestination hport hother =>
    have hwords := words_eq_iff.mp (words_of_fields hsource hdestination hport hother)
    exact ⟨_, rfl, .source hwords le_rfl (hsource.2.imp And.left And.left) hsource.1 hport.parse⟩

/-- The reader against the grammar of version 1, for one stream. -/
def ReadsGrammar (stream : List UInt8) : Prop :=
  ∀ trust_remote_addr result rest,
    read_proxy_protocol_source_addr stream trust_remote_addr = (.ok result, rest) ↔
      ∃ line source, FirstLine stream line rest ∧
        line.length + 2 ≤ MAX_PROXY_PROTOCOL_HEADER_BYTES ∧ V1Line line source ∧
        result = trusted trust_remote_addr source

/-- The reader takes the lines of version 1, and others that it understands. It stops behind the
first end of a line and fails without one. -/
theorem proxy_protocol_v1_read (stream : List UInt8) (trust_remote_addr : Bool) :
    (∀ line rest, FirstLine stream line rest →
      line.length + 2 ≤ MAX_PROXY_PROTOCOL_HEADER_BYTES →
      (read_proxy_protocol_source_addr stream trust_remote_addr).2 = rest ∧
        (¬ LongUnknown line →
          (∀ result,
            (read_proxy_protocol_source_addr stream trust_remote_addr).1 = .ok result ↔
              ∃ text source, line = as_bytes text ∧ Accepted text source ∧
                result = trusted trust_remote_addr source) ∧
          ∀ source, V1Line line source →
            (read_proxy_protocol_source_addr stream trust_remote_addr).1 =
              .ok (trusted trust_remote_addr source))) ∧
      ((∀ line rest, FirstLine stream line rest →
          MAX_PROXY_PROTOCOL_HEADER_BYTES < line.length + 2) →
        ∀ result, (read_proxy_protocol_source_addr stream trust_remote_addr).1 ≠ .ok result) := by
  constructor
  · rintro line rest ⟨rfl, hfirst⟩ hlength
    refine ⟨rest_of_read hfirst hlength trust_remote_addr, fun hshort =>
      ⟨read_eq_ok_iff hfirst hlength trust_remote_addr, fun source hline => ?_⟩⟩
    obtain ⟨text, htext, haccepted⟩ := accepted_of_v1_line hline hshort
    exact (read_eq_ok_iff hfirst hlength trust_remote_addr _).mpr
      ⟨text, source, htext, haccepted, rfl⟩
  · intro hlate result h
    unfold read_proxy_protocol_source_addr at h
    dsimp only at h
    obtain ⟨found, hfound, -⟩ := bind_eq_ok.mp h
    obtain ⟨line, -, hsplit, hfirst, hlength⟩ :=
      @line_of_read_header [] _ _ _ (by decide) (Prod.ext hfound rfl)
    have hline := hlate line _ ⟨hsplit, hfirst⟩
    omega

/-- A line without a port for the destination, which is no address. -/
def short_line : Text := "PROXY TCP4 198.51.100.9 x 80".toList

theorem short_line_words : words isWhitespace short_line =
    ["PROXY".toList, "TCP4".toList, "198.51.100.9".toList, "x".toList, "80".toList] := by
  decide

theorem short_line_accepted : read_proxy_protocol_source_addr (as_bytes short_line ++ CRLF) true =
    (.ok (some ⟨.V4 0xC6336409, 80⟩), []) := by
  have hfirst : ¬ CRLF <:+: as_bytes short_line := by decide +kernel
  have hlength : (as_bytes short_line).length + 2 ≤ MAX_PROXY_PROTOCOL_HEADER_BYTES := by
    decide +kernel
  have haccepted : Accepted short_line (some ⟨.V4 0xC6336409, 80⟩) :=
    .source (words_eq_iff.mp short_line_words) (Nat.zero_le _) (.inl rfl) (by decide) (by decide)
  rw [← List.append_nil (as_bytes short_line ++ CRLF)]
  apply Prod.ext
  · exact (read_eq_ok_iff hfirst hlength true _).mpr ⟨_, _, rfl, haccepted, rfl⟩
  · exact rest_of_read hfirst hlength true

/-- The reader takes the source from a line that the grammar does not have. -/
theorem short_line_not_grammar : ¬ ReadsGrammar (as_bytes short_line ++ CRLF) := by
  intro h
  obtain ⟨line, source, hline, hlength, hgrammar, -⟩ := (h true _ _).mp short_line_accepted
  have hsame : line = as_bytes short_line := by
    have hsplit := hline.split
    rw [List.append_nil] at hsplit
    exact (List.append_cancel_right hsplit).symm
  cases hgrammar with
  | unknown more =>
    have hstart : as_bytes "PROXY UNKNOWN".toList <+: as_bytes short_line := ⟨more, hsame⟩
    revert hstart
    decide +kernel
  | source hsource hdestination hport hother =>
    have htext := congrArg from_utf8 hsame
    rw [from_utf8_as_bytes, from_utf8_as_bytes, Option.some.injEq] at htext
    have hwords := words_of_fields hsource hdestination hport hother
    rw [htext, short_line_words] at hwords
    cases hwords

end rginx.server
