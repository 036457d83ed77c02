-- The two parsers of templates, `config/cache/key_template.rs` and `config/route/proxy_header.rs`
-- of the crate `rginx-core`. They are one scanner of byte offsets with two kinds of variables and
-- errors; a template is read as the pieces that it is written from.
import Rginx.BraceTemplates
import Rginx.CacheKeys
import Rginx.NetAddress
import Rginx.SharedFills

open rust_text rust_net brace_templates rginx.cache

namespace rginx.config

/-! ## The scanner -/

/-- What the two parsers do not have in common. -/
structure TemplateSyntax (ε V P : Type) where
  UnclosedVariable : Text → ε
  UnescapedClose : Text → ε
  EmptyVariable : Text → ε
  parse_variable : Text → Except ε V
  Literal : Text → P
  Variable : V → P

section Scanner

variable {ε V P : Type} (kind : TemplateSyntax ε V P) (raw : Text)

def push_literal (parts : List P) (literal : Text) : List P :=
  if literal = [] then parts else parts ++ [kind.Literal literal]

/-- The loop of `parse` at a byte offset; nothing stands for a slice that panics. -/
def parse_template (index : Nat) (parts : List P) (literal : Text) : Option (Except ε (List P)) :=
  if _hindex : index < len raw then do
    let remainder ← slice_from raw index
    if startsWith ['\x7b', '\x7b'] remainder then
      parse_template (index + 2) parts (literal ++ ['\x7b'])
    else if startsWith ['\x7d', '\x7d'] remainder then
      parse_template (index + 2) parts (literal ++ ['\x7d'])
    else
      let ch ← remainder.head?
      if ch = '\x7b' then
        let parts := push_literal kind parts literal
        let after_start ← slice_from raw (index + 1)
        match find '\x7d' after_start with
        | none => some (.error (kind.UnclosedVariable raw))
        | some end_ =>
          let between ← slice_to after_start end_
          if trim between = [] then some (.error (kind.EmptyVariable raw))
          else
            match kind.parse_variable (trim between) with
            | .error error => some (.error error)
            | .ok parsed => parse_template (index + end_ + 2) (parts ++ [kind.Variable parsed]) []
      else if ch = '\x7d' then some (.error (kind.UnescapedClose raw))
      else parse_template (index + ch.utf8Size) parts (literal ++ [ch])
  else some (.ok (push_literal kind parts literal))
  termination_by len raw - index
  decreasing_by
    all_goals try have hsize := Char.utf8Size_pos ch
    all_goals omega

def TemplateSyntax.brace_error : BraceError → ε
  | .UnclosedVariable => kind.UnclosedVariable raw
  | .UnescapedClose => kind.UnescapedClose raw
  | .EmptyVariable => kind.EmptyVariable raw

/-- The parts of the pieces, up to the first variable that is not supported; then the error in the
braces, if there is one. -/
def assemble (parts : List P) : List Piece → Option BraceError → Except ε (List P)
  | [], none => .ok parts
  | [], some error => .error (kind.brace_error raw error)
  | .literal text :: pieces, error => assemble (parts ++ [kind.Literal text]) pieces error
  | .variable name :: pieces, error =>
    match kind.parse_variable (trim name) with
    | .error unsupported => .error unsupported
    | .ok parsed => assemble (parts ++ [kind.Variable parsed]) pieces error

theorem assemble_push (parts : List P) (literal : Text) (pieces : List Piece)
    (error : Option BraceError) :
    assemble kind raw parts (push literal pieces) error =
      assemble kind raw (push_literal kind parts literal) pieces error := by
  unfold push push_literal
  split <;> rfl

theorem starts_doubled {c d : Char} {rest : Text} :
    startsWith [d, d] (c :: rest) = true ↔ c = d ∧ rest.head? = some d := by
  unfold startsWith
  rw [decide_eq_true_eq, List.cons_prefix_cons]
  cases rest with
  | nil => simp
  | cons e rest => simp [List.cons_prefix_cons, eq_comm]

/-- The scanner reads the pieces. It ends on every text, its slices begin and end between
characters, and what it reads of the braces does not depend on the variables. -/
theorem parse_template_eq {consumed rest : Text} (hraw : raw = consumed ++ rest) (parts : List P)
    (literal : Text) :
    parse_template kind raw (len consumed) parts literal =
      some (assemble kind raw parts (scan (.inl literal) rest).1 (scan (.inl literal) rest).2) := by
  induction hlength : rest.length using Nat.strongRecOn generalizing consumed rest parts literal with
  | ind length ih =>
    have hfrom : ∀ {read more : Text}, raw = read ++ more → slice_from raw (len read) = some more := by
      rintro read more rfl
      exact slice_from_append read more
    -- The loop goes on behind some characters.
    have hnext : ∀ (read more : Text) (parts : List P) (literal : Text), rest = read ++ more →
        read ≠ [] → parse_template kind raw (len consumed + len read) parts literal =
          some (assemble kind raw parts (scan (.inl literal) more).1 (scan (.inl literal) more).2) := by
      intro read more parts literal hrest hread
      rw [← len_append]
      refine ih more.length ?_ (by rw [hraw, hrest, List.append_assoc]) parts literal rfl
      have hpos := List.length_pos_iff.mpr hread
      rw [← hlength, hrest, List.length_append]
      omega
    rw [parse_template]
    cases rest with
    | nil =>
      rw [List.append_nil] at hraw
      rw [dif_neg (by rw [hraw]; exact lt_irrefl _), scan, assemble_push]
      rfl
    | cons c rest =>
      have hin : len consumed < len raw := by
        rw [hraw, len_append, len_cons]
        have := c.utf8Size_pos
        omega
      rw [dif_pos hin, hfrom hraw]
      simp only [Option.bind_eq_bind, Option.bind_some, List.head?_cons, starts_doubled]
      by_cases hopen : c = '\x7b'
      · subst hopen
        by_cases hdoubled : rest.head? = some '\x7b'
        · obtain ⟨more, rfl⟩ := List.head?_eq_some_iff.mp hdoubled
          rw [if_pos ⟨rfl, hdoubled⟩, scan_doubled (.inl rfl)]
          exact hnext ['\x7b', '\x7b'] more parts _ rfl (by simp)
        · rw [if_neg fun h => hdoubled h.2, if_neg fun h => by simp at h, if_pos rfl,
            scan_open literal hdoubled, assemble_push]
          have hafter : slice_from raw (len consumed + 1) = some rest := by
            have hopened : raw = (consumed ++ ['\x7b']) ++ rest := by
              rw [hraw, List.append_assoc, List.singleton_append]
            have hslice := hfrom hopened
            rwa [len_append] at hslice
          rw [hafter]
          simp only [Option.bind_some]
          cases hsplit : split_once '\x7d' rest with
          | none =>
            have hnone := split_once_eq_none.mp hsplit
            have hscan := scan_name hnone [] []
            rw [List.append_nil, scan] at hscan
            rw [find_eq_none hnone, hscan]
            rfl
          | some split =>
            obtain ⟨name, more⟩ := split
            obtain ⟨hname, rfl⟩ := split_once_eq_some.mp hsplit
            rw [find_append hname, scan_name hname, List.nil_append]
            dsimp only
            rw [slice_to_append, Option.bind_some]
            by_cases htrim : trim name = []
            · rw [if_pos htrim, scan, if_pos htrim]
              rfl
            · rw [if_neg htrim, scan_variable htrim, assemble]
              cases kind.parse_variable (trim name) with
              | error unsupported => rfl
              | ok parsed =>
                have hread := hnext ('\x7b' :: name ++ ['\x7d']) more
                  (push_literal kind parts literal ++ [kind.Variable parsed]) [] (by simp) (by simp)
                have hindex : len consumed + len ('\x7b' :: name ++ ['\x7d']) =
                    len consumed + len name + 2 := by
                  rw [List.cons_append, len_cons, len_append, len_cons, len_nil]
                  have hbraces : '\x7b'.utf8Size = 1 ∧ '\x7d'.utf8Size = 1 := by decide
                  omega
                rw [hindex] at hread
                exact hread
      · by_cases hclose : c = '\x7d'
        · subst hclose
          by_cases hdoubled : rest.head? = some '\x7d'
          · obtain ⟨more, rfl⟩ := List.head?_eq_some_iff.mp hdoubled
            rw [if_neg fun h => hopen h.1, if_pos ⟨rfl, hdoubled⟩, scan_doubled (.inr rfl)]
            exact hnext ['\x7d', '\x7d'] more parts _ rfl (by simp)
          · rw [if_neg fun h => hopen h.1, if_neg fun h => hdoubled h.2, if_neg hopen, if_pos rfl,
              scan_close literal hdoubled, assemble_push]
            rfl
        · rw [if_neg fun h => hopen h.1, if_neg fun h => hclose h.1, if_neg hopen, if_neg hclose,
            scan_char hopen hclose]
          exact hnext [c] rest parts _ rfl (by simp)

/-- The loop from the start of the template. -/
theorem parse_template_start (raw : Text) :
    parse_template kind raw 0 [] [] =
      some (assemble kind raw [] (scan (.inl []) raw).1 (scan (.inl []) raw).2) :=
  @parse_template_eq _ _ _ kind raw [] raw rfl [] []

/-! ## Errors in the braces -/

/-- The parser knows every variable of the pieces. -/
def Supported (pieces : List Piece) : Prop :=
  ∀ name, .variable name ∈ pieces → ∃ parsed, kind.parse_variable (trim name) = .ok parsed

/-- What a parser makes of pieces and of an error behind them. -/
structure ReadsBraces {T : Type} (pieces : List Piece) (error : Option BraceError)
    (result : Option (Except ε T)) : Prop where
  valid : Supported kind pieces → error = none → ∃ template, result = some (.ok template)
  invalid : Supported kind pieces → ∀ fault, error = some fault →
    result = some (.error (kind.brace_error raw fault))
  unsupported : ¬ Supported kind pieces → ∃ name found, .variable name ∈ pieces ∧
    kind.parse_variable (trim name) = .error found ∧ result = some (.error found)

theorem supported_cons {piece : Piece} {pieces : List Piece} :
    Supported kind (piece :: pieces) ↔
      (∀ name, piece = .variable name → ∃ parsed, kind.parse_variable (trim name) = .ok parsed) ∧
        Supported kind pieces := by
  unfold Supported
  simp only [List.mem_cons]
  constructor
  · intro h
    exact ⟨fun name hname => h name (.inl hname.symm), fun name hname => h name (.inr hname)⟩
  · rintro ⟨hfirst, hrest⟩ name (hname | hname)
    · exact hfirst name hname.symm
    · exact hrest name hname

theorem assemble_reads (parts : List P) (pieces : List Piece) (error : Option BraceError) :
    ReadsBraces kind raw pieces error (some (assemble kind raw parts pieces error)) := by
  induction pieces generalizing parts with
  | nil =>
    have hsupported : Supported kind [] := nofun
    refine ⟨fun _ herror => ?_, fun _ fault herror => ?_, fun h => absurd hsupported h⟩
    · rw [herror]
      exact ⟨parts, rfl⟩
    · rw [herror]
      rfl
  | cons piece pieces ih =>
    cases piece with
    | literal text =>
      obtain ⟨hvalid, hinvalid, hunsupported⟩ := ih (parts ++ [kind.Literal text])
      have hsupported : Supported kind (.literal text :: pieces) ↔ Supported kind pieces := by
        rw [supported_cons]
        exact and_iff_right nofun
      rw [assemble]
      refine ⟨fun h => hvalid (hsupported.mp h), fun h => hinvalid (hsupported.mp h), fun h => ?_⟩
      obtain ⟨name, found, hname, hfound⟩ := hunsupported (mt hsupported.mpr h)
      exact ⟨name, found, List.mem_cons_of_mem _ hname, hfound⟩
    | «variable» name =>
      rw [assemble]
      cases hparsed : kind.parse_variable (trim name) with
      | error found =>
        have hnot : ¬ Supported kind (.variable name :: pieces) := by
          intro h
          obtain ⟨parsed, hok⟩ := h name List.mem_cons_self
          rw [hparsed] at hok
          cases hok
        exact ⟨fun h => absurd h hnot, fun h => absurd h hnot,
          fun _ => ⟨name, found, List.mem_cons_self, hparsed, rfl⟩⟩
      | ok parsed =>
        obtain ⟨hvalid, hinvalid, hunsupported⟩ := ih (parts ++ [kind.Variable parsed])
        have hsupported : Supported kind (.variable name :: pieces) ↔ Supported kind pieces := by
          rw [supported_cons]
          refine and_iff_right fun other hother => ?_
          rw [← Piece.variable.inj hother]
          exact ⟨parsed, hparsed⟩
        refine ⟨fun h => hvalid (hsupported.mp h), fun h => hinvalid (hsupported.mp h), fun h => ?_⟩
        obtain ⟨other, found, hother, hfound⟩ := hunsupported (mt hsupported.mpr h)
        exact ⟨other, found, List.mem_cons_of_mem _ hother, hfound⟩

/-- The parser reads the braces of a template, whatever is made of its parts. -/
theorem parse_template_reads {T : Type} (make : List P → T) (raw : Text) :
    ReadsBraces kind raw (scan (.inl []) raw).1 (scan (.inl []) raw).2
      ((parse_template kind raw 0 [] []).map fun parsed => parsed.map make) := by
  obtain ⟨hvalid, hinvalid, hunsupported⟩ :=
    assemble_reads kind raw [] (scan (.inl []) raw).1 (scan (.inl []) raw).2
  rw [parse_template_start]
  refine ⟨fun h herror => ?_, fun h fault herror => ?_, fun h => ?_⟩
  · obtain ⟨parts, hparts⟩ := hvalid h herror
    rw [hparts]
    exact ⟨make parts, rfl⟩
  · rw [hinvalid h fault herror]
    rfl
  · obtain ⟨name, found, hname, hfound, hresult⟩ := hunsupported h
    refine ⟨name, found, hname, hfound, ?_⟩
    rw [hresult]
    rfl

/-! ## Templates that are written -/

/-- A name, the variable that it stands for, and the text after it. -/
structure Field (V : Type) where
  name : Text
  parsed : V
  text : Text

def Field.written (field : Field V) : Text := brace_templates.written (field.name, field.text)

/-- The template of a text and of variables with texts after them. -/
def template_text (first : Text) (fields : List (Field V)) : Text :=
  escape first ++ fields.flatMap Field.written

def literals (text : Text) : List P := if text = [] then [] else [kind.Literal text]

def template_parts (first : Text) (fields : List (Field V)) : List P :=
  literals kind first ++ fields.flatMap fun field => kind.Variable field.parsed :: literals kind field.text

/-- A supported name that has no brace in it. -/
structure Writes (field : Field V) : Prop where
  supported : kind.parse_variable (trim field.name) = .ok field.parsed
  no_open : '\x7b' ∉ field.name
  no_close : '\x7d' ∉ field.name

theorem assemble_pieces {fields : List (Field V)} (hfields : ∀ field ∈ fields, Writes kind field)
    (parts : List P) (first : Text) :
    assemble kind raw parts
        (push first (fields.flatMap fun field => pieces_of (field.name, field.text))) none =
      .ok (parts ++ template_parts kind first fields) := by
  induction fields generalizing parts first with
  | nil =>
    rw [assemble_push]
    unfold push_literal template_parts literals
    split <;> simp [assemble]
  | cons field fields ih =>
    have hfield := hfields field List.mem_cons_self
    have hpieces : (field :: fields).flatMap (fun field => pieces_of (field.name, field.text)) =
        .variable field.name :: push field.text
          (fields.flatMap fun field => pieces_of (field.name, field.text)) := by
      unfold pieces_of push
      split <;> simp_all
    have hparts : template_parts kind first (field :: fields) =
        literals kind first ++ [kind.Variable field.parsed] ++ template_parts kind field.text fields := by
      simp [template_parts]
    have hliteral : push_literal kind parts first = parts ++ literals kind first := by
      unfold push_literal literals
      split <;> simp
    rw [hpieces, assemble_push, assemble, hfield.supported]
    dsimp only
    rw [ih fun other hother => hfields other (List.mem_cons_of_mem _ hother)]
    rw [hliteral, hparts, List.append_assoc, List.append_assoc, List.append_assoc]

/-- What is written is parsed to its parts. -/
theorem parse_written (hempty : ∀ parsed, kind.parse_variable [] ≠ .ok parsed)
    {fields : List (Field V)} (hfields : ∀ field ∈ fields, Writes kind field) (first : Text) :
    parse_template kind (template_text first fields) 0 [] [] =
      some (.ok (template_parts kind first fields)) := by
  have hnames : ∀ field ∈ fields.map fun field => (field.name, field.text), Name field.1 := by
    intro pair hpair
    obtain ⟨field, hfield, rfl⟩ := List.mem_map.mp hpair
    obtain ⟨hsupported, hopen, hclose⟩ := hfields field hfield
    refine ⟨fun htrim => ?_, fun hhead => hopen (List.mem_of_mem_head? hhead), hclose⟩
    rw [htrim] at hsupported
    exact hempty _ hsupported
  have htext : template_text first fields =
      escape first ++ (fields.map fun field => (field.name, field.text)).flatMap
        brace_templates.written := by
    rw [List.flatMap_map]
    rfl
  have hpieces : (fields.map fun field => (field.name, field.text)).flatMap pieces_of =
      fields.flatMap fun field => pieces_of (field.name, field.text) :=
    List.flatMap_map _ _ _
  rw [parse_template_start, htext, scan_written hnames]
  dsimp only
  rw [hpieces, List.nil_append, assemble_pieces _ _ hfields, List.nil_append]

end Scanner

/-! ## The template of a key -/

def cache_key_syntax :
    TemplateSyntax CacheKeyTemplateError CacheKeyVariable CacheKeyTemplatePart where
  UnclosedVariable := .UnclosedVariable
  UnescapedClose := .UnescapedClose
  EmptyVariable := .EmptyVariable
  parse_variable := parse_cache_key_variable
  Literal := .Literal
  Variable := .Variable

/-- `CacheKeyTemplate::parse` over the bytes of the template. -/
def cache_key_template_parse (raw : Text) : Option (Except CacheKeyTemplateError CacheKeyTemplate) :=
  (parse_template cache_key_syntax raw 0 [] []).map fun parsed => parsed.map fun parts => ⟨raw, parts⟩

theorem parse_loop_eq (raw : Text) (parts : List CacheKeyTemplatePart) (state : Text ⊕ Text)
    (rest : Text) :
    CacheKeyTemplate.parse_loop raw parts state rest =
      assemble cache_key_syntax raw parts (scan state rest).1 (scan state rest).2 := by
  induction parts, state, rest using CacheKeyTemplate.parse_loop.induct with
  | case1 parts literal rest ih => rw [CacheKeyTemplate.parse_loop, scan, ih]
  | case2 parts literal rest ih => rw [CacheKeyTemplate.parse_loop, scan, ih]
  | case3 parts literal rest hsingle ih =>
    rw [CacheKeyTemplate.parse_loop, scan, assemble_push, ih]
    · rfl
    · exact hsingle
    · exact hsingle
  | case4 parts literal rest hsingle =>
    rw [CacheKeyTemplate.parse_loop, scan, assemble_push]
    · rfl
    · exact hsingle
    · exact hsingle
  | case5 parts literal c rest hdopen hdclose hopen hclose ih =>
    rw [CacheKeyTemplate.parse_loop, scan, ih]
    all_goals assumption
  | case6 parts literal =>
    rw [CacheKeyTemplate.parse_loop, scan, assemble_push]
    rfl
  | case7 parts text rest htrim =>
    rw [CacheKeyTemplate.parse_loop, scan, if_pos htrim, if_pos htrim]
    rfl
  | case8 parts text rest htrim error herror =>
    rw [CacheKeyTemplate.parse_loop, scan_variable htrim, if_neg htrim, assemble]
    simp only [ cache_key_syntax, herror]
  | case9 parts text rest htrim name hname ih =>
    rw [CacheKeyTemplate.parse_loop, scan_variable htrim, if_neg htrim, assemble]
    simp only [ cache_key_syntax, hname]
    exact ih
  | case10 parts text c rest hclose ih =>
    rw [CacheKeyTemplate.parse_loop, scan, ih]
    all_goals assumption
  | case11 parts text =>
    rw [CacheKeyTemplate.parse_loop, scan]
    rfl

/-- The loops over bytes and over characters read the same template. -/
theorem cache_key_template_parse_eq (raw : Text) :
    cache_key_template_parse raw = some (CacheKeyTemplate.parse raw) := by
  unfold cache_key_template_parse CacheKeyTemplate.parse
  rw [parse_template_start, parse_loop_eq]
  rfl

theorem cache_key_empty (parsed : CacheKeyVariable) : parse_cache_key_variable [] ≠ .ok parsed := by
  intro h
  cases h

/-- A key is rendered from the texts of its template and the values of its variables. -/
theorem cache_key_render (raw first : Text) (fields : List (Field CacheKeyVariable))
    (context : CacheKeyRenderContext) :
    CacheKeyTemplate.render ⟨raw, template_parts cache_key_syntax first fields⟩ context =
      first ++ fields.flatMap fun field =>
        (CacheKeyTemplatePart.Variable field.parsed).render context ++ field.text := by
  have hliterals : ∀ text : Text, (literals cache_key_syntax text).flatMap
      (CacheKeyTemplatePart.render context) = text := by
    intro text
    unfold literals
    split
    · rename_i hempty
      rw [hempty]
      rfl
    · exact List.append_nil text
  unfold CacheKeyTemplate.render template_parts
  rw [List.flatMap_append, hliterals, List.flatMap_assoc]
  refine congrArg (first ++ ·) (List.flatMap_congr fun field _ => ?_)
  rw [List.flatMap_cons, hliterals]
  rfl

/-! ## The template of a header -/

inductive ProxyHeaderVariable
  | Host
  | Scheme
  | ClientIp
  | RemoteAddr
  | PeerAddr
  | ForwardedFor
  | RequestHeader (name : HeaderName)
  deriving DecidableEq

inductive ProxyHeaderTemplatePart
  | Literal (value : Text)
  | Variable (variable_ : ProxyHeaderVariable)
  deriving DecidableEq

structure ProxyHeaderTemplate where
  raw : Text
  parts : List ProxyHeaderTemplatePart
  deriving DecidableEq

inductive ProxyHeaderTemplateError
  | UnclosedVariable (template : Text)
  | UnescapedClose (template : Text)
  | EmptyVariable (template : Text)
  | UnknownVariable (name : Text)
  | InvalidRequestHeader (name : Text)
  deriving DecidableEq

def ProxyHeaderTemplateError.message : ProxyHeaderTemplateError → String
  | .UnclosedVariable template =>
    "proxy header template `" ++ String.ofList template ++ "` has an unclosed variable"
  | .UnescapedClose template =>
    "proxy header template `" ++ String.ofList template ++ "` has an unescaped closing brace"
  | .EmptyVariable template =>
    "proxy header template `" ++ String.ofList template ++ "` has an empty variable"
  | .UnknownVariable name =>
    "proxy header template variable `" ++ String.ofList name ++ "` is not supported"
  | .InvalidRequestHeader name =>
    "proxy header template request header `" ++ String.ofList name ++
      "` is invalid: invalid HTTP header name"

def parse_proxy_header_variable (name : Text) :
    Except ProxyHeaderTemplateError ProxyHeaderVariable :=
  if name = "host".toList then .ok .Host
  else if name = "scheme".toList then .ok .Scheme
  else if name = "client_ip".toList then .ok .ClientIp
  else if name = "remote_addr".toList then .ok .RemoteAddr
  else if name = "peer_addr".toList then .ok .PeerAddr
  else if name = "forwarded_for".toList then .ok .ForwardedFor
  else
    match stripStart "header:".toList name with
    | none => .error (.UnknownVariable name)
    | some header_name =>
      match HeaderName.parse (String.ofList header_name) with
      | some parsed => .ok (.RequestHeader parsed)
      | none => .error (.InvalidRequestHeader header_name)

def proxy_header_syntax :
    TemplateSyntax ProxyHeaderTemplateError ProxyHeaderVariable ProxyHeaderTemplatePart where
  UnclosedVariable := .UnclosedVariable
  UnescapedClose := .UnescapedClose
  EmptyVariable := .EmptyVariable
  parse_variable := parse_proxy_header_variable
  Literal := .Literal
  Variable := .Variable

def ProxyHeaderTemplate.parse (raw : Text) :
    Option (Except ProxyHeaderTemplateError ProxyHeaderTemplate) :=
  (parse_template proxy_header_syntax raw 0 [] []).map fun parsed =>
    parsed.map fun parts => ⟨raw, parts⟩

structure ProxyHeaderRenderContext where
  original_headers : HeaderMap
  original_host : Option HeaderValue
  upstream_authority : Text
  client_ip : IpAddr
  peer_addr : SocketAddr
  forwarded_for : Text
  scheme : Text

def ProxyHeaderRenderContext.host_value (context : ProxyHeaderRenderContext) : Text :=
  (context.original_host.bind HeaderValue.to_str).getD context.upstream_authority

def ProxyHeaderVariable.append_to (context : ProxyHeaderRenderContext) (rendered : List UInt8) :
    ProxyHeaderVariable → List UInt8
  | .Host => rendered ++ as_bytes context.host_value
  | .Scheme => rendered ++ as_bytes context.scheme
  | .ClientIp | .RemoteAddr => rendered ++ as_bytes context.client_ip.to_string
  | .PeerAddr => rendered ++ as_bytes context.peer_addr.to_string
  | .ForwardedFor => rendered ++ as_bytes context.forwarded_for
  | .RequestHeader name =>
    match context.original_headers.get name with
    | some value => rendered ++ value.as_bytes
    | none => rendered

def ProxyHeaderTemplatePart.append_to (context : ProxyHeaderRenderContext)
    (rendered : List UInt8) : ProxyHeaderTemplatePart → List UInt8
  | .Literal value => rendered ++ as_bytes value
  | .Variable variable_ => variable_.append_to context rendered

/-- Nothing is rendered where the bytes are no value of a header. -/
def ProxyHeaderTemplate.render (template : ProxyHeaderTemplate)
    (context : ProxyHeaderRenderContext) : Option HeaderValue :=
  HeaderValue.from_bytes
    (template.parts.foldl (fun rendered part => part.append_to context rendered) [])

theorem proxy_header_empty (parsed : ProxyHeaderVariable) :
    parse_proxy_header_variable [] ≠ .ok parsed := by
  intro h
  cases h

theorem ProxyHeaderVariable.append_to_eq (context : ProxyHeaderRenderContext)
    (rendered : List UInt8) (name : ProxyHeaderVariable) :
    name.append_to context rendered = rendered ++ name.append_to context [] := by
  cases name with
  | RequestHeader name =>
    unfold append_to
    dsimp only
    cases context.original_headers.get name with
    | none => exact (List.append_nil rendered).symm
    | some value => rfl
  | _ => rfl

theorem foldl_append_to (context : ProxyHeaderRenderContext) (parts : List ProxyHeaderTemplatePart)
    (rendered : List UInt8) :
    parts.foldl (fun rendered part => part.append_to context rendered) rendered =
      rendered ++ parts.flatMap fun part => part.append_to context [] := by
  induction parts generalizing rendered with
  | nil => exact (List.append_nil rendered).symm
  | cons part parts ih =>
    have hpart : part.append_to context rendered = rendered ++ part.append_to context [] := by
      cases part with
      | Literal value => rfl
      | Variable name => exact name.append_to_eq context rendered
    rw [List.foldl_cons, ih, hpart, List.flatMap_cons, List.append_assoc]

/-- A header is rendered from the texts of its template and the values of its variables. -/
theorem proxy_header_render (raw first : Text) (fields : List (Field ProxyHeaderVariable))
    (context : ProxyHeaderRenderContext) :
    ProxyHeaderTemplate.render ⟨raw, template_parts proxy_header_syntax first fields⟩ context =
      HeaderValue.from_bytes (as_bytes first ++ fields.flatMap fun field =>
        field.parsed.append_to context [] ++ as_bytes field.text) := by
  have hliterals : ∀ text : Text, ((literals proxy_header_syntax text).flatMap fun part =>
      part.append_to context []) = as_bytes text := by
    intro text
    unfold literals
    split
    · rename_i hempty
      rw [hempty]
      rfl
    · exact List.append_nil _
  unfold ProxyHeaderTemplate.render template_parts
  rw [foldl_append_to, List.nil_append, List.flatMap_append, hliterals, List.flatMap_assoc]
  refine congrArg (fun bytes => HeaderValue.from_bytes (as_bytes first ++ bytes))
    (List.flatMap_congr fun field _ => ?_)
  rw [List.flatMap_cons, hliterals]
  rfl

/-! ## Reading back -/

/-- What is written into a template is read back and rendered, by both parsers: a text with its
braces doubled as the text, and texts and variables as these parts. On every template both parsers
end and cut no character, and both go by the same pieces and the same fault of the braces, each up
to the first variable that it does not know. -/
theorem templates_read_back :
    (∀ s : Text,
      (∃ template, cache_key_template_parse (escape s) = some (.ok template) ∧
        ∀ context, template.render context = s) ∧
      ∃ template, ProxyHeaderTemplate.parse (escape s) = some (.ok template) ∧
        ∀ context, template.render context = HeaderValue.from_bytes (as_bytes s)) ∧
    (∀ (first : Text) (fields : List (Field CacheKeyVariable)),
      (∀ field ∈ fields, Writes cache_key_syntax field) →
      ∃ template : CacheKeyTemplate, template.parts = template_parts cache_key_syntax first fields ∧
        cache_key_template_parse (template_text first fields) = some (.ok template) ∧
        ∀ context, template.render context = first ++ fields.flatMap fun field =>
          (CacheKeyTemplatePart.Variable field.parsed).render context ++ field.text) ∧
    (∀ (first : Text) (fields : List (Field ProxyHeaderVariable)),
      (∀ field ∈ fields, Writes proxy_header_syntax field) →
      ∃ template : ProxyHeaderTemplate,
        template.parts = template_parts proxy_header_syntax first fields ∧
        ProxyHeaderTemplate.parse (template_text first fields) = some (.ok template) ∧
        ∀ context, template.render context =
          HeaderValue.from_bytes (as_bytes first ++ fields.flatMap fun field =>
            field.parsed.append_to context [] ++ as_bytes field.text)) ∧
    ∀ raw : Text, ∃ pieces error, (error = none ↔ Braced raw) ∧
      ReadsBraces cache_key_syntax raw pieces error (cache_key_template_parse raw) ∧
      ReadsBraces proxy_header_syntax raw pieces error (ProxyHeaderTemplate.parse raw) ∧
      (cache_key_template_parse raw).isSome ∧ (ProxyHeaderTemplate.parse raw).isSome := by
  have hcache : ∀ (first : Text) (fields : List (Field CacheKeyVariable)),
      (∀ field ∈ fields, Writes cache_key_syntax field) →
      cache_key_template_parse (template_text first fields) = some (.ok
        ⟨template_text first fields, template_parts cache_key_syntax first fields⟩) := by
    intro first fields hfields
    unfold cache_key_template_parse
    rw [parse_written _ cache_key_empty hfields]
    rfl
  have hproxy : ∀ (first : Text) (fields : List (Field ProxyHeaderVariable)),
      (∀ field ∈ fields, Writes proxy_header_syntax field) →
      ProxyHeaderTemplate.parse (template_text first fields) = some (.ok
        ⟨template_text first fields, template_parts proxy_header_syntax first fields⟩) := by
    intro first fields hfields
    unfold ProxyHeaderTemplate.parse
    rw [parse_written _ proxy_header_empty hfields]
    rfl
  have hescape : ∀ (V : Type) (s : Text), escape s = template_text s ([] : List (Field V)) := by
    intro V s
    exact (List.append_nil _).symm
  refine ⟨fun s => ⟨?_, ?_⟩, ?_, ?_, ?_⟩
  · rw [hescape CacheKeyVariable]
    refine ⟨_, hcache s [] nofun, fun context => ?_⟩
    rw [cache_key_render]
    exact List.append_nil s
  · rw [hescape ProxyHeaderVariable]
    refine ⟨_, hproxy s [] nofun, fun context => ?_⟩
    rw [proxy_header_render, List.flatMap_nil, List.append_nil]
  · intro first fields hfields
    exact ⟨_, rfl, hcache first fields hfields, cache_key_render _ first fields⟩
  · intro first fields hfields
    exact ⟨_, rfl, hproxy first fields hfields, proxy_header_render _ first fields⟩
  · intro raw
    refine ⟨(scan (.inl []) raw).1, (scan (.inl []) raw).2, scan_valid_iff raw,
      parse_template_reads cache_key_syntax _ raw, parse_template_reads proxy_header_syntax _ raw,
      ?_, ?_⟩
    · rw [cache_key_template_parse_eq]
      rfl
    · unfold ProxyHeaderTemplate.parse
      rw [parse_template_start]
      rfl

theorem templates_read_back_uri :
    ∃ template : CacheKeyTemplate, template.parts = [.Literal ['\x7b'], .Variable .Uri] ∧
      cache_key_template_parse "\x7b\x7b\x7buri\x7d".toList = some (.ok template) := by
  have hwrites : ∀ field ∈ [(⟨"uri".toList, .Uri, []⟩ : Field CacheKeyVariable)],
      Writes cache_key_syntax field := by
    intro field hfield
    rw [List.mem_singleton.mp hfield]
    exact ⟨rfl, by decide, by decide⟩
  obtain ⟨template, hparts, hparse, -⟩ := templates_read_back.2.1 ['\x7b'] _ hwrites
  exact ⟨template, hparts, hparse⟩

/-- A text that is no value of a header is not rendered; and an unknown variable hides a fault
behind it. -/
theorem template_of_newline :
    ProxyHeaderTemplate.parse (escape ['\n']) = some (.ok ⟨['\n'], [.Literal ['\n']]⟩) ∧
      ProxyHeaderTemplate.render ⟨['\n'], [.Literal ['\n']]⟩
        ⟨[], none, [], .V4 0, ⟨.V4 0, 0⟩, [], []⟩ = none ∧
      cache_key_template_parse "\x7buri\x7d \x7d".toList =
        some (.error (.UnescapedClose "\x7buri\x7d \x7d".toList)) ∧
      ProxyHeaderTemplate.parse "\x7buri\x7d \x7d".toList =
        some (.error (.UnknownVariable "uri".toList)) := by
  refine ⟨?_, by decide, ?_, ?_⟩
  · unfold ProxyHeaderTemplate.parse
    rw [parse_template_start]
    rfl
  · rw [cache_key_template_parse_eq]
    rfl
  · unfold ProxyHeaderTemplate.parse
    rw [parse_template_start]
    rfl

end rginx.config
