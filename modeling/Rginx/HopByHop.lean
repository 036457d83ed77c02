-- The headers that end at a hop, from `proxy/common.rs`: what of a request reaches the upstream
-- and what of a response reaches the client. A line of `Connection` that is no text is passed
-- over with all the names that stand in it.
import Rginx.Revalidation
import Rginx.SeparatedFields

open rust_text

namespace rginx.cache

def SWITCHING_PROTOCOLS : StatusCode := 101

def sanitize_response_headers (headers : HeaderMap) (preserve_upgrade : Bool) : HeaderMap :=
  let upgrade_protocol := if preserve_upgrade then headers.get UPGRADE else none
  insert_upgrade_headers (remove_hop_by_hop_headers headers preserve_upgrade) upgrade_protocol

def is_upgrade_response (status : StatusCode) (headers : HeaderMap) : Bool :=
  status = SWITCHING_PROTOCOLS && headers.contains_key UPGRADE

/-- The headers of a response at the beginning of `build_downstream_response`. -/
def sanitized_response (grpc_web_mode : Option HeaderValue) (status : StatusCode)
    (headers : HeaderMap) : HeaderMap :=
  sanitize_response_headers headers (grpc_web_mode.isNone && is_upgrade_response status headers)

/-! ## What is promised -/

/-- The bytes of a value, each as the character of its number. -/
def latin1 (value : HeaderValue) : Text := value.as_bytes.map fun b => Char.ofNat b.toNat

/-- The blanks around the items of a list of tokens. -/
def isOws (c : Char) : Bool := c = ' ' || c = '\t'

def trim_ows (s : Text) : Text := (s.dropWhile isOws).rdropWhile isOws

/-- The header of that name ends here, because a line of `Connection` has it for a token. -/
def Nominated (headers : HeaderMap) (name : HeaderName) : Prop :=
  ∃ value ∈ headers.get_all CONNECTION, ∃ item ∈ split ',' (latin1 value),
    HeaderName.parse (String.ofList (trim_ows item)) = some name

/-- The headers that end at every hop. -/
def fixed_names : List HeaderName := hop_by_hop_names ++ [KEEP_ALIVE, PROXY_CONNECTION]

/-- What the proxy sets the headers of a request to that tell whom it is for and where it comes
from; nothing for a header that it leaves alone. -/
def forwarding_own (original_host host forwarded_proto forwarded_for : Option HeaderValue)
    (name : HeaderName) : Option (List HeaderValue) :=
  if name = HOST then host.map fun value => [value]
  else if name = X_FORWARDED_PROTO then forwarded_proto.map fun value => [value]
  else if name = X_FORWARDED_HOST then original_host.map fun value => [value]
  else if name = X_FORWARDED_FOR then forwarded_for.map fun value => [value]
  else none

/-- What a request in gRPC-Web mode is rewritten to, and the trailers. -/
def trailers_own (te_trailers grpc_web_mode : Option HeaderValue) (name : HeaderName) :
    Option (List HeaderValue) :=
  if name = TE then (if grpc_web_mode.isSome then some TRAILERS else te_trailers).map
    fun value => [value]
  else if name = CONTENT_TYPE then grpc_web_mode.map fun value => [value]
  else if name = CONTENT_LENGTH ∨ name = X_GRPC_WEB then grpc_web_mode.map fun _ => []
  else none

def upgrade_own (upgrade_protocol : Option HeaderValue) (name : HeaderName) :
    Option (List HeaderValue) :=
  if name = CONNECTION then upgrade_protocol.map fun _ => [CONNECTION_UPGRADE]
  else if name = UPGRADE then upgrade_protocol.map fun value => [value]
  else none

def request_own (headers : HeaderMap) (original_host : Option HeaderValue) (target : PeerTarget)
    (name : HeaderName) : Option (List HeaderValue) :=
  (upgrade_own (extract_upgrade_protocol headers) name).or
    ((trailers_own (preserved_te_trailers_value headers) target.grpc_web_mode name).or
      (forwarding_own original_host (upstream_host original_host target)
        (HeaderValue.from_str target.forwarded_proto)
        (HeaderValue.from_str target.forwarded_for) name))

def response_own (headers : HeaderMap) (preserve_upgrade : Bool) (name : HeaderName) :
    Option (List HeaderValue) :=
  upgrade_own (if preserve_upgrade then headers.get UPGRADE else none) name

/-- The headers that are sent: what the proxy sets is there as it sets it, nothing else of what
ends at this hop is there, and all the rest is there as it came. -/
structure HandedOn (own : HeaderName → Option (List HeaderValue)) (headers sent : HeaderMap) :
    Prop where
  own_set : ∀ name values, own name = some values → sent.get_all name = values
  stripped : ∀ name, own name = none → name ∈ fixed_names ∨ Nominated headers name →
    sent.get_all name = []
  kept : ∀ name, own name = none → name ∉ fixed_names → ¬ Nominated headers name →
    sent.get_all name = headers.get_all name

/-- No header that came is named only in lines of `Connection` that are no text. -/
def NominationsRead (own : HeaderName → Option (List HeaderValue)) (headers : HeaderMap) : Prop :=
  ∀ name, Nominated headers name →
    name ∈ connection_names headers ∨ name ∈ fixed_names ∨ (own name).isSome ∨
      headers.get_all name = []

/-! ## The names that are read -/

theorem trim_eq_trim_ows {s : Text} (h : ∀ c ∈ s, isWhitespace c = isOws c) :
    trim s = trim_ows s := by
  have hdrop : ∀ {t : Text}, (∀ c ∈ t, isWhitespace c = isOws c) →
      t.dropWhile isWhitespace = t.dropWhile isOws := by
    intro t ht
    induction t with
    | nil => rfl
    | cons c t ih =>
      rw [List.dropWhile_cons, List.dropWhile_cons, ht c List.mem_cons_self,
        ih fun d hd => ht d (List.mem_cons_of_mem c hd)]
  unfold trim trim_ows List.rdropWhile
  rw [hdrop h]
  congr 1
  apply hdrop
  intro c hc
  exact h c ((List.dropWhile_sublist _).subset (List.mem_reverse.mp hc))

/-- The blanks of a visible text are spaces and tabs. -/
theorem blank_of_visible {c : Char} (h : (32 ≤ c.toNat ∧ c.toNat < 127) ∨ c.toNat = 9) :
    isWhitespace c = isOws c := by
  have hspace : c = ' ' ↔ c.toNat = 32 := Char.toNat_inj.symm
  have htab : c = '\t' ↔ c.toNat = 9 := Char.toNat_inj.symm
  unfold isWhitespace isOws
  rw [Bool.eq_iff_iff]
  simp [hspace, htab]
  omega

/-- A value that is a text gives the names that its line nominates. -/
theorem mem_names_of_to_str {value : HeaderValue} {s : Text} (h : value.to_str = some s)
    {name : HeaderName} :
    (∃ item ∈ split ',' s, HeaderName.parse (String.ofList (trim item)) = some name) ↔
      ∃ item ∈ split ',' (latin1 value),
        HeaderName.parse (String.ofList (trim_ows item)) = some name := by
  have hvisible := (visible_of_to_str h).2
  have htext : latin1 value = s := by
    unfold HeaderValue.to_str at h
    split at h
    · exact Option.some.inj h
    · cases h
  rw [htext]
  apply exists_congr
  intro item
  apply and_congr_right
  intro hitem
  have htrim : trim item = trim_ows item := trim_eq_trim_ows fun c hc =>
    blank_of_visible (hvisible c (separated_fields.mem_of_mem_splitOn hitem hc).1)
  rw [htrim]

theorem not_parse_nil (name : HeaderName) : HeaderName.parse (String.ofList []) ≠ some name := by
  intro h
  cases h

/-- The code reads the names in the lines that are texts, and in no others. -/
theorem mem_connection_names {headers : HeaderMap} {name : HeaderName} :
    name ∈ connection_names headers ↔
      ∃ value ∈ headers.get_all CONNECTION, value.to_str.isSome ∧
        ∃ item ∈ split ',' (latin1 value),
          HeaderName.parse (String.ofList (trim_ows item)) = some name := by
  unfold connection_names connection_items
  simp only [List.mem_filterMap, List.mem_filter, List.mem_flatMap, List.mem_map,
    decide_eq_true_eq]
  constructor
  · rintro ⟨_, ⟨⟨s, ⟨value, hvalue, hs⟩, item, hitem, rfl⟩, -⟩, hname⟩
    refine ⟨value, hvalue, ?_, ?_⟩
    · rw [hs]
      rfl
    · exact (mem_names_of_to_str hs).mp ⟨item, hitem, hname⟩
  · rintro ⟨value, hvalue, hread, hitem⟩
    obtain ⟨s, hs⟩ := Option.isSome_iff_exists.mp hread
    obtain ⟨item, hitem, hname⟩ := (mem_names_of_to_str hs).mpr hitem
    refine ⟨trim item, ⟨⟨s, ⟨value, hvalue, hs⟩, item, hitem, rfl⟩, ?_⟩, hname⟩
    intro hnil
    rw [hnil] at hname
    exact not_parse_nil name hname

theorem nominated_of_connection_names {headers : HeaderMap} {name : HeaderName}
    (h : name ∈ connection_names headers) : Nominated headers name := by
  obtain ⟨value, hvalue, -, hitem⟩ := mem_connection_names.mp h
  exact ⟨value, hvalue, hitem⟩

/-! ## What the steps leave of a header -/

section Steps

variable (name : HeaderName)

/-- What is left of a header where nothing is set. -/
def remaining (headers : HeaderMap) : List HeaderValue :=
  if name ∈ fixed_names ∨ name ∈ connection_names headers then [] else headers.get_all name

theorem remove_hop_by_hop_remaining (headers : HeaderMap) {preserve_upgrade : Bool}
    (hkept : preserve_upgrade = true → name ≠ CONNECTION ∧ name ≠ UPGRADE) :
    (remove_hop_by_hop_headers headers preserve_upgrade).get_all name = remaining name headers := by
  have hextra : (name ∈ (connection_names headers).filter fun name =>
      !(preserve_upgrade && name = UPGRADE)) ↔ name ∈ connection_names headers := by
    rw [List.mem_filter]
    cases preserve_upgrade <;> simp_all
  have hfixed : (name ∈ hop_by_hop_names.filter fun name =>
      !(preserve_upgrade && (name = CONNECTION || name = UPGRADE))) ↔ name ∈ hop_by_hop_names := by
    rw [List.mem_filter]
    cases preserve_upgrade <;> simp_all
  unfold remove_hop_by_hop_headers remaining fixed_names
  simp only [HeaderMap.get_all_remove, get_all_remove_all, hextra, hfixed, List.mem_append,
    List.mem_cons, List.not_mem_nil, or_false]
  grind

theorem insert_forwarding_own (headers : HeaderMap) (original_host : Option HeaderValue)
    (host forwarded_proto forwarded_for : HeaderValue) :
    (insert_forwarding_headers headers original_host host forwarded_proto
        forwarded_for).get_all name =
      (forwarding_own original_host (some host) (some forwarded_proto) (some forwarded_for)
        name).getD (headers.get_all name) := by
  have hhost : HOST ≠ X_FORWARDED_PROTO ∧ HOST ≠ X_FORWARDED_HOST ∧ HOST ≠ X_FORWARDED_FOR := by
    decide
  have hproto : X_FORWARDED_PROTO ≠ X_FORWARDED_HOST ∧ X_FORWARDED_PROTO ≠ X_FORWARDED_FOR := by
    decide
  have hfor : X_FORWARDED_HOST ≠ X_FORWARDED_FOR := by decide
  unfold insert_forwarding_headers forwarding_own
  cases original_host with
  | none =>
    simp only [HeaderMap.get_all_insert]
    grind
  | some original =>
    simp only [HeaderMap.get_all_insert]
    grind

theorem insert_trailers_own {headers : HeaderMap} (hte : headers.get_all TE = [])
    (te_trailers grpc_web_mode : Option HeaderValue) :
    (insert_trailers_headers headers te_trailers grpc_web_mode).get_all name =
      (trailers_own te_trailers grpc_web_mode name).getD (headers.get_all name) := by
  have htype : TE ≠ CONTENT_TYPE ∧ TE ≠ CONTENT_LENGTH ∧ TE ≠ X_GRPC_WEB := by decide
  have hlength : CONTENT_TYPE ≠ CONTENT_LENGTH ∧ CONTENT_TYPE ≠ X_GRPC_WEB := by decide
  unfold insert_trailers_headers trailers_own
  cases grpc_web_mode with
  | some upstream_content_type =>
    have hnone : (((headers.insert CONTENT_TYPE upstream_content_type).remove
        CONTENT_LENGTH).remove X_GRPC_WEB).get TE = none := by
      unfold HeaderMap.get
      simp [HeaderMap.get_all_remove, HeaderMap.get_all_insert, htype, hte]
    dsimp only
    rw [hnone, Option.isNone_none, if_pos rfl]
    simp only [HeaderMap.get_all_remove, HeaderMap.get_all_insert]
    grind
  | none =>
    cases te_trailers with
    | none => simp
    | some te_trailers =>
      have hnone : headers.get TE = none := by
        unfold HeaderMap.get
        rw [hte]
        rfl
      dsimp only
      rw [hnone, Option.isNone_none, if_pos rfl]
      simp only [HeaderMap.get_all_insert]
      grind

theorem insert_upgrade_own (headers : HeaderMap) (upgrade_protocol : Option HeaderValue) :
    (insert_upgrade_headers headers upgrade_protocol).get_all name =
      (upgrade_own upgrade_protocol name).getD (headers.get_all name) := by
  have hne : CONNECTION ≠ UPGRADE := by decide
  unfold insert_upgrade_headers upgrade_own
  cases upgrade_protocol with
  | none => simp
  | some protocol =>
    simp only [HeaderMap.get_all_insert]
    grind

/-- Where an upgrade is preserved, its two headers are set again. -/
theorem upgrade_restored (headers : HeaderMap) {preserve_upgrade : Bool}
    {upgrade_protocol : Option HeaderValue}
    (hsome : preserve_upgrade = true → upgrade_protocol.isSome)
    (hown : upgrade_own upgrade_protocol name = none) :
    (remove_hop_by_hop_headers headers preserve_upgrade).get_all name = remaining name headers := by
  apply remove_hop_by_hop_remaining
  intro hpreserve
  obtain ⟨protocol, rfl⟩ := Option.isSome_iff_exists.mp (hsome hpreserve)
  unfold upgrade_own at hown
  constructor
  · rintro rfl
    simp at hown
  · rintro rfl
    have hne : UPGRADE ≠ CONNECTION := by decide
    simp [hne] at hown

end Steps

/-! ## The requests and the responses -/

theorem sanitize_request_own {headers sent : HeaderMap} {original_host : Option HeaderValue}
    {target : PeerTarget} (hplain : target.proxy_header_overrides = [])
    (hsent : sanitize_request_headers headers original_host target = some sent)
    (name : HeaderName) :
    sent.get_all name =
      (request_own headers original_host target name).getD (remaining name headers) := by
  unfold sanitize_request_headers at hsent
  simp only [Option.bind_eq_bind, Option.bind_eq_some_iff, Option.pure_def] at hsent
  obtain ⟨host, hhost, proto, hproto, forwarded, hforwarded, hsent⟩ := hsent
  obtain rfl := Option.some.inj hsent
  have hte : (insert_forwarding_headers
      (remove_hop_by_hop_headers headers (extract_upgrade_protocol headers).isSome) original_host
      host proto forwarded).get_all TE = [] := by
    have hfixed : TE ∈ fixed_names := by decide
    rw [insert_forwarding_own, remove_hop_by_hop_remaining TE headers fun _ => by decide]
    unfold remaining
    rw [if_pos (.inl hfixed)]
    rfl
  unfold request_own
  rw [hplain, List.foldl_nil, insert_upgrade_own, insert_trailers_own name hte,
    insert_forwarding_own, hhost, hproto, hforwarded]
  cases hown : upgrade_own (extract_upgrade_protocol headers) name with
  | some values => rfl
  | none =>
    rw [upgrade_restored name headers id hown]
    cases trailers_own (preserved_te_trailers_value headers) target.grpc_web_mode name <;> rfl

theorem get_isSome_of_contains_key {headers : HeaderMap} {name : HeaderName}
    (h : headers.contains_key name = true) : (headers.get name).isSome := by
  obtain ⟨row, hrow, hname⟩ := List.any_eq_true.mp h
  have hvalue : row.2 ∈ headers.get_all name :=
    List.mem_map_of_mem (List.mem_filter.mpr ⟨hrow, hname⟩)
  unfold HeaderMap.get
  rw [List.isSome_head?]
  exact List.ne_nil_of_mem hvalue

theorem sanitize_response_own {headers : HeaderMap} {preserve_upgrade : Bool}
    (hupgrade : preserve_upgrade = true → headers.contains_key UPGRADE = true)
    (name : HeaderName) :
    (sanitize_response_headers headers preserve_upgrade).get_all name =
      (response_own headers preserve_upgrade name).getD (remaining name headers) := by
  have hsome : preserve_upgrade = true →
      (if preserve_upgrade then headers.get UPGRADE else none).isSome := by
    intro hpreserve
    have hpresent := hupgrade hpreserve
    rw [if_pos hpreserve]
    exact get_isSome_of_contains_key hpresent
  unfold sanitize_response_headers response_own
  dsimp only
  rw [insert_upgrade_own]
  cases hown : upgrade_own (if preserve_upgrade then headers.get UPGRADE else none) name with
  | some values => rfl
  | none => rw [upgrade_restored name headers hsome hown]

/-- Headers that hold what is left of others keep the promise exactly if no nomination went
unread. -/
theorem handed_on_iff {own : HeaderName → Option (List HeaderValue)} {headers sent : HeaderMap}
    (hsent : ∀ name, sent.get_all name = (own name).getD (remaining name headers)) :
    HandedOn own headers sent ↔ NominationsRead own headers := by
  have hplain : ∀ {name}, own name = none → sent.get_all name = remaining name headers := by
    intro name hown
    rw [hsent, hown]
    rfl
  constructor
  · intro h name hnominated
    by_cases hread : name ∈ connection_names headers
    · exact .inl hread
    by_cases hfixed : name ∈ fixed_names
    · exact .inr (.inl hfixed)
    cases hown : own name with
    | some values => exact .inr (.inr (.inl rfl))
    | none =>
      have hstripped := h.stripped name hown (.inr hnominated)
      rw [hplain hown, remaining, if_neg (not_or_intro hfixed hread)] at hstripped
      exact .inr (.inr (.inr hstripped))
  · intro h
    refine ⟨fun name values hown => ?_, fun name hown hends => ?_, fun name hown hfixed hkept => ?_⟩
    · rw [hsent, hown]
      rfl
    · rw [hplain hown]
      unfold remaining
      split
      · rfl
      · rename_i hleft
        have hnominated := hends.resolve_left (not_or.mp hleft).1
        rcases h name hnominated with hread | hfixed | hset | hempty
        · exact absurd (.inr hread) hleft
        · exact absurd (.inl hfixed) hleft
        · rw [hown] at hset
          cases hset
        · exact hempty
    · rw [hplain hown]
      unfold remaining
      rw [if_neg]
      exact not_or_intro hfixed (mt nominated_of_connection_names hkept)

/-- Hop-by-hop headers end here, except for what a line of `Connection` nominates that is no
text. -/
theorem hop_by_hop_iff (headers : HeaderMap) :
    (∀ original_host target sent, target.proxy_header_overrides = [] →
      sanitize_request_headers headers original_host target = some sent →
      (HandedOn (request_own headers original_host target) headers sent ↔
        NominationsRead (request_own headers original_host target) headers)) ∧
      ∀ preserve_upgrade, (preserve_upgrade = true → headers.contains_key UPGRADE = true) →
        (HandedOn (response_own headers preserve_upgrade) headers
            (sanitize_response_headers headers preserve_upgrade) ↔
          NominationsRead (response_own headers preserve_upgrade) headers) := by
  constructor
  · intro original_host target sent hplain hsent
    exact handed_on_iff (sanitize_request_own hplain hsent)
  · intro preserve_upgrade hupgrade
    exact handed_on_iff (sanitize_response_own hupgrade)

/-- The caller preserves an upgrade only for a response that has one. -/
theorem sanitized_response_iff (grpc_web_mode : Option HeaderValue) (status : StatusCode)
    (headers : HeaderMap) :
    HandedOn (response_own headers (grpc_web_mode.isNone && is_upgrade_response status headers))
        headers (sanitized_response grpc_web_mode status headers) ↔
      NominationsRead
        (response_own headers (grpc_web_mode.isNone && is_upgrade_response status headers))
        headers := by
  apply handed_on_iff
  unfold sanitized_response
  apply sanitize_response_own
  intro hpreserve
  unfold is_upgrade_response at hpreserve
  simp only [Bool.and_eq_true] at hpreserve
  exact hpreserve.2.2

def X_SECRET : HeaderName := ⟨"x-secret", by decide⟩

/-- `Connection: x-secret, ` and a byte that is not in ASCII. -/
def unreadable_line : HeaderMap :=
  [(CONNECTION, ⟨"x-secret, ".toList.flatMap String.utf8EncodeChar ++ [255], by decide +kernel⟩),
    (X_SECRET, plainValue "1")]

/-- `Connection: x-secret`. -/
def readable_line : HeaderMap := [(CONNECTION, plainValue "x-secret"), (X_SECRET, plainValue "1")]

theorem hop_by_hop_iff_readable :
    ∃ sent, sanitize_request_headers readable_line none plainPeer = some sent ∧
      (HandedOn (request_own readable_line none plainPeer) readable_line sent ↔
        NominationsRead (request_own readable_line none plainPeer) readable_line) ∧
      (HandedOn (response_own readable_line false) readable_line
          (sanitize_response_headers readable_line false) ↔
        NominationsRead (response_own readable_line false) readable_line) := by
  obtain ⟨sent, hsent⟩ : ∃ sent,
      sanitize_request_headers readable_line none plainPeer = some sent :=
    Option.isSome_iff_exists.mp (by decide +kernel)
  exact ⟨sent, hsent, (hop_by_hop_iff readable_line).1 none plainPeer sent rfl hsent,
    (hop_by_hop_iff readable_line).2 false (by decide)⟩

/-- The line nominates the header, and it reaches the upstream and the client. -/
theorem unread_nomination_leaks :
    Nominated unreadable_line X_SECRET ∧
      ∃ sent, sanitize_request_headers unreadable_line none plainPeer = some sent ∧
        ¬ HandedOn (request_own unreadable_line none plainPeer) unreadable_line sent ∧
        ¬ HandedOn (response_own unreadable_line false) unreadable_line
          (sanitize_response_headers unreadable_line false) := by
  have hnominated : Nominated unreadable_line X_SECRET := by
    refine ⟨_, List.mem_cons_self, "x-secret".toList, ?_, ?_⟩ <;> decide +kernel
  refine ⟨hnominated, ?_⟩
  have hsent : (sanitize_request_headers unreadable_line none plainPeer).map
      (fun sent => HeaderMap.get_all sent X_SECRET) = some [plainValue "1"] := by
    decide +kernel
  obtain ⟨sent, hsent, hvalues⟩ := Option.map_eq_some_iff.mp hsent
  refine ⟨sent, hsent, fun h => ?_, fun h => ?_⟩
  · have hstripped := h.stripped X_SECRET (by decide +kernel) (.inr hnominated)
    rw [hvalues] at hstripped
    cases hstripped
  · have hstripped := h.stripped X_SECRET (by decide +kernel) (.inr hnominated)
    revert hstripped
    decide +kernel

end rginx.cache
