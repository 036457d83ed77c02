-- Responses that a store refuses for their headers, from `cache/policy.rs`, and the refused responses
-- that a zone remembers as passes, from `cache/store/helpers.rs`. Both read the same headers, and
-- `Cache-Control` each in its own way.
import Rginx.CacheKeys
import Rginx.StaleServing

open rust_text

namespace rginx.cache

/-! ## The tests of a response -/

def SET_COOKIE : HeaderName := ⟨"set-cookie", by decide⟩

/-- The fields of `CacheStoreContext` that the tests read, with those of its policy that
`RouteCachePolicy` leaves out; `max_entry_bytes` is of its zone. -/
structure StoreContext extends CacheStoreContext where
  request : CacheRequest
  statuses : List StatusCode
  pass_ttl : Option Nat
  max_entry_bytes : Nat

structure ResponseBodySize where
  exact : Option Nat
  lower : Nat
  upper : Option Nat
  deriving DecidableEq, Repr

def ignores_header (context : StoreContext) (header : CacheIgnoreHeader) : Bool :=
  context.policy.ignore_headers.contains header

def status_is_cacheable (context : StoreContext) (status : StatusCode)
    (has_cacheable_request_range : Bool) : Bool :=
  context.statuses.contains status ||
    (status = PARTIAL_CONTENT && has_cacheable_request_range)

def vary_is_supported (context : StoreContext) (headers : HeaderMap) : Bool :=
  ignores_header context .Vary || (vary_headers headers).isSome

def response_is_grpc (headers : HeaderMap) : Bool := (headers.get_str CONTENT_TYPE).any is_grpc

/-- A `usize` is a number of 64 bits. -/
def parse_content_length (headers : HeaderMap) : Option Nat :=
  (headers.get_str CONTENT_LENGTH).bind parse_u64

def response_is_storable_with_size (context : StoreContext) (status : StatusCode)
    (headers : HeaderMap) (body_size : ResponseBodySize) : Bool :=
  let requested_range := cacheable_range_request context.request context.policy
  if !status_is_cacheable context status requested_range.isSome then false
  else if requested_range.isSome ∧ status ≠ PARTIAL_CONTENT then false
  else if status = PARTIAL_CONTENT ∧ (requested_range.isNone ∨
      !response_content_range_matches_request context.request context.policy headers) then false
  else if status ≠ PARTIAL_CONTENT ∧ headers.contains_key CONTENT_RANGE then false
  else if !ignores_header context .SetCookie ∧ headers.contains_key SET_COOKIE then false
  else if !vary_is_supported context headers then false
  else if response_is_grpc headers then false
  else if !ignores_header context .CacheControl ∧
      cache_control_contains headers ["no-store".toList, "private".toList] then false
  else if (parse_content_length headers).any (context.max_entry_bytes < ·) then false
  else if body_size.exact.any (context.max_entry_bytes < ·) then false
  else if context.max_entry_bytes < body_size.lower ∨
      body_size.upper.any (context.max_entry_bytes < ·) then false
  else true

def should_remember_hit_for_pass (context : StoreContext) (headers : HeaderMap) : Bool :=
  context.pass_ttl.isSome &&
    ((!ignores_header context .CacheControl &&
        (headers.get_str CACHE_CONTROL).any fun value =>
          ((split ',' (to_ascii_lowercase value)).map trim).any fun token =>
            token = "no-store".toList || token = "private".toList) ||
      (!ignores_header context .SetCookie && headers.contains_key SET_COOKIE) ||
      (!ignores_header context .Vary && (vary_headers headers).isNone) ||
      (headers.get_str CONTENT_TYPE).any is_grpc)

/-! ## Directives -/

/-- The name of a directive, without its argument. -/
def directive_name (directive : Text) : Text :=
  trim (((split_once '=' directive).map Prod.fst).getD directive)

/-- A directive that forbids to store the response. -/
def Forbids (directive : Text) : Prop :=
  eq_ignore_ascii_case (directive_name directive) "no-store".toList ∨
    eq_ignore_ascii_case (directive_name directive) "private".toList

instance (directive : Text) : Decidable (Forbids directive) :=
  inferInstanceAs (Decidable (_ ∨ _))

/-- The store looks for the name of a directive in every line that is a text. -/
theorem cache_control_forbids_iff (headers : HeaderMap) :
    cache_control_contains headers ["no-store".toList, "private".toList] = true ↔
      ∃ value ∈ headers.get_all CACHE_CONTROL, ∃ text, value.to_str = some text ∧
        ∃ directive ∈ split ',' text, Forbids directive := by
  unfold cache_control_contains
  simp only [List.any_eq_true, List.mem_filterMap, List.any_cons, List.any_nil, Bool.or_false,
    Bool.or_eq_true]
  constructor
  · rintro ⟨text, ⟨value, hvalue, htext⟩, directive, hdirective, hforbids⟩
    exact ⟨value, hvalue, text, htext, directive, hdirective, hforbids⟩
  · rintro ⟨value, hvalue, text, htext, directive, hdirective, hforbids⟩
    exact ⟨text, ⟨value, hvalue, htext⟩, directive, hdirective, hforbids⟩

/-- A directive is a word exactly where it has the word for its name, and no argument. -/
theorem whole_token_iff {word : Text} (hword : '=' ∉ word) (hlow : to_ascii_lowercase word = word)
    (directive : Text) :
    trim (to_ascii_lowercase directive) = word ↔
      '=' ∉ directive ∧ eq_ignore_ascii_case (directive_name directive) word := by
  unfold eq_ignore_ascii_case directive_name
  rw [trim_to_ascii_lowercase, decide_eq_true_eq, hlow]
  by_cases heq : '=' ∈ directive
  · constructor
    · intro htoken
      have hin : '=' ∈ to_ascii_lowercase (trim directive) :=
        List.mem_map.mpr ⟨'=', (mem_trim (by decide)).mpr heq, by decide⟩
      rw [htoken] at hin
      exact absurd hin hword
    · rintro ⟨hnone, -⟩
      exact absurd heq hnone
  · rw [split_once_eq_none.mpr heq]
    simp [heq]

/-- The memory looks for the bare directive, in the first line alone. -/
theorem bare_directive_iff (text : Text) :
    (((split ',' (to_ascii_lowercase text)).map trim).any fun token =>
        token = "no-store".toList || token = "private".toList) = true ↔
      ∃ directive ∈ split ',' text, Forbids directive ∧ '=' ∉ directive := by
  rw [split_lowercase (by decide), List.map_map, List.any_map, List.any_eq_true]
  refine exists_congr fun directive => and_congr_right fun _ => ?_
  rw [Function.comp_apply, Function.comp_apply, Bool.or_eq_true, decide_eq_true_eq,
    decide_eq_true_eq, whole_token_iff (by decide) (by decide),
    whole_token_iff (by decide) (by decide), Forbids]
  tauto

/-! ## The two decisions -/

/-- One of the tests on the headers of a response refuses it. -/
def RefusedForHeaders (context : StoreContext) (headers : HeaderMap) : Prop :=
  (ignores_header context .SetCookie = false ∧ headers.contains_key SET_COOKIE = true) ∨
    vary_is_supported context headers = false ∨ response_is_grpc headers = true ∨
    (ignores_header context .CacheControl = false ∧
      cache_control_contains headers ["no-store".toList, "private".toList] = true)

/-- A directive forbids to store the response, with an argument or in a line after the first, and
nothing else in the headers does. -/
structure OnlyHiddenDirective (context : StoreContext) (headers : HeaderMap) : Prop where
  counted : ignores_header context .CacheControl = false
  forbids : ∃ value ∈ headers.get_all CACHE_CONTROL, ∃ text, value.to_str = some text ∧
    ∃ directive ∈ split ',' text, Forbids directive
  hidden : ∀ text, headers.get_str CACHE_CONTROL = some text →
    ∀ directive ∈ split ',' text, Forbids directive → '=' ∈ directive
  cookie : ignores_header context .SetCookie = true ∨ headers.contains_key SET_COOKIE = false
  vary : vary_is_supported context headers = true
  grpc : response_is_grpc headers = false

/-- A response that is refused for its headers is not stored. -/
theorem not_storable_of_refused {context : StoreContext} {headers : HeaderMap}
    (h : RefusedForHeaders context headers) (status : StatusCode) (body_size : ResponseBodySize) :
    response_is_storable_with_size context status headers body_size = false := by
  unfold response_is_storable_with_size
  rcases h with ⟨hignored, hcookie⟩ | hvary | hgrpc | ⟨hignored, hcontrol⟩
  · simp only [hignored, hcookie, Bool.not_false, and_self, if_true, ite_self]
  · simp only [hvary, Bool.not_false, if_true, ite_self]
  · simp only [hgrpc, if_true, ite_self]
  · simp only [hignored, hcontrol, Bool.not_false, and_self, if_true, ite_self]

theorem should_remember_iff (context : StoreContext) (headers : HeaderMap) :
    should_remember_hit_for_pass context headers = true ↔
      context.pass_ttl.isSome = true ∧
        ((ignores_header context .CacheControl = false ∧
            ∃ text, headers.get_str CACHE_CONTROL = some text ∧
              ∃ directive ∈ split ',' text, Forbids directive ∧ '=' ∉ directive) ∨
          (ignores_header context .SetCookie = false ∧ headers.contains_key SET_COOKIE = true) ∨
          vary_is_supported context headers = false ∨ response_is_grpc headers = true) := by
  have hcontrol : (!ignores_header context .CacheControl &&
      (headers.get_str CACHE_CONTROL).any fun value =>
        ((split ',' (to_ascii_lowercase value)).map trim).any fun token =>
          token = "no-store".toList || token = "private".toList) = true ↔
        ignores_header context .CacheControl = false ∧
          ∃ text, headers.get_str CACHE_CONTROL = some text ∧
            ∃ directive ∈ split ',' text, Forbids directive ∧ '=' ∉ directive := by
    simp only [Bool.and_eq_true, Bool.not_eq_true', Option.any_eq_true, bare_directive_iff]
  have hcookie : (!ignores_header context .SetCookie && headers.contains_key SET_COOKIE) = true ↔
      ignores_header context .SetCookie = false ∧ headers.contains_key SET_COOKIE = true := by
    simp
  have hvary : (!ignores_header context .Vary && (vary_headers headers).isNone) = true ↔
      vary_is_supported context headers = false := by
    simp [vary_is_supported]
  have hgrpc : (headers.get_str CONTENT_TYPE).any is_grpc = true ↔
      response_is_grpc headers = true := Iff.rfl
  unfold should_remember_hit_for_pass
  rw [Bool.and_eq_true, Bool.or_eq_true, Bool.or_eq_true, Bool.or_eq_true, hcontrol, hcookie, hvary,
    hgrpc, or_assoc, or_assoc]

/-- What the memory remembers is refused. -/
theorem refused_of_remembered {context : StoreContext} {headers : HeaderMap}
    (h : should_remember_hit_for_pass context headers = true) :
    RefusedForHeaders context headers := by
  obtain ⟨-, ⟨hcounted, text, htext, directive, hdirective, hforbids, -⟩ | hcookie | hother⟩ :=
    (should_remember_iff context headers).mp h
  · obtain ⟨value, hvalue, hstr⟩ := Option.bind_eq_some_iff.mp htext
    refine .inr (.inr (.inr ⟨hcounted, (cache_control_forbids_iff headers).mpr ?_⟩))
    exact ⟨value, List.mem_of_head? hvalue, text, hstr, directive, hdirective, hforbids⟩
  · exact .inl hcookie
  · rcases hother with hvary | hgrpc
    · exact .inr (.inl hvary)
    · exact .inr (.inr (.inl hgrpc))

/-- The memory agrees with the store, but for a directive that only the store finds: one with an
argument, or one in a line of `Cache-Control` after the first. -/
theorem hit_for_pass_agrees_iff (context : StoreContext) (status : StatusCode)
    (headers : HeaderMap) (body_size : ResponseBodySize) (hpass : context.pass_ttl.isSome = true) :
    ((response_is_storable_with_size context status headers body_size = false ∧
        RefusedForHeaders context headers) ↔
      should_remember_hit_for_pass context headers = true) ↔
      ¬ OnlyHiddenDirective context headers := by
  constructor
  · intro hagree honly
    have hrefused : RefusedForHeaders context headers :=
      .inr (.inr (.inr ⟨honly.counted, (cache_control_forbids_iff headers).mpr honly.forbids⟩))
    have hremember := hagree.mp ⟨not_storable_of_refused hrefused status body_size, hrefused⟩
    obtain ⟨-, ⟨-, text, htext, directive, hdirective, hforbids, hbare⟩ | hcookie | hvary | hgrpc⟩ :=
      (should_remember_iff context headers).mp hremember
    · exact hbare (honly.hidden text htext directive hdirective hforbids)
    · rcases honly.cookie with hignored | hnone
      · rw [hignored] at hcookie
        cases hcookie.1
      · rw [hnone] at hcookie
        cases hcookie.2
    · rw [honly.vary] at hvary
      cases hvary
    · rw [honly.grpc] at hgrpc
      cases hgrpc
  · intro honly
    constructor
    · rintro ⟨-, hrefused⟩
      by_contra hforgotten
      rw [should_remember_iff] at hforgotten
      push Not at hforgotten
      obtain ⟨hcontrol, hcookie, hvary, hgrpc⟩ := hforgotten hpass
      rcases hrefused with hcookie' | hvary' | hgrpc' | ⟨hcounted, hforbids⟩
      · exact hcookie hcookie'.1 hcookie'.2
      · exact hvary hvary'
      · exact hgrpc hgrpc'
      · apply honly
        refine ⟨hcounted, (cache_control_forbids_iff headers).mp hforbids,
          fun text htext directive hdirective hforbids => ?_, ?_, ?_, ?_⟩
        · exact hcontrol hcounted text htext directive hdirective hforbids
        · cases hignored : ignores_header context .SetCookie with
          | true => exact .inl rfl
          | false => exact .inr (Bool.eq_false_iff.mpr (hcookie hignored))
        · exact Bool.eq_true_of_not_eq_false hvary
        · exact Bool.eq_false_iff.mpr hgrpc
    · intro hremember
      have hrefused := refused_of_remembered hremember
      exact ⟨not_storable_of_refused hrefused status body_size, hrefused⟩

/-- A route that keeps responses of status 200 and remembers the others for a second. -/
def passContext : StoreContext :=
  { policy := plainPolicy false, cached_entry := none, cached_response_head := none,
    request_forces_revalidation := false, request := plainGet [], statuses := [200],
    pass_ttl := some 1000, max_entry_bytes := 1024 }

def no_store_line : HeaderMap := [(CACHE_CONTROL, plainValue "max-age=60, no-store")]

/-- A response that is refused for its line of `Cache-Control`, and remembered. -/
theorem hit_for_pass_agrees_iff_no_store :
    response_is_storable_with_size passContext 200 no_store_line ⟨some 1, 1, some 1⟩ = false ∧
      RefusedForHeaders passContext no_store_line ∧
      should_remember_hit_for_pass passContext no_store_line = true := by
  have hrefused : RefusedForHeaders passContext no_store_line :=
    .inr (.inr (.inr ⟨rfl, by decide +kernel⟩))
  have hstorable := not_storable_of_refused hrefused 200 ⟨some 1, 1, some 1⟩
  have hshown : ¬ OnlyHiddenDirective passContext no_store_line := by
    intro honly
    exact absurd (honly.hidden "max-age=60, no-store".toList (by decide +kernel)
      " no-store".toList (by decide +kernel) (by decide +kernel)) (by decide)
  exact ⟨hstorable, hrefused, ((hit_for_pass_agrees_iff passContext 200 no_store_line
    ⟨some 1, 1, some 1⟩ rfl).mpr hshown).mp ⟨hstorable, hrefused⟩⟩

def private_argument : HeaderMap := [(CACHE_CONTROL, plainValue "private=\"x\"")]

def second_line : HeaderMap :=
  [(CACHE_CONTROL, plainValue "max-age=60"), (CACHE_CONTROL, plainValue "no-store")]

/-- A directive with an argument, and one in a second line. -/
theorem hidden_directives_are_forgotten :
    (RefusedForHeaders passContext private_argument ∧
      response_is_storable_with_size passContext 200 private_argument ⟨some 1, 1, some 1⟩ = false ∧
      should_remember_hit_for_pass passContext private_argument = false) ∧
    (RefusedForHeaders passContext second_line ∧
      response_is_storable_with_size passContext 200 second_line ⟨some 1, 1, some 1⟩ = false ∧
      should_remember_hit_for_pass passContext second_line = false) := by
  have hargument : RefusedForHeaders passContext private_argument :=
    .inr (.inr (.inr ⟨rfl, by decide +kernel⟩))
  have hsecond : RefusedForHeaders passContext second_line :=
    .inr (.inr (.inr ⟨rfl, by decide +kernel⟩))
  exact ⟨⟨hargument, not_storable_of_refused hargument 200 _, by decide +kernel⟩,
    hsecond, not_storable_of_refused hsecond 200 _, by decide +kernel⟩

end rginx.cache
