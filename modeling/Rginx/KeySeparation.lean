-- When the keys of two requests keep their responses apart: the parts of a
-- key under the default template, the texts in which one part runs into the
-- next, and what a lookup selects then.
import Rginx.CacheKeys
import Rginx.CacheLookup
import Rginx.IndexRuns

open rust_text tree_maps

namespace rginx.cache

/-! ## The parts of a key -/

/-- The base key of a request. -/
def CacheRequest.cache_key (request : CacheRequest) (scheme : Text) (policy : RouteCachePolicy) :
    Text :=
  render_cache_key request.method request.uri request.headers scheme policy

/-- What a key says of the encodings and of the range. -/
def CacheRequest.key_tail (request : CacheRequest) (policy : RouteCachePolicy) : Text :=
  encoding_text request.headers ++ range_text (cacheable_range_request request policy)

theorem parse_default : CacheKeyTemplate.parse DEFAULT_CACHE_KEY =
    .ok ⟨DEFAULT_CACHE_KEY, [.Variable .Scheme, .Literal [':'], .Variable .Host, .Literal [':'],
      .Variable .Uri]⟩ := by
  decide +kernel

/-- The key of a request under the default template, from its scheme to its range. -/
theorem cache_key_default {policy : RouteCachePolicy}
    (hkey : CacheKeyTemplate.parse DEFAULT_CACHE_KEY = .ok policy.key) (request : CacheRequest)
    (scheme : Text) :
    request.cache_key scheme policy =
      scheme ++ ':' :: (cache_key_host request.uri request.headers ++ ':' :: (request.request_uri ++
        (method_text request.method policy ++ request.key_tail policy))) := by
  rw [parse_default] at hkey
  unfold CacheRequest.cache_key render_cache_key CacheKeyTemplate.render CacheRequest.key_tail
    cacheable_range_request
  rw [← Except.ok.inj hkey]
  simp [CacheKeyTemplatePart.render, CacheRequest.request_uri]

theorem method_text_default {policy : RouteCachePolicy}
    (hkey : CacheKeyTemplate.parse DEFAULT_CACHE_KEY = .ok policy.key) (method : Method) :
    method_text method policy = if policy.convert_head then []
      else CACHE_METHOD_MARK ++ (cache_key_method method policy).as_str.toList := by
  rw [parse_default] at hkey
  unfold method_text CacheKeyTemplate.references_method
  rw [← Except.ok.inj hkey]
  cases policy.convert_head <;> rfl

/-- Requests for the same scheme and host have the same key exactly when the rest is the same. -/
theorem cache_key_eq_iff {policy : RouteCachePolicy}
    (hkey : CacheKeyTemplate.parse DEFAULT_CACHE_KEY = .ok policy.key) {first second : CacheRequest}
    (scheme : Text)
    (hhost : cache_key_host first.uri first.headers = cache_key_host second.uri second.headers)
    (more more' : Text) :
    first.cache_key scheme policy ++ more = second.cache_key scheme policy ++ more' ↔
      first.request_uri ++ (method_text first.method policy ++ first.key_tail policy) ++ more =
        second.request_uri ++ (method_text second.method policy ++ second.key_tail policy) ++
          more' := by
  rw [cache_key_default hkey, cache_key_default hkey, hhost]
  simp

/-! ## The encodings and the range -/

/-- The bytes that are cached for a request. -/
def CacheableRangeRequest.bounds (range : CacheableRangeRequest) : Nat × Nat :=
  (range.cache_start, range.cache_end)

theorem isUpper_digit {c : Char} (h : c.isDigit) : c.isUpper = false := by
  simp only [Char.isDigit, Bool.and_eq_true, decide_eq_true_eq] at h
  have hhi : c.toNat ≤ 57 := h.2
  simp only [Char.isUpper, decide_eq_false_iff_not]
  intro hup
  have hlo : 65 ≤ c.toNat := hup.1
  omega

/-- No capital letter stands after the method. -/
theorem isUpper_of_mem_key_tail {request : CacheRequest} {policy : RouteCachePolicy} {c : Char}
    (h : c ∈ request.key_tail policy) : c.isUpper = false := by
  unfold CacheRequest.key_tail at h
  rcases List.mem_append.mp h with h | h
  · unfold encoding_text at h
    split at h
    · rename_i text htext
      rcases List.mem_append.mp h with h | h
      · simp only [AE_MARK, List.mem_cons, List.not_mem_nil, or_false] at h
        rcases h with rfl | rfl | rfl | rfl <;> decide
      · exact isUpper_of_mem_accept_encoding htext h
    · cases h
  · unfold range_text at h
    split at h
    · rename_i range _
      rcases List.mem_append.mp h with h | h
      · simp only [RANGE_MARK, List.mem_cons, List.not_mem_nil, or_false] at h
        rcases h with rfl | rfl | rfl | rfl | rfl | rfl | rfl <;> decide
      · rcases List.mem_append.mp h with h | h
        · exact isUpper_digit (isDigit_of_mem_decimal h)
        · rcases List.mem_cons.mp h with rfl | h
          · decide
          · exact isUpper_digit (isDigit_of_mem_decimal h)
    · cases h

/-- The text of a range names its bounds. -/
theorem range_text_inj {before before' : Text} {range range' : CacheableRangeRequest}
    (h : before ++ range_text (some range) = before' ++ range_text (some range')) :
    before = before' ∧ range.bounds = range'.bounds := by
  have hbar : ∀ range : CacheableRangeRequest,
      '|' ∉ ['r', 'a', 'n', 'g', 'e', ':'] ++ (decimal range.cache_start ++ '-' :: decimal range.cache_end) := by
    intro range
    have hnone : ∀ n, '|' ∉ decimal n := notMem_decimal rfl
    simp [hnone]
  have hdash : ∀ n, '-' ∉ decimal n := notMem_decimal rfl
  obtain ⟨hbefore, htext⟩ := append_cons_inj (hbar range) (hbar range') h
  obtain ⟨hstart, hend⟩ := append_cons_inj (hdash _) (hdash _) (List.append_cancel_left htext)
  exact ⟨hbefore, Prod.ext (decimal_injective hstart) (decimal_injective hend)⟩

/-- The encodings of the first request end with the text of the range of the second. -/
def RangeInEncoding (policy : RouteCachePolicy) (first second : CacheRequest) : Prop :=
  cacheable_range_request first policy = none ∧
    ∃ accept_encoding range, normalized_accept_encoding second.headers = some accept_encoding ∧
      cacheable_range_request second policy = some range ∧
      normalized_accept_encoding first.headers = some (accept_encoding ++ range_text (some range))

/-- The text of a range does not start like the text of an encoding. -/
theorem range_text_ne_encoding (range : Option CacheableRangeRequest) (text : Text) :
    range_text range ≠ AE_MARK ++ text := by
  cases range with
  | none => simp [range_text, AE_MARK]
  | some range => simp [range_text, RANGE_MARK, AE_MARK]

theorem encoding_and_range {encoding encoding' : Option Text} {range range' :
    Option CacheableRangeRequest}
    (h : (match encoding with | some text => AE_MARK ++ text | none => []) ++
        range_text range =
      (match encoding' with | some text => AE_MARK ++ text | none => []) ++
        range_text range') :
    (encoding = encoding' ∧ range.map (·.bounds) = range'.map (·.bounds)) ∨
      (range = none ∧ ∃ text found, encoding' = some text ∧ range' = some found ∧
        encoding = some (text ++ range_text (some found))) ∨
      (range' = none ∧ ∃ text found, encoding = some text ∧ range = some found ∧
        encoding' = some (text ++ range_text (some found))) := by
  rcases encoding with _ | text
  · rcases encoding' with _ | text'
    · left
      refine ⟨rfl, ?_⟩
      rcases range with _ | found
      · rcases range' with _ | found'
        · rfl
        · simp [range_text, RANGE_MARK] at h
      · rcases range' with _ | found'
        · simp [range_text, RANGE_MARK] at h
        · have hsame := (range_text_inj h).2
          simp [hsame]
    · have hne := range_text_ne_encoding range (text' ++ range_text range')
      rw [← List.append_assoc] at hne
      exact absurd h hne
  · rcases encoding' with _ | text'
    · have hne := range_text_ne_encoding range' (text ++ range_text range)
      rw [← List.append_assoc] at hne
      exact absurd h.symm hne
    · dsimp only at h
      rw [List.append_assoc, List.append_assoc] at h
      have hrest := List.append_cancel_left h
      rcases range with _ | found
      · rcases range' with _ | found'
        · left
          simpa [range_text] using hrest
        · right
          left
          refine ⟨rfl, text', found', rfl, rfl, ?_⟩
          rw [← hrest]
          simp [range_text]
      · rcases range' with _ | found'
        · right
          right
          refine ⟨rfl, text, found, rfl, rfl, ?_⟩
          rw [hrest]
          simp [range_text]
        · left
          obtain ⟨htext, hbounds⟩ := range_text_inj hrest
          simp [htext, hbounds]

theorem range_text_of_bounds {range range' : Option CacheableRangeRequest}
    (h : range.map (·.bounds) = range'.map (·.bounds)) : range_text range = range_text range' := by
  rcases range with _ | found
  · rcases range' with _ | found'
    · rfl
    · simp at h
  · rcases range' with _ | found'
    · simp at h
    · obtain ⟨hstart, hend⟩ := Prod.mk.inj (Option.some.inj h)
      simp [range_text, hstart, hend]

/-- What a key says after its method is the same when the encodings and the ranges are, or when
the range of the one stands in the encodings of the other. -/
theorem key_tail_eq_iff (policy : RouteCachePolicy) (first second : CacheRequest) :
    first.key_tail policy = second.key_tail policy ↔
      (normalized_accept_encoding first.headers = normalized_accept_encoding second.headers ∧
        (cacheable_range_request first policy).map (·.bounds) =
          (cacheable_range_request second policy).map (·.bounds)) ∨
      RangeInEncoding policy first second ∨ RangeInEncoding policy second first := by
  have hclash : ∀ first second, RangeInEncoding policy first second →
      first.key_tail policy = second.key_tail policy := by
    rintro first second ⟨hnone, text, range, htext, hrange, hfirst⟩
    simp [CacheRequest.key_tail, encoding_text, hnone, htext, hrange, hfirst, range_text]
  refine ⟨fun h => encoding_and_range h, ?_⟩
  rintro (⟨hencoding, hrange⟩ | h | h)
  · unfold CacheRequest.key_tail encoding_text
    rw [hencoding, range_text_of_bounds hrange]
  · exact hclash first second h
  · exact (hclash second first h).symm

/-! ## The method -/

/-- A request that the cache takes is a `GET` or a `HEAD`. -/
theorem method_of_cacheable {request : CacheRequest} {policy : RouteCachePolicy}
    (h : cache_request_bypass request policy = false) :
    request.method = .GET ∨ request.method = .HEAD := by
  by_contra hno
  rw [not_or] at hno
  unfold cache_request_bypass at h
  split at h
  · cases h
  · cases h

/-- A text with capitals ends at the last of them. -/
theorem append_eq_of_upper {left left' right right' : Text}
    (hleft : ∀ c ∈ left.getLast?, c.isUpper = true)
    (hleft' : ∀ c ∈ left'.getLast?, c.isUpper = true)
    (hright : ∀ c ∈ right, c.isUpper = false) (hright' : ∀ c ∈ right', c.isUpper = false)
    (h : left ++ right = left' ++ right') : left = left' ∧ right = right' := by
  rcases List.append_eq_append_iff.mp h with ⟨d, rfl, rfl⟩ | ⟨d, rfl, rfl⟩
  · rcases List.eq_nil_or_concat d with rfl | ⟨d, c, rfl⟩
    · simp
    · have hup := hleft' c (by simp)
      have hlow := hright c (by simp)
      rw [hup] at hlow
      cases hlow
  · rcases List.eq_nil_or_concat d with rfl | ⟨d, c, rfl⟩
    · simp
    · have hup := hleft c (by simp)
      have hlow := hright' c (by simp)
      rw [hup] at hlow
      cases hlow

/-- With the method in the key, neither the target nor the method can run into the rest. -/
theorem method_separates {policy : RouteCachePolicy}
    (hkey : CacheKeyTemplate.parse DEFAULT_CACHE_KEY = .ok policy.key)
    (hconvert : policy.convert_head = false) {first second : CacheRequest}
    (hfirst : cache_request_bypass first policy = false)
    (hsecond : cache_request_bypass second policy = false)
    (h : first.request_uri ++ (method_text first.method policy ++ first.key_tail policy) =
      second.request_uri ++ (method_text second.method policy ++ second.key_tail policy)) :
    first.request_uri = second.request_uri ∧
      cache_key_method first.method policy = cache_key_method second.method policy ∧
      first.key_tail policy = second.key_tail policy := by
  have htext : ∀ method : Method, method_text method policy =
      CACHE_METHOD_MARK ++ method.as_str.toList := by
    intro method
    rw [method_text_default hkey, hconvert]
    simp [cache_key_method, hconvert]
  have hlast : ∀ request : CacheRequest, cache_request_bypass request policy = false →
      ∀ c ∈ (request.request_uri ++ method_text request.method policy).getLast?,
        c.isUpper = true := by
    intro request hrequest c hc
    rw [htext] at hc
    rcases method_of_cacheable hrequest with hm | hm
    · rw [hm] at hc
      obtain rfl : 'T' = c := by simpa [Method.as_str] using hc
      decide
    · rw [hm] at hc
      obtain rfl : 'D' = c := by simpa [Method.as_str] using hc
      decide
  rw [← List.append_assoc, ← List.append_assoc] at h
  obtain ⟨hstart, htail⟩ := append_eq_of_upper (hlast first hfirst) (hlast second hsecond)
    (fun c hc => isUpper_of_mem_key_tail hc) (fun c hc => isUpper_of_mem_key_tail hc) h
  have hmethod : first.method = second.method ∧ first.request_uri = second.request_uri := by
    rw [htext, htext] at hstart
    have hends := congrArg List.getLast? hstart
    rcases method_of_cacheable hfirst with hm | hm
    · rcases method_of_cacheable hsecond with hm' | hm'
      · rw [hm, hm'] at hstart ⊢
        exact ⟨rfl, List.append_cancel_right hstart⟩
      · rw [hm, hm'] at hends
        simp [Method.as_str] at hends
    · rcases method_of_cacheable hsecond with hm' | hm'
      · rw [hm, hm'] at hends
        simp [Method.as_str] at hends
      · rw [hm, hm'] at hstart ⊢
        exact ⟨rfl, List.append_cancel_right hstart⟩
  exact ⟨hmethod.2, by rw [hmethod.1], htail⟩

/-! ## Requests with one key -/

/-- The requests are for the same response, as far as a key is to tell. -/
structure SameResource (policy : RouteCachePolicy) (first second : CacheRequest) : Prop where
  uri : first.request_uri = second.request_uri
  method : cache_key_method first.method policy = cache_key_method second.method policy
  encoding : normalized_accept_encoding first.headers = normalized_accept_encoding second.headers
  range : (cacheable_range_request first policy).map (·.bounds) =
    (cacheable_range_request second policy).map (·.bounds)

/-- The target of the first request is the one of the second with a text behind it, and the key of
the second goes on with that text. -/
def PathClash (policy : RouteCachePolicy) (first second : CacheRequest) : Prop :=
  ∃ text, text ≠ [] ∧ first.request_uri = second.request_uri ++ text ∧
    second.key_tail policy = text ++ first.key_tail policy

/-- Of two requests for one target, the first has the range of the second in its encodings. -/
def EncodingClash (policy : RouteCachePolicy) (first second : CacheRequest) : Prop :=
  first.request_uri = second.request_uri ∧
    cache_key_method first.method policy = cache_key_method second.method policy ∧
    RangeInEncoding policy first second

section Keys

variable {policy : RouteCachePolicy} {first second : CacheRequest}

theorem cache_key_method_of_convert (hconvert : policy.convert_head = true)
    (h : cache_request_bypass first policy = false) :
    cache_key_method first.method policy = .GET := by
  rcases method_of_cacheable h with hm | hm <;> simp [cache_key_method, hm, hconvert]

/-- The key of two requests is the same for the same resource, and in the clashes. -/
theorem cache_key_eq_cases
    (hkey : CacheKeyTemplate.parse DEFAULT_CACHE_KEY = .ok policy.key)
    (hhost : cache_key_host first.uri first.headers = cache_key_host second.uri second.headers)
    (hfirst : cache_request_bypass first policy = false)
    (hsecond : cache_request_bypass second policy = false) (scheme : Text) :
    first.cache_key scheme policy = second.cache_key scheme policy ↔
      SameResource policy first second ∨
      (policy.convert_head = true ∧
        (PathClash policy first second ∨ PathClash policy second first)) ∨
      EncodingClash policy first second ∨ EncodingClash policy second first := by
  have hiff := cache_key_eq_iff hkey scheme hhost [] []
  rw [List.append_nil, List.append_nil, List.append_nil, List.append_nil] at hiff
  rw [hiff]
  -- With the same target and the same method, the tails decide.
  have htails : first.request_uri = second.request_uri →
      cache_key_method first.method policy = cache_key_method second.method policy →
      first.key_tail policy = second.key_tail policy →
      SameResource policy first second ∨ EncodingClash policy first second ∨
        EncodingClash policy second first := by
    intro huri hmethod htail
    rcases (key_tail_eq_iff policy first second).mp htail with ⟨hencoding, hrange⟩ | h | h
    · exact .inl ⟨huri, hmethod, hencoding, hrange⟩
    · exact .inr (.inl ⟨huri, hmethod, h⟩)
    · exact .inr (.inr ⟨huri.symm, hmethod.symm, h⟩)
  have hmethods : cache_key_method first.method policy = cache_key_method second.method policy →
      method_text first.method policy = method_text second.method policy := by
    intro hmethod
    rw [method_text_default hkey, method_text_default hkey, hmethod]
  refine ⟨?_, ?_⟩
  · intro h
    cases hconvert : policy.convert_head with
    | false =>
      obtain ⟨huri, hmethod, htail⟩ := method_separates hkey hconvert hfirst hsecond h
      rcases htails huri hmethod htail with h | h | h
      · exact .inl h
      · exact .inr (.inr (.inl h))
      · exact .inr (.inr (.inr h))
    | true =>
      have hmethod := (cache_key_method_of_convert hconvert hfirst).trans
        (cache_key_method_of_convert hconvert hsecond).symm
      simp only [method_text_default hkey, hconvert, ↓reduceIte, List.nil_append] at h
      have hsame : first.request_uri = second.request_uri →
          first.key_tail policy = second.key_tail policy →
          SameResource policy first second ∨
            (true = true ∧ (PathClash policy first second ∨ PathClash policy second first)) ∨
            EncodingClash policy first second ∨ EncodingClash policy second first := by
        intro huri htail
        rcases htails huri hmethod htail with h | h | h
        · exact .inl h
        · exact .inr (.inr (.inl h))
        · exact .inr (.inr (.inr h))
      rcases List.append_eq_append_iff.mp h with ⟨text, huri, htail⟩ | ⟨text, huri, htail⟩
      · by_cases hnil : text = []
        · subst hnil
          exact hsame (by simpa using huri.symm) (by simpa using htail)
        · exact .inr (.inl ⟨rfl, .inr ⟨text, hnil, huri, htail⟩⟩)
      · by_cases hnil : text = []
        · subst hnil
          exact hsame (by simpa using huri) (by simpa using htail.symm)
        · exact .inr (.inl ⟨rfl, .inl ⟨text, hnil, huri, htail⟩⟩)
  · rintro (h | ⟨hconvert, h⟩ | h | h)
    · rw [h.uri, hmethods h.method,
        (key_tail_eq_iff policy first second).mpr (.inl ⟨h.encoding, h.range⟩)]
    · simp only [method_text_default hkey, hconvert, ↓reduceIte, List.nil_append]
      rcases h with ⟨text, -, huri, htail⟩ | ⟨text, -, huri, htail⟩
      · rw [huri, htail, List.append_assoc]
      · rw [huri, htail, List.append_assoc]
    · rw [h.1, hmethods h.2.1, (key_tail_eq_iff policy first second).mpr (.inr (.inl h.2.2))]
    · rw [h.1, hmethods h.2.1.symm,
        (key_tail_eq_iff policy first second).mpr (.inr (.inr h.2.2))]

end Keys

/-! ## What a lookup selects -/

/-- A lookup selects an entry of its own base key, or one whose key is the base key. -/
theorem matching_variant_key_cases {index : CacheIndex} (hok : index.Ok) {base_key key : String}
    {request : CacheRequest} (h : matching_variant_key index base_key request = some key)
    {entry : CacheIndexEntry} (he : index.entries[key]? = some entry) :
    entry.base_key = base_key ∨
      (key = base_key ∧ matches_vary_headers request entry.vary = true) := by
  unfold matching_variant_key at h
  split at h
  · rename_i hfound
    obtain rfl := Option.some.inj h
    rw [Bool.and_eq_true, he] at hfound
    exact .inr ⟨rfl, by simpa using hfound.2⟩
  · have hmem := List.mem_of_find?_eq_some h
    rw [← getD_list_eq] at hmem
    obtain ⟨entry', he', hbase⟩ := (hok.variants.mem base_key key).mp hmem
    rw [he] at he'
    obtain rfl := Option.some.inj he'
    exact .inl hbase

/-- The index states that a zone can be in. -/
def IndexReachable {β : Type} (json : SerdeJson β) (index : CacheIndex) : Prop :=
  ∃ start first calls, IndexStart.load json start = .ok first ∧ index = runCalls first calls

theorem IndexReachable.ok {β : Type} {json : SerdeJson β} {index : CacheIndex}
    (h : IndexReachable json index) : index.Ok := by
  obtain ⟨start, first, calls, hstart, rfl⟩ := h
  exact runCalls_ok (IndexStart.load_ok hstart) calls

/-- The first response of a zone. -/
def storedIndex (key : String) (entry : CacheIndexEntry) : CacheIndex :=
  runCalls CacheIndex.default [.zone (.store ∅ none key entry none)]

theorem storedIndex_reachable {β : Type} (json : SerdeJson β) (key : String)
    (entry : CacheIndexEntry) : IndexReachable json (storedIndex key entry) :=
  ⟨.empty, CacheIndex.default, _, rfl, rfl⟩

theorem storedIndex_entries (key : String) (entry : CacheIndexEntry) :
    (storedIndex key entry).entries = (∅ : Map CacheIndexEntry).insert key entry := by
  have hnone : variant_keys_with_different_dimensions {} entry key = [] := by
    simp [variant_keys_with_different_dimensions]
  simp [storedIndex, runCalls, IndexCall.run, LocalCall.run, update_index_after_store,
    replaced_keys, drop_entries, hnone, eviction_candidates, CacheIndex.insert_with_accounts,
    CacheIndex.insert_entry, CacheIndex.schedule_entry_access, CacheIndex.unschedule_entry_access,
    CacheIndex.remove_admission_count, CacheIndex.default]

/-- The first response is selected under its own key by the requests that it does not vary for. -/
theorem storedIndex_selected {key : String} {entry : CacheIndexEntry} {request : CacheRequest}
    (hvary : matches_vary_headers request entry.vary = true) :
    matching_variant_key (storedIndex key entry) key request = some key := by
  have hentry : (storedIndex key entry).entries[key]? = some entry := by
    rw [storedIndex_entries]
    simp
  have hok := (storedIndex_reachable plainJson key entry).ok
  unfold matching_variant_key
  by_cases hlisted : (storedIndex key entry).variants.contains key = true
  · -- The key stands in its own list, and alone.
    have hmem : ∀ k ∈ (storedIndex key entry).variants[key]?.getD [], k = key := by
      intro k hk
      rw [← getD_list_eq] at hk
      obtain ⟨entry', he', -⟩ := (hok.variants.mem key k).mp hk
      rw [storedIndex_entries, getElem?_insert_eq] at he'
      split at he'
      · rename_i hsame
        exact hsame.symm
      · simp at he'
    obtain ⟨k, entry', he', hbase⟩ := (hok.variants.contains_iff key).mp hlisted
    have hin := (hok.variants.mem key k).mpr ⟨entry', he', hbase⟩
    rw [getD_list_eq] at hin
    rw [hlisted, Bool.not_true, Bool.false_and, if_neg (by simp)]
    rcases hkeys : (storedIndex key entry).variants[key]?.getD [] with _ | ⟨first, rest⟩
    · rw [hkeys] at hin
      cases hin
    · rw [hkeys] at hmem
      obtain rfl := hmem first List.mem_cons_self
      simp [hentry, hvary]
  · rw [if_pos]
    simp [hlisted, hentry, hvary]

/-! ## The law -/

section Law

variable {β : Type} (json : SerdeJson β) (cache_bytes_hash : List UInt8 → Text)
  (policy : RouteCachePolicy) (scheme : Text)

/-- In some state of the index, a lookup for the second request selects a response that was
stored for the first. -/
def SelectedFor (first second : CacheRequest) : Prop :=
  ∃ index, IndexReachable json index ∧ ∃ headers key entry, index.entries[key]? = some entry ∧
    entry.base_key = String.ofList (first.cache_key scheme policy) ∧
    (key.toList, entry.vary) = cache_final_key_for_response cache_bytes_hash policy
      (first.cache_key scheme policy) first headers ∧
    matching_variant_key index (String.ofList (second.cache_key scheme policy)) second = some key

/-- The target, the method, the encodings and the range of the second request make up the key of a
variant of the first, and the second request is one for that variant. -/
def VariantClash (first second : CacheRequest) : Prop :=
  ∃ headers, cache_vary_values policy first headers ≠ [] ∧
    matches_vary_headers second (cache_vary_values policy first headers) = true ∧
    second.request_uri ++ (method_text second.method policy ++ second.key_tail policy) =
      first.request_uri ++ (method_text first.method policy ++ first.key_tail policy) ++
        (VARY_MARK ++ cache_bytes_hash (vary_signature (cache_vary_values policy first headers)))

variable {json cache_bytes_hash policy scheme} {first second : CacheRequest}

theorem cache_vary_values_ne_nil {headers : HeaderMap}
    (h : cache_vary_values policy first headers ≠ []) :
    cache_final_key_for_response cache_bytes_hash policy (first.cache_key scheme policy) first
        headers =
      (first.cache_key scheme policy ++ VARY_MARK ++
        cache_bytes_hash (vary_signature (cache_vary_values policy first headers)),
        cache_vary_values policy first headers) := by
  have hsome : (vary_headers headers).isSome = true := by
    unfold cache_vary_values at h
    split at h
    · exact absurd rfl h
    · rcases hnames : vary_headers headers with _ | names
      · rw [hnames] at h
        simp at h
      · rfl
  simp [cache_final_key_for_response, hsome, cache_variant_key, h]

/-- A response of one request is selected for another with the same key, or in a clash with its
variants. -/
theorem selectedFor_cases
    (hkey : CacheKeyTemplate.parse DEFAULT_CACHE_KEY = .ok policy.key)
    (hhost : cache_key_host first.uri first.headers = cache_key_host second.uri second.headers)
    (h : SelectedFor json cache_bytes_hash policy scheme first second) :
    first.cache_key scheme policy = second.cache_key scheme policy ∨
      VariantClash cache_bytes_hash policy first second := by
  obtain ⟨index, hreach, headers, key, entry, he, hbase, hfinal, hselected⟩ := h
  obtain ⟨hfinalkey, hvary⟩ := Prod.mk.inj hfinal
  rcases matching_variant_key_cases hreach.ok hselected he with hown | ⟨rfl, hmatch⟩
  · left
    exact String.ofList_injective (hbase.symm.trans hown)
  · by_cases hnil : cache_vary_values policy first headers = []
    · left
      rw [String.toList_ofList] at hfinalkey
      rw [hfinalkey]
      simp [hnil, cache_variant_key]
    · right
      rw [cache_vary_values_ne_nil hnil] at hfinal
      obtain ⟨hsecond, hvary⟩ := Prod.mk.inj hfinal
      refine ⟨headers, hnil, hvary ▸ hmatch, ?_⟩
      rw [String.toList_ofList, List.append_assoc] at hsecond
      have hiff := (cache_key_eq_iff hkey scheme hhost.symm [] _).mp
        ((List.append_nil _).trans hsecond)
      rw [List.append_nil] at hiff
      exact hiff

variable (scheme) in
/-- In a clash with a variant, the key of the second request is the key of that variant. -/
theorem VariantClash.key_eq (hkey : CacheKeyTemplate.parse DEFAULT_CACHE_KEY = .ok policy.key)
    (hhost : cache_key_host first.uri first.headers = cache_key_host second.uri second.headers)
    {headers : HeaderMap}
    (h : second.request_uri ++ (method_text second.method policy ++ second.key_tail policy) =
      first.request_uri ++ (method_text first.method policy ++ first.key_tail policy) ++
        (VARY_MARK ++
          cache_bytes_hash (vary_signature (cache_vary_values policy first headers)))) :
    second.cache_key scheme policy = first.cache_key scheme policy ++ VARY_MARK ++
      cache_bytes_hash (vary_signature (cache_vary_values policy first headers)) := by
  have hiff := (cache_key_eq_iff hkey scheme hhost.symm [] (VARY_MARK ++
    cache_bytes_hash (vary_signature (cache_vary_values policy first headers)))).mpr
      (by rw [List.append_nil]; exact h)
  rw [List.append_nil, ← List.append_assoc] at hiff
  exact hiff

variable (json scheme) in
/-- A clash with a variant does select a response, already in the first index with one. -/
theorem VariantClash.selectedFor
    (hkey : CacheKeyTemplate.parse DEFAULT_CACHE_KEY = .ok policy.key)
    (hhost : cache_key_host first.uri first.headers = cache_key_host second.uri second.headers)
    (h : VariantClash cache_bytes_hash policy first second) :
    SelectedFor json cache_bytes_hash policy scheme first second ∧
      first.cache_key scheme policy ≠ second.cache_key scheme policy := by
  obtain ⟨headers, hvary, hmatch, htext⟩ := h
  have hsecond := VariantClash.key_eq scheme hkey hhost htext
  obtain ⟨entry, hbase, hentryvary⟩ : ∃ entry : CacheIndexEntry,
      entry.base_key = String.ofList (first.cache_key scheme policy) ∧
      entry.vary = cache_vary_values policy first headers :=
    ⟨{ tenBytes "" 0 with
        base_key := String.ofList (first.cache_key scheme policy)
        vary := cache_vary_values policy first headers }, rfl, rfl⟩
  refine ⟨⟨storedIndex (String.ofList (second.cache_key scheme policy)) entry,
    storedIndex_reachable json _ entry, headers, _, entry, ?_, hbase, ?_,
    storedIndex_selected (hentryvary ▸ hmatch)⟩, ?_⟩
  · rw [storedIndex_entries]
    simp
  · rw [cache_vary_values_ne_nil hvary, String.toList_ofList, hsecond, hentryvary]
  · intro hsame
    have hlength := congrArg List.length (hsame.trans hsecond)
    simp [VARY_MARK] at hlength

/-- Under the default template, two requests that the cache takes, for one scheme and host, have
their keys and their responses kept apart unless they are for the same resource, in these cases
and no others: no target runs on into the text of the other key (which the method stops, where it
is in the key), no encoding ends in the range of the other request, and no key is the one of a
variant of the other. -/
theorem the_keys_keep_responses_apart (json : SerdeJson β)
    (cache_bytes_hash : List UInt8 → Text) (policy : RouteCachePolicy)
    (hkey : CacheKeyTemplate.parse DEFAULT_CACHE_KEY = .ok policy.key) (scheme : Text)
    (first second : CacheRequest) (hfirst : cache_request_bypass first policy = false)
    (hsecond : cache_request_bypass second policy = false)
    (hhost : cache_key_host first.uri first.headers = cache_key_host second.uri second.headers) :
    ((first.cache_key scheme policy = second.cache_key scheme policy →
        SameResource policy first second) ∧
      (SelectedFor json cache_bytes_hash policy scheme first second →
        SameResource policy first second) ∧
      (SelectedFor json cache_bytes_hash policy scheme second first →
        SameResource policy first second)) ↔
    (policy.convert_head = true →
        ¬PathClash policy first second ∧ ¬PathClash policy second first) ∧
      ¬EncodingClash policy first second ∧ ¬EncodingClash policy second first ∧
      ¬VariantClash cache_bytes_hash policy first second ∧
      ¬VariantClash cache_bytes_hash policy second first := by
  have hcases := cache_key_eq_cases hkey hhost hfirst hsecond scheme
  refine ⟨?_, ?_⟩
  · rintro ⟨hsame, hselected, hselected'⟩
    refine ⟨?_, ?_, ?_, ?_, ?_⟩
    · intro hconvert
      refine ⟨?_, ?_⟩
      · intro hclash
        have huri := (hsame (hcases.mpr (.inr (.inl ⟨hconvert, .inl hclash⟩)))).uri
        obtain ⟨text, hne, hmore, -⟩ := hclash
        rw [huri] at hmore
        exact hne (List.self_eq_append_right.mp hmore)
      · intro hclash
        have huri := (hsame (hcases.mpr (.inr (.inl ⟨hconvert, .inr hclash⟩)))).uri
        obtain ⟨text, hne, hmore, -⟩ := hclash
        rw [huri] at hmore
        exact hne (List.self_eq_append_right.mp hmore)
    · intro hclash
      have hrange := (hsame (hcases.mpr (.inr (.inr (.inl hclash))))).range
      obtain ⟨-, -, hnone, _, range, -, hsome, -⟩ := hclash
      simp [hnone, hsome] at hrange
    · intro hclash
      have hrange := (hsame (hcases.mpr (.inr (.inr (.inr hclash))))).range
      obtain ⟨-, -, hnone, _, range, -, hsome, -⟩ := hclash
      simp [hnone, hsome] at hrange
    · intro hclash
      obtain ⟨hfound, hne⟩ := hclash.selectedFor json scheme hkey hhost
      exact hne (hcases.mpr (.inl (hselected hfound)))
    · intro hclash
      obtain ⟨hfound, hne⟩ := hclash.selectedFor json scheme hkey hhost.symm
      exact hne (hcases.mpr (.inl (hselected' hfound))).symm
  · rintro ⟨hpath, hencoding, hencoding', hvariant, hvariant'⟩
    have hsame : first.cache_key scheme policy = second.cache_key scheme policy →
        SameResource policy first second := by
      intro heq
      rcases hcases.mp heq with h | ⟨hconvert, h | h⟩ | h | h
      · exact h
      · exact absurd h (hpath hconvert).1
      · exact absurd h (hpath hconvert).2
      · exact absurd h hencoding
      · exact absurd h hencoding'
    refine ⟨hsame, ?_, ?_⟩
    · intro hselected
      rcases selectedFor_cases hkey hhost hselected with heq | hclash
      · exact hsame heq
      · exact absurd hclash hvariant
    · intro hselected
      rcases selectedFor_cases hkey hhost.symm hselected with heq | hclash
      · exact hsame heq.symm
      · exact absurd hclash hvariant'

end Law

/-- A `GET` for this target, with these headers. -/
def plainTarget (target : PathAndQuery) (headers : HeaderMap) : CacheRequest :=
  { method := .GET, uri := ⟨none, some target⟩, headers }

/-- The keys of `/a` and `/b` are apart. -/
theorem two_targets_have_two_keys :
    (plainTarget ⟨['/', 'a'], by decide⟩ []).cache_key ['h', 't', 't', 'p'] (plainPolicy true) ≠
      (plainTarget ⟨['/', 'b'], by decide⟩ []).cache_key ['h', 't', 't', 'p']
        (plainPolicy true) := by
  have hfirst : (plainTarget ⟨['/', 'a'], by decide⟩ []).request_uri = ['/', 'a'] := rfl
  have hsecond : (plainTarget ⟨['/', 'b'], by decide⟩ []).request_uri = ['/', 'b'] := rfl
  intro heq
  have hsame := ((the_keys_keep_responses_apart plainJson (fun _ => List.replicate 64 '0')
    (plainPolicy true) parse_default ['h', 't', 't', 'p'] (plainTarget ⟨['/', 'a'], by decide⟩ [])
    (plainTarget ⟨['/', 'b'], by decide⟩ []) (by decide +kernel) (by decide +kernel)
    (by decide +kernel)).mpr ?_).1 heq
  · have huri := hsame.uri
    rw [hfirst, hsecond] at huri
    cases huri
  · refine ⟨?_, ?_, ?_, ?_, ?_⟩
    · rintro -
      refine ⟨?_, ?_⟩
      · rintro ⟨text, -, huri, -⟩
        simp [hfirst, hsecond] at huri
      · rintro ⟨text, -, huri, -⟩
        simp [hfirst, hsecond] at huri
    · rintro ⟨huri, -⟩
      simp [hfirst, hsecond] at huri
    · rintro ⟨huri, -⟩
      simp [hfirst, hsecond] at huri
    · rintro ⟨headers, -, -, htext⟩
      simp [hfirst, hsecond] at htext
    · rintro ⟨headers, -, -, htext⟩
      simp [hfirst, hsecond] at htext

/-- A target that ends like the text of an encoding has the key of the encoding. -/
theorem a_target_can_spell_an_encoding :
    let policy := plainPolicy true
    let first := plainTarget ⟨"/a|ae:gzip".toList, by decide⟩ []
    let second := plainTarget ⟨"/a".toList, by decide⟩ [(ACCEPT_ENCODING, plainValue "gzip")]
    CacheKeyTemplate.parse DEFAULT_CACHE_KEY = .ok policy.key ∧
    cache_request_bypass first policy = false ∧ cache_request_bypass second policy = false ∧
    cache_key_host first.uri first.headers = cache_key_host second.uri second.headers ∧
    first.cache_key "https".toList policy = second.cache_key "https".toList policy ∧
    first.request_uri ≠ second.request_uri := by
  decide +kernel

end rginx.cache
