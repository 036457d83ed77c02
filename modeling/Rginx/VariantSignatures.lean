-- The bytes that the key of a variant is hashed from, `cache_variant_key` of `entry/signature.rs`.
-- They tell the names and the values of two variants apart, and not a missing value from an empty
-- one.
import Rginx.SeparatedFields
import Rginx.VariantKeys

open rust_text separated_fields

namespace rginx.cache

/-! ## The text of the values -/

theorem ascii_of_to_str {value : HeaderValue} {text : Text} (h : value.to_str = some text) :
    ∀ c ∈ text, c.toNat < 128 := by
  unfold HeaderValue.to_str at h
  split at h
  · rename_i hvisible
    obtain rfl := Option.some.inj h
    intro c hc
    obtain ⟨b, hb, rfl⟩ := List.mem_map.mp hc
    have hlt : b.toNat < 128 := by
      rcases hvisible b hb with ⟨-, hlt⟩ | rfl
      · exact Nat.lt_succ_of_lt (UInt8.lt_iff_toNat_lt.mp hlt)
      · decide
    rw [Char.toNat_ofNat, if_pos (.inl (by omega))]
    exact hlt
  · cases h

theorem mem_of_mapM {α β : Type} {f : α → Option β} {rows : List α} {results : List β}
    (h : rows.mapM f = some results) : ∀ result ∈ results, ∃ row ∈ rows, f row = some result := by
  induction rows generalizing results with
  | nil =>
    simp only [List.mapM_nil, Option.pure_def, Option.some.injEq] at h
    subst h
    simp
  | cons row rows ih =>
    simp only [List.mapM_cons, Option.pure_def, Option.bind_eq_bind, Option.bind_eq_some_iff,
      Option.some.injEq] at h
    obtain ⟨first, hfirst, rest, hrest, rfl⟩ := h
    intro result hresult
    rcases List.mem_cons.mp hresult with rfl | hresult
    · exact ⟨row, List.mem_cons_self, hfirst⟩
    · obtain ⟨other, hother, hsome⟩ := ih hrest result hresult
      exact ⟨other, List.mem_cons_of_mem _ hother, hsome⟩

/-- What a request has under a name is text of ASCII. -/
theorem ascii_of_normalized {headers : HeaderMap} {name : HeaderName} {text : Text}
    (h : normalized_request_header_values headers name = some text) :
    ∀ c ∈ text, c.toNat < 128 := by
  unfold normalized_request_header_values at h
  split at h
  · unfold normalized_accept_encoding at h
    simp only [Option.bind_eq_bind, Option.bind_eq_some_iff] at h
    obtain ⟨values, hvalues, h⟩ := h
    split at h
    · cases h
    · obtain rfl := Option.some.inj h
      intro c hc
      obtain ⟨d, hd, rfl⟩ := List.mem_map.mp hc
      have hascii : d.toNat < 128 := by
        rcases mem_of_mem_intercalate hd with rfl | ⟨token, htoken, hd⟩
        · decide
        · obtain ⟨value, hvalue, htoken⟩ := List.mem_flatMap.mp htoken
          obtain ⟨part, hpart, rfl⟩ := List.mem_map.mp (List.mem_filter.mp htoken).1
          obtain ⟨header, -, hheader⟩ := mem_of_mapM hvalues value hvalue
          exact ascii_of_to_str hheader d (mem_of_mem_splitOn hpart (mem_of_mem_trim hd)).1
      exact (toLower_lt_iff d).mpr hascii
  · dsimp only at h
    split at h
    · cases h
    · obtain rfl := Option.some.inj h
      intro c hc
      rcases mem_of_mem_intercalate hc with rfl | ⟨part, hpart, hc⟩
      · decide
      · obtain ⟨value, hvalue, rfl⟩ := List.mem_map.mp hpart
        obtain ⟨header, -, hheader⟩ := List.mem_filterMap.mp hvalue
        exact ascii_of_to_str hheader c (mem_of_mem_trim hc)

/-! ## The signature -/

theorem as_bytes_injective : Function.Injective as_bytes := by
  intro s t h
  have hread := congrArg from_utf8 h
  rw [from_utf8_as_bytes, from_utf8_as_bytes] at hread
  exact Option.some.inj hread

theorem utf8_injective : Function.Injective utf8 := fun _ _ h =>
  String.toList_injective (as_bytes_injective h)

theorem mem_utf8_of_ascii {text : String} (h : ∀ c ∈ text.toList, c.toNat < 128) {b : UInt8}
    (hb : b ∈ utf8 text) : ∃ c ∈ text.toList, b.toNat = c.toNat := by
  have hbytes : utf8 text = text.toList.map fun c => c.toNat.toUInt8 := as_bytes_of_ascii h
  rw [hbytes] at hb
  obtain ⟨c, hc, rfl⟩ := List.mem_map.mp hb
  have hlt := h c hc
  refine ⟨c, hc, ?_⟩
  simp
  omega

/-- A dimension as the signature has it: a missing value is an empty one. -/
def filled (header : CachedVaryHeaderValue) : HeaderName × String :=
  (header.name, header.value.getD "")

/-- Values that are text of ASCII, or missing. -/
def AsciiValues (vary : List CachedVaryHeaderValue) : Prop :=
  ∀ header ∈ vary, ∀ value, header.value = some value → ∀ c ∈ value.toList, c.toNat < 128

/-- The two fields of a dimension. -/
def signature_fields (header : CachedVaryHeaderValue) : List UInt8 × List UInt8 :=
  (utf8 header.name.as_str, (header.value.map utf8).getD [])

theorem vary_signature_eq (vary : List CachedVaryHeaderValue) :
    vary_signature vary =
      terminated 0xff (((canonical_vary_headers vary).map signature_fields).map (paired 0)) := by
  rw [vary_signature, terminated, List.map_map, List.flatMap_map]
  congr 1
  funext header
  simp [paired, signature_fields]

theorem signature_fields_separate {header : CachedVaryHeaderValue}
    (h : ∀ value, header.value = some value → ∀ c ∈ value.toList, c.toNat < 128) :
    0 ∉ (signature_fields header).1 ∧ 0xff ∉ paired 0 (signature_fields header) := by
  have hname : ∀ b ∈ utf8 header.name.as_str, 33 ≤ b.toNat ∧ b.toNat < 127 := by
    intro b hb
    obtain ⟨c, hc, hbc⟩ := mem_utf8_of_ascii (ascii_of_name header.name) hb
    have htoken := token_of_name hc
    omega
  refine ⟨fun hzero => absurd (hname 0 hzero).1 (by decide), ?_⟩
  rw [paired, signature_fields, List.mem_append, List.mem_cons]
  rintro (hin | heq | hin)
  · exact absurd (hname 255 hin).2 (by decide)
  · exact absurd heq (by decide)
  · rcases hvalue : header.value with _ | value
    · simp [hvalue] at hin
    · rw [hvalue] at hin
      obtain ⟨c, hc, hbc⟩ := mem_utf8_of_ascii (h value hvalue) hin
      have hlt := h value hvalue c hc
      have hbyte : (255 : UInt8).toNat = 255 := rfl
      omega

theorem signature_fields_eq_iff {header header' : CachedVaryHeaderValue} :
    signature_fields header = signature_fields header' ↔ filled header = filled header' := by
  have hvalue : ∀ value : Option String, (value.map utf8).getD [] = utf8 (value.getD "") := by
    intro value
    cases value <;> rfl
  rw [signature_fields, signature_fields, filled, filled, Prod.mk.injEq, Prod.mk.injEq, hvalue,
    hvalue, utf8_injective.eq_iff, utf8_injective.eq_iff]
  exact and_congr_left fun _ => ⟨headerName_ext, congrArg _⟩

/-- The signature names the dimensions and their values, a missing one as an empty one. -/
theorem vary_signature_eq_iff {vary vary' : List CachedVaryHeaderValue} (h : AsciiValues vary)
    (h' : AsciiValues vary') :
    vary_signature vary = vary_signature vary' ↔
      (canonical_vary_headers vary).map filled = (canonical_vary_headers vary').map filled := by
  have hmap : ∀ first second : List CachedVaryHeaderValue,
      first.map signature_fields = second.map signature_fields ↔
        first.map filled = second.map filled := by
    intro first
    induction first with
    | nil =>
      intro second
      cases second <;> simp
    | cons header first ih =>
      intro second
      cases second with
      | nil => simp
      | cons header' second => simp [signature_fields_eq_iff, ih]
  have hseparate : ∀ {vary : List CachedVaryHeaderValue}, AsciiValues vary →
      ∀ pair ∈ (canonical_vary_headers vary).map signature_fields,
        0 ∉ pair.1 ∧ 0xff ∉ paired 0 pair := by
    intro vary h pair hpair
    obtain ⟨header, hheader, rfl⟩ := List.mem_map.mp hpair
    refine signature_fields_separate (h header ?_)
    exact (List.perm_insertionSort _ vary).subset hheader
  rw [← hmap, vary_signature_eq, vary_signature_eq]
  exact ⟨terminated_paired_inj (hseparate h) (hseparate h'), fun heq => by rw [heq]⟩

/-! ## The keys of the variants -/

/-- The values of a request are in the order in which they are hashed. -/
theorem canonical_cache_vary_values (policy : RouteCachePolicy) (request : CacheRequest)
    (headers : HeaderMap) :
    canonical_vary_headers (cache_vary_values policy request headers) =
      cache_vary_values policy request headers := by
  unfold cache_vary_values
  split
  · rfl
  · have hdimensions : (((vary_headers headers).getD []).map fun name =>
        (⟨name, (normalized_request_header_values request.headers name).map String.ofList⟩ :
          CachedVaryHeaderValue)).insertionSort (fun left right => vary_le left right) =
        dimensions request (((vary_headers headers).getD []).insertionSort
          fun left right => left.as_str ≤ right.as_str) := canonical_dimensions request _
    rw [hdimensions, canonical_dimensions]
    congr 1
    have htotal : Std.Total fun left right : HeaderName => left.as_str ≤ right.as_str :=
      ⟨fun _ _ => le_total _ _⟩
    have htrans : IsTrans HeaderName fun left right => left.as_str ≤ right.as_str :=
      ⟨fun _ _ _ => le_trans⟩
    exact (List.pairwise_insertionSort _ _).insertionSort_eq

theorem ascii_cache_vary_values (policy : RouteCachePolicy) (request : CacheRequest)
    (headers : HeaderMap) : AsciiValues (cache_vary_values policy request headers) := by
  unfold cache_vary_values
  split
  · intro header hheader
    cases hheader
  · intro header hheader value hvalue
    obtain ⟨name, -, rfl⟩ := List.mem_map.mp ((List.perm_insertionSort _ _).subset hheader)
    obtain ⟨text, htext, rfl⟩ := Option.map_eq_some_iff.mp hvalue
    rw [String.toList_ofList]
    exact ascii_of_normalized htext

section Keys

variable (cache_bytes_hash : List UInt8 → Text) (base_key : Text)
  {vary vary' : List CachedVaryHeaderValue}

/-- The two variants have one key where their values are the same once the missing ones are
filled in. -/
theorem cache_variant_key_eq_iff (h : AsciiValues vary) (h' : AsciiValues vary')
    (hcollision : cache_bytes_hash (vary_signature vary) = cache_bytes_hash (vary_signature vary') →
      vary_signature vary = vary_signature vary') :
    cache_variant_key cache_bytes_hash base_key vary =
        cache_variant_key cache_bytes_hash base_key vary' ↔
      (canonical_vary_headers vary).map filled = (canonical_vary_headers vary').map filled := by
  have hempty : ∀ {vary : List CachedVaryHeaderValue}, vary ≠ [] →
      (canonical_vary_headers vary).map filled ≠ [] := by
    intro vary hne hnil
    exact hne ((canonical_eq_nil_iff vary).mp (List.map_eq_nil_iff.mp hnil))
  have hlong : ∀ text : Text, base_key ≠ base_key ++ VARY_MARK ++ text := by
    intro text heq
    have hlength := congrArg List.length heq
    simp [VARY_MARK] at hlength
  unfold cache_variant_key
  by_cases hvary : vary = []
  · by_cases hvary' : vary' = []
    · simp [hvary, hvary']
    · rw [if_pos hvary, if_neg hvary', hvary]
      exact iff_of_false (hlong _) (hempty hvary').symm
  · by_cases hvary' : vary' = []
    · rw [if_neg hvary, if_pos hvary', hvary']
      exact iff_of_false (hlong _).symm (hempty hvary)
    · rw [if_neg hvary, if_neg hvary', List.append_cancel_left_eq, ← vary_signature_eq_iff h h']
      exact ⟨hcollision, congrArg _⟩

/-- The lists differ, and only where one has no value and the other has the empty one. -/
def DifferInEmptyValues (vary vary' : List CachedVaryHeaderValue) : Prop :=
  vary ≠ vary' ∧ vary.map filled = vary'.map filled

/-- Variant keys are injective but for values that are missing on one side and empty on the other:
two lists of the values of requests have one key exactly when they have one canonical form, unless
they differ in that. -/
theorem variant_keys_injective_iff (policy policy' : RouteCachePolicy)
    (request request' : CacheRequest) (headers headers' : HeaderMap)
    (hcollision : cache_bytes_hash (vary_signature (cache_vary_values policy request headers)) =
        cache_bytes_hash (vary_signature (cache_vary_values policy' request' headers')) →
      vary_signature (cache_vary_values policy request headers) =
        vary_signature (cache_vary_values policy' request' headers')) :
    (cache_variant_key cache_bytes_hash base_key (cache_vary_values policy request headers) =
        cache_variant_key cache_bytes_hash base_key (cache_vary_values policy' request' headers') ↔
      canonical_vary_headers (cache_vary_values policy request headers) =
        canonical_vary_headers (cache_vary_values policy' request' headers')) ↔
    ¬ DifferInEmptyValues (cache_vary_values policy request headers)
      (cache_vary_values policy' request' headers') := by
  rw [cache_variant_key_eq_iff cache_bytes_hash base_key (ascii_cache_vary_values _ _ _)
    (ascii_cache_vary_values _ _ _) hcollision, canonical_cache_vary_values,
    canonical_cache_vary_values]
  constructor
  · rintro h ⟨hne, hfilled⟩
    exact hne (h.mp hfilled)
  · intro h
    exact ⟨fun hfilled => by_contra fun hne => h ⟨hne, hfilled⟩, congrArg _⟩

end Keys

/-! ## Some variants -/

/-- The SHA-256 of three signatures: a language in English, one in German, and a name without a
value. -/
def threeDigests (bytes : List UInt8) : Text :=
  if bytes = "accept-language".toList.map (·.toNat.toUInt8) ++ [0, 101, 110, 255] then
    "e1a9a47a48f30be9761fdfedb5046bc0ee97fbf1b1d64e51582bfaf4ebec363c".toList
  else if bytes = "accept-language".toList.map (·.toNat.toUInt8) ++ [0, 100, 101, 255] then
    "bcbe7d2314522f856aa4bed2829ce66ffac8e390610885e654223b949639717f".toList
  else "4ead8226ad04192538f15ab921e4deb02841e61c85c5a446af39ebb9ab66837a".toList

/-- The values of a request in a language, where the response varies by it. -/
def languageValues (language : String) : List CachedVaryHeaderValue :=
  cache_vary_values (plainPolicy false) (plainGet [(LANGUAGE, plainValue language)])
    [(VARY, plainValue "Accept-Language")]

theorem languageValues_en : languageValues "en" = [⟨LANGUAGE, some "en"⟩] := by
  decide +kernel

theorem languageValues_de : languageValues "de" = [⟨LANGUAGE, some "de"⟩] := by
  decide +kernel

theorem variant_keys_injective_iff_languages :
    cache_variant_key threeDigests "a".toList (languageValues "en") =
        cache_variant_key threeDigests "a".toList (languageValues "de") ↔
      canonical_vary_headers (languageValues "en") =
        canonical_vary_headers (languageValues "de") :=
  (variant_keys_injective_iff threeDigests "a".toList (plainPolicy false) (plainPolicy false)
    (plainGet [(LANGUAGE, plainValue "en")]) (plainGet [(LANGUAGE, plainValue "de")])
    [(VARY, plainValue "Accept-Language")] [(VARY, plainValue "Accept-Language")]
    (by decide +kernel)).mpr (by
      show ¬ DifferInEmptyValues (languageValues "en") (languageValues "de")
      rw [languageValues_en, languageValues_de]
      simp [DifferInEmptyValues, filled])

def X_A : HeaderName := ⟨"x-a", by decide⟩

/-- The values of a request where the response varies by `x-a`. -/
def valuesOfA (headers : HeaderMap) : List CachedVaryHeaderValue :=
  cache_vary_values (plainPolicy false) (plainGet headers) [(VARY, plainValue "x-a")]

/-- A request without the header and one with an empty header have one key, although each matches
its own variant only. -/
theorem empty_value_has_the_key_of_none :
    cache_variant_key threeDigests "a".toList (valuesOfA []) =
        cache_variant_key threeDigests "a".toList (valuesOfA [(X_A, plainValue "")]) ∧
      canonical_vary_headers (valuesOfA []) ≠
        canonical_vary_headers (valuesOfA [(X_A, plainValue "")]) ∧
      matches_vary_headers (plainGet []) (valuesOfA []) = true ∧
      matches_vary_headers (plainGet []) (valuesOfA [(X_A, plainValue "")]) = false := by
  decide +kernel

end rginx.cache
