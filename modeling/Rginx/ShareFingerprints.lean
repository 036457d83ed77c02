-- Requests with one fingerprint, `fill_share_fingerprint` of `lookup/helpers.rs`: they have the same
-- header lines in some order. A variant asks for the lines of a name in the order of their arrival.
import Rginx.ServerNameMatches
import Rginx.VariantSignatures

open rust_text separated_fields rginx.config

namespace rginx.cache

/-! ## Header lines -/

/-- The characters that `http::Method` takes. -/
def Method.Token (method : Method) : Prop :=
  ∀ c ∈ method.as_str.toList, (headerNameChar c).isSome

instance (method : Method) : Decidable method.Token :=
  inferInstanceAs (Decidable (∀ c ∈ _, _))

/-- The header lines that count for a fingerprint. -/
def shared_lines (request : CacheRequest) : HeaderMap :=
  request.headers.filter fun row => row.1 ≠ RANGE

/-- The requests have the same method and the same lines, in any order. -/
def SameLines (first second : CacheRequest) : Prop :=
  first.method.as_str = second.method.as_str ∧ (shared_lines first).Perm (shared_lines second)

theorem isUpper_of_normal {c : Char} (h : headerNameChar c = some c) : c.isUpper = false := by
  rw [Bool.eq_false_iff]
  intro hupper
  have hrange := isUpper_iff.mp hupper
  have hcapital : 'A' ≤ c ∧ c ≤ 'Z' := hrange
  rw [headerNameChar, if_pos hcapital] at h
  have hnat := congrArg Char.toNat (Option.some.inj h)
  rw [Char.toNat_ofNat, if_pos (.inl (by omega))] at hnat
  omega

@[simp]
theorem lowercase_name (name : HeaderName) :
    String.ofList (to_ascii_lowercase name.as_str.toList) = name.as_str := by
  have hsame : to_ascii_lowercase name.as_str.toList = name.as_str.toList := by
    unfold to_ascii_lowercase
    conv_rhs => rw [← List.map_id name.as_str.toList]
    apply List.map_congr_left
    intro c hc
    rw [Char.toLower_eq_of_not_isUpper (by simp [isUpper_of_normal (normal_of_name hc)])]
    rfl
  rw [hsame, String.ofList_toList]

/-- The bytes of a line, in the order of the fingerprint. -/
def sorted_lines (request : CacheRequest) : List (String × List UInt8) :=
  ((shared_lines request).map fun row => (row.1.as_str, row.2.as_bytes)).mergeSort header_le

theorem header_le_total (left right : String × List UInt8) :
    (header_le left right || header_le right left) = true := by
  simp only [header_le, Bool.or_eq_true, decide_eq_true_eq]
  rcases lt_trichotomy left.1 right.1 with hlt | heq | hlt
  · exact .inl (.inl hlt)
  · by_cases hbytes : right.2 < left.2
    · exact .inr (.inr ⟨heq.symm, List.lt_asymm hbytes⟩)
    · exact .inl (.inr ⟨heq, hbytes⟩)
  · exact .inr (.inl hlt)

theorem header_le_trans (a b c : String × List UInt8) (hab : header_le a b = true)
    (hbc : header_le b c = true) : header_le a c = true := by
  simp only [header_le, decide_eq_true_eq] at hab hbc ⊢
  rcases hab with hab | ⟨hab, hab'⟩
  · rcases hbc with hbc | ⟨hbc, -⟩
    · exact .inl (hab.trans hbc)
    · exact .inl (hbc ▸ hab)
  · rcases hbc with hbc | ⟨hbc, hbc'⟩
    · exact .inl (hab ▸ hbc)
    · exact .inr ⟨hab.trans hbc, List.le_trans hab' hbc'⟩

theorem header_le_antisymm {a b : String × List UInt8} (hab : header_le a b = true)
    (hba : header_le b a = true) : a = b := by
  simp only [header_le, decide_eq_true_eq] at hab hba
  rcases hab with hab | ⟨heq, hab⟩
  · rcases hba with hba | ⟨heq, -⟩
    · exact absurd hba (not_lt_of_gt hab)
    · exact absurd hab (heq ▸ lt_irrefl _)
  · rcases hba with hba | ⟨-, hba⟩
    · exact absurd hba (heq ▸ lt_irrefl _)
    · exact Prod.ext heq (List.le_antisymm hab hba)

theorem headerValue_ext {value value' : HeaderValue} (h : value.as_bytes = value'.as_bytes) :
    value = value' := by
  cases value
  cases value'
  cases h
  rfl

theorem line_injective : Function.Injective fun row : HeaderName × HeaderValue =>
    (row.1.as_str, row.2.as_bytes) := by
  intro row row' h
  obtain ⟨hname, hvalue⟩ := Prod.mk.inj h
  exact Prod.ext (headerName_ext hname) (headerValue_ext hvalue)

/-- The sorted lines are the same where the lines are the same in any order. -/
theorem sorted_lines_eq_iff {first second : CacheRequest} :
    sorted_lines first = sorted_lines second ↔ (shared_lines first).Perm (shared_lines second) := by
  have hperm := fun request => List.mergeSort_perm
    ((shared_lines request).map fun row => (row.1.as_str, row.2.as_bytes)) header_le
  rw [← List.map_perm_map_iff line_injective]
  constructor
  · intro h
    exact (hperm first).symm.trans ((List.Perm.of_eq h).trans (hperm second))
  · intro h
    have hsorted : ∀ request, (sorted_lines request).Pairwise fun a b => header_le a b = true :=
      fun _ => List.pairwise_mergeSort header_le_trans header_le_total _
    exact List.Perm.eq_of_pairwise (fun a b _ _ => header_le_antisymm) (hsorted first)
      (hsorted second) ((hperm first).trans (h.trans (hperm second).symm))

/-! ## The text of a fingerprint -/

theorem digitChar_inj : ∀ m < 16, ∀ n < 16, Nat.digitChar m = Nat.digitChar n → m = n := by
  decide

theorem digitChar_ne_newline : ∀ n < 16, Nat.digitChar n ≠ '\n' := by
  decide

theorem hex_byte_inj {b b' : UInt8} (h : hex_byte b = hex_byte b') : b = b' := by
  have hlt := b.toNat_lt
  have hlt' := b'.toNat_lt
  simp only [hex_byte, List.cons.injEq, and_true] at h
  have hhigh := digitChar_inj _ (by omega) _ (by omega) h.1
  have hlow := digitChar_inj _ (by omega) _ (by omega) h.2
  exact UInt8.toNat_inj.mp (by omega)

theorem hex_inj {bytes bytes' : List UInt8}
    (h : bytes.flatMap hex_byte = bytes'.flatMap hex_byte) : bytes = bytes' := by
  induction bytes generalizing bytes' with
  | nil =>
    cases bytes' with
    | nil => rfl
    | cons b' bytes' => simp [hex_byte] at h
  | cons b bytes ih =>
    cases bytes' with
    | nil => simp [hex_byte] at h
    | cons b' bytes' =>
      rw [List.flatMap_cons, List.flatMap_cons] at h
      obtain ⟨hfirst, hrest⟩ := List.append_inj h rfl
      rw [hex_byte_inj hfirst, ih hrest]

theorem newline_notMem_hex (bytes : List UInt8) : '\n' ∉ bytes.flatMap hex_byte := by
  intro h
  obtain ⟨b, -, hb⟩ := List.mem_flatMap.mp h
  have hlt := b.toNat_lt
  simp only [hex_byte, List.mem_cons, List.not_mem_nil, or_false] at hb
  rcases hb with hb | hb
  · exact digitChar_ne_newline _ (by omega) hb.symm
  · exact digitChar_ne_newline _ (by omega) hb.symm

/-- The two fields of a line: the name and the digits of the value. -/
def line_fields (line : String × List UInt8) : Text × Text :=
  (line.1.toList, line.2.flatMap hex_byte)

/-- The fingerprint is the method and the lines, each ended by a line feed. -/
theorem toList_fingerprint (request : CacheRequest) :
    (fill_share_fingerprint request).toList =
      "method=".toList ++ terminated '\n' (request.method.as_str.toList ::
        ((sorted_lines request).map line_fields).map (paired '=')) := by
  have hfold : ∀ (lines : List (String × List UInt8)) (text : String),
      (lines.foldl (fun text header =>
        text ++ header.1 ++ "=" ++ String.ofList (header.2.flatMap hex_byte) ++ "\n") text).toList =
        text.toList ++ terminated '\n' ((lines.map line_fields).map (paired '=')) := by
    intro lines
    induction lines with
    | nil => simp
    | cons line lines ih =>
      intro text
      rw [List.foldl_cons, ih]
      simp [line_fields, paired]
  unfold fill_share_fingerprint
  simp only [lowercase_name]
  rw [show ((request.headers.filter fun row => row.1 ≠ RANGE).map fun row =>
    (row.1.as_str, row.2.as_bytes)).mergeSort header_le = sorted_lines request from rfl, hfold]
  simp

theorem newline_notMem_token {method : Method} (h : method.Token) :
    '\n' ∉ method.as_str.toList := by
  intro hin
  exact absurd (h _ hin) (by decide)

/-- Equal fingerprints mean the same method and the same lines in any order. -/
theorem fingerprint_eq_iff {first second : CacheRequest} (hfirst : first.method.Token)
    (hsecond : second.method.Token) :
    fill_share_fingerprint first = fill_share_fingerprint second ↔ SameLines first second := by
  have hseparate : ∀ request : CacheRequest,
      ∀ pair ∈ (sorted_lines request).map line_fields, '=' ∉ pair.1 ∧ '\n' ∉ paired '=' pair := by
    intro request pair hpair
    obtain ⟨line, hline, rfl⟩ := List.mem_map.mp hpair
    obtain ⟨row, -, rfl⟩ := List.mem_map.mp ((List.mergeSort_perm _ _).subset hline)
    have hname : ∀ c, headerNameChar c = none → c ∉ row.1.as_str.toList := by
      intro c hnone hin
      rw [normal_of_name hin] at hnone
      cases hnone
    refine ⟨hname '=' (by decide), ?_⟩
    rw [paired, line_fields, List.mem_append, List.mem_cons]
    rintro (hin | heq | hin)
    · exact hname '\n' (by decide) hin
    · exact absurd heq (by decide)
    · exact newline_notMem_hex _ hin
  have hinj : Function.Injective line_fields := fun line line' h =>
    Prod.ext (String.toList_injective (Prod.mk.inj h).1) (hex_inj (Prod.mk.inj h).2)
  rw [← String.toList_inj, toList_fingerprint, toList_fingerprint, List.append_cancel_left_eq,
    terminated_cons, terminated_cons, SameLines, ← sorted_lines_eq_iff]
  constructor
  · intro h
    obtain ⟨hmethod, hlines⟩ := first_inj (newline_notMem_token hfirst)
      (newline_notMem_token hsecond) h
    exact ⟨String.toList_injective hmethod, List.map_injective_iff.mpr hinj
      (terminated_paired_inj (hseparate first) (hseparate second) hlines)⟩
  · rintro ⟨hmethod, hlines⟩
    rw [hmethod, hlines]

/-! ## The members of a list -/

/-- The members of the list that the lines of a name make up, in the order of their arrival.
`Accept-Encoding` is read in lower case, and a line of it that is no text hides them all. -/
def list_members (headers : HeaderMap) (name : HeaderName) : Option (List Text) :=
  if name = ACCEPT_ENCODING then do
    let values ← (headers.get_all name).mapM HeaderValue.to_str
    let tokens := values.flatMap fun value => ((split ',' value).map trim).filter (· ≠ [])
    if tokens = [] then none else some (tokens.map to_ascii_lowercase)
  else
    let values := (headers.get_all name).filterMap HeaderValue.to_str
    if values = [] then none else some (values.flatMap fun value => split ',' (trim value))

/-- The joined lines are the joined members. -/
theorem intercalate_flatMap_split (c : Char) (values : List Text) :
    List.intercalate [c] (values.flatMap (split c)) = List.intercalate [c] values := by
  induction values with
  | nil => rfl
  | cons value values ih =>
    have hsplit : List.intercalate [c] (split c value) = value := List.intercalate_splitOn c
    have hne : ∀ value, split c value ≠ [] := List.splitOn_ne_nil c
    cases values with
    | nil => simpa using hsplit
    | cons next values =>
      rw [List.flatMap_cons, intercalate_append (hne value) (by simp [hne]), hsplit, ih,
        List.intercalate_cons_cons]

/-- What a variant compares is the members, joined. -/
theorem normalized_eq_members (headers : HeaderMap) (name : HeaderName) :
    normalized_request_header_values headers name =
      (list_members headers name).map (List.intercalate [',']) := by
  unfold normalized_request_header_values list_members
  by_cases hname : name = ACCEPT_ENCODING
  · rw [if_pos hname, if_pos hname, hname, normalized_accept_encoding]
    rcases (headers.get_all ACCEPT_ENCODING).mapM HeaderValue.to_str with _ | values
    · rfl
    · simp only [Option.bind_eq_bind, Option.bind_some]
      split
      · rfl
      · rw [Option.map_some, to_ascii_lowercase, map_intercalate]
        rfl
  · rw [if_neg hname, if_neg hname]
    dsimp only
    split
    · rfl
    · rw [Option.map_some, ← intercalate_flatMap_split ',' (List.map trim _), List.flatMap_map]

theorem list_members_parts {headers : HeaderMap} {name : HeaderName} {members : List Text}
    (h : list_members headers name = some members) :
    (∀ member ∈ members, ',' ∉ member) ∧ members ≠ [] := by
  unfold list_members at h
  split at h
  · simp only [Option.bind_eq_bind, Option.bind_eq_some_iff] at h
    obtain ⟨values, -, h⟩ := h
    split at h
    · cases h
    · rename_i hne
      obtain rfl := Option.some.inj h
      refine ⟨fun member hmember hin => ?_, by simpa using hne⟩
      obtain ⟨token, htoken, rfl⟩ := List.mem_map.mp hmember
      obtain ⟨value, -, htoken⟩ := List.mem_flatMap.mp htoken
      obtain ⟨part, hpart, rfl⟩ := List.mem_map.mp (List.mem_filter.mp htoken).1
      obtain ⟨c, hc, hcomma⟩ := List.mem_map.mp hin
      rw [toLower_eq_iff (by decide)] at hcomma
      exact (mem_of_mem_splitOn hpart (mem_of_mem_trim hc)).2 hcomma
  · dsimp only at h
    split at h
    · cases h
    · rename_i hne
      obtain rfl := Option.some.inj h
      refine ⟨fun member hmember hin => ?_, ?_⟩
      · obtain ⟨value, -, hmember⟩ := List.mem_flatMap.mp hmember
        exact (mem_of_mem_splitOn hmember hin).2 rfl
      · obtain ⟨value, values, hvalues⟩ := List.exists_cons_of_ne_nil hne
        rw [hvalues, List.flatMap_cons]
        exact List.append_ne_nil_of_left_ne_nil (List.splitOn_ne_nil ',' _) _

/-- A variant tells two requests apart by the members of the list. -/
theorem normalized_eq_iff {headers headers' : HeaderMap} {name : HeaderName} :
    normalized_request_header_values headers name =
        normalized_request_header_values headers' name ↔
      list_members headers name = list_members headers' name := by
  rw [normalized_eq_members, normalized_eq_members]
  rcases hmembers : list_members headers name with _ | members
  · rcases list_members headers' name with _ | members' <;> simp
  · rcases hmembers' : list_members headers' name with _ | members'
    · simp
    · obtain ⟨hparts, hne⟩ := list_members_parts hmembers
      obtain ⟨hparts', hne'⟩ := list_members_parts hmembers'
      simp only [Option.map_some, Option.some.injEq]
      constructor
      · intro h
        rw [← List.splitOn_intercalate ',' hparts hne, h, List.splitOn_intercalate ',' hparts' hne']
      · rintro rfl
        rfl

/-! ## Requests that select the same variants -/

/-- Every variant that does not depend on `Range` matches both requests or neither. -/
def SelectAlike (first second : CacheRequest) : Prop :=
  (∀ name, name ≠ RANGE → normalized_request_header_values first.headers name =
    normalized_request_header_values second.headers name) ∧
  ∀ vary : List CachedVaryHeaderValue, (∀ header ∈ vary, header.name ≠ RANGE) →
    matches_vary_headers first vary = matches_vary_headers second vary

/-- The requests have the same lines, and the lines of some name that has several stand in an
order in which the members of their list differ. -/
def Reordered (first second : CacheRequest) : Prop :=
  SameLines first second ∧ ∃ name, name ≠ RANGE ∧ 2 ≤ (first.headers.get_all name).length ∧
    list_members first.headers name ≠ list_members second.headers name

theorem get_all_shared_lines (request : CacheRequest) {name : HeaderName} (hname : name ≠ RANGE) :
    (shared_lines request).get_all name = request.headers.get_all name :=
  HeaderMap.get_all_remove_of_ne request.headers hname

/-- A name with one line at most has the same line in both requests. -/
theorem SameLines.get_all_eq {first second : CacheRequest} (h : SameLines first second)
    {name : HeaderName} (hname : name ≠ RANGE) (hfew : (first.headers.get_all name).length ≤ 1) :
    first.headers.get_all name = second.headers.get_all name := by
  have hperm : (first.headers.get_all name).Perm (second.headers.get_all name) := by
    rw [← get_all_shared_lines first hname, ← get_all_shared_lines second hname]
    exact (h.2.filter _).map _
  rcases hvalues : first.headers.get_all name with _ | ⟨value, values⟩
  · rw [hvalues] at hperm
    exact hperm.symm.eq_nil.symm
  · rw [hvalues] at hperm hfew
    obtain rfl : values = [] := List.length_eq_zero_iff.mp (by simpa using hfew)
    exact (List.perm_singleton.mp hperm.symm).symm

theorem list_members_congr {headers headers' : HeaderMap} {name : HeaderName}
    (h : headers.get_all name = headers'.get_all name) :
    list_members headers name = list_members headers' name := by
  unfold list_members
  rw [h]

/-- The requests have the same lines, but for those of `Range`, where they differ. -/
def DifferInRange (first second : CacheRequest) : Prop :=
  SameLines first second ∧ normalized_request_header_values first.headers RANGE ≠
    normalized_request_header_values second.headers RANGE

/-- A variant matches alike where its names have the same values. -/
theorem matches_alike {first second : CacheRequest} {vary : List CachedVaryHeaderValue}
    (h : ∀ header ∈ vary, normalized_request_header_values first.headers header.name =
      normalized_request_header_values second.headers header.name) :
    matches_vary_headers first vary = matches_vary_headers second vary := by
  unfold matches_vary_headers
  rw [Bool.eq_iff_iff, List.all_eq_true, List.all_eq_true]
  refine forall₂_congr fun header hheader => ?_
  rw [h header hheader]

/-- Requests that match every variant of one name have the same values of it. -/
theorem values_of_matches {first second : CacheRequest} (name : HeaderName)
    (h : ∀ vary, matches_vary_headers first vary = matches_vary_headers second vary) :
    normalized_request_header_values first.headers name =
      normalized_request_header_values second.headers name := by
  have hone := h [⟨name, (normalized_request_header_values first.headers name).map String.ofList⟩]
  simp only [matches_vary_headers, List.all_cons, List.all_nil, Bool.and_true, decide_true,
    eq_comm (a := true), decide_eq_true_eq] at hone
  apply Option.map_injective (fun text text' h => String.ofList_injective h)
  exact hone.symm

/-- Without another order of lines, the values are the same under every name but `Range`. -/
theorem SameLines.values_eq {first second : CacheRequest} (h : SameLines first second)
    (horder : ¬ Reordered first second) {name : HeaderName} (hname : name ≠ RANGE) :
    normalized_request_header_values first.headers name =
      normalized_request_header_values second.headers name := by
  rw [normalized_eq_iff]
  by_cases hfew : (first.headers.get_all name).length ≤ 1
  · exact list_members_congr (h.get_all_eq hname hfew)
  · by_contra hmembers
    exact horder ⟨h, name, hname, by omega, hmembers⟩

/-- Equal fingerprints select alike, unless the requests have the same lines in orders that make
different lists of them; and every variant alike, unless they also differ in `Range`, which
the fingerprint leaves out. -/
theorem equal_fingerprints_select_alike_iff (first second : CacheRequest)
    (hfirst : first.method.Token) (hsecond : second.method.Token) :
    ((fill_share_fingerprint first = fill_share_fingerprint second → SelectAlike first second) ↔
      ¬ Reordered first second) ∧
    ((fill_share_fingerprint first = fill_share_fingerprint second →
        ∀ vary, matches_vary_headers first vary = matches_vary_headers second vary) ↔
      ¬ Reordered first second ∧ ¬ DifferInRange first second) := by
  rw [fingerprint_eq_iff hfirst hsecond]
  refine ⟨⟨?_, fun horder hsame => ?_⟩, fun hmatch => ⟨?_, ?_⟩, ?_⟩
  · rintro halike ⟨hsame, name, hname, -, hmembers⟩
    exact hmembers (normalized_eq_iff.mp ((halike hsame).1 name hname))
  · refine ⟨fun name hname => hsame.values_eq horder hname, fun vary hvary => ?_⟩
    apply matches_alike
    intro header hheader
    exact hsame.values_eq horder (hvary header hheader)
  · rintro ⟨hsame, name, -, -, hmembers⟩
    exact hmembers (normalized_eq_iff.mp (values_of_matches name (hmatch hsame)))
  · rintro ⟨hsame, hrange⟩
    exact hrange (values_of_matches RANGE (hmatch hsame))
  · rintro ⟨horder, hrange⟩ hsame vary
    apply matches_alike
    intro header _
    by_cases hname : header.name = RANGE
    · rw [hname]
      exact not_not.mp fun hdiffer => hrange ⟨hsame, hdiffer⟩
    · exact hsame.values_eq horder hname

theorem token_GET : Method.GET.Token := by
  intro c hc
  have hcases : c = 'G' ∨ c = 'E' ∨ c = 'T' := by simpa [Method.as_str] using hc
  rcases hcases with rfl | rfl | rfl <;> decide

/-- The requests of two lines, in either order. -/
theorem sameLines_swap (line line' : HeaderName × HeaderValue) :
    SameLines (plainGet [line, line']) (plainGet [line', line]) :=
  ⟨rfl, (List.Perm.swap line' line []).filter _⟩

def X_B : HeaderName := ⟨"x-b", by decide⟩

/-- Two lines of different names in both orders. -/
theorem equal_fingerprints_select_alike_iff_two_names :
    fill_share_fingerprint (plainGet [(X_A, plainValue "a"), (X_B, plainValue "b")]) =
        fill_share_fingerprint (plainGet [(X_B, plainValue "b"), (X_A, plainValue "a")]) ∧
      SelectAlike (plainGet [(X_A, plainValue "a"), (X_B, plainValue "b")])
        (plainGet [(X_B, plainValue "b"), (X_A, plainValue "a")]) := by
  have hsame := (fingerprint_eq_iff token_GET token_GET).mpr
    (sameLines_swap (X_A, plainValue "a") (X_B, plainValue "b"))
  refine ⟨hsame,
    (equal_fingerprints_select_alike_iff _ _ token_GET token_GET).1.mpr ?_ hsame⟩
  rintro ⟨-, name, -, htwo, -⟩
  have hnames : X_A = name ∧ X_B = name := by
    simp only [plainGet, HeaderMap.get_all, List.filter_cons, List.filter_nil] at htwo
    grind
  exact absurd (hnames.1.trans hnames.2.symm) (by decide)

/-- Two lines of one name in both orders. -/
theorem swapped_lines_share_a_fingerprint :
    fill_share_fingerprint (plainGet [(X_A, plainValue "a"), (X_A, plainValue "b")]) =
        fill_share_fingerprint (plainGet [(X_A, plainValue "b"), (X_A, plainValue "a")]) ∧
      normalized_request_header_values [(X_A, plainValue "a"), (X_A, plainValue "b")] X_A ≠
        normalized_request_header_values [(X_A, plainValue "b"), (X_A, plainValue "a")] X_A ∧
      matches_vary_headers (plainGet [(X_A, plainValue "a"), (X_A, plainValue "b")])
          [⟨X_A, some "a,b"⟩] = true ∧
      matches_vary_headers (plainGet [(X_A, plainValue "b"), (X_A, plainValue "a")])
          [⟨X_A, some "a,b"⟩] = false := by
  refine ⟨(fingerprint_eq_iff token_GET token_GET).mpr (sameLines_swap _ _), by decide +kernel,
    by decide +kernel, by decide +kernel⟩

end rginx.cache
