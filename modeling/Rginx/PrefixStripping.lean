-- The part of a path that `build_proxy_uri` of `proxy/common.rs` cuts off, and the matcher of
-- `config/route.rs` that accepts the path: where the two agree on the end of a segment.
import Rginx.RequestTargets

open rust_text rginx.cache rginx.proxy

namespace rginx.http

/-! ## What is promised -/

/-- What follows the slash that separates it, if there is one. -/
def without_slash (rest : Text) : Text := (stripStart ['/'] rest).getD rest

/-- A path that the matcher accepts is forwarded without its start, any other path unchanged, and
the query with it; the target starts with a slash or is a query. -/
structure PrefixStripped (start : Text) (uri : Uri) : Prop where
  stripped : prefix_matches start (normalized_path uri) = true →
    ∃ rest, normalized_path uri = start ++ rest ∧
      rendered_path (proxied_path_and_query (some start) uri) = '/' :: without_slash rest ∧
      rendered_query (proxied_path_and_query (some start) uri) = uri_query uri
  kept : prefix_matches start (normalized_path uri) = false →
    proxied_path_and_query (some start) uri = normalized_path_and_query uri
  begins : ['/'] <+: proxied_path_and_query (some start) uri ∨
    ['?'] <+: proxied_path_and_query (some start) uri

/-- The end of a start is the end of a segment, and it does not reach into the query. -/
structure Strippable (start : Text) (uri : Uri) : Prop where
  origin : normalized_path uri ≠ ['*']
  slash : ['/'] <:+ start → start = ['/'] ∨
    ∀ rest, normalized_path uri = start ++ rest → rest = [] ∨ ['/'] <+: rest
  query : '?' ∈ start → ∀ rest, normalized_path_and_query uri = start ++ rest →
    rest ≠ [] ∧ ¬ ['/'] <+: rest ∧ ¬ ['?'] <+: rest

/-! ## The branches -/

section Branches

variable {start : Text} {uri : Uri}

/-- A target that does not begin with the start is kept. -/
theorem proxied_of_not_start (h : ¬ start <+: normalized_path_and_query uri) :
    proxied_path_and_query (some start) uri = normalized_path_and_query uri := by
  have hnone : stripStart start (normalized_path_and_query uri) = none := if_neg h
  unfold proxied_path_and_query
  dsimp only [Option.bind_some]
  rw [hnone]

/-- Behind the start stands nothing, a slash, a question mark, or what keeps the target. -/
theorem proxied_of_start {rest : Text} (h : normalized_path_and_query uri = start ++ rest) :
    proxied_path_and_query (some start) uri =
      if rest = [] then ['/']
      else if ['?'] <+: rest ∨ ['/'] <+: rest then rest
      else normalized_path_and_query uri := by
  have hsome : stripStart start (normalized_path_and_query uri) = some rest := by
    rw [h]
    exact stripStart_append start rest
  unfold proxied_path_and_query
  dsimp only [Option.bind_some]
  rw [hsome]

theorem query_notMem_path (uri : Uri) : '?' ∉ normalized_path uri :=
  fun h => (pathChar_of_mem h).1 rfl

/-- A start without a question mark ends in the path. -/
theorem start_of_target (hquery : '?' ∉ start) :
    start <+: normalized_path_and_query uri ↔ start <+: normalized_path uri := by
  rw [normalized_target_eq]
  constructor
  · intro h
    rcases List.prefix_or_prefix_of_prefix h (List.prefix_append (normalized_path uri) _)
      with hpath | ⟨more, rfl⟩
    · exact hpath
    · rw [List.prefix_append_right_inj] at h
      cases hmore : uri_query uri with
      | none =>
        rw [hmore, Option.elim_none, List.prefix_nil] at h
        rw [h, List.append_nil]
      | some query =>
        rw [hmore, Option.elim_some] at h
        cases more with
        | nil => rw [List.append_nil]
        | cons c more =>
          obtain ⟨rfl, -⟩ := List.cons_prefix_cons.mp h
          exact absurd (List.mem_append_right _ List.mem_cons_self) hquery
  · intro h
    exact h.trans (List.prefix_append _ _)

/-- The matcher, for a start that a path begins with. -/
theorem prefix_matches_append (rest : Text) :
    prefix_matches start (start ++ rest) = true ↔
      start = ['/'] ∨ rest = [] ∨ ['/'] <:+ start ∨ ['/'] <+: rest := by
  unfold prefix_matches
  rw [stripStart_append]
  simp [or_assoc]

/-- A start that is not the root accepts only what begins with it. -/
theorem not_prefix_matches {path : Text} (hroot : start ≠ ['/']) (h : ¬ start <+: path) :
    prefix_matches start path = false := by
  have hne : path ≠ start := by
    rintro rfl
    exact h (List.prefix_refl _)
  have hnone : stripStart start path = none := if_neg h
  unfold prefix_matches
  simp [hroot, hne, hnone]

theorem without_slash_cons (rest : Text) : without_slash ('/' :: rest) = rest := by
  have hsome : stripStart ['/'] ('/' :: rest) = some rest := stripStart_append ['/'] rest
  unfold without_slash
  rw [hsome]
  rfl

theorem without_slash_of_not {rest : Text} (h : ¬ ['/'] <+: rest) : without_slash rest = rest := by
  have hnone : stripStart ['/'] rest = none := if_neg h
  unfold without_slash
  rw [hnone]
  rfl

/-- A path of a request is the star or begins with a slash. -/
theorem slash_of_path (h : normalized_path uri ≠ ['*']) : ['/'] <+: normalized_path uri := by
  have hsound := normalize_sound (uri_path uri)
  exact hsound.absolute fun hstar => h (hsound.star.mpr hstar)

theorem slash_of_target (h : normalized_path uri ≠ ['*']) :
    ['/'] <+: normalized_path_and_query uri := by
  rw [normalized_target_eq]
  exact (slash_of_path h).trans (List.prefix_append _ _)

/-- A start in the path: each of the three ends that the rest may have. -/
theorem stripped_of_start {rest : Text} (hpath : normalized_path uri = start ++ rest)
    (horigin : normalized_path uri ≠ ['*'])
    (hslash : ['/'] <:+ start → start = ['/'] ∨ rest = [] ∨ ['/'] <+: rest) :
    PrefixStripped start uri := by
  have htarget : normalized_path_and_query uri =
      start ++ (rest ++ (uri_query uri).elim [] ('?' :: ·)) := by
    rw [normalized_target_eq, hpath, List.append_assoc]
  have hproxied := proxied_of_start htarget
  have hrest : ∀ c ∈ rest, c ≠ '?' := by
    rintro c hc rfl
    refine query_notMem_path uri ?_
    rw [hpath]
    exact List.mem_append_right _ hc
  obtain ⟨hrendered, hread⟩ := rendered_parts hrest (uri_query uri)
  cases rest with
  | nil =>
    have hmatches : prefix_matches start (normalized_path uri) = true := by
      rw [hpath]
      exact (prefix_matches_append []).mpr (.inr (.inl rfl))
    refine ⟨fun _ => ⟨[], hpath, ?_⟩, fun hnot => ?_, ?_⟩
    · cases hmore : uri_query uri with
      | none =>
        rw [hmore] at hproxied
        rw [hproxied]
        exact ⟨rfl, rfl⟩
      | some query =>
        rw [hmore] at hproxied hrendered hread
        have hkept : proxied_path_and_query (some start) uri = '?' :: query := by
          rw [hproxied]
          simp
        rw [hkept]
        exact ⟨hrendered, hread⟩
    · rw [hmatches] at hnot
      cases hnot
    · rw [hproxied]
      cases uri_query uri with
      | none => exact .inl (List.prefix_refl _)
      | some query =>
        simp
  | cons c rest =>
    by_cases hc : c = '/'
    · subst hc
      have hmatches : prefix_matches start (normalized_path uri) = true := by
        rw [hpath]
        exact (prefix_matches_append _).mpr (.inr (.inr (.inr (List.prefix_append ['/'] rest))))
      have hcut : proxied_path_and_query (some start) uri =
          '/' :: rest ++ (uri_query uri).elim [] ('?' :: ·) := by
        rw [hproxied]
        simp
      refine ⟨fun _ => ⟨'/' :: rest, hpath, ?_, ?_⟩, fun hnot => ?_, ?_⟩
      · rw [hcut, hrendered, without_slash_cons]
        rfl
      · rw [hcut, hread]
      · rw [hmatches] at hnot
        cases hnot
      · rw [hcut]
        exact .inl (List.prefix_append ['/'] _)
    · -- the start ends inside a segment: the target is kept
      have hnot : ∀ more, ¬ ['/'] <+: c :: more := by
        intro more h
        exact hc (List.cons_prefix_cons.mp h).1.symm
      have hkept : proxied_path_and_query (some start) uri = normalized_path_and_query uri := by
        rw [hproxied, if_neg (by simp), if_neg]
        rintro (h | h)
        · exact hrest c List.mem_cons_self (List.cons_prefix_cons.mp h).1.symm
        · exact hnot _ h
      refine ⟨fun hmatches => ?_, fun _ => hkept, .inl ?_⟩
      · rw [hpath, prefix_matches_append] at hmatches
        have hroot : start = ['/'] := by
          rcases hmatches with hroot | hnil | hend | hrest
          · exact hroot
          · cases hnil
          · rcases hslash hend with hroot | hnil | hrest
            · exact hroot
            · cases hnil
            · exact absurd hrest (hnot rest)
          · exact absurd hrest (hnot rest)
        obtain ⟨hkept_path, hkept_query⟩ := normalized_target_parts uri
        refine ⟨c :: rest, hpath, ?_, ?_⟩
        · rw [hkept, hkept_path, without_slash_of_not (hnot rest), hpath, hroot]
          rfl
        · rw [hkept, hkept_query]
      · rw [hkept]
        exact slash_of_target horigin

/-- A start that reaches into the query keeps the target or cuts the path off with it. -/
theorem stripped_of_query (hquery : '?' ∈ start) (horigin : normalized_path uri ≠ ['*']) :
    PrefixStripped start uri ↔ ∀ rest, normalized_path_and_query uri = start ++ rest →
      rest ≠ [] ∧ ¬ ['/'] <+: rest ∧ ¬ ['?'] <+: rest := by
  have hroot : start ≠ ['/'] := by
    rintro rfl
    revert hquery
    decide
  have hunmatched : prefix_matches start (normalized_path uri) = false :=
    not_prefix_matches hroot fun h => query_notMem_path uri (h.subset hquery)
  constructor
  · intro h rest htarget
    have hkept := h.kept hunmatched
    rw [proxied_of_start htarget] at hkept
    have hself : start ++ rest ≠ rest := by
      intro hsame
      rw [List.append_left_eq_self.mp hsame] at hquery
      cases hquery
    refine ⟨?_, ?_, ?_⟩
    · rintro rfl
      rw [if_pos rfl, htarget, List.append_nil] at hkept
      exact hroot hkept.symm
    · intro hslash
      rw [if_neg (List.ne_nil_of_mem (hslash.subset List.mem_cons_self)), if_pos (.inr hslash),
        htarget] at hkept
      exact hself hkept.symm
    · intro hquestion
      rw [if_neg (List.ne_nil_of_mem (hquestion.subset List.mem_cons_self)), if_pos (.inl hquestion),
        htarget] at hkept
      exact hself hkept.symm
  · intro h
    have hkept : proxied_path_and_query (some start) uri = normalized_path_and_query uri := by
      by_cases hstart : start <+: normalized_path_and_query uri
      · obtain ⟨rest, hrest⟩ := hstart
        obtain ⟨hsome, hslash, hquestion⟩ := h rest hrest.symm
        rw [proxied_of_start hrest.symm, if_neg hsome, if_neg]
        rintro (hq | hs)
        · exact hquestion hq
        · exact hslash hs
      · exact proxied_of_not_start hstart
    refine ⟨fun hmatches => ?_, fun _ => hkept, .inl ?_⟩
    · rw [hunmatched] at hmatches
      cases hmatches
    · rw [hkept]
      exact slash_of_target horigin

/-- The star is forwarded as it came. -/
theorem not_stripped_of_star (hvalid : ['/'] <+: start) (h : normalized_path uri = ['*']) :
    ¬ PrefixStripped start uri := by
  obtain ⟨rest, rfl⟩ := hvalid
  have htarget : normalized_path_and_query uri = '*' :: (uri_query uri).elim [] ('?' :: ·) := by
    rw [normalized_target_eq, h]
    rfl
  have hkept : proxied_path_and_query (some (['/'] ++ rest)) uri = normalized_path_and_query uri := by
    apply proxied_of_not_start
    rw [htarget]
    intro hstart
    exact absurd (List.cons_prefix_cons.mp hstart).1 (by decide)
  intro hstripped
  have hbegins := hstripped.begins
  rw [hkept, htarget] at hbegins
  rcases hbegins with hslash | hquestion
  · exact absurd (List.cons_prefix_cons.mp hslash).1 (by decide)
  · exact absurd (List.cons_prefix_cons.mp hquestion).1 (by decide)

/-- A start that ends with a slash is not cut off where the path goes on. -/
theorem slash_of_stripped (h : PrefixStripped start uri) (hend : ['/'] <:+ start) :
    start = ['/'] ∨ ∀ rest, normalized_path uri = start ++ rest → rest = [] ∨ ['/'] <+: rest := by
  by_cases hroot : start = ['/']
  · exact .inl hroot
  · refine .inr fun rest hpath => ?_
    by_contra hmore
    obtain ⟨hsome, hslash⟩ := not_or.mp hmore
    have hmatches : prefix_matches start (normalized_path uri) = true := by
      rw [hpath]
      exact (prefix_matches_append rest).mpr (.inr (.inr (.inl hend)))
    obtain ⟨rest', hpath', hrendered, -⟩ := h.stripped hmatches
    obtain rfl : rest = rest' := List.append_cancel_left (hpath.symm.trans hpath')
    have htarget : normalized_path_and_query uri =
        start ++ (rest ++ (uri_query uri).elim [] ('?' :: ·)) := by
      rw [normalized_target_eq, hpath, List.append_assoc]
    obtain ⟨c, more, rfl⟩ := List.exists_cons_of_ne_nil hsome
    have hkept : proxied_path_and_query (some start) uri = normalized_path_and_query uri := by
      rw [proxied_of_start htarget, if_neg (by simp), if_neg]
      rintro (hquestion | hfirst)
      · refine query_notMem_path uri ?_
        rw [hpath, ← (List.cons_prefix_cons.mp hquestion).1]
        simp
      · exact hslash (List.cons_prefix_cons.mpr
          ⟨(List.cons_prefix_cons.mp hfirst).1, List.nil_prefix⟩)
    rw [hkept, (normalized_target_parts uri).1, without_slash_of_not hslash, hpath] at hrendered
    exact hroot (List.append_cancel_right hrendered)

/-- What the code forwards is what is promised exactly if the start can be stripped. -/
theorem prefix_stripped_iff {start : Text} (hvalid : ['/'] <+: start) (uri : Uri) :
    PrefixStripped start uri ↔ Strippable start uri := by
  by_cases horigin : normalized_path uri = ['*']
  · exact ⟨fun h => absurd h (not_stripped_of_star hvalid horigin), fun h => absurd horigin h.origin⟩
  · by_cases hquery : '?' ∈ start
    · rw [stripped_of_query hquery horigin]
      refine ⟨fun h => ⟨horigin, fun _ => .inr fun rest hpath => ?_, fun _ => h⟩,
        fun h => h.query hquery⟩
      refine absurd ?_ (query_notMem_path uri)
      rw [hpath]
      exact List.mem_append_left _ hquery
    · refine ⟨fun h => ⟨horigin, slash_of_stripped h, fun h => absurd h hquery⟩, fun h => ?_⟩
      by_cases hstart : start <+: normalized_path uri
      · obtain ⟨rest, hrest⟩ := hstart
        refine stripped_of_start hrest.symm horigin fun hend => ?_
        exact (h.slash hend).imp_right fun hall => hall rest hrest.symm
      · have hroot : start ≠ ['/'] := by
          rintro rfl
          exact hstart (slash_of_path horigin)
        have hkept := proxied_of_not_start (mt (start_of_target hquery).mp hstart)
        refine ⟨fun hmatches => ?_, fun _ => hkept, .inl ?_⟩
        · rw [not_prefix_matches hroot hstart] at hmatches
          cases hmatches
        · rw [hkept]
          exact slash_of_target horigin

def users_uri : Uri := ⟨none, some ⟨"/api/users?id=7".toList, by decide⟩⟩

theorem prefix_stripped_iff_api :
    PrefixStripped "/api".toList users_uri ↔ Strippable "/api".toList users_uri :=
  prefix_stripped_iff (by decide) users_uri

example : proxied_path_and_query (some "/api".toList) users_uri = "/users?id=7".toList := by decide

/-- With a slash at its end the same start stays in the path. -/
theorem slash_not_stripped :
    prefix_matches "/api/".toList (normalized_path users_uri) = true ∧
      ¬ PrefixStripped "/api/".toList users_uri := by
  refine ⟨by decide, fun h => ?_⟩
  obtain ⟨rest, hpath, hrendered, -⟩ := h.stripped (by decide)
  have hrest : rest = "users".toList := by
    have hsame : "/api/".toList ++ "users".toList = "/api/".toList ++ rest := hpath
    exact (List.append_cancel_left hsame).symm
  rw [hrest] at hrendered
  revert hrendered
  decide

end Branches

end rginx.http
