-- The target of a request, from `request_target.rs`: what the normalization of its path
-- leaves, and that routes are matched with the path that `build_proxy_uri` of
-- `proxy/common.rs` forwards.
import Rginx.ForwardAttempts
import Rginx.RouteSelection
import Rginx.SeparatedFields

open rust_text separated_fields rginx.cache rginx.proxy

namespace rginx.http

/-! ## Segments -/

/-- A segment that names something: neither empty, nor a dot or two, nor parted. -/
structure Named (segment : Text) : Prop where
  ne_nil : segment ≠ []
  ne_dot : segment ≠ ['.']
  ne_dots : segment ≠ ['.', '.']
  whole : '/' ∉ segment

/-- The segments that are left of others when dots are resolved; none climbs above the root. -/
inductive Resolves : List Text → List Text → Prop
  | root : Resolves [] []
  | stay {segments resolved : List Text} {segment : Text} (h : Resolves segments resolved)
    (hstay : segment = [] ∨ segment = ['.']) : Resolves (segments ++ [segment]) resolved
  | climb {segments resolved : List Text} {left : Text} (h : Resolves segments (resolved ++ [left])) :
    Resolves (segments ++ [['.', '.']]) resolved
  | enter {segments resolved : List Text} {segment : Text} (h : Resolves segments resolved)
    (hstay : ¬ (segment = [] ∨ segment = ['.'])) (hclimb : segment ≠ ['.', '.']) :
    Resolves (segments ++ [segment]) (resolved ++ [segment])

/-- One segment of the loop. -/
theorem normalize_loop_append (normalized first second : List Text) :
    normalize_loop normalized (first ++ second) =
      (normalize_loop normalized first).bind fun normalized => normalize_loop normalized second := by
  induction first generalizing normalized with
  | nil => rfl
  | cons segment first ih =>
    rw [List.cons_append]
    simp only [normalize_loop]
    split
    · exact ih _
    · split
      · split
        · rfl
        · exact ih _
      · exact ih _

/-- The loop resolves the segments, and stops if one climbs above the root. -/
theorem normalize_loop_iff {segments resolved : List Text} :
    normalize_loop [] segments = some resolved ↔ Resolves segments resolved := by
  constructor
  · intro h
    induction segments using List.reverseRecOn generalizing resolved with
    | nil =>
      obtain rfl := Option.some.inj h
      exact .root
    | append_singleton segments segment ih =>
      rw [normalize_loop_append, Option.bind_eq_some_iff] at h
      obtain ⟨normalized, hfirst, hlast⟩ := h
      unfold normalize_loop at hlast
      split at hlast
      · rename_i hstay
        obtain rfl := Option.some.inj hlast
        exact .stay (ih hfirst) hstay
      · rename_i hstay
        split at hlast
        · rename_i hclimb
          split at hlast
          · cases hlast
          · rename_i hroot
            obtain rfl := Option.some.inj hlast
            rw [hclimb]
            apply Resolves.climb
            rw [List.dropLast_append_getLast hroot]
            exact ih hfirst
        · rename_i hclimb
          obtain rfl := Option.some.inj hlast
          exact .enter (ih hfirst) hstay hclimb
  · intro h
    induction h with
    | root => rfl
    | stay _ hstay ih =>
      rw [normalize_loop_append, ih, Option.bind_some, normalize_loop, if_pos hstay]
      rfl
    | climb _ ih =>
      rw [normalize_loop_append, ih, Option.bind_some, normalize_loop, if_neg (by simp), if_pos rfl,
        if_neg (by simp), List.dropLast_concat]
      rfl
    | enter _ hstay hclimb ih =>
      rw [normalize_loop_append, ih, Option.bind_some, normalize_loop, if_neg hstay, if_neg hclimb]
      rfl

theorem named_of_resolves {segments resolved : List Text} (h : Resolves segments resolved)
    (hwhole : ∀ segment ∈ segments, '/' ∉ segment) : ∀ segment ∈ resolved, Named segment := by
  induction h with
  | root => exact nofun
  | stay _ _ ih => exact ih fun segment hmem => hwhole segment (List.mem_append_left _ hmem)
  | climb _ ih =>
    intro segment hmem
    exact ih (fun other hother => hwhole other (List.mem_append_left _ hother)) segment
      (List.mem_append_left _ hmem)
  | @enter segments resolved last _ hstay hclimb ih =>
    intro segment hmem
    rcases List.mem_append.mp hmem with hmem | hmem
    · exact ih (fun other hother => hwhole other (List.mem_append_left _ hother)) segment hmem
    · obtain rfl := List.mem_singleton.mp hmem
      exact ⟨fun h => hstay (.inl h), fun h => hstay (.inr h), hclimb, hwhole _ (by simp)⟩

/-- Segments that name something resolve to themselves. -/
theorem resolves_named {segments : List Text} (h : ∀ segment ∈ segments, Named segment) :
    Resolves segments segments := by
  induction segments using List.reverseRecOn with
  | nil => exact .root
  | append_singleton segments segment ih =>
    have hlast := h segment (by simp)
    refine .enter (ih fun other hother => h other (List.mem_append_left _ hother)) ?_ hlast.ne_dots
    rintro (hnil | hdot)
    · exact hlast.ne_nil hnil
    · exact hlast.ne_dot hdot

/-! ## Joined paths -/

/-- The path of some segments, with a slash at its end or without one. -/
def joined (segments : List Text) (trailing : Bool) : Text :=
  '/' :: (List.intercalate ['/'] segments ++ if trailing && segments ≠ [] then ['/'] else [])

/-- The root, and a trailing slash, have an empty segment at the end. -/
def last_segments (segments : List Text) (trailing : Bool) : List Text :=
  if trailing || segments = [] then segments ++ [[]] else segments

theorem joined_eq (segments : List Text) (trailing : Bool) :
    joined segments trailing = List.intercalate ['/'] ([] :: last_segments segments trailing) := by
  have hlast : last_segments segments trailing ≠ [] := by
    unfold last_segments
    split
    · simp
    · rename_i h
      simp only [Bool.or_eq_true, decide_eq_true_eq, not_or] at h
      exact h.2
  rw [List.intercalate_cons_of_ne_nil hlast]
  unfold joined last_segments
  by_cases hroot : segments = []
  · simp [hroot]
  · cases trailing with
    | false => simp [hroot]
    | true =>
      rw [if_pos (by simp [hroot]), if_pos (by simp), intercalate_append hroot (by simp)]
      simp

theorem split_joined {segments : List Text} (h : ∀ segment ∈ segments, Named segment)
    (trailing : Bool) :
    split '/' (joined segments trailing) = [] :: last_segments segments trailing := by
  rw [joined_eq]
  refine List.splitOn_intercalate '/' ?_ (List.cons_ne_nil _ _)
  intro segment hmem
  unfold last_segments at hmem
  split at hmem
  · simp only [List.mem_cons, List.mem_append, List.not_mem_nil, or_false] at hmem
    rcases hmem with rfl | hmem | rfl
    · exact List.not_mem_nil
    · exact (h segment hmem).whole
    · exact List.not_mem_nil
  · rcases List.mem_cons.mp hmem with rfl | hmem
    · exact List.not_mem_nil
    · exact (h segment hmem).whole

/-- Empty segments are passed over. -/
theorem resolves_last {segments : List Text} (h : ∀ segment ∈ segments, Named segment)
    (trailing : Bool) : normalize_loop [] ([] :: last_segments segments trailing) = some segments := by
  have hsegments := normalize_loop_iff.mpr (resolves_named h)
  rw [normalize_loop, if_pos (.inl rfl)]
  unfold last_segments
  split
  · rw [normalize_loop_append, hsegments]
    rfl
  · exact hsegments

/-- The segments that name something make up a text that neither starts nor ends with a slash. -/
theorem intercalate_ends {segments : List Text} (h : ∀ segment ∈ segments, Named segment)
    (hsome : segments ≠ []) :
    List.intercalate ['/'] segments ≠ [] ∧ ¬ ['/'] <+: List.intercalate ['/'] segments ∧
      ¬ ['/'] <:+ List.intercalate ['/'] segments := by
  have hfirst : ∃ c rest, List.intercalate ['/'] segments = c :: rest ∧ c ≠ '/' := by
    obtain ⟨segment, others, rfl⟩ := List.exists_cons_of_ne_nil hsome
    have hnamed := h segment List.mem_cons_self
    obtain ⟨c, rest, rfl⟩ := List.exists_cons_of_ne_nil hnamed.ne_nil
    have hc : c ≠ '/' := by
      rintro rfl
      exact hnamed.whole List.mem_cons_self
    cases others with
    | nil => exact ⟨c, rest, List.intercalate_singleton, hc⟩
    | cons next others =>
      rw [List.intercalate_cons_cons]
      exact ⟨c, _, rfl, hc⟩
  have hlast : ∃ front c, List.intercalate ['/'] segments = front ++ [c] ∧ c ≠ '/' := by
    obtain ⟨others, segment, rfl⟩ := List.eq_nil_or_concat' segments |>.resolve_left hsome
    have hnamed := h segment (by simp)
    obtain ⟨front, c, rfl⟩ := List.eq_nil_or_concat' segment |>.resolve_left hnamed.ne_nil
    have hc : c ≠ '/' := by
      rintro rfl
      exact hnamed.whole (by simp)
    by_cases hothers : others = []
    · exact ⟨front, c, by simp [hothers], hc⟩
    · rw [intercalate_append hothers (by simp), List.intercalate_singleton, ← List.append_assoc]
      exact ⟨_, c, rfl, hc⟩
  obtain ⟨c, rest, hcons, hc⟩ := hfirst
  obtain ⟨front, d, hconcat, hd⟩ := hlast
  refine ⟨?_, ?_, ?_⟩
  · rw [hcons]
    exact List.cons_ne_nil _ _
  · rw [hcons, List.cons_prefix_cons]
    exact fun hslash => hc hslash.1.symm
  · rw [hconcat, List.suffix_concat_iff]
    rintro (hnil | ⟨others, hothers, -⟩)
    · cases hnil
    · have hmem : d ∈ ['/'] := by
        rw [hothers]
        simp
      exact hd (List.mem_singleton.mp hmem)

/-- What the normalization gives: the joined segments, or the root where one climbs above it. -/
theorem normalize_request_path_eq {path : Text} (hstar : path ≠ ['*']) :
    normalize_request_path path =
      match normalize_loop [] (split '/' path) with
      | none => ['/']
      | some segments => joined segments (['/'] <:+ path) := by
  by_cases hnil : path = []
  · rw [hnil, normalize_request_path_nil]
    rfl
  · unfold normalize_request_path
    rw [if_neg hstar, if_neg hnil]
    dsimp only
    rcases hloop : normalize_loop [] (split '/' path) with _ | segments
    · rfl
    · have hnamed := named_of_resolves (normalize_loop_iff.mp hloop) fun segment hmem hslash =>
        (mem_of_mem_splitOn hmem hslash).2 rfl
      dsimp only
      by_cases hroot : segments = []
      · subst hroot
        by_cases habsolute : ['/'] <+: path
        · simp [habsolute, joined]
        · simp [habsolute, joined]
      · obtain ⟨hsome, hfirst, hlast⟩ := intercalate_ends hnamed hroot
        unfold joined
        generalize List.intercalate ['/'] segments = text at hsome hfirst hlast
        have hslash : ¬ ['/'] <:+ '/' :: text := by
          rw [List.suffix_cons_iff]
          rintro (hsame | hsuffix)
          · exact hsome (List.cons.inj hsame).2.symm
          · exact hlast hsuffix
        have hne : text ≠ ['/'] := by
          rintro rfl
          exact hfirst (List.prefix_refl _)
        have hfirst' : ¬ ['/'] <+: text ++ ['/'] := by
          obtain ⟨c, rest, rfl⟩ := List.exists_cons_of_ne_nil hsome
          rw [List.cons_append, List.cons_prefix_cons]
          exact fun h => hfirst (List.cons_prefix_cons.mpr ⟨h.1, List.nil_prefix⟩)
        by_cases habsolute : ['/'] <+: path
        · by_cases htrailing : ['/'] <:+ path
          · simp [habsolute, htrailing, hroot, hslash, hsome]
          · simp [habsolute, htrailing]
        · by_cases htrailing : ['/'] <:+ path
          · simp [habsolute, htrailing, hroot, hlast, hsome, hne, hfirst']
          · simp [habsolute, htrailing, hsome, hfirst]

theorem joined_ne_star (segments : List Text) (trailing : Bool) : joined segments trailing ≠ ['*'] := by
  intro h
  have hslash := (List.cons.inj h).1
  revert hslash
  decide

/-- Joined segments are normalized. -/
theorem normalize_joined {segments : List Text} (h : ∀ segment ∈ segments, Named segment)
    (trailing : Bool) : normalize_request_path (joined segments trailing) = joined segments trailing := by
  rw [normalize_request_path_eq (joined_ne_star _ _), split_joined h, resolves_last h]
  dsimp only
  by_cases hroot : segments = []
  · simp [hroot, joined]
  · obtain ⟨hsome, hfirst, hlast⟩ := intercalate_ends h hroot
    have hsuffix : ['/'] <:+ joined segments trailing ↔ trailing = true := by
      unfold joined
      rw [List.suffix_cons_iff]
      cases trailing with
      | false => simp [hsome, hlast]
      | true => simp [hroot, List.suffix_append]
    congr 1
    cases trailing with
    | false => simpa using hsuffix
    | true => simpa using hsuffix

/-- The star, or the joined segments of a path. -/
theorem normalize_cases (path : Text) :
    path = ['*'] ∧ normalize_request_path path = ['*'] ∨
      ∃ segments trailing, path ≠ ['*'] ∧ (∀ segment ∈ segments, Named segment) ∧
        normalize_request_path path = joined segments trailing ∧
        ∀ resolved, Resolves (split '/' path) resolved → resolved = segments := by
  by_cases hstar : path = ['*']
  · exact .inl ⟨hstar, if_pos hstar⟩
  · have heq := normalize_request_path_eq hstar
    rcases hloop : normalize_loop [] (split '/' path) with _ | segments
    · rw [hloop] at heq
      refine .inr ⟨[], false, hstar, nofun, heq, ?_⟩
      intro resolved hresolves
      rw [normalize_loop_iff.mpr hresolves] at hloop
      cases hloop
    · rw [hloop] at heq
      refine .inr ⟨segments, _, hstar, ?_, heq, ?_⟩
      · exact named_of_resolves (normalize_loop_iff.mp hloop) fun segment hmem hslash =>
          (mem_of_mem_splitOn hmem hslash).2 rfl
      · intro resolved hresolves
        rw [normalize_loop_iff.mpr hresolves] at hloop
        exact Option.some.inj hloop

theorem filter_last_segments {segments : List Text} (h : ∀ segment ∈ segments, Named segment)
    (trailing : Bool) : ([] :: last_segments segments trailing).filter (· ≠ []) = segments := by
  have hall : ∀ segment ∈ segments, segment ≠ [] := fun segment hmem => (h segment hmem).ne_nil
  unfold last_segments
  split
  · simpa [List.filter_append] using hall
  · simpa using hall

/-- A normalized path is the star or starts with a slash; it has no empty segment and no dots, but
an empty one at the end for a trailing slash; it is normalized; and its segments are the resolved
ones. -/
structure Sound (path : Text) : Prop where
  star : normalize_request_path path = ['*'] ↔ path = ['*']
  absolute : path ≠ ['*'] → ['/'] <+: normalize_request_path path
  named : path ≠ ['*'] → ∃ segments, (∀ segment ∈ segments, Named segment) ∧
    (split '/' (normalize_request_path path) = [] :: segments ∨
      split '/' (normalize_request_path path) = [] :: (segments ++ [[]]))
  idempotent : normalize_request_path (normalize_request_path path) = normalize_request_path path
  resolved : ∀ segments, Resolves (split '/' path) segments →
    (split '/' (normalize_request_path path)).filter (· ≠ []) = segments

theorem normalize_sound (path : Text) : Sound path := by
  rcases normalize_cases path with ⟨rfl, hstar⟩ | ⟨segments, trailing, hstar, hnamed, heq, hresolves⟩
  · refine ⟨by simp [hstar], fun h => absurd rfl h, fun h => absurd rfl h, by rw [hstar, hstar], ?_⟩
    intro segments hresolves
    have hone : split '/' ['*'] = [['*']] := by decide
    have hloop := normalize_loop_iff.mpr hresolves
    rw [hone] at hloop
    obtain rfl : [['*']] = segments := Option.some.inj hloop
    rw [hstar, hone]
    rfl
  · have hsplit := split_joined hnamed trailing
    refine ⟨?_, fun _ => ?_, fun _ => ⟨segments, hnamed, ?_⟩, ?_, ?_⟩
    · rw [heq]
      exact ⟨fun h => absurd h (joined_ne_star _ _), fun h => absurd h hstar⟩
    · rw [heq]
      exact List.prefix_append ['/'] _
    · rw [heq, hsplit]
      unfold last_segments
      split
      · exact .inr rfl
      · exact .inl rfl
    · rw [heq, normalize_joined hnamed]
    · intro resolved hresolved
      rw [heq, hsplit, filter_last_segments hnamed, hresolves resolved hresolved]

/-! ## Forwarding -/

/-- `http::Uri::path` and `http::Uri::query` of a URI that is built with a path and query. -/
def rendered_path (path_and_query : Text) : Text :=
  let path := path_and_query.takeWhile (· ≠ '?')
  if path = [] then ['/'] else path

def rendered_query (path_and_query : Text) : Option Text :=
  (split_once '?' path_and_query).map Prod.snd

def built_path (built : BuiltUri) : Text := rendered_path built.path_and_query

def built_query (built : BuiltUri) : Option Text := rendered_query built.path_and_query

/-- The part of `handle` that chooses a route: by the path, and by what the headers and the path say
of gRPC. Access control and rate limits are those of the route. -/
def handle_route {α : Type} (routes : List (Route α))
    (grpc_metadata : Text → Option GrpcRequestMatch) (uri : Uri) : Option (Route α) :=
  let request_path := normalized_path uri
  select_route_with_context routes ⟨request_path, grpc_metadata request_path⟩

/-- Resolved segments are segments. -/
theorem mem_of_resolves {segments resolved : List Text} (h : Resolves segments resolved) :
    ∀ segment ∈ resolved, segment ∈ segments := by
  induction h with
  | root => exact nofun
  | stay _ _ ih => exact fun segment hmem => List.mem_append_left _ (ih segment hmem)
  | climb _ ih =>
    exact fun segment hmem => List.mem_append_left _ (ih segment (List.mem_append_left _ hmem))
  | enter _ _ _ ih =>
    intro segment hmem
    rcases List.mem_append.mp hmem with hmem | hmem
    · exact List.mem_append_left _ (ih segment hmem)
    · exact List.mem_append_right _ hmem

/-- The normalization adds slashes only. -/
theorem mem_normalize {path : Text} {c : Char} (h : c ∈ normalize_request_path path) :
    c = '/' ∨ c ∈ path := by
  by_cases hstar : path = ['*']
  · rw [hstar] at h ⊢
    exact .inr h
  · rw [normalize_request_path_eq hstar] at h
    split at h
    · exact .inl (List.mem_singleton.mp h)
    · rename_i segments hloop
      unfold joined at h
      rcases List.mem_cons.mp h with rfl | h
      · exact .inl rfl
      · rcases List.mem_append.mp h with h | h
        · refine (mem_of_mem_intercalate h).imp_right ?_
          rintro ⟨segment, hsegment, hc⟩
          exact (mem_of_mem_splitOn
            (mem_of_resolves (normalize_loop_iff.mp hloop) segment hsegment) hc).1
        · split at h
          · exact .inl (List.mem_singleton.mp h)
          · cases h

/-- A path has the characters of a path. -/
theorem pathChar_of_mem {uri : Uri} {c : Char} (h : c ∈ normalized_path uri) :
    c ≠ '?' ∧ c ≠ '#' := by
  have hslash : ∀ c : Char, c = '/' → c ≠ '?' ∧ c ≠ '#' := by
    rintro c rfl
    decide
  rcases mem_normalize h with hc | hc
  · exact hslash c hc
  · unfold uri_path at hc
    cases huri : uri.path_and_query with
    | none =>
      rw [huri] at hc
      cases hc
    | some target =>
      rw [huri, Option.map_some, Option.getD_some, path_of] at hc
      split at hc
      · exact hslash c (List.mem_singleton.mp hc)
      · have hquery := List.mem_takeWhile_imp hc
        have hchar := List.all_eq_true.mp target.valid.1 c hc
        refine ⟨by simpa using hquery, ?_⟩
        rintro rfl
        revert hchar
        decide

theorem normalize_ne_nil (path : Text) : normalize_request_path path ≠ [] := by
  rcases normalize_cases path with ⟨-, hstar⟩ | ⟨segments, trailing, -, -, heq, -⟩
  · simp [hstar]
  · rw [heq]
    exact List.cons_ne_nil _ _

/-- Behind a path without a question mark, a query is read back. -/
theorem rendered_parts {path : Text} (hpath : ∀ c ∈ path, c ≠ '?') (query : Option Text) :
    rendered_path (path ++ query.elim [] ('?' :: ·)) = (if path = [] then ['/'] else path) ∧
      rendered_query (path ++ query.elim [] ('?' :: ·)) = query := by
  have hmem : '?' ∉ path := fun h => hpath '?' h rfl
  have hall : ∀ c ∈ path, decide (c ≠ '?') = true := fun c hc => decide_eq_true (hpath c hc)
  unfold rendered_path rendered_query
  cases query with
  | none =>
    rw [Option.elim_none, List.append_nil, split_once_eq_none.mpr hmem,
      List.takeWhile_eq_self_iff.mpr hall]
    exact ⟨rfl, rfl⟩
  | some query =>
    rw [Option.elim_some, split_once_append hmem, List.takeWhile_append_of_pos hall]
    simp

theorem normalized_target_eq (uri : Uri) :
    normalized_path_and_query uri = normalized_path uri ++ (uri_query uri).elim [] ('?' :: ·) := by
  unfold normalized_path_and_query
  cases uri_query uri with
  | none => exact (List.append_nil _).symm
  | some query => rfl

/-- The path and the query of a normalized target are read back from it. -/
theorem normalized_target_parts (uri : Uri) :
    rendered_path (normalized_path_and_query uri) = normalized_path uri ∧
      rendered_query (normalized_path_and_query uri) = uri_query uri := by
  obtain ⟨hpath, hquery⟩ := rendered_parts (fun c hc => (@pathChar_of_mem uri c hc).1) (uri_query uri)
  rw [normalized_target_eq, hpath, hquery]
  exact ⟨if_neg (normalize_ne_nil _), rfl⟩

/-- There is no fragment that `http` would cut off. -/
theorem hash_notMem_target (uri : Uri) : '#' ∉ normalized_path_and_query uri := by
  intro h
  unfold normalized_path_and_query at h
  split at h
  · rename_i query hquery
    rcases List.mem_append.mp h with h | h
    · exact (pathChar_of_mem h).2 rfl
    · unfold uri_query at hquery
      obtain ⟨target, htarget, hsplit⟩ := Option.bind_eq_some_iff.mp hquery
      obtain ⟨⟨left, right⟩, hpair, rfl⟩ := Option.map_eq_some_iff.mp hsplit
      obtain ⟨hleft, hdata⟩ := split_once_eq_some.mp hpair
      have hdrop : target.data.dropWhile (· ≠ '?') = '?' :: right := by
        have hall : ∀ c ∈ left, decide (c ≠ '?') = true := by
          intro c hc
          rw [decide_eq_true_eq]
          rintro rfl
          exact hleft hc
        rw [hdata, List.dropWhile_append_of_pos hall, List.dropWhile_cons_of_neg (by simp)]
      have hvalid := target.valid.2
      rw [hdrop] at hvalid
      rcases List.mem_cons.mp h with h | h
      · revert h
        decide
      · have hchar := List.all_eq_true.mp hvalid '#' h
        revert hchar
        decide
  · exact (pathChar_of_mem h).2 rfl

theorem build_proxy_uri_target {env : ForwardEnv} {peer : DialedPeer} {uri : Uri} {built : BuiltUri}
    (h : build_proxy_uri env peer uri = some built) :
    built.path_and_query = proxied_path_and_query env.strip_start uri := by
  unfold build_proxy_uri at h
  dsimp only at h
  split at h
  · obtain rfl := Option.some.inj h
    rfl
  · cases h

/-- Every path is normalized soundly; and without a part to cut off the URI that is built has the
path that the route was chosen with, the query of the request, and no fragment. -/
theorem request_target_sound {α : Type} (routes : List (Route α))
    (grpc_metadata : Text → Option GrpcRequestMatch) :
    (∀ path, Sound path) ∧
    ∀ (env : ForwardEnv) (peer : DialedPeer) (uri : Uri) (built : BuiltUri),
      env.strip_start = none → build_proxy_uri env peer uri = some built →
        built_path built = normalized_path uri ∧
        built_query built = uri_query uri ∧
        '#' ∉ built.path_and_query ∧
        handle_route routes grpc_metadata uri =
          select_route_with_context routes ⟨built_path built, grpc_metadata (built_path built)⟩ := by
  refine ⟨normalize_sound, ?_⟩
  intro env peer uri built hstrip hbuilt
  have htarget : built.path_and_query = normalized_path_and_query uri := by
    rw [build_proxy_uri_target hbuilt, hstrip]
    rfl
  obtain ⟨hpath, hquery⟩ := normalized_target_parts uri
  have hbuilt_path : built_path built = normalized_path uri := by
    unfold built_path
    rw [htarget, hpath]
  refine ⟨hbuilt_path, ?_, ?_, ?_⟩
  · unfold built_query
    rw [htarget, hquery]
  · rw [htarget]
    exact hash_notMem_target uri
  · rw [hbuilt_path]
    rfl

def dotted_uri : Uri := ⟨none, some ⟨"/api/../b//c?x=1".toList, by decide⟩⟩

theorem request_target_sound_dotted :
    built_path ⟨first_peer.scheme, first_peer.upstream_authority,
      proxied_path_and_query none dotted_uri⟩ = normalized_path dotted_uri :=
  ((request_target_sound ([] : List (Route Unit)) fun _ => none).2 two_peers first_peer dotted_uri _
    rfl rfl).1

example : normalize_request_path "/a/./b//../c/".toList = "/a/c/".toList := by decide

example : normalize_request_path "/a/../../etc/passwd".toList = ['/'] := by decide

end rginx.http
