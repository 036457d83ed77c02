-- The priority of the routes of a virtual host, from `router.rs` of the crate `rginx-http` and
-- `rginx-core/src/config/route.rs`: what the two loops select, stated over the list of routes, and
-- what of the order of the list it depends on.
import Rginx.RouteSelection

open rust_text
open selection (select select_append select_eq_some select_eq_none select_map)

namespace rginx.http

/-! ## How specific a route is -/

def RouteMatcher.is_exact : RouteMatcher → Bool
  | .Exact _ => true
  | _ => false

def RouteMatcher.is_preferred : RouteMatcher → Bool
  | .PreferredPrefix _ => true
  | _ => false

/-- A matcher of the start of the path, preferred or plain. -/
def RouteMatcher.is_start : RouteMatcher → Bool
  | .PreferredPrefix _ => true
  | .Prefix _ => true
  | _ => false

/-- The text of an exact matcher or of one of the start of the path. -/
def RouteMatcher.text : RouteMatcher → Text
  | .Exact path => path
  | .PreferredPrefix path => path
  | .Prefix path => path
  | .Regex _ => []

section Priority

variable {α : Type}

/-- The number of gRPC constraints. -/
def grpc_rank (route : Route α) : Nat := (route.grpc_match.map GrpcRouteMatch.priority).getD 0

/-- By length, then preferred over plain, then by the number of gRPC constraints. -/
def specificity (route : Route α) : Nat ×ₗ Bool ×ₗ Nat :=
  toLex ((as_bytes route.matcher.text).length, toLex (route.matcher.is_preferred, grpc_rank route))

/-- A matching route of the kind is first of the most specific of its kind that match. -/
structure MostSpecific (kind : RouteMatcher → Bool) (routes : List (Route α))
    (context : RouteMatchContext) (route : Route α) : Prop where
  of_kind : kind route.matcher = true
  matching : route_matches route context = true
  first : ∃ before after, routes = before ++ route :: after ∧
    (∀ other ∈ before, kind other.matcher = true → route_matches other context = true →
      specificity other < specificity route) ∧
    ∀ other ∈ after, kind other.matcher = true → route_matches other context = true →
      specificity other ≤ specificity route

/-- The first matching route of the kind. -/
structure FirstMatch (kind : RouteMatcher → Bool) (routes : List (Route α))
    (context : RouteMatchContext) (route : Route α) : Prop where
  of_kind : kind route.matcher = true
  matching : route_matches route context = true
  first : ∃ before after, routes = before ++ route :: after ∧
    ∀ other ∈ before, kind other.matcher = true → route_matches other context = false

def NoMatch (kind : RouteMatcher → Bool) (routes : List (Route α)) (context : RouteMatchContext) :
    Prop :=
  ∀ route ∈ routes, kind route.matcher = true → route_matches route context = false

/-- The declared priority: an exact match, the longest start where it is preferred, the first
expression, the longest start. -/
inductive Prioritized (routes : List (Route α)) (context : RouteMatchContext) :
    Option (Route α) → Prop
  | exact {route : Route α} (best : MostSpecific RouteMatcher.is_exact routes context route) :
      Prioritized routes context (some route)
  | preferred {route : Route α} (no_exact : NoMatch RouteMatcher.is_exact routes context)
      (best : MostSpecific RouteMatcher.is_start routes context route)
      (preferred : route.matcher.is_preferred = true) : Prioritized routes context (some route)
  | regex {route : Route α} (no_exact : NoMatch RouteMatcher.is_exact routes context)
      (plain : ∀ start, MostSpecific RouteMatcher.is_start routes context start →
        start.matcher.is_preferred = false)
      (first : FirstMatch RouteMatcher.is_regex routes context route) :
      Prioritized routes context (some route)
  | start {route : Route α} (no_exact : NoMatch RouteMatcher.is_exact routes context)
      (best : MostSpecific RouteMatcher.is_start routes context route)
      (plain : route.matcher.is_preferred = false)
      (no_regex : NoMatch RouteMatcher.is_regex routes context) :
      Prioritized routes context (some route)
  | nothing (no_match : NoMatch (fun _ => true) routes context) : Prioritized routes context none

/-! ## What the first loop finds -/

/-- The rank of a matching route of the kind. -/
def kind_rank (kind : RouteMatcher → Bool) (context : RouteMatchContext) (route : Route α) :
    Option (Nat ×ₗ Bool ×ₗ Nat) :=
  if kind route.matcher = true ∧ route_matches route context = true then some (specificity route)
  else none

theorem kind_rank_eq_some {kind : RouteMatcher → Bool} {context : RouteMatchContext}
    {route : Route α} {key : Nat ×ₗ Bool ×ₗ Nat} :
    kind_rank kind context route = some key ↔
      (kind route.matcher = true ∧ route_matches route context = true) ∧ specificity route = key := by
  unfold kind_rank
  split_ifs with h
  · simp [h]
  · simp [h]

theorem kind_rank_eq_none {kind : RouteMatcher → Bool} {context : RouteMatchContext}
    {route : Route α} : kind_rank kind context route = none ↔
      (kind route.matcher = true → route_matches route context = false) := by
  unfold kind_rank
  split_ifs with h
  · simp [h]
  · simp only [not_and, Bool.not_eq_true] at h
    simp only [true_iff]
    exact h

def candidate_at (row : Route α × Nat) : Candidate α :=
  Candidate.new row.2 row.1 row.1.matcher.text row.1.matcher.is_preferred

/-- The candidate of the first of the most specific rows. -/
def best_candidate (kind : RouteMatcher → Bool) (context : RouteMatchContext)
    (rows : List (Route α × Nat)) : Option (Candidate α) :=
  (select (fun row => kind_rank kind context row.1) rows).map fun best => candidate_at best.2

/-- A later candidate takes the place of an earlier one where it is more specific. -/
theorem select_more_specific_later {existing candidate : Route α × Nat}
    (h : existing.2 < candidate.2) :
    select_more_specific (some (candidate_at existing)) (candidate_at candidate) =
      if specificity existing.1 < specificity candidate.1 then candidate_at candidate
      else candidate_at existing := by
  have hkey : specificity existing.1 < specificity candidate.1 ↔
      (candidate_at existing).match_len < (candidate_at candidate).match_len ∨
      (candidate_at existing).match_len = (candidate_at candidate).match_len ∧
        ((candidate_at existing).preferred < (candidate_at candidate).preferred ∨
          (candidate_at existing).preferred = (candidate_at candidate).preferred ∧
            (candidate_at existing).grpc_rank < (candidate_at candidate).grpc_rank) := by
    unfold specificity
    rw [Prod.Lex.toLex_lt_toLex, Prod.Lex.toLex_lt_toLex]
    rfl
  have hindex : ¬ (candidate_at candidate).index < (candidate_at existing).index := not_lt.mpr h.le
  unfold select_more_specific
  simp only [hkey, if_neg hindex]
  rcases lt_trichotomy (candidate_at existing).match_len (candidate_at candidate).match_len
    with hlen | hlen | hlen
  · rw [if_pos hlen, if_pos (.inl hlen)]
  · rw [if_neg hlen.not_lt, if_neg hlen.not_gt]
    cases (candidate_at existing).preferred <;> cases (candidate_at candidate).preferred
    · rcases lt_trichotomy (candidate_at existing).grpc_rank (candidate_at candidate).grpc_rank
        with hrank | hrank | hrank <;> simp [hlen, hrank]
    · simp [hlen]
    · simp [hlen]
    · rcases lt_trichotomy (candidate_at existing).grpc_rank (candidate_at candidate).grpc_rank
        with hrank | hrank | hrank <;> simp [hlen, hrank]
  · have hnot : ¬ ((candidate_at existing).match_len < (candidate_at candidate).match_len ∨
        (candidate_at existing).match_len = (candidate_at candidate).match_len ∧
          ((candidate_at existing).preferred < (candidate_at candidate).preferred ∨
            (candidate_at existing).preferred = (candidate_at candidate).preferred ∧
              (candidate_at existing).grpc_rank < (candidate_at candidate).grpc_rank)) := by
      rintro (hless | ⟨hsame, -⟩)
      · exact hless.not_gt hlen
      · exact hlen.ne' hsame
    rw [if_neg hlen.not_gt, if_pos hlen, if_neg hnot]

/-- A row after the others changes what was found where it has a rank. -/
theorem best_candidate_append {kind : RouteMatcher → Bool} {context : RouteMatchContext}
    {rows : List (Route α × Nat)} {row : Route α × Nat} (hlater : ∀ other ∈ rows, other.2 < row.2) :
    best_candidate kind context (rows ++ [row]) =
      if kind row.1.matcher = true ∧ route_matches row.1 context = true then
        some (select_more_specific (best_candidate kind context rows) (candidate_at row))
      else best_candidate kind context rows := by
  unfold best_candidate
  rw [select_append]
  unfold selection.select_step
  dsimp only
  split_ifs with h
  · rw [kind_rank_eq_some.mpr ⟨h, rfl⟩]
    cases hselect : select (fun row => kind_rank kind context row.1) rows with
    | none => rfl
    | some best =>
      have hbest := select_eq_some.mp hselect
      obtain ⟨before, after, hsplit, -⟩ := hbest.first
      have hkey := (kind_rank_eq_some.mp hbest.ranked).2
      have hindex := hlater best.2 (by simp [hsplit])
      rw [Option.map_some, select_more_specific_later hindex, hkey]
      dsimp only
      split_ifs <;> rfl
  · have hnone : kind_rank kind context row.1 = none := if_neg h
    rw [hnone]

/-- One turn of the loop, for a row that stands after those of the turns before. -/
theorem select_step_best {context : RouteMatchContext} {rows : List (Route α × Nat)}
    {row : Route α × Nat} (hlater : ∀ other ∈ rows, other.2 < row.2) :
    select_step context (best_candidate RouteMatcher.is_exact context rows,
        best_candidate RouteMatcher.is_start context rows) row =
      (best_candidate RouteMatcher.is_exact context (rows ++ [row]),
        best_candidate RouteMatcher.is_start context (rows ++ [row])) := by
  rw [best_candidate_append hlater, best_candidate_append hlater]
  obtain ⟨route, index⟩ := row
  obtain ⟨matcher, grpc_match, action⟩ := route
  unfold select_step
  cases hmatches : route_matches ⟨matcher, grpc_match, action⟩ context with
  | false => simp [hmatches]
  | true => cases matcher <;> simp [hmatches, RouteMatcher.is_exact, RouteMatcher.is_start,
      candidate_at, RouteMatcher.text, RouteMatcher.is_preferred]

theorem select_loop_eq (routes : List (Route α)) (context : RouteMatchContext) :
    routes.zipIdx.foldl (select_step context) (none, none) =
      (best_candidate RouteMatcher.is_exact context routes.zipIdx,
        best_candidate RouteMatcher.is_start context routes.zipIdx) := by
  induction routes using List.reverseRecOn with
  | nil => rfl
  | append_singleton routes route ih =>
    have hlater : ∀ other ∈ routes.zipIdx, other.2 < routes.length := by
      intro other hother
      have hlt := List.snd_lt_add_of_mem_zipIdx hother
      omega
    have hrow : [route].zipIdx (0 + routes.length) = [(route, routes.length)] := by simp
    rw [List.zipIdx_append, List.foldl_append, ih, hrow]
    exact @select_step_best _ context routes.zipIdx (route, routes.length) hlater

/-- What is found is a route, whatever its index. -/
theorem best_candidate_route (kind : RouteMatcher → Bool) (context : RouteMatchContext)
    (routes : List (Route α)) :
    (best_candidate kind context routes.zipIdx).map Candidate.route =
      (select (kind_rank kind context) routes).map Prod.snd := by
  have hrows : select (kind_rank kind context) (routes.zipIdx.map Prod.fst) =
      (select (fun candidate => kind_rank kind context candidate.1) routes.zipIdx).map
        fun best => (best.1, best.2.1) := select_map Prod.fst routes.zipIdx
  rw [List.zipIdx_map_fst] at hrows
  rw [hrows]
  unfold best_candidate
  rw [Option.map_map, Option.map_map]
  rfl

theorem best_candidate_preferred {kind : RouteMatcher → Bool} {context : RouteMatchContext}
    {rows : List (Route α × Nat)} {candidate : Candidate α}
    (h : best_candidate kind context rows = some candidate) :
    candidate.preferred = candidate.route.matcher.is_preferred := by
  obtain ⟨best, -, rfl⟩ := Option.map_eq_some_iff.mp h
  rfl

theorem mostSpecific_iff {kind : RouteMatcher → Bool} {routes : List (Route α)}
    {context : RouteMatchContext} {route : Route α} :
    (select (kind_rank kind context) routes).map Prod.snd = some route ↔
      MostSpecific kind routes context route := by
  rw [Option.map_eq_some_iff]
  constructor
  · rintro ⟨⟨key, route⟩, hselect, rfl⟩
    obtain ⟨hranked, before, after, hsplit, hbefore, hafter⟩ := select_eq_some.mp hselect
    obtain ⟨⟨hkind, hmatches⟩, hkey⟩ := kind_rank_eq_some.mp hranked
    dsimp only at hkey hkind hmatches hsplit hbefore hafter ⊢
    subst hkey
    refine ⟨hkind, hmatches, before, after, hsplit, ?_, ?_⟩
    · exact fun other hother hother_kind hother_matches =>
        hbefore other hother _ (kind_rank_eq_some.mpr ⟨⟨hother_kind, hother_matches⟩, rfl⟩)
    · exact fun other hother hother_kind hother_matches =>
        hafter other hother _ (kind_rank_eq_some.mpr ⟨⟨hother_kind, hother_matches⟩, rfl⟩)
  · rintro ⟨hkind, hmatches, before, after, hsplit, hbefore, hafter⟩
    refine ⟨(specificity route, route), select_eq_some.mpr ⟨?_, before, after, hsplit, ?_, ?_⟩, rfl⟩
    · exact kind_rank_eq_some.mpr ⟨⟨hkind, hmatches⟩, rfl⟩
    · intro other hother key hkey
      obtain ⟨⟨hother_kind, hother_matches⟩, rfl⟩ := kind_rank_eq_some.mp hkey
      exact hbefore other hother hother_kind hother_matches
    · intro other hother key hkey
      obtain ⟨⟨hother_kind, hother_matches⟩, rfl⟩ := kind_rank_eq_some.mp hkey
      exact hafter other hother hother_kind hother_matches

theorem noMatch_iff {kind : RouteMatcher → Bool} {routes : List (Route α)}
    {context : RouteMatchContext} :
    (select (kind_rank kind context) routes).map Prod.snd = none ↔
      NoMatch kind routes context := by
  simp only [Option.map_eq_none_iff, select_eq_none, kind_rank_eq_none, NoMatch]

/-! ## The two loops together -/

theorem firstMatch_iff {kind : RouteMatcher → Bool} {routes : List (Route α)}
    {context : RouteMatchContext} {route : Route α} :
    (routes.find? fun route => kind route.matcher && route_matches route context) = some route ↔
      FirstMatch kind routes context route := by
  rw [List.find?_eq_some_iff_append]
  constructor
  · rintro ⟨hboth, before, after, hsplit, hbefore⟩
    obtain ⟨hkind, hmatches⟩ := Bool.and_eq_true_iff.mp hboth
    refine ⟨hkind, hmatches, before, after, hsplit, ?_⟩
    intro other hother hother_kind
    simpa [hother_kind] using hbefore other hother
  · rintro ⟨hkind, hmatches, before, after, hsplit, hbefore⟩
    refine ⟨by rw [hkind, hmatches, Bool.and_self], before, after, hsplit, ?_⟩
    intro other hother
    cases hother_kind : kind other.matcher with
    | false => rfl
    | true => simp [hbefore other hother hother_kind]

theorem noMatch_iff_find {kind : RouteMatcher → Bool} {routes : List (Route α)}
    {context : RouteMatchContext} :
    (routes.find? fun route => kind route.matcher && route_matches route context) = none ↔
      NoMatch kind routes context := by
  rw [List.find?_eq_none]
  simp only [NoMatch, Bool.and_eq_true, not_and, Bool.not_eq_true]

/-- The selection, as a choice among the first of the most specific routes of each kind. -/
theorem select_route_eq (routes : List (Route α)) (context : RouteMatchContext) :
    select_route_with_context routes context =
      match (select (kind_rank RouteMatcher.is_exact context) routes).map Prod.snd,
        (select (kind_rank RouteMatcher.is_start context) routes).map Prod.snd with
      | some route, _ => some route
      | none, start =>
        (start.filter fun route => route.matcher.is_preferred).or
          ((routes.find? fun route => route.matcher.is_regex && route_matches route context).or
            start) := by
  unfold select_route_with_context
  rw [select_loop_eq, ← best_candidate_route, ← best_candidate_route]
  dsimp only
  cases hexact : best_candidate RouteMatcher.is_exact context routes.zipIdx with
  | some candidate => rfl
  | none =>
    cases hstart : best_candidate RouteMatcher.is_start context routes.zipIdx with
    | none => rfl
    | some candidate =>
      have hpreferred := best_candidate_preferred hstart
      cases hcase : candidate.route.matcher.is_preferred <;>
        simp [Option.filter, hpreferred, hcase]

/-- The selection follows the declared priority. -/
theorem select_route_prioritized (routes : List (Route α)) (context : RouteMatchContext) :
    Prioritized routes context (select_route_with_context routes context) := by
  rw [select_route_eq]
  cases hexact : (select (kind_rank RouteMatcher.is_exact context) routes).map Prod.snd with
  | some route => exact .exact (mostSpecific_iff.mp hexact)
  | none =>
    have hno_exact := noMatch_iff.mp hexact
    cases hstart : (select (kind_rank RouteMatcher.is_start context) routes).map Prod.snd with
    | none =>
      have hno_start := noMatch_iff.mp hstart
      cases hregex : routes.find? fun route =>
          route.matcher.is_regex && route_matches route context with
      | some route =>
        refine .regex hno_exact ?_ (firstMatch_iff.mp hregex)
        intro start hbest
        rw [mostSpecific_iff.mpr hbest] at hstart
        cases hstart
      | none =>
        have hno_regex := noMatch_iff_find.mp hregex
        refine .nothing ?_
        intro route hroute _
        cases hmatcher : route.matcher with
        | Exact _ => exact hno_exact route hroute (by rw [hmatcher]; rfl)
        | PreferredPrefix _ => exact hno_start route hroute (by rw [hmatcher]; rfl)
        | Prefix _ => exact hno_start route hroute (by rw [hmatcher]; rfl)
        | Regex _ => exact hno_regex route hroute (by rw [hmatcher]; rfl)
    | some start =>
      have hbest := mostSpecific_iff.mp hstart
      cases hpreferred : start.matcher.is_preferred with
      | true =>
        simp only [Option.filter, hpreferred, if_true, Option.some_or]
        exact .preferred hno_exact hbest hpreferred
      | false =>
        simp only [Option.filter, hpreferred, if_false, Bool.false_eq_true, Option.none_or]
        cases hregex : routes.find? fun route =>
            route.matcher.is_regex && route_matches route context with
        | some route =>
          refine .regex hno_exact ?_ (firstMatch_iff.mp hregex)
          intro other hother
          rw [mostSpecific_iff.mpr hother] at hstart
          exact Option.some.inj hstart ▸ hpreferred
        | none => exact .start hno_exact hbest hpreferred (noMatch_iff_find.mp hregex)

/-! ## What depends on the order -/

/-- The two have one matcher and as many gRPC constraints. -/
def Agree (route other : Route α) : Prop :=
  route.matcher = other.matcher ∧ grpc_rank route = grpc_rank other

/-- No two matching exact or prefix routes agree. -/
def Unambiguous (routes : List (Route α)) (context : RouteMatchContext) : Prop :=
  routes.Pairwise fun route other => route.matcher.is_regex = false →
    route_matches route context = true → route_matches other context = true → ¬ Agree route other

/-- The path starts with `/`, or else the text of every exact or prefix route does, as validation
demands it. -/
def Rooted (routes : List (Route α)) (context : RouteMatchContext) : Prop :=
  ['/'] <+: context.path ∨
    ∀ route ∈ routes, route.matcher.is_regex = false → ['/'] <+: route.matcher.text

theorem Agree.symm {route other : Route α} (h : Agree route other) : Agree other route :=
  ⟨h.1.symm, h.2.symm⟩

theorem Unambiguous.eq_of_agree {routes : List (Route α)} {context : RouteMatchContext}
    (h : Unambiguous routes context) {route other : Route α} (hroute : route ∈ routes)
    (hother : other ∈ routes) (hkind : route.matcher.is_regex = false)
    (hmatches : route_matches route context = true)
    (hother_matches : route_matches other context = true) (hagree : Agree route other) :
    other = route := by
  by_contra hne
  have hsymmetric : Std.Symm fun route other : Route α => route.matcher.is_regex = false →
      route_matches route context = true → route_matches other context = true →
        ¬ Agree route other := by
    constructor
    intro route other hpair hkind hmatches hother_matches hagree
    exact hpair (hagree.1 ▸ hkind) hother_matches hmatches hagree.symm
  exact h.forall hroute hother (Ne.symm hne) hkind hmatches hother_matches hagree

/-- A start of a text with as many bytes is the whole of it. -/
theorem eq_of_isPrefix_of_bytes {start s : Text} (h : start <+: s)
    (hlen : (as_bytes start).length = (as_bytes s).length) : start = s := by
  obtain ⟨rest, rfl⟩ := h
  cases rest with
  | nil => rw [List.append_nil]
  | cons c rest =>
    have hpos : 0 < (String.utf8EncodeChar c).length := by
      rw [String.length_utf8EncodeChar]
      exact Char.utf8Size_pos c
    simp only [as_bytes, List.flatMap_append, List.flatMap_cons, List.length_append] at hlen
    omega

theorem isPrefix_of_prefix_matches {start path : Text} (h : prefix_matches start path = true) :
    start = ['/'] ∨ start <+: path := by
  unfold prefix_matches at h
  rcases Bool.or_eq_true_iff.mp h with h | h
  · rcases Bool.or_eq_true_iff.mp h with h | h
    · exact .inl (of_decide_eq_true h)
    · exact .inr (of_decide_eq_true h ▸ List.prefix_refl _)
  · obtain ⟨remainder, hremainder, -⟩ := (Option.any_eq_true _ _).mp h
    exact .inr ⟨remainder, (stripStart_eq_some hremainder).symm⟩

/-- Two matching starts with as many bytes are one text. -/
theorem start_text_eq {start start' path : Text} (h : prefix_matches start path = true)
    (h' : prefix_matches start' path = true)
    (hlen : (as_bytes start).length = (as_bytes start').length)
    (hroot : ['/'] <+: path ∨ ['/'] <+: start ∧ ['/'] <+: start') : start = start' := by
  have hcompare : start <+: start' ∨ start' <+: start := by
    rcases isPrefix_of_prefix_matches h with rfl | hstart
    · rcases isPrefix_of_prefix_matches h' with rfl | hstart'
      · exact .inl (List.prefix_refl _)
      · rcases hroot with hpath | ⟨-, hslash'⟩
        · exact List.prefix_or_prefix_of_prefix hpath hstart'
        · exact .inl hslash'
    · rcases isPrefix_of_prefix_matches h' with rfl | hstart'
      · rcases hroot with hpath | ⟨hslash, -⟩
        · exact List.prefix_or_prefix_of_prefix hstart hpath
        · exact .inr hslash
      · exact List.prefix_or_prefix_of_prefix hstart hstart'
  rcases hcompare with hprefix | hprefix
  · exact eq_of_isPrefix_of_bytes hprefix hlen
  · exact (eq_of_isPrefix_of_bytes hprefix hlen.symm).symm

theorem specificity_eq_iff {route other : Route α} :
    specificity route = specificity other ↔
      (as_bytes route.matcher.text).length = (as_bytes other.matcher.text).length ∧
      route.matcher.is_preferred = other.matcher.is_preferred ∧
      grpc_rank route = grpc_rank other := by
  unfold specificity
  rw [toLex_inj, Prod.mk.injEq, toLex_inj, Prod.mk.injEq]

theorem RouteMatcher.eq_exact {matcher : RouteMatcher} {path : Text}
    (hkind : matcher.is_exact = true) (hmatches : matcher.matches path = true) :
    matcher = .Exact path := by
  cases matcher with
  | Exact expected => rw [of_decide_eq_true hmatches]
  | PreferredPrefix start => cases hkind
  | Prefix start => cases hkind
  | Regex is_match => cases hkind

theorem RouteMatcher.matches_start {matcher : RouteMatcher} {path : Text}
    (hkind : matcher.is_start = true) (hmatches : matcher.matches path = true) :
    prefix_matches matcher.text path = true := by
  cases matcher with
  | Exact expected => cases hkind
  | PreferredPrefix start => exact hmatches
  | Prefix start => exact hmatches
  | Regex is_match => cases hkind

theorem RouteMatcher.plain_of_exact (matcher : RouteMatcher) (hkind : matcher.is_exact = true) :
    matcher.is_regex = false := by
  cases matcher with
  | Exact expected => rfl
  | PreferredPrefix start => rfl
  | Prefix start => rfl
  | Regex is_match => cases hkind

theorem RouteMatcher.plain_of_start (matcher : RouteMatcher) (hkind : matcher.is_start = true) :
    matcher.is_regex = false := by
  cases matcher with
  | Exact expected => rfl
  | PreferredPrefix start => rfl
  | Prefix start => rfl
  | Regex is_match => cases hkind

/-- A matcher of the start of the path is known by its text and by its preference. -/
theorem RouteMatcher.eq_start {matcher other : RouteMatcher} (hkind : matcher.is_start = true)
    (hother : other.is_start = true) (hpreferred : matcher.is_preferred = other.is_preferred)
    (htext : matcher.text = other.text) : matcher = other := by
  have hform : ∀ matcher : RouteMatcher, matcher.is_start = true → matcher =
      if matcher.is_preferred = true then .PreferredPrefix matcher.text
      else .Prefix matcher.text := by
    intro matcher hkind
    cases matcher with
    | Exact expected => cases hkind
    | PreferredPrefix start => rfl
    | Prefix start => rfl
    | Regex is_match => cases hkind
  rw [hform matcher hkind, hform other hother, hpreferred, htext]

/-- Matching exact routes that are as specific agree. -/
theorem agree_of_exact {context : RouteMatchContext} {route other : Route α}
    (hkind : route.matcher.is_exact = true) (hother_kind : other.matcher.is_exact = true)
    (hmatches : route_matches route context = true)
    (hother_matches : route_matches other context = true)
    (hspecific : specificity route = specificity other) : Agree route other := by
  refine ⟨?_, (specificity_eq_iff.mp hspecific).2.2⟩
  rw [RouteMatcher.eq_exact hkind (Bool.and_eq_true_iff.mp hmatches).1,
    RouteMatcher.eq_exact hother_kind (Bool.and_eq_true_iff.mp hother_matches).1]

/-- So do matching routes of the start of the path. -/
theorem agree_of_start {routes : List (Route α)} {context : RouteMatchContext}
    (hrooted : Rooted routes context) {route other : Route α} (hroute : route ∈ routes)
    (hother : other ∈ routes) (hkind : route.matcher.is_start = true)
    (hother_kind : other.matcher.is_start = true)
    (hmatches : route_matches route context = true)
    (hother_matches : route_matches other context = true)
    (hspecific : specificity route = specificity other) : Agree route other := by
  obtain ⟨hlen, hpreferred, hrank⟩ := specificity_eq_iff.mp hspecific
  have hstart := RouteMatcher.matches_start hkind (Bool.and_eq_true_iff.mp hmatches).1
  have hother_start :=
    RouteMatcher.matches_start hother_kind (Bool.and_eq_true_iff.mp hother_matches).1
  have htext : route.matcher.text = other.matcher.text := by
    refine start_text_eq hstart hother_start hlen (hrooted.imp_right fun hall => ?_)
    exact ⟨hall route hroute (RouteMatcher.plain_of_start _ hkind),
      hall other hother (RouteMatcher.plain_of_start _ hother_kind)⟩
  exact ⟨RouteMatcher.eq_start hkind hother_kind hpreferred htext, hrank⟩

theorem NoMatch.perm {kind : RouteMatcher → Bool} {routes routes' : List (Route α)}
    {context : RouteMatchContext} (h : NoMatch kind routes context) (hperm : routes.Perm routes') :
    NoMatch kind routes' context :=
  fun route hroute => h route (hperm.mem_iff.mpr hroute)

theorem MostSpecific.mem {kind : RouteMatcher → Bool} {routes : List (Route α)}
    {context : RouteMatchContext} {route : Route α} (h : MostSpecific kind routes context route) :
    route ∈ routes := by
  obtain ⟨before, after, hsplit, -⟩ := h.first
  simp [hsplit]

theorem MostSpecific.greatest {kind : RouteMatcher → Bool} {routes : List (Route α)}
    {context : RouteMatchContext} {route other : Route α}
    (h : MostSpecific kind routes context route) (hother : other ∈ routes)
    (hkind : kind other.matcher = true) (hmatches : route_matches other context = true) :
    specificity other ≤ specificity route := by
  obtain ⟨before, after, rfl, hbefore, hafter⟩ := h.first
  rcases List.mem_append.mp hother with hother | hother
  · exact (hbefore other hother hkind hmatches).le
  · rcases List.mem_cons.mp hother with rfl | hother
    · exact le_refl _
    · exact hafter other hother hkind hmatches

/-- In another order of the list the first of the most specific is as specific. -/
theorem MostSpecific.perm {kind : RouteMatcher → Bool} {routes routes' : List (Route α)}
    {context : RouteMatchContext} {route route' : Route α}
    (h : MostSpecific kind routes context route) (h' : MostSpecific kind routes' context route')
    (hperm : routes.Perm routes') : specificity route = specificity route' := by
  apply le_antisymm
  · exact h'.greatest (hperm.mem_iff.mp h.mem) h.of_kind h.matching
  · exact h.greatest (hperm.mem_iff.mpr h'.mem) h'.of_kind h'.matching

/-- The selections of one kind in two orders of the list. -/
theorem most_specific_rel {kind : RouteMatcher → Bool} {routes routes' : List (Route α)}
    {context : RouteMatchContext} (hperm : routes.Perm routes')
    (hagree : ∀ route ∈ routes, ∀ other ∈ routes, kind route.matcher = true →
      kind other.matcher = true → route_matches route context = true →
      route_matches other context = true → specificity route = specificity other →
        Agree route other) :
    Option.Rel (fun route other => MostSpecific kind routes context route ∧ other ∈ routes ∧
        kind other.matcher = true ∧ route_matches other context = true ∧ Agree route other)
      ((select (kind_rank kind context) routes).map Prod.snd)
      ((select (kind_rank kind context) routes').map Prod.snd) := by
  cases hselect : (select (kind_rank kind context) routes).map Prod.snd with
  | none =>
    have hnone := (noMatch_iff.mp hselect).perm hperm
    rw [noMatch_iff.mpr hnone]
    exact .none
  | some route =>
    have hbest := mostSpecific_iff.mp hselect
    cases hselect' : (select (kind_rank kind context) routes').map Prod.snd with
    | none =>
      have hnone := (noMatch_iff.mp hselect').perm hperm.symm route hbest.mem hbest.of_kind
      rw [hbest.matching] at hnone
      cases hnone
    | some other =>
      have hbest' := mostSpecific_iff.mp hselect'
      have hother := hperm.mem_iff.mpr hbest'.mem
      exact .some ⟨hbest, hother, hbest'.of_kind, hbest'.matching,
        hagree route hbest.mem other hother hbest.of_kind hbest'.of_kind hbest.matching
          hbest'.matching (hbest.perm hbest' hperm)⟩

/-- The two are one route, or matching exact or prefix routes of the list that agree. -/
def SameChoice (routes : List (Route α)) (context : RouteMatchContext) (route other : Route α) :
    Prop :=
  other = route ∨ (route ∈ routes ∧ other ∈ routes ∧ route.matcher.is_regex = false ∧
    route_matches route context = true ∧ route_matches other context = true ∧ Agree route other)

theorem SameChoice.of_kind {kind : RouteMatcher → Bool}
    (hplain : ∀ matcher, kind matcher = true → matcher.is_regex = false) {routes : List (Route α)}
    {context : RouteMatchContext} {route other : Route α}
    (h : MostSpecific kind routes context route ∧ other ∈ routes ∧
      kind other.matcher = true ∧ route_matches other context = true ∧ Agree route other) :
    SameChoice routes context route other := by
  obtain ⟨hbest, hother, -, hother_matches, hagree⟩ := h
  exact .inr ⟨hbest.mem, hother, hplain _ hbest.of_kind, hbest.matching, hother_matches, hagree⟩

/-- Two orders of a list, with the expressions in one order, have the same choice. -/
theorem select_route_perm {routes routes' : List (Route α)} {context : RouteMatchContext}
    (hrooted : Rooted routes context) (hperm : routes.Perm routes')
    (hregex : (routes.filter fun route => route.matcher.is_regex) =
      routes'.filter fun route => route.matcher.is_regex) :
    Option.Rel (SameChoice routes context) (select_route_with_context routes context)
      (select_route_with_context routes' context) := by
  have hexact := @most_specific_rel _ RouteMatcher.is_exact _ _ context hperm
    fun _ _ _ _ => agree_of_exact
  have hstart := @most_specific_rel _ RouteMatcher.is_start _ _ context hperm
    fun _ hroute _ hother => agree_of_start hrooted hroute hother
  have hfind : (routes'.find? fun route => route.matcher.is_regex && route_matches route context) =
      routes.find? fun route => route.matcher.is_regex && route_matches route context := by
    have hsplit : ∀ rows : List (Route α),
        (rows.find? fun route => route.matcher.is_regex && route_matches route context) =
          (rows.filter fun route => route.matcher.is_regex).find? fun route =>
            route_matches route context := by
      intro rows
      rw [List.find?_filter]
      simp
    rw [hsplit, hsplit, hregex]
  rw [select_route_eq, select_route_eq, hfind]
  revert hexact
  generalize (select (kind_rank RouteMatcher.is_exact context) routes).map Prod.snd = exact
  generalize (select (kind_rank RouteMatcher.is_exact context) routes').map Prod.snd = exact'
  intro hexact
  cases hexact with
  | some hsame => exact .some (.of_kind RouteMatcher.plain_of_exact hsame)
  | none =>
    revert hstart
    generalize (select (kind_rank RouteMatcher.is_start context) routes).map Prod.snd = start
    generalize (select (kind_rank RouteMatcher.is_start context) routes').map Prod.snd = start'
    intro hstart
    have hself : ∀ found : Option (Route α), Option.Rel (SameChoice routes context) found found := by
      intro found
      cases found with
      | none => exact .none
      | some route => exact .some (.inl rfl)
    cases hstart with
    | none => exact hself _
    | @some route other hsame =>
      have hpreferred : other.matcher.is_preferred = route.matcher.is_preferred := by
        rw [hsame.2.2.2.2.1]
      have hchoice := SameChoice.of_kind RouteMatcher.plain_of_start hsame
      cases hcase : route.matcher.is_preferred with
      | true =>
        simp only [Option.filter, hpreferred, hcase, if_true, Option.some_or]
        exact .some hchoice
      | false =>
        simp only [Option.filter, hpreferred, hcase, Bool.false_eq_true, if_false, Option.none_or]
        cases routes.find? fun route => route.matcher.is_regex && route_matches route context with
        | some first => exact hself _
        | none => exact .some hchoice

/-- No route before the first of the most specific agrees with it. -/
theorem MostSpecific.first_declared {kind : RouteMatcher → Bool} {routes : List (Route α)}
    {context : RouteMatchContext} {route : Route α} (h : MostSpecific kind routes context route) :
    ∃ before after, routes = before ++ route :: after ∧
      ∀ other ∈ before, route_matches other context = true → ¬ Agree route other := by
  obtain ⟨before, after, hsplit, hbefore, -⟩ := h.first
  refine ⟨before, after, hsplit, ?_⟩
  intro other hother hmatches hagree
  have hlt := hbefore other hother (hagree.1 ▸ h.of_kind) hmatches
  have hsame : specificity route = specificity other := by
    rw [specificity_eq_iff, hagree.1]
    exact ⟨rfl, rfl, hagree.2⟩
  exact hlt.ne' hsame

theorem select_route_first_declared {routes : List (Route α)} {context : RouteMatchContext}
    {route : Route α} (h : select_route_with_context routes context = some route)
    (hplain : route.matcher.is_regex = false) :
    ∃ before after, routes = before ++ route :: after ∧
      ∀ other ∈ before, route_matches other context = true → ¬ Agree route other := by
  have hpriority := select_route_prioritized routes context
  rw [h] at hpriority
  cases hpriority with
  | exact best => exact best.first_declared
  | preferred _ best _ => exact best.first_declared
  | regex _ _ first =>
    have hregex := first.of_kind
    rw [hplain] at hregex
    cases hregex
  | start _ best _ _ => exact best.first_declared

/-- The route of a request follows the declared priority. Another order of the routes, with the
expressions in the same order, selects the same route where no two matching exact or prefix routes
agree; and of those that agree the one declared first is selected. -/
theorem select_route_order (routes : List (Route α)) (context : RouteMatchContext) :
    Prioritized routes context (select_route_with_context routes context) ∧
    (Rooted routes context → ∀ routes' : List (Route α), routes.Perm routes' →
      (routes.filter fun route => route.matcher.is_regex) =
        (routes'.filter fun route => route.matcher.is_regex) →
      Option.Rel (SameChoice routes context) (select_route_with_context routes context)
        (select_route_with_context routes' context) ∧
      (Unambiguous routes context →
        select_route_with_context routes' context = select_route_with_context routes context)) ∧
    ∀ route, select_route_with_context routes context = some route →
      route.matcher.is_regex = false → ∃ before after, routes = before ++ route :: after ∧
        ∀ other ∈ before, route_matches other context = true → ¬ Agree route other := by
  refine ⟨select_route_prioritized routes context, ?_, ?_⟩
  · intro hrooted routes' hperm hregex
    have hrel := select_route_perm hrooted hperm hregex
    refine ⟨hrel, ?_⟩
    intro hunambiguous
    generalize select_route_with_context routes context = chosen at hrel ⊢
    generalize select_route_with_context routes' context = chosen' at hrel ⊢
    cases hrel with
    | none => rfl
    | some hsame =>
      rcases hsame with hsame | ⟨hroute, hother, hplain, hmatches, hother_matches, hagree⟩
      · rw [hsame]
      · rw [hunambiguous.eq_of_agree hroute hother hplain hmatches hother_matches hagree]
  · exact fun route => select_route_first_declared

def plain_route (start : Text) : Route Unit := ⟨.Prefix start, none, ()⟩

theorem select_route_order_two_starts :
    select_route_with_context [plain_route ['/', 'a'], plain_route ['/']] ⟨['/', 'a'], none⟩ =
      select_route_with_context [plain_route ['/'], plain_route ['/', 'a']] ⟨['/', 'a'], none⟩ := by
  have hrooted : Rooted [plain_route ['/'], plain_route ['/', 'a']] ⟨['/', 'a'], none⟩ :=
    .inl ⟨['a'], rfl⟩
  refine ((select_route_order _ _).2.1 hrooted _ (List.Perm.swap _ _ _) rfl).2 ?_
  simp [Unambiguous, Agree, plain_route]

/-- At the path `*` the routes of `*` and of `/` are as long, and the first declared is selected. -/
theorem asterisk_depends_on_order :
    [plain_route ['/'], plain_route ['*']].Perm [plain_route ['*'], plain_route ['/']] ∧
    ([plain_route ['/'], plain_route ['*']].filter fun route => route.matcher.is_regex) =
      ([plain_route ['*'], plain_route ['/']].filter fun route => route.matcher.is_regex) ∧
    Unambiguous [plain_route ['/'], plain_route ['*']] ⟨['*'], none⟩ ∧
    select_route_with_context [plain_route ['*'], plain_route ['/']] ⟨['*'], none⟩ ≠
      select_route_with_context [plain_route ['/'], plain_route ['*']] ⟨['*'], none⟩ := by
  refine ⟨List.Perm.swap _ _ _, rfl, ?_, ?_⟩
  · simp [Unambiguous, Agree, plain_route]
  · intro hsame
    have hroute : plain_route ['*'] = plain_route ['/'] := Option.some.inj hsame
    simp [plain_route] at hroute

end Priority

end rginx.http
