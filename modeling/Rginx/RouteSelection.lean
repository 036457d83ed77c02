-- The route of a request, from `router.rs` and `request_target.rs`: the path that routes are matched
-- with, and the choice of the most specific route. The virtual host is chosen before.
import Rginx.VirtualHosts

open rust_text rginx.cache rginx.config

namespace rginx.http

/-! ## Paths -/

/-- `http::uri::PathAndQuery::path`. -/
def path_of (target : PathAndQuery) : Text :=
  let ret := target.data.takeWhile (· ≠ '?')
  if ret = [] then ['/'] else ret

/-- `http::Uri::path`; a target that has none is the authority of a `CONNECT`. -/
def uri_path (uri : Uri) : Text := (uri.path_and_query.map path_of).getD []

/-- The loop of `normalize_request_path` over the segments; none where it would leave the root. -/
def normalize_loop (normalized_segments : List Text) : List Text → Option (List Text)
  | [] => some normalized_segments
  | segment :: rest =>
    if segment = [] ∨ segment = ['.'] then normalize_loop normalized_segments rest
    else if segment = ['.', '.'] then
      if normalized_segments = [] then none
      else normalize_loop normalized_segments.dropLast rest
    else normalize_loop (normalized_segments ++ [segment]) rest

def normalize_request_path (path : Text) : Text :=
  if path = ['*'] then ['*']
  else
    let path := if path = [] then ['/'] else path
    match normalize_loop [] (split '/' path) with
    | none => ['/']
    | some normalized_segments =>
      let normalized :=
        (if ['/'] <+: path then ['/'] else []) ++ List.intercalate ['/'] normalized_segments
      let normalized := if normalized = [] then ['/'] else normalized
      let normalized :=
        if ['/'] <:+ path ∧ normalized ≠ ['/'] ∧ ¬ ['/'] <:+ normalized then normalized ++ ['/']
        else normalized
      if ['/'] <+: normalized then normalized else '/' :: normalized

/-- The path of `normalize_request_target`. -/
def normalized_path (uri : Uri) : Text := normalize_request_path (uri_path uri)

theorem normalize_request_path_nil : normalize_request_path [] = normalize_request_path ['/'] := by
  simp [normalize_request_path]

/-- Targets that are written alike have the same path. -/
theorem normalized_path_congr {uri uri' : Uri} (h : uri.request_uri = uri'.request_uri) :
    normalized_path uri = normalized_path uri' := by
  have hwritten : ∀ uri : Uri, normalized_path uri =
      normalize_request_path (uri.request_uri.takeWhile (· ≠ '?')) := by
    intro uri
    unfold normalized_path uri_path Uri.request_uri
    cases uri.path_and_query with
    | none => exact normalize_request_path_nil
    | some target =>
      rw [Option.map_some, Option.map_some, Option.getD_some, Option.getD_some, path_of,
        PathAndQuery.as_str]
      by_cases hdata : target.data = []
      · simp [hdata]
      · rw [if_neg hdata]
        split
        · rename_i hpath
          rw [hpath, normalize_request_path_nil]
        · rfl
  rw [hwritten, hwritten, h]

/-! ## Routes -/

structure GrpcRequestMatch where
  service : Text
  method : Text
  deriving DecidableEq, Repr

structure RouteMatchContext where
  path : Text
  grpc : Option GrpcRequestMatch
  deriving DecidableEq, Repr

def RouteMatchContext.new (path : Text) : RouteMatchContext := ⟨path, none⟩

/-- A `RouteRegexMatcher` is known by the texts that its expression matches. -/
inductive RouteMatcher
  | Exact (expected : Text)
  | PreferredPrefix (start : Text)
  | Prefix (start : Text)
  | Regex (is_match : Text → Bool)

def prefix_matches (start path : Text) : Bool :=
  start = ['/'] || path = start ||
    (stripStart start path).any fun remainder => ['/'] <:+ start || ['/'] <+: remainder

def RouteMatcher.matches : RouteMatcher → Text → Bool
  | .Exact expected, path => path = expected
  | .PreferredPrefix start, path => prefix_matches start path
  | .Prefix start, path => prefix_matches start path
  | .Regex is_match, path => is_match path

def RouteMatcher.is_regex : RouteMatcher → Bool
  | .Regex _ => true
  | _ => false

structure GrpcRouteMatch where
  service : Option Text
  method : Option Text
  deriving DecidableEq, Repr

def GrpcRouteMatch.matches (grpc_match : GrpcRouteMatch) (service method : Text) : Bool :=
  grpc_match.service.all (· = service) && grpc_match.method.all (· = method)

def GrpcRouteMatch.priority (grpc_match : GrpcRouteMatch) : Nat :=
  grpc_match.service.isSome.toNat + grpc_match.method.isSome.toNat

/-- A route, for any kind of action. -/
structure Route (α : Type) where
  matcher : RouteMatcher
  grpc_match : Option GrpcRouteMatch
  action : α

structure Candidate (α : Type) where
  index : Nat
  route : Route α
  match_len : Nat
  grpc_rank : Nat
  preferred : Bool

section Routes

variable {α : Type}

def route_matches (route : Route α) (context : RouteMatchContext) : Bool :=
  route.matcher.matches context.path && route.grpc_match.all fun grpc_match =>
    context.grpc.any fun grpc => grpc_match.matches grpc.service grpc.method

def Candidate.new (index : Nat) (route : Route α) (path : Text) (preferred : Bool) :
    Candidate α :=
  { index, route, match_len := (as_bytes path).length
    grpc_rank := (route.grpc_match.map GrpcRouteMatch.priority).getD 0, preferred }

def select_more_specific (current : Option (Candidate α)) (candidate : Candidate α) :
    Candidate α :=
  match current with
  | none => candidate
  | some existing =>
    if existing.match_len < candidate.match_len then candidate
    else if candidate.match_len < existing.match_len then existing
    else if candidate.preferred ∧ !existing.preferred then candidate
    else if !candidate.preferred ∧ existing.preferred then existing
    else if existing.grpc_rank < candidate.grpc_rank then candidate
    else if candidate.grpc_rank < existing.grpc_rank then existing
    else if candidate.index < existing.index then candidate
    else existing

/-- One turn of the first loop, with the best exact route and the best one that starts the path. -/
def select_step (context : RouteMatchContext)
    (found : Option (Candidate α) × Option (Candidate α)) (row : Route α × Nat) :
    Option (Candidate α) × Option (Candidate α) :=
  let (route, index) := row
  if !route_matches route context then found
  else
    match route.matcher with
    | .Exact path =>
      (some (select_more_specific found.1 (Candidate.new index route path false)), found.2)
    | .PreferredPrefix path =>
      (found.1, some (select_more_specific found.2 (Candidate.new index route path true)))
    | .Prefix path =>
      (found.1, some (select_more_specific found.2 (Candidate.new index route path false)))
    | .Regex _ => found

def select_route_with_context (routes : List (Route α)) (context : RouteMatchContext) :
    Option (Route α) :=
  let (exact, start) := routes.zipIdx.foldl (select_step context) (none, none)
  match exact, start.filter (·.preferred) with
  | some candidate, _ => some candidate.route
  | none, some candidate => some candidate.route
  | none, none =>
    (routes.find? fun route => route.matcher.is_regex && route_matches route context).or
      (start.map Candidate.route)

def select_route (routes : List (Route α)) (path : Text) : Option (Route α) :=
  select_route_with_context routes (RouteMatchContext.new path)

/-! ## The selected route matches -/

/-- A candidate is a route of the list that matches. -/
def Matching (routes : List (Route α)) (context : RouteMatchContext)
    (found : Option (Candidate α)) : Prop :=
  ∀ candidate ∈ found, candidate.route ∈ routes ∧ route_matches candidate.route context = true

theorem select_more_specific_cases (current : Option (Candidate α)) (candidate : Candidate α) :
    select_more_specific current candidate = candidate ∨
      current = some (select_more_specific current candidate) := by
  cases current with
  | none => exact .inl rfl
  | some existing =>
    unfold select_more_specific
    dsimp only
    split_ifs <;> simp

theorem Matching.more_specific {routes : List (Route α)} {context : RouteMatchContext}
    {found : Option (Candidate α)} (h : Matching routes context found) {candidate : Candidate α}
    (hroute : candidate.route ∈ routes) (hmatches : route_matches candidate.route context = true) :
    Matching routes context (some (select_more_specific found candidate)) := by
  intro best hbest
  obtain rfl := Option.mem_some_iff.mp hbest
  rcases select_more_specific_cases found candidate with heq | heq
  · rw [heq]
    exact ⟨hroute, hmatches⟩
  · exact h _ heq

theorem select_step_matching {routes : List (Route α)} {context : RouteMatchContext}
    {found : Option (Candidate α) × Option (Candidate α)}
    (h : Matching routes context found.1 ∧ Matching routes context found.2) {row : Route α × Nat}
    (hrow : row.1 ∈ routes) :
    Matching routes context (select_step context found row).1 ∧
      Matching routes context (select_step context found row).2 := by
  obtain ⟨route, index⟩ := row
  unfold select_step
  dsimp only
  split_ifs with hmatches
  · exact h
  · have htrue : route_matches route context = true := by simpa using hmatches
    split
    · exact ⟨h.1.more_specific hrow htrue, h.2⟩
    · exact ⟨h.1, h.2.more_specific hrow htrue⟩
    · exact ⟨h.1, h.2.more_specific hrow htrue⟩
    · exact h

/-- The loop keeps candidates that match. -/
theorem select_loop_matching (routes : List (Route α)) (context : RouteMatchContext) :
    Matching routes context (routes.zipIdx.foldl (select_step context) (none, none)).1 ∧
      Matching routes context (routes.zipIdx.foldl (select_step context) (none, none)).2 := by
  apply List.foldlRecOn
    (motive := fun found : Option (Candidate α) × Option (Candidate α) =>
      Matching routes context found.1 ∧ Matching routes context found.2)
  · exact ⟨fun _ h => absurd h (by simp), fun _ h => absurd h (by simp)⟩
  · intro found hfound row hrow
    exact select_step_matching hfound (List.fst_mem_of_mem_zipIdx hrow)

/-- The selected route is one of the list, and it matches. -/
theorem select_route_matches {routes : List (Route α)} {context : RouteMatchContext}
    {route : Route α} (h : select_route_with_context routes context = some route) :
    route ∈ routes ∧ route_matches route context = true := by
  obtain ⟨hexact, hstart⟩ := select_loop_matching routes context
  unfold select_route_with_context at h
  generalize hfound : routes.zipIdx.foldl (select_step context) (none, none) = found
    at h hexact hstart
  obtain ⟨exact, start⟩ := found
  dsimp only at h hexact hstart
  cases exact with
  | some candidate =>
    obtain rfl := Option.some.inj h
    exact hexact candidate rfl
  | none =>
    cases hfilter : start.filter (·.preferred) with
    | some candidate =>
      rw [hfilter] at h
      obtain rfl := Option.some.inj h
      exact hstart candidate (Option.filter_eq_some_iff.mp hfilter).1
    | none =>
      rw [hfilter] at h
      rcases Option.or_eq_some_iff.mp h with hfind | ⟨-, hbest⟩
      · have hregex := List.find?_some hfind
        rw [Bool.and_eq_true] at hregex
        exact ⟨List.mem_of_find?_eq_some hfind, hregex.2⟩
      · obtain ⟨candidate, hcandidate, rfl⟩ := Option.map_eq_some_iff.mp hbest
        exact hstart candidate hcandidate

end Routes

end rginx.http
