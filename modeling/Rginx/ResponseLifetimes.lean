-- How long a response may be served, from its headers: `cache/policy.rs` and
-- `cache/policy/directives.rs`. The first source that says something wins, and a cached response is
-- a hit only up to the end that its headers declare. A duration of Rust is a number of nanoseconds
-- here, and so is a clock; the entry of a response counts milliseconds.
import Rginx.HitForPass

open rust_text

namespace rginx.cache

def EXPIRES : HeaderName := ⟨"expires", by decide⟩
def PRAGMA : HeaderName := ⟨"pragma", by decide⟩
def X_ACCEL_EXPIRES : HeaderName := ⟨"x-accel-expires", by decide⟩

def S_MAXAGE : Text := "s-maxage".toList
def MAX_AGE : Text := "max-age".toList

def NANOS_PER_SEC : Nat := 1000000000

def NANOS_PER_MILLI : Nat := 1000000

/-! ## The directives -/

/-- `trim_matches('"')`. -/
def trim_quotes (s : Text) : Text := (s.dropWhile (· = '"')).rdropWhile (· = '"')

/-- One turn of the inner loop of `cache_control_max_age`; an error is its return. -/
def max_age_directive (max_age : Option Nat) (directive : Text) : Except Nat (Option Nat) :=
  match split_once '=' directive with
  | none => .ok max_age
  | some (name, value) =>
    if eq_ignore_ascii_case (trim name) S_MAXAGE ||
        eq_ignore_ascii_case (trim name) MAX_AGE then
      match parse_u64 (trim_quotes (trim value)) with
      | none => .ok max_age
      | some seconds =>
        if eq_ignore_ascii_case (trim name) S_MAXAGE then .error seconds
        else if max_age.isNone then .ok (some seconds)
        else .ok max_age
    else .ok max_age

def max_age_line (max_age : Option Nat) (value : HeaderValue) : Except Nat (Option Nat) :=
  match value.to_str with
  | none => .ok max_age
  | some value => ((split ',' value).map trim).foldlM max_age_directive max_age

/-- In seconds. -/
def cache_control_max_age (headers : HeaderMap) : Option Nat :=
  match (headers.get_all CACHE_CONTROL).foldlM max_age_line none with
  | .error seconds => some seconds
  | .ok max_age => max_age

/-- In seconds. -/
def cache_control_duration (headers : HeaderMap) (directive_name : Text) : Option Nat :=
  (headers.get_all CACHE_CONTROL).findSome? fun value =>
    value.to_str.bind fun value =>
      ((split ',' value).map trim).findSome? fun directive =>
        (split_once '=' directive).bind fun named =>
          if eq_ignore_ascii_case (trim named.1) directive_name then
            parse_u64 (trim_quotes (trim named.2))
          else none

def pragma_contains (headers : HeaderMap) (directive : Text) : Bool :=
  ((headers.get_all PRAGMA).filterMap HeaderValue.to_str).any fun value =>
    ((split ',' value).map trim).any fun token => eq_ignore_ascii_case token directive

def request_requires_revalidation (headers : HeaderMap) : Bool :=
  cache_control_contains headers ["no-cache".toList] ||
    cache_control_duration headers MAX_AGE = some 0 ||
    pragma_contains headers "no-cache".toList

/-! ## The sources of a lifetime -/

structure CacheStatusTtlRule where
  statuses : List StatusCode
  ttl : Nat

/-- The fields of a context that say how long a response lives; `default_ttl` is of its zone. -/
structure LifetimeContext extends StoreContext where
  ttl_by_status : List CacheStatusTtlRule
  default_ttl : Nat
  stale_if_error : Option Nat

section Sources

-- `httpdate::parse_http_date`, as the seconds since the epoch.
variable (parse_http_date : Text → Option Nat)

/-- What is left of an instant, and nothing once it has passed. -/
def time_left (instant now : Nat) : Nat := instant - now

def expires_ttl (headers : HeaderMap) (now : Nat) : Option Nat := do
  let expires ← headers.get_str EXPIRES
  let date ← parse_http_date expires
  some (time_left (date * NANOS_PER_SEC) now)

/-- An instant has a number of 64 bits with a sign for its seconds. -/
def x_accel_expires_ttl (headers : HeaderMap) (now : Nat) : Option Nat := do
  let value := trim (← headers.get_str X_ACCEL_EXPIRES)
  if value = ['0'] then some 0
  else
    match stripStart ['@'] value with
    | some value => do
      let seconds ← parse_u64 value
      if 2 ^ 63 ≤ seconds then none else some (time_left (seconds * NANOS_PER_SEC) now)
    | none => (parse_u64 value).map (· * NANOS_PER_SEC)

def unless_ignored {α : Type} (context : StoreContext) (header : CacheIgnoreHeader)
    (read : Option α) : Option α :=
  if ignores_header context header then none else read

def response_ttl (context : LifetimeContext) (status : StatusCode) (headers : HeaderMap)
    (now : Nat) : Nat :=
  let ttl := unless_ignored context.toStoreContext .XAccelExpires (x_accel_expires_ttl headers now)
  let ttl := ttl.or (unless_ignored context.toStoreContext .CacheControl
    ((cache_control_max_age headers).map (· * NANOS_PER_SEC)))
  let ttl := ttl.or (unless_ignored context.toStoreContext .Expires
    (expires_ttl parse_http_date headers now))
  let ttl := ttl.or (context.ttl_by_status.findSome? fun rule =>
    if rule.statuses.contains status then some rule.ttl else none)
  ttl.getD context.default_ttl

/-- The durations of a `ResponseFreshness` are in milliseconds, which is what is read of them. -/
def response_freshness (context : LifetimeContext) (status : StatusCode) (headers : HeaderMap)
    (now : Nat) : ResponseFreshness where
  ttl := response_ttl parse_http_date context status headers now / NANOS_PER_MILLI
  stale_if_error :=
    (unless_ignored context.toStoreContext .CacheControl
      ((cache_control_duration headers "stale-if-error".toList).map (· * 1000))).or
        (context.stale_if_error.map (· / NANOS_PER_MILLI))
  stale_while_revalidate :=
    unless_ignored context.toStoreContext .CacheControl
      ((cache_control_duration headers "stale-while-revalidate".toList).map (· * 1000))
  requires_revalidation :=
    !ignores_header context.toStoreContext .CacheControl &&
      cache_control_contains headers ["no-cache".toList]
  must_revalidate :=
    !ignores_header context.toStoreContext .CacheControl &&
      cache_control_contains headers ["must-revalidate".toList, "proxy-revalidate".toList]

def unix_time_ms (now : Nat) : Nat := min (now / NANOS_PER_MILLI) U64_MAX

/-! ## What the headers declare -/

/-- The directives of a header map, of each line that is a text. -/
def directives (headers : HeaderMap) : List Text :=
  ((headers.get_all CACHE_CONTROL).filterMap HeaderValue.to_str).flatMap (split ',')

/-- The number of a directive of this name. -/
def seconds_of (name directive : Text) : Option Nat :=
  (split_once '=' directive).bind fun named =>
    if eq_ignore_ascii_case (trim named.1) name then parse_u64 (trim_quotes (trim named.2)) else none

/-- The first directive of this name that has a number. -/
def first_seconds (headers : HeaderMap) (name : Text) : Option Nat :=
  ((directives headers).map trim).findSome? (seconds_of name)

/-- There is a directive of this name, with an argument or without. -/
def Declares (headers : HeaderMap) (name : Text) : Prop :=
  ∃ directive ∈ directives headers, eq_ignore_ascii_case (directive_name directive) name

/-- A line of `Pragma` that is a text has this word. -/
def PragmaDeclares (headers : HeaderMap) (name : Text) : Prop :=
  ∃ text ∈ (headers.get_all PRAGMA).filterMap HeaderValue.to_str, ∃ token ∈ split ',' text,
    eq_ignore_ascii_case (trim token) name

/-- A request that takes a stored response: no directive of it asks for a question to the
upstream. -/
structure Accepts (request : HeaderMap) : Prop where
  no_cache : ¬ Declares request "no-cache".toList
  max_age : first_seconds request MAX_AGE ≠ some 0
  pragma : ¬ PragmaDeclares request "no-cache".toList

/-- A number of seconds, an instant in seconds, or what the configuration gives. -/
inductive Lifetime
  | seconds (count : Nat)
  | instant (date : Nat)
  | configured (nanos : Nat)

/-- The last millisecond of a lifetime that begins at a clock. -/
def Lifetime.end_ms (stored_at : Nat) : Lifetime → Nat
  | .seconds count => stored_at + count * 1000
  | .instant date => max stored_at (date * 1000)
  | .configured nanos => stored_at + nanos / NANOS_PER_MILLI

def accel_lifetime (headers : HeaderMap) : Option Lifetime := do
  let value := trim (← headers.get_str X_ACCEL_EXPIRES)
  match stripStart ['@'] value with
  | some value => do
    let seconds ← parse_u64 value
    if 2 ^ 63 ≤ seconds then none else some (.instant seconds)
  | none => (parse_u64 value).map .seconds

/-- The first source that says something: the header of the proxy, the directives of caches that
are shared before those of all caches, the date, the rules of the route, and the zone. -/
def declared_lifetime (context : LifetimeContext) (status : StatusCode) (headers : HeaderMap) :
    Lifetime :=
  let ignored := ignores_header context.toStoreContext
  let accel := if ignored .XAccelExpires then none else accel_lifetime headers
  let control :=
    if ignored .CacheControl then none
    else ((first_seconds headers S_MAXAGE).or
      (first_seconds headers MAX_AGE)).map Lifetime.seconds
  let expires :=
    if ignored .Expires then none
    else ((headers.get_str EXPIRES).bind parse_http_date).map Lifetime.instant
  let rule := context.ttl_by_status.find? fun rule => rule.statuses.contains status
  (((accel.or control).or expires).or (rule.map fun rule => .configured rule.ttl)).getD
    (.configured context.default_ttl)

end Sources

/-! ## The loop and the first directives -/

def trimmed (values : List HeaderValue) : List Text :=
  ((values.filterMap HeaderValue.to_str).flatMap (split ',')).map trim

theorem trimmed_cons (value : HeaderValue) (values : List HeaderValue) :
    trimmed (value :: values) =
      ((value.to_str.map fun value => (split ',' value).map trim).getD []) ++ trimmed values := by
  unfold trimmed
  rw [List.filterMap_cons]
  cases value.to_str with
  | none => rfl
  | some text => simp

/-- The loop over the lines is one over the directives of them all. -/
theorem max_age_lines (values : List HeaderValue) (max_age : Option Nat) :
    values.foldlM max_age_line max_age = (trimmed values).foldlM max_age_directive max_age := by
  induction values generalizing max_age with
  | nil => rfl
  | cons value values ih =>
    rw [trimmed_cons, List.foldlM_cons, List.foldlM_append, max_age_line]
    cases value.to_str with
    | none => exact ih max_age
    | some text => exact bind_congr fun more => ih more

/-- One directive: a number for shared caches ends the loop, the first number for all is kept. -/
theorem max_age_directive_eq (max_age : Option Nat) (directive : Text) :
    max_age_directive max_age directive =
      (match seconds_of S_MAXAGE directive with
      | some seconds => .error seconds
      | none => .ok (max_age.or (seconds_of MAX_AGE directive))) := by
  unfold max_age_directive seconds_of
  cases split_once '=' directive with
  | none => simp
  | some named =>
    obtain ⟨name, value⟩ := named
    simp only [Option.bind_some]
    cases hshared : eq_ignore_ascii_case (trim name) S_MAXAGE with
    | true =>
      -- The two names are not one.
      have hother : eq_ignore_ascii_case (trim name) MAX_AGE = false := by
        unfold eq_ignore_ascii_case at hshared ⊢
        rw [decide_eq_true_eq] at hshared
        rw [hshared]
        decide
      rw [hother]
      cases parse_u64 (trim_quotes (trim value)) <;> simp
    | false =>
      cases eq_ignore_ascii_case (trim name) MAX_AGE with
      | true => cases parse_u64 (trim_quotes (trim value)) <;> cases max_age <;> simp
      | false => simp

theorem max_age_directives (found : List Text) (max_age : Option Nat) :
    found.foldlM max_age_directive max_age =
      (match found.findSome? (seconds_of S_MAXAGE) with
      | some seconds => .error seconds
      | none => .ok (max_age.or (found.findSome? (seconds_of MAX_AGE)))) := by
  induction found generalizing max_age with
  | nil => simp
  | cons directive found ih =>
    rw [List.foldlM_cons, max_age_directive_eq, List.findSome?_cons, List.findSome?_cons]
    cases seconds_of S_MAXAGE directive with
    | some seconds => rfl
    | none =>
      refine (ih _).trans ?_
      cases seconds_of MAX_AGE directive <;> simp

/-- A shared cache reads the directive for shared caches, wherever it stands. -/
theorem cache_control_max_age_eq (headers : HeaderMap) :
    cache_control_max_age headers =
      (first_seconds headers S_MAXAGE).or (first_seconds headers MAX_AGE) := by
  unfold cache_control_max_age first_seconds directives
  rw [max_age_lines, ← trimmed, max_age_directives]
  cases (trimmed (headers.get_all CACHE_CONTROL)).findSome? (seconds_of S_MAXAGE) <;> simp

example : cache_control_max_age [(CACHE_CONTROL, plainValue "max-age=5"),
    (CACHE_CONTROL, plainValue "S-MaxAge=\"7\"")] = some 7 := by decide +kernel

theorem cache_control_duration_eq (headers : HeaderMap) (name : Text) :
    cache_control_duration headers name = first_seconds headers name := by
  unfold cache_control_duration first_seconds directives
  rw [← trimmed]
  induction headers.get_all CACHE_CONTROL with
  | nil => rfl
  | cons value values ih =>
    rw [trimmed_cons, List.findSome?_cons, List.findSome?_append, ih]
    cases value.to_str with
    | none => simp
    | some text =>
      simp only [Option.bind_some, Option.map_some, Option.getD_some]
      unfold seconds_of
      cases List.findSome? _ ((split ',' text).map trim) <;> rfl

theorem cache_control_contains_iff (headers : HeaderMap) (names : List Text) :
    cache_control_contains headers names = true ↔ ∃ name ∈ names, Declares headers name := by
  unfold cache_control_contains Declares directives
  simp only [List.any_eq_true, List.mem_flatMap]
  constructor
  · rintro ⟨text, htext, directive, hdirective, name, hname, heq⟩
    exact ⟨name, hname, directive, ⟨text, htext, hdirective⟩, heq⟩
  · rintro ⟨name, hname, directive, ⟨text, htext, hdirective⟩, heq⟩
    exact ⟨text, htext, directive, hdirective, name, hname, heq⟩

/-! ## The lifetime of a response -/

/-- What is left of a lifetime at a clock. -/
def Lifetime.ttl (now : Nat) : Lifetime → Nat
  | .seconds count => count * NANOS_PER_SEC
  | .instant date => time_left (date * NANOS_PER_SEC) now
  | .configured nanos => nanos

section Ends

variable (parse_http_date : Text → Option Nat) (context : LifetimeContext) (status : StatusCode)
  (headers : HeaderMap)

theorem x_accel_expires_ttl_eq (now : Nat) :
    x_accel_expires_ttl headers now = (accel_lifetime headers).map (Lifetime.ttl now) := by
  unfold x_accel_expires_ttl accel_lifetime
  cases headers.get_str X_ACCEL_EXPIRES with
  | none => rfl
  | some text =>
    simp only [Option.bind_eq_bind, Option.bind_some]
    by_cases hzero : trim text = ['0']
    · -- A bare zero is read as a number of seconds would be.
      have hread : parse_u64 ['0'] = some 0 := by decide
      have hplain : stripStart ['@'] ['0'] = none := by decide
      rw [if_pos hzero, hzero, hplain]
      dsimp only
      rw [hread, Option.map_some, Option.map_some, Lifetime.ttl, Nat.zero_mul]
    · rw [if_neg hzero]
      cases stripStart ['@'] (trim text) with
      | none => cases parse_u64 (trim text) <;> rfl
      | some instant =>
        dsimp only
        cases parse_u64 instant with
        | none => rfl
        | some seconds =>
          simp only [Option.bind_some]
          split <;> rfl

/-- The sources are asked in their order. -/
theorem response_ttl_eq (now : Nat) :
    response_ttl parse_http_date context status headers now =
      (declared_lifetime parse_http_date context status headers).ttl now := by
  have hcontrol : ∀ read : Option Nat,
      read.map (· * NANOS_PER_SEC) = (read.map Lifetime.seconds).map (Lifetime.ttl now) := by
    intro read
    cases read <;> rfl
  have hexpires : expires_ttl parse_http_date headers now =
      (((headers.get_str EXPIRES).bind parse_http_date).map Lifetime.instant).map
        (Lifetime.ttl now) := by
    unfold expires_ttl
    cases headers.get_str EXPIRES with
    | none => rfl
    | some text =>
      simp only [Option.bind_eq_bind, Option.bind_some]
      cases parse_http_date text <;> rfl
  have hrule : (context.ttl_by_status.findSome? fun rule =>
        if rule.statuses.contains status then some rule.ttl else none) =
      (((context.ttl_by_status.find? fun rule => rule.statuses.contains status).map fun rule =>
        Lifetime.configured rule.ttl)).map (Lifetime.ttl now) := by
    induction context.ttl_by_status with
    | nil => rfl
    | cons rule rules ih =>
      rw [List.findSome?_cons, List.find?_cons]
      cases rule.statuses.contains status with
      | true => rfl
      | false => simpa using ih
  have hignored : ∀ (header : CacheIgnoreHeader) (read : Option Lifetime),
      unless_ignored context.toStoreContext header (read.map (Lifetime.ttl now)) =
        (if ignores_header context.toStoreContext header then none else read).map
          (Lifetime.ttl now) := by
    intro header read
    unfold unless_ignored
    split <;> rfl
  unfold response_ttl declared_lifetime
  dsimp only
  rw [x_accel_expires_ttl_eq, cache_control_max_age_eq, hcontrol, hexpires, hrule, hignored,
    hignored, hignored, ← Option.map_or, ← Option.map_or, ← Option.map_or]
  generalize Option.or _ _ = declared
  cases declared <;> rfl

/-- What is stored is fresh up to the end of its lifetime at the most, whatever the clock says when
the headers are read. -/
theorem expires_at_le {received read_at : Nat} (hclock : received ≤ read_at) :
    saturating_add (unix_time_ms received) (duration_to_ms
        (response_freshness parse_http_date context status headers read_at).ttl) ≤
      (declared_lifetime parse_http_date context status headers).end_ms (unix_time_ms received) := by
  have httl : (response_freshness parse_http_date context status headers read_at).ttl =
      (declared_lifetime parse_http_date context status headers).ttl read_at / NANOS_PER_MILLI := by
    rw [← response_ttl_eq, response_freshness]
  rw [httl]
  clear httl
  unfold saturating_add duration_to_ms unix_time_ms NANOS_PER_MILLI
  generalize U64_MAX = bound
  cases declared_lifetime parse_http_date context status headers with
  | seconds count =>
    simp only [Lifetime.ttl, Lifetime.end_ms, NANOS_PER_SEC]
    omega
  | instant date =>
    simp only [Lifetime.ttl, Lifetime.end_ms, time_left, NANOS_PER_SEC]
    omega
  | configured nanos =>
    simp only [Lifetime.ttl, Lifetime.end_ms, NANOS_PER_MILLI]
    omega

/-- The windows after the end of the lifetime in which a response may be served while another is
fetched. -/
def update_windows (grace : Option Nat) : List Nat :=
  grace.toList ++
    (if ignores_header context.toStoreContext .CacheControl then none
      else (first_seconds headers "stale-while-revalidate".toList).map (· * 1000)).toList

/-- The window after an error: the directive of the response, or else the one of the route. -/
def error_windows : List Nat :=
  ((if ignores_header context.toStoreContext .CacheControl then none
      else (first_seconds headers "stale-if-error".toList).map (· * 1000)).or
    (context.stale_if_error.map (· / NANOS_PER_MILLI))).toList

/-- The response is not to be served without a question to the upstream. -/
def Unrevalidated (names : List Text) : Prop :=
  ignores_header context.toStoreContext .CacheControl = false →
    ∀ name ∈ names, ¬ Declares headers name

theorem stale_while_revalidate_eq (now : Nat) :
    (response_freshness parse_http_date context status headers now).stale_while_revalidate =
      if ignores_header context.toStoreContext .CacheControl then none
      else (first_seconds headers "stale-while-revalidate".toList).map (· * 1000) := by
  unfold response_freshness
  dsimp only
  rw [cache_control_duration_eq]
  rfl

theorem stale_if_error_eq (now : Nat) :
    (response_freshness parse_http_date context status headers now).stale_if_error =
      (if ignores_header context.toStoreContext .CacheControl then none
        else (first_seconds headers "stale-if-error".toList).map (· * 1000)).or
          (context.stale_if_error.map (· / NANOS_PER_MILLI)) := by
  unfold response_freshness
  dsimp only
  rw [cache_control_duration_eq]
  rfl

variable {parse_http_date context status headers}

theorem unrevalidated_of_flag {names : List Text}
    (h : (!ignores_header context.toStoreContext .CacheControl &&
      cache_control_contains headers names) = false) : Unrevalidated context headers names := by
  intro hobeyed name hname hdeclares
  rw [hobeyed, Bool.not_false, Bool.true_and, Bool.eq_false_iff] at h
  exact h ((cache_control_contains_iff headers names).mpr ⟨name, hname, hdeclares⟩)

theorem pragma_contains_iff (headers : HeaderMap) (name : Text) :
    pragma_contains headers name = true ↔ PragmaDeclares headers name := by
  simp only [pragma_contains, PragmaDeclares, List.any_eq_true, List.mem_map,
    exists_exists_and_eq_and]

theorem accepts_iff (request : HeaderMap) :
    Accepts request ↔ request_requires_revalidation request = false := by
  have hcontrol : cache_control_contains request ["no-cache".toList] = true ↔
      Declares request "no-cache".toList := by
    rw [cache_control_contains_iff]
    simp
  unfold request_requires_revalidation
  rw [Bool.or_eq_false_iff, Bool.or_eq_false_iff, decide_eq_false_iff_not,
    cache_control_duration_eq, Bool.eq_false_iff, Bool.eq_false_iff, Ne, Ne, hcontrol,
    pragma_contains_iff]
  constructor
  · exact fun h => ⟨⟨h.no_cache, h.max_age⟩, h.pragma⟩
  · exact fun h => ⟨h.1.1, h.1.2, h.2⟩

/-- An open window of the entry ends that long after the end of the lifetime, or before. -/
theorem window_le {received read_at now : Nat} (hclock : received ≤ read_at) {window : Option Nat}
    (h : WindowOpen (unix_time_ms received)
      (response_freshness parse_http_date context status headers read_at) window now) :
    ∃ length ∈ window, now ≤
      (declared_lifetime parse_http_date context status headers).end_ms (unix_time_ms received) +
        length := by
  obtain ⟨limit, hlimit, hnow⟩ := h
  unfold window_until at hlimit
  obtain ⟨length, hlength, rfl⟩ := Option.map_eq_some_iff.mp hlimit
  refine ⟨length, hlength, ?_⟩
  have hend := expires_at_le parse_http_date context status headers hclock
  have hadd : ∀ a b : Nat, saturating_add a b ≤ a + b := fun a b => min_le_left _ _
  have hms : duration_to_ms length ≤ length := min_le_left _ _
  have hsum := hadd (saturating_add (unix_time_ms received) (duration_to_ms
    (response_freshness parse_http_date context status headers read_at).ttl)) (duration_to_ms length)
  exact hnow.trans (hsum.trans (Nat.add_le_add hend hms))

end Ends

/-! ## What is served -/

section Served

variable {γ β : Type} (env : FillEnv γ β) (io : FillIo) (shared : SharedFills γ) (zone : FillZone)
  (hot_entries : HotEntries) (index : CacheIndex) (pid : Nat) (request : CacheRequest)
  (lookup_key : String) (now : Nat) (policy : RouteCachePolicy)

/-- The decision of `lookup`, which reads the headers of the request for its flag. -/
def decision_for : LookupDecision :=
  (lookup_decision env io shared zone hot_entries index pid request lookup_key now
    (request_requires_revalidation request.headers) policy).decision

/-- The context that `lookup` makes for a response to be stored, or to be asked for, with the same
flag. -/
def store_context (cached_entry : Option CacheIndexEntry)
    (cached_response_head : Option PreparedCacheResponseHead) : CacheStoreContext :=
  { policy
    cached_entry
    cached_response_head
    request_forces_revalidation := request_requires_revalidation request.headers }

/-- A response that was stored is a hit only up to the end of the lifetime that its headers declare,
and is served later only inside of the windows that are declared, to requests that accept it: without
a directive in the way, of the response or of the request. Some time may pass between the receipt of
the response and the look at its headers. -/
theorem a_response_is_served_within_its_lifetime (parse_http_date : Text → Option Nat)
    (stored : LifetimeContext) (status : StatusCode) (headers : HeaderMap) (received elapsed : Nat)
    (base_key : String) (vary : List CachedVaryHeaderValue) (tags : List String)
    (grace keep : Option Nat) (body_size_bytes : Nat) (hash : String) (last_access_unix_ms : Nat)
    (cached_response_head : Option PreparedCacheResponseHead) (later : Nat)
    (reason : CacheStaleReason) :
    let entry := stored_entry base_key vary tags (unix_time_ms received) grace keep
      (response_freshness parse_http_date stored status headers (received + elapsed)) body_size_bytes
      hash last_access_unix_ms
    let decision := decision_for env io shared zone hot_entries index pid request lookup_key now
      policy
    let end_ms := (declared_lifetime parse_http_date stored status headers).end_ms
      (unix_time_ms received)
    let no_questions := ["no-cache".toList, "must-revalidate".toList, "proxy-revalidate".toList]
    (∀ key, decision = .FreshHit key entry →
      now ≤ end_ms ∧ Accepts request.headers ∧ Unrevalidated stored headers ["no-cache".toList]) ∧
    (∀ key, ((∃ status, decision = .Stale key entry status) ∨
        ∃ guard, decision = .BackgroundUpdate key entry guard) →
      (∃ window ∈ update_windows stored headers grace, now ≤ end_ms + window) ∧
        Accepts request.headers ∧ Unrevalidated stored headers no_questions) ∧
    ((store_context request policy (some entry) cached_response_head).can_serve_stale later reason =
        true →
      (∃ window ∈ update_windows stored headers grace ++ error_windows stored headers,
        later ≤ end_ms + window) ∧
        Accepts request.headers ∧ Unrevalidated stored headers no_questions) := by
  intro entry decision end_ms no_questions
  have hclock : received ≤ received + elapsed := Nat.le_add_right _ _
  have hquestions : entry.requires_revalidation = false → entry.must_revalidate = false →
      Unrevalidated stored headers no_questions := by
    intro hrequires hmust hobeyed name hname
    rcases List.mem_cons.mp hname with rfl | hname
    · exact unrevalidated_of_flag hrequires hobeyed _ (List.mem_singleton_self _)
    · exact unrevalidated_of_flag hmust hobeyed _ hname
  have hgrace : ∀ now, lifecycle_phase entry now = .Grace →
      ∃ window ∈ update_windows stored headers grace, now ≤ end_ms + window := by
    intro now hphase
    unfold update_windows
    rcases stored_entry_grace_open.mp (grace_of_phase hphase).2 with hopen | hopen
    · obtain ⟨length, hlength, hnow⟩ := window_le hclock hopen
      exact ⟨length, List.mem_append_left _ (Option.mem_toList.mpr hlength), hnow⟩
    · obtain ⟨length, hlength, hnow⟩ := window_le hclock hopen
      rw [stale_while_revalidate_eq] at hlength
      exact ⟨length, List.mem_append_right _ (Option.mem_toList.mpr hlength), hnow⟩
  refine ⟨fun key hhit => ?_, fun key hstale => ?_, fun hserve => ?_⟩
  · obtain ⟨-, -, htime, hrequires, hforces⟩ := lookup_fresh_hit env io shared zone hot_entries
      index pid request lookup_key now _ policy hhit
    exact ⟨htime.trans (expires_at_le parse_http_date stored status headers hclock),
      (accepts_iff _).mpr hforces, unrevalidated_of_flag hrequires⟩
  · obtain ⟨-, hallowed⟩ := lookup_stale env io shared zone hot_entries index pid request
      lookup_key now _ policy hstale
    obtain ⟨hphase, -, hforces, hrequires, hmust⟩ := stale_allowed_spec hallowed
    exact ⟨hgrace now hphase, (accepts_iff _).mpr hforces, hquestions hrequires hmust⟩
  · obtain ⟨-, hforces, hrequires, hmust, hwindow⟩ := can_serve_stale_spec rfl hserve
    refine ⟨?_, (accepts_iff _).mpr hforces, hquestions hrequires hmust⟩
    rcases hwindow with hphase | hopen
    · obtain ⟨window, hwindow, hnow⟩ := hgrace later hphase
      exact ⟨window, List.mem_append_left _ hwindow, hnow⟩
    · obtain ⟨length, hlength, hnow⟩ := window_le hclock (stored_entry_error_open.mp hopen)
      rw [stale_if_error_eq] at hlength
      exact ⟨length, List.mem_append_right _ (Option.mem_toList.mpr hlength), hnow⟩

end Served

end rginx.cache
