-- The names of the virtual hosts and the choice of one by the host of a request, from
-- `rginx-core/src/config/server_name.rs`, `router.rs` and `handler/dispatch/select.rs`
-- of the crate `rginx-http`.
import Rginx.CacheRequest
import Rginx.ListenerConfigs

open rust_text rust_net

/-! ## The first of the best -/

namespace selection

variable {α κ : Type} [LinearOrder κ]

/-- A candidate takes the place of the selected one where it ranks higher. -/
def select_step (rank : α → Option κ) (selected : Option (κ × α)) (candidate : α) :
    Option (κ × α) :=
  match rank candidate, selected with
  | none, selected => selected
  | some priority, none => some (priority, candidate)
  | some priority, some (current_priority, current) =>
    if current_priority < priority then some (priority, candidate)
    else some (current_priority, current)

def select (rank : α → Option κ) (candidates : List α) : Option (κ × α) :=
  candidates.foldl (select_step rank) none

/-- No candidate ranks higher, and none before it as high. -/
structure FirstBest (rank : α → Option κ) (candidates : List α) (best : κ × α) : Prop where
  ranked : rank best.2 = some best.1
  first : ∃ before after, candidates = before ++ best.2 :: after ∧
    (∀ candidate ∈ before, ∀ priority, rank candidate = some priority → priority < best.1) ∧
    ∀ candidate ∈ after, ∀ priority, rank candidate = some priority → priority ≤ best.1

variable {rank : α → Option κ}

theorem select_append (candidates : List α) (candidate : α) :
    select rank (candidates ++ [candidate]) =
      select_step rank (select rank candidates) candidate := by
  simp [select]

theorem select_spec (candidates : List α) :
    match select rank candidates with
    | none => ∀ candidate ∈ candidates, rank candidate = none
    | some best => FirstBest rank candidates best := by
  induction candidates using List.reverseRecOn with
  | nil => exact List.forall_mem_nil _
  | append_singleton candidates candidate ih =>
    rw [select_append]
    unfold select_step
    rcases hrank : rank candidate with _ | priority
    · cases hselect : select rank candidates with
      | none =>
        rw [hselect] at ih
        intro other hother
        rcases List.mem_append.mp hother with hother | hother
        · exact ih other hother
        · rw [List.mem_singleton.mp hother, hrank]
      | some best =>
        rw [hselect] at ih
        obtain ⟨hranked, before, after, rfl, hbefore, hafter⟩ := ih
        refine ⟨hranked, before, after ++ [candidate], by simp, hbefore, ?_⟩
        intro other hother priority hpriority
        rcases List.mem_append.mp hother with hother | hother
        · exact hafter other hother priority hpriority
        · rw [List.mem_singleton.mp hother, hrank] at hpriority
          cases hpriority
    · cases hselect : select rank candidates with
      | none =>
        rw [hselect] at ih
        refine ⟨hrank, candidates, [], rfl, ?_, List.forall_mem_nil _⟩
        intro other hother priority hpriority
        rw [ih other hother] at hpriority
        cases hpriority
      | some best =>
        rw [hselect] at ih
        obtain ⟨hranked, before, after, hsplit, hbefore, hafter⟩ := ih
        dsimp only
        by_cases hlt : best.1 < priority
        · rw [if_pos hlt]
          refine ⟨hrank, candidates, [], rfl, ?_, List.forall_mem_nil _⟩
          intro other hother priority' hpriority'
          rw [hsplit] at hother
          rcases List.mem_append.mp hother with hother | hother
          · exact (hbefore other hother priority' hpriority').trans hlt
          · rcases List.mem_cons.mp hother with rfl | hother
            · rw [hranked] at hpriority'
              exact Option.some.inj hpriority' ▸ hlt
            · exact (hafter other hother priority' hpriority').trans_lt hlt
        · rw [if_neg hlt]
          refine ⟨hranked, before, after ++ [candidate], by simp [hsplit], hbefore, ?_⟩
          intro other hother priority' hpriority'
          rcases List.mem_append.mp hother with hother | hother
          · exact hafter other hother priority' hpriority'
          · rw [List.mem_singleton.mp hother, hrank] at hpriority'
            exact Option.some.inj hpriority' ▸ not_lt.mp hlt

theorem FirstBest.best_of_mem {candidates : List α} {best : κ × α}
    (h : FirstBest rank candidates best) {candidate : α} (hmem : candidate ∈ candidates)
    {priority : κ} (hrank : rank candidate = some priority) : priority ≤ best.1 := by
  obtain ⟨before, after, rfl, hbefore, hafter⟩ := h.first
  rcases List.mem_append.mp hmem with hmem | hmem
  · exact (hbefore candidate hmem priority hrank).le
  · rcases List.mem_cons.mp hmem with rfl | hmem
    · rw [h.ranked] at hrank
      exact (Option.some.inj hrank).ge
    · exact hafter candidate hmem priority hrank

/-- There is one first of the best. -/
theorem FirstBest.unique {candidates : List α} {best best' : κ × α}
    (h : FirstBest rank candidates best) (h' : FirstBest rank candidates best') : best = best' := by
  have hmem : best.2 ∈ candidates := by
    obtain ⟨before, after, hsplit, _⟩ := h.first
    simp [hsplit]
  have hmem' : best'.2 ∈ candidates := by
    obtain ⟨before, after, hsplit, _⟩ := h'.first
    simp [hsplit]
  have hpriority : best.1 = best'.1 :=
    le_antisymm (h'.best_of_mem hmem h.ranked) (h.best_of_mem hmem' h'.ranked)
  refine Prod.ext hpriority ?_
  obtain ⟨before, after, hsplit, hbefore, _⟩ := h.first
  obtain ⟨before', after', hsplit', hbefore', _⟩ := h'.first
  rw [hsplit] at hsplit'
  rcases List.append_eq_append_iff.mp hsplit' with ⟨middle, hleft, hright⟩ | ⟨middle, hleft, hright⟩
  · cases middle with
    | nil => exact (List.cons.inj hright).1
    | cons first middle =>
      obtain ⟨rfl, _⟩ := List.cons.inj hright
      have hlt := hbefore' best.2 (by simp [hleft]) best.1 h.ranked
      exact absurd hpriority hlt.ne
  · cases middle with
    | nil => exact (List.cons.inj hright).1.symm
    | cons first middle =>
      obtain ⟨rfl, _⟩ := List.cons.inj hright
      have hlt := hbefore best'.2 (by simp [hleft]) best'.1 h'.ranked
      exact absurd hpriority hlt.ne'

theorem select_eq_some {candidates : List α} {best : κ × α} :
    select rank candidates = some best ↔ FirstBest rank candidates best := by
  have hspec := @select_spec α κ _ rank candidates
  constructor
  · intro h
    rw [h] at hspec
    exact hspec
  · intro h
    cases hselect : select rank candidates with
    | none =>
      rw [hselect] at hspec
      obtain ⟨before, after, hsplit, _⟩ := h.first
      have hnone := hspec best.2 (by simp [hsplit])
      rw [h.ranked] at hnone
      cases hnone
    | some other =>
      rw [hselect] at hspec
      rw [hspec.unique h]

theorem select_eq_none {candidates : List α} :
    select rank candidates = none ↔ ∀ candidate ∈ candidates, rank candidate = none := by
  have hspec := @select_spec α κ _ rank candidates
  constructor
  · intro h
    rw [h] at hspec
    exact hspec
  · intro h
    by_contra hsome
    obtain ⟨best, hbest⟩ := Option.ne_none_iff_exists'.mp hsome
    rw [hbest] at hspec
    obtain ⟨before, after, hsplit, _⟩ := hspec.first
    have hnone := h best.2 (by simp [hsplit])
    rw [hspec.ranked] at hnone
    cases hnone

/-- Candidates without a rank may be left out. -/
theorem select_filter {keep : α → Bool} (candidates : List α)
    (h : ∀ candidate ∈ candidates, keep candidate = false → rank candidate = none) :
    select rank (candidates.filter keep) = select rank candidates := by
  unfold select
  generalize (none : Option (κ × α)) = selected
  induction candidates generalizing selected with
  | nil => rfl
  | cons candidate candidates ih =>
    have hrest := ih fun other hother => h other (List.mem_cons_of_mem _ hother)
    cases hkeep : keep candidate with
    | true => rw [List.filter_cons_of_pos hkeep, List.foldl_cons, List.foldl_cons, hrest]
    | false =>
      have hsame : select_step rank selected candidate = selected := by
        unfold select_step
        rw [h candidate List.mem_cons_self hkeep]
      rw [List.filter_cons_of_neg (by simp [hkeep]), List.foldl_cons, hsame, hrest]

theorem select_map {β : Type} (f : β → α) (candidates : List β) :
    select rank (candidates.map f) =
      (select (fun candidate => rank (f candidate)) candidates).map fun best => (best.1, f best.2) := by
  induction candidates using List.reverseRecOn with
  | nil => rfl
  | append_singleton candidates candidate ih =>
    rw [List.map_append, List.map_singleton, select_append, select_append, ih]
    unfold select_step
    dsimp only
    cases rank (f candidate) with
    | none => rfl
    | some priority =>
      cases select (fun candidate => rank (f candidate)) candidates with
      | none => rfl
      | some best =>
        dsimp only [Option.map_some]
        split <;> rfl

/-- The first of the best stands at a place before which all are worse. -/
theorem firstBest_iff_at {candidates : List α} {best : κ × α} :
    FirstBest rank candidates best ↔ ∃ place : Nat, candidates[place]? = some best.2 ∧
      rank best.2 = some best.1 ∧ ∀ (other_place : Nat) other, candidates[other_place]? = some other →
        ∀ priority, rank other = some priority →
          priority ≤ best.1 ∧ (other_place < place → priority < best.1) := by
  constructor
  · intro h
    obtain ⟨before, after, rfl, hbefore, _⟩ := h.first
    refine ⟨before.length, by simp, h.ranked, ?_⟩
    intro other_place other hother priority hpriority
    refine ⟨h.best_of_mem (List.mem_of_getElem? hother) hpriority, ?_⟩
    intro hearlier
    rw [List.getElem?_append_left hearlier] at hother
    exact hbefore other (List.mem_of_getElem? hother) priority hpriority
  · rintro ⟨place, hplace, hranked, hothers⟩
    refine ⟨hranked, candidates.take place, candidates.drop (place + 1), ?_, ?_, ?_⟩
    · have hlt := (List.getElem?_eq_some_iff.mp hplace).1
      rw [← (List.getElem?_eq_some_iff.mp hplace).2, List.getElem_cons_drop, List.take_append_drop]
    · intro other hother priority hpriority
      obtain ⟨other_place, hlt, hother⟩ := List.mem_take_iff_getElem.mp hother
      have hearlier := lt_min_iff.mp hlt
      exact (hothers other_place other (List.getElem?_eq_some_iff.mpr ⟨hearlier.2, hother⟩)
        priority hpriority).2 hearlier.1
    · intro other hother priority hpriority
      obtain ⟨other_place, hother⟩ := List.mem_iff_getElem?.mp (List.mem_of_mem_drop hother)
      exact (hothers other_place other hother priority hpriority).1

end selection

namespace rginx.config

/-! ## Server names -/

inductive ServerNameMatch
  | Exact
  | DotWildcard (suffix_len : Nat)
  | LeadingWildcard (suffix_len : Nat)
  | TrailingWildcard (prefix_len : Nat)
  deriving DecidableEq

def ServerNameMatch.priority : ServerNameMatch → Nat ×ₗ Nat
  | .Exact => toLex (4, 0)
  | .DotWildcard suffix_len => toLex (2, suffix_len)
  | .LeadingWildcard suffix_len => toLex (2, suffix_len)
  | .TrailingWildcard prefix_len => toLex (1, prefix_len)

/-- A host without its port, or without the brackets around it. -/
def normalize_host_for_match (host : Text) : Text :=
  match (stripStart ['['] host).bind (split_once ']') with
  | some (addr, _) => to_ascii_lowercase addr
  | none => to_ascii_lowercase (host.takeWhile (· ≠ ':'))

/-- `str::strip_suffix`. -/
def stripEnd (ending s : Text) : Option Text :=
  if ending <:+ s then some (s.take (s.length - ending.length)) else none

def match_server_name (pattern host : Text) : Option ServerNameMatch :=
  let hostname := normalize_host_for_match host
  let pattern := to_ascii_lowercase (trim pattern)
  if pattern = [] then none
  else
    match stripStart ['.'] pattern with
    | some suffix =>
      if suffix = [] then none
      else if hostname = suffix ∨ '.' :: suffix <:+ hostname then
        some (.DotWildcard (as_bytes suffix).length)
      else none
    | none =>
      match stripStart ['*', '.'] pattern with
      | some suffix =>
        if suffix = [] ∨ hostname = suffix then none
        else if '.' :: suffix <:+ hostname then some (.LeadingWildcard (as_bytes suffix).length)
        else none
      | none =>
        match stripEnd ['.', '*'] pattern with
        | some start =>
          if start = [] ∨ hostname = start then none
          else
            match stripStart start hostname with
            | some remainder =>
              if ['.'] <+: remainder ∧ 1 < (as_bytes remainder).length then
                some (.TrailingWildcard (as_bytes start).length)
              else none
            | none => none
        | none => if hostname = pattern then some .Exact else none

/-- Where a match stands among the others: by its priority, and the smaller text is the greater
among equals. -/
def match_order (row : Text × ServerNameMatch) : (Nat ×ₗ Nat) ×ₗ Textᵒᵈ :=
  toLex (row.2.priority, OrderDual.toDual row.1)

/-- `Iterator::max_by`: the last of the greatest. -/
def max_by {α κ : Type} [LinearOrder κ] (key : α → κ) (items : List α) : Option α :=
  items.foldl (fun best item => match best with
    | none => some item
    | some best => if key item < key best then some best else some item) none

def matching (patterns : List Text) (host : Text) : List (Text × ServerNameMatch) :=
  patterns.filterMap fun pattern =>
    (match_server_name pattern host).map fun matched => (pattern, matched)

def best_matching_server_name_pattern (patterns : List Text) (host : Text) :
    Option (Text × ServerNameMatch) :=
  max_by match_order (matching patterns host)

def VirtualHost.best_server_name_match (vhost : VirtualHost) (host : Text) :
    Option ServerNameMatch :=
  (best_matching_server_name_pattern (vhost.server_names.map String.toList) host).map Prod.snd

def has_unsupported_wildcard (name : Text) : Bool :=
  if '*' ∈ name then
    match stripStart ['*', '.'] name with
    | some suffix => suffix = [] ∨ '*' ∈ suffix
    | none =>
      match stripEnd ['.', '*'] name with
      | some start => start = [] ∨ '*' ∈ start
      | none => true
  else false

/-- The names of one owner, beside those of the owners before it. -/
def validate_server_names (to_lowercase : String → String) (owner_label : String) :
    List String → List Text → Except String (List Text)
  | [], all_server_names => .ok all_server_names
  | name :: server_names, all_server_names =>
    let normalized := (to_lowercase (String.ofList (trim name.toList))).toList
    if normalized = [] then .error s!"{owner_label} server_name must not be empty"
    else if normalized = ['.'] ∨ ['.'] <:+ normalized then
      .error s!"{owner_label} server_name `{name}` must not end with a bare `.`"
    else if has_unsupported_wildcard normalized then
      .error s!"{owner_label} server_name `{name}` uses unsupported wildcard syntax; supported forms are exact names, `.example.com`, leading `*.` wildcards, and trailing `.*` wildcards"
    else if '/' ∈ normalized then
      .error s!"{owner_label} server_name `{name}` should not contain path separator"
    else if normalized ∈ all_server_names then
      .error s!"duplicate server_name `{name}` across server and servers"
    else validate_server_names to_lowercase owner_label server_names (normalized :: all_server_names)

def validate_vhost_names (to_lowercase : String → String) :
    Nat → List VirtualHostConfig → List Text → Except String (List Text)
  | _, [], all_server_names => .ok all_server_names
  | idx, vhost :: vhosts, all_server_names => do
    let all_server_names ←
      validate_server_names to_lowercase s!"servers[{idx}]" vhost.server_names all_server_names
    validate_vhost_names to_lowercase (idx + 1) vhosts all_server_names

/-- The part of `validate` that the names of the server block and of the virtual hosts pass. -/
def validate_all_server_names (to_lowercase : String → String) (config : Config) :
    Except String Unit := do
  let all_server_names ← validate_server_names to_lowercase "server" config.server.server_names []
  let _ ← validate_vhost_names to_lowercase 0 config.servers all_server_names

/-! ## The best match -/

theorem max_by_append {α κ : Type} [LinearOrder κ] (key : α → κ) (items : List α) (item : α) :
    max_by key (items ++ [item]) = match max_by key items with
      | none => some item
      | some best => if key item < key best then some best else some item := by
  simp [max_by]

/-- None of the others is greater than the greatest. -/
theorem max_by_spec {α κ : Type} [LinearOrder κ] (key : α → κ) (items : List α) :
    match max_by key items with
    | none => items = []
    | some best => best ∈ items ∧ ∀ item ∈ items, key item ≤ key best := by
  induction items using List.reverseRecOn with
  | nil => rfl
  | append_singleton items item ih =>
    rw [max_by_append]
    cases hbest : max_by key items with
    | none =>
      rw [hbest] at ih
      simp [ih]
    | some best =>
      rw [hbest] at ih
      obtain ⟨hmem, hgreatest⟩ := ih
      dsimp only
      by_cases hlt : key item < key best
      · rw [if_pos hlt]
        refine ⟨List.mem_append_left _ hmem, ?_⟩
        intro other hother
        rcases List.mem_append.mp hother with hother | hother
        · exact hgreatest other hother
        · rw [List.mem_singleton.mp hother]
          exact hlt.le
      · rw [if_neg hlt]
        refine ⟨by simp, ?_⟩
        intro other hother
        rcases List.mem_append.mp hother with hother | hother
        · exact (hgreatest other hother).trans (not_lt.mp hlt)
        · rw [List.mem_singleton.mp hother]

theorem mem_matching {patterns : List Text} {host pattern : Text} {matched : ServerNameMatch} :
    (pattern, matched) ∈ matching patterns host ↔
      pattern ∈ patterns ∧ match_server_name pattern host = some matched := by
  simp only [matching, List.mem_filterMap, Option.map_eq_some_iff, Prod.mk.injEq]
  constructor
  · rintro ⟨_, hmem, _, hmatched, rfl, rfl⟩
    exact ⟨hmem, hmatched⟩
  · exact fun ⟨hmem, hmatched⟩ => ⟨pattern, hmem, matched, hmatched, rfl, rfl⟩

/-- The best pattern matches, and every other match stands below it. -/
theorem best_matching_some {patterns : List Text} {host pattern : Text} {matched : ServerNameMatch}
    (h : best_matching_server_name_pattern patterns host = some (pattern, matched)) :
    pattern ∈ patterns ∧ match_server_name pattern host = some matched ∧
      ∀ other ∈ patterns, ∀ other_matched, match_server_name other host = some other_matched →
        match_order (other, other_matched) ≤ match_order (pattern, matched) := by
  have hspec := max_by_spec match_order (matching patterns host)
  unfold best_matching_server_name_pattern at h
  rw [h] at hspec
  obtain ⟨hmem, hgreatest⟩ := hspec
  obtain ⟨hpattern, hmatched⟩ := mem_matching.mp hmem
  exact ⟨hpattern, hmatched, fun other hother other_matched hother_matched =>
    hgreatest _ (mem_matching.mpr ⟨hother, hother_matched⟩)⟩

theorem best_matching_none {patterns : List Text} {host : Text} :
    best_matching_server_name_pattern patterns host = none ↔
      ∀ pattern ∈ patterns, match_server_name pattern host = none := by
  have hspec := max_by_spec match_order (matching patterns host)
  unfold best_matching_server_name_pattern
  constructor
  · intro h pattern hpattern
    rw [h] at hspec
    by_contra hsome
    obtain ⟨matched, hmatched⟩ := Option.ne_none_iff_exists'.mp hsome
    have hmem := mem_matching.mpr ⟨hpattern, hmatched⟩
    rw [hspec] at hmem
    cases hmem
  · intro h
    by_contra hsome
    obtain ⟨⟨pattern, matched⟩, hbest⟩ := Option.ne_none_iff_exists'.mp hsome
    rw [hbest] at hspec
    obtain ⟨hpattern, hmatched⟩ := mem_matching.mp hspec.1
    rw [h pattern hpattern] at hmatched
    cases hmatched

/-- Hosts that are the same without their ports match the same patterns. -/
theorem best_matching_host {host host' : Text}
    (h : normalize_host_for_match host = normalize_host_for_match host') (patterns : List Text) :
    best_matching_server_name_pattern patterns host =
      best_matching_server_name_pattern patterns host' := by
  unfold best_matching_server_name_pattern matching match_server_name
  rw [h]

theorem match_order_le {left right : Text × ServerNameMatch}
    (h : match_order left ≤ match_order right) : left.2.priority ≤ right.2.priority :=
  (Prod.Lex.le_iff.mp h).elim le_of_lt fun hsame => hsame.1.le

/-! ## How well a virtual host matches -/

/-- The rank of an owner of names among those that match a host. -/
def rank (host : Text) (server_names : List String) : Option (Nat ×ₗ Nat) :=
  (best_matching_server_name_pattern (server_names.map String.toList) host).map fun best =>
    best.2.priority

/-- A name of the list matches the host, with this priority. -/
def Offers (host : Text) (server_names : List String) (priority : Nat ×ₗ Nat) : Prop :=
  ∃ name ∈ server_names, ∃ matched, match_server_name name.toList host = some matched ∧
    matched.priority = priority

theorem rank_some {host : Text} {server_names : List String} {priority : Nat ×ₗ Nat} :
    rank host server_names = some priority ↔
      Offers host server_names priority ∧
        ∀ other, Offers host server_names other → other ≤ priority := by
  have hsome : ∀ best, rank host server_names = some best →
      Offers host server_names best ∧ ∀ other, Offers host server_names other → other ≤ best := by
    intro best h
    obtain ⟨⟨pattern, matched⟩, hbest, rfl⟩ := Option.map_eq_some_iff.mp h
    obtain ⟨hpattern, hmatched, hgreatest⟩ := best_matching_some hbest
    obtain ⟨name, hname, rfl⟩ := List.mem_map.mp hpattern
    refine ⟨⟨name, hname, matched, hmatched, rfl⟩, ?_⟩
    rintro other ⟨other_name, hother, other_matched, hother_matched, rfl⟩
    exact match_order_le (hgreatest _ (List.mem_map_of_mem hother) _ hother_matched)
  constructor
  · exact hsome priority
  · rintro ⟨hoffers, hgreatest⟩
    cases hrank : rank host server_names with
    | none =>
      obtain ⟨name, hname, matched, hmatched, _⟩ := hoffers
      have hnone := best_matching_none.mp (Option.map_eq_none_iff.mp hrank) name.toList
        (List.mem_map_of_mem hname)
      rw [hmatched] at hnone
      cases hnone
    | some best =>
      obtain ⟨hbest, hbest_greatest⟩ := hsome best hrank
      rw [le_antisymm (hgreatest best hbest) (hbest_greatest priority hoffers)]

theorem rank_none {host : Text} {server_names : List String} :
    rank host server_names = none ↔ ∀ priority, ¬ Offers host server_names priority := by
  constructor
  · rintro h priority ⟨name, hname, matched, hmatched, _⟩
    have hnone := best_matching_none.mp (Option.map_eq_none_iff.mp h) name.toList
      (List.mem_map_of_mem hname)
    rw [hmatched] at hnone
    cases hnone
  · intro h
    by_contra hsome
    obtain ⟨priority, hrank⟩ := Option.ne_none_iff_exists'.mp hsome
    exact h priority (rank_some.mp hrank).1

theorem rank_of_offers {host : Text} {server_names : List String} {priority : Nat ×ₗ Nat}
    (h : Offers host server_names priority) :
    ∃ best, rank host server_names = some best ∧ priority ≤ best := by
  cases hrank : rank host server_names with
  | none => exact absurd h (rank_none.mp hrank priority)
  | some best => exact ⟨best, rfl, (rank_some.mp hrank).2 priority h⟩

/-! ## The owner that a host is for -/

section Owners

variable {α : Type} {names : α → List String} {owners : List α} {host : Text}

/-- The owner of names at this place has the best match, and those before it a worse one. -/
structure FirstOffer (names : α → List String) (owners : List α) (host : Text) (index : Nat)
    (owner : α) : Prop where
  declared : owners[index]? = some owner
  best : ∃ priority, Offers host (names owner) priority ∧
    ∀ (other_index : Nat) other, owners[other_index]? = some other →
      ∀ other_priority, Offers host (names other) other_priority →
        other_priority ≤ priority ∧ (other_index < index → other_priority < priority)

/-- No name of any owner matches. -/
def NoOffer (names : α → List String) (owners : List α) (host : Text) : Prop :=
  ∀ owner ∈ owners, ∀ priority, ¬ Offers host (names owner) priority

theorem firstOffer_iff {index : Nat} {owner : α} :
    FirstOffer names owners host index owner ↔ owners[index]? = some owner ∧
      ∃ priority, rank host (names owner) = some priority ∧
        ∀ (other_index : Nat) other, owners[other_index]? = some other →
          ∀ other_priority, rank host (names other) = some other_priority →
            other_priority ≤ priority ∧ (other_index < index → other_priority < priority) := by
  constructor
  · rintro ⟨hdeclared, priority, hoffers, hothers⟩
    refine ⟨hdeclared, priority, rank_some.mpr ⟨hoffers, ?_⟩, ?_⟩
    · exact fun other hother => (hothers index owner hdeclared other hother).1
    · exact fun other_index other hother other_priority hrank =>
        hothers other_index other hother other_priority (rank_some.mp hrank).1
  · rintro ⟨hdeclared, priority, hrank, hothers⟩
    refine ⟨hdeclared, priority, (rank_some.mp hrank).1, ?_⟩
    intro other_index other hother other_priority hoffers
    obtain ⟨best, hbest, hle⟩ := rank_of_offers hoffers
    obtain ⟨hbest_le, hbest_lt⟩ := hothers other_index other hother best hbest
    exact ⟨hle.trans hbest_le, fun hearlier => hle.trans_lt (hbest_lt hearlier)⟩

/-- The owner with the first of the best offers is the one that is selected. -/
theorem exists_firstOffer_iff {owner : α} :
    (∃ index, FirstOffer names owners host index owner) ↔
      ∃ priority, selection.select (fun owner => rank host (names owner)) owners =
        some (priority, owner) := by
  simp only [selection.select_eq_some, selection.firstBest_iff_at, firstOffer_iff]
  exact ⟨fun ⟨index, hdeclared, priority, h⟩ => ⟨priority, index, hdeclared, h⟩,
    fun ⟨priority, index, hdeclared, h⟩ => ⟨index, hdeclared, priority, h⟩⟩

theorem FirstOffer.unique {index index' : Nat} {owner owner' : α}
    (h : FirstOffer names owners host index owner)
    (h' : FirstOffer names owners host index' owner') : owner = owner' := by
  obtain ⟨priority, hselect⟩ := exists_firstOffer_iff.mp ⟨index, h⟩
  obtain ⟨priority', hselect'⟩ := exists_firstOffer_iff.mp ⟨index', h'⟩
  rw [hselect] at hselect'
  exact (Prod.mk.inj (Option.some.inj hselect')).2

theorem FirstOffer.not_noOffer {index : Nat} {owner : α}
    (h : FirstOffer names owners host index owner) : ¬ NoOffer names owners host := by
  obtain ⟨priority, hoffers, _⟩ := h.best
  exact fun hnone => hnone owner (List.mem_of_getElem? h.declared) priority hoffers

theorem noOffer_iff :
    NoOffer names owners host ↔ ∀ owner ∈ owners, rank host (names owner) = none := by
  simp only [NoOffer, rank_none]

end Owners

end rginx.config

namespace rginx.http

open rginx.cache rginx.config selection

/-! ## The virtual host of a request -/

/-- The virtual host with the best match, the first declared among equals. -/
def select_vhost (vhosts : List VirtualHost) (default : VirtualHost) (host : Text) : VirtualHost :=
  ((select (fun vhost => (vhost.best_server_name_match host).map ServerNameMatch.priority)
    vhosts).map Prod.snd).getD default

def request_host (headers : HeaderMap) (authority : Option Text) : Text :=
  ((headers.get_str HOST).or authority).getD []

def select_vhost_for_request (config : ConfigSnapshot) (headers : HeaderMap)
    (authority : Option Text) : VirtualHost :=
  select_vhost config.vhosts config.default_vhost (request_host headers authority)

/-- The virtual host with the first of the best offers is selected, the default where none
offers anything. -/
theorem select_vhost_spec (vhosts : List VirtualHost) (default : VirtualHost) (host : Text) :
    (∃ index, FirstOffer VirtualHost.server_names vhosts host index
      (select_vhost vhosts default host)) ∨
    (NoOffer VirtualHost.server_names vhosts host ∧
      select_vhost vhosts default host = default) := by
  have hrank : (fun vhost : VirtualHost =>
      (vhost.best_server_name_match host).map ServerNameMatch.priority) =
      fun vhost => rank host vhost.server_names := by
    funext vhost
    simp [VirtualHost.best_server_name_match, rank, Option.map_map, Function.comp_def]
  unfold select_vhost
  rw [hrank]
  cases hselect : select (fun vhost : VirtualHost => rank host vhost.server_names) vhosts with
  | none => exact .inr ⟨noOffer_iff.mpr (select_eq_none.mp hselect), rfl⟩
  | some best => exact .inl (exists_firstOffer_iff.mpr ⟨best.1, hselect⟩)

end rginx.http
