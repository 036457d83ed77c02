-- The data of the response cache, from `cache/state.rs`: the entries of an
-- index, the rules that invalidate them, and the index itself. A `HashMap`
-- and a `BTreeMap` are both an ordered map from strings here; where the code
-- walks a `HashMap`, the order of the walk is a parameter (`HashOrder`).
import Mathlib

namespace rginx.cache

/-- A map from strings, as `HashMap<String, _>` and `BTreeMap<String, _>`. -/
abbrev Map (α : Type) := Std.ExtTreeMap String α compare

/-- `u64::MAX`, and `usize::MAX` on the 64-bit targets of the server. -/
def U64_MAX : Nat := 2 ^ 64 - 1

/-- `u64::saturating_add` and `usize::saturating_add`. The saturating subtraction is the
subtraction of the natural numbers. -/
def saturating_add (a b : Nat) : Nat := min (a + b) U64_MAX

/-! ## Header names -/

/-- The byte that `http::HeaderName` keeps for a byte of its source: a letter in lower case,
any other token character as it is, and nothing for a byte that no name holds. -/
def headerNameChar (c : Char) : Option Char :=
  if 'A' ≤ c ∧ c ≤ 'Z' then some (Char.ofNat (c.toNat + 32))
  else if ('a' ≤ c ∧ c ≤ 'z') ∨ ('0' ≤ c ∧ c ≤ '9') ∨
      c ∈ "!#$%&'*+-.^_`|~".toList then some c
  else none

/-- The text of a header name, from any spelling of it. -/
def headerNameText (s : String) : Option String :=
  if s = "" then none else (s.toList.mapM headerNameChar).map String.ofList

/-- `http::HeaderName`: a name in its one normal spelling. -/
structure HeaderName where
  as_str : String
  normal : headerNameText as_str = some as_str
  deriving DecidableEq

theorem headerNameChar_idem {c d : Char} (h : headerNameChar c = some d) :
    headerNameChar d = some d := by
  unfold headerNameChar at h
  split at h
  · rename_i hup
    obtain rfl := Option.some.inj h
    obtain ⟨n, hn⟩ : ∃ n, n = c.toNat := ⟨_, rfl⟩
    have hlo : 65 ≤ c.toNat := hup.1
    have hhi : c.toNat ≤ 90 := hup.2
    rw [← hn] at hlo hhi ⊢
    interval_cases n <;> decide
  · rename_i hup
    split at h
    · rename_i hok
      obtain rfl := Option.some.inj h
      unfold headerNameChar
      rw [if_neg hup, if_pos hok]
    · cases h

theorem mapM_headerNameChar_idem {cs ds : List Char} (h : cs.mapM headerNameChar = some ds) :
    ds.mapM headerNameChar = some ds := by
  induction cs generalizing ds with
  | nil =>
    simp only [List.mapM_nil, Option.pure_def, Option.some.injEq] at h
    subst h
    rfl
  | cons c cs ih =>
    simp only [List.mapM_cons, Option.pure_def, Option.bind_eq_bind, Option.bind_eq_some_iff,
      Option.some.injEq] at h
    obtain ⟨d, hd, rest, hrest, rfl⟩ := h
    simp [headerNameChar_idem hd, ih hrest]

theorem headerNameText_idem {s t : String} (h : headerNameText s = some t) :
    headerNameText t = some t := by
  unfold headerNameText at h
  split at h
  · cases h
  · rename_i hne
    simp only [Option.map_eq_some_iff] at h
    obtain ⟨ds, hds, rfl⟩ := h
    have hnil : String.ofList ds ≠ "" := by
      intro he
      have hlist : ds = [] := by simpa using congrArg String.toList he
      subst hlist
      rcases hs : s.toList with _ | ⟨c, cs⟩
      · exact hne (by simpa using congrArg String.ofList hs)
      · rw [hs] at hds
        simp [Option.bind_eq_some_iff] at hds
    simp [headerNameText, hnil, mapM_headerNameChar_idem hds]

/-- `str::parse::<HeaderName>`. -/
def HeaderName.parse (s : String) : Option HeaderName :=
  match h : headerNameText s with
  | none => none
  | some t => some ⟨t, headerNameText_idem h⟩

@[simp]
theorem HeaderName.parse_as_str (name : HeaderName) : HeaderName.parse name.as_str = some name := by
  obtain ⟨text, normal⟩ := name
  unfold HeaderName.parse
  split
  · rename_i h
    rw [normal] at h
    cases h
  · rename_i t h
    rw [normal] at h
    obtain rfl := Option.some.inj h
    rfl

theorem token_of_headerNameChar {c d : Char} (h : headerNameChar c = some d) :
    33 ≤ d.toNat ∧ d.toNat < 127 ∧ d.toNat ≠ 58 := by
  unfold headerNameChar at h
  split at h
  · rename_i hup
    obtain rfl := Option.some.inj h
    obtain ⟨n, hn⟩ : ∃ n, n = c.toNat := ⟨_, rfl⟩
    have hlo : 65 ≤ c.toNat := hup.1
    have hhi : c.toNat ≤ 90 := hup.2
    rw [← hn] at hlo hhi ⊢
    interval_cases n <;> decide
  · split at h
    · rename_i hok
      obtain rfl := Option.some.inj h
      rcases hok with ⟨hlo, hhi⟩ | ⟨hlo, hhi⟩ | hsign
      · have hlo : 97 ≤ c.toNat := hlo
        have hhi : c.toNat ≤ 122 := hhi
        omega
      · have hlo : 48 ≤ c.toNat := hlo
        have hhi : c.toNat ≤ 57 := hhi
        omega
      · have hall : ∀ c ∈ "!#$%&'*+-.^_`|~".toList,
            33 ≤ c.toNat ∧ c.toNat < 127 ∧ c.toNat ≠ 58 := by simp
        exact hall c hsign
    · cases h

/-- A character of a name is its own normal spelling. -/
theorem normal_of_name {name : HeaderName} {c : Char} (h : c ∈ name.as_str.toList) :
    headerNameChar c = some c := by
  have hall : ∀ {cs ds : List Char}, cs.mapM headerNameChar = some ds →
      ∀ d ∈ ds, headerNameChar d = some d := by
    intro cs
    induction cs with
    | nil =>
      intro ds hds
      simp only [List.mapM_nil, Option.pure_def, Option.some.injEq] at hds
      subst hds
      simp
    | cons c cs ih =>
      intro ds hds d hd
      simp only [List.mapM_cons, Option.pure_def, Option.bind_eq_bind, Option.bind_eq_some_iff,
        Option.some.injEq] at hds
      obtain ⟨first, hfirst, rest, hrest, rfl⟩ := hds
      rcases List.mem_cons.mp hd with rfl | hd
      · exact headerNameChar_idem hfirst
      · exact ih hrest d hd
  have hnormal := name.normal
  unfold headerNameText at hnormal
  split at hnormal
  · cases hnormal
  · obtain ⟨chars, hchars, htext⟩ := Option.map_eq_some_iff.mp hnormal
    rw [← htext, String.toList_ofList] at h
    exact hall hchars c h

/-- The characters of a name are visible, and none is a colon. -/
theorem token_of_name {name : HeaderName} {c : Char} (h : c ∈ name.as_str.toList) :
    33 ≤ c.toNat ∧ c.toNat < 127 ∧ c.toNat ≠ 58 :=
  token_of_headerNameChar (normal_of_name h)

theorem ascii_of_name (name : HeaderName) : ∀ c ∈ name.as_str.toList, c.toNat < 128 := by
  intro c hc
  have htoken := token_of_name hc
  omega

/-! ## Entries -/

inductive CacheIndexEntryKind
  | Response
  | HitForPass
  deriving DecidableEq, Repr

structure CachedVaryHeaderValue where
  name : HeaderName
  value : Option String
  deriving DecidableEq

structure CacheIndexEntry where
  kind : CacheIndexEntryKind
  hash : String
  base_key : String
  stored_at_unix_ms : Nat
  vary : List CachedVaryHeaderValue
  tags : List String
  body_size_bytes : Nat
  expires_at_unix_ms : Nat
  grace_until_unix_ms : Option Nat
  keep_until_unix_ms : Option Nat
  stale_if_error_until_unix_ms : Option Nat
  stale_while_revalidate_until_unix_ms : Option Nat
  requires_revalidation : Bool
  must_revalidate : Bool
  last_access_unix_ms : Nat
  deriving DecidableEq

def CacheIndexEntry.is_hit_for_pass (entry : CacheIndexEntry) : Bool :=
  entry.kind = .HitForPass

/-- Every field of the two entries agrees, apart from the time of the last access. -/
def CacheIndexEntry.stable_eq (entry other : CacheIndexEntry) : Bool :=
  entry.kind = other.kind ∧
    entry.stored_at_unix_ms = other.stored_at_unix_ms ∧
    entry.grace_until_unix_ms = other.grace_until_unix_ms ∧
    entry.keep_until_unix_ms = other.keep_until_unix_ms ∧
    entry.hash = other.hash ∧
    entry.base_key = other.base_key ∧
    entry.vary = other.vary ∧
    entry.tags = other.tags ∧
    entry.body_size_bytes = other.body_size_bytes ∧
    entry.expires_at_unix_ms = other.expires_at_unix_ms ∧
    entry.stale_if_error_until_unix_ms = other.stale_if_error_until_unix_ms ∧
    entry.stale_while_revalidate_until_unix_ms = other.stale_while_revalidate_until_unix_ms ∧
    entry.requires_revalidation = other.requires_revalidation ∧
    entry.must_revalidate = other.must_revalidate

/-! ## Invalidation rules -/

inductive CacheInvalidationSelector
  | All
  | Exact (key : String)
  | Prefix (text : String)
  | Tag (tag : String)
  deriving DecidableEq, Repr

structure CacheInvalidationRule where
  selector : CacheInvalidationSelector
  created_at_unix_ms : Nat
  deriving DecidableEq, Repr

/-! ## The index -/

/-- One record of the eviction schedule. -/
structure CacheAccessScheduleEntry where
  last_access_unix_ms : Nat
  ticket : Nat
  key : String
  deriving Repr

/-- The derived order of Rust: by the time, then by the ticket, then by the key. -/
def CacheAccessScheduleEntry.rank (s : CacheAccessScheduleEntry) : ℕ ×ₗ ℕ ×ₗ String :=
  toLex (s.last_access_unix_ms, toLex (s.ticket, s.key))

theorem CacheAccessScheduleEntry.rank_injective :
    Function.Injective CacheAccessScheduleEntry.rank := by
  rintro ⟨a, b, c⟩ ⟨a', b', c'⟩ h
  simp only [CacheAccessScheduleEntry.rank, EmbeddingLike.apply_eq_iff_eq, Prod.mk.injEq] at h
  obtain ⟨rfl, rfl, rfl⟩ := h
  rfl

instance : LinearOrder CacheAccessScheduleEntry :=
  LinearOrder.lift' CacheAccessScheduleEntry.rank CacheAccessScheduleEntry.rank_injective

structure CacheAccessScheduleTicket where
  last_access_unix_ms : Nat
  ticket : Nat
  deriving DecidableEq, Repr

structure CacheIndex where
  entries : Map CacheIndexEntry := ∅
  hash_ref_counts : Map Nat := ∅
  variants : Map (List String) := ∅
  admission_counts : Map Nat := ∅
  invalidations : List CacheInvalidationRule := []
  current_size_bytes : Nat := 0
  maintenance_next_ticket : Nat := 0
  access_schedule : Finset CacheAccessScheduleEntry := ∅
  access_ticket_by_key : Map CacheAccessScheduleTicket := ∅

/-- `CacheIndex::default()`. -/
def CacheIndex.default : CacheIndex := {}

/-- The order in which a walk over a `HashMap` meets the keys: any order, each key once. -/
structure HashOrder where
  walk : List String → List String
  perm : ∀ keys, (walk keys).Perm keys

/-! ## The hot state of a zone -/

/-- The local state of a key beside the index: the last access that the index may not know of
yet, and when the zone last told the shared index of an access. -/
structure CacheEntryHotState where
  last_access_unix_ms : Nat
  shared_touch_published_unix_ms : Nat
  deriving DecidableEq, Repr

abbrev HotEntries := Map CacheEntryHotState

end rginx.cache
