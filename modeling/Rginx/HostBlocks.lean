-- The block that serves a host, beside the best server name over all blocks, from `router.rs` of the
-- crate `rginx-http` and `rginx-core/src/config/server_name.rs`. The names of the default block stand
-- beside those of the virtual hosts here, as they do where names are validated and where the
-- certificate of a server name is chosen.
import Rginx.VirtualHosts

open rust_text

namespace rginx.config

/-! ## Letter case and ports -/

theorem takeWhile_lowercase {c : Char} (hc : c.isAlpha = false) (s : Text) :
    (to_ascii_lowercase s).takeWhile (· ≠ c) = to_ascii_lowercase (s.takeWhile (· ≠ c)) := by
  have hsame : (fun d : Char => decide (d ≠ c)) ∘ Char.toLower = fun d => decide (d ≠ c) := by
    funext d
    simp only [Function.comp_apply, ne_eq, toLower_eq_iff hc]
  unfold to_ascii_lowercase
  rw [List.takeWhile_map, hsame]

theorem normalize_lowercase (host : Text) :
    normalize_host_for_match (to_ascii_lowercase host) = normalize_host_for_match host := by
  unfold normalize_host_for_match
  rw [stripStart_lowercase (by decide)]
  cases stripStart ['['] host with
  | none =>
    simp only [Option.map_none, Option.bind_none]
    rw [takeWhile_lowercase (by decide), to_ascii_lowercase_idem]
  | some rest =>
    simp only [Option.map_some, Option.bind_some]
    rw [split_once_lowercase (by decide)]
    cases split_once ']' rest with
    | none =>
      simp only [Option.map_none]
      rw [takeWhile_lowercase (by decide), to_ascii_lowercase_idem]
    | some parts =>
      simp only [Option.map_some]
      rw [to_ascii_lowercase_idem]

/-- Hosts with the same letters in another case are the same host. -/
theorem normalize_of_same_letters {host host' : Text}
    (h : to_ascii_lowercase host = to_ascii_lowercase host') :
    normalize_host_for_match host = normalize_host_for_match host' := by
  rw [← normalize_lowercase host, h, normalize_lowercase]

/-- What stands before the first occurrence is cut there, whatever follows. -/
theorem split_once_append_left {c : Char} {s left right : Text}
    (h : split_once c s = some (left, right)) (more : Text) :
    split_once c (s ++ more) = some (left, right ++ more) := by
  induction s generalizing left with
  | nil => cases h
  | cons d rest ih =>
    unfold split_once at h
    rw [List.cons_append, split_once]
    split_ifs at h with hd
    · obtain ⟨rfl, rfl⟩ := Prod.mk.inj (Option.some.inj h)
      rw [if_pos hd]
    · obtain ⟨⟨left', right'⟩, hrest, hparts⟩ := Option.map_eq_some_iff.mp h
      obtain ⟨rfl, rfl⟩ := Prod.mk.inj hparts
      rw [if_neg hd, ih hrest]
      rfl

theorem takeWhile_append_cons (c : Char) (s rest : Text) :
    (s ++ c :: rest).takeWhile (· ≠ c) = s.takeWhile (· ≠ c) := by
  induction s with
  | nil => simp
  | cons d s ih =>
    rw [List.cons_append, List.takeWhile_cons, List.takeWhile_cons, ih]

/-- A port after the host changes nothing. -/
theorem normalize_append_port (host : Text) {port : Text} (hport : ∀ c ∈ port, c.isDigit) :
    normalize_host_for_match (host ++ ':' :: port) = normalize_host_for_match host := by
  have hbracket : ']' ∉ ':' :: port := by
    intro hmem
    rcases List.mem_cons.mp hmem with h | h
    · exact absurd h (by decide)
    · exact absurd (hport _ h) (by decide)
  have hplain := takeWhile_append_cons ':' host port
  unfold normalize_host_for_match
  cases host with
  | nil => rfl
  | cons first host =>
    by_cases hfirst : first = '['
    · subst hfirst
      rw [List.cons_append, show ('[' :: (host ++ ':' :: port)) = ['['] ++ (host ++ ':' :: port) from rfl,
        stripStart_append, show ('[' :: host) = ['['] ++ host from rfl, stripStart_append,
        Option.bind_some, Option.bind_some]
      cases hsplit : split_once ']' host with
      | some parts => rw [split_once_append_left hsplit]
      | none =>
        have hnone : split_once ']' (host ++ ':' :: port) = none := by
          rw [split_once_eq_none, List.mem_append, not_or]
          exact ⟨split_once_eq_none.mp hsplit, hbracket⟩
        rw [hnone]
        exact congrArg to_ascii_lowercase hplain
    · have hstrip : ∀ rest : Text, stripStart ['['] (first :: rest) = none := by
        intro rest
        simp [stripStart, Ne.symm hfirst]
      rw [List.cons_append, hstrip, hstrip]
      exact congrArg to_ascii_lowercase hplain

/-! ## The best server name over all blocks -/

/-- The block has a name that matches the host with the highest priority among the names of all
blocks; where no name matches, it is the default block. -/
def BestBlock (vhosts : List VirtualHost) (default : VirtualHost) (host : Text)
    (block : VirtualHost) : Prop :=
  (block ∈ default :: vhosts ∧ ∃ priority, Offers host block.server_names priority ∧
    ∀ other ∈ default :: vhosts, ∀ other_priority, Offers host other.server_names other_priority →
      other_priority ≤ priority) ∨
  (block = default ∧ NoOffer VirtualHost.server_names (default :: vhosts) host)

/-- Some virtual host matches, and a name of the default block ranks higher than every match of a
virtual host. -/
def DefaultOutranks (vhosts : List VirtualHost) (default : VirtualHost) (host : Text) : Prop :=
  ¬ NoOffer VirtualHost.server_names vhosts host ∧
  ∃ priority, Offers host default.server_names priority ∧
    ∀ vhost ∈ vhosts, ∀ other_priority, Offers host vhost.server_names other_priority →
      other_priority < priority

end rginx.config

namespace rginx.http

open rginx.config

variable {vhosts : List VirtualHost} {default : VirtualHost} {host : Text}

theorem select_vhost_host {host' : Text}
    (h : normalize_host_for_match host = normalize_host_for_match host') :
    select_vhost vhosts default host = select_vhost vhosts default host' := by
  unfold select_vhost VirtualHost.best_server_name_match
  simp only [best_matching_host h]

/-- A virtual host with the first of the best offers is best over all blocks unless the default
block outranks it. -/
theorem bestBlock_of_firstOffer {index : Nat} {vhost : VirtualHost}
    (h : FirstOffer VirtualHost.server_names vhosts host index vhost)
    (hdefault : ¬ DefaultOutranks vhosts default host) :
    BestBlock vhosts default host vhost := by
  obtain ⟨priority, hoffers, hothers⟩ := h.best
  have hvhosts : ∀ other ∈ vhosts, ∀ other_priority,
      Offers host other.server_names other_priority → other_priority ≤ priority := by
    intro other hother other_priority hother_offers
    obtain ⟨other_index, hdeclared⟩ := List.mem_iff_getElem?.mp hother
    exact (hothers other_index other hdeclared other_priority hother_offers).1
  refine .inl ⟨List.mem_cons_of_mem _ (List.mem_of_getElem? h.declared), priority, hoffers, ?_⟩
  refine List.forall_mem_cons.mpr ⟨?_, hvhosts⟩
  intro default_priority hdefault_offers
  by_contra hlt
  refine hdefault ⟨h.not_noOffer, default_priority, hdefault_offers, ?_⟩
  intro other hother other_priority hother_offers
  exact (hvhosts other hother other_priority hother_offers).trans_lt (not_le.mp hlt)

/-- Without a match of a virtual host the default block is the best. -/
theorem bestBlock_default (h : NoOffer VirtualHost.server_names vhosts host) :
    BestBlock vhosts default host default := by
  cases hrank : rank host default.server_names with
  | none =>
    refine .inr ⟨rfl, List.forall_mem_cons.mpr ⟨rank_none.mp hrank, h⟩⟩
  | some priority =>
    obtain ⟨hoffers, hgreatest⟩ := rank_some.mp hrank
    refine .inl ⟨List.mem_cons_self, priority, hoffers, List.forall_mem_cons.mpr ⟨hgreatest, ?_⟩⟩
    exact fun other hother other_priority hother_offers =>
      absurd hother_offers (h other hother other_priority)

/-- A virtual host that the default block outranks is not the best block. -/
theorem not_bestBlock_of_outranks {index : Nat} {vhost : VirtualHost}
    (h : FirstOffer VirtualHost.server_names vhosts host index vhost)
    (hdefault : DefaultOutranks vhosts default host) :
    ¬ BestBlock vhosts default host vhost := by
  obtain ⟨_, priority, hoffers, hlower⟩ := hdefault
  rintro (⟨_, best, hbest, hgreatest⟩ | ⟨_, hnone⟩)
  · have hle := hgreatest default List.mem_cons_self priority hoffers
    have hlt := hlower vhost (List.mem_of_getElem? h.declared) best hbest
    exact absurd hlt (not_lt.mpr hle)
  · exact hnone default List.mem_cons_self priority hoffers

/-- The selected block owns the best server name over all blocks, whatever the case of the letters
and the port of the host, if and only if the default block does not outrank every match of the
virtual hosts. -/
theorem select_vhost_best_iff (vhosts : List VirtualHost) (default : VirtualHost) (host : Text) :
    (BestBlock vhosts default host (select_vhost vhosts default host) ∧
      (∀ host', to_ascii_lowercase host' = to_ascii_lowercase host →
        select_vhost vhosts default host' = select_vhost vhosts default host) ∧
      ∀ port : Text, (∀ c ∈ port, c.isDigit) →
        select_vhost vhosts default (host ++ ':' :: port) = select_vhost vhosts default host) ↔
      ¬ DefaultOutranks vhosts default host := by
  constructor
  · rintro ⟨hbest, -⟩ hdefault
    rcases select_vhost_spec vhosts default host with ⟨index, hfirst⟩ | ⟨hnone, -⟩
    · exact not_bestBlock_of_outranks hfirst hdefault hbest
    · exact hdefault.1 hnone
  · intro hdefault
    refine ⟨?_, ?_, ?_⟩
    · rcases select_vhost_spec vhosts default host with ⟨index, hfirst⟩ | ⟨hnone, hselected⟩
      · exact bestBlock_of_firstOffer hfirst hdefault
      · rw [hselected]
        exact bestBlock_default hnone
    · exact fun host' hsame => select_vhost_host (normalize_of_same_letters hsame)
    · exact fun port hport => select_vhost_host (normalize_append_port host hport)

def named_default : VirtualHost := ⟨"server", ["a.example.com"], none⟩

def wildcard_block : VirtualHost := ⟨"servers[0]", ["*.example.com"], none⟩

/-- The default block names the host exactly, and a virtual host that matches it by a wildcard
serves it. -/
theorem exact_default_name_passed_over :
    validate_server_names id "server" named_default.server_names [] =
      .ok ["a.example.com".toList] ∧
    validate_server_names id "servers[0]" wildcard_block.server_names ["a.example.com".toList] =
      .ok ["*.example.com".toList, "a.example.com".toList] ∧
    ¬ BestBlock [wildcard_block] named_default "a.example.com".toList
      (select_vhost [wildcard_block] named_default "a.example.com".toList) := by
  have hexact : Offers "a.example.com".toList named_default.server_names (toLex (4, 0)) :=
    ⟨"a.example.com", List.mem_singleton_self _, .Exact, rfl, rfl⟩
  have hrank : rank "a.example.com".toList wildcard_block.server_names = some (toLex (2, 11)) := rfl
  have hgreatest := (rank_some.mp hrank).2
  have hfirst : FirstOffer VirtualHost.server_names [wildcard_block] "a.example.com".toList 0
      wildcard_block := by
    refine firstOffer_iff.mpr ⟨rfl, toLex (2, 11), hrank, ?_⟩
    intro other_index other hdeclared other_priority hother
    obtain rfl := List.mem_singleton.mp (List.mem_of_getElem? hdeclared)
    refine ⟨hgreatest other_priority (rank_some.mp hother).1, ?_⟩
    exact fun hearlier => absurd hearlier (Nat.not_lt_zero _)
  refine ⟨rfl, rfl, not_bestBlock_of_outranks hfirst ⟨hfirst.not_noOffer, _, hexact, ?_⟩⟩
  intro vhost hvhost other_priority hother
  obtain rfl := List.mem_singleton.mp hvhost
  exact (hgreatest other_priority hother).trans_lt (by decide)

end rginx.http
