-- What the selection of an upstream gives, from `health/registry/selection.rs`: the first ones of a
-- ranking of all endpoints that may be selected.
import Mathlib.Algebra.Order.Field.Rat
import Mathlib.Data.Rat.Cast.Order
import Rginx.PeerHealth

open rust_net

namespace rginx.proxy

/-! ## Endpoints by depth -/

section Depths

variable {α : Type}

/-- The endpoints that the batches have at a depth. -/
def row (batches : List (List α)) (depth : Nat) : List α := batches.filterMap (·[depth]?)

/-- The endpoints of the batches from a depth on, depth by depth. -/
def rows (batches : List (List α)) (depth : Nat) : Nat → List α
  | 0 => []
  | count + 1 => row batches depth ++ rows batches (depth + 1) count

theorem row_eq_nil {batches : List (List α)} {depth : Nat} :
    row batches depth = [] ↔ ∀ batch ∈ batches, batch.length ≤ depth := by
  simp [row, List.filterMap_eq_nil_iff]

/-- Where the batches are all over, so are the deeper rows. -/
theorem rows_eq_nil {batches : List (List α)} {depth : Nat} (h : row batches depth = [])
    (count : Nat) : rows batches depth count = [] := by
  induction count generalizing depth with
  | zero => rfl
  | succ count ih =>
    have hdeeper : row batches (depth + 1) = [] :=
      row_eq_nil.mpr fun batch hbatch => Nat.le_succ_of_le (row_eq_nil.mp h batch hbatch)
    rw [rows, h, ih hdeeper, List.nil_append]

theorem take_take_append (limit : Nat) (first rest : List α) :
    (first.take limit ++ rest).take limit = (first ++ rest).take limit := by
  rcases Nat.le_total first.length limit with hshort | hlong
  · rw [List.take_of_length_le hshort]
  · rw [List.take_left' (by simp [hlong]), List.take_append_of_le_length hlong]

/-- One turn takes the row of its depth, as far as the limit. -/
theorem select_at_depth_eq (limit depth : Nat) (batches : List (List α)) {selected : List α}
    (advanced : Bool) (h : selected.length < limit) :
    select_at_depth limit depth batches selected advanced =
      ((selected ++ row batches depth).take limit, advanced || decide (row batches depth ≠ [])) := by
  induction batches generalizing selected advanced with
  | nil => simp [select_at_depth, row, List.take_of_length_le h.le]
  | cons batch batches ih =>
    unfold select_at_depth
    split
    · rename_i endpoint hendpoint
      have hrow : row (batch :: batches) depth = endpoint :: row batches depth := by
        simp [row, hendpoint]
      dsimp only
      rw [hrow, List.append_cons selected endpoint (row batches depth)]
      split
      · rename_i hfull
        rw [List.take_left' hfull]
        simp
      · rename_i hmore
        rw [List.length_append, List.length_singleton] at hmore
        rw [ih true (by simp; omega)]
        simp
    · rename_i hnone
      have hrow : row (batch :: batches) depth = row batches depth := by
        simp [row, hnone]
      rw [hrow]
      exact ih advanced h

/-- The loop takes the rows, as far as the limit. -/
theorem select_depths_take {batches : List (List α)} {limit depth count : Nat} {selected : List α}
    (hlimit : selected.length ≤ limit) (hcount : ∀ batch ∈ batches, batch.length ≤ depth + count) :
    select_depths batches limit depth selected =
      (selected ++ rows batches depth count).take limit := by
  induction count generalizing depth selected with
  | zero =>
    have hrow : row batches depth = [] := row_eq_nil.mpr hcount
    rw [select_depths_eq, rows_eq_nil hrow, List.append_nil, List.take_of_length_le hlimit]
    split
    · rename_i hmore
      rw [select_at_depth_eq limit depth batches false hmore, hrow]
      simp [List.take_of_length_le hlimit]
    · rfl
  | succ count ih =>
    rw [select_depths_eq]
    split
    · rename_i hmore
      rw [select_at_depth_eq limit depth batches false hmore]
      dsimp only
      by_cases hrow : row batches depth = []
      · rw [rows_eq_nil hrow, hrow]
        simp
      · rw [if_pos (by simp [hrow])]
        rw [ih (List.length_take_le _ _) fun batch hbatch => by
          have hlength := hcount batch hbatch
          omega]
        rw [rows, ← List.append_assoc, take_take_append]
    · rename_i hfull
      rw [List.take_left' (by omega)]

theorem rows_tail (batches : List (List α)) (depth count : Nat) :
    rows batches (depth + 1) count = rows (batches.map List.tail) depth count := by
  induction count generalizing depth with
  | zero => rfl
  | succ count ih =>
    have hrow : row batches (depth + 1) = row (batches.map List.tail) depth := by
      rw [row, row, List.filterMap_map]
      congr 1
      funext batch
      simp
    rw [rows, rows, hrow, ih]

theorem heads_perm (batches : List (List α)) :
    (row batches 0 ++ (batches.map List.tail).flatten).Perm batches.flatten := by
  induction batches with
  | nil => exact .nil
  | cons batch batches ih =>
    cases batch with
    | nil => simpa [row] using ih
    | cons endpoint batch =>
      have hrow : row ((endpoint :: batch) :: batches) 0 = endpoint :: row batches 0 := by
        simp [row]
      rw [hrow, List.map_cons, List.tail_cons, List.flatten_cons, List.flatten_cons,
        List.cons_append, List.cons_append]
      refine .cons endpoint ?_
      rw [← List.append_assoc]
      refine (List.perm_append_comm.append_right _).trans ?_
      rw [List.append_assoc]
      exact ih.append_left batch

/-- The rows are the endpoints of the batches, each once. -/
theorem rows_perm {batches : List (List α)} {count : Nat}
    (hcount : ∀ batch ∈ batches, batch.length ≤ count) :
    (rows batches 0 count).Perm batches.flatten := by
  induction count generalizing batches with
  | zero =>
    have hnone : batches.flatten = [] := by
      rw [List.flatten_eq_nil_iff]
      exact fun batch hbatch => List.length_eq_zero_iff.mp (Nat.le_zero.mp (hcount batch hbatch))
    rw [hnone]
    exact .nil
  | succ count ih =>
    have htail : (rows (batches.map List.tail) 0 count).Perm (batches.map List.tail).flatten := by
      apply ih
      intro tail htail
      obtain ⟨batch, hbatch, rfl⟩ := List.mem_map.mp htail
      have hlength := hcount batch hbatch
      rw [List.length_tail]
      omega
    rw [rows, rows_tail]
    exact (htail.append_left _).trans (heads_perm batches)

end Depths

/-! ## The peers of a pool -/

section Pool

variable {upstream : Upstream}

theorem weight_pos (hweights : ∀ peer ∈ upstream.peers, 0 < peer.weight) {backup : Bool}
    {index : Nat} (h : index ∈ upstream.peer_indices_for_pool backup) :
    0 < upstream.weight index := by
  obtain ⟨peer, hpeer, -⟩ := mem_peer_indices.mp h
  rw [Upstream.weight, hpeer]
  exact hweights peer (List.mem_of_getElem? hpeer)

/-- The weighted order is one of all the peers that it is made of. -/
theorem weighted_peers_perm {peer_indices : List Nat}
    (hweights : ∀ index ∈ peer_indices, 0 < upstream.weight index) {start limit : Nat}
    (hstart : start < upstream.total_weight_for_indices peer_indices)
    (hlimit : peer_indices.length ≤ limit) :
    (upstream.weighted_peers_from_indices peer_indices start limit).Perm peer_indices := by
  obtain ⟨positions, horder, hnodup, hmem, -⟩ := weighted_peers_spec hstart hlimit
  have hrange : positions.Perm (List.range peer_indices.length) := by
    apply (List.perm_ext_iff_of_nodup hnodup List.nodup_range).mpr
    intro position
    rw [hmem, List.mem_range, List.getD_eq_getElem?_getD, List.getElem?_map]
    constructor
    · intro hpos
      by_contra hlong
      rw [List.getElem?_eq_none_iff.mpr (not_lt.mp hlong)] at hpos
      cases hpos
    · intro hposition
      rw [List.getElem?_eq_getElem hposition]
      exact hweights _ (List.getElem_mem hposition)
  have hall : (List.range peer_indices.length).map (fun position => peer_indices.getD position 0) =
      peer_indices := by
    apply List.ext_getElem (by simp)
    intro position hposition _
    simp [List.getD_eq_getElem?_getD, List.getElem?_eq_getElem (by simpa using hposition)]
  rw [horder]
  conv_rhs => rw [← hall]
  exact hrange.map _

/-- Round robin and the hash of a client turn a pool and leave no peer of it out. -/
theorem pool_perm (hweights : ∀ peer ∈ upstream.peers, 0 < peer.weight) (cursor : Nat)
    (client_ip : IpAddr) (backup : Bool) :
    (upstream.peers_for_client_ip_in_pool cursor client_ip upstream.peers.length backup).1.Perm
      (upstream.peer_indices_for_pool backup) := by
  by_cases hnone : upstream.peer_indices_for_pool backup = []
  · unfold Upstream.peers_for_client_ip_in_pool
    dsimp only
    rw [if_pos (.inl hnone), hnone]
  · obtain ⟨index, hindex⟩ := List.exists_mem_of_ne_nil _ hnone
    have hlength : (upstream.peer_indices_for_pool backup).length ≤ upstream.peers.length :=
      length_peer_indices_le backup
    have hpos : 0 < (upstream.peer_indices_for_pool backup).length := List.length_pos_iff.mpr hnone
    have hopen : ¬ (upstream.peer_indices_for_pool backup = [] ∨ upstream.peers.length = 0) := by
      rintro (h | h)
      · exact hnone h
      · omega
    have htotal : 0 < upstream.total_weight_for_indices (upstream.peer_indices_for_pool backup) := by
      refine Nat.lt_of_lt_of_le (weight_pos hweights hindex) ?_
      exact List.le_sum_of_mem (List.mem_map_of_mem hindex)
    have hturned : ∀ start, (upstream.weighted_peers_from_indices
        (upstream.peer_indices_for_pool backup)
        (start % upstream.total_weight_for_indices (upstream.peer_indices_for_pool backup))
        upstream.peers.length).Perm (upstream.peer_indices_for_pool backup) := fun start =>
      weighted_peers_perm (fun _ h => weight_pos hweights h) (Nat.mod_lt start htotal) hlength
    have hnext : (upstream.next_peers_in_pool cursor upstream.peers.length backup).1.Perm
        (upstream.peer_indices_for_pool backup) := by
      unfold Upstream.next_peers_in_pool
      dsimp only
      rw [if_neg hopen, if_neg htotal.ne']
      exact hturned cursor
    unfold Upstream.peers_for_client_ip_in_pool
    dsimp only
    rw [if_neg hopen]
    cases upstream.load_balance with
    | RoundRobin => exact hnext
    | LeastConn => exact hnext
    | IpHash =>
      unfold Upstream.ip_hash_peers_in_pool
      dsimp only
      rw [if_neg hopen, if_neg htotal.ne']
      exact hturned (stable_ip_hash client_ip)

end Pool

/-! ## The load of an endpoint -/

/-- The requests of an endpoint with one more, in 64 bits, for each unit of its weight. -/
def Candidate.load (candidate : Candidate) : ℚ :=
  (min (candidate.active_requests + 1) U64_MAX : ℕ) / (candidate.endpoint.weight : ℚ)

/-- The order of the least connections. -/
def LeastLoaded (left right : Candidate) : Prop :=
  left.load < right.load ∨ left.load = right.load ∧
    (right.endpoint.weight < left.endpoint.weight ∨
      left.endpoint.weight = right.endpoint.weight ∧ left.order ≤ right.order)

section Load

/-- The load as the comparison has it, which counts a weight of zero as one. -/
def projected (candidate : Candidate) : ℚ :=
  (min (candidate.active_requests + 1) U64_MAX : ℕ) / (max candidate.endpoint.weight 1 : ℕ)

theorem projected_eq {candidate : Candidate} (h : 0 < candidate.endpoint.weight) :
    projected candidate = candidate.load := by
  rw [projected, Candidate.load, Nat.max_eq_left h]

def compare_load (left right : Candidate) : Ordering :=
  projected_least_conn_load left.active_requests left.endpoint.weight right.active_requests
    right.endpoint.weight

/-- Cross-multiplied, the loads are compared as fractions. -/
theorem compare_load_spec (left right : Candidate) :
    (compare_load left right = .lt ↔ projected left < projected right) ∧
      (compare_load left right = .eq ↔ projected left = projected right) := by
  have hleft : (0 : ℚ) < (max left.endpoint.weight 1 : ℕ) := by
    exact_mod_cast Nat.lt_of_lt_of_le Nat.zero_lt_one (Nat.le_max_right _ _)
  have hright : (0 : ℚ) < (max right.endpoint.weight 1 : ℕ) := by
    exact_mod_cast Nat.lt_of_lt_of_le Nat.zero_lt_one (Nat.le_max_right _ _)
  unfold compare_load projected_least_conn_load projected
  rw [Nat.compare_eq_lt, Nat.compare_eq_eq, div_lt_div_iff₀ hleft hright,
    div_eq_div_iff hleft.ne' hright.ne']
  exact ⟨by norm_cast, by norm_cast⟩

instance : Std.TransCmp compare_load where
  eq_swap {left right} := by
    unfold compare_load projected_least_conn_load
    exact (Nat.compare_swap _ _).symm
  isLE_trans {left middle right} h h' := by
    have hle : ∀ left right, (compare_load left right).isLE ↔ projected left ≤ projected right := by
      intro left right
      obtain ⟨hlt, heq⟩ := compare_load_spec left right
      rw [le_iff_lt_or_eq, ← hlt, ← heq]
      cases compare_load left right <;> simp
    rw [hle] at h h' ⊢
    exact h.trans h'

/-- The comparison, criterion by criterion. -/
theorem least_conn_eq : Candidate.least_conn = compareLex compare_load
    (compareLex (fun left right => compareOn (fun c : Candidate => c.endpoint.weight) right left)
    (compareLex (compareOn fun c : Candidate => c.order)
      (compareOn fun c : Candidate => c.endpoint.dial_authority))) := rfl

instance : Std.TransCmp Candidate.least_conn := by
  rw [least_conn_eq]
  infer_instance

theorem least_loaded_of_isLE {left right : Candidate} (hleft : 0 < left.endpoint.weight)
    (hright : 0 < right.endpoint.weight) (h : (left.least_conn right).isLE) :
    LeastLoaded left right := by
  obtain ⟨hlt, heq⟩ := compare_load_spec left right
  rw [projected_eq hleft, projected_eq hright] at hlt heq
  change ((compare_load left right).then _).isLE at h
  rw [Ordering.isLE_then_iff_or, Ordering.isLE_then_iff_or, hlt, heq, Nat.compare_eq_lt,
    Nat.compare_eq_eq] at h
  rcases h with hload | ⟨hload, hweight | ⟨hweight, horder⟩⟩
  · exact .inl hload
  · exact .inr ⟨hload, .inl hweight⟩
  · exact .inr ⟨hload, .inr ⟨hweight.symm,
      Nat.isLE_compare.mp (Ordering.isLE_left_of_isLE_then horder)⟩⟩

end Load

/-! ## The ranking -/

section Ranking

variable (upstream : Upstream) (resolved : Nat → PeerEndpoints)

def Upstream.pool_candidates (backup : Bool) : List Candidate :=
  (upstream.peer_indices_for_pool backup).flatMap fun index => (resolved index).candidates index

/-- The endpoints of a pool in the order that they are selected in. -/
def Upstream.pool_ranking (cursor : Nat) (client_ip : IpAddr) (backup : Bool) : List Candidate :=
  let ordered :=
    (upstream.peers_for_client_ip_in_pool cursor client_ip upstream.peers.length backup).1
  let batches := (ordered.map fun index => (resolved index).candidates index).filter (· ≠ [])
  rows batches 0 (batches.map List.length).sum

def Upstream.least_conn_ranking (backup : Bool) : List Candidate :=
  (upstream.pool_candidates resolved backup).mergeSort fun left right =>
    left.least_conn right != .gt

/-- The endpoints of the primary pool, and then those of the backup pool. -/
def Upstream.ranking (cursor : Nat) (client_ip : IpAddr) : List Candidate :=
  if upstream.load_balance = .LeastConn then
    upstream.least_conn_ranking resolved false ++ upstream.least_conn_ranking resolved true
  else
    let after :=
      (upstream.peers_for_client_ip_in_pool cursor client_ip upstream.peers.length false).2
    upstream.pool_ranking resolved cursor client_ip false ++
      upstream.pool_ranking resolved after client_ip true

variable {upstream resolved}

theorem select_in_pool_take (cursor : Nat) (client_ip : IpAddr) (limit : Nat) (backup : Bool) :
    (upstream.select_peers_in_pool resolved cursor client_ip limit backup).1.peers =
      (upstream.pool_ranking resolved cursor client_ip backup).take limit := by
  unfold Upstream.select_peers_in_pool select_available_peers Upstream.pool_ranking
  dsimp only
  split
  · rename_i hzero
    rw [hzero, List.take_zero]
  · apply select_depths_take (Nat.zero_le limit)
    intro batch hbatch
    rw [Nat.zero_add]
    exact List.le_sum_of_mem (List.mem_map_of_mem hbatch)

/-- What is missing after the primary pool comes from the backup pool. -/
theorem merged_take {limit : Nat} (hlimit : limit ≠ 0) (primaries backups : List Candidate) :
    (if primaries.take limit = [] then primaries.take limit ++ backups.take limit
      else if (primaries.take limit).length = limit then primaries.take limit
      else primaries.take limit ++ backups.take (limit - (primaries.take limit).length)) =
      (primaries ++ backups).take limit := by
  rw [List.take_append]
  split
  · rename_i hnone
    rw [List.take_eq_nil_iff] at hnone
    rcases hnone with hnone | rfl
    · exact absurd hnone hlimit
    · rfl
  · rw [List.length_take]
    split
    · rename_i hfull
      have hmore : limit - primaries.length = 0 := by omega
      rw [hmore, List.take_zero, List.append_nil]
    · rename_i hmore
      have hshort : min limit primaries.length = primaries.length := by omega
      rw [hshort]

theorem no_primary (h : upstream.has_primary_peers = false) :
    upstream.peer_indices_for_pool false = [] := by
  rw [List.eq_nil_iff_forall_not_mem]
  intro index hindex
  obtain ⟨peer, hpeer, hprimary⟩ := mem_peer_indices.mp hindex
  unfold Upstream.has_primary_peers at h
  rw [List.any_eq_false] at h
  exact h peer (List.mem_of_getElem? hpeer) (by simp [hprimary])

/-- The selection takes the first ones of the ranking. -/
theorem select_peers_take (cursor : Nat) (client_ip : IpAddr) (limit : Nat) :
    (upstream.select_peers resolved cursor client_ip limit).1.peers =
      (upstream.ranking resolved cursor client_ip).take limit := by
  unfold Upstream.select_peers Upstream.ranking
  split
  · unfold Upstream.select_peers_by_least_conn
    dsimp only
    split
    · rename_i hzero
      rw [hzero, List.take_zero]
    · rename_i hlimit
      have hmerged := merged_take hlimit (upstream.least_conn_ranking resolved false)
        (upstream.least_conn_ranking resolved true)
      split
      · rename_i hnone
        rw [Bool.not_eq_true'] at hnone
        have hempty : upstream.least_conn_ranking resolved false = [] := by
          simp [Upstream.least_conn_ranking, Upstream.pool_candidates, no_primary hnone]
        rw [hempty, List.nil_append]
        rfl
      · rw [apply_ite SelectedPeers.peers, apply_ite SelectedPeers.peers]
        exact hmerged
  · split
    · rename_i hnone
      rw [Bool.not_eq_true'] at hnone
      have hpool : upstream.peers_for_client_ip_in_pool cursor client_ip upstream.peers.length
          false = ([], cursor) := by
        unfold Upstream.peers_for_client_ip_in_pool
        dsimp only
        rw [if_pos (.inl (no_primary hnone))]
      have hempty : upstream.pool_ranking resolved cursor client_ip false = [] := by
        unfold Upstream.pool_ranking
        rw [hpool]
        rfl
      rw [select_in_pool_take, hempty, hpool, List.nil_append]
    · dsimp only
      split
      · rename_i hzero
        rw [hzero, List.take_zero]
      · rename_i hlimit
        have hafter : (upstream.select_peers_in_pool resolved cursor client_ip limit false).2 =
            (upstream.peers_for_client_ip_in_pool cursor client_ip upstream.peers.length
              false).2 := rfl
        rw [← merged_take hlimit, apply_ite Prod.fst, apply_ite Prod.fst,
          apply_ite SelectedPeers.peers, apply_ite SelectedPeers.peers]
        simp only [merge_selected_peers, select_in_pool_take, hafter]

end Ranking

/-! ## What is selected -/

/-- What the resolver answers for the peers of an upstream: distinct endpoints with the weight of
their peer. -/
structure ResolverAnswers (upstream : Upstream) where
  endpoints : Nat → List ResolvedUpstreamPeer
  distinct (index : Nat) : (endpoints index).Nodup
  weights (index : Nat) : ∀ endpoint ∈ endpoints index, endpoint.weight = upstream.weight index

section Answers

variable {upstream : Upstream} (answers : ResolverAnswers upstream)
  (registry : Nat → PeerHealthRegistry) (now : Nat)

/-- The registry at a peer, as soon as it has seen the endpoints of the peer. -/
def ResolverAnswers.seen (index : Nat) : PeerHealthRegistry :=
  (registry index).ensure_endpoints (answers.endpoints index)

def ResolverAnswers.resolved (index : Nat) : PeerEndpoints :=
  (registry index).peer_endpoints (answers.endpoints index) now

/-- An endpoint of a peer that may be selected. -/
structure Selectable (candidate : Candidate) : Prop where
  peer : candidate.order < upstream.peers.length
  endpoint : candidate.endpoint ∈ answers.endpoints candidate.order
  active_requests : candidate.active_requests =
    (answers.seen registry candidate.order).active_requests candidate.endpoint.logical_peer_url
  selectable : (answers.seen registry candidate.order).endpoint_is_selectable candidate.endpoint
    candidate.active_requests now = true

def Upstream.is_backup (upstream : Upstream) (candidate : Candidate) : Prop :=
  candidate.order ∈ upstream.peer_indices_for_pool true

variable {answers registry now}

theorem mem_candidates {index : Nat} {candidate : Candidate} :
    candidate ∈ (answers.resolved registry now index).candidates index ↔
      candidate.order = index ∧ candidate.endpoint ∈ answers.endpoints index ∧
        candidate.active_requests =
          (answers.seen registry index).active_requests candidate.endpoint.logical_peer_url ∧
        (answers.seen registry index).endpoint_is_selectable candidate.endpoint
          candidate.active_requests now = true := by
  obtain ⟨active_requests, order, endpoint⟩ := candidate
  simp only [PeerEndpoints.candidates, ResolverAnswers.resolved,
    PeerHealthRegistry.peer_endpoints, ResolverAnswers.seen, List.mem_map, List.mem_filter,
    List.mem_mergeSort, Prod.exists, Candidate.mk.injEq]
  constructor
  · rintro ⟨_, _, ⟨_, ⟨hmem, hselectable⟩, hpair⟩, rfl, rfl, rfl⟩
    obtain ⟨rfl, rfl⟩ := Prod.mk.inj hpair
    exact ⟨rfl, hmem, rfl, hselectable⟩
  · rintro ⟨rfl, hmem, rfl, hselectable⟩
    exact ⟨_, _, ⟨endpoint, ⟨hmem, hselectable⟩, rfl⟩, rfl, rfl, rfl⟩

theorem nodup_candidates (index : Nat) :
    ((answers.resolved registry now index).candidates index).Nodup := by
  have hnodup : ((answers.resolved registry now index).available.map Prod.snd).Nodup := by
    unfold ResolverAnswers.resolved PeerHealthRegistry.peer_endpoints
    dsimp only
    rw [List.map_map]
    have hid : (Prod.snd ∘ fun endpoint : ResolvedUpstreamPeer =>
        (((registry index).ensure_endpoints (answers.endpoints index)).active_requests
          endpoint.logical_peer_url, endpoint)) = id := rfl
    rw [hid, List.map_id]
    exact ((List.mergeSort_perm _ _).nodup_iff.mpr (answers.distinct index)).filter _
  unfold PeerEndpoints.candidates
  refine List.Nodup.map ?_ hnodup.of_map
  intro left right hsame
  simp only [Candidate.mk.injEq] at hsame
  exact Prod.ext hsame.1 hsame.2.2

theorem mem_pool_candidates {backup : Bool} {candidate : Candidate} :
    candidate ∈ upstream.pool_candidates (answers.resolved registry now) backup ↔
      Selectable answers registry now candidate ∧
        candidate.order ∈ upstream.peer_indices_for_pool backup := by
  rw [Upstream.pool_candidates, List.mem_flatMap]
  constructor
  · rintro ⟨index, hindex, hmem⟩
    obtain ⟨rfl, hendpoint, hactive, hselectable⟩ := mem_candidates.mp hmem
    obtain ⟨peer, hpeer, -⟩ := mem_peer_indices.mp hindex
    exact ⟨⟨(List.getElem?_eq_some_iff.mp hpeer).1, hendpoint, hactive, hselectable⟩, hindex⟩
  · rintro ⟨h, hindex⟩
    exact ⟨_, hindex, mem_candidates.mpr ⟨rfl, h.endpoint, h.active_requests, h.selectable⟩⟩

theorem nodup_pool_candidates (backup : Bool) :
    (upstream.pool_candidates (answers.resolved registry now) backup).Nodup := by
  rw [Upstream.pool_candidates, List.nodup_flatMap]
  refine ⟨fun index _ => nodup_candidates index, ?_⟩
  refine (nodup_peer_indices backup).imp fun hne => ?_
  intro candidate hleft hright
  exact hne ((mem_candidates.mp hleft).1.symm.trans (mem_candidates.mp hright).1)

theorem pool_ranking_perm (hweights : ∀ peer ∈ upstream.peers, 0 < peer.weight)
    (resolved : Nat → PeerEndpoints) (cursor : Nat) (client_ip : IpAddr) (backup : Bool) :
    (upstream.pool_ranking resolved cursor client_ip backup).Perm
      (upstream.pool_candidates resolved backup) := by
  unfold Upstream.pool_ranking
  dsimp only
  refine (rows_perm fun batch hbatch =>
    List.le_sum_of_mem (List.mem_map_of_mem hbatch)).trans ?_
  rw [List.flatten_filter_ne_nil, ← List.flatMap_def]
  exact (pool_perm hweights cursor client_ip backup).flatMap_right _

/-- A pool in the order of the selection. -/
structure PoolRanking (answers : ResolverAnswers upstream) (registry : Nat → PeerHealthRegistry)
    (now : Nat) (backup : Bool) (ranking : List Candidate) : Prop where
  perm : ranking.Perm (upstream.pool_candidates (answers.resolved registry now) backup)
  least_conn : upstream.load_balance = .LeastConn → ranking.Pairwise LeastLoaded

theorem least_conn_ranking_spec (hweights : ∀ peer ∈ upstream.peers, 0 < peer.weight)
    (backup : Bool) :
    PoolRanking answers registry now backup
      (upstream.least_conn_ranking (answers.resolved registry now) backup) where
  perm := List.mergeSort_perm _ _
  least_conn _ := by
    have hle : ∀ left right : Candidate, (left.least_conn right != .gt) = true ↔
        (left.least_conn right).isLE := fun left right => by
      rw [Ordering.isLE_eq_not_beq_gt]
      rfl
    have hsorted : (upstream.least_conn_ranking (answers.resolved registry now) backup).Pairwise
        fun left right => (left.least_conn right != .gt) = true := by
      apply List.pairwise_mergeSort
      · intro left middle right h h'
        rw [hle] at h h' ⊢
        exact Std.TransCmp.isLE_trans h h'
      · intro left right
        have hswap : left.least_conn right = (right.least_conn left).swap := Std.OrientedCmp.eq_swap
        rw [Bool.or_eq_true, hle, hle, hswap]
        cases right.least_conn left <;> decide
    have hpositive : ∀ candidate ∈ upstream.least_conn_ranking (answers.resolved registry now) backup,
        0 < candidate.endpoint.weight := by
      intro candidate hmem
      obtain ⟨h, hindex⟩ := mem_pool_candidates.mp ((List.mergeSort_perm _ _).mem_iff.mp hmem)
      rw [answers.weights _ _ h.endpoint]
      exact weight_pos hweights hindex
    refine hsorted.imp_of_mem fun hleft hright h => ?_
    exact least_loaded_of_isLE (hpositive _ hleft) (hpositive _ hright) ((hle _ _).mp h)

/-- All endpoints that may be selected, in the order that they are selected in. -/
structure Ranked (answers : ResolverAnswers upstream) (registry : Nat → PeerHealthRegistry)
    (now : Nat) (ranking : List Candidate) : Prop where
  mem (candidate : Candidate) : candidate ∈ ranking ↔ Selectable answers registry now candidate
  nodup : ranking.Nodup
  primary_first : ranking.Pairwise fun left right =>
    upstream.is_backup left → upstream.is_backup right
  least_conn : upstream.load_balance = .LeastConn → ranking.Pairwise fun left right =>
    (upstream.is_backup left ↔ upstream.is_backup right) → LeastLoaded left right

theorem is_backup_iff {candidate : Candidate} (h : candidate.order < upstream.peers.length) :
    ¬ upstream.is_backup candidate ↔ candidate.order ∈ upstream.peer_indices_for_pool false := by
  unfold Upstream.is_backup
  rw [mem_peer_indices, mem_peer_indices]
  simp [List.getElem?_eq_getElem h]

theorem ranked_of_pools {primaries backups : List Candidate}
    (hprimaries : PoolRanking answers registry now false primaries)
    (hbackups : PoolRanking answers registry now true backups) :
    Ranked answers registry now (primaries ++ backups) := by
  have hprimary : ∀ candidate ∈ primaries, Selectable answers registry now candidate ∧
      ¬ upstream.is_backup candidate := by
    intro candidate hmem
    obtain ⟨h, hindex⟩ := mem_pool_candidates.mp (hprimaries.perm.mem_iff.mp hmem)
    exact ⟨h, (is_backup_iff h.peer).mpr hindex⟩
  have hbackup : ∀ candidate ∈ backups, Selectable answers registry now candidate ∧
      upstream.is_backup candidate :=
    fun candidate hmem => mem_pool_candidates.mp (hbackups.perm.mem_iff.mp hmem)
  refine ⟨fun candidate => ?_, ?_, ?_, fun hleast => ?_⟩
  · rw [List.mem_append]
    refine ⟨fun h => h.elim (hprimary candidate · |>.1) (hbackup candidate · |>.1), fun h => ?_⟩
    by_cases hpool : upstream.is_backup candidate
    · exact .inr (hbackups.perm.mem_iff.mpr (mem_pool_candidates.mpr ⟨h, hpool⟩))
    · refine .inl (hprimaries.perm.mem_iff.mpr (mem_pool_candidates.mpr ⟨h, ?_⟩))
      exact (is_backup_iff h.peer).mp hpool
  · rw [List.nodup_append]
    refine ⟨hprimaries.perm.nodup_iff.mpr (nodup_pool_candidates false),
      hbackups.perm.nodup_iff.mpr (nodup_pool_candidates true), ?_⟩
    rintro candidate hleft other hright rfl
    exact (hprimary candidate hleft).2 (hbackup candidate hright).2
  · rw [List.pairwise_append]
    refine ⟨?_, ?_, fun _ _ right hright _ => (hbackup right hright).2⟩
    · exact List.pairwise_of_forall_mem_list fun left hleft _ _ h => absurd h (hprimary left hleft).2
    · exact List.pairwise_of_forall_mem_list fun _ _ right hright _ => (hbackup right hright).2
  · rw [List.pairwise_append]
    refine ⟨?_, ?_, fun left hleft right hright hsame => ?_⟩
    · refine (hprimaries.least_conn hleast).imp ?_
      intro left right h _
      exact h
    · refine (hbackups.least_conn hleast).imp ?_
      intro left right h _
      exact h
    · exact absurd (hsame.mpr (hbackup right hright).2) (hprimary left hleft).2

theorem ranking_ranked (hweights : ∀ peer ∈ upstream.peers, 0 < peer.weight) (cursor : Nat)
    (client_ip : IpAddr) :
    Ranked answers registry now
      (upstream.ranking (answers.resolved registry now) cursor client_ip) := by
  unfold Upstream.ranking
  split
  · exact ranked_of_pools (least_conn_ranking_spec hweights false)
      (least_conn_ranking_spec hweights true)
  · rename_i hother
    exact ranked_of_pools ⟨pool_ranking_perm hweights _ _ _ _, fun h => absurd h hother⟩
      ⟨pool_ranking_perm hweights _ _ _ _, fun h => absurd h hother⟩

/-- A failover list of an upstream: the first endpoints that may be selected, primary ones first. -/
structure Failover (answers : ResolverAnswers upstream) (registry : Nat → PeerHealthRegistry)
    (now limit : Nat) (selected : List Candidate) : Prop where
  length_le : selected.length ≤ limit
  nodup : (selected.map fun candidate => (candidate.order, candidate.endpoint)).Nodup
  nodup_endpoints : (∀ left right, left ≠ right →
      List.Disjoint (answers.endpoints left) (answers.endpoints right)) →
    (selected.map Candidate.endpoint).Nodup
  selectable : ∀ candidate ∈ selected, Selectable answers registry now candidate
  primary_first : selected.Pairwise fun left right =>
    upstream.is_backup left → upstream.is_backup right
  complete : selected.length < limit →
    ∀ candidate, Selectable answers registry now candidate → candidate ∈ selected
  backup_last : (∃ candidate ∈ selected, upstream.is_backup candidate) →
    ∀ primaries : List Candidate, primaries.Nodup → (∀ candidate ∈ primaries,
      Selectable answers registry now candidate ∧ ¬ upstream.is_backup candidate) →
    primaries.length < limit
  least_conn : upstream.load_balance = .LeastConn → selected.Pairwise fun left right =>
    (upstream.is_backup left ↔ upstream.is_backup right) → LeastLoaded left right
  left_out : upstream.load_balance = .LeastConn → ∀ candidate ∈ selected, ∀ other,
    Selectable answers registry now other → other ∉ selected →
    (upstream.is_backup candidate ↔ upstream.is_backup other) → LeastLoaded candidate other

/-- An endpoint of a peer is selectable with one number of requests. -/
theorem selectable_unique {left right : Candidate} (hleft : Selectable answers registry now left)
    (hright : Selectable answers registry now right) (horder : left.order = right.order)
    (hendpoint : left.endpoint = right.endpoint) : left = right := by
  obtain ⟨active_requests, order, endpoint⟩ := left
  obtain ⟨other_requests, other_order, other⟩ := right
  dsimp only at horder hendpoint
  subst horder hendpoint
  rw [Candidate.mk.injEq]
  exact ⟨hleft.active_requests.trans hright.active_requests.symm, rfl, rfl⟩

/-- The first ones of a ranking are a failover list. -/
theorem failover_of_ranked {ranking : List Candidate} (h : Ranked answers registry now ranking)
    (limit : Nat) : Failover answers registry now limit (ranking.take limit) := by
  have hselectable : ∀ candidate ∈ ranking.take limit, Selectable answers registry now candidate :=
    fun candidate hmem => (h.mem candidate).mp (List.mem_of_mem_take hmem)
  have hnodup : (ranking.take limit).Nodup := h.nodup.sublist (List.take_sublist _ _)
  have hsplit : ranking.take limit ++ ranking.drop limit = ranking := List.take_append_drop _ _
  have hdrop : ∀ other, Selectable answers registry now other → other ∉ ranking.take limit →
      other ∈ ranking.drop limit := by
    intro other hother hnot
    have hmem := (h.mem other).mpr hother
    rw [← hsplit, List.mem_append] at hmem
    exact hmem.resolve_left hnot
  refine ⟨List.length_take_le _ _, ?_, fun hdisjoint => ?_, hselectable,
    h.primary_first.sublist (List.take_sublist _ _), fun hmore candidate hcandidate => ?_,
    fun hbackup primaries hprimaries hall => ?_,
    fun hleast => (h.least_conn hleast).sublist (List.take_sublist _ _),
    fun hleast candidate hmem other hother hnot => ?_⟩
  · refine List.Nodup.map_on (fun left hleft right hright hsame => ?_) hnodup
    obtain ⟨horder, hendpoint⟩ := Prod.mk.inj hsame
    exact selectable_unique (hselectable left hleft) (hselectable right hright) horder hendpoint
  · refine List.Nodup.map_on (fun left hleft right hright hsame => ?_) hnodup
    refine selectable_unique (hselectable left hleft) (hselectable right hright) ?_ hsame
    by_contra hne
    refine hdisjoint _ _ hne (hselectable left hleft).endpoint ?_
    rw [hsame]
    exact (hselectable right hright).endpoint
  · have hall : ranking.take limit = ranking := by
      apply List.take_of_length_le
      rw [List.length_take] at hmore
      omega
    rw [hall]
    exact (h.mem candidate).mpr hcandidate
  · -- with `limit` primary endpoints, all of them would stand before the backup
    obtain ⟨backup, hmem, hbackup⟩ := hbackup
    have hbefore : ∀ primary ∈ primaries, primary ∈ (ranking.take limit).erase backup := by
      intro primary hprimary
      obtain ⟨hselect, hnot⟩ := hall primary hprimary
      have htaken : primary ∈ ranking.take limit := by
        by_contra hdropped
        have hpairwise := h.primary_first
        rw [← hsplit, List.pairwise_append] at hpairwise
        exact hnot (hpairwise.2.2 backup hmem primary (hdrop primary hselect hdropped) hbackup)
      refine (List.mem_erase_of_ne ?_).mpr htaken
      rintro rfl
      exact hnot hbackup
    have hlength := (List.subperm_of_subset hprimaries hbefore).length_le
    rw [List.length_erase_of_mem hmem, List.length_take] at hlength
    have hpos := List.length_pos_of_mem hmem
    rw [List.length_take] at hpos
    omega
  · have hpairwise := h.least_conn hleast
    rw [← hsplit, List.pairwise_append] at hpairwise
    exact hpairwise.2.2 candidate hmem other (hdrop other hother hnot)

/-- Whatever the mode, the cursor, the client, the answers and the registry: the selection is a
failover list. -/
theorem select_peers_failover (hweights : ∀ peer ∈ upstream.peers, 0 < peer.weight)
    (answers : ResolverAnswers upstream) (registry : Nat → PeerHealthRegistry)
    (now cursor : Nat) (client_ip : IpAddr) (limit : Nat) :
    Failover answers registry now limit
      (upstream.select_peers (answers.resolved registry now) cursor client_ip limit).1.peers := by
  rw [select_peers_take]
  exact failover_of_ranked (ranking_ranked hweights cursor client_ip) limit

/-! ## A URL that is listed twice -/

def backend_peer : UpstreamPeer :=
  ⟨"http://127.0.0.1:9000", "http", "127.0.0.1:9000", 1, false, none⟩

def backend_endpoint : ResolvedUpstreamPeer :=
  ⟨"http://127.0.0.1:9000", "http://127.0.0.1:9000", "127.0.0.1:9000", 1, none⟩

def listed_twice : Upstream := ⟨"backend", [backend_peer, backend_peer], .RoundRobin⟩

def backend_answers : ResolverAnswers listed_twice where
  endpoints index := if index < 2 then [backend_endpoint] else []
  distinct index := by split <;> simp
  weights index := by
    match index with
    | 0 => exact fun endpoint h => List.mem_singleton.mp h ▸ rfl
    | 1 => exact fun endpoint h => List.mem_singleton.mp h ▸ rfl
    | index + 2 => simp

def backend_registry : PeerHealthRegistry :=
  .from_config ⟨1, 30⟩ ["http://127.0.0.1:9000"]

theorem select_peers_failover_twice :
    Failover backend_answers (fun _ => backend_registry) 0 2
      (listed_twice.select_peers (backend_answers.resolved (fun _ => backend_registry) 0) 0
        (.V4 0) 2).1.peers :=
  select_peers_failover (by simp [listed_twice, backend_peer]) backend_answers _ 0 0 (.V4 0) 2

/-- A URL that an upstream lists twice has its endpoint selected twice. -/
theorem listed_twice_selected_twice :
    ¬ ((listed_twice.select_peers (backend_answers.resolved (fun _ => backend_registry) 0) 0
      (.V4 0) 2).1.peers.map Candidate.endpoint).Nodup := by
  have hresolved : ∀ index < 2, backend_answers.resolved (fun _ => backend_registry) 0 index =
      ⟨[(0, backend_endpoint)], 0⟩ := by
    intro index hindex
    have hendpoints : backend_answers.endpoints index = [backend_endpoint] := if_pos hindex
    rw [ResolverAnswers.resolved, hendpoints]
    unfold PeerHealthRegistry.peer_endpoints
    simp only [List.mergeSort_singleton]
    rfl
  have hranking : listed_twice.ranking (backend_answers.resolved (fun _ => backend_registry) 0) 0
      (.V4 0) = [⟨0, 0, backend_endpoint⟩, ⟨0, 1, backend_endpoint⟩] := by
    have hordered : (listed_twice.peers_for_client_ip_in_pool 0 (.V4 0) listed_twice.peers.length
        false).1 = [0, 1] := rfl
    have hbackups : listed_twice.pool_ranking (backend_answers.resolved (fun _ => backend_registry) 0)
        1 (.V4 0) true = [] := rfl
    show listed_twice.pool_ranking _ 0 (.V4 0) false ++ listed_twice.pool_ranking _ 1 (.V4 0) true = _
    rw [hbackups, Upstream.pool_ranking, hordered, List.map_cons, List.map_cons,
      hresolved 0 (by decide), hresolved 1 (by decide)]
    rfl
  rw [select_peers_take, hranking]
  simp

end Answers

end rginx.proxy
