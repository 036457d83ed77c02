-- The order in which the peers of an upstream are chosen, from
-- `config/upstream/selection.rs` and `health/registry/selection.rs`. One cursor
-- turns the primary pool and the backup pool.
import Rginx.NetAddress
import Rginx.WeightedSlots

open rust_net

namespace rginx.proxy

/-! ## The pools of an upstream -/

inductive UpstreamLoadBalance
  | RoundRobin
  | IpHash
  | LeastConn
  deriving DecidableEq

structure UpstreamPeer where
  url : String
  scheme : String
  authority : String
  weight : Nat
  backup : Bool
  max_conns : Option Nat
  deriving DecidableEq

structure ResolvedUpstreamPeer where
  logical_peer_url : String
  endpoint_key : String
  dial_authority : String
  weight : Nat
  max_conns : Option Nat
  deriving DecidableEq

structure Upstream where
  name : String
  peers : List UpstreamPeer
  load_balance : UpstreamLoadBalance
  deriving DecidableEq

def Upstream.has_primary_peers (upstream : Upstream) : Bool :=
  upstream.peers.any fun peer => !peer.backup

/-- A peer stands by its index in what follows. -/
def Upstream.peer_indices_for_pool (upstream : Upstream) (backup : Bool) : List Nat :=
  upstream.peers.zipIdx.filterMap fun (peer, index) =>
    if peer.backup = backup then some index else none

def Upstream.weight (upstream : Upstream) (index : Nat) : Nat :=
  (upstream.peers[index]?.map UpstreamPeer.weight).getD 0

def Upstream.total_weight_for_indices (upstream : Upstream) (peer_indices : List Nat) : Nat :=
  (peer_indices.map upstream.weight).sum

/-- The loop over the positions of the pool, from an offset. -/
def Upstream.peer_position_from (upstream : Upstream) (slot : Nat) :
    List Nat → Nat → Nat → Option Nat
  | [], _, _ => none
  | index :: peer_indices, position, offset =>
    let offset := offset + upstream.weight index
    if slot < offset then some position
    else peer_position_from upstream slot peer_indices (position + 1) offset

def Upstream.peer_position_for_weighted_slot (upstream : Upstream) (peer_indices : List Nat)
    (slot : Nat) : Option Nat :=
  upstream.peer_position_from slot peer_indices 0 0

/-- The loop over the offsets, with the positions that were seen. -/
def Upstream.weighted_loop (upstream : Upstream) (peer_indices : List Nat) (start count : Nat) :
    List Nat → List Nat → List Nat → List Nat
  | [], _, selected => selected
  | offset :: offsets, seen, selected =>
    let slot := (start + offset) % upstream.total_weight_for_indices peer_indices
    match upstream.peer_position_for_weighted_slot peer_indices slot with
    | none => weighted_loop upstream peer_indices start count offsets seen selected
    | some position =>
      if position ∈ seen then
        weighted_loop upstream peer_indices start count offsets seen selected
      else
        let selected := selected ++ [peer_indices.getD position 0]
        if selected.length = count then selected
        else
          weighted_loop upstream peer_indices start count offsets (position :: seen) selected

def Upstream.weighted_peers_from_indices (upstream : Upstream) (peer_indices : List Nat)
    (start limit : Nat) : List Nat :=
  let total_weight := upstream.total_weight_for_indices peer_indices
  if total_weight = 0 then []
  else
    upstream.weighted_loop peer_indices start (min limit peer_indices.length)
      (List.range total_weight) [] []

/-- With the cursor, before it wraps. -/
def Upstream.next_peers_in_pool (upstream : Upstream) (cursor limit : Nat) (backup : Bool) :
    List Nat × Nat :=
  let peer_indices := upstream.peer_indices_for_pool backup
  if peer_indices = [] ∨ limit = 0 then ([], cursor)
  else
    let total_weight := upstream.total_weight_for_indices peer_indices
    if total_weight = 0 then (peer_indices.take limit, cursor)
    else
      (upstream.weighted_peers_from_indices peer_indices (cursor % total_weight) limit, cursor + 1)

def octets : IpAddr → List Nat
  | .V4 bits => toGroups 256 4 bits.toNat
  | .V6 bits => toGroups 256 16 bits.toNat

def stable_ip_hash (client_ip : IpAddr) : Nat :=
  (octets client_ip).foldl (fun hash byte => (hash ^^^ byte) * 0x100000001b3 % 2 ^ 64)
    0xcbf29ce484222325

def Upstream.ip_hash_peers_in_pool (upstream : Upstream) (client_ip : IpAddr) (limit : Nat)
    (peer_indices : List Nat) : List Nat :=
  if peer_indices = [] ∨ limit = 0 then []
  else
    let total_weight := upstream.total_weight_for_indices peer_indices
    if total_weight = 0 then peer_indices.take limit
    else
      upstream.weighted_peers_from_indices peer_indices (stable_ip_hash client_ip % total_weight)
        limit

def Upstream.peers_for_client_ip_in_pool (upstream : Upstream) (cursor : Nat) (client_ip : IpAddr)
    (limit : Nat) (backup : Bool) : List Nat × Nat :=
  let peer_indices := upstream.peer_indices_for_pool backup
  if peer_indices = [] ∨ limit = 0 then ([], cursor)
  else
    match upstream.load_balance with
    | .RoundRobin => upstream.next_peers_in_pool cursor limit backup
    | .IpHash => (upstream.ip_hash_peers_in_pool client_ip limit peer_indices, cursor)
    | .LeastConn => upstream.next_peers_in_pool cursor limit backup

/-! ## The selection -/

/-- An endpoint that can be selected: its active requests, the index of its peer, itself. -/
structure Candidate where
  active_requests : Nat
  order : Nat
  endpoint : ResolvedUpstreamPeer
  deriving DecidableEq

structure SelectedPeers where
  peers : List Candidate
  skipped_unhealthy : Nat
  deriving DecidableEq

/-- What the registry says of the resolved endpoints of a peer, with the active requests. -/
structure PeerEndpoints where
  available : List (Nat × ResolvedUpstreamPeer)
  skipped_unhealthy : Nat
  deriving DecidableEq

def PeerEndpoints.candidates (endpoints : PeerEndpoints) (order : Nat) : List Candidate :=
  endpoints.available.map fun (active_requests, endpoint) => ⟨active_requests, order, endpoint⟩

/-- One turn over the batches at a depth: what is selected, and whether it advanced. -/
def select_at_depth {α : Type} (limit depth : Nat) : List (List α) → List α → Bool → List α × Bool
  | [], selected, advanced => (selected, advanced)
  | batch :: batches, selected, advanced =>
    match batch[depth]? with
    | some endpoint =>
      let selected := selected ++ [endpoint]
      if selected.length = limit then (selected, true)
      else select_at_depth limit depth batches selected true
    | none => select_at_depth limit depth batches selected advanced

/-- A turn that advances has selected more. -/
theorem select_at_depth_length {α : Type} (limit depth : Nat) (batches : List (List α))
    (selected : List α) (advanced : Bool) :
    selected.length ≤ (select_at_depth limit depth batches selected advanced).1.length ∧
      ((select_at_depth limit depth batches selected advanced).2 = true → advanced = true ∨
        selected.length < (select_at_depth limit depth batches selected advanced).1.length) := by
  induction batches generalizing selected advanced with
  | nil => exact ⟨le_refl _, Or.inl⟩
  | cons batch batches ih =>
    unfold select_at_depth
    split
    · rename_i endpoint hendpoint
      dsimp only
      split
      · simp
      · obtain ⟨hlength, -⟩ := ih (selected ++ [endpoint]) true
        rw [List.length_append, List.length_singleton] at hlength
        exact ⟨by omega, fun _ => .inr (by omega)⟩
    · exact ih selected advanced

def select_depths {α : Type} (batches : List (List α)) (limit depth : Nat) (selected : List α) :
    List α :=
  if selected.length < limit then
    match hturn : select_at_depth limit depth batches selected false with
    | (selected', true) => select_depths batches limit (depth + 1) selected'
    | (selected', false) => selected'
  else selected
termination_by limit - selected.length
decreasing_by
  have hlength := (select_at_depth_length limit depth batches selected false).2
  rw [hturn] at hlength
  rcases hlength rfl with hfalse | hlonger
  · cases hfalse
  · dsimp only at hlonger
    omega

def select_available_peers (resolved : Nat → PeerEndpoints) (ordered : List Nat) (limit : Nat) :
    SelectedPeers :=
  if limit = 0 then ⟨[], 0⟩
  else
    let batches := (ordered.map fun index => (resolved index).candidates index).filter (· ≠ [])
    ⟨select_depths batches limit 0 [],
      (ordered.map fun index => (resolved index).skipped_unhealthy).sum⟩

def merge_selected_peers (primary secondary : SelectedPeers) : SelectedPeers :=
  ⟨primary.peers ++ secondary.peers, primary.skipped_unhealthy + secondary.skipped_unhealthy⟩

def U64_MAX : Nat := 2 ^ 64 - 1

def projected_least_conn_load (left_active_requests left_weight right_active_requests
    right_weight : Nat) : Ordering :=
  compare (min (left_active_requests + 1) U64_MAX * max right_weight 1)
    (min (right_active_requests + 1) U64_MAX * max left_weight 1)

def Candidate.least_conn (left right : Candidate) : Ordering :=
  (projected_least_conn_load left.active_requests left.endpoint.weight right.active_requests
    right.endpoint.weight).then
  ((compare right.endpoint.weight left.endpoint.weight).then
  ((compare left.order right.order).then
    (compare left.endpoint.dial_authority right.endpoint.dial_authority)))

def Upstream.select_peers_by_least_conn_in_pool (upstream : Upstream)
    (resolved : Nat → PeerEndpoints) (limit : Nat) (backup : Bool) : SelectedPeers :=
  let ordered := upstream.peer_indices_for_pool backup
  let available := ordered.flatMap fun index => (resolved index).candidates index
  ⟨(available.mergeSort fun left right => left.least_conn right != .gt).take limit,
    (ordered.map fun index => (resolved index).skipped_unhealthy).sum⟩

def Upstream.select_peers_by_least_conn (upstream : Upstream) (resolved : Nat → PeerEndpoints)
    (limit : Nat) : SelectedPeers :=
  if limit = 0 then ⟨[], 0⟩
  else if !upstream.has_primary_peers then
    upstream.select_peers_by_least_conn_in_pool resolved limit true
  else
    let primary := upstream.select_peers_by_least_conn_in_pool resolved limit false
    if primary.peers = [] then
      merge_selected_peers primary
        (upstream.select_peers_by_least_conn_in_pool resolved limit true)
    else if primary.peers.length = limit then primary
    else
      merge_selected_peers primary (upstream.select_peers_by_least_conn_in_pool resolved
        (limit - primary.peers.length) true)

def Upstream.select_peers_in_pool (upstream : Upstream) (resolved : Nat → PeerEndpoints)
    (cursor : Nat) (client_ip : IpAddr) (limit : Nat) (backup : Bool) : SelectedPeers × Nat :=
  let (ordered, cursor) :=
    upstream.peers_for_client_ip_in_pool cursor client_ip upstream.peers.length backup
  (select_available_peers resolved ordered limit, cursor)

/-- `PeerHealthRegistry::select_peers`, with the cursor of the upstream. -/
def Upstream.select_peers (upstream : Upstream) (resolved : Nat → PeerEndpoints) (cursor : Nat)
    (client_ip : IpAddr) (limit : Nat) : SelectedPeers × Nat :=
  if upstream.load_balance = .LeastConn then
    (upstream.select_peers_by_least_conn resolved limit, cursor)
  else if !upstream.has_primary_peers then
    upstream.select_peers_in_pool resolved cursor client_ip limit true
  else
    let (primary, cursor) := upstream.select_peers_in_pool resolved cursor client_ip limit false
    if limit = 0 then (⟨[], 0⟩, cursor)
    else if primary.peers = [] then
      let (backup, cursor) := upstream.select_peers_in_pool resolved cursor client_ip limit true
      (merge_selected_peers primary backup, cursor)
    else if primary.peers.length = limit then (primary, cursor)
    else
      let (backup, cursor) := upstream.select_peers_in_pool resolved cursor client_ip
        (limit - primary.peers.length) true
      (merge_selected_peers primary backup, cursor)

/-! ## The order of a pool -/

section Pool

variable {upstream : Upstream} {peer_indices : List Nat}

theorem peer_position_from_eq (slot position offset : Nat) (h : offset ≤ slot) :
    upstream.peer_position_from slot peer_indices position offset =
      (weighted_slots.position (peer_indices.map upstream.weight) (slot - offset)).map
        (· + position) := by
  induction peer_indices generalizing position offset with
  | nil => rfl
  | cons index peer_indices ih =>
    unfold Upstream.peer_position_from
    rw [List.map_cons]
    unfold weighted_slots.position
    by_cases hslot : slot < offset + upstream.weight index
    · rw [if_pos (by omega), if_pos (by omega)]
      simp
    · rw [if_neg (by omega), if_neg (by omega), ih _ _ (by omega), Option.map_map, Nat.sub_sub]
      congr 1
      funext i
      simp only [Function.comp_apply]
      omega

/-- The slots of the peers are those of their weights. -/
theorem peer_position_eq (slot : Nat) :
    upstream.peer_position_for_weighted_slot peer_indices slot =
      weighted_slots.position (peer_indices.map upstream.weight) slot := by
  unfold Upstream.peer_position_for_weighted_slot
  rw [peer_position_from_eq slot 0 0 (Nat.zero_le _)]
  simp

theorem total_weight_eq :
    upstream.total_weight_for_indices peer_indices = (peer_indices.map upstream.weight).sum := rfl

variable (upstream peer_indices) in
/-- The position of the slot at an offset. -/
def slot_position (start offset : Nat) : Option Nat :=
  weighted_slots.position (peer_indices.map upstream.weight)
    ((start + offset) % (peer_indices.map upstream.weight).sum)

/-- A pool is as long as it has peers with a weight. -/
theorem length_positions {weights positions : List Nat} (hnodup : positions.Nodup)
    (hmem : ∀ position, position ∈ positions ↔ 0 < weights.getD position 0) :
    positions.length = weights.countP (0 < ·) := by
  have hperm : positions.Perm
      ((List.range weights.length).filter fun position => 0 < weights.getD position 0) := by
    refine (List.perm_ext_iff_of_nodup hnodup (List.nodup_range.filter _)).mpr ?_
    intro position
    rw [hmem, List.mem_filter, List.mem_range, decide_eq_true_eq, iff_and_self]
    intro hpos
    by_contra hlong
    rw [List.getD_eq_default _ _ (not_lt.mp hlong)] at hpos
    cases hpos
  have hweights : weights = (List.range weights.length).map fun position =>
      weights.getD position 0 := by
    refine List.ext_getElem (by simp) ?_
    intro position hposition _
    simp [List.getD_eq_getElem?_getD, hposition]
  rw [hperm.length_eq, ← List.countP_eq_length_filter]
  conv_rhs => rw [hweights, List.countP_map]
  rfl

variable (upstream peer_indices) in
/-- The positions of a pool, each once, in the order in which the slots come to them. -/
def slot_order (start : Nat) : List Nat :=
  ((List.range (peer_indices.map upstream.weight).sum).filterMap
    (slot_position upstream peer_indices start)).eraseDups

/-- What is left of the loop selects the positions that were not seen, up to the count. -/
theorem weighted_loop_eq (start count : Nat) (offsets seen selected : List Nat)
    (hmore : selected.length < count) :
    upstream.weighted_loop peer_indices start count offsets seen selected =
      selected ++ ((((offsets.filterMap (slot_position upstream peer_indices start)).filter
        (· ∉ seen)).eraseDups.take (count - selected.length)).map
          fun position => peer_indices.getD position 0) := by
  induction offsets generalizing seen selected with
  | nil => simp [Upstream.weighted_loop]
  | cons offset offsets ih =>
    unfold Upstream.weighted_loop
    dsimp only
    rw [peer_position_eq, total_weight_eq]
    have hslot : slot_position upstream peer_indices start offset =
      weighted_slots.position (peer_indices.map upstream.weight)
        ((start + offset) % (peer_indices.map upstream.weight).sum) := rfl
    rw [← hslot]
    rcases hposition : slot_position upstream peer_indices start offset with _ | position
    · rw [List.filterMap_cons_none hposition]
      exact ih seen selected hmore
    · rw [List.filterMap_cons_some hposition]
      dsimp only
      by_cases hseen : position ∈ seen
      · rw [if_pos hseen, List.filter_cons_of_neg (by simpa using hseen)]
        exact ih seen selected hmore
      · rw [if_neg hseen, List.filter_cons_of_pos (by simpa using hseen), List.eraseDups_cons,
          List.filter_filter]
        obtain ⟨left, hleft⟩ := Nat.exists_eq_succ_of_ne_zero (Nat.sub_ne_zero_of_lt hmore)
        have hlength : (selected ++ [peer_indices.getD position 0]).length = selected.length + 1 :=
          List.length_append
        rw [hleft, List.take_succ_cons, List.map_cons, hlength]
        split
        · obtain rfl : left = 0 := by omega
          rfl
        · have hcount : count - (selected.length + 1) = left := by omega
          rw [ih _ _ (by rw [hlength]; omega), hlength, hcount, List.append_assoc,
            List.singleton_append]
          congr 6
          funext other
          simp [List.mem_cons, not_or, Bool.beq_eq_decide_eq]

theorem nodup_slot_order (start : Nat) : (slot_order upstream peer_indices start).Nodup := by
  have horder := weighted_slots.appearances_pairwise (slot_position upstream peer_indices start)
    (List.range (peer_indices.map upstream.weight).sum) (fun _ => true)
  rw [List.filter_true] at horder
  exact horder.imp fun h => by
    rintro rfl
    exact lt_irrefl _ h

/-- Each position with a weight has a slot. -/
theorem mem_slot_order {start position : Nat} :
    position ∈ slot_order upstream peer_indices start ↔
      0 < (peer_indices.map upstream.weight).getD position 0 := by
  unfold slot_order
  rw [List.mem_eraseDups, List.mem_filterMap]
  constructor
  · rintro ⟨offset, -, hposition⟩
    exact (weighted_slots.weight_pos hposition).2
  · intro hweight
    obtain ⟨slot, hslot, hposition⟩ := weighted_slots.exists_slot hweight
    have hpos : 0 < (peer_indices.map upstream.weight).sum := Nat.zero_lt_of_lt hslot
    -- the offset from the start to the slot, around the cycle
    refine ⟨(slot + (peer_indices.map upstream.weight).sum -
      start % (peer_indices.map upstream.weight).sum) % (peer_indices.map upstream.weight).sum,
      List.mem_range.mpr (Nat.mod_lt _ hpos), ?_⟩
    have hturn := Nat.mod_lt start hpos
    unfold slot_position
    rw [Nat.add_mod_mod, ← Nat.mod_add_mod, Nat.add_sub_cancel' (by omega), Nat.add_mod_right,
      Nat.mod_eq_of_lt hslot]
    exact hposition

/-- The order begins with the position that the start has a slot of. -/
theorem head_slot_order {start : Nat} (hweight : 0 < (peer_indices.map upstream.weight).sum) :
    (slot_order upstream peer_indices start).head? =
      weighted_slots.position (peer_indices.map upstream.weight)
        (start % (peer_indices.map upstream.weight).sum) := by
  obtain ⟨n, hn⟩ := Nat.exists_eq_succ_of_ne_zero hweight.ne'
  obtain ⟨first, hfirst⟩ :=
    Option.isSome_iff_exists.mp (weighted_slots.position_isSome (Nat.mod_lt start hweight))
  have hslot : slot_position upstream peer_indices start 0 = some first := hfirst
  unfold slot_order
  rw [hn, List.range_succ_eq_map, List.filterMap_cons_some hslot, List.eraseDups_cons, ← hn, hfirst]
  rfl

/-- A pool has as many peers in its order as have a weight. -/
theorem length_slot_order (start : Nat) :
    (slot_order upstream peer_indices start).length =
      (peer_indices.map upstream.weight).countP (0 < ·) :=
  length_positions (nodup_slot_order start) fun _ => mem_slot_order

theorem weighted_peers_eq {start limit : Nat} (hlimit : 0 < limit)
    (hweight : 0 < (peer_indices.map upstream.weight).sum) :
    upstream.weighted_peers_from_indices peer_indices start limit =
      ((slot_order upstream peer_indices start).take limit).map
        fun position => peer_indices.getD position 0 := by
  have hpeers : 0 < peer_indices.length := by
    rw [List.length_pos_iff]
    rintro rfl
    cases hweight
  have hlength : (slot_order upstream peer_indices start).length ≤ peer_indices.length := by
    rw [length_slot_order]
    exact List.countP_le_length.trans_eq (List.length_map _)
  unfold Upstream.weighted_peers_from_indices
  dsimp only
  rw [total_weight_eq, if_neg hweight.ne', weighted_loop_eq _ _ _ _ _ (by simp; omega)]
  have hall : (fun position : Nat => decide (position ∉ ([] : List Nat))) = fun _ => true := by
    funext position
    simp
  rw [hall, List.filter_true, List.nil_append, List.length_nil, Nat.sub_zero, ← slot_order]
  congr 1
  rcases Nat.le_total limit peer_indices.length with h | h
  · rw [Nat.min_eq_left h]
  · rw [Nat.min_eq_right h, List.take_of_length_le hlength, List.take_of_length_le (by omega)]

/-- The order of a pool: each peer with a weight once, from the peer of the slot on. -/
theorem weighted_peers_spec {start limit : Nat}
    (hstart : start < (peer_indices.map upstream.weight).sum)
    (hlimit : peer_indices.length ≤ limit) :
    ∃ positions : List Nat,
      upstream.weighted_peers_from_indices peer_indices start limit =
        positions.map (fun position => peer_indices.getD position 0) ∧
      positions.Nodup ∧
      (∀ position, position ∈ positions ↔
        0 < (peer_indices.map upstream.weight).getD position 0) ∧
      positions.head? = weighted_slots.position (peer_indices.map upstream.weight) start := by
  have hweight : 0 < (peer_indices.map upstream.weight).sum := Nat.zero_lt_of_lt hstart
  have hpeers : 0 < peer_indices.length := by
    rw [List.length_pos_iff]
    rintro rfl
    cases hstart
  have hall : (slot_order upstream peer_indices start).take limit =
      slot_order upstream peer_indices start := by
    apply List.take_of_length_le
    rw [length_slot_order]
    exact (List.countP_le_length.trans_eq (List.length_map _)).trans hlimit
  refine ⟨slot_order upstream peer_indices start, ?_, nodup_slot_order start,
    fun _ => mem_slot_order, ?_⟩
  · rw [weighted_peers_eq (by omega) hweight, hall]
  · rw [head_slot_order hweight, Nat.mod_eq_of_lt hstart]

end Pool

/-! ## The first choice -/

section FirstChoice

theorem selected_at_depth {α : Type} (limit depth : Nat) (batches : List (List α))
    (selected : List α) (advanced : Bool) :
    selected <+: (select_at_depth limit depth batches selected advanced).1 := by
  induction batches generalizing selected advanced with
  | nil => exact List.prefix_refl _
  | cons batch batches ih =>
    unfold select_at_depth
    split
    · dsimp only
      split
      · exact List.prefix_append _ _
      · exact (List.prefix_append _ _).trans (ih _ _)
    · exact ih _ _

theorem select_depths_eq {α : Type} (batches : List (List α)) (limit depth : Nat)
    (selected : List α) :
    select_depths batches limit depth selected =
      if selected.length < limit then
        let turn := select_at_depth limit depth batches selected false
        if turn.2 then select_depths batches limit (depth + 1) turn.1 else turn.1
      else selected := by
  conv_lhs => unfold select_depths
  split
  · split
    · rename_i hturn
      simp [hturn]
    · rename_i hturn
      simp [hturn]
  · rfl

theorem selected_of_depths {α : Type} (batches : List (List α)) (limit depth : Nat)
    (selected : List α) : selected <+: select_depths batches limit depth selected := by
  induction depth, selected using select_depths.induct batches limit with
  | case1 depth selected hlimit selected' hturn ih =>
    have hprefix := selected_at_depth limit depth batches selected false
    rw [hturn] at hprefix
    rw [select_depths_eq, if_pos hlimit, hturn]
    exact hprefix.trans ih
  | case2 depth selected hlimit selected' hturn =>
    have hprefix := selected_at_depth limit depth batches selected false
    rw [hturn] at hprefix
    rw [select_depths_eq, if_pos hlimit, hturn]
    exact hprefix
  | case3 depth selected hlimit =>
    rw [select_depths_eq, if_neg hlimit]

/-- The first batch comes first. -/
theorem head_select_depths {α : Type} {batches : List (List α)} {limit : Nat} (hlimit : 0 < limit)
    (h : ∀ batch ∈ batches, batch ≠ []) :
    (select_depths batches limit 0 []).head? = batches.head?.bind List.head? := by
  cases batches with
  | nil =>
    rw [select_depths_eq]
    split <;> rfl
  | cons batch batches =>
    cases batch with
    | nil => exact absurd rfl (h [] List.mem_cons_self)
    | cons endpoint batch =>
      have hturn : [endpoint] <+:
          (select_at_depth limit 0 ((endpoint :: batch) :: batches) [] false).1 := by
        unfold select_at_depth
        dsimp only [List.getElem?_cons_zero, List.nil_append]
        split
        · exact List.prefix_refl _
        · exact selected_at_depth _ _ _ _ _
      have hprefix : [endpoint] <+: select_depths ((endpoint :: batch) :: batches) limit 0 [] := by
        rw [select_depths_eq, if_pos (by simpa using hlimit)]
        dsimp only
        split
        · exact hturn.trans (selected_of_depths _ _ _ _)
        · exact hturn
      obtain ⟨rest, hrest⟩ := hprefix
      rw [← hrest]
      rfl

theorem candidates_eq_nil {endpoints : PeerEndpoints} {order : Nat} :
    endpoints.candidates order = [] ↔ endpoints.available = [] := by
  simp [PeerEndpoints.candidates]

/-- The first choice is an endpoint of the first peer of the order that has one. -/
theorem select_available_first (resolved : Nat → PeerEndpoints) (ordered : List Nat) {limit : Nat}
    (hlimit : 0 < limit) :
    (select_available_peers resolved ordered limit).peers.head?.map Candidate.order =
      ordered.find? fun index => (resolved index).available ≠ [] := by
  unfold select_available_peers
  rw [if_neg (by omega)]
  dsimp only
  rw [head_select_depths hlimit (by simp), List.head?_filter, List.find?_map]
  have hfind : ((fun batch : List Candidate => decide (batch ≠ [])) ∘
      fun index => (resolved index).candidates index) =
        fun index => decide ((resolved index).available ≠ []) := by
    funext index
    simp [candidates_eq_nil]
  rw [hfind]
  rcases hfirst : ordered.find? fun index => decide ((resolved index).available ≠ []) with _ | index
  · rfl
  · have havailable := List.find?_some hfirst
    rw [decide_eq_true_eq] at havailable
    obtain ⟨first, rest, hlist⟩ := List.exists_cons_of_ne_nil havailable
    simp [PeerEndpoints.candidates, hlist]

theorem select_at_depth_singles {α : Type} (limit : Nat) (singles : List α) (selected : List α)
    (advanced : Bool) (h : selected.length < limit) :
    (select_at_depth limit 0 (singles.map fun single => [single]) selected advanced).1 =
      (selected ++ singles).take limit := by
  induction singles generalizing selected advanced with
  | nil =>
    rw [List.append_nil, List.take_of_length_le h.le]
    rfl
  | cons single singles ih =>
    rw [List.map_cons]
    unfold select_at_depth
    dsimp only [List.getElem?_cons_zero]
    split
    · rename_i hfull
      rw [List.append_cons selected single singles, List.take_left' hfull]
    · rename_i hmore
      rw [List.length_append, List.length_singleton] at hmore
      rw [ih _ true (by simp; omega), List.append_assoc, List.singleton_append]

/-- Of batches of one endpoint each, the first ones are selected. -/
theorem select_depths_singles {α : Type} {limit : Nat} (hlimit : 0 < limit) (singles : List α) :
    select_depths (singles.map fun single => [single]) limit 0 [] = singles.take limit := by
  have hsecond : ∀ selected : List α,
      select_depths (singles.map fun single => [single]) limit 1 selected = selected := by
    intro selected
    have hturn : ∀ others : List α, select_at_depth limit 1
        (others.map fun single => [single]) selected false = (selected, false) := by
      intro others
      induction others with
      | nil => rfl
      | cons other others ih =>
        rw [List.map_cons]
        unfold select_at_depth
        exact ih
    rw [select_depths_eq, hturn]
    split <;> rfl
  have hfirst := select_at_depth_singles limit singles [] false hlimit
  rw [List.nil_append] at hfirst
  rw [select_depths_eq, if_pos (by simpa using hlimit)]
  dsimp only
  split
  · rw [hsecond]
    exact hfirst
  · exact hfirst

end FirstChoice

/-! ## Round robin -/

section RoundRobin

variable (upstream : Upstream)

def Upstream.weights (backup : Bool) : List Nat :=
  (upstream.peer_indices_for_pool backup).map upstream.weight

/-- How far a look into the pool turns the cursor. -/
def Upstream.turn (backup : Bool) : Nat := if (upstream.weights backup).sum = 0 then 0 else 1

variable {upstream}

theorem mem_peer_indices {backup : Bool} {index : Nat} :
    index ∈ upstream.peer_indices_for_pool backup ↔
      ∃ peer, upstream.peers[index]? = some peer ∧ peer.backup = backup := by
  unfold Upstream.peer_indices_for_pool
  rw [List.mem_filterMap]
  constructor
  · rintro ⟨⟨peer, index'⟩, hmem, hindex⟩
    dsimp only at hindex
    split at hindex
    · rename_i hbackup
      obtain rfl := Option.some.inj hindex
      exact ⟨peer, List.mem_zipIdx_iff_getElem?.mp hmem, hbackup⟩
    · cases hindex
  · rintro ⟨peer, hpeer, hbackup⟩
    exact ⟨(peer, index), List.mem_zipIdx_iff_getElem?.mpr hpeer, if_pos hbackup⟩

theorem nodup_peer_indices (backup : Bool) : (upstream.peer_indices_for_pool backup).Nodup := by
  have hsub : List.Sublist (upstream.peer_indices_for_pool backup)
      (upstream.peers.zipIdx.map Prod.snd) := by
    unfold Upstream.peer_indices_for_pool
    induction upstream.peers.zipIdx with
    | nil => exact List.Sublist.slnil
    | cons pair pairs ih =>
      obtain ⟨peer, index⟩ := pair
      rw [List.map_cons]
      by_cases hbackup : peer.backup = backup
      · simpa [hbackup] using ih.cons_cons index
      · simpa [List.filterMap_cons, hbackup] using ih.cons index
  refine hsub.nodup ?_
  rw [List.zipIdx_map_snd]
  exact List.nodup_range'

theorem length_peer_indices_le (backup : Bool) :
    (upstream.peer_indices_for_pool backup).length ≤ upstream.peers.length := by
  unfold Upstream.peer_indices_for_pool
  exact (List.length_filterMap_le _ _).trans (by simp)

/-- The peers of the pool at their positions. -/
theorem exists_position {backup : Bool} {index : Nat}
    (h : index ∈ upstream.peer_indices_for_pool backup) :
    ∃ position, (upstream.peer_indices_for_pool backup)[position]? = some index ∧
      (upstream.weights backup).getD position 0 = upstream.weight index := by
  obtain ⟨position, hposition⟩ := List.mem_iff_getElem?.mp h
  refine ⟨position, hposition, ?_⟩
  simp [Upstream.weights, List.getD_eq_getElem?_getD, hposition]

variable (hrobin : upstream.load_balance = .RoundRobin)
include hrobin

/-- A pool without a weight leaves the cursor. -/
theorem next_cursor (cursor : Nat) (client_ip : IpAddr) (backup : Bool) :
    (upstream.peers_for_client_ip_in_pool cursor client_ip upstream.peers.length backup).2 =
      cursor + upstream.turn backup := by
  have hlength : (upstream.peer_indices_for_pool backup).length ≤ upstream.peers.length :=
    length_peer_indices_le backup
  unfold Upstream.peers_for_client_ip_in_pool Upstream.next_peers_in_pool Upstream.turn
  simp only [hrobin]
  by_cases hnone : upstream.peer_indices_for_pool backup = []
  · simp [hnone, Upstream.weights]
  · have hpeers : upstream.peers.length ≠ 0 := by
      have := List.length_pos_iff.mpr hnone
      omega
    have htotal : upstream.total_weight_for_indices (upstream.peer_indices_for_pool backup) =
        (upstream.weights backup).sum := rfl
    rw [if_neg (by simp [hnone, hpeers]), if_neg (by simp [hnone, hpeers]), htotal]
    split <;> rfl

theorem pool_order {backup : Bool} (hweight : (upstream.weights backup).sum ≠ 0) (cursor : Nat)
    (client_ip : IpAddr) :
    ∃ positions : List Nat,
      (upstream.peers_for_client_ip_in_pool cursor client_ip upstream.peers.length backup).1 =
        positions.map (fun position => (upstream.peer_indices_for_pool backup).getD position 0) ∧
      positions.Nodup ∧
      (∀ position, position ∈ positions ↔ 0 < (upstream.weights backup).getD position 0) ∧
      positions.head? = weighted_slots.position (upstream.weights backup)
        (cursor % (upstream.weights backup).sum) := by
  have hlength : (upstream.peer_indices_for_pool backup).length ≤ upstream.peers.length :=
    length_peer_indices_le backup
  have hsome : upstream.peer_indices_for_pool backup ≠ [] := by
    intro hnone
    exact hweight (by simp [Upstream.weights, hnone])
  have hpeers : upstream.peers.length ≠ 0 := by
    have := List.length_pos_iff.mpr hsome
    omega
  obtain ⟨positions, horder, hspec⟩ := weighted_peers_spec (Nat.mod_lt cursor
    (Nat.pos_of_ne_zero hweight)) hlength
  refine ⟨positions, ?_, hspec⟩
  rw [← horder]
  unfold Upstream.peers_for_client_ip_in_pool Upstream.next_peers_in_pool
  simp only [hrobin]
  rw [if_neg (by simp [hsome, hpeers]), if_neg (by simp [hsome, hpeers]), if_neg (by exact hweight)]
  rfl

end RoundRobin

end rginx.proxy
