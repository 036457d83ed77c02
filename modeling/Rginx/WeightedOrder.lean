-- The order of a weighted pool: which peers a start slot and a limit give, and
-- in which order. Each peer has as many slots of a cycle as its weight; the peers
-- stand in the order in which the slots from the start on come to them.
import Rginx.PeerSelection

open rust_net

namespace rginx.proxy

/-! ## The slots of a peer -/

section Slots

variable (upstream : Upstream) (backup : Bool)

/-- The weight of the peers of the pool that stand before a peer. -/
def Upstream.weight_before (index : Nat) : Nat :=
  (((upstream.peer_indices_for_pool backup).take
    ((upstream.peer_indices_for_pool backup).idxOf index)).map upstream.weight).sum

/-- The slots of a peer are an interval that is as long as its weight. -/
def Upstream.HasSlot (slot index : Nat) : Prop :=
  upstream.weight_before backup index ≤ slot ∧
    slot < upstream.weight_before backup index + upstream.weight index

instance (slot index : Nat) : Decidable (upstream.HasSlot backup slot index) := instDecidableAnd

/-- How many slots from the start on, around the cycle, come before the first one of a peer. -/
def Upstream.slots_before (start index : Nat) : Nat :=
  (List.range (upstream.weights backup).sum).findIdx fun offset =>
    upstream.HasSlot backup ((start + offset) % (upstream.weights backup).sum) index

/-- The first `limit` peers with a weight, in the order of their first slots from the start on. -/
structure Upstream.InSlotOrder (start limit : Nat) (peers : List Nat) : Prop where
  length : peers.length =
    min limit ((upstream.peer_indices_for_pool backup).countP (0 < upstream.weight ·))
  nodup : peers.Nodup
  mem : ∀ index ∈ peers,
    index ∈ upstream.peer_indices_for_pool backup ∧ 0 < upstream.weight index
  all : (upstream.peer_indices_for_pool backup).length ≤ limit →
    (∀ index ∈ upstream.peer_indices_for_pool backup, 0 < upstream.weight index) →
      peers.Perm (upstream.peer_indices_for_pool backup)
  first : ∃ first, peers.head? = some first ∧
    upstream.HasSlot backup (start % (upstream.weights backup).sum) first
  order : peers.Pairwise fun left right =>
    upstream.slots_before backup start left < upstream.slots_before backup start right
  left_out : ∀ left ∈ peers, ∀ right ∈ upstream.peer_indices_for_pool backup,
    0 < upstream.weight right → right ∉ peers →
      upstream.slots_before backup start left < upstream.slots_before backup start right

variable {upstream backup}

/-- The slots of a position are those of its peer. -/
theorem position_iff_has_slot {position index : Nat}
    (h : (upstream.peer_indices_for_pool backup)[position]? = some index) (slot : Nat) :
    weighted_slots.position (upstream.weights backup) slot = some position ↔
      upstream.HasSlot backup slot index := by
  obtain ⟨hposition, rfl⟩ := List.getElem?_eq_some_iff.mp h
  have hnodup : (upstream.peer_indices_for_pool backup).Nodup := nodup_peer_indices backup
  have hindex := hnodup.idxOf_getElem position hposition
  have hweight : (upstream.weights backup).getD position 0 =
      upstream.weight (upstream.peer_indices_for_pool backup)[position] := by
    simp [Upstream.weights, List.getD_eq_getElem?_getD, hposition]
  rw [weighted_slots.position_eq_some_iff, hweight]
  unfold Upstream.HasSlot Upstream.weight_before
  rw [hindex, List.map_take]
  rfl

theorem slots_before_eq {position index : Nat}
    (h : (upstream.peer_indices_for_pool backup)[position]? = some index) (start : Nat) :
    upstream.slots_before backup start index =
      weighted_slots.steps_before
        (slot_position upstream (upstream.peer_indices_for_pool backup) start)
        (List.range (upstream.weights backup).sum) position := by
  unfold Upstream.slots_before weighted_slots.steps_before slot_position
  congr 1
  funext offset
  exact decide_eq_decide.mpr (position_iff_has_slot h _).symm

/-- The positions of an order stand for peers of the pool, each for its own. -/
theorem peer_of_slot_order {start position : Nat}
    (h : position ∈ slot_order upstream (upstream.peer_indices_for_pool backup) start) :
    (upstream.peer_indices_for_pool backup)[position]? =
        some ((upstream.peer_indices_for_pool backup).getD position 0) ∧
      0 < upstream.weight ((upstream.peer_indices_for_pool backup).getD position 0) := by
  have hweight := mem_slot_order.mp h
  have hposition : position < (upstream.peer_indices_for_pool backup).length := by
    by_contra hlong
    rw [List.getD_eq_default _ _ (by simpa using hlong)] at hweight
    cases hweight
  simp only [List.getD_eq_getElem?_getD, List.getElem?_map, List.getElem?_eq_getElem hposition,
    Option.map_some, Option.getD_some] at hweight ⊢
  exact ⟨trivial, hweight⟩

theorem position_of_peer {index : Nat} (h : index ∈ upstream.peer_indices_for_pool backup)
    (hweight : 0 < upstream.weight index) (start : Nat) :
    ∃ position ∈ slot_order upstream (upstream.peer_indices_for_pool backup) start,
      (upstream.peer_indices_for_pool backup)[position]? = some index := by
  obtain ⟨position, hposition, hsame⟩ := exists_position h
  refine ⟨position, mem_slot_order.mpr ?_, hposition⟩
  rw [Upstream.weights] at hsame
  rw [hsame]
  exact hweight

end Slots

/-! ## The order of the calls -/

section Order

variable {upstream : Upstream} {backup : Bool}

/-- An order stands in the order of the first slots. -/
theorem slot_order_pairwise (start : Nat) :
    (slot_order upstream (upstream.peer_indices_for_pool backup) start).Pairwise fun left right =>
      upstream.slots_before backup start
          ((upstream.peer_indices_for_pool backup).getD left 0) <
        upstream.slots_before backup start
          ((upstream.peer_indices_for_pool backup).getD right 0) := by
  have hwalk := weighted_slots.appearances_pairwise
    (slot_position upstream (upstream.peer_indices_for_pool backup) start)
    (List.range (upstream.weights backup).sum) (fun _ => true)
  rw [List.filter_true] at hwalk
  refine List.Pairwise.imp_of_mem ?_ hwalk
  intro left right hleft hright hbefore
  rw [slots_before_eq (peer_of_slot_order hleft).1, slots_before_eq (peer_of_slot_order hright).1]
  exact hbefore

theorem weighted_peers_in_slot_order (hweight : 0 < (upstream.weights backup).sum)
    {start limit : Nat} (hlimit : 0 < limit) :
    upstream.InSlotOrder backup start limit (upstream.weighted_peers_from_indices
      (upstream.peer_indices_for_pool backup) start limit) := by
  have hpeers : upstream.weighted_peers_from_indices (upstream.peer_indices_for_pool backup) start
      limit = _ := weighted_peers_eq hlimit hweight
  generalize upstream.weighted_peers_from_indices (upstream.peer_indices_for_pool backup) start
    limit = peers at hpeers
  have hpairwise := @slot_order_pairwise upstream backup start
  have hlength : peers.length =
      min limit ((upstream.peer_indices_for_pool backup).countP (0 < upstream.weight ·)) := by
    rw [hpeers, List.length_map, List.length_take, length_slot_order, List.countP_map]
    rfl
  have hmem : ∀ index ∈ peers,
      index ∈ upstream.peer_indices_for_pool backup ∧ 0 < upstream.weight index := by
    intro index hindex
    rw [hpeers] at hindex
    obtain ⟨position, hposition, rfl⟩ := List.mem_map.mp hindex
    obtain ⟨hpeer, hpos⟩ := peer_of_slot_order (List.mem_of_mem_take hposition)
    exact ⟨List.mem_of_getElem? hpeer, hpos⟩
  have horder : peers.Pairwise fun left right =>
      upstream.slots_before backup start left < upstream.slots_before backup start right := by
    rw [hpeers, List.pairwise_map]
    exact hpairwise.sublist (List.take_sublist _ _)
  have hnodup : peers.Nodup := by
    refine horder.imp fun h => ?_
    rintro rfl
    exact lt_irrefl _ h
  refine ⟨hlength, hnodup, hmem, ?_, ?_, horder, ?_⟩
  · intro hlong hall
    have hcount : (upstream.peer_indices_for_pool backup).countP (0 < upstream.weight ·) =
        (upstream.peer_indices_for_pool backup).length :=
      List.countP_eq_length.mpr fun index hindex => decide_eq_true (hall index hindex)
    refine (List.subperm_of_subset hnodup fun index hindex =>
      (hmem index hindex).1).perm_of_length_le ?_
    rw [hlength, hcount]
    omega
  · obtain ⟨first, hfirst⟩ := Option.isSome_iff_exists.mp
      (weighted_slots.position_isSome (Nat.mod_lt start hweight))
    have hhead : (slot_order upstream (upstream.peer_indices_for_pool backup) start).head? =
        some first := (head_slot_order hweight).trans hfirst
    have hpeer := (peer_of_slot_order (List.mem_of_mem_head? hhead)).1
    refine ⟨(upstream.peer_indices_for_pool backup).getD first 0, ?_, ?_⟩
    · rw [hpeers, List.head?_map, List.head?_take, if_neg hlimit.ne', hhead]
      rfl
    · exact (position_iff_has_slot hpeer _).mp hfirst
  · intro left hleft right hright hpos hnot
    rw [hpeers] at hleft hnot
    obtain ⟨before, hbefore, rfl⟩ := List.mem_map.mp hleft
    obtain ⟨after, hafter, hpeer⟩ := position_of_peer hright hpos start
    have hsame : (upstream.peer_indices_for_pool backup).getD after 0 = right := by
      rw [List.getD_eq_getElem?_getD, hpeer]
      rfl
    rw [← List.take_append_drop limit
      (slot_order upstream (upstream.peer_indices_for_pool backup) start), List.mem_append] at hafter
    rw [← List.take_append_drop limit
      (slot_order upstream (upstream.peer_indices_for_pool backup) start),
      List.pairwise_append] at hpairwise
    have hdrop := hafter.resolve_left fun htaken => hnot (List.mem_map.mpr ⟨after, htaken, hsame⟩)
    rw [← hsame]
    exact hpairwise.2.2 before hbefore after hdrop

/-- A larger limit extends the order. -/
theorem weighted_peers_extend (hweight : 0 < (upstream.weights backup).sum)
    {start limit limit' : Nat} (hlimit : 0 < limit) (hle : limit ≤ limit') :
    upstream.weighted_peers_from_indices (upstream.peer_indices_for_pool backup) start limit <+:
      upstream.weighted_peers_from_indices (upstream.peer_indices_for_pool backup) start limit' := by
  rw [weighted_peers_eq hlimit hweight, weighted_peers_eq (hlimit.trans_le hle) hweight]
  exact (List.take_prefix_take_left hle).map _

/-- The hash of a client is a start: neither the cursor nor an earlier call changes the list. -/
theorem ip_hash_call (hweight : 0 < (upstream.weights backup).sum)
    (hhash : upstream.load_balance = .IpHash) (cursor : Nat) (client_ip : IpAddr) (limit : Nat) :
    upstream.peers_for_client_ip_in_pool cursor client_ip limit backup =
      (if limit = 0 then [] else
        upstream.weighted_peers_from_indices (upstream.peer_indices_for_pool backup)
          (stable_ip_hash client_ip % (upstream.weights backup).sum) limit, cursor) := by
  have hsome : upstream.peer_indices_for_pool backup ≠ [] := by
    intro hnone
    simp [Upstream.weights, hnone] at hweight
  have htotal : upstream.total_weight_for_indices (upstream.peer_indices_for_pool backup) =
      (upstream.weights backup).sum := rfl
  unfold Upstream.peers_for_client_ip_in_pool Upstream.ip_hash_peers_in_pool
  simp only [hhash, hsome, false_or, htotal, hweight.ne', if_false]
  split <;> rfl

/-- For every start and every limit from one on: the first peers in the order of their slots; a
larger limit extends the list. With the hash of the client the same call gives the same list. -/
theorem weighted_slot_order (upstream : Upstream) (backup : Bool)
    (hweight : 0 < (upstream.weights backup).sum) :
    (∀ start limit, 0 < limit →
      upstream.InSlotOrder backup start limit (upstream.weighted_peers_from_indices
        (upstream.peer_indices_for_pool backup) start limit) ∧
      ∀ limit', limit ≤ limit' →
        upstream.weighted_peers_from_indices (upstream.peer_indices_for_pool backup) start limit <+:
          upstream.weighted_peers_from_indices (upstream.peer_indices_for_pool backup) start
            limit') ∧
    (upstream.load_balance = .IpHash → ∀ client_ip cursor cursor' limit limit',
      (upstream.peers_for_client_ip_in_pool cursor client_ip limit backup).1 =
          (upstream.peers_for_client_ip_in_pool cursor' client_ip limit backup).1 ∧
        (0 < limit → upstream.InSlotOrder backup
          (stable_ip_hash client_ip % (upstream.weights backup).sum) limit
          (upstream.peers_for_client_ip_in_pool cursor client_ip limit backup).1) ∧
        (limit ≤ limit' →
          (upstream.peers_for_client_ip_in_pool cursor client_ip limit backup).1 <+:
            (upstream.peers_for_client_ip_in_pool cursor' client_ip limit' backup).1)) := by
  constructor
  · intro start limit hlimit
    exact ⟨weighted_peers_in_slot_order hweight hlimit,
      fun limit' hle => weighted_peers_extend hweight hlimit hle⟩
  · intro hhash client_ip cursor cursor' limit limit'
    rw [ip_hash_call hweight hhash cursor, ip_hash_call hweight hhash cursor',
      ip_hash_call hweight hhash cursor' client_ip limit']
    refine ⟨rfl, fun hlimit => ?_, fun hle => ?_⟩
    · rw [if_neg hlimit.ne']
      exact weighted_peers_in_slot_order hweight hlimit
    · rcases Nat.eq_zero_or_pos limit with rfl | hlimit
      · exact List.nil_prefix
      · rw [if_neg hlimit.ne', if_neg (hlimit.trans_le hle).ne']
        exact weighted_peers_extend hweight hlimit hle

def weighted_peer (url : String) (weight : Nat) : UpstreamPeer :=
  ⟨url, "http", url, weight, false, none⟩

/-- Weights two, none and one. -/
def unequal : Upstream :=
  ⟨"backend", [weighted_peer "a" 2, weighted_peer "b" 0, weighted_peer "c" 1], .IpHash⟩

theorem weighted_slot_order_unequal :
    unequal.InSlotOrder false 5 7 (unequal.weighted_peers_from_indices
      (unequal.peer_indices_for_pool false) 5 7) :=
  ((weighted_slot_order unequal false (by decide)).1 5 7 (by decide)).1

example : unequal.weighted_peers_from_indices (unequal.peer_indices_for_pool false) 5 7 = [2, 0] :=
  rfl

/-- Without a limit check of its own the loop takes a limit of zero for none. -/
theorem limit_zero_selects_all :
    (unequal.weighted_peers_from_indices (unequal.peer_indices_for_pool false) 0 0).length ≠
      min 0 ((unequal.peer_indices_for_pool false).countP (0 < unequal.weight ·)) := by
  decide

end Order

end rginx.proxy
