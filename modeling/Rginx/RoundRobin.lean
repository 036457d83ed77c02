-- Round robin over whole runs of selections: how often each peer is the first
-- choice. The cursor turns once for each pool that a selection looks into.
import Mathlib.Algebra.BigOperators.Group.Finset.Basic
import Mathlib.Algebra.Order.BigOperators.Group.List
import Rginx.PeerSelection

open rust_net

namespace rginx.proxy

/-! ## One call -/

structure SelectCall where
  client_ip : IpAddr
  limit : Nat
  resolved : Nat → PeerEndpoints

section Call

variable (upstream : Upstream)

def Upstream.select_call (cursor : Nat) (call : SelectCall) : SelectedPeers × Nat :=
  upstream.select_peers call.resolved cursor call.client_ip call.limit

/-- The peer that a request is sent to first. -/
def SelectedPeers.first_choice (selected : SelectedPeers) : Option Nat :=
  selected.peers.head?.map Candidate.order

/-- All primary peers can be selected and have one endpoint. -/
def SelectCall.PrimariesUp (call : SelectCall) : Prop :=
  ∀ index ∈ upstream.peer_indices_for_pool false,
    ∃ endpoint, (call.resolved index).available = [endpoint]

/-- No primary peer can be selected. -/
def SelectCall.PrimariesDown (call : SelectCall) : Prop :=
  ∀ index ∈ upstream.peer_indices_for_pool false, (call.resolved index).available = []

/-- With all primary peers up, a call looks into the backup pool when it may select more than
these. -/
def Upstream.LooksIntoBackups (limit : Nat) : Prop :=
  (upstream.weights false).countP (0 < ·) < limit ∧ (upstream.weights true).sum ≠ 0

instance (limit : Nat) : Decidable (upstream.LooksIntoBackups limit) := instDecidableAnd

def Upstream.stride (limit : Nat) : Nat := if upstream.LooksIntoBackups limit then 2 else 1

variable {upstream} (hrobin : upstream.load_balance = .RoundRobin)

theorem has_primary_of_weight (hweight : (upstream.weights false).sum ≠ 0) :
    upstream.has_primary_peers = true := by
  by_contra hnone
  have hempty : upstream.peer_indices_for_pool false = [] := by
    rw [List.eq_nil_iff_forall_not_mem]
    intro index hindex
    obtain ⟨peer, hpeer, hbackup⟩ := mem_peer_indices.mp hindex
    refine hnone (List.any_eq_true.mpr ⟨peer, List.mem_of_getElem? hpeer, ?_⟩)
    simp [hbackup]
  exact hweight (by simp [Upstream.weights, hempty])

theorem turn_of_no_primary (hnone : upstream.has_primary_peers = false) :
    upstream.turn false = 0 := by
  unfold Upstream.turn
  rw [if_pos]
  by_contra hweight
  rw [has_primary_of_weight hweight] at hnone
  cases hnone

/-- The positions of a pool stand for its peers. -/
theorem getD_mem_peer_indices {backup : Bool} {position : Nat}
    (h : 0 < (upstream.weights backup).getD position 0) :
    (upstream.peer_indices_for_pool backup).getD position 0 ∈
      upstream.peer_indices_for_pool backup := by
  have hposition : position < (upstream.peer_indices_for_pool backup).length := by
    by_contra hlong
    rw [List.getD_eq_default _ _ (by simpa [Upstream.weights] using hlong)] at h
    cases h
  simp [List.getD_eq_getElem?_getD, hposition]

theorem exists_singles {f : Nat → List Candidate} {ordered : List Nat}
    (h : ∀ index ∈ ordered, ∃ candidate, f index = [candidate]) :
    ∃ singles : List Candidate, ordered.map f = singles.map (fun candidate => [candidate]) ∧
      singles.length = ordered.length := by
  induction ordered with
  | nil => exact ⟨[], rfl, rfl⟩
  | cons index ordered ih =>
    obtain ⟨candidate, hcandidate⟩ := h index List.mem_cons_self
    obtain ⟨singles, hmap, hlength⟩ := ih fun other hother => h other (List.mem_cons_of_mem _ hother)
    refine ⟨candidate :: singles, ?_, ?_⟩
    · rw [List.map_cons, List.map_cons, hcandidate, hmap]
    · rw [List.length_cons, List.length_cons, hlength]

theorem length_select_available {resolved : Nat → PeerEndpoints} {ordered : List Nat} {limit : Nat}
    (hlimit : 1 ≤ limit)
    (h : ∀ index ∈ ordered, ∃ endpoint, (resolved index).available = [endpoint]) :
    (select_available_peers resolved ordered limit).peers.length = min limit ordered.length := by
  have hsingle : ∀ index ∈ ordered, ∃ candidate, (resolved index).candidates index = [candidate] := by
    intro index hindex
    obtain ⟨endpoint, hendpoint⟩ := h index hindex
    exact ⟨⟨endpoint.1, index, endpoint.2⟩, by simp [PeerEndpoints.candidates, hendpoint]⟩
  obtain ⟨singles, hsingles, hlength⟩ := exists_singles hsingle
  have hfilter : (singles.map fun candidate => [candidate]).filter (fun batch => batch ≠ []) =
      singles.map fun candidate => [candidate] := by
    simp
  unfold select_available_peers
  rw [if_neg (by omega)]
  dsimp only
  rw [hsingles, hfilter, select_depths_singles hlimit, List.length_take, hlength]

include hrobin

theorem mem_pool_order {cursor : Nat} {client_ip : IpAddr} {backup : Bool} {index : Nat}
    (h : index ∈
      (upstream.peers_for_client_ip_in_pool cursor client_ip upstream.peers.length backup).1) :
    index ∈ upstream.peer_indices_for_pool backup := by
  by_cases hweight : (upstream.weights backup).sum = 0
  · have htotal : upstream.total_weight_for_indices (upstream.peer_indices_for_pool backup) = 0 :=
      hweight
    unfold Upstream.peers_for_client_ip_in_pool Upstream.next_peers_in_pool at h
    simp only [hrobin, htotal, if_true] at h
    split at h
    · cases h
    · exact List.mem_of_mem_take h
  · obtain ⟨positions, horder, -, hmem, -⟩ := pool_order hrobin hweight cursor client_ip
    rw [horder] at h
    obtain ⟨position, hposition, rfl⟩ := List.mem_map.mp h
    exact getD_mem_peer_indices ((hmem position).mp hposition)

/-- With all primary peers up, the first choice is the peer of the slot that the cursor is at. -/
theorem select_primaries_up {call : SelectCall} (hup : call.PrimariesUp upstream)
    (hlimit : 1 ≤ call.limit) (hweight : (upstream.weights false).sum ≠ 0) (cursor : Nat) :
    (upstream.select_call cursor call).1.first_choice =
        (weighted_slots.position (upstream.weights false)
          (cursor % (upstream.weights false).sum)).map
            (fun position => (upstream.peer_indices_for_pool false).getD position 0) ∧
      (upstream.select_call cursor call).2 = cursor + upstream.stride call.limit := by
  obtain ⟨positions, horder, hnodup, hmem, hhead⟩ := pool_order hrobin hweight cursor call.client_ip
  have hcursor := next_cursor hrobin cursor call.client_ip false
  have hturn : upstream.turn false = 1 := if_neg hweight
  rw [hturn] at hcursor
  generalize hpool : upstream.peers_for_client_ip_in_pool cursor call.client_ip
    upstream.peers.length false = pool at horder hcursor
  obtain ⟨ordered, cursor'⟩ := pool
  dsimp only at horder hcursor
  have hall : ∀ index ∈ ordered, ∃ endpoint, (call.resolved index).available = [endpoint] := by
    intro index hindex
    have hmem : index ∈ (upstream.peers_for_client_ip_in_pool cursor call.client_ip
        upstream.peers.length false).1 := by
      rw [hpool]
      exact hindex
    exact hup index (mem_pool_order hrobin hmem)
  have hlength := length_select_available hlimit hall
  have hcount : ordered.length = (upstream.weights false).countP (0 < ·) := by
    rw [horder, List.length_map, length_positions hnodup hmem]
  have hfirst := select_available_first call.resolved ordered hlimit
  have hfind : ordered.find? (fun index => (call.resolved index).available ≠ []) =
      ordered.head? := by
    cases ordered with
    | nil => rfl
    | cons index ordered =>
      obtain ⟨endpoint, hendpoint⟩ := hall index List.mem_cons_self
      simp [hendpoint]
  have hhead' : ordered.head? = (weighted_slots.position (upstream.weights false)
      (cursor % (upstream.weights false).sum)).map
        (fun position => (upstream.peer_indices_for_pool false).getD position 0) := by
    rw [horder, List.head?_map, hhead]
  rw [hfind, hhead'] at hfirst
  have hprimary : upstream.select_peers_in_pool call.resolved cursor call.client_ip call.limit false =
      (select_available_peers call.resolved ordered call.limit, cursor + 1) := by
    unfold Upstream.select_peers_in_pool
    rw [hpool, hcursor]
  generalize select_available_peers call.resolved ordered call.limit = primary at *
  -- there is a first choice, so the primary pool is not passed over
  obtain ⟨position, hposition⟩ := Option.isSome_iff_exists.mp
    (weighted_slots.position_isSome (Nat.mod_lt cursor (Nat.pos_of_ne_zero hweight)))
  have hsome : primary.peers ≠ [] := by
    intro hnil
    rw [hnil, hposition] at hfirst
    cases hfirst
  have hbackup : ∀ limit, (upstream.select_peers_in_pool call.resolved (cursor + 1) call.client_ip
      limit true).2 = cursor + 1 + upstream.turn true :=
    fun limit => next_cursor hrobin (cursor + 1) call.client_ip true
  unfold Upstream.select_call Upstream.select_peers
  rw [if_neg (by simp [hrobin]), if_neg (by simp [has_primary_of_weight hweight]), hprimary]
  dsimp only
  rw [if_neg (by omega), if_neg hsome]
  split
  · rename_i hfull
    refine ⟨hfirst, ?_⟩
    have hnot : ¬ upstream.LooksIntoBackups call.limit := by
      rintro ⟨hmore, -⟩
      omega
    rw [Upstream.stride, if_neg hnot]
  · rename_i hmore
    refine ⟨?_, ?_⟩
    · unfold SelectedPeers.first_choice merge_selected_peers
      dsimp only
      rw [List.head?_append_of_ne_nil _ hsome]
      exact hfirst
    · have hlooks : upstream.LooksIntoBackups call.limit ↔ (upstream.weights true).sum ≠ 0 :=
        ⟨And.right, fun hweight => ⟨by omega, hweight⟩⟩
      rw [hbackup, Nat.add_assoc]
      unfold Upstream.turn Upstream.stride
      by_cases hzero : (upstream.weights true).sum = 0
      · rw [if_pos hzero, if_neg fun h => hlooks.mp h hzero]
      · rw [if_neg hzero, if_pos (hlooks.mpr hzero)]

/-- With all primary peers down, it is the first backup peer that can be selected, from the slot
on that the cursor comes to after the look into the primary pool. -/
theorem select_primaries_down {call : SelectCall} (hdown : call.PrimariesDown upstream)
    (hlimit : 1 ≤ call.limit) (cursor : Nat) :
    (upstream.select_call cursor call).1.first_choice =
        (upstream.peers_for_client_ip_in_pool (cursor + upstream.turn false) call.client_ip
          upstream.peers.length true).1.find? (fun index => (call.resolved index).available ≠ []) ∧
      (upstream.select_call cursor call).2 =
        cursor + upstream.turn false + upstream.turn true := by
  have hbackup : ∀ cursor, (upstream.select_peers_in_pool call.resolved cursor call.client_ip
      call.limit true).1.first_choice = (upstream.peers_for_client_ip_in_pool cursor call.client_ip
        upstream.peers.length true).1.find? (fun index => (call.resolved index).available ≠ []) ∧
      (upstream.select_peers_in_pool call.resolved cursor call.client_ip call.limit true).2 =
        cursor + upstream.turn true :=
    fun cursor => ⟨select_available_first _ _ hlimit, next_cursor hrobin cursor _ true⟩
  unfold Upstream.select_call Upstream.select_peers
  rw [if_neg (by simp [hrobin])]
  cases hprimary : upstream.has_primary_peers with
  | false =>
    rw [turn_of_no_primary hprimary]
    exact hbackup cursor
  | true =>
    have hcursor := next_cursor hrobin cursor call.client_ip false
    have hmem : ∀ index ∈ (upstream.peers_for_client_ip_in_pool cursor call.client_ip
        upstream.peers.length false).1, (call.resolved index).available = [] :=
      fun index hindex => hdown index (mem_pool_order hrobin hindex)
    have hnone := select_available_first call.resolved (upstream.peers_for_client_ip_in_pool cursor
      call.client_ip upstream.peers.length false).1 hlimit
    rw [List.find?_eq_none.mpr (by simpa using hmem), Option.map_eq_none_iff,
      List.head?_eq_none_iff] at hnone
    obtain ⟨hfirst, hlast⟩ := hbackup (cursor + upstream.turn false)
    rw [if_neg (by simp)]
    unfold Upstream.select_peers_in_pool at hfirst hlast ⊢
    dsimp only at hfirst hlast ⊢
    rw [if_neg (by omega), if_pos hnone, hcursor]
    refine ⟨?_, hlast⟩
    unfold SelectedPeers.first_choice merge_selected_peers at *
    dsimp only
    rw [hnone, List.nil_append]
    exact hfirst

end Call

/-! ## Runs of calls -/

section Runs

variable (upstream : Upstream)

def Upstream.first_choices (cursor : Nat) : List SelectCall → List (Option Nat)
  | [] => []
  | call :: calls =>
    let (selected, cursor) := upstream.select_call cursor call
    selected.first_choice :: first_choices cursor calls

/-- How often a peer is the first choice. -/
def Upstream.chosen (cursor : Nat) (calls : List SelectCall) (index : Nat) : Nat :=
  (upstream.first_choices cursor calls).count (some index)

/-- As many calls as the primary pool has weight, with limits out of these, choose each primary
peer first as often as its weight says. -/
def Upstream.PrimariesExact (limits : Set Nat) : Prop :=
  ∀ (cursor : Nat) (calls : List SelectCall), calls.length = (upstream.weights false).sum →
    (∀ call ∈ calls, call.limit ∈ limits ∧ call.PrimariesUp upstream) →
      ∀ index ∈ upstream.peer_indices_for_pool false,
        upstream.chosen cursor calls index = upstream.weight index

/-- The same of the backup pool while no primary peer can be selected, for the backup peers that
can be. -/
def Upstream.BackupsExact (limits : Set Nat) (selectable : Nat → Prop) : Prop :=
  ∀ (cursor : Nat) (calls : List SelectCall), calls.length = (upstream.weights true).sum →
    (∀ call ∈ calls, call.limit ∈ limits ∧ call.PrimariesDown upstream ∧
      ∀ index ∈ upstream.peer_indices_for_pool true,
        (call.resolved index).available ≠ [] ↔ selectable index) →
      ∀ index ∈ upstream.peer_indices_for_pool true, selectable index →
        upstream.chosen cursor calls index = upstream.weight index

variable {upstream}

theorem length_first_choices (cursor : Nat) (calls : List SelectCall) :
    (upstream.first_choices cursor calls).length = calls.length := by
  induction calls generalizing cursor with
  | nil => rfl
  | cons call calls ih => rw [Upstream.first_choices, List.length_cons, ih, List.length_cons]

theorem mem_first_choices {cursor : Nat} {calls : List SelectCall} {choice : Option Nat}
    (h : choice ∈ upstream.first_choices cursor calls) :
    ∃ call ∈ calls, ∃ cursor, choice = (upstream.select_call cursor call).1.first_choice := by
  induction calls generalizing cursor with
  | nil => cases h
  | cons call calls ih =>
    rw [Upstream.first_choices, List.mem_cons] at h
    rcases h with rfl | h
    · exact ⟨call, List.mem_cons_self, cursor, rfl⟩
    · obtain ⟨other, hother, cursor', hchoice⟩ := ih h
      exact ⟨other, List.mem_cons_of_mem _ hother, cursor', hchoice⟩

theorem chosen_cons (cursor : Nat) (call : SelectCall) (calls : List SelectCall) (index : Nat) :
    upstream.chosen cursor (call :: calls) index =
      upstream.chosen (upstream.select_call cursor call).2 calls index +
        if (upstream.select_call cursor call).1.first_choice = some index then 1 else 0 := by
  unfold Upstream.chosen
  rw [Upstream.first_choices, List.count_cons]
  simp

/-- Calls that choose by the cursor and turn it alike walk around the pool. -/
theorem chosen_walk {choose : Nat → Option Nat} {stride : Nat} (calls : List SelectCall)
    (hcalls : ∀ call ∈ calls, ∀ cursor,
      (upstream.select_call cursor call).1.first_choice = choose cursor ∧
        (upstream.select_call cursor call).2 = cursor + stride) (cursor index : Nat) :
    upstream.chosen cursor calls index =
      Nat.count (fun k => choose (cursor + stride * k) = some index) calls.length := by
  induction calls generalizing cursor with
  | nil => rfl
  | cons call calls ih =>
    obtain ⟨hfirst, hcursor⟩ := hcalls call List.mem_cons_self cursor
    have hnext : ∀ k, cursor + stride + stride * k = cursor + stride * (k + 1) := by
      intro k
      ring
    rw [chosen_cons, hfirst, hcursor, ih fun other hother => hcalls other
      (List.mem_cons_of_mem _ hother), List.length_cons, Nat.count_succ']
    simp only [hnext, Nat.mul_zero, Nat.add_zero]

/-- The peer of the slot. -/
def Upstream.peer_at (upstream : Upstream) (backup : Bool) (slot : Nat) : Option Nat :=
  (weighted_slots.position (upstream.weights backup) (slot % (upstream.weights backup).sum)).map
    fun position => (upstream.peer_indices_for_pool backup).getD position 0

theorem peer_at_eq_some_iff {backup : Bool} {slot index position : Nat}
    (h : (upstream.peer_indices_for_pool backup)[position]? = some index) :
    upstream.peer_at backup slot = some index ↔
      weighted_slots.position (upstream.weights backup)
        (slot % (upstream.weights backup).sum) = some position := by
  unfold Upstream.peer_at
  constructor
  · intro hsome
    obtain ⟨other, hother, hindex⟩ := Option.map_eq_some_iff.mp hsome
    have hbound := (weighted_slots.weight_pos hother).1
    rw [Upstream.weights, List.length_map] at hbound
    have hget : (upstream.peer_indices_for_pool backup)[other]? = some index := by
      rw [← hindex]
      simp [List.getD_eq_getElem?_getD, hbound]
    have hsame := (List.getElem?_inj hbound (nodup_peer_indices backup)).mp (hget.trans h.symm)
    rw [hother, hsame]
  · intro hsome
    rw [hsome]
    simp [List.getD_eq_getElem?_getD, h]

/-- A peer of a slot is a peer of the pool with a weight. -/
theorem weight_of_peer_at {backup : Bool} {slot index : Nat}
    (h : upstream.peer_at backup slot = some index) :
    index ∈ upstream.peer_indices_for_pool backup ∧ 0 < upstream.weight index := by
  obtain ⟨position, hposition, rfl⟩ := Option.map_eq_some_iff.mp h
  obtain ⟨hbound, hweight⟩ := weighted_slots.weight_pos hposition
  rw [Upstream.weights, List.length_map] at hbound
  refine ⟨getD_mem_peer_indices hweight, ?_⟩
  simpa [Upstream.weights, List.getD_eq_getElem?_getD, hbound] using hweight

theorem peer_at_isSome {backup : Bool} (hweight : (upstream.weights backup).sum ≠ 0) (slot : Nat) :
    ∃ index, upstream.peer_at backup slot = some index := by
  obtain ⟨position, hposition⟩ := Option.isSome_iff_exists.mp
    (weighted_slots.position_isSome (Nat.mod_lt slot (Nat.pos_of_ne_zero hweight)))
  exact ⟨_, by rw [Upstream.peer_at, hposition]; rfl⟩

/-- The walks of a pool are those of its weights. -/
theorem walk_exact_iff (backup : Bool) (stride cursor : Nat) :
    (∀ index ∈ upstream.peer_indices_for_pool backup,
      Nat.count (fun k => upstream.peer_at backup (cursor + stride * k) = some index)
        (upstream.weights backup).sum = upstream.weight index) ↔
      weighted_slots.Exact (upstream.weights backup) stride cursor := by
  constructor
  · intro h position
    rcases hindex : (upstream.peer_indices_for_pool backup)[position]? with _ | index
    · have hlong : (upstream.weights backup).length ≤ position := by
        rw [Upstream.weights, List.length_map]
        exact List.getElem?_eq_none_iff.mp hindex
      rw [List.getD_eq_default _ _ hlong, Nat.count_iff_forall_not]
      intro k _ hposition
      exact absurd (weighted_slots.weight_pos hposition).1 (not_lt.mpr hlong)
    · have hcount := h index (List.mem_of_getElem? hindex)
      simp only [peer_at_eq_some_iff hindex] at hcount
      rw [hcount]
      simp [Upstream.weights, List.getD_eq_getElem?_getD, hindex]
  · intro h index hmem
    obtain ⟨position, hposition, hweight⟩ := exists_position hmem
    simp only [peer_at_eq_some_iff hposition]
    rw [h position, hweight]

/-- Only one peer of the pool has a weight. -/
def Upstream.Sole (upstream : Upstream) (backup : Bool) : Prop :=
  ∀ index ∈ upstream.peer_indices_for_pool backup, ∀ other ∈ upstream.peer_indices_for_pool backup,
    0 < upstream.weight index → 0 < upstream.weight other → index = other

/-- The stride two comes to all slots alike. -/
def Upstream.TwoIsExact (upstream : Upstream) (backup : Bool) : Prop :=
  Odd (upstream.weights backup).sum ∨ ∀ weight ∈ upstream.weights backup, Even weight

/-! ## The primary pool -/

variable (hrobin : upstream.load_balance = .RoundRobin)

/-- A call to endpoints that are all up. -/
def upCall (limit : Nat) : SelectCall :=
  ⟨.V4 0, limit, fun _ => ⟨[(0, ⟨"", "", "", 1, none⟩)], 0⟩⟩

theorem upCall_up (limit : Nat) : (upCall limit).PrimariesUp upstream :=
  fun _ _ => ⟨_, rfl⟩

include hrobin

theorem chosen_up {calls : List SelectCall} {stride : Nat}
    (hweight : (upstream.weights false).sum ≠ 0)
    (hcalls : ∀ call ∈ calls, 1 ≤ call.limit ∧ call.PrimariesUp upstream ∧
      upstream.stride call.limit = stride) (cursor index : Nat) :
    upstream.chosen cursor calls index =
      Nat.count (fun k => upstream.peer_at false (cursor + stride * k) = some index)
        calls.length := by
  refine chosen_walk calls ?_ cursor index
  intro call hcall cursor
  obtain ⟨hlimit, hup, hstride⟩ := hcalls call hcall
  rw [← hstride]
  exact select_primaries_up hrobin hup hlimit hweight cursor

/-- A sole peer is every first choice. -/
theorem chosen_of_sole (hsole : upstream.Sole false) {calls : List SelectCall}
    (hweight : (upstream.weights false).sum ≠ 0)
    (hcalls : ∀ call ∈ calls, 1 ≤ call.limit ∧ call.PrimariesUp upstream) (cursor : Nat)
    {index : Nat} (hindex : index ∈ upstream.peer_indices_for_pool false) :
    upstream.chosen cursor calls index =
      if 0 < upstream.weight index then calls.length else 0 := by
  induction calls generalizing cursor with
  | nil => simp [Upstream.chosen, Upstream.first_choices]
  | cons call calls ih =>
    obtain ⟨hlimit, hup⟩ := hcalls call List.mem_cons_self
    have hfirst := (select_primaries_up hrobin hup hlimit hweight cursor).1
    obtain ⟨sole, hsole'⟩ := peer_at_isSome hweight cursor
    obtain ⟨hmem, hpos⟩ := weight_of_peer_at hsole'
    have hchoice : (upstream.select_call cursor call).1.first_choice = some sole :=
      hfirst.trans hsole'
    rw [chosen_cons, hchoice, ih fun other hother => hcalls other (List.mem_cons_of_mem _ hother)]
    by_cases hown : 0 < upstream.weight index
    · rw [if_pos hown, if_pos hown, hsole sole hmem index hindex hpos hown]
      simp
    · have hne : sole ≠ index := by
        rintro rfl
        exact hown hpos
      rw [if_neg hown, if_neg hown]
      simp [hne]

omit hrobin in
/-- The sole peer has all the weight. -/
theorem weight_of_sole (hsole : upstream.Sole false) {index : Nat}
    (hindex : index ∈ upstream.peer_indices_for_pool false) :
    upstream.weight index =
      if 0 < upstream.weight index then (upstream.weights false).sum else 0 := by
  split
  · rename_i hown
    have hwalk : weighted_slots.Exact (upstream.weights false) 1 0 :=
      weighted_slots.exact_of_coprime (Nat.coprime_one_left _) 0
    have hexact := (walk_exact_iff false 1 0).mpr hwalk index hindex
    rw [← hexact, Nat.count_iff_forall]
    intro k hk
    have hweight : (upstream.weights false).sum ≠ 0 := by omega
    obtain ⟨other, hother⟩ := peer_at_isSome hweight (0 + 1 * k)
    obtain ⟨hmem, hpos⟩ := weight_of_peer_at hother
    rw [hother, hsole other hmem index hindex hpos hown]
  · omega

/-- Calls of both strides are exact only for a sole peer. -/
theorem sole_of_strides {limits : Set Nat} (hlimits : ∀ limit ∈ limits, 1 ≤ limit)
    (hexact : upstream.PrimariesExact limits) {short long : Nat} (hshort : short ∈ limits)
    (hlong : long ∈ limits) (hone : ¬ upstream.LooksIntoBackups short)
    (htwo : upstream.LooksIntoBackups long) : upstream.Sole false := by
  intro index hindex other hother hpos hpos'
  obtain ⟨position, hposition, hweight⟩ := exists_position hindex
  obtain ⟨position', hposition', hweight'⟩ := exists_position hother
  rw [← hweight] at hpos
  rw [← hweight'] at hpos'
  have hsum : (upstream.weights false).sum ≠ 0 := by
    obtain ⟨slot, hslot, -⟩ := weighted_slots.exists_slot hpos
    omega
  obtain ⟨n, hn⟩ := Nat.exists_eq_succ_of_ne_zero hsum
  suffices hnext : ∀ slot, upstream.peer_at false (slot + 1) = upstream.peer_at false slot by
    have hsame : position = position' := by
      refine weighted_slots.sole_of_next ?_ hpos hpos'
      intro slot
      obtain ⟨chosen, hchosen⟩ := peer_at_isSome hsum slot
      obtain ⟨at_slot, hat, -⟩ := exists_position (weight_of_peer_at hchosen).1
      rw [(peer_at_eq_some_iff hat).mp hchosen,
        (peer_at_eq_some_iff hat).mp ((hnext slot).trans hchosen)]
    rw [hsame] at hposition
    exact Option.some.inj (hposition.symm.trans hposition')
  intro slot
  obtain ⟨chosen, hchosen⟩ := peer_at_isSome hsum (slot + 1)
  have hmem := (weight_of_peer_at hchosen).1
  -- two runs that differ in the stride of their first call
  have hcalls : ∀ limit ∈ limits, ∀ call ∈ upCall limit :: List.replicate n (upCall short),
      call.limit ∈ limits ∧ call.PrimariesUp upstream := by
    intro limit hlimit call hcall
    rcases List.mem_cons.mp hcall with rfl | hcall
    · exact ⟨hlimit, upCall_up _⟩
    · obtain rfl := List.eq_of_mem_replicate hcall
      exact ⟨hshort, upCall_up _⟩
  have hrest : ∀ cursor, upstream.chosen cursor (List.replicate n (upCall short)) chosen =
      Nat.count (fun k => upstream.peer_at false (cursor + 1 * k) = some chosen) n := by
    intro cursor
    have hup : ∀ call ∈ List.replicate n (upCall short), 1 ≤ call.limit ∧
        call.PrimariesUp upstream ∧ upstream.stride call.limit = 1 := by
      intro call hcall
      obtain rfl := List.eq_of_mem_replicate hcall
      exact ⟨hlimits short hshort, upCall_up _, if_neg hone⟩
    rw [chosen_up hrobin hsum hup, List.length_replicate]
  have hrun : ∀ limit ∈ limits, Nat.count (fun k =>
      upstream.peer_at false (slot + upstream.stride limit + 1 * k) = some chosen) n +
        (if upstream.peer_at false slot = some chosen then 1 else 0) = upstream.weight chosen := by
    intro limit hlimit
    have hup : (upCall limit).PrimariesUp upstream := upCall_up limit
    obtain ⟨hfirst, hcursor⟩ := select_primaries_up hrobin hup (hlimits limit hlimit) hsum slot
    have hrun := hexact slot (upCall limit :: List.replicate n (upCall short)) (by simp [hn])
      (hcalls limit hlimit) chosen hmem
    rw [chosen_cons, hfirst, hcursor, hrest] at hrun
    exact hrun
  have hshort' := hrun short hshort
  have hlong' := hrun long hlong
  rw [Upstream.stride, if_neg hone] at hshort'
  rw [Upstream.stride, if_pos htwo] at hlong'
  have hfront := Nat.count_succ' (fun k => upstream.peer_at false (slot + 1 + k) = some chosen) n
  have hback := Nat.count_succ (fun k => upstream.peer_at false (slot + 1 + k) = some chosen) n
  have hshift : ∀ k, slot + 1 + (k + 1) = slot + 2 + k := by omega
  simp only [Nat.one_mul, hshift, Nat.add_zero] at hshort' hlong' hfront hback
  rw [if_pos hchosen] at hfront
  have hlast : upstream.peer_at false (slot + 1 + n) = some chosen := by
    by_contra hnot
    rw [if_neg hnot] at hback
    omega
  have haround : upstream.peer_at false (slot + 1 + n) = upstream.peer_at false slot := by
    unfold Upstream.peer_at
    rw [Nat.add_assoc, Nat.add_comm 1 n, ← Nat.succ_eq_add_one, ← hn, Nat.add_mod_right]
  rw [hchosen, ← haround, hlast]

/-- With all primary peers up, round robin is exact when no call looks into the backup pool, when
all do and that stride is exact, or when there is no choice. -/
theorem primaries_exact_iff {limits : Set Nat} (hlimits : ∀ limit ∈ limits, 1 ≤ limit)
    (hsome : limits.Nonempty) :
    upstream.PrimariesExact limits ↔
      (∀ limit ∈ limits, ¬ upstream.LooksIntoBackups limit) ∨
      ((∀ limit ∈ limits, upstream.LooksIntoBackups limit) ∧ upstream.TwoIsExact false) ∨
      upstream.Sole false := by
  constructor
  · intro hexact
    by_cases hall : ∀ limit ∈ limits, upstream.LooksIntoBackups limit
    · refine .inr (.inl ⟨hall, ?_⟩)
      obtain ⟨limit, hlimit⟩ := hsome
      have hweight : (upstream.weights false).sum ≠ 0 ∨ (upstream.weights false).sum = 0 := by
        omega
      rcases hweight with hweight | hzero
      · have hup : ∀ call ∈ List.replicate (upstream.weights false).sum (upCall limit),
            1 ≤ call.limit ∧ call.PrimariesUp upstream ∧ upstream.stride call.limit = 2 := by
          intro call hcall
          obtain rfl := List.eq_of_mem_replicate hcall
          exact ⟨hlimits limit hlimit, upCall_up _, if_pos (hall limit hlimit)⟩
        refine (weighted_slots.exact_two_iff 0).mp ((walk_exact_iff false 2 0).mp ?_)
        intro index hindex
        have hrun := hexact 0 (List.replicate (upstream.weights false).sum (upCall limit))
          List.length_replicate (by
            intro call hcall
            obtain rfl := List.eq_of_mem_replicate hcall
            exact ⟨hlimit, upCall_up _⟩) index hindex
        rw [chosen_up hrobin hweight hup, List.length_replicate] at hrun
        exact hrun
      · right
        intro weight hmem
        rw [List.sum_eq_zero_iff.mp hzero weight hmem]
        exact Even.zero
    · by_cases hnone : ∀ limit ∈ limits, ¬ upstream.LooksIntoBackups limit
      · exact .inl hnone
      · simp only [not_forall, not_not] at hall hnone
        obtain ⟨short, hshort, hone⟩ := hall
        obtain ⟨long, hlong, htwo⟩ := hnone
        exact .inr (.inr (sole_of_strides hrobin hlimits hexact hshort hlong hone htwo))
  · intro hcondition cursor calls hlength hcalls index hindex
    by_cases hzero : (upstream.weights false).sum = 0
    · rw [hzero, List.length_eq_zero_iff] at hlength
      obtain ⟨position, -, hweight⟩ := exists_position hindex
      have hnone : upstream.weight index = 0 := by
        by_contra hpos
        obtain ⟨slot, hslot, -⟩ := weighted_slots.exists_slot
          (hweight ▸ Nat.pos_of_ne_zero hpos : 0 < (upstream.weights false).getD position 0)
        omega
      rw [hlength, hnone]
      rfl
    have hwalk : ∀ stride, (∀ limit ∈ limits, upstream.stride limit = stride) →
        weighted_slots.Exact (upstream.weights false) stride cursor →
          upstream.chosen cursor calls index = upstream.weight index := by
      intro stride hstride hexact
      rw [chosen_up hrobin hzero (fun call hcall => ⟨hlimits _ (hcalls call hcall).1,
        (hcalls call hcall).2, hstride _ (hcalls call hcall).1⟩), hlength]
      exact (walk_exact_iff false stride cursor).mpr hexact index hindex
    rcases hcondition with hnone | ⟨hall, htwo⟩ | hsole
    · exact hwalk 1 (fun limit hlimit => if_neg (hnone limit hlimit))
        (weighted_slots.exact_of_coprime (Nat.coprime_one_left _) cursor)
    · exact hwalk 2 (fun limit hlimit => if_pos (hall limit hlimit))
        ((weighted_slots.exact_two_iff cursor).mpr htwo)
    · rw [chosen_of_sole hrobin hsole hzero (fun call hcall => ⟨hlimits _ (hcalls call hcall).1,
        (hcalls call hcall).2⟩) cursor hindex, hlength]
      exact (weight_of_sole hsole hindex).symm

/-! ## The backup pool -/

/-- With no primary peer up, the first choice is a backup peer that can be selected. -/
theorem first_choice_down {call : SelectCall} (hdown : call.PrimariesDown upstream)
    (hlimit : 1 ≤ call.limit) (hweight : (upstream.weights true).sum ≠ 0) {cursor index : Nat}
    (h : (upstream.select_call cursor call).1.first_choice = some index) :
    index ∈ upstream.peer_indices_for_pool true ∧ 0 < upstream.weight index ∧
      (call.resolved index).available ≠ [] := by
  rw [(select_primaries_down hrobin hdown hlimit cursor).1] at h
  obtain ⟨positions, horder, -, hmem, -⟩ := pool_order hrobin hweight
    (cursor + upstream.turn false) call.client_ip
  have hfound := List.mem_of_find?_eq_some h
  have havailable := List.find?_some h
  rw [horder] at hfound
  obtain ⟨position, hposition, rfl⟩ := List.mem_map.mp hfound
  have hpos := (hmem position).mp hposition
  have hindex := getD_mem_peer_indices hpos
  refine ⟨hindex, ?_, by simpa using havailable⟩
  have hbound : position < (upstream.peer_indices_for_pool true).length := by
    by_contra hlong
    rw [List.getD_eq_default _ _ (by simpa [Upstream.weights] using hlong)] at hpos
    cases hpos
  simpa [Upstream.weights, List.getD_eq_getElem?_getD, hbound] using hpos

/-- There is one, when one with a weight can be selected. -/
theorem first_choice_isSome {call : SelectCall} (hdown : call.PrimariesDown upstream)
    (hlimit : 1 ≤ call.limit) (cursor : Nat) {index : Nat}
    (hindex : index ∈ upstream.peer_indices_for_pool true) (hpos : 0 < upstream.weight index)
    (havailable : (call.resolved index).available ≠ []) :
    ∃ first, (upstream.select_call cursor call).1.first_choice = some first := by
  obtain ⟨position, hposition, hweight⟩ := exists_position hindex
  rw [← hweight] at hpos
  have hsum : (upstream.weights true).sum ≠ 0 := by
    obtain ⟨slot, hslot, -⟩ := weighted_slots.exists_slot hpos
    omega
  obtain ⟨positions, horder, -, hmem, -⟩ := pool_order hrobin hsum
    (cursor + upstream.turn false) call.client_ip
  rw [(select_primaries_down hrobin hdown hlimit cursor).1, ← Option.isSome_iff_exists,
    List.find?_isSome, horder]
  refine ⟨index, List.mem_map.mpr ⟨position, (hmem position).mpr hpos, ?_⟩, by simpa using havailable⟩
  simp [List.getD_eq_getElem?_getD, hposition]

/-- Where all backup peers with a weight can be selected, it is the peer of the slot that the
look into the primary pool leaves the cursor at. -/
theorem select_backups_up {call : SelectCall} (hdown : call.PrimariesDown upstream)
    (hlimit : 1 ≤ call.limit) (hweight : (upstream.weights true).sum ≠ 0)
    (hup : ∀ index ∈ upstream.peer_indices_for_pool true, 0 < upstream.weight index →
      (call.resolved index).available ≠ []) (cursor : Nat) :
    (upstream.select_call cursor call).1.first_choice =
        upstream.peer_at true (cursor + upstream.turn false) ∧
      (upstream.select_call cursor call).2 = cursor + (upstream.turn false + 1) := by
  obtain ⟨hfirst, hcursor⟩ := select_primaries_down hrobin hdown hlimit cursor
  have hturn : upstream.turn true = 1 := if_neg hweight
  obtain ⟨positions, horder, -, -, hhead⟩ := pool_order hrobin hweight
    (cursor + upstream.turn false) call.client_ip
  refine ⟨?_, by rw [hcursor, hturn, Nat.add_assoc]⟩
  obtain ⟨first, hsome⟩ := peer_at_isSome hweight (cursor + upstream.turn false)
  obtain ⟨hindex, hpos⟩ := weight_of_peer_at hsome
  have hstart : (positions.map fun position =>
      (upstream.peer_indices_for_pool true).getD position 0).head? = some first := by
    rw [List.head?_map, hhead]
    exact hsome
  obtain ⟨rest, hrest⟩ := List.head?_eq_some_iff.mp hstart
  rw [hfirst, horder, hrest, hsome, List.find?_cons_of_pos (by simpa using hup first hindex hpos)]

omit hrobin in
theorem count_sum {indices : List Nat} (hnodup : indices.Nodup) {choices : List (Option Nat)}
    (h : ∀ choice ∈ choices, ∃ index ∈ indices, choice = some index) :
    (indices.map fun index => choices.count (some index)).sum = choices.length := by
  induction choices with
  | nil => simp
  | cons choice choices ih =>
    obtain ⟨index, hindex, rfl⟩ := h choice List.mem_cons_self
    have hone : (indices.map fun other => if some index == some other then 1 else 0).sum = 1 := by
      rw [← List.sum_toFinset _ hnodup]
      simp [hindex]
    simp only [List.count_cons]
    rw [List.sum_map_add, ih fun other hother => h other (List.mem_cons_of_mem _ hother), hone,
      List.length_cons]

open Classical in
/-- A call to which the selectable backup peers are up, and no other peer. -/
noncomputable def downCall (upstream : Upstream) (selectable : Nat → Prop) (limit : Nat) :
    SelectCall :=
  ⟨.V4 0, limit, fun index =>
    if index ∈ upstream.peer_indices_for_pool true ∧ selectable index then
      ⟨[(0, ⟨"", "", "", 1, none⟩)], 0⟩
    else ⟨[], 0⟩⟩

omit hrobin in
theorem downCall_down (selectable : Nat → Prop) (limit : Nat) :
    (downCall upstream selectable limit).PrimariesDown upstream ∧
      ∀ index ∈ upstream.peer_indices_for_pool true,
        ((downCall upstream selectable limit).resolved index).available ≠ [] ↔
          selectable index := by
  refine ⟨?_, ?_⟩
  · intro index hindex
    have hbackup : index ∉ upstream.peer_indices_for_pool true := by
      intro hother
      obtain ⟨peer, hpeer, hprimary⟩ := mem_peer_indices.mp hindex
      obtain ⟨peer', hpeer', hbackup⟩ := mem_peer_indices.mp hother
      obtain rfl := Option.some.inj (hpeer.symm.trans hpeer')
      rw [hprimary] at hbackup
      cases hbackup
    simp [downCall, hbackup]
  · intro index hindex
    by_cases hselectable : selectable index
    · simp [downCall, hindex, hselectable]
    · simp [downCall, hselectable]

/-- A weighted backup peer that cannot be selected leaves its share to the others. -/
theorem all_selectable_of_exact {limits : Set Nat} {selectable : Nat → Prop}
    (hlimits : ∀ limit ∈ limits, 1 ≤ limit) (hsome : limits.Nonempty)
    (hexact : upstream.BackupsExact limits selectable) {index : Nat}
    (hindex : index ∈ upstream.peer_indices_for_pool true) (hpos : 0 < upstream.weight index)
    (hselectable : selectable index) :
    ∀ other ∈ upstream.peer_indices_for_pool true, 0 < upstream.weight other →
      selectable other := by
  intro other hother hpos'
  by_contra hnot
  obtain ⟨limit, hlimit⟩ := hsome
  have hlimit' := hlimits limit hlimit
  have hcall : (downCall upstream selectable limit).PrimariesDown upstream ∧ _ :=
    downCall_down selectable limit
  obtain ⟨hdown, havailable⟩ := hcall
  have hweight : (upstream.weights true).sum ≠ 0 := by
    obtain ⟨position, -, hposition⟩ := exists_position hindex
    obtain ⟨slot, hslot, -⟩ := weighted_slots.exists_slot
      (hposition ▸ hpos : 0 < (upstream.weights true).getD position 0)
    omega
  have hfirst : ∀ choice ∈ upstream.first_choices 0
      (List.replicate (upstream.weights true).sum (downCall upstream selectable limit)),
      ∃ first ∈ upstream.peer_indices_for_pool true, choice = some first ∧ selectable first := by
    intro choice hchoice
    obtain ⟨call, hcall, cursor, rfl⟩ := mem_first_choices hchoice
    obtain rfl := List.eq_of_mem_replicate hcall
    obtain ⟨first, hfirst⟩ := first_choice_isSome hrobin hdown (hlimits limit hlimit) cursor hindex
      hpos ((havailable index hindex).mpr hselectable)
    obtain ⟨hmem, -, hup⟩ := first_choice_down hrobin hdown (hlimits limit hlimit) hweight hfirst
    exact ⟨first, hmem, hfirst, (havailable first hmem).mp hup⟩
  have hrun : ∀ first ∈ upstream.peer_indices_for_pool true, selectable first →
      upstream.chosen 0 (List.replicate (upstream.weights true).sum
        (downCall upstream selectable limit)) first = upstream.weight first := by
    refine hexact 0 _ List.length_replicate ?_
    intro call hcall
    obtain rfl := List.eq_of_mem_replicate hcall
    exact ⟨hlimit, hdown, havailable⟩
  have hnever : ∀ first, ¬ selectable first →
      upstream.chosen 0 (List.replicate (upstream.weights true).sum
        (downCall upstream selectable limit)) first = 0 := by
    intro first hdenied
    rw [Upstream.chosen, List.count_eq_zero]
    intro hmem
    obtain ⟨same, -, hsame, hallowed⟩ := hfirst _ hmem
    obtain rfl := Option.some.inj hsame
    exact hdenied hallowed
  -- the choices of the selectable peers do not add up to all the calls
  have hsum := count_sum (nodup_peer_indices true) fun choice hchoice => by
    obtain ⟨first, hmem, hsame, -⟩ := hfirst choice hchoice
    exact ⟨first, hmem, hsame⟩
  rw [length_first_choices, List.length_replicate] at hsum
  have hless : ((upstream.peer_indices_for_pool true).map fun first => upstream.chosen 0
      (List.replicate (upstream.weights true).sum (downCall upstream selectable limit)) first).sum <
        ((upstream.peer_indices_for_pool true).map upstream.weight).sum := by
    refine List.sum_lt_sum _ _ ?_ ⟨other, hother, ?_⟩
    · intro first hmem
      by_cases hallowed : selectable first
      · exact (hrun first hmem hallowed).le
      · rw [hnever first hallowed]
        exact Nat.zero_le _
    · rw [hnever other hnot]
      exact hpos'
  exact absurd hsum hless.ne

theorem chosen_backups {calls : List SelectCall} (hweight : (upstream.weights true).sum ≠ 0)
    (hcalls : ∀ call ∈ calls, 1 ≤ call.limit ∧ call.PrimariesDown upstream ∧
      ∀ index ∈ upstream.peer_indices_for_pool true, 0 < upstream.weight index →
        (call.resolved index).available ≠ []) (cursor index : Nat) :
    upstream.chosen cursor calls index =
      Nat.count (fun k => upstream.peer_at true
        (cursor + upstream.turn false + (upstream.turn false + 1) * k) = some index)
        calls.length := by
  have hshift : ∀ k, cursor + (upstream.turn false + 1) * k + upstream.turn false =
      cursor + upstream.turn false + (upstream.turn false + 1) * k := by
    intro k
    ring
  have hwalk : ∀ call ∈ calls, ∀ cursor,
      (upstream.select_call cursor call).1.first_choice =
          (fun cursor => upstream.peer_at true (cursor + upstream.turn false)) cursor ∧
        (upstream.select_call cursor call).2 = cursor + (upstream.turn false + 1) := by
    intro call hcall cursor
    obtain ⟨hlimit, hdown, hup⟩ := hcalls call hcall
    exact select_backups_up hrobin hdown hlimit hweight hup cursor
  rw [chosen_walk calls hwalk]
  simp only [hshift]

omit hrobin in
/-- A pool without a weight has no peer with one. -/
theorem weight_of_sum {backup : Bool} (hzero : (upstream.weights backup).sum = 0) {index : Nat}
    (hindex : index ∈ upstream.peer_indices_for_pool backup) : upstream.weight index = 0 :=
  List.sum_eq_zero_iff.mp hzero _ (List.mem_map_of_mem hindex)

/-- With no primary peer up, round robin is exact when all backup peers with a weight can be
selected, and the looks into the primary pool do not turn the cursor or leave the walk exact. -/
theorem backups_exact_iff {limits : Set Nat} (hlimits : ∀ limit ∈ limits, 1 ≤ limit)
    (hsome : limits.Nonempty) (selectable : Nat → Prop) :
    upstream.BackupsExact limits selectable ↔
      (∀ index ∈ upstream.peer_indices_for_pool true, selectable index →
        upstream.weight index = 0) ∨
      ((∀ index ∈ upstream.peer_indices_for_pool true, 0 < upstream.weight index →
          selectable index) ∧
        ((upstream.weights false).sum = 0 ∨ upstream.TwoIsExact true)) := by
  constructor
  · intro hexact
    by_cases hnone : ∀ index ∈ upstream.peer_indices_for_pool true, selectable index →
        upstream.weight index = 0
    · exact .inl hnone
    simp only [not_forall] at hnone
    obtain ⟨index, hindex, hselectable, hpos⟩ := hnone
    have hall := all_selectable_of_exact hrobin hlimits hsome hexact hindex
      (Nat.pos_of_ne_zero hpos) hselectable
    have hweight : (upstream.weights true).sum ≠ 0 := fun hzero => hpos (weight_of_sum hzero hindex)
    refine .inr ⟨hall, ?_⟩
    by_cases hprimary : (upstream.weights false).sum = 0
    · exact .inl hprimary
    refine .inr ((weighted_slots.exact_two_iff 1).mp ((walk_exact_iff true 2 1).mp ?_))
    intro other hother
    obtain ⟨limit, hlimit⟩ := hsome
    have hdown : (downCall upstream selectable limit).PrimariesDown upstream ∧ _ :=
      downCall_down selectable limit
    have hcalls : ∀ call ∈ List.replicate (upstream.weights true).sum
        (downCall upstream selectable limit), 1 ≤ call.limit ∧ call.PrimariesDown upstream ∧
          ∀ index ∈ upstream.peer_indices_for_pool true, 0 < upstream.weight index →
            (call.resolved index).available ≠ [] := by
      intro call hcall
      obtain rfl := List.eq_of_mem_replicate hcall
      exact ⟨hlimits limit hlimit, hdown.1, fun first hfirst hown =>
        (hdown.2 first hfirst).mpr (hall first hfirst hown)⟩
    have hrun := chosen_backups hrobin hweight hcalls 0 other
    have hturn : upstream.turn false = 1 := if_neg hprimary
    rw [hturn, List.length_replicate] at hrun
    rw [← hrun]
    by_cases hown : selectable other
    · refine hexact 0 _ List.length_replicate ?_ other hother hown
      intro call hcall
      obtain rfl := List.eq_of_mem_replicate hcall
      exact ⟨hlimit, hdown⟩
    · have hlight : upstream.weight other = 0 := by
        by_contra hheavy
        exact hown (hall other hother (Nat.pos_of_ne_zero hheavy))
      rw [hlight, Upstream.chosen, List.count_eq_zero]
      intro hmem
      obtain ⟨call, hcall, cursor, hchoice⟩ := mem_first_choices hmem
      obtain ⟨hlimit, hdown, -⟩ := hcalls call hcall
      have hheavy := (first_choice_down hrobin hdown hlimit hweight hchoice.symm).2.1
      omega
  · intro hcondition cursor calls hlength hcalls index hindex hselectable
    by_cases hzero : (upstream.weights true).sum = 0
    · rw [hzero, List.length_eq_zero_iff] at hlength
      rw [hlength, weight_of_sum hzero hindex]
      rfl
    rcases hcondition with hnone | ⟨hall, hstride⟩
    · rw [hnone index hindex hselectable, Upstream.chosen, List.count_eq_zero]
      intro hmem
      obtain ⟨call, hcall, cursor, hchoice⟩ := mem_first_choices hmem
      obtain ⟨hlimit, hdown, havailable⟩ := hcalls call hcall
      obtain ⟨-, hheavy, -⟩ :=
        first_choice_down hrobin hdown (hlimits _ hlimit) hzero hchoice.symm
      have hlight := hnone index hindex hselectable
      omega
    · have hup : ∀ call ∈ calls, 1 ≤ call.limit ∧ call.PrimariesDown upstream ∧
          ∀ index ∈ upstream.peer_indices_for_pool true, 0 < upstream.weight index →
            (call.resolved index).available ≠ [] := by
        intro call hcall
        obtain ⟨hlimit, hdown, havailable⟩ := hcalls call hcall
        exact ⟨hlimits _ hlimit, hdown, fun first hfirst hown =>
          (havailable first hfirst).mpr (hall first hfirst hown)⟩
      rw [chosen_backups hrobin hzero hup, hlength]
      refine (walk_exact_iff true _ _).mpr ?_ index hindex
      by_cases hprimary : (upstream.weights false).sum = 0
      · have hturn : upstream.turn false = 0 := if_pos hprimary
        rw [hturn]
        exact weighted_slots.exact_of_coprime (Nat.coprime_one_left _) _
      · have hturn : upstream.turn false = 1 := if_neg hprimary
        rw [hturn]
        exact (weighted_slots.exact_two_iff _).mpr (hstride.resolve_left hprimary)

/-- Round robin is exact, over as many calls as the pool has weight, exactly when the looks into
the other pool leave it so: for the primary pool while it is up, and for the backup pool while the
primary one is down. -/
theorem round_robin_is_exact_iff (limits : Set Nat) (hlimits : ∀ limit ∈ limits, 1 ≤ limit)
    (hsome : limits.Nonempty) :
    (upstream.PrimariesExact limits ↔
      (∀ limit ∈ limits, ¬ upstream.LooksIntoBackups limit) ∨
      ((∀ limit ∈ limits, upstream.LooksIntoBackups limit) ∧ upstream.TwoIsExact false) ∨
      upstream.Sole false) ∧
    ∀ selectable : Nat → Prop, upstream.BackupsExact limits selectable ↔
      (∀ index ∈ upstream.peer_indices_for_pool true, selectable index →
        upstream.weight index = 0) ∨
      ((∀ index ∈ upstream.peer_indices_for_pool true, 0 < upstream.weight index →
          selectable index) ∧
        ((upstream.weights false).sum = 0 ∨ upstream.TwoIsExact true)) :=
  ⟨primaries_exact_iff hrobin hlimits hsome, backups_exact_iff hrobin hlimits hsome⟩

end Runs

/-! ## Two backups -/

/-- A primary peer and two backup peers, all of weight one. -/
def twoBackups : Upstream where
  name := "api"
  peers := [⟨"http://10.0.0.1:80", "http", "10.0.0.1:80", 1, false, none⟩,
    ⟨"http://10.0.0.2:80", "http", "10.0.0.2:80", 1, true, none⟩,
    ⟨"http://10.0.0.3:80", "http", "10.0.0.3:80", 1, true, none⟩]
  load_balance := .RoundRobin

/-- The primary peer takes all requests while it is up; the backups do not share them while it is
down. -/
theorem two_backups_do_not_share :
    twoBackups.PrimariesExact {1, 2} ∧ ¬ twoBackups.BackupsExact {1, 2} fun _ => True := by
  have hrobin : twoBackups.load_balance = .RoundRobin := rfl
  obtain ⟨hprimaries, hbackups⟩ := round_robin_is_exact_iff hrobin {1, 2} (by simp) ⟨1, by simp⟩
  refine ⟨hprimaries.mpr (.inr (.inr ?_)), ?_⟩
  · unfold Upstream.Sole
    decide
  · rw [hbackups]
    rintro (hnone | ⟨-, hzero | hodd | heven⟩)
    · exact absurd (hnone 1 (by decide) trivial) (by decide)
    · exact absurd hzero (by decide)
    · exact absurd hodd (by decide)
    · exact absurd (heven 1 (by decide)) (by decide)

/-- Of the two backups, one gets all requests while the primary peer is down. -/
theorem one_backup_is_never_chosen :
    ¬ ∀ limits : Set Nat, (∀ limit ∈ limits, 1 ≤ limit) →
      twoBackups.PrimariesExact limits ∧ ∀ selectable, twoBackups.BackupsExact limits selectable := by
  intro h
  have hrobin : twoBackups.load_balance = .RoundRobin := rfl
  have hlimits : ∀ limit ∈ ({2} : Set Nat), 1 ≤ limit := by simp
  have hexact := (h {2} hlimits).2 fun _ => True
  rcases (backups_exact_iff hrobin hlimits (Set.singleton_nonempty 2) fun _ => True).mp hexact with
    hnone | ⟨-, hzero | hodd | heven⟩
  · exact absurd (hnone 1 (by decide) trivial) (by decide)
  · exact absurd hzero (by decide)
  · exact absurd hodd (by decide)
  · exact absurd (heven 1 (by decide)) (by decide)

end rginx.proxy
