-- Slots of weights: a cycle in which every position has as many consecutive
-- slots as its weight, and walks around it with a stride.
import Mathlib.Data.Nat.Count
import Mathlib.Data.Nat.Periodic
import Mathlib.Algebra.BigOperators.Group.List.Basic
import Mathlib.Algebra.Group.Nat.Even
import Mathlib.Tactic.Ring

namespace weighted_slots

/-- The position that a slot belongs to. -/
def position : List Nat → Nat → Option Nat
  | [], _ => none
  | weight :: weights, slot =>
    if slot < weight then some 0 else (position weights (slot - weight)).map (· + 1)

theorem position_isSome {weights : List Nat} {slot : Nat} (h : slot < weights.sum) :
    (position weights slot).isSome := by
  induction weights generalizing slot with
  | nil => cases h
  | cons weight weights ih =>
    rw [List.sum_cons] at h
    unfold position
    split
    · rfl
    · rw [Option.isSome_map]
      exact ih (by omega)

/-- A position with a slot has a weight. -/
theorem weight_pos {weights : List Nat} {slot i : Nat} (h : position weights slot = some i) :
    i < weights.length ∧ 0 < weights.getD i 0 := by
  induction weights generalizing slot i with
  | nil => cases h
  | cons weight weights ih =>
    unfold position at h
    split at h
    · obtain rfl := Option.some.inj h
      simp
      omega
    · obtain ⟨j, hj, rfl⟩ := Option.map_eq_some_iff.mp h
      simpa using ih hj

/-- The slots of a position stand between the weights before it and its own. -/
theorem position_eq_some_iff {weights : List Nat} {slot i : Nat} :
    position weights slot = some i ↔
      (weights.take i).sum ≤ slot ∧ slot < (weights.take i).sum + weights.getD i 0 := by
  induction weights generalizing slot i with
  | nil => simp [position]
  | cons weight weights ih =>
    unfold position
    split
    · rename_i hslot
      cases i with
      | zero => simpa using hslot
      | succ i =>
        simp
        omega
    · rename_i hslot
      cases i with
      | zero =>
        simp
        omega
      | succ i =>
        simp [ih]
        omega

/-- A position has as many slots as its weight. -/
theorem count_position (weights : List Nat) (i : Nat) :
    Nat.count (fun slot => position weights slot = some i) weights.sum = weights.getD i 0 := by
  induction weights generalizing i with
  | nil => rfl
  | cons weight weights ih =>
    have hrest : ∀ k, position (weight :: weights) (weight + k) =
        (position weights k).map (· + 1) := by
      intro k
      conv_lhs => unfold position
      rw [if_neg (by omega), Nat.add_sub_cancel_left]
    rw [List.sum_cons, Nat.count_add]
    simp only [hrest]
    cases i with
    | zero =>
      have hfirst : Nat.count (fun slot => position (weight :: weights) slot = some 0) weight =
          weight := by
        rw [Nat.count_iff_forall]
        intro slot hslot
        unfold position
        rw [if_pos hslot]
      rw [hfirst]
      simp
    | succ j =>
      have hfirst : Nat.count (fun slot => position (weight :: weights) slot = some (j + 1)) weight =
          0 := by
        rw [Nat.count_iff_forall_not]
        intro slot hslot
        unfold position
        rw [if_pos hslot]
        simp
      rw [hfirst]
      simpa using ih j

/-- A position with a weight has a slot. -/
theorem exists_slot {weights : List Nat} {i : Nat} (h : 0 < weights.getD i 0) :
    ∃ slot < weights.sum, position weights slot = some i := by
  by_contra hnone
  have hnone : ∀ slot < weights.sum, ¬ position weights slot = some i :=
    fun slot hslot hposition => hnone ⟨slot, hslot, hposition⟩
  have hcount := count_position weights i
  rw [Nat.count_iff_forall_not.mpr hnone] at hcount
  omega

/-! ## Walks -/

/-- A walk with a stride that has no divisor in common with the cycle comes to every slot once. -/
theorem count_walk (P : Nat → Prop) [DecidablePred P] {n stride : Nat} (h : stride.Coprime n)
    (cursor : Nat) :
    Nat.count (fun k => P ((cursor + stride * k) % n)) n = Nat.count P n := by
  rw [Nat.count_eq_card_filter_range, Nat.count_eq_card_filter_range]
  rcases Nat.eq_zero_or_pos n with rfl | hn
  · rfl
  have hinj : Set.InjOn (fun k => (cursor + stride * k) % n) (Finset.range n) := by
    intro k hk k' hk' hsame
    have hmod : stride * k ≡ stride * k' [MOD n] := Nat.ModEq.add_left_cancel' cursor hsame
    have hmod' := Nat.ModEq.cancel_left_of_coprime (Nat.coprime_comm.mp h) hmod
    rw [Finset.coe_range, Set.mem_Iio] at hk hk'
    exact Nat.ModEq.eq_of_lt_of_lt hmod' hk hk'
  have himage : (Finset.range n).image (fun k => (cursor + stride * k) % n) = Finset.range n := by
    refine Finset.eq_of_subset_of_card_le ?_ ?_
    · intro slot hslot
      obtain ⟨k, -, rfl⟩ := Finset.mem_image.mp hslot
      exact Finset.mem_range.mpr (Nat.mod_lt _ hn)
    · rw [Finset.card_image_of_injOn hinj]
  conv_rhs => rw [← himage, Finset.filter_image]
  rw [Finset.card_image_of_injOn]
  exact hinj.mono (Finset.coe_subset.mpr (Finset.filter_subset _ _))

/-- A walk of stride two around an even cycle is the same in both halves. -/
theorem count_walk_even (P : Nat → Prop) [DecidablePred P] (n cursor : Nat) :
    Nat.count (fun k => P ((cursor + 2 * k) % (2 * n))) (2 * n) =
      2 * Nat.count (fun k => P ((cursor + 2 * k) % (2 * n))) n := by
  have hsecond : ∀ k, (cursor + 2 * (n + k)) % (2 * n) = (cursor + 2 * k) % (2 * n) := by
    intro k
    rw [Nat.mul_add, Nat.add_left_comm, Nat.add_mod_left]
  conv_lhs => rw [Nat.two_mul n, Nat.count_add]
  rw [← Nat.two_mul n]
  simp only [hsecond]
  omega

theorem position_double (weights : List Nat) (slot : Nat) :
    position (weights.map (2 * ·)) slot = position weights (slot / 2) := by
  induction weights generalizing slot with
  | nil => rfl
  | cons weight weights ih =>
    rw [List.map_cons]
    unfold position
    by_cases hslot : slot < 2 * weight
    · rw [if_pos hslot, if_pos (by omega)]
    · rw [if_neg hslot, if_neg (by omega), ih]
      congr 2
      omega

/-! ## First appearances -/

section Appearances

variable {α : Type} [DecidableEq α] (walk : Nat → Option α)

/-- How many steps are made before the walk comes to `a`. -/
def steps_before (steps : List Nat) (a : α) : Nat := steps.findIdx fun step => walk step = some a

variable {walk}

theorem steps_before_cons_self {step : Nat} {a : α} (steps : List Nat) (h : walk step = some a) :
    steps_before walk (step :: steps) a = 0 := by
  simp [steps_before, List.findIdx_cons, h]

theorem steps_before_cons_of_ne {step : Nat} {a : α} (steps : List Nat) (h : walk step ≠ some a) :
    steps_before walk (step :: steps) a = steps_before walk steps a + 1 := by
  simp [steps_before, List.findIdx_cons, h]

variable (walk) in
/-- What a walk comes to, each once, stands in the order of its first appearances. -/
theorem appearances_pairwise (steps : List Nat) (keep : α → Bool) :
    ((steps.filterMap walk).filter keep).eraseDups.Pairwise fun a b =>
      steps_before walk steps a < steps_before walk steps b := by
  induction steps generalizing keep with
  | nil => exact List.Pairwise.nil
  | cons step steps ih =>
    rcases hstep : walk step with _ | first
    · rw [List.filterMap_cons_none hstep]
      refine (ih keep).imp fun {a b} h => ?_
      rw [steps_before_cons_of_ne steps (by simp [hstep]),
        steps_before_cons_of_ne steps (by simp [hstep])]
      exact Nat.succ_lt_succ h
    · have hlater : ∀ other, first ≠ other → steps_before walk (step :: steps) other =
          steps_before walk steps other + 1 := by
        intro other hother
        apply steps_before_cons_of_ne
        rw [hstep]
        exact fun h => hother (Option.some.inj h)
      rw [List.filterMap_cons_some hstep]
      by_cases hkeep : keep first
      · rw [List.filter_cons_of_pos hkeep, List.eraseDups_cons, List.filter_filter]
        have hother : ∀ other ∈ ((steps.filterMap walk).filter fun other =>
            !other == first && keep other).eraseDups, first ≠ other := by
          rintro other hother rfl
          rw [List.mem_eraseDups, List.mem_filter] at hother
          simp at hother
        rw [List.pairwise_cons]
        constructor
        · intro other hmem
          rw [steps_before_cons_self steps hstep, hlater other (hother other hmem)]
          exact Nat.succ_pos _
        · refine (ih _).imp_of_mem fun {a b} ha hb h => ?_
          rw [hlater a (hother a ha), hlater b (hother b hb)]
          exact Nat.succ_lt_succ h
      · rw [List.filter_cons_of_neg hkeep]
        have hother : ∀ other ∈ ((steps.filterMap walk).filter keep).eraseDups, first ≠ other := by
          rintro other hother rfl
          rw [List.mem_eraseDups, List.mem_filter] at hother
          exact hkeep hother.2
        refine (ih keep).imp_of_mem fun {a b} ha hb h => ?_
        rw [hlater a (hother a ha), hlater b (hother b hb)]
        exact Nat.succ_lt_succ h

end Appearances

/-! ## Exact strides -/

variable (weights : List Nat)

/-- As many steps as there are slots come to each position as often as its weight says. -/
def Exact (stride cursor : Nat) : Prop :=
  ∀ i, Nat.count (fun k => position weights ((cursor + stride * k) % weights.sum) = some i)
    weights.sum = weights.getD i 0

variable {weights}

theorem exact_of_coprime {stride : Nat} (h : stride.Coprime weights.sum) (cursor : Nat) :
    Exact weights stride cursor := by
  intro i
  rw [count_walk (fun slot => position weights slot = some i) h, count_position]

theorem exact_of_even (h : ∀ weight ∈ weights, Even weight) (cursor : Nat) :
    Exact weights 2 cursor := by
  have hhalf : weights = (weights.map (· / 2)).map (2 * ·) := by
    rw [List.map_map]
    symm
    conv_rhs => rw [← List.map_id weights]
    refine List.map_congr_left fun weight hweight => ?_
    exact Nat.two_mul_div_two_of_even (h weight hweight)
  generalize weights.map (· / 2) = halves at hhalf
  subst hhalf
  have hsum : (halves.map (2 * ·)).sum = 2 * halves.sum := by
    simpa using List.sum_map_mul_left halves id 2
  intro i
  rw [hsum, count_walk_even (fun slot => position (halves.map (2 * ·)) slot = some i)]
  have hstep : ∀ k, position (halves.map (2 * ·)) ((cursor + 2 * k) % (2 * halves.sum)) =
      position halves ((cursor / 2 + 1 * k) % halves.sum) := by
    intro k
    rw [position_double, Nat.mod_mul_right_div_self]
    congr 2
    omega
  simp only [hstep]
  rw [exact_of_coprime (Nat.coprime_one_left _) (cursor / 2) i]
  rcases lt_or_ge i halves.length with hi | hi
  · simp [List.getD_eq_getElem?_getD, hi]
  · simp [List.getD_eq_getElem?_getD, hi]

/-- The stride two is exact around an odd cycle, or if there is no odd weight. -/
theorem exact_two_iff (cursor : Nat) :
    Exact weights 2 cursor ↔ Odd weights.sum ∨ ∀ weight ∈ weights, Even weight := by
  constructor
  · intro hexact
    rcases Nat.even_or_odd weights.sum with hsum | hsum
    · right
      intro weight hweight
      obtain ⟨n, hn⟩ := hsum.two_dvd
      obtain ⟨i, hi, rfl⟩ := List.getElem_of_mem hweight
      have hcount := hexact i
      rw [hn, count_walk_even (fun slot => position weights slot = some i)] at hcount
      have hweight : weights.getD i 0 = weights[i] := by
        simp [List.getD_eq_getElem?_getD, hi]
      rw [← hweight, ← hcount]
      exact even_two_mul _
    · exact .inl hsum
  · rintro (hsum | heven)
    · exact exact_of_coprime (Nat.coprime_two_left.mpr hsum) cursor
    · exact exact_of_even heven cursor

/-- If every slot belongs to the position of the next one, only one position has a weight. -/
theorem sole_of_next (h : ∀ slot, position weights (slot % weights.sum) =
    position weights ((slot + 1) % weights.sum)) {i j : Nat} (hi : 0 < weights.getD i 0)
    (hj : 0 < weights.getD j 0) : i = j := by
  have hsame : ∀ slot, position weights (slot % weights.sum) = position weights (0 % weights.sum) := by
    intro slot
    induction slot with
    | zero => rfl
    | succ slot ih => rw [← h slot, ih]
  obtain ⟨slot, hslot, hposition⟩ := exists_slot hi
  obtain ⟨slot', hslot', hposition'⟩ := exists_slot hj
  have hfirst := hsame slot
  have hsecond := hsame slot'
  rw [Nat.mod_eq_of_lt hslot] at hfirst
  rw [Nat.mod_eq_of_lt hslot'] at hsecond
  exact Option.some.inj (hposition.symm.trans (hfirst.trans (hsecond.symm.trans hposition')))

end weighted_slots
