-- Ordered maps with sums. A total adds one number for each row of a map, and
-- the laws here say how an insert and an erase change it, so that a counter
-- kept beside a map can be compared with the map.
import Mathlib

open Std

namespace tree_maps

variable {α β : Type} {cmp : α → α → Ordering} [TransCmp cmp] [LawfulEqCmp cmp]

/-- The sum of `f` over the rows of the map. -/
def total (f : α → β → Nat) (m : ExtTreeMap α β cmp) : Nat :=
  (m.toList.map fun row => f row.1 row.2).sum

theorem nodup_toList (m : ExtTreeMap α β cmp) : m.toList.Nodup := by
  apply (ExtTreeMap.distinct_keys_toList (t := m)).imp
  intro a b hab he
  exact hab (by simp [he])

theorem getElem?_insert_eq [DecidableEq α] (m : ExtTreeMap α β cmp) (k a : α) (v : β) :
    (m.insert k v)[a]? = if k = a then some v else m[a]? := by
  simp [ExtTreeMap.getElem?_insert]

theorem getElem?_erase_eq [DecidableEq α] (m : ExtTreeMap α β cmp) (k a : α) :
    (m.erase k)[a]? = if k = a then none else m[a]? := by
  simp [ExtTreeMap.getElem?_erase]

theorem erase_of_none (m : ExtTreeMap α β cmp) (k : α) (h : m[k]? = none) : m.erase k = m := by
  classical
  apply ExtTreeMap.ext_getElem?
  intro a
  rw [getElem?_erase_eq]
  split
  · rename_i he; rw [← he, h]
  · rfl

/-- An insert puts its row before the rows of the other keys. -/
theorem toList_insert_perm (m : ExtTreeMap α β cmp) (k : α) (v : β) :
    (m.insert k v).toList.Perm ((k, v) :: (m.erase k).toList) := by
  classical
  have hnot : (k, v) ∉ (m.erase k).toList := by
    rw [ExtTreeMap.mem_toList_iff_getElem?_eq_some, getElem?_erase_eq]
    simp
  rw [List.perm_ext_iff_of_nodup (nodup_toList _) (List.nodup_cons.mpr ⟨hnot, nodup_toList _⟩)]
  rintro ⟨a, b⟩
  rw [List.mem_cons, ExtTreeMap.mem_toList_iff_getElem?_eq_some,
    ExtTreeMap.mem_toList_iff_getElem?_eq_some, getElem?_insert_eq, getElem?_erase_eq]
  by_cases hk : k = a
  · subst hk
    simp [eq_comm]
  · simp [hk, Ne.symm hk]

theorem insert_erase_of_some (m : ExtTreeMap α β cmp) (k : α) (v : β) (h : m[k]? = some v) :
    (m.erase k).insert k v = m := by
  classical
  apply ExtTreeMap.ext_getElem?
  intro a
  rw [getElem?_insert_eq, getElem?_erase_eq]
  split
  · rename_i he; rw [← he, h]
  · rfl

/-- What the row of a key adds to the total: nothing when the map has no such row. -/
def share (f : α → β → Nat) (m : ExtTreeMap α β cmp) (k : α) : Nat :=
  match m[k]? with
  | some v => f k v
  | none => 0

theorem total_erase (f : α → β → Nat) (m : ExtTreeMap α β cmp) (k : α) :
    total f (m.erase k) + share f m k = total f m := by
  unfold share
  rcases h : m[k]? with _ | v
  · simp [erase_of_none m k h]
  · have hp := toList_insert_perm (m.erase k) k v
    rw [insert_erase_of_some m k v h] at hp
    have herase : (m.erase k).erase k = m.erase k := by
      classical
      exact erase_of_none _ _ (by rw [getElem?_erase_eq]; simp)
    rw [herase] at hp
    have hsum := (hp.map fun row => f row.1 row.2).sum_eq
    simp only [List.map_cons, List.sum_cons] at hsum
    simp only [total]
    omega

theorem total_insert (f : α → β → Nat) (m : ExtTreeMap α β cmp) (k : α) (v : β) :
    total f (m.insert k v) = total f (m.erase k) + f k v := by
  have hsum := ((toList_insert_perm m k v).map fun row => f row.1 row.2).sum_eq
  simp only [List.map_cons, List.sum_cons] at hsum
  simp only [total]
  omega

/-- A total is zero exactly when every row adds nothing. -/
theorem total_eq_zero (f : α → β → Nat) (m : ExtTreeMap α β cmp) :
    total f m = 0 ↔ ∀ k v, m[k]? = some v → f k v = 0 := by
  simp only [total, List.sum_eq_zero_iff, List.mem_map, forall_exists_index, and_imp]
  constructor
  · intro h k v hkv
    exact h _ (k, v) (ExtTreeMap.mem_toList_iff_getElem?_eq_some.mpr hkv) rfl
  · rintro h n ⟨k, v⟩ hrow rfl
    exact h k v (ExtTreeMap.mem_toList_iff_getElem?_eq_some.mp hrow)

@[simp]
theorem total_empty (f : α → β → Nat) : total f (∅ : ExtTreeMap α β cmp) = 0 := by
  rw [total_eq_zero]
  intro k v h
  simp at h

/-! ## Several keys at once -/

/-- The map without the listed keys, taken out one after the other. -/
def eraseKeys (m : ExtTreeMap α β cmp) (keys : List α) : ExtTreeMap α β cmp :=
  keys.foldl (fun m k => m.erase k) m

omit [LawfulEqCmp cmp] in
@[simp]
theorem eraseKeys_nil (m : ExtTreeMap α β cmp) : eraseKeys m [] = m := rfl

omit [LawfulEqCmp cmp] in
@[simp]
theorem eraseKeys_cons (m : ExtTreeMap α β cmp) (k : α) (keys : List α) :
    eraseKeys m (k :: keys) = eraseKeys (m.erase k) keys := rfl

theorem getElem?_eraseKeys [DecidableEq α] (m : ExtTreeMap α β cmp) (keys : List α) (a : α) :
    (eraseKeys m keys)[a]? = if a ∈ keys then none else m[a]? := by
  induction keys generalizing m with
  | nil => simp
  | cons k keys ih =>
    rw [eraseKeys_cons, ih, getElem?_erase_eq]
    by_cases hk : k = a
    · simp [hk]
    · simp [hk, Ne.symm hk]

/-- Keys that have gone once stay gone. -/
theorem eraseKeys_eraseKeys (m : ExtTreeMap α β cmp) (keys : List α) :
    eraseKeys (eraseKeys m keys) keys = eraseKeys m keys := by
  classical
  apply ExtTreeMap.ext_getElem?
  intro a
  simp only [getElem?_eraseKeys]
  split <;> rfl

/-- The map with the listed rows, put in one after the other. -/
def insertRows (m : ExtTreeMap α β cmp) (rows : List (α × β)) : ExtTreeMap α β cmp :=
  rows.foldl (fun m row => m.insert row.1 row.2) m

theorem getElem?_insertRows_of_notMem (m : ExtTreeMap α β cmp) (rows : List (α × β)) (k : α)
    (hk : k ∉ rows.map (·.1)) : (insertRows m rows)[k]? = m[k]? := by
  classical
  induction rows generalizing m with
  | nil => rfl
  | cons row rows ih =>
    simp only [List.map_cons, List.mem_cons, not_or] at hk
    rw [insertRows, List.foldl_cons, ← insertRows, ih _ hk.2, getElem?_insert_eq,
      if_neg (Ne.symm hk.1)]

theorem getElem?_insertRows_of_mem (m : ExtTreeMap α β cmp) (rows : List (α × β)) (k : α) (v : β)
    (hrows : (rows.map (·.1)).Nodup) (hmem : (k, v) ∈ rows) :
    (insertRows m rows)[k]? = some v := by
  classical
  induction rows generalizing m with
  | nil => cases hmem
  | cons row rows ih =>
    simp only [List.map_cons, List.nodup_cons] at hrows
    rw [insertRows, List.foldl_cons, ← insertRows]
    rcases List.mem_cons.mp hmem with rfl | hmem
    · rw [getElem?_insertRows_of_notMem _ _ _ hrows.1, getElem?_insert_eq, if_pos rfl]
    · exact ih _ hrows.2 hmem

theorem getElem?_insertRows_iff (m : ExtTreeMap α β cmp) (rows : List (α × β))
    (hrows : (rows.map (·.1)).Nodup) (hnew : ∀ row ∈ rows, row.1 ∉ m) (k : α) (v : β) :
    (insertRows m rows)[k]? = some v ↔ m[k]? = some v ∨ (k, v) ∈ rows := by
  by_cases hk : k ∈ rows.map (·.1)
  · obtain ⟨⟨k', value⟩, hrow, rfl⟩ := List.mem_map.mp hk
    have hnone : m[k']? = none := ExtTreeMap.getElem?_eq_none (hnew _ hrow)
    rw [getElem?_insertRows_of_mem m rows k' value hrows hrow, hnone]
    constructor
    · intro h
      rw [← Option.some.inj h]
      exact .inr hrow
    · rintro (h | h)
      · cases h
      · rw [(Prod.mk.inj (List.inj_on_of_nodup_map hrows hrow h rfl)).2]
  · rw [getElem?_insertRows_of_notMem m rows k hk]
    exact ⟨.inl, fun h => h.resolve_right fun hrow => hk (List.mem_map_of_mem hrow)⟩

theorem size_insertRows (m : ExtTreeMap α β cmp) (rows : List (α × β))
    (hrows : (rows.map (·.1)).Nodup) (hnew : ∀ row ∈ rows, row.1 ∉ m) :
    (insertRows m rows).size = m.size + rows.length := by
  induction rows generalizing m with
  | nil => rfl
  | cons row rows ih =>
    simp only [List.map_cons, List.nodup_cons] at hrows
    rw [insertRows, List.foldl_cons, ← insertRows, ih _ hrows.2, ExtTreeMap.size_insert,
      if_neg (by simpa using hnew row List.mem_cons_self), List.length_cons]
    · omega
    · intro other hother hin
      rcases ExtTreeMap.mem_insert.mp hin with hsame | hin
      · rw [LawfulEqCmp.compare_eq_iff_eq] at hsame
        exact hrows.1 (hsame ▸ List.mem_map_of_mem hother)
      · exact hnew other (List.mem_cons_of_mem _ hother) hin

/-- New rows only add to a total. -/
theorem total_le_insertRows (f : α → β → Nat) (m : ExtTreeMap α β cmp) (rows : List (α × β))
    (hrows : (rows.map (·.1)).Nodup) (hnew : ∀ row ∈ rows, m[row.1]? = none) :
    total f m ≤ total f (insertRows m rows) := by
  classical
  induction rows generalizing m with
  | nil => rfl
  | cons row rows ih =>
    simp only [List.map_cons, List.nodup_cons] at hrows
    have hrow := hnew row (by simp)
    rw [insertRows, List.foldl_cons, ← insertRows]
    have hrest := ih (m.insert row.1 row.2) hrows.2 (by
      intro other hother
      rw [getElem?_insert_eq, if_neg]
      · exact hnew other (by simp [hother])
      · intro he
        exact hrows.1 (he ▸ List.mem_map_of_mem hother))
    rw [total_insert, erase_of_none m row.1 hrow] at hrest
    omega

theorem keys_nodup_toList (m : ExtTreeMap α β cmp) : (m.toList.map (·.1)).Nodup := by
  rw [List.nodup_iff_pairwise_ne, List.pairwise_map]
  apply (ExtTreeMap.distinct_keys_toList (t := m)).imp
  intro a b hab he
  exact hab (by simp [he])

/-- The rows were in the map, each at its turn, when they left one after the other. -/
def RowsOf (m : ExtTreeMap α β cmp) : List (α × β) → Prop
  | [] => True
  | (k, v) :: rows => m[k]? = some v ∧ RowsOf (m.erase k) rows

omit [LawfulEqCmp cmp] in
theorem RowsOf.of_append {m : ExtTreeMap α β cmp} {rows rest : List (α × β)}
    (h : RowsOf m (rows ++ rest)) : RowsOf m rows := by
  induction rows generalizing m with
  | nil => trivial
  | cons row rows ih => exact ⟨h.1, ih h.2⟩

theorem RowsOf.getElem? {m : ExtTreeMap α β cmp} {rows : List (α × β)} (h : RowsOf m rows)
    {row : α × β} (hrow : row ∈ rows) : m[row.1]? = some row.2 := by
  classical
  induction rows generalizing m with
  | nil => cases hrow
  | cons first rows ih =>
    rcases List.mem_cons.mp hrow with rfl | hrow
    · exact h.1
    · have hrest := ih h.2 hrow
      rw [getElem?_erase_eq] at hrest
      split at hrest
      · cases hrest
      · exact hrest

/-- The total over the rows that left, and over the rest. -/
theorem RowsOf.total (f : α → β → Nat) {m : ExtTreeMap α β cmp} {rows : List (α × β)}
    (h : RowsOf m rows) :
    total f (eraseKeys m (rows.map (·.1))) + (rows.map fun row => f row.1 row.2).sum =
      total f m := by
  induction rows generalizing m with
  | nil => rfl
  | cons row rows ih =>
    have hrest := ih h.2
    have herase := total_erase f m row.1
    simp only [share, show m[row.1]? = some row.2 from h.1] at herase
    simp only [List.map_cons, eraseKeys_cons, List.sum_cons]
    omega

omit [LawfulEqCmp cmp] in
theorem RowsOf.size {m : ExtTreeMap α β cmp} {rows : List (α × β)} (h : RowsOf m rows) :
    (eraseKeys m (rows.map (·.1))).size + rows.length = m.size := by
  induction rows generalizing m with
  | nil => rfl
  | cons row rows ih =>
    have hrow : m[row.1]? = some row.2 := h.1
    have hrest := ih h.2
    have hcontains : m.contains row.1 = true := by
      rw [ExtTreeMap.contains_eq_isSome_getElem?, hrow]
      rfl
    have herase := ExtTreeMap.size_erase (t := m) (k := row.1)
    have hpos : m.size ≠ 0 := by
      intro hzero
      rw [ExtTreeMap.eq_empty_iff_size_eq_zero.mpr hzero] at hrow
      simp at hrow
    rw [hcontains, if_pos rfl] at herase
    simp only [List.map_cons, eraseKeys_cons, List.length_cons]
    omega

/-! ### Maps put together -/

/-- No key stands in both maps. -/
def Apart (m m' : ExtTreeMap α β cmp) : Prop := ∀ k ∈ m, k ∉ m'

/-- The maps one after the other. Rows of a later map replace those of an earlier one. -/
def merged (m : ExtTreeMap α β cmp) (rest : List (ExtTreeMap α β cmp)) : ExtTreeMap α β cmp :=
  rest.foldl (· ∪ ·) m

omit [LawfulEqCmp cmp] in
omit [LawfulEqCmp cmp] in
theorem Apart.union_left {m m' t : ExtTreeMap α β cmp} :
    Apart (m ∪ m') t ↔ Apart m t ∧ Apart m' t := by
  unfold Apart
  simp only [ExtTreeMap.mem_union_iff, or_imp, forall_and]

omit [LawfulEqCmp cmp] in
theorem pairwise_apart_union {m next : ExtTreeMap α β cmp} {rest : List (ExtTreeMap α β cmp)} :
    (m :: next :: rest).Pairwise Apart ↔ Apart m next ∧ ((m ∪ next) :: rest).Pairwise Apart := by
  simp only [List.pairwise_cons, List.forall_mem_cons, Apart.union_left, forall_and]
  tauto

omit [LawfulEqCmp cmp] in
theorem getElem?_merged {m : ExtTreeMap α β cmp} {rest : List (ExtTreeMap α β cmp)}
    (h : (m :: rest).Pairwise Apart) {t : ExtTreeMap α β cmp} (ht : t ∈ m :: rest) {k : α}
    (hk : k ∈ t) : (merged m rest)[k]? = t[k]? := by
  induction rest generalizing m t with
  | nil =>
    rw [List.mem_singleton.mp ht]
    rfl
  | cons next rest ih =>
    obtain ⟨hnext, hrest⟩ := pairwise_apart_union.mp h
    rw [merged, List.foldl_cons, ← merged]
    rcases List.mem_cons.mp ht with rfl | ht
    · rw [ih hrest List.mem_cons_self (ExtTreeMap.mem_union_of_left hk)]
      exact ExtTreeMap.getElem?_union_of_not_mem_right (hnext k hk)
    rcases List.mem_cons.mp ht with rfl | ht
    · rw [ih hrest List.mem_cons_self (ExtTreeMap.mem_union_of_right hk)]
      exact ExtTreeMap.getElem?_union_of_not_mem_left (fun hm => hnext k hm hk)
    · exact ih hrest (List.mem_cons_of_mem _ ht) hk

omit [LawfulEqCmp cmp] in
theorem size_union_eq_iff {m m' : ExtTreeMap α β cmp} :
    (m ∪ m').size = m.size + m'.size ↔ Apart m m' := by
  constructor
  · intro h k hk hk'
    have hboth : m.size + m'.size = (m ∪ m').size + (m ∩ m').size :=
      ExtTreeMap.size_add_size_eq_size_union_add_size_inter
    have hnone : (m ∩ m').size = 0 := by omega
    have hin : k ∈ m ∩ m' := ExtTreeMap.mem_inter_iff.mpr ⟨hk, hk'⟩
    rw [ExtTreeMap.eq_empty_iff_size_eq_zero.mpr hnone] at hin
    exact ExtTreeMap.not_mem_empty hin
  · exact ExtTreeMap.size_union_of_not_mem

omit [LawfulEqCmp cmp] in
theorem size_merged_le (m : ExtTreeMap α β cmp) (rest : List (ExtTreeMap α β cmp)) :
    (merged m rest).size ≤ m.size + (rest.map (·.size)).sum := by
  induction rest generalizing m with
  | nil => exact Nat.le_refl _
  | cons next rest ih =>
    have hunion : (m ∪ next).size ≤ m.size + next.size := ExtTreeMap.size_union_le_size_add_size
    have hrest := ih (m ∪ next)
    rw [merged, List.foldl_cons, ← merged, List.map_cons, List.sum_cons]
    omega

omit [LawfulEqCmp cmp] in
/-- The maps put together have as many rows as the maps where no two share a key, and only
there. -/
theorem size_merged_eq_iff {m : ExtTreeMap α β cmp} {rest : List (ExtTreeMap α β cmp)} :
    (merged m rest).size = m.size + (rest.map (·.size)).sum ↔ (m :: rest).Pairwise Apart := by
  induction rest generalizing m with
  | nil => simp [merged]
  | cons next rest ih =>
    have hunion : (m ∪ next).size ≤ m.size + next.size := ExtTreeMap.size_union_le_size_add_size
    have hle := size_merged_le (m ∪ next) rest
    rw [pairwise_apart_union, ← size_union_eq_iff, ← ih, merged, List.foldl_cons, ← merged,
      List.map_cons, List.sum_cons]
    omega

end tree_maps
