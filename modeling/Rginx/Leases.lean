-- Leases in a register. A taker writes its nonce into the register when it is
-- empty, released, or not updated for longer than the age; it updates and
-- releases what it wrote only while its nonce still stands there. A taker
-- that lost its lease does not learn of it, so what the takers know is kept
-- beside the register, and compared with it.
import Mathlib

namespace leases

structure Lease (ν : Type) where
  nonce : ν
  updated : Nat
  released : Bool
  deriving DecidableEq

variable {ν : Type}

def Lease.stale (age now : Nat) (lease : Lease ν) : Bool := age < now - lease.updated

/-- What is done to a register. -/
inductive Action (ν : Type)
  | acquire (nonce : ν)
  | update (nonce : ν)
  | release (nonce : ν)
  | clear
  | none

variable [DecidableEq ν]

/-- The register after an action, and whether it succeeded. A release of a lease that is no
longer there is a success, and does nothing. -/
def step (age now : Nat) (register : Option (Lease ν)) : Action ν → Option (Lease ν) × Bool
  | .acquire nonce =>
    match register with
    | .none => (some ⟨nonce, now, false⟩, true)
    | some lease =>
      if lease.released || lease.stale age now then (some ⟨nonce, now, false⟩, true)
      else (some lease, false)
  | .update nonce =>
    match register with
    | .none => (.none, false)
    | some lease =>
      if lease.nonce = nonce then (some { lease with updated := now }, true)
      else (some lease, false)
  | .release nonce =>
    (register.map fun lease =>
      if lease.nonce = nonce then { lease with released := true } else lease, true)
  | .clear =>
    match register with
    | .none => (.none, true)
    | some lease =>
      if lease.released || lease.stale age now then (.none, true) else (some lease, true)
  | .none => (register, true)

/-- The leases that takers were granted and what they know of them, the newest first. -/
def observe (now : Nat) (grants : List (Lease ν)) : Action ν → List (Lease ν)
  | .acquire nonce => ⟨nonce, now, false⟩ :: grants
  | .update nonce =>
    grants.map fun grant => if grant.nonce = nonce then { grant with updated := now } else grant
  | .release nonce =>
    grants.map fun grant => if grant.nonce = nonce then { grant with released := true } else grant
  | .clear => grants
  | .none => grants

omit [DecidableEq ν]

/-- A taker holds a lease that it did not release and that it updated in time. -/
def Lease.Held (age now : Nat) (grant : Lease ν) : Prop :=
  grant.released = false ∧ now - grant.updated ≤ age

/-- No taker uses a nonce of an earlier one. -/
def Fresh (grants : List (Lease ν)) : Action ν → Prop
  | .acquire nonce => ∀ grant ∈ grants, grant.nonce ≠ nonce
  | _ => True

/-! ## The invariant -/

/-- The register holds the newest grant or nothing, and every grant that it does not hold is
released or out of date. -/
structure Sound (age now : Nat) (register : Option (Lease ν)) (grants : List (Lease ν)) :
    Prop where
  nodup : (grants.map Lease.nonce).Nodup
  newest : ∀ lease ∈ register, grants.head? = some lease
  lost : ∀ grant ∈ grants, register = some grant ∨ grant.released = true ∨
    grant.stale age now = true

variable {age now : Nat} {register : Option (Lease ν)} {grants : List (Lease ν)}

theorem Sound.later {later : Nat} (h : Sound age now register grants) (hle : now ≤ later) :
    Sound age later register grants := by
  refine ⟨h.nodup, h.newest, ?_⟩
  intro grant hgrant
  rcases h.lost grant hgrant with hheld | hreleased | hstale
  · exact .inl hheld
  · exact .inr (.inl hreleased)
  · refine .inr (.inr ?_)
    simp only [Lease.stale, decide_eq_true_eq] at hstale ⊢
    omega

/-- Where there is a lease in the register, the other grants have other nonces and are lost. -/
theorem Sound.cons {lease : Lease ν} (h : Sound age now (some lease) grants) :
    ∃ rest, grants = lease :: rest ∧ (∀ grant ∈ rest, grant.nonce ≠ lease.nonce) ∧
      ∀ grant ∈ rest, grant.released = true ∨ grant.stale age now = true := by
  obtain ⟨rest, rfl⟩ := List.head?_eq_some_iff.mp (h.newest lease rfl)
  have hnodup := h.nodup
  rw [List.map_cons, List.nodup_cons] at hnodup
  have hother : ∀ grant ∈ rest, grant.nonce ≠ lease.nonce := by
    intro grant hgrant hsame
    exact hnodup.1 (hsame ▸ List.mem_map_of_mem hgrant)
  refine ⟨rest, rfl, hother, ?_⟩
  intro grant hgrant
  rcases h.lost grant (List.mem_cons_of_mem _ hgrant) with hheld | hlost
  · obtain rfl := Option.some.inj hheld
    exact absurd rfl (hother _ hgrant)
  · exact hlost

/-- No two takers hold a lease at one time. -/
theorem Sound.exclusive (h : Sound age now register grants) {grant grant' : Lease ν}
    (hgrant : grant ∈ grants) (hgrant' : grant' ∈ grants) (hheld : grant.Held age now)
    (hheld' : grant'.Held age now) : grant = grant' := by
  have hregister : ∀ grant ∈ grants, grant.Held age now → register = some grant := by
    rintro grant hgrant ⟨hkept, hfresh⟩
    rcases h.lost grant hgrant with hheld | hreleased | hstale
    · exact hheld
    · rw [hkept] at hreleased
      cases hreleased
    · simp only [Lease.stale, decide_eq_true_eq] at hstale
      omega
  have hsame := (hregister grant hgrant hheld).symm.trans (hregister grant' hgrant' hheld')
  exact Option.some.inj hsame

/-! ## One action -/

variable [DecidableEq ν]

/-- An action that fails leaves the register. -/
theorem step_failed {action : Action ν} (h : (step age now register action).2 = false) :
    (step age now register action).1 = register := by
  cases action with
  | acquire nonce =>
    cases register with
    | none => cases h
    | some lease =>
      unfold step at h ⊢
      dsimp only at h ⊢
      split at h
      · cases h
      · rename_i hbusy
        rw [if_neg hbusy]
  | update nonce =>
    cases register with
    | none => rfl
    | some lease =>
      unfold step at h ⊢
      dsimp only at h ⊢
      split at h
      · cases h
      · rename_i hother
        rw [if_neg hother]
  | release nonce => cases h
  | clear =>
    cases register with
    | none => rfl
    | some lease =>
      unfold step at h
      dsimp only at h
      split at h <;> cases h
  | none => rfl

/-- An acquisition succeeds only when every earlier grant is released or out of date. -/
theorem Sound.acquire_lost (h : Sound age now register grants) {nonce : ν}
    (hstep : (step age now register (.acquire nonce)).2 = true) (grant : Lease ν)
    (hgrant : grant ∈ grants) : grant.released = true ∨ grant.stale age now = true := by
  rcases h.lost grant hgrant with rfl | hlost
  · unfold step at hstep
    dsimp only at hstep
    split at hstep
    · rename_i hfree
      simpa using hfree
    · cases hstep
  · exact hlost

theorem Sound.acquire (h : Sound age now register grants) {nonce : ν}
    (hfresh : Fresh grants (.acquire nonce))
    (hstep : (step age now register (.acquire nonce)).2 = true) :
    Sound age now (step age now register (.acquire nonce)).1
      (observe now grants (.acquire nonce)) := by
  have hregister : (step age now register (.acquire nonce)).1 = some ⟨nonce, now, false⟩ := by
    cases register with
    | none => rfl
    | some lease =>
      unfold step at hstep ⊢
      dsimp only at hstep ⊢
      split at hstep
      · rename_i hfree
        rw [if_pos hfree]
      · cases hstep
  rw [hregister]
  refine ⟨?_, ?_, ?_⟩
  · rw [observe, List.map_cons, List.nodup_cons]
    refine ⟨?_, h.nodup⟩
    intro hmem
    obtain ⟨grant, hgrant, hsame⟩ := List.mem_map.mp hmem
    exact hfresh grant hgrant hsame
  · intro lease hlease
    exact hlease
  · intro grant hgrant
    rcases List.mem_cons.mp hgrant with rfl | hgrant
    · exact .inl rfl
    · exact .inr (h.acquire_lost hstep grant hgrant)

/-- What a taker writes into its lease, it knows of it: the grants of a nonce change as the
register does, where they are released or the register holds them. -/
theorem Sound.change (h : Sound age now register grants) (nonce : ν)
    (change : Lease ν → Lease ν) (hnonce : ∀ grant, (change grant).nonce = grant.nonce)
    (hlost : ∀ grant ∈ grants, grant.nonce = nonce →
      register = some grant ∨ (change grant).released = true) :
    Sound age now
      (register.map fun lease => if lease.nonce = nonce then change lease else lease)
      (grants.map fun grant => if grant.nonce = nonce then change grant else grant) := by
  refine ⟨?_, ?_, ?_⟩
  · have hsame : (grants.map fun grant => if grant.nonce = nonce then change grant else grant).map
        Lease.nonce = grants.map Lease.nonce := by
      rw [List.map_map]
      apply List.map_congr_left
      intro grant _
      by_cases hgrant : grant.nonce = nonce
      · simp [hgrant, hnonce]
      · simp [hgrant]
    rw [hsame]
    exact h.nodup
  · intro changed hchanged
    obtain ⟨lease, hlease, rfl⟩ := Option.map_eq_some_iff.mp hchanged
    rw [List.head?_map, h.newest lease hlease]
    rfl
  · intro changed hchanged
    obtain ⟨grant, hgrant, rfl⟩ := List.mem_map.mp hchanged
    by_cases hsame : grant.nonce = nonce
    · rcases hlost grant hgrant hsame with rfl | hreleased
      · exact .inl rfl
      · rw [if_pos hsame]
        exact .inr (.inl hreleased)
    · rcases h.lost grant hgrant with rfl | hgone
      · exact .inl rfl
      · rw [if_neg hsame]
        exact .inr hgone

theorem Sound.update (h : Sound age now register grants) {nonce : ν}
    (hstep : (step age now register (.update nonce)).2 = true) :
    Sound age now (step age now register (.update nonce)).1
      (observe now grants (.update nonce)) := by
  cases register with
  | none => cases hstep
  | some lease =>
    have hnonce : lease.nonce = nonce := by
      by_contra hother
      simp [step, hother] at hstep
    have hchange := h.change nonce (fun lease => { lease with updated := now }) (fun _ => rfl) ?_
    · simpa [step, hnonce, observe] using hchange
    · -- The register holds the nonce, and no other grant has it.
      obtain ⟨rest, rfl, hother, -⟩ := h.cons
      intro grant hgrant hsame
      rcases List.mem_cons.mp hgrant with rfl | hrest
      · exact .inl rfl
      · exact absurd (hsame.trans hnonce.symm) (hother grant hrest)

theorem Sound.release (h : Sound age now register grants) (nonce : ν) :
    Sound age now (step age now register (.release nonce)).1
      (observe now grants (.release nonce)) :=
  h.change nonce (fun lease => { lease with released := true }) (fun _ => rfl)
    fun _ _ _ => .inr rfl

theorem Sound.clear (h : Sound age now register grants) :
    Sound age now (step age now register .clear).1 grants := by
  cases register with
  | none => exact h
  | some lease =>
    unfold step
    dsimp only
    split
    · rename_i hgone
      refine ⟨h.nodup, nofun, ?_⟩
      intro grant hgrant
      rcases h.lost grant hgrant with hheld | hlost
      · obtain rfl := Option.some.inj hheld
        simpa using hgone
      · exact .inr hlost
    · exact h

/-- An action that succeeds keeps the register and the grants in step. -/
theorem Sound.step (h : Sound age now register grants) {action : Action ν}
    (hfresh : Fresh grants action) (hstep : (step age now register action).2 = true) :
    Sound age now (leases.step age now register action).1 (observe now grants action) := by
  cases action with
  | acquire nonce => exact h.acquire hfresh hstep
  | update nonce => exact h.update hstep
  | release nonce => exact h.release nonce
  | clear => exact h.clear
  | none => exact h

end leases
