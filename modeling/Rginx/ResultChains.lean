-- The `Result` of Rust as a chain of checks: what `?`, `map_err`, `ok_or_else` and an early
-- return leave behind when the chain succeeds, and the search for a first candidate that passes.
import Mathlib

namespace rust_result

variable {α β ε ε' : Type}

/-- `Option::ok_or_else`. -/
def ok_or (error : ε) : Option α → Except ε α
  | some a => .ok a
  | none => .error error

/-- `if refused { return Err(error) }`. -/
def refuse_if (refused : Prop) [Decidable refused] (error : ε) : Except ε Unit :=
  if refused then .error error else .ok ()

/-- The candidates in order: the first one that is picked and passes its check ends the search,
and without one the error of the last that was checked is the result. -/
def search (picked : α → Except ε Bool) (check : α → Except ε Unit) (none_picked : ε) :
    Option ε → List α → Except ε Unit
  | last_error, [] => .error (last_error.getD none_picked)
  | last_error, candidate :: rest => do
    if ← picked candidate then
      match check candidate with
      | .ok () => .ok ()
      | .error error => search picked check none_picked (some error) rest
    else search picked check none_picked last_error rest

/-! ## Chains that succeed -/

theorem bind_eq_ok {x : Except ε α} {f : α → Except ε β} {b : β} :
    (x >>= f) = .ok b ↔ ∃ a, x = .ok a ∧ f a = .ok b := by
  cases x with
  | error e => simp [bind, Except.bind]
  | ok a => simp [bind, Except.bind]

@[simp]
theorem ok_bind (a : α) (f : α → Except ε β) : ((Except.ok a : Except ε α) >>= f) = f a := rfl

@[simp]
theorem pure_eq_ok (a : α) : (pure a : Except ε α) = .ok a := rfl

@[simp]
theorem map_err_eq_ok {x : Except ε α} {wrap : ε → ε'} {a : α} :
    x.mapError wrap = .ok a ↔ x = .ok a := by
  cases x with
  | error error => simp [Except.mapError]
  | ok value => simp [Except.mapError]

@[simp]
theorem map_eq_ok {x : Except ε α} {f : α → β} {b : β} :
    x.map f = .ok b ↔ ∃ a, x = .ok a ∧ f a = b := by
  cases x with
  | error error => simp [Except.map]
  | ok value => simp [Except.map]

@[simp]
theorem ok_or_eq_ok {error : ε} {o : Option α} {a : α} : ok_or error o = .ok a ↔ o = some a := by
  cases o <;> simp [ok_or]

@[simp]
theorem refuse_if_eq_ok {refused : Prop} [Decidable refused] {error : ε} {u : Unit} :
    refuse_if refused error = .ok u ↔ ¬refused := by
  unfold refuse_if
  split <;> simp [*]

/-- What a check that passes returns says nothing. -/
theorem exists_unit {p : Unit → Prop} : (∃ u, p u) ↔ p () :=
  ⟨fun ⟨_, h⟩ => h, fun h => ⟨(), h⟩⟩

/-- A chain of two checks passes when both do. -/
theorem check_bind_eq_ok {x : Except ε Unit} {f : Except ε β} {b : β} :
    (x >>= fun _ => f) = .ok b ↔ x = .ok () ∧ f = .ok b := by
  rw [bind_eq_ok, exists_unit]

/-! ## Chains over a list -/

theorem forM_eq_ok {f : α → Except ε Unit} {rows : List α} :
    rows.forM f = .ok () ↔ ∀ row ∈ rows, f row = .ok () := by
  induction rows with
  | nil => exact ⟨fun _ => nofun, fun _ => rfl⟩
  | cons row rows ih =>
    rw [List.forall_mem_cons, ← ih]
    exact check_bind_eq_ok

theorem mapM_eq_ok_iff (f : α → Except ε β) (l : List α) (r : List β) :
    l.mapM f = .ok r ↔ l.map f = r.map .ok := by
  induction l generalizing r with
  | nil => cases r <;> simp
  | cons a l ih =>
    rw [List.mapM_cons, bind_eq_ok]
    constructor
    · rintro ⟨b, hb, h⟩
      obtain ⟨bs, hbs, h⟩ := bind_eq_ok.mp h
      obtain rfl := Except.ok.inj h
      simp [hb, (ih bs).mp hbs]
    · intro h
      rcases r with _ | ⟨b, bs⟩
      · cases h
      · simp only [List.map_cons, List.cons.injEq] at h
        refine ⟨b, h.1, ?_⟩
        rw [(ih bs).mpr h.2]
        rfl

theorem forall₂_of_mapM {f : α → Except ε β} {rows : List α} {results : List β}
    (h : rows.mapM f = .ok results) :
    List.Forall₂ (fun row result => f row = .ok result) rows results := by
  induction rows generalizing results with
  | nil =>
    obtain rfl : results = [] := by simpa using h.symm
    exact .nil
  | cons row rows ih =>
    rw [List.mapM_cons, bind_eq_ok] at h
    obtain ⟨result, hresult, h⟩ := h
    obtain ⟨rest, hrest, h⟩ := bind_eq_ok.mp h
    obtain rfl := Except.ok.inj h
    exact .cons hresult (ih hrest)

/-- A field of the results that each row decides. -/
theorem map_eq_of_mapM {γ : Type} {f : α → Except ε β} {rows : List α} {results : List β}
    (h : rows.mapM f = .ok results) {field : β → γ} {field_of : α → γ}
    (hfield : ∀ row result, f row = .ok result → field result = field_of row) :
    results.map field = rows.map field_of := by
  have hrows := forall₂_of_mapM h
  clear h
  induction hrows with
  | nil => rfl
  | cons hresult _ ih => rw [List.map_cons, List.map_cons, hfield _ _ hresult, ih]

theorem forall₂_mem {R : α → β → Prop} {rows : List α} {results : List β}
    (h : List.Forall₂ R rows results) {result : β} (hmem : result ∈ results) :
    ∃ row ∈ rows, R row result := by
  induction h with
  | nil => cases hmem
  | cons hfirst _ ih =>
    rcases List.mem_cons.mp hmem with rfl | hrest
    · exact ⟨_, List.mem_cons_self, hfirst⟩
    · obtain ⟨row, hrow, hresult⟩ := ih hrest
      exact ⟨row, List.mem_cons_of_mem _ hrow, hresult⟩

theorem getElem?_of_forall₂ {R : α → β → Prop} {rows : List α} {results : List β}
    (h : List.Forall₂ R rows results) {i : Nat} {row : α} (hrow : rows[i]? = some row) :
    ∃ result, results[i]? = some result ∧ R row result := by
  obtain ⟨hi, rfl⟩ := List.getElem?_eq_some_iff.mp hrow
  have hi' : i < results.length := h.length_eq ▸ hi
  exact ⟨results[i], List.getElem?_eq_getElem hi', h.get hi hi'⟩

/-! ## The search -/

section Search

variable {picked : α → Except ε Bool} {check : α → Except ε Unit} {none_picked : ε}

/-- Where picking cannot fail, neither the order of the candidates nor the errors of those that
were tried before decide whether the search succeeds. -/
theorem search_eq_ok {candidates : List α} (hpicked : ∀ candidate, ∃ b, picked candidate = .ok b)
    (last_error : Option ε) :
    search picked check none_picked last_error candidates = .ok () ↔
      ∃ candidate ∈ candidates, picked candidate = .ok true ∧ check candidate = .ok () := by
  induction candidates generalizing last_error with
  | nil => simp [search]
  | cons candidate rest ih =>
    obtain ⟨b, hb⟩ := hpicked candidate
    rw [search, hb, ok_bind]
    cases b with
    | false => simp [hb, ih]
    | true =>
      cases hcheck : check candidate with
      | ok u => simp [hb, hcheck]
      | error error => simp [hb, hcheck, ih]

end Search

end rust_result
