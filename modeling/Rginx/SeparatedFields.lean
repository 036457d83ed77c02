-- Texts in which a separator ends each field: the fields can be read back where none of them holds
-- the separator. And texts in which blanks stand around words.
import Mathlib.Data.List.TakeWhile

namespace separated_fields

variable {α : Type}

/-- A text is cut in one way at its first separator. -/
theorem first_inj {sep : α} {field field' rest rest' : List α} (h : sep ∉ field)
    (h' : sep ∉ field') (heq : field ++ sep :: rest = field' ++ sep :: rest') :
    field = field' ∧ rest = rest' := by
  induction field generalizing field' with
  | nil =>
    cases field' with
    | nil => exact ⟨rfl, (List.cons.inj heq).2⟩
    | cons first field' =>
      obtain ⟨rfl, -⟩ := List.cons.inj heq
      exact absurd List.mem_cons_self h'
  | cons first field ih =>
    cases field' with
    | nil =>
      obtain ⟨rfl, -⟩ := List.cons.inj heq
      exact absurd List.mem_cons_self h
    | cons first' field' =>
      obtain ⟨rfl, htail⟩ := List.cons.inj heq
      obtain ⟨rfl, hrest⟩ := ih (fun hin => h (List.mem_cons_of_mem _ hin))
        (fun hin => h' (List.mem_cons_of_mem _ hin)) htail
      exact ⟨rfl, hrest⟩

/-- Two texts around a separator are the same as two others where they are the same, or where one
runs over the separator of the other. -/
theorem append_cons_eq_iff {sep : α} {left left' right right' : List α} :
    left ++ sep :: right = left' ++ sep :: right' ↔
      (left = left' ∧ right = right') ∨
      (∃ more, left = left' ++ sep :: more ∧ right' = more ++ sep :: right) ∨
      ∃ more, left' = left ++ sep :: more ∧ right = more ++ sep :: right' := by
  constructor
  · intro h
    rcases List.append_eq_append_iff.mp h with ⟨beyond, hleft, hright⟩ | ⟨beyond, hleft, hright⟩
    · cases beyond with
      | nil =>
        rw [List.append_nil] at hleft
        exact .inl ⟨hleft.symm, (List.cons.inj hright).2⟩
      | cons first more =>
        obtain ⟨rfl, hmore⟩ := List.cons.inj hright
        exact .inr (.inr ⟨more, hleft, hmore⟩)
    · cases beyond with
      | nil =>
        rw [List.append_nil] at hleft
        exact .inl ⟨hleft, (List.cons.inj hright).2.symm⟩
      | cons first more =>
        obtain ⟨rfl, hmore⟩ := List.cons.inj hright
        exact .inr (.inl ⟨more, hleft, hmore⟩)
  · rintro (⟨rfl, rfl⟩ | ⟨more, rfl, rfl⟩ | ⟨more, rfl, rfl⟩)
    · rfl
    · simp
    · simp

/-- The fields one after the other, each with its end. -/
def terminated (sep : α) (fields : List (List α)) : List α := fields.flatMap (· ++ [sep])

@[simp]
theorem terminated_nil (sep : α) : terminated sep [] = [] := rfl

@[simp]
theorem terminated_cons (sep : α) (field : List α) (fields : List (List α)) :
    terminated sep (field :: fields) = field ++ sep :: terminated sep fields := by
  simp [terminated]

theorem terminated_inj {sep : α} {fields fields' : List (List α)}
    (h : ∀ field ∈ fields, sep ∉ field) (h' : ∀ field ∈ fields', sep ∉ field)
    (heq : terminated sep fields = terminated sep fields') : fields = fields' := by
  induction fields generalizing fields' with
  | nil =>
    cases fields' with
    | nil => rfl
    | cons field' fields' => simp at heq
  | cons field fields ih =>
    cases fields' with
    | nil => simp at heq
    | cons field' fields' =>
      rw [terminated_cons, terminated_cons] at heq
      obtain ⟨rfl, hrest⟩ := first_inj (h field List.mem_cons_self) (h' field' List.mem_cons_self) heq
      rw [ih (fun other hother => h other (List.mem_cons_of_mem _ hother))
        (fun other hother => h' other (List.mem_cons_of_mem _ hother)) hrest]

/-- The fields of a pair, with a separator between them. -/
def paired (sep : α) (pair : List α × List α) : List α := pair.1 ++ sep :: pair.2

theorem paired_inj {sep : α} {pair pair' : List α × List α} (h : sep ∉ pair.1)
    (h' : sep ∉ pair'.1) (heq : paired sep pair = paired sep pair') : pair = pair' := by
  obtain ⟨hfirst, hsecond⟩ := first_inj h h' heq
  exact Prod.ext hfirst hsecond

/-- A list of pairs is read back from their texts. -/
theorem terminated_paired_inj {sep mid : α} {pairs pairs' : List (List α × List α)}
    (h : ∀ pair ∈ pairs, mid ∉ pair.1 ∧ sep ∉ paired mid pair)
    (h' : ∀ pair ∈ pairs', mid ∉ pair.1 ∧ sep ∉ paired mid pair)
    (heq : terminated sep (pairs.map (paired mid)) = terminated sep (pairs'.map (paired mid))) :
    pairs = pairs' := by
  have hends : ∀ {pairs : List (List α × List α)},
      (∀ pair ∈ pairs, mid ∉ pair.1 ∧ sep ∉ paired mid pair) →
        ∀ field ∈ pairs.map (paired mid), sep ∉ field := by
    intro pairs h field hfield
    obtain ⟨pair, hpair, rfl⟩ := List.mem_map.mp hfield
    exact (h pair hpair).2
  have hfields := terminated_inj (hends h) (hends h') heq
  clear heq
  induction pairs generalizing pairs' with
  | nil =>
    cases pairs' with
    | nil => rfl
    | cons pair' pairs' => simp at hfields
  | cons pair pairs ih =>
    cases pairs' with
    | nil => simp at hfields
    | cons pair' pairs' =>
      rw [List.map_cons, List.map_cons] at hfields
      obtain ⟨hpair, hrest⟩ := List.cons.inj hfields
      rw [paired_inj (h pair List.mem_cons_self).1 (h' pair' List.mem_cons_self).1 hpair,
        ih (fun other hother => h other (List.mem_cons_of_mem _ hother))
          (fun other hother => h' other (List.mem_cons_of_mem _ hother)) hrest]

/-! ## Parts between separators -/

/-- A part holds what its text holds, and no separator. -/
theorem mem_of_mem_splitOn [DecidableEq α] {sep a : α} {text part : List α}
    (hpart : part ∈ text.splitOn sep) (ha : a ∈ part) : a ∈ text ∧ a ≠ sep := by
  induction text generalizing part with
  | nil =>
    rw [List.splitOn_nil, List.mem_singleton] at hpart
    rw [hpart] at ha
    cases ha
  | cons first text ih =>
    obtain ⟨head, parts, hsplit⟩ := List.exists_cons_of_ne_nil (List.splitOn_ne_nil sep text)
    rw [List.splitOn_cons_eq_if_modifyHead, hsplit] at hpart
    rw [hsplit] at ih
    split at hpart
    · rcases List.mem_cons.mp hpart with rfl | hpart
      · cases ha
      · obtain ⟨hin, hne⟩ := ih hpart ha
        exact ⟨List.mem_cons_of_mem _ hin, hne⟩
    · rename_i hfirst
      rcases List.mem_cons.mp hpart with rfl | hpart
      · rcases List.mem_cons.mp ha with rfl | ha
        · exact ⟨List.mem_cons_self, by simpa using hfirst⟩
        · obtain ⟨hin, hne⟩ := ih List.mem_cons_self ha
          exact ⟨List.mem_cons_of_mem _ hin, hne⟩
      · obtain ⟨hin, hne⟩ := ih (List.mem_cons_of_mem _ hpart) ha
        exact ⟨List.mem_cons_of_mem _ hin, hne⟩

theorem mem_of_mem_intercalate {sep a : α} {parts : List (List α)}
    (h : a ∈ List.intercalate [sep] parts) : a = sep ∨ ∃ part ∈ parts, a ∈ part := by
  induction parts with
  | nil => simp at h
  | cons part parts ih =>
    cases parts with
    | nil => exact .inr ⟨part, List.mem_singleton_self _, by simpa using h⟩
    | cons next parts =>
      rw [List.intercalate_cons_cons, List.append_assoc, List.mem_append, List.mem_append] at h
      rcases h with hpart | hsep | hrest
      · exact .inr ⟨part, List.mem_cons_self, hpart⟩
      · exact .inl (List.mem_singleton.mp hsep)
      · exact (ih hrest).imp_right fun ⟨other, hother, ha⟩ =>
          ⟨other, List.mem_cons_of_mem _ hother, ha⟩

/-- Joined parts in two groups. -/
theorem intercalate_append {sep : List α} {parts parts' : List (List α)} (hne : parts ≠ [])
    (hne' : parts' ≠ []) :
    List.intercalate sep (parts ++ parts') =
      List.intercalate sep parts ++ sep ++ List.intercalate sep parts' := by
  induction parts with
  | nil => exact absurd rfl hne
  | cons part parts ih =>
    cases parts with
    | nil => rw [List.singleton_append, List.intercalate_cons_of_ne_nil hne', List.intercalate_singleton]
    | cons next parts =>
      have hrest := ih (List.cons_ne_nil next parts)
      rw [List.cons_append] at hrest
      rw [List.cons_append, List.cons_append, List.intercalate_cons_cons, hrest,
        List.intercalate_cons_cons]
      simp

theorem map_intercalate {β : Type} (f : α → β) (sep : List α) (parts : List (List α)) :
    (List.intercalate sep parts).map f = List.intercalate (sep.map f) (parts.map (List.map f)) := by
  induction parts with
  | nil => rfl
  | cons part parts ih =>
    cases parts with
    | nil => simp
    | cons next parts =>
      rw [List.intercalate_cons_cons, List.map_append, List.map_append, ih]
      simp only [List.map_cons, List.intercalate_cons_cons]

/-! ## Words between blanks -/

/-- The words of a text, the empty ones left out. -/
def words (blank : α → Bool) (text : List α) : List (List α) :=
  (text.splitOnP blank).filter fun word => !word.isEmpty

/-- Words with blanks around them, at least one between two of them. -/
inductive Worded (blank : α → Bool) : List α → List (List α) → Prop
  | blank {text : List α} (h : ∀ a ∈ text, blank a = true) : Worded blank text []
  | word {gap word rest : List α} {parts : List (List α)} (hgap : ∀ a ∈ gap, blank a = true)
    (hne : word ≠ []) (hword : ∀ a ∈ word, blank a = false)
    (hrest : ∀ a ∈ rest.head?, blank a = true) (h : Worded blank rest parts) :
    Worded blank (gap ++ word ++ rest) (word :: parts)

variable {blank : α → Bool}

theorem words_cons_blank {a : α} (h : blank a = true) (text : List α) :
    words blank (a :: text) = words blank text := by
  have hsplit := List.splitOnP_append_cons [] text h
  rw [List.nil_append, List.splitOnP_nil] at hsplit
  unfold words
  rw [hsplit]
  rfl

theorem words_append_blanks {gap : List α} (hgap : ∀ a ∈ gap, blank a = true) (text : List α) :
    words blank (gap ++ text) = words blank text := by
  induction gap with
  | nil => rfl
  | cons a gap ih =>
    rw [List.cons_append, words_cons_blank (hgap a List.mem_cons_self)]
    exact ih fun b hb => hgap b (List.mem_cons_of_mem a hb)

theorem words_word {word rest : List α} (hne : word ≠ []) (hword : ∀ a ∈ word, blank a = false)
    (hrest : ∀ a ∈ rest.head?, blank a = true) :
    words blank (word ++ rest) = word :: words blank rest := by
  cases rest with
  | nil =>
    unfold words
    rw [List.append_nil, List.splitOnP_eq_singleton fun a ha => by simp [hword a ha]]
    simp [hne]
  | cons a rest =>
    rw [words_cons_blank (hrest a rfl)]
    unfold words
    rw [List.splitOnP_append_cons _ _ (hrest a rfl), List.splitOnP_eq_singleton fun a ha => by
      simp [hword a ha]]
    simp [hne]

theorem words_eq_iff {text : List α} {parts : List (List α)} :
    words blank text = parts ↔ Worded blank text parts := by
  constructor
  · rintro rfl
    induction hlength : text.length using Nat.strongRecOn generalizing text with
    | ind length ih =>
      have hgap : ∀ a ∈ text.takeWhile blank, blank a = true := fun a ha =>
        List.mem_takeWhile_imp ha
      obtain ⟨more, hmore⟩ : ∃ more, more = text.dropWhile blank := ⟨_, rfl⟩
      have htext : text = text.takeWhile blank ++ more := by
        rw [hmore, List.takeWhile_append_dropWhile]
      cases more with
      | nil =>
        rw [List.append_nil] at htext
        rw [← htext] at hgap
        have hnone := words_append_blanks hgap []
        rw [List.append_nil] at hnone
        rw [hnone]
        exact .blank hgap
      | cons first more =>
        have hfirst : blank first = false := by
          have hnot := List.head?_dropWhile_not blank text
          rw [← hmore] at hnot
          simpa using hnot
        obtain ⟨word, hwordeq⟩ : ∃ word, word = (first :: more).takeWhile fun a => !blank a :=
          ⟨_, rfl⟩
        obtain ⟨rest, hresteq⟩ : ∃ rest, rest = (first :: more).dropWhile fun a => !blank a :=
          ⟨_, rfl⟩
        have hparts : first :: more = word ++ rest := by
          rw [hwordeq, hresteq, List.takeWhile_append_dropWhile]
        have hne : word ≠ [] := by
          rw [hwordeq, List.takeWhile_cons, if_pos (by simp [hfirst])]
          simp
        have hword : ∀ a ∈ word, blank a = false := by
          intro a ha
          rw [hwordeq] at ha
          simpa using List.mem_takeWhile_imp ha
        have hrest : ∀ a ∈ rest.head?, blank a = true := by
          intro a ha
          have hnot := List.head?_dropWhile_not (fun a => !blank a) (first :: more)
          rw [← hresteq, Option.mem_def.mp ha] at hnot
          simpa using hnot
        have hshorter : rest.length < length := by
          have hwordpos := List.length_pos_iff.mpr hne
          rw [← hlength, htext, hparts]
          simp only [List.length_append]
          omega
        rw [hparts, ← List.append_assoc] at htext
        rw [htext, List.append_assoc, words_append_blanks hgap, words_word hne hword hrest,
          ← List.append_assoc]
        exact .word hgap hne hword hrest (ih rest.length hshorter rfl)
  · intro h
    induction h with
    | blank h =>
      have hnone := words_append_blanks h []
      rwa [List.append_nil] at hnone
    | word hgap hne hword hrest _ ih =>
      rw [List.append_assoc, words_append_blanks hgap, words_word hne hword hrest, ih]

/-- Fields without blanks are the words of the text in which one blank stands between two. -/
theorem words_intercalate {sep : α} (hsep : blank sep = true)
    {fields : List (List α)} (hfields : ∀ field ∈ fields, field ≠ [] ∧ ∀ a ∈ field, blank a = false) :
    words blank (List.intercalate [sep] fields) = fields := by
  induction fields with
  | nil => rfl
  | cons field fields ih =>
    obtain ⟨hne, hfield⟩ := hfields field List.mem_cons_self
    cases fields with
    | nil =>
      have hword : words blank (field ++ []) = field :: words blank [] :=
        words_word hne hfield fun a ha => nomatch ha
      rw [List.append_nil] at hword
      rw [List.intercalate_singleton, hword]
      rfl
    | cons next fields =>
      rw [List.intercalate_cons_cons, List.append_assoc, words_word hne hfield,
        List.singleton_append, words_cons_blank hsep,
        ih fun other hother => hfields other (List.mem_cons_of_mem _ hother)]
      intro a ha
      obtain rfl := Option.some.inj ha
      exact hsep

end separated_fields
