-- Texts that include others. A text is expanded depth first, with the keys of the texts that are
-- open on a stack; a key that is on the stack already is a cycle. Over a finite set of keys the
-- expansion ends, it reports exactly the cycles, and the result is the text with each include
-- replaced.
import Mathlib.Data.Finset.Card
import Mathlib.Data.List.Nodup
import Mathlib.Logic.Relation

namespace nested_texts

variable {σ κ ε α : Type}

/-! ## Texts and their parts -/

/-- A part of a text as it is, or an include, with what becomes of the expansion of its text. -/
inductive Part (σ α : Type)
  | text (text : List α)
  | file (file : σ) (finish : List α → List α)

def Part.map {τ : Type} (f : σ → τ) : Part σ α → Part τ α
  | .text content => .text content
  | .file included finish => .file (f included) finish

/-- The part with the expansions in place of the includes. -/
def Part.replace (expansion : σ → List α) : Part σ α → List α
  | .text content => content
  | .file included finish => finish (expansion included)

/-- The parts of a text up to the first one that fails, and how it fails. -/
structure Script (σ α ε : Type) where
  parts : List (Part σ α)
  error : Option ε

def Script.append (first second : Script σ α ε) : Script σ α ε :=
  match first.error with
  | some error => ⟨first.parts, some error⟩
  | none => ⟨first.parts ++ second.parts, second.error⟩

theorem Script.mem_append {first second : Script σ α ε} {part : Part σ α}
    (h : part ∈ (first.append second).parts) : part ∈ first.parts ∨ part ∈ second.parts := by
  unfold append at h
  split at h
  · exact .inl h
  · exact List.mem_append.mp h

inductive Failure (κ ε : Type)
  | Unfinished
  | Cycle (cycle : List κ)
  | Other (error : ε)

/-! ## The expansion -/

section Expansion

variable (inner : σ → Except (Failure κ ε) (List α))

/-- The parts in order. -/
def run : List (Part σ α) → Except (Failure κ ε) (List α)
  | [] => .ok []
  | .text text :: parts => do
    let more ← run parts
    return text ++ more
  | .file file finish :: parts => do
    let text ← inner file
    let more ← run parts
    return finish text ++ more

def perform (script : Script σ α ε) : Except (Failure κ ε) (List α) := do
  let text ← run inner script.parts
  match script.error with
  | none => return text
  | some error => .error (.Other error)

variable {inner}

theorem run_append (first second : List (Part σ α)) :
    run inner (first ++ second) = (do
      let text ← run inner first
      let more ← run inner second
      return text ++ more) := by
  induction first with
  | nil => cases h : run inner second <;> simp [run, h, bind, Except.bind, pure, Except.pure]
  | cons part first ih =>
    cases part with
    | text text =>
      simp only [List.cons_append, run, ih]
      cases run inner first <;> cases run inner second <;>
        simp [bind, Except.bind, pure, Except.pure]
    | file file finish =>
      simp only [List.cons_append, run, ih]
      cases inner file <;> cases run inner first <;> cases run inner second <;>
        simp [bind, Except.bind, pure, Except.pure]

theorem perform_append (first second : Script σ α ε) :
    perform inner (first.append second) = (do
      let text ← perform inner first
      let more ← perform inner second
      return text ++ more) := by
  unfold perform Script.append
  cases hfirst : first.error with
  | some error =>
    cases run inner first.parts <;> simp [bind, Except.bind]
  | none =>
    dsimp only
    rw [run_append]
    cases run inner first.parts <;> cases run inner second.parts <;> cases second.error <;>
      simp [bind, Except.bind, pure, Except.pure]

/-- What fails in the parts is an include. -/
theorem run_error {parts : List (Part σ α)} {failure : Failure κ ε}
    (h : run inner parts = .error failure) :
    ∃ file finish, .file file finish ∈ parts ∧ inner file = .error failure := by
  induction parts with
  | nil => cases h
  | cons part parts ih =>
    have hrest : run inner parts = .error failure →
        ∃ file finish, .file file finish ∈ part :: parts ∧ inner file = .error failure := by
      intro hrest
      obtain ⟨file, finish, hin, hfile⟩ := ih hrest
      exact ⟨file, finish, List.mem_cons_of_mem _ hin, hfile⟩
    cases part with
    | text text =>
      cases hparts : run inner parts with
      | ok more => simp [run, hparts, bind, Except.bind, pure, Except.pure] at h
      | error other =>
        simp only [run, hparts, bind, Except.bind] at h
        exact hrest (hparts.trans h)
    | file file finish =>
      cases hfile : inner file with
      | error other =>
        simp only [run, hfile, bind, Except.bind] at h
        exact ⟨file, finish, List.mem_cons_self, hfile.trans h⟩
      | ok text =>
        cases hparts : run inner parts with
        | ok more => simp [run, hfile, hparts, bind, Except.bind, pure, Except.pure] at h
        | error other =>
          simp only [run, hfile, hparts, bind, Except.bind] at h
          exact hrest (hparts.trans h)

theorem run_ok {parts : List (Part σ α)} {text : List α} (h : run inner parts = .ok text) :
    (∀ file finish, .file file finish ∈ parts → ∃ content, inner file = .ok content) ∧
      ∀ {τ : Type} (key : σ → τ) (expansion : τ → List α),
        (∀ file finish content, .file file finish ∈ parts → inner file = .ok content →
          expansion (key file) = content) →
        text = (parts.map (Part.map key)).flatMap (Part.replace expansion) := by
  induction parts generalizing text with
  | nil =>
    obtain rfl := Except.ok.inj h
    exact ⟨nofun, fun _ _ _ => rfl⟩
  | cons part parts ih =>
    cases part with
    | text first =>
      cases hparts : run inner parts with
      | error failure => simp [run, hparts, bind, Except.bind] at h
      | ok more =>
        obtain rfl : first ++ more = text := by
          simpa [run, hparts, bind, Except.bind, pure, Except.pure] using h
        obtain ⟨hincluded, htext⟩ := ih hparts
        refine ⟨fun file finish hin => ?_, fun key expansion hexpansion => ?_⟩
        · exact hincluded file finish (by simpa using hin)
        · rw [htext key expansion fun file finish content hin =>
            hexpansion file finish content (List.mem_cons_of_mem _ hin)]
          rfl
    | file first done =>
      cases hfirst : inner first with
      | error failure => simp [run, hfirst, bind, Except.bind] at h
      | ok content =>
        cases hparts : run inner parts with
        | error failure => simp [run, hfirst, hparts, bind, Except.bind] at h
        | ok more =>
          obtain rfl : done content ++ more = text := by
            simpa [run, hfirst, hparts, bind, Except.bind, pure, Except.pure] using h
          obtain ⟨hincluded, htext⟩ := ih hparts
          refine ⟨fun file finish hin => ?_, fun key expansion hexpansion => ?_⟩
          · rcases List.mem_cons.mp hin with hfile | hin
            · obtain ⟨rfl, rfl⟩ := Part.file.inj hfile
              exact ⟨content, hfirst⟩
            · exact hincluded file finish hin
          · rw [htext key expansion fun file finish content hin =>
              hexpansion file finish content (List.mem_cons_of_mem _ hin)]
            rw [List.map_cons, List.flatMap_cons]
            refine congrArg (· ++ _) ?_
            rw [← hexpansion first done content List.mem_cons_self hfirst]
            rfl

/-- Only what the includes expand to matters, and an include that does not end only where the whole
does not. -/
theorem run_congr {inner' : σ → Except (Failure κ ε) (List α)} {parts : List (Part σ α)}
    (hinner : ∀ file finish, .file file finish ∈ parts → inner file ≠ .error .Unfinished →
      inner' file = inner file)
    (h : run inner parts ≠ .error .Unfinished) : run inner' parts = run inner parts := by
  induction parts with
  | nil => rfl
  | cons part parts ih =>
    have hmore : ∀ file finish, .file file finish ∈ parts → inner file ≠ .error .Unfinished →
        inner' file = inner file := fun file finish hin =>
      hinner file finish (List.mem_cons_of_mem _ hin)
    cases part with
    | text content =>
      have hrest : run inner parts ≠ .error .Unfinished := by
        intro hrest
        exact h (by simp [run, hrest, bind, Except.bind])
      simp only [run, ih hmore hrest]
    | file file finish =>
      cases hfile : inner file with
      | error failure =>
        have hfailure : inner file ≠ .error .Unfinished := by
          intro hunfinished
          exact h (by simp [run, hunfinished, bind, Except.bind])
        simp [run, hinner file finish List.mem_cons_self hfailure, hfile, bind, Except.bind]
      | ok content =>
        have hrest : run inner parts ≠ .error .Unfinished := by
          intro hrest
          exact h (by simp [run, hfile, hrest, bind, Except.bind])
        have hsame := hinner file finish List.mem_cons_self (by rw [hfile]; nofun)
        simp only [run, hsame, ih hmore hrest]

theorem perform_error {script : Script σ α ε} {failure : Failure κ ε}
    (h : perform inner script = .error failure) :
    (∃ error, script.error = some error ∧ failure = .Other error) ∨
      ∃ file finish, .file file finish ∈ script.parts ∧ inner file = .error failure := by
  unfold perform at h
  cases hrun : run inner script.parts with
  | error other =>
    rw [hrun] at h
    exact .inr (run_error (hrun.trans h))
  | ok text =>
    rw [hrun] at h
    cases herror : script.error with
    | none => simp [herror, bind, Except.bind, pure, Except.pure] at h
    | some error =>
      simp only [herror, bind, Except.bind] at h
      exact .inl ⟨error, rfl, (Except.error.inj h).symm⟩

theorem perform_ok {script : Script σ α ε} {text : List α} (h : perform inner script = .ok text) :
    script.error = none ∧ run inner script.parts = .ok text := by
  unfold perform at h
  cases hrun : run inner script.parts with
  | error failure => simp [hrun, bind, Except.bind] at h
  | ok content =>
    cases herror : script.error with
    | some error => simp [hrun, herror, bind, Except.bind] at h
    | none => exact ⟨rfl, by simpa [hrun, herror, bind, Except.bind, pure, Except.pure] using h⟩

theorem perform_congr {inner' : σ → Except (Failure κ ε) (List α)} {script : Script σ α ε}
    (hinner : ∀ file finish, .file file finish ∈ script.parts → inner file ≠ .error .Unfinished →
      inner' file = inner file)
    (h : perform inner script ≠ .error .Unfinished) :
    perform inner' script = perform inner script := by
  have hrun : run inner script.parts ≠ .error .Unfinished := by
    intro hrun
    exact h (by simp [perform, hrun, bind, Except.bind])
  unfold perform
  rw [run_congr hinner hrun]

end Expansion

section Includes

/-! ## Includes -/

/-- The abstract texts: what a text with a key is made of. -/
def Includes (texts : κ → List (Part κ α)) (f g : κ) : Prop :=
  ∃ finish, .file g finish ∈ texts f

/-- A text that is reached from here includes itself. -/
def Cyclic (texts : κ → List (Part κ α)) (root : κ) : Prop :=
  ∃ f, Relation.ReflTransGen (Includes texts) root f ∧ Relation.TransGen (Includes texts) f f

/-- The parts of a script are these, as far as it goes. -/
structure Script.Follows (key : σ → κ) (script : Script σ α ε) (texts : List (Part κ α)) : Prop where
  starts : script.parts.map (Part.map key) <+: texts
  whole : script.error = none → script.parts.map (Part.map key) = texts

theorem Script.Follows.append {key : σ → κ} {first second : Script σ α ε}
    {texts more : List (Part κ α)} (hfirst : first.Follows key texts)
    (hsecond : second.Follows key more) : (first.append second).Follows key (texts ++ more) := by
  unfold Script.append
  cases herror : first.error with
  | some error => exact ⟨hfirst.starts.trans (List.prefix_append texts more), nofun⟩
  | none =>
    have htexts := hfirst.whole herror
    dsimp only
    constructor
    · rw [List.map_append, htexts, List.prefix_append_right_inj]
      exact hsecond.starts
    · intro hnone
      rw [List.map_append, htexts, hsecond.whole hnone]

/-- The texts that are opened have the parts of the abstract ones. -/
structure Reads (key : σ → κ) (script : σ → Script σ α ε) (texts : κ → List (Part κ α))
    (Opened : σ → Prop) : Prop where
  opens : ∀ file, Opened file → ∀ included finish,
    .file included finish ∈ (script file).parts → Opened included
  follows : ∀ file, Opened file → (script file).Follows key (texts (key file))

variable {key : σ → κ} {script : σ → Script σ α ε} {texts : κ → List (Part κ α)} {Opened : σ → Prop}

theorem Reads.includes (hreads : Reads key script texts Opened) {file : σ} (hfile : Opened file)
    {included : σ} {finish : List α → List α} (h : .file included finish ∈ (script file).parts) :
    Includes texts (key file) (key included) := by
  have hmapped := List.mem_map_of_mem (f := Part.map key) h
  exact ⟨finish, (hreads.follows file hfile).starts.subset hmapped⟩

theorem Reads.included (hreads : Reads key script texts Opened) {file : σ} (hfile : Opened file)
    (herror : (script file).error = none) {g : κ} (h : Includes texts (key file) g) :
    ∃ included finish, .file included finish ∈ (script file).parts ∧ key included = g := by
  obtain ⟨finish, hin⟩ := h
  rw [← (hreads.follows file hfile).whole herror] at hin
  obtain ⟨part, hpart, hmap⟩ := List.mem_map.mp hin
  cases part with
  | text content => cases hmap
  | file included done =>
    obtain ⟨hkey, -⟩ := Part.file.inj hmap
    exact ⟨included, done, hpart, hkey⟩

/-- The texts that are open include each other up to the one that is read. -/
def OnPath (texts : κ → List (Part κ α)) (root : κ) (stack : List κ) (f : κ) : Prop :=
  Relation.ReflTransGen (Includes texts) root f ∧
    ∀ g ∈ stack, Relation.ReflTransGen (Includes texts) root g ∧
      Relation.TransGen (Includes texts) g f

theorem OnPath.next {root f g : κ} {stack : List κ} (h : OnPath texts root stack f)
    (hincludes : Includes texts f g) : OnPath texts root (stack ++ [f]) g := by
  refine ⟨h.1.tail hincludes, fun open_ hopen => ?_⟩
  rcases List.mem_append.mp hopen with hstack | hlast
  · exact ⟨(h.2 open_ hstack).1, (h.2 open_ hstack).2.tail hincludes⟩
  · rw [List.mem_singleton.mp hlast]
    exact ⟨h.1, .single hincludes⟩

theorem not_cyclic_of_acc {root : κ} (h : Acc (fun g f => Includes texts f g) root) :
    ¬ Cyclic texts root := by
  rintro ⟨f, hreach, hcycle⟩
  have hbelow : Acc (fun g f => Includes texts f g) f := by
    clear hcycle
    induction hreach with
    | refl => exact h
    | tail _ hincludes ih => exact ih.inv hincludes
  have hself : Relation.TransGen (fun g f => Includes texts f g) f f :=
    Relation.transGen_swap.mp hcycle
  have hirrefl : ∀ g, Acc (Relation.TransGen fun g f => Includes texts f g) g →
      ¬ Relation.TransGen (fun g f => Includes texts f g) g g := by
    intro g hacc
    induction hacc with
    | intro g _ ih => exact fun hself => ih g hself hself
  exact hirrefl f hbelow.transGen hself

end Includes

section Graph

variable [DecidableEq κ] (key : σ → κ) (script : σ → Script σ α ε)

/-- The expansion of a text below the open ones. -/
def expand : Nat → σ → List κ → Except (Failure κ ε) (List α)
  | 0, _, _ => .error .Unfinished
  | fuel + 1, file, stack =>
    if key file ∈ stack then .error (.Cycle (stack.drop (stack.idxOf (key file)) ++ [key file]))
    else perform (fun included => expand fuel included (stack ++ [key file])) (script file)

variable {key script} {texts : κ → List (Part κ α)} {Opened : σ → Prop}

theorem expand_succ {fuel : Nat} {file : σ} {stack : List κ} (h : key file ∉ stack) :
    expand key script (fuel + 1) file stack =
      perform (fun included => expand key script fuel included (stack ++ [key file]))
        (script file) := by
  rw [expand, if_neg h]

/-! ## The end of it -/

/-- More fuel than an expansion needs changes nothing. -/
theorem expand_stable {fuel : Nat} {file : σ} {stack : List κ}
    (h : expand key script fuel file stack ≠ .error .Unfinished) {more : Nat} (hle : fuel ≤ more) :
    expand key script more file stack = expand key script fuel file stack := by
  induction fuel generalizing file stack more with
  | zero => exact absurd rfl h
  | succ fuel ih =>
    obtain ⟨more, rfl⟩ := Nat.exists_eq_add_one.mpr (Nat.lt_of_lt_of_le (Nat.succ_pos fuel) hle)
    by_cases hopen : key file ∈ stack
    · rw [expand, expand, if_pos hopen, if_pos hopen]
    · rw [expand_succ hopen] at h ⊢
      rw [expand_succ hopen]
      refine perform_congr (fun included finish _ hincluded => ?_) h
      exact ih hincluded (Nat.le_of_succ_le_succ hle)

/-- The expansion ends. The stack holds no key twice, so that it is no longer than the keys. -/
theorem expand_finishes
    (hopens : ∀ file, Opened file → ∀ included finish,
      .file included finish ∈ (script file).parts → Opened included)
    {keys : List κ} (hkeys : ∀ file, Opened file → key file ∈ keys) {fuel : Nat} {file : σ} {stack : List κ}
    (hfile : Opened file) (hnodup : stack.Nodup) (hstack : stack ⊆ keys)
    (hfuel : keys.length < fuel + stack.length) :
    expand key script fuel file stack ≠ .error .Unfinished := by
  induction fuel generalizing file stack with
  | zero =>
    have hlength := (List.subperm_of_subset hnodup hstack).length_le
    omega
  | succ fuel ih =>
    by_cases hopen : key file ∈ stack
    · rw [expand, if_pos hopen]
      nofun
    · rw [expand_succ hopen]
      intro h
      obtain ⟨error, -, herror⟩ | ⟨included, finish, hin, hincluded⟩ := perform_error h
      · cases herror
      · refine ih (hopens file hfile included finish hin) ?_ ?_ ?_ hincluded
        · exact List.nodup_append.mpr ⟨hnodup, List.nodup_singleton _, by
            intro f hf g hg
            rw [List.mem_singleton.mp hg]
            rintro rfl
            exact hopen hf⟩
        · exact List.append_subset.mpr ⟨hstack, by simpa using hkeys file hfile⟩
        · rw [List.length_append, List.length_singleton]
          omega

/-! ## Cycles -/

/-- A cycle that is reported is one. -/
theorem cyclic_of_cycle (hreads : Reads key script texts Opened) {fuel : Nat} {file : σ}
    {stack cycle : List κ} {root : κ} (hfile : Opened file)
    (hpath : OnPath texts root stack (key file))
    (h : expand key script fuel file stack = .error (.Cycle cycle)) : Cyclic texts root := by
  induction fuel generalizing file stack with
  | zero => cases h
  | succ fuel ih =>
    by_cases hopen : key file ∈ stack
    · exact ⟨key file, hpath.1, (hpath.2 (key file) hopen).2⟩
    · rw [expand_succ hopen] at h
      obtain ⟨error, -, herror⟩ | ⟨included, finish, hin, hincluded⟩ := perform_error h
      · cases herror
      · exact ih (hreads.opens file hfile included finish hin)
          (hpath.next (hreads.includes hfile hin)) hincluded

/-- What is expanded has no infinite chain of includes below it. -/
theorem acc_of_ok (hreads : Reads key script texts Opened) {fuel : Nat} {file : σ}
    {stack : List κ} {text : List α} (hfile : Opened file)
    (h : expand key script fuel file stack = .ok text) :
    Acc (fun g f => Includes texts f g) (key file) := by
  induction fuel generalizing file stack text with
  | zero => cases h
  | succ fuel ih =>
    have hopen : key file ∉ stack := by
      intro hopen
      rw [expand, if_pos hopen] at h
      cases h
    rw [expand_succ hopen] at h
    obtain ⟨herror, hrun⟩ := perform_ok h
    refine ⟨_, fun g hincludes => ?_⟩
    obtain ⟨included, finish, hin, rfl⟩ := hreads.included hfile herror hincludes
    obtain ⟨content, hcontent⟩ := (run_ok hrun).1 included finish hin
    exact ih (hreads.opens file hfile included finish hin) hcontent

/-! ## What a text expands to -/

/-- A text is expanded to this content, below whatever is open. -/
def Yields (key : σ → κ) (script : σ → Script σ α ε) (Opened : σ → Prop) (f : κ)
    (content : List α) : Prop :=
  ∃ fuel file stack, Opened file ∧ key file = f ∧ expand key script fuel file stack = .ok content

theorem yields_step (hreads : Reads key script texts Opened) {f : κ} {content : List α}
    (h : Yields key script Opened f content) :
    (∀ g, Includes texts f g → ∃ included, Yields key script Opened g included) ∧
      ∀ expansion : κ → List α,
        (∀ g, Includes texts f g → ∀ included, Yields key script Opened g included →
          expansion g = included) →
        content = (texts f).flatMap (Part.replace expansion) := by
  obtain ⟨fuel, file, stack, hfile, rfl, h⟩ := h
  cases fuel with
  | zero => cases h
  | succ fuel =>
    have hopen : key file ∉ stack := by
      intro hopen
      rw [expand, if_pos hopen] at h
      cases h
    rw [expand_succ hopen] at h
    obtain ⟨herror, hrun⟩ := perform_ok h
    obtain ⟨hincluded, hcontent⟩ := run_ok hrun
    constructor
    · intro g hincludes
      obtain ⟨included, finish, hin, rfl⟩ := hreads.included hfile herror hincludes
      obtain ⟨text, htext⟩ := hincluded included finish hin
      exact ⟨text, fuel, included, _, hreads.opens file hfile included finish hin, rfl, htext⟩
    · intro expansion hexpansion
      rw [hcontent key expansion, (hreads.follows file hfile).whole herror]
      intro included finish text hin htext
      exact hexpansion _ (hreads.includes hfile hin) text
        ⟨fuel, included, _, hreads.opens file hfile included finish hin, rfl, htext⟩

theorem exists_expansion (key : σ → κ) (script : σ → Script σ α ε) (Opened : σ → Prop) :
    ∃ expansion : κ → List α, ∀ f, (∀ content content', Yields key script Opened f content →
        Yields key script Opened f content' → content = content') →
      ∀ content, Yields key script Opened f content → expansion f = content := by
  classical
  refine ⟨fun f => if h : ∃ content, Yields key script Opened f content then h.choose else [],
    fun f hunique content hcontent => ?_⟩
  have h : ∃ content, Yields key script Opened f content := ⟨content, hcontent⟩
  dsimp only
  rw [dif_pos h]
  exact hunique _ _ h.choose_spec hcontent

/-- Two expansions of a text are the same, however it was opened. -/
theorem yields_unique (hreads : Reads key script texts Opened) {f : κ}
    (hacc : Acc (fun g f => Includes texts f g) f) {content content' : List α}
    (h : Yields key script Opened f content) (h' : Yields key script Opened f content') :
    content = content' := by
  induction hacc generalizing content content' with
  | intro f _ ih =>
    obtain ⟨expansion, hexpansion⟩ := exists_expansion key script Opened
    have hincluded : ∀ g, Includes texts f g → ∀ included,
        Yields key script Opened g included → expansion g = included := by
      intro g hincludes
      exact hexpansion g fun _ _ hone hother => ih g hincludes hone hother
    rw [(yields_step hreads h).2 expansion hincluded, (yields_step hreads h').2 expansion hincluded]

/-- The result is the text with each include replaced, and nothing below it includes itself. -/
theorem expand_ok (hreads : Reads key script texts Opened) {fuel : Nat} {file : σ}
    {stack : List κ} {content : List α} (hfile : Opened file)
    (h : expand key script fuel file stack = .ok content) :
    ¬ Cyclic texts (key file) ∧ ∃ expansion : κ → List α, expansion (key file) = content ∧
      ∀ f, Relation.ReflTransGen (Includes texts) (key file) f →
        expansion f = (texts f).flatMap (Part.replace expansion) := by
  have hacc := acc_of_ok hreads hfile h
  have hroot : Yields key script Opened (key file) content := ⟨fuel, file, stack, hfile, rfl, h⟩
  have hbelow : ∀ f, Relation.ReflTransGen (Includes texts) (key file) f →
      Acc (fun g f => Includes texts f g) f ∧ ∃ included, Yields key script Opened f included := by
    intro f hreach
    induction hreach with
    | refl => exact ⟨hacc, content, hroot⟩
    | tail _ hincludes ih =>
      obtain ⟨hinner, included, hincluded⟩ := ih
      exact ⟨hinner.inv hincludes, (yields_step hreads hincluded).1 _ hincludes⟩
  obtain ⟨expansion, hexpansion⟩ := exists_expansion key script Opened
  have hvalue : ∀ f, Acc (fun g f => Includes texts f g) f → ∀ included,
      Yields key script Opened f included → expansion f = included := by
    intro f hinner
    exact hexpansion f fun _ _ hone hother => yields_unique hreads hinner hone hother
  refine ⟨not_cyclic_of_acc hacc, expansion, hvalue _ hacc content hroot, fun f hreach => ?_⟩
  obtain ⟨hinner, included, hincluded⟩ := hbelow f hreach
  rw [hvalue f hinner included hincluded]
  refine (yields_step hreads hincluded).2 expansion fun g hincludes => ?_
  exact hvalue g (hinner.inv hincludes)

/-- What stops the expansion besides a cycle is a text of which a part fails. -/
theorem expand_failed
    (hopens : ∀ file, Opened file → ∀ included finish,
      .file included finish ∈ (script file).parts → Opened included)
    {fuel : Nat} {file : σ} {stack : List κ} {error : ε} (hfile : Opened file)
    (h : expand key script fuel file stack = .error (.Other error)) :
    ∃ failing, Opened failing ∧ (script failing).error = some error := by
  induction fuel generalizing file stack with
  | zero => cases h
  | succ fuel ih =>
    by_cases hopen : key file ∈ stack
    · rw [expand, if_pos hopen] at h
      cases h
    · rw [expand_succ hopen] at h
      obtain ⟨other, hother, heq⟩ | ⟨included, finish, hin, hincluded⟩ := perform_error h
      · obtain rfl := Failure.Other.inj heq
        exact ⟨file, hfile, hother⟩
      · exact ih (hopens file hfile included finish hin) hincluded

end Graph

end nested_texts
