-- The placeholders of a configuration file, from `load/env_expand.rs`, `load/preprocess.rs` and
-- `load/include.rs`: `${NAME}` and `${NAME:-default}` stand for variables of the environment, and
-- the expansion reads a file line by line.
import Rginx.ResultChains
import Rginx.RonText
import Rginx.RustText

open rust_text rust_result

namespace rginx.config.load

/-! ## One placeholder -/

/-- What `env::var` says of a variable. -/
inductive Var
  | Present (value : Text)
  | NotPresent
  | NotUnicode

abbrev Environment := Text → Var

/-- `str::split_once` at `:-`. -/
def split_default : Text → Option (Text × Text)
  | ':' :: '-' :: rest => some ([], rest)
  | c :: rest => (split_default rest).map fun parts => (c :: parts.1, parts.2)
  | [] => none

/-- An ASCII letter or digit, or an underscore. -/
def is_name_char (ch : Char) : Bool := ch.isAlphanum || ch = '_'

/-- The name of a placeholder, and its default. -/
def split_token (token : Text) : Text × Option Text :=
  match split_default token with
  | some (name, default_) => (name, some default_)
  | none => (token, none)

def resolve_env_placeholder (env : Environment) (source_path token : Text) : Except String Text :=
  let (name, default_) := split_token token
  if name = [] ∨ name.all is_name_char = false then
    .error (s!"invalid environment placeholder `$\x7b{String.ofList token}\x7d`" ++
      s!" in `{String.ofList source_path}`")
  else match env name with
    | .Present value => .ok value
    | .NotPresent =>
      ok_or (s!"environment variable `{String.ofList name}` is not set" ++
        s!" while loading `{String.ofList source_path}`") default_
    | .NotUnicode =>
      .error (s!"environment variable `{String.ofList name}` is not valid UTF-8" ++
        s!" while loading `{String.ofList source_path}`")

def escape_char (ch : Char) : Text :=
  if ch = ron_text.backslash then [ron_text.backslash, ron_text.backslash]
  else if ch = ron_text.quote then [ron_text.backslash, ron_text.quote]
  else if ch = '\n' then [ron_text.backslash, 'n']
  else if ch = '\r' then [ron_text.backslash, 'r']
  else if ch = '\t' then [ron_text.backslash, 't']
  else [ch]

def escape_ron_string_fragment (value : Text) : Text := value.flatMap escape_char

/-! ## One line -/

def unterminated (source_path : Text) : String :=
  s!"unterminated environment placeholder in `{String.ofList source_path}`"

section

variable (env : Environment) (source_path : Text)

/-- The loop over the characters of a line. -/
def expand_loop (in_string escaped : Bool) : Text → Except String Text
  | [] => .ok []
  | ch :: rest =>
    if in_string = false then (expand_loop (ch = ron_text.quote) escaped rest).map (ch :: ·)
    else if escaped then (expand_loop in_string false rest).map (ch :: ·)
    else if ch = ron_text.backslash then (expand_loop in_string true rest).map (ch :: ·)
    else if ch = ron_text.quote then (expand_loop false escaped rest).map (ch :: ·)
    else if ch = '$' ∧ rest.head? = some '$' then
      (expand_loop in_string escaped (rest.drop 1)).map ('$' :: ·)
    else if ch = '$' ∧ rest.head? = some '\x7b' then
      match _hsplit : split_once '\x7d' (rest.drop 1) with
      | none => .error (unterminated source_path)
      | some (token, rest') => do
        let replacement ← resolve_env_placeholder env source_path token
        let expanded ← expand_loop in_string escaped rest'
        return escape_ron_string_fragment replacement ++ expanded
    else (expand_loop in_string escaped rest).map (ch :: ·)
  termination_by contents => contents.length
  decreasing_by
    all_goals simp_wf
    all_goals try have hlength := congrArg List.length (split_once_eq_some.mp _hsplit).2
    all_goals try simp only [List.length_drop, List.length_append, List.length_cons] at hlength
    all_goals omega

def expand_env_placeholders_in_ron_strings (contents : Text) : Except String Text :=
  expand_loop env source_path false false contents

/-! ## The lines of a file -/

/-- `str::split_inclusive` at a newline. -/
def split_inclusive : Text → List Text
  | [] => []
  | c :: rest =>
    if c = '\n' then [c] :: split_inclusive rest
    else match split_inclusive rest with
      | [] => [[c]]
      | line :: lines => (c :: line) :: lines

/-- `str::rsplit_once` at a newline. -/
def rsplit_once_newline (contents : Text) : Option (Text × Text) :=
  (split_once '\n' contents.reverse).map fun parts => (parts.2.reverse, parts.1.reverse)

def split_lines_preserving_newlines (contents : Text) : List Text :=
  if contents = [] then [contents]
  else
    let lines := split_inclusive contents
    match rsplit_once_newline contents with
    | some (_, last) =>
      if contents.getLast? ≠ some '\n' ∧ lines.getLast? ≠ some last then lines ++ [last] else lines
    | none => lines

/-- What `parse_include_directive` looks for in a line: the include that it asks for. -/
def include_directive (line : Text) : Option Text := stripStart "// @include ".toList (trim line)

/-- The loop over the lines. What an include adds stands as a parameter. -/
def preprocess_lines (included : Text → Text → Except String Text) :
    List Text → Except String Text
  | [] => .ok []
  | line :: lines => do
    let expanded ← match include_directive line with
      | some include_path => included line include_path
      | none => expand_env_placeholders_in_ron_strings env source_path line
    let more ← preprocess_lines included lines
    return expanded ++ more

def preprocess_source (included : Text → Text → Except String Text) (contents : Text) :
    Except String Text :=
  preprocess_lines env source_path included (split_lines_preserving_newlines contents)

end

/-! ## All lines at once -/

/-- Where the quotes that stand before a character on its own line put it. -/
inductive LineState
  | Unquoted
  | Quoted
  | Escaped
  deriving DecidableEq

namespace LineState

def in_string : LineState → Bool
  | Unquoted => false
  | Quoted | Escaped => true

def escaped : LineState → Bool
  | Unquoted | Quoted => false
  | Escaped => true

/-- A backslash inside the quotes takes the next character with it. -/
def next : LineState → Char → LineState
  | Unquoted, ch => if ch = ron_text.quote then Quoted else Unquoted
  | Quoted, ch =>
    if ch = ron_text.backslash then Escaped else if ch = ron_text.quote then Unquoted else Quoted
  | Escaped, _ => Quoted

/-- Every line begins outside quotes. -/
def step (state : LineState) (ch : Char) : LineState :=
  if ch = '\n' then Unquoted else state.next ch

end LineState

/-- The first two characters of `$$` and of a placeholder. -/
def Marks (ch : Char) (rest : Text) : Prop :=
  ch = '$' ∧ (rest.head? = some '$' ∨ rest.head? = some '\x7b')

section

variable (env : Environment) (source_path : Text)

/-- The expansion of a file in one pass: a placeholder ends on its own line. -/
def scan (state : LineState) : Text → Except String Text
  | [] => .ok []
  | ch :: rest =>
    if state = .Quoted ∧ ch = '$' ∧ rest.head? = some '$' then
      (scan state (rest.drop 1)).map ('$' :: ·)
    else if state = .Quoted ∧ ch = '$' ∧ rest.head? = some '\x7b' then
      match _hsplit : split_once '\x7d' (rest.drop 1) with
      | none => .error (unterminated source_path)
      | some (token, rest') =>
        if '\n' ∈ token then
          .error (unterminated source_path)
        else do
          let replacement ← resolve_env_placeholder env source_path token
          let expanded ← scan state rest'
          return escape_ron_string_fragment replacement ++ expanded
    else (scan (state.step ch) rest).map (ch :: ·)
  termination_by contents => contents.length
  decreasing_by
    all_goals simp_wf
    all_goals try have hlength := congrArg List.length (split_once_eq_some.mp _hsplit).2
    all_goals try simp only [List.length_drop, List.length_append, List.length_cons] at hlength
    all_goals omega

end

section

variable {env : Environment} {source_path : Text}

theorem scan_nil (state : LineState) : scan env source_path state [] = .ok [] := by
  rw [scan]

theorem scan_dollar (rest : Text) :
    scan env source_path .Quoted ('$' :: '$' :: rest) =
      (scan env source_path .Quoted rest).map ('$' :: ·) := by
  rw [scan, if_pos ⟨rfl, rfl, rfl⟩]
  rfl

theorem scan_placeholder {token rest : Text} (hbrace : '\x7d' ∉ token) (hline : '\n' ∉ token) :
    scan env source_path .Quoted ('$' :: '\x7b' :: (token ++ '\x7d' :: rest)) = (do
      let replacement ← resolve_env_placeholder env source_path token
      let expanded ← scan env source_path .Quoted rest
      return escape_ron_string_fragment replacement ++ expanded) := by
  have hfirst := split_once_append hbrace rest
  rw [scan, if_neg (by simp), if_pos ⟨rfl, rfl, rfl⟩]
  split
  · rename_i hnone
    cases hnone.symm.trans hfirst
  · rename_i token' rest' hsome
    obtain ⟨rfl, rfl⟩ := Prod.mk.inj (Option.some.inj (hsome.symm.trans hfirst))
    rw [if_neg hline]

/-- Where no brace closes a placeholder on its line, the expansion fails. -/
theorem scan_unterminated {rest : Text}
    (h : ∀ token more, split_once '\x7d' rest = some (token, more) → '\n' ∈ token) :
    scan env source_path .Quoted ('$' :: '\x7b' :: rest) = .error (unterminated source_path) := by
  rw [scan, if_neg (by simp), if_pos ⟨rfl, rfl, rfl⟩]
  split
  · rfl
  · rename_i token more hsome
    rw [if_pos (h token more hsome)]

theorem scan_other {state : LineState} {ch : Char} {rest : Text}
    (h : ¬(state = .Quoted ∧ Marks ch rest)) :
    scan env source_path state (ch :: rest) =
      (scan env source_path (state.step ch) rest).map (ch :: ·) := by
  unfold Marks at h
  rw [scan, if_neg (by tauto), if_neg (by tauto)]

/-! ### The loop over one line -/

/-- The loop over a line, from a state. -/
def expand_from (env : Environment) (source_path : Text) (state : LineState) :
    Text → Except String Text :=
  expand_loop env source_path state.in_string state.escaped

theorem expand_nil (state : LineState) : expand_from env source_path state [] = .ok [] := by
  unfold expand_from
  rw [expand_loop]

theorem expand_dollar (rest : Text) :
    expand_from env source_path .Quoted ('$' :: '$' :: rest) =
      (expand_from env source_path .Quoted rest).map ('$' :: ·) := by
  unfold expand_from
  rw [expand_loop, if_neg (by decide), if_neg (by decide), if_neg (by decide), if_neg (by decide),
    if_pos ⟨rfl, rfl⟩]
  rfl

theorem expand_placeholder {token rest : Text} (hbrace : '\x7d' ∉ token) :
    expand_from env source_path .Quoted ('$' :: '\x7b' :: (token ++ '\x7d' :: rest)) = (do
      let replacement ← resolve_env_placeholder env source_path token
      let expanded ← expand_from env source_path .Quoted rest
      return escape_ron_string_fragment replacement ++ expanded) := by
  have hfirst := split_once_append hbrace rest
  unfold expand_from
  rw [expand_loop, if_neg (by decide), if_neg (by decide), if_neg (by decide), if_neg (by decide),
    if_neg (by simp), if_pos ⟨rfl, rfl⟩]
  split
  · rename_i hnone
    cases hnone.symm.trans hfirst
  · rename_i token' rest' hsome
    obtain ⟨rfl, rfl⟩ := Prod.mk.inj (Option.some.inj (hsome.symm.trans hfirst))
    rfl

theorem expand_unterminated {rest : Text} (h : '\x7d' ∉ rest) :
    expand_from env source_path .Quoted ('$' :: '\x7b' :: rest) =
      .error (unterminated source_path) := by
  have hnone := split_once_eq_none.mpr h
  unfold expand_from
  rw [expand_loop, if_neg (by decide), if_neg (by decide), if_neg (by decide), if_neg (by decide),
    if_neg (by simp), if_pos ⟨rfl, rfl⟩]
  split
  · rfl
  · rename_i hsome
    cases hnone.symm.trans hsome

theorem expand_other {state : LineState} {ch : Char} {rest : Text}
    (h : ¬(state = .Quoted ∧ Marks ch rest)) :
    expand_from env source_path state (ch :: rest) =
      (expand_from env source_path (state.next ch) rest).map (ch :: ·) := by
  cases state with
  | Unquoted =>
    change expand_loop env source_path false false (ch :: rest) = _
    rw [expand_loop, if_pos rfl, LineState.next]
    by_cases hquote : ch = ron_text.quote
    · rw [if_pos hquote, decide_eq_true hquote]
      rfl
    · rw [if_neg hquote, decide_eq_false hquote]
      rfl
  | Escaped =>
    change expand_loop env source_path true true (ch :: rest) = _
    rw [expand_loop, if_neg (by decide), if_pos rfl]
    rfl
  | Quoted =>
    change expand_loop env source_path true false (ch :: rest) = _
    rw [expand_loop, if_neg (by decide), if_neg (by decide), LineState.next]
    by_cases hbackslash : ch = ron_text.backslash
    · rw [if_pos hbackslash, if_pos hbackslash]
      rfl
    by_cases hquote : ch = ron_text.quote
    · rw [if_neg hbackslash, if_pos hquote, if_neg hbackslash, if_pos hquote]
      rfl
    · unfold Marks at h
      rw [if_neg hbackslash, if_neg hquote, if_neg (by tauto), if_neg (by tauto), if_neg hbackslash,
        if_neg hquote]
      rfl

/-! ### From line to line -/

/-- The rest of a file behind a line: nothing, or its newline and the next lines. -/
def AtLineEnd (tail : Text) : Prop := tail = [] ∨ ∃ rest, tail = '\n' :: rest

theorem marks_append {ch : Char} {body tail : Text} (htail : AtLineEnd tail) :
    Marks ch (body ++ tail) ↔ Marks ch (body ++ tail.take 1) := by
  rcases htail with rfl | ⟨rest, rfl⟩
  · rfl
  · cases body <;> rfl

/-- The text of one line, and that of the lines behind it. -/
def joined_lines (line rest : Except String Text) : Except String Text :=
  line >>= fun line => rest.map (line ++ ·)

theorem joined_lines_map (ch : Char) (line rest : Except String Text) :
    joined_lines (line.map (ch :: ·)) rest = (joined_lines line rest).map (ch :: ·) := by
  cases line <;> cases rest <;> rfl

theorem joined_lines_append (value : Text) (line rest : Except String Text) :
    joined_lines (line >>= fun line => .ok (value ++ line)) rest =
      joined_lines line rest >>= fun line => .ok (value ++ line) := by
  cases line with
  | error error => rfl
  | ok line =>
    cases rest with
    | error error => rfl
    | ok rest => exact congrArg Except.ok (List.append_assoc value line rest)

theorem scan_at_line_end {tail : Text} (htail : AtLineEnd tail) (state : LineState) :
    scan env source_path state tail =
      joined_lines (expand_from env source_path state (tail.take 1))
        (scan env source_path .Unquoted (tail.drop 1)) := by
  rcases htail with rfl | ⟨rest, rfl⟩
  · rw [List.take_nil, List.drop_nil, scan_nil, expand_nil, scan_nil]
    rfl
  · have hother : ∀ more, ¬(state = .Quoted ∧ Marks '\n' more) := fun _ h => absurd h.2.1 (by decide)
    rw [scan_other (hother rest), List.take_succ_cons, List.take_zero, expand_other (hother []),
      expand_nil]
    rfl

/-- The brace that ends a placeholder, where it stands on the line. -/
theorem brace_on_line {body tail : Text} (htail : AtLineEnd tail) (hbrace : '\x7d' ∉ body)
    {token more : Text} (h : split_once '\x7d' (body ++ tail) = some (token, more)) :
    '\n' ∈ token := by
  obtain ⟨_, heq⟩ := split_once_eq_some.mp h
  rcases List.append_eq_append_iff.mp heq with ⟨beyond, rfl, htail'⟩ | ⟨beyond, rfl, hrest⟩
  · rcases htail with rfl | ⟨rest, rfl⟩
    · simp at htail'
    · cases beyond with
      | nil => simp at htail'
      | cons first beyond =>
        rw [← (List.cons.inj htail').1]
        exact List.mem_append_right _ List.mem_cons_self
  · cases beyond with
    | nil =>
      rcases htail with rfl | ⟨rest, rfl⟩
      · simp at hrest
      · exact absurd (List.cons.inj hrest).1 (by decide)
    | cons first beyond =>
      rw [(List.cons.inj hrest).1] at hbrace
      exact absurd (List.mem_append_right _ List.mem_cons_self) hbrace

/-- A line of the file, and the lines behind it. -/
theorem scan_line {body tail : Text} (hbody : '\n' ∉ body) (htail : AtLineEnd tail)
    (state : LineState) :
    scan env source_path state (body ++ tail) =
      joined_lines (expand_from env source_path state (body ++ tail.take 1))
        (scan env source_path .Unquoted (tail.drop 1)) := by
  induction hn : body.length using Nat.strong_induction_on generalizing body state with
  | _ n ih =>
    subst hn
    rcases body with _ | ⟨ch, body⟩
    · exact scan_at_line_end htail state
    obtain ⟨hch, hrest⟩ := not_or.mp (List.mem_cons.not.mp hbody)
    by_cases hmarks : state = .Quoted ∧ Marks ch (body ++ tail)
    · obtain ⟨rfl, rfl, hnext⟩ := hmarks
      rcases body with _ | ⟨d, body⟩
      · rcases htail with rfl | ⟨rest, rfl⟩
        · simp at hnext
        · exact absurd hnext (by simp)
      have hline : '\n' ∉ body := fun hin => hrest (List.mem_cons_of_mem _ hin)
      simp only [List.cons_append]
      rcases hnext with hd | hd
      · obtain rfl : d = '$' := Option.some.inj hd
        rw [scan_dollar, expand_dollar, joined_lines_map]
        exact congrArg _ (ih body.length (by simp only [List.length_cons]; omega) hline .Quoted rfl)
      · obtain rfl : d = '\x7b' := Option.some.inj hd
        cases hsplit : split_once '\x7d' body with
        | none =>
          have hbrace := split_once_eq_none.mp hsplit
          have hend : '\x7d' ∉ body ++ tail.take 1 := by
            rcases htail with rfl | ⟨rest, rfl⟩ <;> simpa using hbrace
          rw [scan_unterminated fun token more h => brace_on_line htail hbrace h,
            expand_unterminated hend]
          rfl
        | some parts =>
          obtain ⟨token, more⟩ := parts
          obtain ⟨hbrace, rfl⟩ := split_once_eq_some.mp hsplit
          have htoken : '\n' ∉ token := fun hin => hline (List.mem_append_left _ hin)
          have hmore : '\n' ∉ more := fun hin =>
            hline (List.mem_append_right _ (List.mem_cons_of_mem _ hin))
          have hshort : more.length < ('$' :: '\x7b' :: (token ++ '\x7d' :: more)).length := by
            simp only [List.length_cons, List.length_append]
            omega
          simp only [List.append_assoc, List.cons_append]
          rw [scan_placeholder hbrace htoken, expand_placeholder hbrace]
          cases resolve_env_placeholder env source_path token with
          | error error => rfl
          | ok value =>
            simp only [ok_bind, pure_eq_ok]
            rw [joined_lines_append, ih more.length hshort hmore .Quoted rfl]
    · have hline : ¬(state = .Quoted ∧ Marks ch (body ++ tail.take 1)) := by
        rwa [← marks_append htail]
      rw [List.cons_append, List.cons_append, scan_other hmarks, expand_other hline, LineState.step,
        if_neg (Ne.symm hch), joined_lines_map]
      exact congrArg _ (ih body.length (Nat.lt_succ_self _) hrest _ rfl)

/-! ### All lines -/

theorem split_inclusive_line {body tail : Text} (hbody : '\n' ∉ body) (htail : AtLineEnd tail)
    (hne : body ++ tail ≠ []) :
    split_inclusive (body ++ tail) = (body ++ tail.take 1) :: split_inclusive (tail.drop 1) := by
  induction body with
  | nil =>
    rcases htail with rfl | ⟨rest, rfl⟩
    · exact absurd rfl hne
    · rw [List.nil_append, split_inclusive, if_pos rfl]
      rfl
  | cons c body ih =>
    obtain ⟨hc, hbody⟩ := not_or.mp (List.mem_cons.not.mp hbody)
    rw [List.cons_append, split_inclusive, if_neg (Ne.symm hc)]
    by_cases hrest : body ++ tail = []
    · obtain ⟨rfl, rfl⟩ := List.append_eq_nil_iff.mp hrest
      rfl
    · rw [ih hbody hrest]
      rfl

/-- Every text is a line and what stands behind it. -/
theorem exists_line (contents : Text) :
    ∃ body tail, contents = body ++ tail ∧ '\n' ∉ body ∧ AtLineEnd tail := by
  cases hsplit : split_once '\n' contents with
  | none => exact ⟨contents, [], (List.append_nil _).symm, split_once_eq_none.mp hsplit, .inl rfl⟩
  | some parts =>
    obtain ⟨hnot, hcontents⟩ := split_once_eq_some.mp hsplit
    exact ⟨parts.1, '\n' :: parts.2, hcontents, hnot, .inr ⟨_, rfl⟩⟩

/-- The last line of a text that ends in no newline is the last piece. -/
theorem split_inclusive_last {before last : Text} (hlast : '\n' ∉ last) (hne : last ≠ []) :
    ∃ lines, lines ≠ [] ∧ split_inclusive (before ++ '\n' :: last) = lines ++ [last] := by
  induction before with
  | nil =>
    have hpiece := @split_inclusive_line last [] hlast (.inl rfl) (by simpa using hne)
    simp only [List.append_nil, List.take_nil, List.drop_nil] at hpiece
    refine ⟨[['\n']], List.cons_ne_nil _ _, ?_⟩
    rw [List.nil_append, split_inclusive, if_pos rfl, hpiece]
    rfl
  | cons c before ih =>
    obtain ⟨lines, hlines, hsplit⟩ := ih
    rw [List.cons_append, split_inclusive, hsplit]
    by_cases hc : c = '\n'
    · rw [if_pos hc]
      exact ⟨[c] :: lines, List.cons_ne_nil _ _, rfl⟩
    · rw [if_neg hc]
      obtain ⟨line, rest, rfl⟩ := List.exists_cons_of_ne_nil hlines
      exact ⟨(c :: line) :: rest, List.cons_ne_nil _ _, rfl⟩

/-- The check behind `split_inclusive` finds its last line there already. -/
theorem split_lines_preserving_newlines_eq {contents : Text} (hne : contents ≠ []) :
    split_lines_preserving_newlines contents = split_inclusive contents := by
  unfold split_lines_preserving_newlines
  rw [if_neg hne]
  dsimp only
  split
  · rename_i before last hlast
    obtain ⟨parts, hsplit, hparts⟩ := Option.map_eq_some_iff.mp hlast
    obtain ⟨hnot, hreverse⟩ := split_once_eq_some.mp hsplit
    obtain ⟨rfl, rfl⟩ := Prod.mk.inj hparts
    have hcontents : contents = parts.2.reverse ++ '\n' :: parts.1.reverse := by
      rw [← List.reverse_reverse contents, hreverse]
      simp
    rw [if_neg]
    rintro ⟨hend, hpush⟩
    have hne' : parts.1.reverse ≠ [] := by
      intro hnil
      rw [hcontents, hnil] at hend
      simp at hend
    obtain ⟨lines, _, hlines⟩ := @split_inclusive_last parts.2.reverse _
      (by simpa using hnot) hne'
    rw [hcontents, hlines] at hpush
    simp at hpush
  · rfl

/-- No line of the file asks for an include. -/
def IncludeFree (contents : Text) : Prop :=
  ∀ line ∈ split_lines_preserving_newlines contents, include_directive line = none

theorem includeFree_of_line {contents : Text} (hline : '\n' ∉ contents) (hne : contents ≠ [])
    (h : include_directive contents = none) : IncludeFree contents := by
  unfold IncludeFree
  rw [split_lines_preserving_newlines_eq hne]
  have hpiece := @split_inclusive_line contents [] hline (.inl rfl) (by simpa using hne)
  rw [List.append_nil, List.take_nil, List.append_nil, List.drop_nil, split_inclusive] at hpiece
  rw [hpiece]
  simpa using h

theorem preprocess_split_inclusive (included : Text → Text → Except String Text) {contents : Text}
    (h : ∀ line ∈ split_inclusive contents, include_directive line = none) :
    preprocess_lines env source_path included (split_inclusive contents) =
      scan env source_path .Unquoted contents := by
  induction hn : contents.length using Nat.strong_induction_on generalizing contents with
  | _ n ih =>
    subst hn
    obtain ⟨body, tail, rfl, hbody, htail⟩ := exists_line contents
    by_cases hne : body ++ tail = []
    · rw [hne, scan_nil]
      rfl
    · rw [split_inclusive_line hbody htail hne] at h ⊢
      obtain ⟨hline, hlines⟩ := List.forall_mem_cons.mp h
      have hshort : (tail.drop 1).length < (body ++ tail).length := by
        have hpos := List.length_pos_iff.mpr hne
        rw [List.length_append] at hpos ⊢
        rw [List.length_drop]
        omega
      rw [preprocess_lines, hline, ih _ hshort hlines rfl, scan_line hbody htail]
      change (expand_from env source_path .Unquoted (body ++ tail.take 1) >>= _) = _
      refine congrArg _ (funext fun line => ?_)
      cases scan env source_path .Unquoted (tail.drop 1) <;> rfl

/-- A file without includes is expanded in one pass. -/
theorem preprocess_source_eq_scan (included : Text → Text → Except String Text) {contents : Text}
    (h : IncludeFree contents) :
    preprocess_source env source_path included contents =
      scan env source_path .Unquoted contents := by
  unfold preprocess_source
  by_cases hne : contents = []
  · subst hne
    rw [scan_nil]
    change preprocess_lines env source_path included [[]] = _
    rw [preprocess_lines, show include_directive [] = none from rfl]
    dsimp only
    rw [expand_env_placeholders_in_ron_strings, expand_loop]
    rfl
  · unfold IncludeFree at h
    rw [split_lines_preserving_newlines_eq hne] at h ⊢
    exact preprocess_split_inclusive included h

end

end rginx.config.load
