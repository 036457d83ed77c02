-- What the placeholders of a configuration file mean, beside what RON reads in the file that the
-- expansion gives: each stands in the text of a string literal, and RON reads its value there as it
-- is in the environment.
import Rginx.EnvExpand
import Rginx.SeparatedFields

open rust_text rust_result

namespace rginx.config.load

/-! ## What a file means -/

/-- The value of a variable, or what stands for one that is not set. -/
def Var.value_or : Var → Option Text → Option Text
  | .Present value, _ => some value
  | .NotPresent, default_ => default_
  | .NotUnicode, _ => none

/-- The value of the placeholder `NAME` or `NAME:-default`. -/
def placeholder_value (env : Environment) (token : Text) : Option Text :=
  let name := token.takeWhile is_name_char
  if name = [] then none
  else match token.drop name.length with
    | [] => (env name).value_or none
    | ':' :: '-' :: default_ => (env name).value_or (some default_)
    | _ => none

/-- What RON reads in a file, with the placeholders of its string literals left open. -/
inductive Piece
  | item (item : ron_text.Item)
  | placeholder (token : Text)

/-- The pieces of a file. A literal holds each of its placeholders whole, and `$$` in a literal
stands for one dollar. -/
def pieces (state : ron_text.State) : Text → Option (List Piece)
  | [] => if ron_text.final state then some [] else none
  | ch :: rest =>
    if state = .literal .Text ∧ ch = '$' ∧ rest.head? = some '$' then
      (pieces state (rest.drop 1)).map (.item (.value '$') :: ·)
    else if state = .literal .Text ∧ ch = '$' ∧ rest.head? = some '\x7b' then
      match _hsplit : split_once '\x7d' (rest.drop 1) with
      | none => none
      | some (token, rest') =>
        if ron_text.literal_run .Text (token ++ ['\x7d']) = some .Text then
          (pieces state rest').map (.placeholder token :: ·)
        else none
    else
      match ron_text.step state ch with
      | none => none
      | some (next, items) => (pieces next rest).map (items.map .item ++ ·)
  termination_by contents => contents.length
  decreasing_by
    all_goals simp_wf
    all_goals try have hlength := congrArg List.length (split_once_eq_some.mp _hsplit).2
    all_goals try simp only [List.length_drop, List.length_append, List.length_cons] at hlength
    all_goals omega

/-- The placeholders filled in. -/
def fill (env : Environment) : List Piece → Option (List ron_text.Item)
  | [] => some []
  | .item item :: rest => (fill env rest).map (item :: ·)
  | .placeholder token :: rest => do
    let value ← placeholder_value env token
    let items ← fill env rest
    return value.map .value ++ items

/-- What RON is to read in the expanded file. -/
def meaning (env : Environment) (contents : Text) : Option (List ron_text.Item) :=
  (pieces (.source .Code) contents).bind (fill env)

/-- A file that RON can read, where each `$` before a brace in a string literal begins a placeholder,
after `$$` as the way to write a dollar. -/
def Template (contents : Text) : Prop :=
  ∃ parts, pieces (.source .Code) contents = some parts ∧
    ∀ token, .placeholder token ∈ parts → ∃ env value, placeholder_value env token = some value

/-- The placeholders are expanded, and nothing else: the result is what RON is to read, or an error
where a placeholder has no value. -/
def Expands (env : Environment) (source_path : Text) (included : Text → Text → Except String Text)
    (contents : Text) : Prop :=
  match meaning env contents with
  | some items => ∃ expanded, preprocess_source env source_path included contents = .ok expanded ∧
      ron_text.read (.source .Code) expanded = some items
  | none => ∃ error, preprocess_source env source_path included contents = .error error

def LineState.run (state : LineState) (contents : Text) : LineState := contents.foldl LineState.step state

/-- Wherever it matters, an odd number of quotes on the line tells the text of a string literal, and
no placeholder runs over the end of its line. -/
structure InStep (contents : Text) : Prop where
  quoted_iff : ∀ before ch after, contents = before ++ '$' :: ch :: after → ch = '$' ∨ ch = '\x7b' →
    (LineState.run .Unquoted before = .Quoted ↔
      ron_text.run (.source .Code) before = some (.literal .Text))
  on_line : ∀ parts, pieces (.source .Code) contents = some parts →
    ∀ token, .placeholder token ∈ parts → '\n' ∉ token

/-! ## One placeholder -/

theorem split_default_cons {c : Char} {rest : Text} (h : ¬(c = ':' ∧ rest.head? = some '-')) :
    split_default (c :: rest) =
      (split_default rest).map fun parts => (c :: parts.1, parts.2) := by
  rw [split_default]
  rintro more rfl rfl
  exact h ⟨rfl, rfl⟩

theorem split_default_append {name : Text} (h : ':' ∉ name) (more : Text) :
    split_default (name ++ more) =
      (split_default more).map fun parts => (name ++ parts.1, parts.2) := by
  induction name with
  | nil => cases hsplit : split_default more <;> simp [hsplit]
  | cons c name ih =>
    obtain ⟨hc, hname⟩ := not_or.mp (List.mem_cons.not.mp h)
    rw [List.cons_append, split_default_cons fun hboth => hc hboth.1.symm, ih hname]
    cases split_default more <;> rfl

/-- A character that belongs to no name, before any `:-`, makes the placeholder invalid. -/
theorem resolve_env_placeholder_invalid (env : Environment) (source_path : Text) {name rest : Text}
    {c : Char} (hname : ':' ∉ name) (hc : is_name_char c = false)
    (h : ¬(c = ':' ∧ rest.head? = some '-')) :
    ∃ error, resolve_env_placeholder env source_path (name ++ c :: rest) = .error error := by
  have hall : ∀ more, (name ++ c :: more).all is_name_char = false := fun more => by
    simp [List.all_append, hc]
  unfold resolve_env_placeholder split_token
  rw [split_default_append hname, split_default_cons h]
  cases split_default rest with
  | none => exact ⟨_, if_pos (.inr (hall rest))⟩
  | some parts => exact ⟨_, if_pos (.inr (hall parts.1))⟩

/-- A name, and a default where the placeholder has one. -/
theorem resolve_env_placeholder_valid (env : Environment) (source_path : Text) {token name : Text}
    {default_ : Option Text}
    (hsplit : split_token token = (name, default_)) (hall : name.all is_name_char = true) :
    (resolve_env_placeholder env source_path token).toOption =
      if name = [] then none else (env name).value_or default_ := by
  unfold resolve_env_placeholder
  rw [hsplit]
  dsimp only
  by_cases hname : name = []
  · rw [if_pos (.inl hname), if_pos hname]
    rfl
  · rw [if_neg (by simp [hname, hall]), if_neg hname]
    cases env name with
    | Present value => rfl
    | NotPresent => cases default_ <;> rfl
    | NotUnicode => rfl

theorem resolve_env_placeholder_toOption (env : Environment) (source_path token : Text) :
    (resolve_env_placeholder env source_path token).toOption = placeholder_value env token := by
  generalize hname : token.takeWhile is_name_char = name
  generalize hmore : token.dropWhile is_name_char = more
  have htoken : token = name ++ more := by
    rw [← hname, ← hmore, List.takeWhile_append_dropWhile]
  have hdrop : token.drop name.length = more := by rw [htoken, List.drop_left]
  have hall : name.all is_name_char = true := by
    rw [List.all_eq_true, ← hname]
    exact fun c hc => List.mem_takeWhile_imp hc
  have hcolon : ':' ∉ name := fun hin => absurd (List.all_eq_true.mp hall _ hin) (by decide)
  unfold placeholder_value
  dsimp only
  rw [hname, hdrop]
  rcases more with _ | ⟨c, rest⟩
  · rw [List.append_nil] at htoken
    subst htoken
    refine resolve_env_placeholder_valid env source_path ?_ hall
    have hsplit := split_default_append hcolon []
    rw [List.append_nil] at hsplit
    rw [split_token, hsplit]
    rfl
  by_cases hdefault : c = ':' ∧ rest.head? = some '-'
  · obtain ⟨rfl, hdash⟩ := hdefault
    obtain ⟨default_, rfl⟩ : ∃ default_, rest = '-' :: default_ := List.head?_eq_some_iff.mp hdash
    refine resolve_env_placeholder_valid env source_path ?_ hall
    rw [htoken, split_token, split_default_append hcolon]
    simp [split_default]
  · have hc : is_name_char c = false := by
      have hhead := List.head?_dropWhile_not is_name_char token
      rw [hmore] at hhead
      simpa using hhead
    obtain ⟨error, herror⟩ := resolve_env_placeholder_invalid env source_path hcolon hc hdefault
    rw [htoken, herror]
    split
    · rfl
    · split
      · rename_i hnil
        cases hnil
      · rename_i default_ hcons
        obtain ⟨rfl, rfl⟩ := List.cons.inj hcons
        exact absurd ⟨rfl, rfl⟩ hdefault
      · rfl

theorem resolve_of_value {env : Environment} {source_path token value : Text}
    (h : placeholder_value env token = some value) :
    resolve_env_placeholder env source_path token = .ok value := by
  rw [← resolve_env_placeholder_toOption env source_path token] at h
  cases hresolve : resolve_env_placeholder env source_path token with
  | error error =>
    rw [hresolve] at h
    cases h
  | ok resolved =>
    rw [hresolve] at h
    rw [Option.some.inj h]

theorem resolve_of_none {env : Environment} {source_path token : Text}
    (h : placeholder_value env token = none) :
    ∃ error, resolve_env_placeholder env source_path token = .error error := by
  rw [← resolve_env_placeholder_toOption env source_path token] at h
  cases hresolve : resolve_env_placeholder env source_path token with
  | error error => exact ⟨error, rfl⟩
  | ok resolved =>
    rw [hresolve] at h
    cases h

/-! ## The pieces -/

theorem pieces_nil {state : ron_text.State} :
    pieces state [] = if ron_text.final state then some [] else none := by
  rw [pieces]

theorem pieces_dollar (rest : Text) :
    pieces (.literal .Text) ('$' :: '$' :: rest) =
      (pieces (.literal .Text) rest).map (.item (.value '$') :: ·) := by
  rw [pieces, if_pos ⟨rfl, rfl, rfl⟩]
  rfl

theorem pieces_placeholder {rest : Text} {parts : List Piece}
    (h : pieces (.literal .Text) ('$' :: '\x7b' :: rest) = some parts) :
    ∃ token more parts', rest = token ++ '\x7d' :: more ∧ '\x7d' ∉ token ∧
      ron_text.literal_run .Text (token ++ ['\x7d']) = some .Text ∧
      pieces (.literal .Text) more = some parts' ∧ parts = .placeholder token :: parts' := by
  rw [pieces, if_neg (by simp), if_pos ⟨rfl, rfl, rfl⟩] at h
  split at h
  · cases h
  · rename_i token more hsplit
    obtain ⟨hbrace, hrest⟩ := split_once_eq_some.mp hsplit
    split at h
    · rename_i hrun
      obtain ⟨parts', hparts', rfl⟩ := Option.map_eq_some_iff.mp h
      exact ⟨token, more, parts', hrest, hbrace, hrun, hparts', rfl⟩
    · cases h

theorem pieces_step {state next : ron_text.State} {ch : Char} {rest : Text}
    {items : List ron_text.Item} (h : ¬(state = .literal .Text ∧ Marks ch rest))
    (hstep : ron_text.step state ch = some (next, items)) :
    pieces state (ch :: rest) = (pieces next rest).map (items.map .item ++ ·) := by
  unfold Marks at h
  rw [pieces, if_neg (by tauto), if_neg (by tauto), hstep]

theorem pieces_other {state : ron_text.State} {ch : Char} {rest : Text}
    (h : ¬(state = .literal .Text ∧ Marks ch rest)) {parts : List Piece}
    (hparts : pieces state (ch :: rest) = some parts) :
    ∃ next items parts', ron_text.step state ch = some (next, items) ∧
      pieces next rest = some parts' ∧ parts = items.map .item ++ parts' := by
  cases hstep : ron_text.step state ch with
  | none =>
    unfold Marks at h
    rw [pieces, if_neg (by tauto), if_neg (by tauto), hstep] at hparts
    cases hparts
  | some result =>
    rw [pieces_step h hstep] at hparts
    obtain ⟨parts', hparts', rfl⟩ := Option.map_eq_some_iff.mp hparts
    exact ⟨result.1, result.2, parts', rfl, hparts', rfl⟩

theorem pieces_placeholder_eq {token rest : Text} (hbrace : '\x7d' ∉ token)
    (hrun : ron_text.literal_run .Text (token ++ ['\x7d']) = some .Text) :
    pieces (.literal .Text) ('$' :: '\x7b' :: (token ++ '\x7d' :: rest)) =
      (pieces (.literal .Text) rest).map (.placeholder token :: ·) := by
  have hfirst := split_once_append hbrace rest
  rw [pieces, if_neg (by simp), if_pos ⟨rfl, rfl, rfl⟩]
  split
  · rename_i hnone
    cases hnone.symm.trans hfirst
  · rename_i token' rest' hsome
    obtain ⟨rfl, rfl⟩ := Prod.mk.inj (Option.some.inj (hsome.symm.trans hfirst))
    rw [if_pos hrun]

/-- Outside the literals each character is a piece. -/
theorem pieces_source {state : ron_text.SourceState} (ch : Char) (rest : Text) :
    pieces (.source state) (ch :: rest) =
      (pieces (ron_text.source_step state ch) rest).map (.item (.source ch) :: ·) := by
  have hother : ¬(ron_text.State.source state = .literal .Text ∧ Marks ch rest) := fun h => nomatch h.1
  rw [pieces_step hother rfl]
  rfl

theorem fill_items (env : Environment) (items : List ron_text.Item) (parts : List Piece) :
    fill env (items.map .item ++ parts) = (fill env parts).map (items ++ ·) := by
  induction items with
  | nil => cases hfill : fill env parts <;> simp [hfill]
  | cons item items ih =>
    rw [List.map_cons, List.cons_append, fill, ih, Option.map_map]
    rfl

/-! ## What RON reads of a value -/

/-- The escapes of a value stand for its characters, whatever these are. -/
theorem read_escape (value expanded : Text) :
    ron_text.read (.literal .Text) (escape_ron_string_fragment value ++ expanded) =
      (ron_text.read (.literal .Text) expanded).map (value.map .value ++ ·) := by
  induction value with
  | nil => cases hread : ron_text.read (.literal .Text) expanded <;> simp [escape_ron_string_fragment, hread]
  | cons ch value ih =>
    have hchar : ron_text.read (.literal .Text)
        (escape_char ch ++ (escape_ron_string_fragment value ++ expanded)) =
        (ron_text.read (.literal .Text) (escape_ron_string_fragment value ++ expanded)).map
          (.value ch :: ·) := by
      unfold escape_char
      split_ifs with hbackslash hquote hnewline hreturn htab
      · rw [hbackslash]
        exact ron_text.read_escape (by decide) _
      · rw [hquote]
        exact ron_text.read_escape (by decide) _
      · rw [hnewline]
        exact ron_text.read_escape (by decide) _
      · rw [hreturn]
        exact ron_text.read_escape (by decide) _
      · rw [htab]
        exact ron_text.read_escape (by decide) _
      · exact ron_text.read_value hquote hbackslash _
    rw [escape_ron_string_fragment, List.flatMap_cons, List.append_assoc, ← escape_ron_string_fragment,
      hchar, ih, Option.map_map]
    rfl

/-! ## Quotes on a line -/

theorem line_step_plain {line : LineState} {ch : Char} (hnewline : ch ≠ '\n') (hquote : ch ≠ ron_text.quote)
    (hbackslash : ch ≠ ron_text.backslash) (hline : line ≠ .Escaped) : line.step ch = line := by
  rw [LineState.step, if_neg hnewline]
  cases line with
  | Unquoted => rw [LineState.next, if_neg hquote]
  | Quoted => rw [LineState.next, if_neg hbackslash, if_neg hquote]
  | Escaped => exact absurd rfl hline

/-- Only a backslash inside the quotes escapes what follows. -/
theorem line_step_ne_escaped {line : LineState} {ch : Char}
    (h : line ≠ .Quoted ∨ ch ≠ ron_text.backslash) : line.step ch ≠ .Escaped := by
  unfold LineState.step
  split
  · decide
  · cases line with
    | Unquoted =>
      rw [LineState.next]
      split <;> decide
    | Quoted =>
      rw [LineState.next, if_neg (h.resolve_left (not_not.mpr rfl))]
      split <;> decide
    | Escaped => simp [LineState.next]

theorem ofCode_plain {ch : Char} (h : ron_text.OfCode ch) :
    ch ≠ '\n' ∧ ch ≠ ron_text.quote ∧ ch ≠ ron_text.backslash ∧ ch ≠ '$' := by
  refine ⟨?_, ?_, ?_, ?_⟩ <;>
    (rintro rfl
     exact absurd h (by decide))

/-- In a literal, with the quotes on its line counted from the one that opens it. -/
def Tracks : ron_text.LiteralState → LineState → Prop
  | .Escape, line => line = .Escaped
  | _, line => line = .Quoted

theorem tracks_of_ne {state : ron_text.LiteralState} (h : state ≠ .Escape) {line : LineState} :
    Tracks state line ↔ line = .Quoted := by
  cases state <;> first | rfl | exact absurd rfl h

theorem tracks_step {state next : ron_text.LiteralState} {line : LineState} {ch : Char}
    {items : List ron_text.Item} (h : ron_text.literal_step state ch = some (.literal next, items))
    (hnewline : ch ≠ '\n') (htracks : Tracks state line) : Tracks next (line.step ch) := by
  cases ron_text.literal_step_cases h with
  | escape =>
    obtain rfl : line = .Quoted := htracks
    rfl
  | text hquote hbackslash =>
    obtain rfl : line = .Quoted := htracks
    exact line_step_plain hnewline hquote hbackslash (by decide)
  | escaped _ =>
    obtain rfl : line = .Escaped := htracks
    change LineState.step .Escaped ch = .Quoted
    rw [LineState.step, if_neg hnewline]
    rfl
  | code_start _ hnext =>
    obtain rfl : line = .Escaped := htracks
    rw [tracks_of_ne hnext, LineState.step, if_neg hnewline]
    rfl
  | code _ hescape hc hnext _ =>
    obtain ⟨_, hquote, hbackslash, _⟩ := ofCode_plain hc
    rw [tracks_of_ne hescape] at htracks
    rw [tracks_of_ne hnext, htracks]
    exact line_step_plain hnewline hquote hbackslash (by decide)

theorem tracks_run {state next : ron_text.LiteralState} {line : LineState} {token : Text}
    (h : ron_text.literal_run state token = some next) (hnewline : '\n' ∉ token)
    (htracks : Tracks state line) : Tracks next (line.run token) := by
  induction token generalizing state line with
  | nil =>
    obtain rfl := Option.some.inj h
    exact htracks
  | cons ch token ih =>
    obtain ⟨hch, hrest⟩ := not_or.mp (List.mem_cons.not.mp hnewline)
    unfold ron_text.literal_run at h
    split at h
    · rename_i next' items hstep
      exact ih h hrest (tracks_step hstep (Ne.symm hch) htracks)
    · cases h

/-- A backslash in a literal takes the same character with it for both readers, or the quotes on the
line do not show the literal at all. -/
def Mirrors : ron_text.State → LineState → Prop
  | .source _, _ => True
  | .literal .Escape, line => line ≠ .Quoted
  | .literal _, line => line ≠ .Escaped

theorem mirrors_of_ne {state : ron_text.LiteralState} (h : state ≠ .Escape) {line : LineState} :
    Mirrors (.literal state) line ↔ line ≠ .Escaped := by
  cases state <;> first | rfl | exact absurd rfl h

theorem mirrors_step {state next : ron_text.State} {line : LineState} {ch : Char}
    {items : List ron_text.Item} (h : ron_text.step state ch = some (next, items))
    (hmirrors : Mirrors state line) : Mirrors next (line.step ch) := by
  cases state with
  | source state =>
    obtain ⟨hnext, _⟩ := Prod.mk.inj (Option.some.inj h)
    cases next with
    | source next => trivial
    | literal next =>
      obtain ⟨hquote, rfl⟩ := ron_text.source_step_literal hnext
      exact line_step_ne_escaped (.inr (hquote ▸ by decide))
  | literal state =>
    cases ron_text.literal_step_cases h with
    | close => trivial
    | escape =>
      have hline : line ≠ .Escaped := hmirrors
      cases line with
      | Unquoted => exact fun hquoted => absurd hquoted (by decide)
      | Quoted => exact fun hquoted => absurd hquoted (by decide)
      | Escaped => exact absurd rfl hline
    | text _ hbackslash => exact line_step_ne_escaped (.inr hbackslash)
    | escaped _ => exact line_step_ne_escaped (.inl hmirrors)
    | code_start _ hnext =>
      rw [mirrors_of_ne hnext]
      exact line_step_ne_escaped (.inl hmirrors)
    | code _ _ hc hnext _ =>
      rw [mirrors_of_ne hnext]
      exact line_step_ne_escaped (.inr (ofCode_plain hc).2.2.1)

/-! ## Two readers in step -/

/-- What `InStep` says of the quotes, in the middle of a file. -/
def InStepFrom (state : ron_text.State) (line : LineState) (contents : Text) : Prop :=
  ∀ before ch after, contents = before ++ '$' :: ch :: after → ch = '$' ∨ ch = '\x7b' →
    (line.run before = .Quoted ↔ ron_text.run state before = some (.literal .Text))

section

variable {state next : ron_text.State} {line : LineState} {ch : Char} {rest : Text}
  {items : List ron_text.Item}

theorem InStepFrom.head (h : InStepFrom state line (ch :: rest)) (hmarks : Marks ch rest) :
    line = .Quoted ↔ state = .literal .Text := by
  obtain ⟨rfl, hnext⟩ := hmarks
  have hpair : ∀ d, rest.head? = some d → d = '$' ∨ d = '\x7b' →
      (line = .Quoted ↔ state = .literal .Text) := by
    intro d hd hmark
    obtain ⟨after, rfl⟩ := List.head?_eq_some_iff.mp hd
    have hhere := h [] d after rfl hmark
    rwa [ron_text.run_nil, Option.some.injEq] at hhere
  rcases hnext with hd | hd
  · exact hpair _ hd (.inl rfl)
  · exact hpair _ hd (.inr rfl)

theorem InStepFrom.append {before : Text} (h : InStepFrom state line (before ++ rest))
    (hrun : ron_text.run state before = some next) : InStepFrom next (line.run before) rest := by
  intro more d after hrest hmark
  have hthere := h (before ++ more) d after (by rw [hrest, List.append_assoc]) hmark
  rw [ron_text.run_append, hrun, Option.bind_some] at hthere
  rwa [LineState.run, List.foldl_append] at hthere

theorem InStepFrom.tail (h : InStepFrom state line (ch :: rest))
    (hstep : ron_text.step state ch = some (next, items)) : InStepFrom next (line.step ch) rest := by
  have hone : ron_text.run state [ch] = some next := by
    rw [ron_text.run_cons, hstep, Option.bind_some, ron_text.run_nil]
  have hcontents : InStepFrom state line ([ch] ++ rest) := h
  exact hcontents.append hone

/-- Behind a placeholder of a literal, both readers are in the text of the literal. -/
theorem InStepFrom.placeholder {token : Text}
    (h : InStepFrom (.literal .Text) .Quoted ('$' :: '\x7b' :: (token ++ '\x7d' :: rest)))
    (hrun : ron_text.literal_run .Text (token ++ ['\x7d']) = some .Text) (hline : '\n' ∉ token) :
    InStepFrom (.literal .Text) .Quoted rest := by
  have hwhole : ron_text.literal_run .Text ('$' :: '\x7b' :: (token ++ ['\x7d'])) = some .Text := hrun
  have hplain : '\n' ∉ '$' :: '\x7b' :: (token ++ ['\x7d']) := by simp [hline]
  have hquoted : LineState.run .Quoted ('$' :: '\x7b' :: (token ++ ['\x7d'])) = .Quoted :=
    tracks_run hwhole hplain rfl
  have hcontents : InStepFrom (.literal .Text) .Quoted
      (('$' :: '\x7b' :: (token ++ ['\x7d'])) ++ rest) := by simpa using h
  rw [← hquoted]
  exact hcontents.append (ron_text.run_of_literal_run hwhole)

theorem InStepFrom.cons (hhead : Marks ch rest → (line = .Quoted ↔ state = .literal .Text))
    (hstep : ron_text.step state ch = some (next, items))
    (htail : InStepFrom next (line.step ch) rest) : InStepFrom state line (ch :: rest) := by
  rintro (_ | ⟨first, before⟩) d after hcontents hmark
  · obtain ⟨rfl, rfl⟩ := List.cons.inj hcontents
    have hmarks : Marks '$' (d :: after) := ⟨rfl, hmark.imp (congrArg some) (congrArg some)⟩
    rw [ron_text.run_nil, Option.some.injEq]
    exact hhead hmarks
  · obtain ⟨rfl, rfl⟩ := List.cons.inj hcontents
    rw [ron_text.run_cons, hstep, Option.bind_some]
    exact htail before d after rfl hmark

theorem inStepFrom_nil : InStepFrom state line [] := by
  intro before ch after hcontents
  simp at hcontents

end

/-- What the expansion of a text gives is what RON is to read in it. -/
def Agrees (env : Environment) (source_path : Text) (state : ron_text.State) (line : LineState)
    (contents : Text) (parts : List Piece) : Prop :=
  match fill env parts with
  | some items => ∃ expanded, scan env source_path line contents = .ok expanded ∧
      ron_text.read state expanded = some items
  | none => ∃ error, scan env source_path line contents = .error error

section

variable {env : Environment} {source_path : Text} {state next : ron_text.State} {line : LineState}
  {ch : Char} {rest : Text} {items : List ron_text.Item} {parts : List Piece}

theorem Agrees.dollar (h : Agrees env source_path (.literal .Text) .Quoted rest parts) :
    Agrees env source_path (.literal .Text) .Quoted ('$' :: '$' :: rest)
      (.item (.value '$') :: parts) := by
  unfold Agrees at h ⊢
  rw [fill, scan_dollar]
  cases hfill : fill env parts with
  | none =>
    rw [hfill] at h
    obtain ⟨error, herror⟩ := h
    exact ⟨error, by rw [herror]; rfl⟩
  | some items =>
    rw [hfill] at h
    obtain ⟨expanded, hexpanded, hread⟩ := h
    refine ⟨'$' :: expanded, by rw [hexpanded]; rfl, ?_⟩
    rw [ron_text.read_value (by decide) (by decide), hread]
    rfl

theorem Agrees.placeholder {token : Text} (hbrace : '\x7d' ∉ token) (hline : '\n' ∉ token)
    (h : Agrees env source_path (.literal .Text) .Quoted rest parts) :
    Agrees env source_path (.literal .Text) .Quoted ('$' :: '\x7b' :: (token ++ '\x7d' :: rest))
      (.placeholder token :: parts) := by
  unfold Agrees at h ⊢
  rw [fill, scan_placeholder hbrace hline]
  cases hvalue : placeholder_value env token with
  | none =>
    obtain ⟨error, herror⟩ := @resolve_of_none env source_path token hvalue
    exact ⟨error, by rw [herror]; rfl⟩
  | some value =>
    rw [resolve_of_value hvalue]
    cases hfill : fill env parts with
    | none =>
      rw [hfill] at h
      obtain ⟨error, herror⟩ := h
      exact ⟨error, by rw [herror]; rfl⟩
    | some items =>
      rw [hfill] at h
      obtain ⟨expanded, hexpanded, hread⟩ := h
      refine ⟨escape_ron_string_fragment value ++ expanded, by rw [hexpanded]; rfl, ?_⟩
      rw [read_escape, hread]
      rfl

theorem Agrees.other (hmarks : ¬(line = .Quoted ∧ Marks ch rest))
    (hstep : ron_text.step state ch = some (next, items))
    (h : Agrees env source_path next (line.step ch) rest parts) :
    Agrees env source_path state line (ch :: rest) (items.map .item ++ parts) := by
  unfold Agrees at h ⊢
  rw [fill_items, scan_other hmarks]
  cases hfill : fill env parts with
  | none =>
    rw [hfill] at h
    obtain ⟨error, herror⟩ := h
    exact ⟨error, by rw [herror]; rfl⟩
  | some values =>
    rw [hfill] at h
    obtain ⟨expanded, hexpanded, hread⟩ := h
    refine ⟨ch :: expanded, by rw [hexpanded]; rfl, ?_⟩
    rw [ron_text.read_cons, hstep, Option.bind_some, hread]
    rfl

/-- Two readers in step agree on the whole text. -/
theorem agrees_of_in_step {contents : Text} (hin : InStepFrom state line contents)
    (hparts : pieces state contents = some parts)
    (hline : ∀ token, .placeholder token ∈ parts → '\n' ∉ token) :
    Agrees env source_path state line contents parts := by
  induction hn : contents.length using Nat.strong_induction_on
    generalizing contents state line parts with
  | _ n ih =>
    subst hn
    rcases contents with _ | ⟨ch, rest⟩
    · rw [pieces_nil] at hparts
      split at hparts
      · rename_i hfinal
        obtain rfl := Option.some.inj hparts
        exact ⟨[], scan_nil line, by rw [ron_text.read, if_pos hfinal]⟩
      · cases hparts
    by_cases hmarks : line = .Quoted ∧ Marks ch rest
    · obtain ⟨rfl, hmarks⟩ := hmarks
      obtain rfl := (hin.head hmarks).mp rfl
      obtain ⟨rfl, hnext⟩ := hmarks
      rcases hnext with hd | hd
      · obtain ⟨rest, rfl⟩ := List.head?_eq_some_iff.mp hd
        rw [pieces_dollar] at hparts
        obtain ⟨parts', hparts', rfl⟩ := Option.map_eq_some_iff.mp hparts
        have hpair : InStepFrom (.literal .Text) .Quoted (['$', '$'] ++ rest) := hin
        have hin' : InStepFrom (.literal .Text) .Quoted rest := hpair.append rfl
        exact (ih rest.length (by simp only [List.length_cons]; omega) hin' hparts'
          (fun token hin => hline token (List.mem_cons_of_mem _ hin)) rfl).dollar
      · obtain ⟨rest, rfl⟩ := List.head?_eq_some_iff.mp hd
        obtain ⟨token, more, parts', rfl, hbrace, hrun, hparts', rfl⟩ := pieces_placeholder hparts
        have hon_line := hline token List.mem_cons_self
        have hshort : more.length < ('$' :: '\x7b' :: (token ++ '\x7d' :: more)).length := by
          simp only [List.length_cons, List.length_append]
          omega
        exact (ih more.length hshort (hin.placeholder hrun hon_line) hparts'
          (fun token hin => hline token (List.mem_cons_of_mem _ hin)) rfl).placeholder hbrace hon_line
    · have hother : ¬(state = .literal .Text ∧ Marks ch rest) := by
        rintro ⟨hstate, hboth⟩
        exact hmarks ⟨(hin.head hboth).mpr hstate, hboth⟩
      obtain ⟨next, items, parts', hstep, hparts', rfl⟩ := pieces_other hother hparts
      exact (ih rest.length (Nat.lt_succ_self _) (hin.tail hstep) hparts'
        (fun token hin => hline token (List.mem_append_right _ hin)) rfl).other hmarks hstep

end

/-! ## Two readers out of step

Where every variable holds an `x`, a text that the two readers take apart shows it. -/

def marked : Environment := fun _ => .Present ['x']

theorem placeholder_value_marked {token value : Text} (h : placeholder_value marked token = some value) :
    value = ['x'] := by
  unfold placeholder_value at h
  dsimp only at h
  split at h
  · cases h
  · split at h
    · exact (Option.some.inj h).symm
    · exact (Option.some.inj h).symm
    · cases h

/-- A placeholder with a value somewhere has one where every variable is set. -/
theorem placeholder_value_of_valid {env : Environment} {token value : Text}
    (h : placeholder_value env token = some value) : placeholder_value marked token = some ['x'] := by
  unfold placeholder_value at h ⊢
  dsimp only at h ⊢
  split at h
  · cases h
  · rename_i hname
    rw [if_neg hname]
    split at h
    · rfl
    · rfl
    · cases h

theorem fill_marked {parts : List Piece}
    (h : ∀ token, .placeholder token ∈ parts → ∃ env value, placeholder_value env token = some value) :
    ∃ items, fill marked parts = some items := by
  induction parts with
  | nil => exact ⟨[], rfl⟩
  | cons part parts ih =>
    obtain ⟨items, hitems⟩ := ih fun token hin => h token (List.mem_cons_of_mem _ hin)
    cases part with
    | item item => exact ⟨item :: items, by rw [fill, hitems]; rfl⟩
    | placeholder token =>
      obtain ⟨env, value, hvalue⟩ := h token List.mem_cons_self
      exact ⟨['x'].map .value ++ items, by rw [fill, placeholder_value_of_valid hvalue, hitems]; rfl⟩

theorem fill_placeholder_marked {token : Text} {parts : List Piece} {items : List ron_text.Item}
    (h : fill marked (.placeholder token :: parts) = some items) :
    ∃ items', fill marked parts = some items' ∧ items = .value 'x' :: items' := by
  rw [fill] at h
  obtain ⟨value, hvalue, h⟩ := Option.bind_eq_some_iff.mp h
  obtain ⟨items', hitems', h⟩ := Option.bind_eq_some_iff.mp h
  rw [placeholder_value_marked hvalue] at h
  exact ⟨items', hitems', (Option.some.inj h).symm⟩

theorem scan_placeholder_marked {source_path rest expanded : Text}
    (h : scan marked source_path .Quoted ('$' :: '\x7b' :: rest) = .ok expanded) :
    ∃ token more expanded', rest = token ++ '\x7d' :: more ∧ '\x7d' ∉ token ∧ '\n' ∉ token ∧
      scan marked source_path .Quoted more = .ok expanded' ∧ expanded = 'x' :: expanded' := by
  by_cases hend : ∀ token more, split_once '\x7d' rest = some (token, more) → '\n' ∈ token
  · rw [scan_unterminated hend] at h
    cases h
  · simp only [not_forall] at hend
    obtain ⟨token, more, hsplit, hline⟩ := hend
    obtain ⟨hbrace, rfl⟩ := split_once_eq_some.mp hsplit
    rw [scan_placeholder hbrace hline] at h
    obtain ⟨value, hvalue, h⟩ := bind_eq_ok.mp h
    obtain ⟨expanded', hexpanded', h⟩ := bind_eq_ok.mp h
    have hmarked := resolve_env_placeholder_toOption marked source_path token
    rw [hvalue] at hmarked
    obtain rfl := placeholder_value_marked hmarked.symm
    exact ⟨token, more, expanded', rfl, hbrace, hline, hexpanded', (Except.ok.inj h).symm⟩

/-! ### Runs of dollars -/

def dollars (contents : Text) : Nat := (contents.takeWhile (· = '$')).length

def is_dollar (item : ron_text.Item) : Bool := item = .source '$' ∨ item = .value '$'

def item_dollars (items : List ron_text.Item) : Nat := (items.takeWhile is_dollar).length

@[simp]
theorem dollars_dollar (rest : Text) : dollars ('$' :: rest) = dollars rest + 1 := rfl

theorem dollars_other {ch : Char} (h : ch ≠ '$') (rest : Text) : dollars (ch :: rest) = 0 := by
  unfold dollars
  rw [List.takeWhile_cons_of_neg (by simpa using h)]
  rfl

theorem item_dollars_dollar {item : ron_text.Item} (h : is_dollar item = true)
    (items : List ron_text.Item) : item_dollars (item :: items) = item_dollars items + 1 := by
  unfold item_dollars
  rw [List.takeWhile_cons_of_pos h]
  rfl

theorem item_dollars_other {item : ron_text.Item} (h : is_dollar item = false)
    (items : List ron_text.Item) : item_dollars (item :: items) = 0 := by
  unfold item_dollars
  rw [List.takeWhile_cons_of_neg (by simp [h])]
  rfl

theorem is_dollar_source {ch : Char} : is_dollar (.source ch) = true ↔ ch = '$' := by
  simp [is_dollar]

theorem is_dollar_value {ch : Char} : is_dollar (.value ch) = true ↔ ch = '$' := by
  simp [is_dollar]

/-- The expansion makes no run of dollars longer. -/
theorem scan_dollars_le {source_path : Text} {line : LineState} {contents expanded : Text}
    (h : scan marked source_path line contents = .ok expanded) : dollars expanded ≤ dollars contents := by
  induction hn : contents.length using Nat.strong_induction_on generalizing contents line expanded with
  | _ n ih =>
    subst hn
    rcases contents with _ | ⟨ch, rest⟩
    · rw [scan_nil] at h
      obtain rfl := Except.ok.inj h
      exact Nat.le_refl _
    by_cases hmarks : line = .Quoted ∧ Marks ch rest
    · obtain ⟨rfl, rfl, hnext⟩ := hmarks
      rcases hnext with hd | hd
      · obtain ⟨rest, rfl⟩ := List.head?_eq_some_iff.mp hd
        rw [scan_dollar] at h
        obtain ⟨expanded', hexpanded', rfl⟩ := map_eq_ok.mp h
        have hrest := ih rest.length (by simp only [List.length_cons]; omega) hexpanded' rfl
        rw [dollars_dollar, dollars_dollar, dollars_dollar]
        omega
      · obtain ⟨rest, rfl⟩ := List.head?_eq_some_iff.mp hd
        obtain ⟨_, _, expanded', _, _, _, _, rfl⟩ := scan_placeholder_marked h
        rw [dollars_other (by decide)]
        exact Nat.zero_le _
    · rw [scan_other hmarks] at h
      obtain ⟨expanded', hexpanded', rfl⟩ := map_eq_ok.mp h
      have hrest := ih rest.length (Nat.lt_succ_self _) hexpanded' rfl
      by_cases hch : ch = '$'
      · rw [hch, dollars_dollar, dollars_dollar]
        omega
      · rw [dollars_other hch]
        exact Nat.zero_le _

/-- Outside the literals a dollar stays outside. -/
theorem step_source_dollar (state : ron_text.SourceState) :
    ∃ next, ron_text.source_step state '$' = .source next := by
  cases hnext : ron_text.source_step state '$' with
  | source next => exact ⟨next, rfl⟩
  | literal next => exact absurd (ron_text.source_step_literal hnext).1 (by decide)

theorem read_source_dollars {state : ron_text.SourceState} {contents : Text}
    {items : List ron_text.Item} (h : ron_text.read (.source state) contents = some items) :
    item_dollars items = dollars contents := by
  induction contents generalizing state items with
  | nil =>
    rw [ron_text.read] at h
    split at h
    · obtain rfl := Option.some.inj h
      rfl
    · cases h
  | cons ch rest ih =>
    rw [ron_text.read_source] at h
    obtain ⟨items', hitems', rfl⟩ := Option.map_eq_some_iff.mp h
    by_cases hch : ch = '$'
    · subst hch
      obtain ⟨next, hnext⟩ := step_source_dollar state
      rw [hnext] at hitems'
      rw [item_dollars_dollar (is_dollar_source.mpr rfl), dollars_dollar, ih hitems']
    · rw [item_dollars_other (by simpa [is_dollar] using hch), dollars_other hch]

theorem dollars_le_pieces {state : ron_text.SourceState} {contents : Text} {parts : List Piece}
    {items : List ron_text.Item} (hparts : pieces (.source state) contents = some parts)
    (hfill : fill marked parts = some items) : dollars contents ≤ item_dollars items := by
  induction contents generalizing state parts items with
  | nil => exact Nat.zero_le _
  | cons ch rest ih =>
    by_cases hch : ch = '$'
    · subst hch
      obtain ⟨next, hnext⟩ := step_source_dollar state
      rw [pieces_source, hnext] at hparts
      obtain ⟨parts', hparts', rfl⟩ := Option.map_eq_some_iff.mp hparts
      obtain ⟨items', hitems', rfl⟩ := Option.map_eq_some_iff.mp hfill
      have hrest := ih hparts' hitems'
      rw [item_dollars_dollar (is_dollar_source.mpr rfl), dollars_dollar]
      omega
    · rw [dollars_other hch]
      exact Nat.zero_le _

theorem scan_unquoted {env : Environment} {source_path : Text} (ch : Char) (rest : Text) :
    scan env source_path .Unquoted (ch :: rest) =
      (scan env source_path (LineState.step .Unquoted ch) rest).map (ch :: ·) :=
  scan_other fun h => absurd h.1 (by decide)

theorem escape_value_ne_dollar {ch value : Char} (h : ron_text.escape_value ch = some value) :
    value ≠ '$' := by
  rintro rfl
  unfold ron_text.escape_value at h
  split_ifs at h with hself
  · rw [Option.some.inj h] at hself
    exact absurd hself (by decide)
  all_goals exact absurd (Option.some.inj h) (by decide)

/-- In a literal whose quotes the line does not show, the expansion keeps every dollar. -/
theorem literal_dollars_le {source_path contents expanded : Text} {state : ron_text.LiteralState}
    {parts : List Piece} {expected items : List ron_text.Item}
    (hparts : pieces (.literal state) contents = some parts) (hfill : fill marked parts = some expected)
    (hscan : scan marked source_path .Unquoted contents = .ok expanded)
    (hread : ron_text.read (.literal state) expanded = some items) :
    item_dollars expected ≤ item_dollars items := by
  induction hn : contents.length using Nat.strong_induction_on
    generalizing contents expanded state parts expected items with
  | _ n ih =>
    subst hn
    rcases contents with _ | ⟨ch, rest⟩
    · rw [pieces_nil] at hparts
      cases hparts
    rw [scan_unquoted] at hscan
    obtain ⟨expanded', hexpanded', rfl⟩ := map_eq_ok.mp hscan
    by_cases hmarks : state = .Text ∧ Marks ch rest
    · obtain ⟨rfl, rfl, hnext⟩ := hmarks
      rcases hnext with hd | hd
      · obtain ⟨rest, rfl⟩ := List.head?_eq_some_iff.mp hd
        have hline : LineState.step .Unquoted '$' = .Unquoted := rfl
        rw [pieces_dollar] at hparts
        obtain ⟨parts', hparts', rfl⟩ := Option.map_eq_some_iff.mp hparts
        obtain ⟨expected', hexpected', rfl⟩ := Option.map_eq_some_iff.mp hfill
        rw [hline, scan_unquoted, hline] at hexpanded'
        obtain ⟨expanded, hexpanded, rfl⟩ := map_eq_ok.mp hexpanded'
        rw [ron_text.read_value (by decide) (by decide),
          ron_text.read_value (by decide) (by decide), Option.map_map] at hread
        obtain ⟨items', hitems', rfl⟩ := Option.map_eq_some_iff.mp hread
        have hrest := ih rest.length (by simp only [List.length_cons]; omega) hparts' hexpected'
          hexpanded hitems' rfl
        rw [Function.comp_apply, item_dollars_dollar rfl, item_dollars_dollar rfl,
          item_dollars_dollar rfl]
        omega
      · obtain ⟨rest, rfl⟩ := List.head?_eq_some_iff.mp hd
        obtain ⟨token, more, parts', _, _, _, _, rfl⟩ := pieces_placeholder hparts
        obtain ⟨_, _, rfl⟩ := fill_placeholder_marked hfill
        rw [item_dollars_other rfl]
        exact Nat.zero_le _
    · have hother : ¬(ron_text.State.literal state = .literal .Text ∧ Marks ch rest) :=
        fun h => hmarks ⟨ron_text.State.literal.inj h.1, h.2⟩
      obtain ⟨next, values, parts', hstep, hparts', rfl⟩ := pieces_other hother hparts
      rw [fill_items] at hfill
      obtain ⟨expected', hexpected', rfl⟩ := Option.map_eq_some_iff.mp hfill
      rw [ron_text.read_cons, hstep, Option.bind_some] at hread
      obtain ⟨items', hitems', rfl⟩ := Option.map_eq_some_iff.mp hread
      have hrest : ∀ next', next = .literal next' → LineState.step .Unquoted ch = .Unquoted →
          item_dollars expected' ≤ item_dollars items' := by
        rintro next' rfl hline
        rw [hline] at hexpanded'
        exact ih rest.length (Nat.lt_succ_self _) hparts' hexpected' hexpanded' hitems' rfl
      cases ron_text.literal_step_cases hstep with
      | close => exact Nat.zero_le _
      | escape => exact hrest _ rfl rfl
      | text hquote hbackslash =>
        simp only [List.singleton_append]
        by_cases hch : ch = '$'
        · rw [item_dollars_dollar (is_dollar_value.mpr hch),
            item_dollars_dollar (is_dollar_value.mpr hch)]
          exact Nat.succ_le_succ (hrest _ rfl (hch ▸ rfl))
        · rw [item_dollars_other (by simpa [is_dollar] using hch)]
          exact Nat.zero_le _
      | escaped hvalue =>
        rw [List.singleton_append,
          item_dollars_other (by simpa [is_dollar] using escape_value_ne_dollar hvalue)]
        exact Nat.zero_le _
      | code_start hc _ => exact hrest _ rfl (by rcases hc with rfl | rfl <;> rfl)
      | code _ _ hc _ hitems =>
        obtain ⟨hnewline, hquote, hbackslash, _⟩ := ofCode_plain hc
        have hle := hrest _ rfl (line_step_plain hnewline hquote hbackslash (by decide))
        rcases values with _ | ⟨value, _ | ⟨_, _⟩⟩
        · exact hle
        · cases hvalue : is_dollar value with
          | true =>
            rw [List.singleton_append, List.singleton_append, item_dollars_dollar hvalue,
              item_dollars_dollar hvalue]
            exact Nat.succ_le_succ hle
          | false =>
            rw [List.singleton_append, item_dollars_other hvalue]
            exact Nat.zero_le _
        · simp at hitems

/-! ### Where they part -/

section

variable {source_path rest expanded : Text} {parts : List Piece} {items : List ron_text.Item}

/-- The quotes on a line show a literal where RON reads none. -/
theorem quoted_only {state : ron_text.SourceState} (hmarks : Marks '$' rest)
    (hparts : pieces (.source state) ('$' :: rest) = some parts) (hfill : fill marked parts = some items)
    (hscan : scan marked source_path .Quoted ('$' :: rest) = .ok expanded)
    (hread : ron_text.read (.source state) expanded = some items) : False := by
  have hdollars := dollars_le_pieces hparts hfill
  rw [read_source_dollars hread, dollars_dollar] at hdollars
  rcases hmarks.2 with hd | hd
  · obtain ⟨rest, rfl⟩ := List.head?_eq_some_iff.mp hd
    rw [scan_dollar] at hscan
    obtain ⟨expanded', hexpanded', rfl⟩ := map_eq_ok.mp hscan
    have hle := scan_dollars_le hexpanded'
    rw [dollars_dollar, dollars_dollar] at hdollars
    omega
  · obtain ⟨rest, rfl⟩ := List.head?_eq_some_iff.mp hd
    obtain ⟨_, _, expanded', _, _, _, _, rfl⟩ := scan_placeholder_marked hscan
    rw [dollars_other (by decide : ('x' : Char) ≠ '$')] at hdollars
    omega

/-- RON reads a literal where the quotes on the line show none. -/
theorem literal_only (hmarks : Marks '$' rest)
    (hparts : pieces (.literal .Text) ('$' :: rest) = some parts) (hfill : fill marked parts = some items)
    (hscan : scan marked source_path .Unquoted ('$' :: rest) = .ok expanded)
    (hread : ron_text.read (.literal .Text) expanded = some items) : False := by
  have hline : LineState.step .Unquoted '$' = .Unquoted := rfl
  rw [scan_unquoted, hline] at hscan
  obtain ⟨expanded', hexpanded', rfl⟩ := map_eq_ok.mp hscan
  rw [ron_text.read_value (by decide) (by decide)] at hread
  obtain ⟨items', hitems', rfl⟩ := Option.map_eq_some_iff.mp hread
  rcases hmarks.2 with hd | hd
  · obtain ⟨rest, rfl⟩ := List.head?_eq_some_iff.mp hd
    rw [pieces_dollar] at hparts
    obtain ⟨parts', hparts', rfl⟩ := Option.map_eq_some_iff.mp hparts
    obtain ⟨expected, hexpected, hsame⟩ := Option.map_eq_some_iff.mp hfill
    obtain rfl := (List.cons.inj hsame).2
    rw [scan_unquoted, hline] at hexpanded'
    obtain ⟨expanded, hexpanded, rfl⟩ := map_eq_ok.mp hexpanded'
    rw [ron_text.read_value (by decide) (by decide)] at hitems'
    obtain ⟨items, hitems, rfl⟩ := Option.map_eq_some_iff.mp hitems'
    have hle := literal_dollars_le hparts' hexpected hexpanded hitems
    rw [item_dollars_dollar rfl] at hle
    omega
  · obtain ⟨rest, rfl⟩ := List.head?_eq_some_iff.mp hd
    obtain ⟨token, more, parts', _, _, _, _, rfl⟩ := pieces_placeholder hparts
    obtain ⟨_, _, hsame⟩ := fill_placeholder_marked hfill
    exact absurd (List.cons.inj hsame).1 (by decide)

end

theorem literal_step_dollar {state : ron_text.LiteralState} {next : ron_text.State}
    {items : List ron_text.Item} (h : ron_text.literal_step state '$' = some (next, items)) :
    state = .Text := by
  cases ron_text.literal_step_cases h with
  | text _ _ => rfl
  | escaped hvalue => exact absurd hvalue (by rw [show ron_text.escape_value '$' = none from rfl]; nofun)
  | code_start hc _ => exact absurd hc (by decide)
  | code _ _ hc _ _ => exact absurd hc (by decide)

/-- Inside a placeholder the two readers stay in step. -/
theorem inStepFrom_token {rest token : Text} {state : ron_text.LiteralState} {line : LineState}
    (hrun : ron_text.literal_run state (token ++ ['\x7d']) = some .Text) (hline : '\n' ∉ token)
    (htracks : Tracks state line) (hrest : InStepFrom (.literal .Text) .Quoted rest) :
    InStepFrom (.literal state) line (token ++ '\x7d' :: rest) := by
  induction token generalizing state line with
  | nil =>
    rw [List.nil_append, ron_text.literal_run] at hrun
    split at hrun
    · rename_i next items hstep
      obtain rfl := Option.some.inj hrun
      refine InStepFrom.cons (fun hmarks => absurd hmarks.1 (by decide)) hstep ?_
      have hnext : LineState.step line '\x7d' = .Quoted := tracks_step hstep (by decide) htracks
      rwa [hnext]
    · cases hrun
  | cons ch token ih =>
    obtain ⟨hch, hrest_line⟩ := not_or.mp (List.mem_cons.not.mp hline)
    rw [List.cons_append, ron_text.literal_run] at hrun
    split at hrun
    · rename_i next items hstep
      refine InStepFrom.cons (fun hmarks => ?_) hstep
        (ih hrun hrest_line (tracks_step hstep (Ne.symm hch) htracks))
      obtain rfl := hmarks.1
      obtain rfl := literal_step_dollar hstep
      exact ⟨fun _ => rfl, fun _ => htracks⟩
    · cases hrun

/-- At a mark, the readers that agree on what follows are both in the text of a literal, or both
outside. -/
theorem marks_in_step {source_path rest expanded : Text} {state : ron_text.State} {line : LineState}
    {ch : Char} {parts : List Piece} {items : List ron_text.Item} (hmarks : Marks ch rest)
    (hmirrors : Mirrors state line) (hparts : pieces state (ch :: rest) = some parts)
    (hfill : fill marked parts = some items)
    (hscan : scan marked source_path line (ch :: rest) = .ok expanded)
    (hread : ron_text.read state expanded = some items) :
    line = .Quoted ↔ state = .literal .Text := by
  obtain rfl := hmarks.1
  constructor
  · rintro rfl
    cases state with
    | source state => exact (quoted_only hmarks hparts hfill hscan hread).elim
    | literal state =>
      by_contra hstate
      obtain ⟨_, _, _, hstep, _⟩ := pieces_other (fun h => hstate h.1) hparts
      exact hstate (congrArg _ (literal_step_dollar hstep))
  · rintro rfl
    cases line with
    | Quoted => rfl
    | Unquoted => exact (literal_only hmarks hparts hfill hscan hread).elim
    | Escaped => exact absurd rfl (show LineState.Escaped ≠ .Escaped from hmirrors)

theorem in_step_of_agrees {source_path contents expanded : Text} {state : ron_text.State}
    {line : LineState} {parts : List Piece} {items : List ron_text.Item}
    (hmirrors : Mirrors state line) (hparts : pieces state contents = some parts)
    (hfill : fill marked parts = some items)
    (hscan : scan marked source_path line contents = .ok expanded)
    (hread : ron_text.read state expanded = some items) :
    InStepFrom state line contents ∧ ∀ token, .placeholder token ∈ parts → '\n' ∉ token := by
  induction hn : contents.length using Nat.strong_induction_on
    generalizing contents expanded state line parts items with
  | _ n ih =>
    subst hn
    rcases contents with _ | ⟨ch, rest⟩
    · rw [pieces_nil] at hparts
      split at hparts
      · obtain rfl := Option.some.inj hparts
        exact ⟨inStepFrom_nil, nofun⟩
      · cases hparts
    have hhead := fun hmarks : Marks ch rest => marks_in_step hmarks hmirrors hparts hfill hscan hread
    by_cases hboth : line = .Quoted ∧ Marks ch rest
    · obtain ⟨rfl, hmarks⟩ := hboth
      obtain rfl := (hhead hmarks).mp rfl
      obtain ⟨rfl, hnext⟩ := hmarks
      have hagree : LineState.Quoted = .Quoted ↔ ron_text.State.literal .Text = .literal .Text :=
        ⟨fun _ => rfl, fun _ => rfl⟩
      rcases hnext with hd | hd
      · obtain ⟨rest, rfl⟩ := List.head?_eq_some_iff.mp hd
        rw [pieces_dollar] at hparts
        obtain ⟨parts', hparts', rfl⟩ := Option.map_eq_some_iff.mp hparts
        obtain ⟨items', hitems', rfl⟩ := Option.map_eq_some_iff.mp hfill
        rw [scan_dollar] at hscan
        obtain ⟨expanded', hexpanded', rfl⟩ := map_eq_ok.mp hscan
        rw [ron_text.read_value (by decide) (by decide)] at hread
        obtain ⟨values, hvalues, hsame⟩ := Option.map_eq_some_iff.mp hread
        obtain rfl := (List.cons.inj hsame).2
        obtain ⟨hin, hline⟩ := ih rest.length (by simp only [List.length_cons]; omega) hmirrors hparts'
          hitems' hexpanded' hvalues rfl
        refine ⟨InStepFrom.cons (fun _ => hagree) rfl (InStepFrom.cons (fun _ => hagree) rfl hin), ?_⟩
        intro token htoken
        exact hline token ((List.mem_cons.mp htoken).resolve_left nofun)
      · obtain ⟨rest, rfl⟩ := List.head?_eq_some_iff.mp hd
        obtain ⟨token, more, parts', rfl, hbrace, hrun, hparts', rfl⟩ := pieces_placeholder hparts
        obtain ⟨items', hitems', rfl⟩ := fill_placeholder_marked hfill
        obtain ⟨token', more', expanded', hrest, hbrace', hon_line, hexpanded', rfl⟩ :=
          scan_placeholder_marked hscan
        obtain ⟨rfl, rfl⟩ := separated_fields.first_inj hbrace hbrace' hrest
        rw [ron_text.read_value (by decide) (by decide)] at hread
        obtain ⟨values, hvalues, hsame⟩ := Option.map_eq_some_iff.mp hread
        obtain rfl := (List.cons.inj hsame).2
        have hshort : more.length < ('$' :: '\x7b' :: (token ++ '\x7d' :: more)).length := by
          simp only [List.length_cons, List.length_append]
          omega
        obtain ⟨hin, hline⟩ := ih more.length hshort hmirrors hparts' hitems' hexpanded' hvalues rfl
        have hplain : '\n' ∉ '$' :: '\x7b' :: token := by simp [hon_line]
        have hwhole : InStepFrom (.literal .Text) .Quoted
            (('$' :: '\x7b' :: token) ++ '\x7d' :: more) := inStepFrom_token hrun hplain rfl hin
        refine ⟨hwhole, fun other hother => ?_⟩
        rcases List.mem_cons.mp hother with hsame | hmem
        · rw [Piece.placeholder.inj hsame]
          exact hon_line
        · exact hline other hmem
    · have hother : ¬(state = .literal .Text ∧ Marks ch rest) := fun ⟨hstate, hmarks⟩ =>
        hboth ⟨(hhead hmarks).mpr hstate, hmarks⟩
      obtain ⟨next, values, parts', hstep, hparts', rfl⟩ := pieces_other hother hparts
      rw [fill_items] at hfill
      obtain ⟨items', hitems', rfl⟩ := Option.map_eq_some_iff.mp hfill
      rw [scan_other hboth] at hscan
      obtain ⟨expanded', hexpanded', rfl⟩ := map_eq_ok.mp hscan
      rw [ron_text.read_cons, hstep, Option.bind_some] at hread
      obtain ⟨values', hvalues', hsame⟩ := Option.map_eq_some_iff.mp hread
      obtain rfl := List.append_cancel_left hsame
      obtain ⟨hin, hline⟩ := ih rest.length (Nat.lt_succ_self _) (mirrors_step hstep hmirrors) hparts'
        hitems' hexpanded' hvalues' rfl
      refine ⟨InStepFrom.cons hhead hstep hin, fun token htoken => hline token ?_⟩
      refine (List.mem_append.mp htoken).resolve_left fun hin => ?_
      obtain ⟨_, _, hitem⟩ := List.mem_map.mp hin
      cases hitem

/-! ## The expansion of a file -/

section

variable {source_path contents : Text} {included : Text → Text → Except String Text}

theorem expands_iff {parts : List Piece} (hinclude : IncludeFree contents)
    (hparts : pieces (.source .Code) contents = some parts) (env : Environment) :
    Expands env source_path included contents ↔
      Agrees env source_path (.source .Code) .Unquoted contents parts := by
  unfold Expands Agrees meaning
  rw [preprocess_source_eq_scan included hinclude, hparts]
  rfl

/-- In every environment the placeholders of the string literals are expanded, and nothing else,
exactly in the files that keep the quotes on a line in step with the literals. -/
theorem preprocess_source_expands (hinclude : IncludeFree contents) (htemplate : Template contents) :
    (∀ env, Expands env source_path included contents) ↔ InStep contents := by
  obtain ⟨parts, hparts, hvalid⟩ := htemplate
  constructor
  · intro hexpands
    obtain ⟨items, hitems⟩ := fill_marked hvalid
    have hagrees := (expands_iff hinclude hparts marked).mp (hexpands marked)
    unfold Agrees at hagrees
    rw [hitems] at hagrees
    obtain ⟨expanded, hscan, hread⟩ := hagrees
    have hmirrors : Mirrors (.source .Code) .Unquoted := trivial
    obtain ⟨hin, hline⟩ := in_step_of_agrees hmirrors hparts hitems hscan hread
    refine ⟨hin, fun parts' hparts' => ?_⟩
    obtain rfl := Option.some.inj (hparts.symm.trans hparts')
    exact hline
  · intro hin env
    exact (expands_iff hinclude hparts env).mpr
      (agrees_of_in_step hin.quoted_iff hparts (hin.on_line parts hparts))

end

/-! ### Two files -/

/-- A placeholder alone in a string literal. -/
def one_literal : Text := [ron_text.quote, '$', '\x7b', 'X', '\x7d', ron_text.quote]

/-- The same text behind the slashes of a comment. -/
def one_comment : Text := '/' :: '/' :: one_literal

theorem includeFree_one_literal : IncludeFree one_literal :=
  includeFree_of_line (by decide) (by decide) (by decide)

theorem includeFree_one_comment : IncludeFree one_comment :=
  includeFree_of_line (by decide) (by decide) (by decide)

/-- The state of a reader inside a line comment lasts to the end of the line. -/
theorem pieces_line_comment {contents : Text} (h : '\n' ∉ contents) :
    pieces (.source .LineComment) contents = some (contents.map fun ch => .item (.source ch)) := by
  induction contents with
  | nil =>
    rw [pieces_nil]
    rfl
  | cons ch rest ih =>
    obtain ⟨hch, hrest⟩ := not_or.mp (List.mem_cons.not.mp h)
    rw [pieces_source, ron_text.source_step, if_neg (Ne.symm hch), ih hrest]
    rfl

theorem pieces_one_literal : pieces (.source .Code) one_literal =
    some [.item (.source ron_text.quote), .placeholder ['X'], .item (.source ron_text.quote)] := by
  have hrun : ron_text.literal_run .Text (['X'] ++ ['\x7d']) = some .Text := rfl
  have hopen : ron_text.source_step .Code ron_text.quote = .literal .Text := rfl
  have hclose : ron_text.step (.literal .Text) ron_text.quote =
      some (.source .Code, [.source ron_text.quote]) := rfl
  change pieces (.source .Code)
    (ron_text.quote :: ('$' :: '\x7b' :: (['X'] ++ '\x7d' :: [ron_text.quote]))) = _
  rw [pieces_source, hopen, pieces_placeholder_eq (by decide) hrun,
    pieces_step (fun h => absurd h.2.1 (by decide)) hclose, pieces_nil]
  rfl

theorem inStep_one_literal : InStep one_literal := by
  have hend : InStepFrom (.literal .Text) .Quoted [ron_text.quote] :=
    InStepFrom.cons (fun h => absurd h.1 (by decide)) rfl inStepFrom_nil
  have htoken : InStepFrom (.literal .Text) .Quoted
      (['$', '\x7b', 'X'] ++ '\x7d' :: [ron_text.quote]) := inStepFrom_token rfl (by decide) rfl hend
  refine ⟨InStepFrom.cons (fun h => absurd h.1 (by decide)) rfl htoken, fun parts hparts token hin => ?_⟩
  obtain rfl := Option.some.inj (pieces_one_literal.symm.trans hparts)
  simp only [List.mem_cons, reduceCtorEq, List.not_mem_nil, or_false, false_or,
    Piece.placeholder.injEq] at hin
  rw [hin]
  decide

theorem preprocess_source_expands_one_literal :
    Expands marked "rginx.ron".toList (fun _ _ => .ok []) one_literal := by
  have htemplate : Template one_literal := by
    refine ⟨_, pieces_one_literal, fun token hin => ⟨marked, ['x'], ?_⟩⟩
    simp only [List.mem_cons, reduceCtorEq, List.not_mem_nil, or_false, false_or,
      Piece.placeholder.injEq] at hin
    rw [hin]
    rfl
  exact (preprocess_source_expands includeFree_one_literal htemplate).mpr inStep_one_literal marked

/-- The comment holds no placeholder, and yet the file fails to load where `X` is not set. -/
theorem placeholder_in_comment_fails :
    meaning (fun _ => .NotPresent) one_comment = some (one_comment.map .source) ∧
      preprocess_source (fun _ => .NotPresent) "rginx.ron".toList (fun _ _ => .ok []) one_comment =
        .error "environment variable `X` is not set while loading `rginx.ron`" ∧
      ¬∀ env, Expands env "rginx.ron".toList (fun _ _ => .ok []) one_comment := by
  have hslash : ron_text.source_step .Code '/' = .source .Slash := rfl
  have hcomment : ron_text.source_step .Slash '/' = .source .LineComment := rfl
  have hmeaning : meaning (fun _ => .NotPresent) one_comment = some (one_comment.map .source) := by
    rw [meaning, one_comment, pieces_source, hslash, pieces_source, hcomment,
      pieces_line_comment (by decide)]
    rfl
  have hplain : LineState.step .Unquoted '/' = .Unquoted := rfl
  have hquoted : LineState.step .Unquoted ron_text.quote = .Quoted := rfl
  have hfails : preprocess_source (fun _ => .NotPresent) "rginx.ron".toList (fun _ _ => .ok [])
      one_comment = .error "environment variable `X` is not set while loading `rginx.ron`" := by
    rw [preprocess_source_eq_scan _ includeFree_one_comment]
    change scan _ _ .Unquoted ('/' :: '/' :: ron_text.quote ::
      ('$' :: '\x7b' :: (['X'] ++ '\x7d' :: [ron_text.quote]))) = _
    rw [scan_unquoted, hplain, scan_unquoted, hplain, scan_unquoted, hquoted,
      scan_placeholder (by decide) (by decide)]
    rfl
  refine ⟨hmeaning, hfails, fun hexpands => ?_⟩
  have hread := hexpands fun _ => .NotPresent
  unfold Expands at hread
  rw [hmeaning] at hread
  obtain ⟨expanded, hexpanded, _⟩ := hread
  rw [hfails] at hexpanded
  cases hexpanded

end rginx.config.load
