-- The includes of a configuration file, from `load/preprocess.rs` and `load/include.rs`: the
-- directives, the paths they stand for, the stack of the files that are open, and the expansion.
import Rginx.EnvExpand
import Rginx.NestedTexts
import Rginx.UnixPaths

open rust_text rust_result unix_paths nested_texts

namespace rginx.config.load

/-- What the loader reads from. A file that is not UTF-8 has no text; the process runs in a directory
of the tree. `ron_from_str` is `ron::de::from_str` for a string, and `display` and `read_error` are
what the messages show of a path. -/
structure World where
  tree : FileTree (Option Text)
  cwd : Node
  env : Environment
  ron_from_str : Text → Except String Text
  display : Path → Text
  read_error : Path → String
  in_dir : tree.is_dir cwd = true

/-- A text, and the path it was opened by. -/
structure Source where
  contents : Text
  path : Path

/-- The errors of one line of a file. -/
inductive LineError
  | InvalidDirective (source_path : Path) (error : String)
  | EmptyDirective (source_path : Path)
  | InvalidGlob (pattern source_path : Path)
  | UnsupportedGlob (pattern source_path : Path)
  | GlobParent (parent source_path : Path)
  | Read (include_path source_path : Path)
  | Env (message : String)

inductive IncludeError
  | Cycle (cycle : List Path)
  | Line (error : LineError)

section

variable (world : World)

def World.show_path (path : Path) : String := String.ofList (world.display path)

def LineError.message : LineError → String
  | .InvalidDirective source_path error =>
    s!"invalid include directive in `{world.show_path source_path}`: {error}"
  | .EmptyDirective source_path =>
    s!"include directive in `{world.show_path source_path}` must not be empty"
  | .InvalidGlob pattern source_path =>
    s!"invalid include glob `{world.show_path pattern}` in `{world.show_path source_path}`"
  | .UnsupportedGlob pattern source_path =>
    s!"unsupported include glob `{world.show_path pattern}` in `{world.show_path source_path}`" ++
      "; only `*.ron` file globs are supported"
  | .GlobParent parent source_path =>
    s!"include glob parent `{world.show_path parent}` from `{world.show_path source_path}`" ++
      " is not a directory"
  | .Read include_path source_path =>
    s!"failed to read included config `{world.show_path include_path}`" ++
      s!" from `{world.show_path source_path}`: {world.read_error include_path}"
  | .Env message => message

def IncludeError.message : IncludeError → String
  | .Cycle cycle =>
    "config include cycle detected: " ++ " -> ".intercalate (cycle.map world.show_path)
  | .Line error => error.message world

/-! ## Directives -/

def parse_include_directive (line : Text) (source_path : Path) :
    Except LineError (Option Text) :=
  match include_directive line with
  | none => .ok none
  | some rest => do
    let include_path ← (world.ron_from_str rest).mapError (.InvalidDirective source_path)
    if trim include_path = [] then .error (.EmptyDirective source_path)
    else return some include_path

/-- `Path::to_str`. -/
def to_str (path : Path) : Option Text := from_utf8 ([47].intercalate path)

def RON_GLOB : Text := "*.ron".toList

/-- A component with a star that is not the one of the file glob. -/
def foreign_star (component : Component) : Bool :=
  (to_str component.as_os_str).any fun segment => segment.contains '*' && segment != RON_GLOB

/-- The path of an entry that `*.ron` stands for. -/
def is_ron_file (path : Path) : Bool := (extension path).bind from_utf8 = some "ron".toList

def expand_simple_glob (pattern source_path : Path) : Except LineError (List Path) :=
  match (file_name pattern).bind from_utf8 with
  | none => .error (.InvalidGlob pattern source_path)
  | some file_name =>
    if file_name ≠ RON_GLOB ∨ (components pattern).any foreign_star = true then
      .error (.UnsupportedGlob pattern source_path)
    else
      let parent := (parent pattern).getD [DOT]
      match resolve world.tree world.cwd parent with
      | none => .ok []
      | some node =>
        if world.tree.is_dir node then
          let entries := (read_dir world.tree node).map fun name => join parent [name]
          .ok ((entries.filter is_ron_file).mergeSort fun first second => path_le first second)
        else .error (.GlobParent parent source_path)

def resolve_include_paths (include_pattern : Text) (base_dir source_path : Path) :
    Except LineError (List Path) :=
  let include_path := of_bytes (as_bytes include_pattern)
  let resolved := if is_absolute include_path then include_path else join base_dir include_path
  if '*' ∉ include_pattern then .ok [resolved] else expand_simple_glob world resolved source_path

def normalize_component (current : Path) : Component → Path
  | .CurDir => current
  | .ParentDir => pop current
  | other => join current other.as_os_str

def normalize_path_for_stack (path : Path) : Path :=
  if is_absolute path then (components path).foldl normalize_component [[]]
  else (components (join (node_path world.cwd) path)).foldl normalize_component [[]]

/-! ## The expansion -/

/-- The text and the stack. Fuel bounds the depth; an error without a value is fuel that ran out. -/
abbrev Outcome := Except (Option IncludeError) (Text × List Path)

/-- `fs::read_to_string`. -/
def read_source (path : Path) : Option Text := (read_to_string world.tree world.cwd path).join

/-- What an include adds: a newline more where the line of the directive had one. -/
def end_line (line included : Text) : Text :=
  if line.getLast? = some '\n' ∧ included.getLast? ≠ some '\n' then included ++ ['\n'] else included

/-- The loop over the files of a directive. -/
def include_files (inner : Source → List Path → Outcome) (source_path : Path) (line : Text) :
    List Path → List Path → Outcome
  | [], include_stack => .ok ([], include_stack)
  | include_path :: include_paths, include_stack => do
    let contents ← ok_or (some (.Line (.Read include_path source_path)))
      (read_source world include_path)
    let (included, include_stack) ← inner ⟨contents, include_path⟩ include_stack
    let (more, include_stack) ← include_files inner source_path line include_paths include_stack
    return (end_line line included ++ more, include_stack)

/-- `source_path.parent()`. -/
def base_dir (source_path : Path) : Path := (parent source_path).getD [DOT]

/-- A line: the text of its includes, or its own with the placeholders replaced. -/
def expand_line (inner : Source → List Path → Outcome) (source_path : Path) (line : Text)
    (include_stack : List Path) : Outcome := do
  match ← (parse_include_directive world line source_path).mapError (some <| .Line ·) with
  | some include_pattern => do
    let include_paths ←
      (resolve_include_paths world include_pattern (base_dir source_path) source_path).mapError
        (some <| .Line ·)
    include_files world inner source_path line include_paths include_stack
  | none => do
    let expanded ← (expand_env_placeholders_in_ron_strings world.env (world.display source_path)
      line).mapError (some <| .Line <| .Env ·)
    return (expanded, include_stack)

/-- The loop over the lines. -/
def expand_lines (inner : Source → List Path → Outcome) (source_path : Path) :
    List Text → List Path → Outcome
  | [], include_stack => .ok ([], include_stack)
  | line :: lines, include_stack => do
    let (expanded, include_stack) ← expand_line world inner source_path line include_stack
    let (more, include_stack) ← expand_lines inner source_path lines include_stack
    return (expanded ++ more, include_stack)

/-- The stack is popped where the expansion succeeds; an error ends the whole expansion. -/
def preprocess_source_inner : Nat → Source → List Path → Outcome
  | 0, _, _ => .error none
  | fuel + 1, source, include_stack =>
    let normalized_source := normalize_path_for_stack world source.path
    match include_stack.findIdx? fun path => components path = components normalized_source with
    | some index => .error (some (.Cycle (include_stack.drop index ++ [normalized_source])))
    | none => do
      let (expanded, include_stack) ← expand_lines world (preprocess_source_inner fuel) source.path
        (split_lines_preserving_newlines source.contents) (include_stack ++ [normalized_source])
      return (expanded, include_stack.dropLast)

/-- `preprocess_source`, which begins with an empty stack. -/
def preprocess_with_includes (fuel : Nat) (source : Source) : Except (Option IncludeError) Text :=
  (preprocess_source_inner world fuel source []).map Prod.fst

/-! ## The same as a script -/

/-- The place of the file that a path names, by its pieces alone. -/
def World.place (path : Path) : Node := path.foldl step (start world.cwd path)

def Source.place (source : Source) : Node := world.place source.path

def files_script (source_path : Path) (line : Text) : List Path → Script Source Char LineError
  | [] => ⟨[], none⟩
  | include_path :: include_paths =>
    match read_source world include_path with
    | none => ⟨[], some (.Read include_path source_path)⟩
    | some contents =>
      Script.append ⟨[.file ⟨contents, include_path⟩ (end_line line)], none⟩
        (files_script source_path line include_paths)

def line_script (source_path : Path) (line : Text) : Script Source Char LineError :=
  match parse_include_directive world line source_path with
  | .error error => ⟨[], some error⟩
  | .ok (some include_pattern) =>
    match resolve_include_paths world include_pattern (base_dir source_path) source_path with
    | .error error => ⟨[], some error⟩
    | .ok include_paths => files_script world source_path line include_paths
  | .ok none =>
    match expand_env_placeholders_in_ron_strings world.env (world.display source_path) line with
    | .error message => ⟨[], some (.Env message)⟩
    | .ok expanded => ⟨[.text expanded], none⟩

def lines_script (source_path : Path) : List Text → Script Source Char LineError
  | [] => ⟨[], none⟩
  | line :: lines => (line_script world source_path line).append (lines_script source_path lines)

def Source.script (source : Source) : Script Source Char LineError :=
  lines_script world source.path (split_lines_preserving_newlines source.contents)

/-- What the expansion of the stack's files says of a failure. -/
def failure : Failure Node LineError → Option IncludeError
  | .Unfinished => none
  | .Cycle cycle => some (.Cycle (cycle.map node_path))
  | .Other error => some (.Line error)

/-- The result, with the stack as it was before. -/
def outcome (stack : List Node) : Except (Failure Node LineError) Text → Outcome
  | .ok text => .ok (text, stack.map node_path)
  | .error error => .error (failure error)

end

/-! ### Normalized paths -/

theorem foldl_normalize_component {node : Node} (h : ∀ name ∈ node, Plain name) (path : Path) :
    (path.filterMap component).foldl normalize_component (node_path node) =
      node_path (path.foldl step node) := by
  induction path generalizing node with
  | nil => rfl
  | cons piece path ih =>
    have hstep := step_component node piece
    rw [List.foldl_cons, ← ih (plain_step h piece), hstep]
    cases hcomponent : component piece with
    | none => rw [List.filterMap_cons_none hcomponent]
    | some found =>
      rw [List.filterMap_cons_some hcomponent, List.foldl_cons]
      unfold component at hcomponent
      split at hcomponent
      · cases hcomponent
      · split at hcomponent
        · obtain rfl := Option.some.inj hcomponent
          have hpop : normalize_component (node_path node) .ParentDir = node_path node.dropLast :=
            pop_node_path h
          rw [hpop]
        · obtain rfl := Option.some.inj hcomponent
          have hjoin : normalize_component (node_path node) (.Normal piece) =
              node_path (node ++ [piece]) := join_node_path h piece
          rw [hjoin]

theorem foldl_step_plain {node : Node} (h : ∀ name ∈ node, Plain name) (before : Node) :
    node.foldl step before = before ++ node := by
  induction node generalizing before with
  | nil => exact (List.append_nil before).symm
  | cons name node ih =>
    obtain ⟨hname, hnode⟩ := List.forall_mem_cons.mp h
    have hstep : step before name = before ++ [name] := by
      unfold step
      rw [if_neg (by rw [hname.not_blank]; decide), if_neg hname.not_dot_dot]
    rw [List.foldl_cons, hstep, ih hnode, List.append_assoc]
    rfl

theorem components_absolute {path : Path} (h : path ≠ []) :
    (components ([] :: path)).foldl normalize_component [[]] =
      node_path (path.foldl step []) := by
  obtain ⟨piece, pieces, rfl⟩ := List.exists_cons_of_ne_nil h
  rw [components_eq, ← foldl_normalize_component (List.forall_mem_nil _) (piece :: pieces)]
  rw [List.filterMap_cons_none (component_eq_none rfl)]
  rfl

variable {world : World}

theorem plain_cwd : ∀ name ∈ world.cwd, Plain name := by
  have hdir := is_dir_iff.mp world.in_dir
  unfold lookup at hdir
  split at hdir
  · rename_i hroot
    rw [hroot]
    exact List.forall_mem_nil _
  · obtain ⟨row, hrow, -⟩ := Option.map_eq_some_iff.mp hdir
    have hnode := List.find?_some hrow
    rw [decide_eq_true_eq] at hnode
    rw [← hnode]
    exact fun name hname => (world.tree.names row (List.mem_of_find?_eq_some hrow) name hname).1

/-- The stack holds the places of the files, whatever the spelling of their paths. -/
theorem normalize_path_eq {path : Path} (h : path ≠ []) :
    normalize_path_for_stack world path = node_path (world.place path) := by
  unfold normalize_path_for_stack World.place start
  by_cases habsolute : is_absolute path = true
  · rw [if_pos habsolute, if_pos habsolute]
    obtain ⟨piece, pieces, rfl⟩ := List.exists_cons_of_ne_nil h
    obtain ⟨rfl, hpieces⟩ := is_absolute_cons.mp habsolute
    exact components_absolute hpieces
  · rw [if_neg habsolute, if_neg habsolute, join_root path (Bool.eq_false_iff.mpr habsolute) plain_cwd,
      List.cons_append, components_absolute (List.append_ne_nil_of_right_ne_nil world.cwd h),
      List.foldl_append, foldl_step_plain plain_cwd, List.nil_append]

theorem plain_place (path : Path) : ∀ name ∈ world.place path, Plain name := by
  unfold World.place start
  split
  · exact plain_steps (List.forall_mem_nil _) path
  · exact plain_steps plain_cwd path

/-! ### The expansion of the script -/

theorem outcome_append (stack : List Node) (text more : Except (Failure Node LineError) Text) :
    outcome stack (text >>= fun text => more >>= fun more => pure (text ++ more)) = (do
      let (text, _) ← outcome stack text
      let (more, include_stack) ← outcome stack more
      return (text ++ more, include_stack)) := by
  cases text with
  | error error => rfl
  | ok text =>
    cases more with
    | error error => rfl
    | ok more => rfl

section

variable {inner : Source → List Path → Outcome} {stack : List Node}
  {expanded : Source → Except (Failure Node LineError) Text}

/-- The recursive call does for every file what the script's include does. -/
def ExpandsFiles (world : World) (inner : Source → List Path → Outcome) (stack : List Node)
    (expanded : Source → Except (Failure Node LineError) Text) : Prop :=
  ∀ source, read_source world source.path = some source.contents →
    inner source (stack.map node_path) = outcome stack (expanded source)

theorem include_files_eq (hinner : ExpandsFiles world inner stack expanded)
    (source_path : Path) (line : Text) (include_paths : List Path) :
    include_files world inner source_path line include_paths (stack.map node_path) =
      outcome stack (perform expanded (files_script world source_path line include_paths)) := by
  induction include_paths with
  | nil => rfl
  | cons include_path include_paths ih =>
    rw [include_files, files_script]
    cases hread : read_source world include_path with
    | none => rfl
    | some contents =>
      dsimp only
      rw [perform_append, outcome_append, ← ih, ok_or, ok_bind, hinner ⟨contents, include_path⟩ hread]
      unfold perform
      cases hfile : expanded ⟨contents, include_path⟩ with
      | error error => simp [run, hfile, bind, Except.bind, outcome]
      | ok included => simp [run, hfile, bind, Except.bind, outcome, pure, Except.pure]

theorem expand_line_eq (hinner : ExpandsFiles world inner stack expanded)
    (source_path : Path) (line : Text) :
    expand_line world inner source_path line (stack.map node_path) =
      outcome stack (perform expanded (line_script world source_path line)) := by
  unfold expand_line line_script
  cases parse_include_directive world line source_path with
  | error error => rfl
  | ok directive =>
    cases directive with
    | none =>
      cases expand_env_placeholders_in_ron_strings world.env (world.display source_path) line with
      | error message => rfl
      | ok text => simp [perform, run, Except.mapError, outcome]
    | some include_pattern =>
      dsimp only [Except.mapError, ok_bind]
      cases resolve_include_paths world include_pattern (base_dir source_path) source_path with
      | error error => rfl
      | ok include_paths => exact include_files_eq hinner source_path line include_paths

theorem expand_lines_eq (hinner : ExpandsFiles world inner stack expanded)
    (source_path : Path) (lines : List Text) :
    expand_lines world inner source_path lines (stack.map node_path) =
      outcome stack (perform expanded (lines_script world source_path lines)) := by
  induction lines with
  | nil => rfl
  | cons line lines ih =>
    rw [expand_lines, lines_script, perform_append, outcome_append, ← ih, expand_line_eq hinner]
    cases perform expanded (line_script world source_path line) with
    | error error => rfl
    | ok text => rfl

end

/-- A place is on the stack where the stack has it as a path. -/
theorem findIdx?_stack {stack : List Node} (hstack : ∀ node ∈ stack, ∀ name ∈ node, Plain name)
    {node : Node} (hnode : ∀ name ∈ node, Plain name) :
    (stack.map node_path).findIdx? (fun path => components path = components (node_path node)) =
      if node ∈ stack then some (stack.idxOf node) else none := by
  induction stack with
  | nil => rfl
  | cons first stack ih =>
    obtain ⟨hfirst, hrest⟩ := List.forall_mem_cons.mp hstack
    rw [List.map_cons, List.findIdx?_cons, List.idxOf_cons]
    by_cases heq : first = node
    · simp [heq]
    · have hne : ¬ components (node_path first) = components (node_path node) :=
        fun h => heq (node_path_inj hfirst hnode h)
      have hmem : node ∈ first :: stack ↔ node ∈ stack := by
        simp [Ne.symm heq]
      rw [ih hrest, decide_eq_false hne, if_neg Bool.false_ne_true, beq_false_of_ne heq, cond_false]
      simp only [hmem]
      split <;> rfl

theorem path_ne_nil {source : Source} (h : read_source world source.path = some source.contents) :
    source.path ≠ [] := by
  intro hnil
  unfold read_source read_to_string at h
  obtain ⟨node, hnode, hcontents⟩ := Option.bind_eq_some_iff.mp (Option.join_eq_some_iff.mp h)
  have hcwd : node = world.cwd := by
    rw [hnil] at hnode
    exact (walk_eq hnode).1
  have hnotdir := not_dir_of_contents hcontents
  rw [hcwd, world.in_dir] at hnotdir
  cases hnotdir

/-- The stack is popped on every successful return: the expansion is that of the script, over the places of the
files. -/
theorem preprocess_source_inner_eq (fuel : Nat) {source : Source}
    (hsource : read_source world source.path = some source.contents) {stack : List Node}
    (hstack : ∀ node ∈ stack, ∀ name ∈ node, Plain name) :
    preprocess_source_inner world fuel source (stack.map node_path) =
      outcome stack (expand (Source.place world) (Source.script world) fuel source stack) := by
  induction fuel generalizing source stack with
  | zero => rfl
  | succ fuel ih =>
    have hplain : ∀ name ∈ world.place source.path, Plain name := plain_place source.path
    rw [preprocess_source_inner, normalize_path_eq (path_ne_nil hsource), findIdx?_stack hstack hplain,
      expand]
    have hplace : source.place world = world.place source.path := rfl
    rw [hplace]
    by_cases hopen : world.place source.path ∈ stack
    · rw [if_pos hopen, if_pos hopen]
      dsimp only [outcome, failure]
      rw [List.map_append, List.map_drop, List.map_singleton,
        lawful_beq_subsingleton instBEqOfDecidableEq List.instBEq]
    · rw [if_neg hopen, if_neg hopen]
      have hnext : ∀ node ∈ stack ++ [world.place source.path], ∀ name ∈ node, Plain name := by
        simpa [or_imp, forall_and] using ⟨hstack, hplain⟩
      have hinner : ExpandsFiles world (preprocess_source_inner world fuel)
          (stack ++ [world.place source.path]) fun included =>
            expand (Source.place world) (Source.script world) fuel included
              (stack ++ [world.place source.path]) :=
        fun included hincluded => ih hincluded hnext
      have hlines := expand_lines_eq hinner source.path
        (split_lines_preserving_newlines source.contents)
      rw [List.map_append, List.map_singleton] at hlines
      dsimp only
      rw [hlines, Source.script]
      cases perform _ (lines_script world source.path
          (split_lines_preserving_newlines source.contents)) with
      | error error => rfl
      | ok text => simp [outcome]

/-! ### Files without includes -/

theorem expand_lines_include_free {lines : List Text}
    (h : ∀ line ∈ lines, include_directive line = none) (inner : Source → List Path → Outcome)
    (included : Text → Text → Except String Text) (source_path : Path) (include_stack : List Path) :
    expand_lines world inner source_path lines include_stack =
      (preprocess_lines world.env (world.display source_path) included lines).mapError
        (some <| .Line <| .Env ·) >>= fun expanded => .ok (expanded, include_stack) := by
  induction lines with
  | nil => rfl
  | cons line lines ih =>
    obtain ⟨hline, hlines⟩ := List.forall_mem_cons.mp h
    have hparse : parse_include_directive world line source_path = .ok none := by
      unfold parse_include_directive
      rw [hline]
    rw [expand_lines, expand_line, hparse, preprocess_lines, hline]
    dsimp only [Except.mapError, ok_bind]
    cases expand_env_placeholders_in_ron_strings world.env (world.display source_path) line with
    | error message => rfl
    | ok expanded =>
      dsimp only [Except.mapError, ok_bind, pure_eq_ok]
      rw [ih hlines]
      cases preprocess_lines world.env (world.display source_path) included lines with
      | error message => rfl
      | ok more => rfl

/-- Without an include, the expansion replaces the placeholders and reads no other file. -/
theorem preprocess_include_free {source : Source} (h : IncludeFree source.contents)
    (included : Text → Text → Except String Text) (fuel : Nat) :
    preprocess_with_includes world (fuel + 1) source =
      (preprocess_source world.env (world.display source.path) included source.contents).mapError
        (some <| .Line <| .Env ·) := by
  unfold preprocess_with_includes preprocess_source
  rw [preprocess_source_inner]
  dsimp only [List.findIdx?_nil]
  rw [expand_lines_include_free h _ included]
  cases preprocess_lines world.env (world.display source.path) included
      (split_lines_preserving_newlines source.contents) with
  | error message => rfl
  | ok expanded => rfl

end rginx.config.load
