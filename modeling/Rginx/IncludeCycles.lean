-- What the includes of a configuration file mean: the file that a directive leads to from the
-- directory of its own, or the files of a glob in the order of their names. The expansion ends, it
-- reports the cycles of these includes and no others, and it replaces each directive.
import Rginx.EnvPlaceholders
import Rginx.IncludeExpansion

open rust_text rust_result unix_paths nested_texts

namespace rginx.config.load

section

variable (world : World)

/-! ## The meaning of an include -/

/-- The entries of a directory that `*.ron` stands for, in order. -/
def ron_names (dir : Node) : List Name :=
  ((read_dir world.tree dir).filter fun name =>
    (name_extension name).bind from_utf8 = some "ron".toList).mergeSort fun first second =>
      first ≤ second

/-- The files that a directive in the file at a place asks for. -/
def included_files (node : Node) (include_pattern : Text) : List Node :=
  let path := of_bytes (as_bytes include_pattern)
  if '*' ∉ include_pattern then (walk world.tree (origin node path) path).toList
  else match walk world.tree (origin node path) (path.rdropWhile blank).dropLast with
    | none => []
    | some dir => if world.tree.is_dir dir then (ron_names world dir).map (dir ++ [·]) else []

def line_parts (node : Node) (line : Text) : List (Part Node Char) :=
  match include_directive line with
  | none => [.text ((expand_env_placeholders_in_ron_strings world.env [] line).toOption.getD [])]
  | some rest =>
    match world.ron_from_str rest with
    | .error _ => []
    | .ok include_pattern =>
      (included_files world node include_pattern).map fun file => .file file (end_line line)

/-- The parts of the file at a place. -/
def file_parts (node : Node) : List (Part Node Char) :=
  match world.tree.contents node with
  | some (some contents) => (split_lines_preserving_newlines contents).flatMap (line_parts world node)
  | _ => []

/-! ## The files that are reached -/

def AsksFor (source : Source) (line include_pattern : Text) (include_paths : List Path) : Prop :=
  parse_include_directive world line source.path = .ok (some include_pattern) ∧
    resolve_include_paths world include_pattern (base_dir source.path) source.path =
      .ok include_paths

/-- A directive of the first asks for the second. -/
def Opens (source included : Source) : Prop :=
  ∃ line ∈ split_lines_preserving_newlines source.contents, ∃ include_pattern include_paths,
    AsksFor world source line include_pattern include_paths ∧ included.path ∈ include_paths ∧
      read_source world included.path = some included.contents

/-- No line fails by itself: placeholders are replaced, the directives are well formed, and the files
they ask for are there. -/
def Sound (source : Source) : Prop :=
  ∀ line ∈ split_lines_preserving_newlines source.contents,
    (parse_include_directive world line source.path = .ok none ∧
      ∃ expanded, expand_env_placeholders_in_ron_strings world.env (world.display source.path) line =
        .ok expanded) ∨
    ∃ include_pattern include_paths, AsksFor world source line include_pattern include_paths ∧
      ∀ include_path ∈ include_paths, (read_source world include_path).isSome

/-- No glob stands for the entries of the empty path. -/
def NamedGlobs (source : Source) : Prop :=
  ∀ line ∈ split_lines_preserving_newlines source.contents, ∀ include_pattern include_paths,
    AsksFor world source line include_pattern include_paths → '*' ∈ include_pattern →
    parent (beside source.path (of_bytes (as_bytes include_pattern))) ≠ some [[]]

end

/-! ## Text lines -/

theorem resolve_any_path {env : Environment} {source_path token value : Text}
    (h : resolve_env_placeholder env source_path token = .ok value) (other : Text) :
    resolve_env_placeholder env other token = .ok value := by
  apply resolve_of_value
  rw [← resolve_env_placeholder_toOption env source_path token, h]
  rfl

/-- The path of a file is in the errors of its lines alone. -/
theorem expand_any_path {env : Environment} {source_path contents expanded : Text}
    {state : LineState} (h : expand_from env source_path state contents = .ok expanded)
    (other : Text) : expand_from env other state contents = .ok expanded := by
  induction hn : contents.length using Nat.strong_induction_on
    generalizing contents state expanded with
  | _ n ih =>
    subst hn
    rcases contents with _ | ⟨ch, rest⟩
    · rw [expand_nil] at h ⊢
      exact h
    by_cases hmarks : state = .Quoted ∧ Marks ch rest
    · obtain ⟨rfl, rfl, hnext⟩ := hmarks
      rcases hnext with hd | hd
      · obtain ⟨rest, rfl⟩ := List.head?_eq_some_iff.mp hd
        rw [expand_dollar, map_eq_ok] at h ⊢
        obtain ⟨text, htext, rfl⟩ := h
        exact ⟨text, ih _ (by simp only [List.length_cons]; omega) htext rfl, rfl⟩
      · obtain ⟨rest, rfl⟩ := List.head?_eq_some_iff.mp hd
        cases hsplit : split_once '\x7d' rest with
        | none =>
          rw [expand_unterminated (split_once_eq_none.mp hsplit)] at h
          cases h
        | some parts =>
          obtain ⟨hbrace, rfl⟩ := split_once_eq_some.mp hsplit
          rw [expand_placeholder hbrace, bind_eq_ok] at h ⊢
          obtain ⟨value, hvalue, h⟩ := h
          obtain ⟨text, htext, h⟩ := bind_eq_ok.mp h
          refine ⟨value, resolve_any_path hvalue other, ?_⟩
          have hshort : parts.2.length <
              ('$' :: '\x7b' :: (parts.1 ++ '\x7d' :: parts.2)).length := by
            simp only [List.length_cons, List.length_append]
            omega
          rw [ih _ hshort htext rfl]
          exact h
    · rw [expand_other hmarks, map_eq_ok] at h ⊢
      obtain ⟨text, htext, rfl⟩ := h
      exact ⟨text, ih _ (Nat.lt_succ_self _) htext rfl, rfl⟩

theorem text_any_path {env : Environment} {source_path line expanded : Text}
    (h : expand_env_placeholders_in_ron_strings env source_path line = .ok expanded)
    (other : Text) : expand_env_placeholders_in_ron_strings env other line = .ok expanded :=
  @expand_any_path env source_path line expanded .Unquoted h other

/-! ## The files of a directive -/

section

variable {world : World}

theorem place_of_resolve {path : Path} {node : Node}
    (h : resolve world.tree world.cwd path = some node) : node = world.place path := by
  unfold resolve at h
  split at h
  · cases h
  · exact (walk_eq h).1

/-- A file that is read is found at its place. -/
theorem resolve_of_read {path : Path} {contents : Text}
    (h : read_source world path = some contents) :
    resolve world.tree world.cwd path = some (world.place path) ∧
      world.tree.contents (world.place path) = some (some contents) := by
  unfold read_source read_to_string at h
  obtain ⟨node, hnode, hcontents⟩ := Option.bind_eq_some_iff.mp (Option.join_eq_some_iff.mp h)
  obtain rfl := place_of_resolve hnode
  exact ⟨hnode, hcontents⟩

theorem include_path_ne {include_pattern : Text} (h : trim include_pattern ≠ []) :
    of_bytes (as_bytes include_pattern) ≠ [] ∧ of_bytes (as_bytes include_pattern) ≠ [[]] := by
  refine ⟨List.splitOn_ne_nil 47 _, fun hempty => h ?_⟩
  have hbytes : [47].intercalate (of_bytes (as_bytes include_pattern)) = as_bytes include_pattern :=
    List.intercalate_splitOn 47
  rw [hempty] at hbytes
  have htext := from_utf8_as_bytes include_pattern
  rw [← hbytes] at htext
  obtain rfl : [] = include_pattern := Option.some.inj htext
  rfl

theorem files_follow {source_path : Path} {line : Text} {include_paths : List Path}
    {files : List Node}
    (h : List.Forall₂ (fun include_path file => world.place include_path = file) include_paths files) :
    (files_script world source_path line include_paths).Follows (Source.place world)
      (files.map fun file => .file file (end_line line)) := by
  induction h with
  | nil => exact ⟨List.prefix_rfl, fun _ => rfl⟩
  | @cons include_path file include_paths files hfile _ ih =>
    rw [files_script]
    cases hread : read_source world include_path with
    | none => exact ⟨List.nil_prefix, by simp⟩
    | some contents =>
      have hfirst : Script.Follows (Source.place world)
          (⟨[.file ⟨contents, include_path⟩ (end_line line)], none⟩ : Script Source Char LineError)
          [.file file (end_line line)] := by
        have hpart : nested_texts.Part.map (Source.place world) (.file ⟨contents, include_path⟩ (end_line line)) =
            .file file (end_line line) := by
          rw [← hfile]
          rfl
        refine ⟨?_, fun _ => ?_⟩
        · rw [List.map_singleton, hpart]
        · rw [List.map_singleton, hpart]
      exact hfirst.append ih

theorem file_follows {source : Source} (hsource : read_source world source.path = some source.contents)
    {include_pattern line : Text} (hpattern : trim include_pattern ≠ [])
    (hstar : '*' ∉ include_pattern) :
    (files_script world source.path line
        [beside source.path (of_bytes (as_bytes include_pattern))]).Follows (Source.place world)
      ((included_files world (source.place world) include_pattern).map fun file =>
        .file file (end_line line)) := by
  obtain ⟨hpath, hcontents⟩ := resolve_of_read hsource
  obtain ⟨hne, hempty⟩ := include_path_ne hpattern
  have hresolve := resolve_beside world.in_dir hpath hcontents hne hempty
  unfold included_files
  rw [if_pos hstar]
  cases hread : read_source world (beside source.path (of_bytes (as_bytes include_pattern))) with
  | none =>
    rw [files_script, hread]
    exact ⟨List.nil_prefix, by simp⟩
  | some contents =>
    obtain ⟨hfound, -⟩ := resolve_of_read hread
    have hwalk := hresolve.symm.trans hfound
    refine files_follow ?_
    rw [Source.place, hwalk]
    exact .cons rfl .nil

/-! ### The files of a glob -/

/-- A star stands in a piece that is not blank. -/
theorem exists_star {include_pattern : Text} (h : '*' ∈ include_pattern) :
    ∃ piece ∈ of_bytes (as_bytes include_pattern), blank piece = false := by
  have hbyte : (42 : UInt8) ∈ as_bytes include_pattern :=
    List.mem_flatMap.mpr ⟨'*', h, by decide⟩
  obtain ⟨piece, hpiece, hin⟩ := exists_piece (by decide) hbyte
  refine ⟨piece, hpiece, ?_⟩
  unfold blank
  rw [decide_eq_false_iff_not]
  rintro (rfl | rfl)
  · cases hin
  · exact absurd hin (by decide)

theorem is_ron_file_entry (directory : Path) {name : Name} (hname : Plain name) :
    is_ron_file (join (trimmed directory) [name]) =
      decide ((name_extension name).bind from_utf8 = some "ron".toList) := by
  unfold is_ron_file extension
  rw [file_name_entry directory hname, Option.bind_some]

/-- The paths of a directory's entries, sorted as paths, are those of the names in their order. -/
theorem sorted_entries (directory : Path) (dir : Node) :
    ((((read_dir world.tree dir).map fun name => join (trimmed directory) [name]).filter
        is_ron_file).mergeSort fun first second => path_le first second) =
      (ron_names world dir).map fun name => join (trimmed directory) [name] := by
  have hplain : ∀ name ∈ read_dir world.tree dir, Plain name :=
    fun name hname => (lookup_of_mem_read_dir hname).1
  have hfilter : (read_dir world.tree dir).filter
        (is_ron_file ∘ fun name => join (trimmed directory) [name]) =
      (read_dir world.tree dir).filter fun name =>
        (name_extension name).bind from_utf8 = some "ron".toList :=
    List.filter_congr fun name hname => is_ron_file_entry directory (hplain name hname)
  rw [List.filter_map, hfilter]
  refine (List.map_mergeSort fun first hfirst second hsecond => ?_).symm
  rw [decide_eq_decide]
  exact (path_le_entry directory (hplain first (List.mem_of_mem_filter hfirst))
    (hplain second (List.mem_of_mem_filter hsecond))).symm

theorem mem_ron_names {dir : Node} {name : Name} (h : name ∈ ron_names world dir) :
    Plain name ∧ (lookup world.tree.entries (dir ++ [name])).isSome := by
  unfold ron_names at h
  rw [List.mem_mergeSort] at h
  exact lookup_of_mem_read_dir (List.mem_of_mem_filter h)

/-- The name of a glob is the last piece that is not blank. -/
theorem glob_pieces {include_pattern : Text} (hstar : '*' ∈ include_pattern) {lead source_path : Path}
    {include_paths : List Path}
    (hpaths : expand_simple_glob world (lead ++ of_bytes (as_bytes include_pattern)) source_path =
      .ok include_paths) :
    ∃ pieces last blanks, of_bytes (as_bytes include_pattern) = pieces ++ last :: blanks ∧
      Plain last ∧ ∀ piece ∈ blanks, blank piece = true := by
  obtain ⟨pieces, last, blanks, hpieces, hlast, hblanks⟩ := exists_last (exists_star hstar)
  refine ⟨pieces, last, blanks, hpieces, ?_, hblanks⟩
  rw [hpieces, ← List.append_assoc] at hpaths
  unfold expand_simple_glob at hpaths
  split at hpaths
  · cases hpaths
  · rename_i file_name hname
    obtain ⟨bytes, hbytes, -⟩ := Option.bind_eq_some_iff.mp hname
    obtain ⟨rfl, hplain⟩ := file_name_last hlast hblanks hbytes
    exact hplain

/-- The entries of the directory of a glob, if it is there. -/
theorem expand_simple_glob_eq {pattern source_path directory : Path} {include_paths : List Path}
    (h : expand_simple_glob world pattern source_path = .ok include_paths)
    (hparent : parent pattern = some (trimmed directory)) :
    (resolve world.tree world.cwd (trimmed directory) = none ∧ include_paths = []) ∨
      ∃ dir, resolve world.tree world.cwd (trimmed directory) = some dir ∧
        world.tree.is_dir dir = true ∧
        include_paths = (ron_names world dir).map fun name => join (trimmed directory) [name] := by
  unfold expand_simple_glob at h
  rw [hparent, Option.getD_some] at h
  split at h
  · cases h
  · split at h
    · cases h
    · dsimp only at h
      split at h
      · rename_i hnone
        exact .inl ⟨hnone, (Except.ok.inj h).symm⟩
      · rename_i dir hdir
        split at h
        · rename_i hisdir
          refine .inr ⟨dir, hdir, hisdir, ?_⟩
          rw [← sorted_entries]
          exact (Except.ok.inj h).symm
        · cases h

theorem glob_follows {source : Source} (hsource : read_source world source.path = some source.contents)
    {include_pattern : Text} (hstar : '*' ∈ include_pattern) {include_paths : List Path}
    (hpaths : expand_simple_glob world (beside source.path (of_bytes (as_bytes include_pattern)))
      source.path = .ok include_paths)
    (hnamed : parent (beside source.path (of_bytes (as_bytes include_pattern))) ≠ some [[]]) :
    List.Forall₂ (fun include_path file => world.place include_path = file) include_paths
      (included_files world (source.place world) include_pattern) := by
  obtain ⟨hpath, hcontents⟩ := resolve_of_read hsource
  have hother : of_bytes (as_bytes include_pattern) ≠ [] := List.splitOn_ne_nil 47 _
  obtain ⟨lead, hlead, -⟩ := beside_eq world.in_dir hpath hcontents hother
  have hglob := hpaths
  rw [hlead] at hglob
  obtain ⟨pieces, last, blanks, hpieces, hlast, hblanks⟩ := glob_pieces hstar hglob
  unfold included_files
  dsimp only
  rw [if_neg (not_not_intro hstar)]
  rw [hpieces] at hpaths hnamed ⊢
  obtain ⟨between, hparent, hbetween⟩ := parent_beside world.in_dir hpath hcontents hlast hblanks
  have hne : between ≠ [] := by
    rintro rfl
    exact hnamed hparent
  rw [rdropWhile_blanks hlast pieces hblanks, List.dropLast_concat]
  rcases expand_simple_glob_eq hpaths hparent with ⟨hnone, rfl⟩ | ⟨dir, hdir, hisdir, rfl⟩
  · split
    · exact .nil
    · rename_i dir hdir
      split
      · rename_i hisdir
        have hsome := ((hbetween hne dir hisdir).1).mpr hdir
        rw [hnone] at hsome
        cases hsome
      · exact .nil
  · obtain ⟨hwalk, hentries⟩ := hbetween hne dir hisdir
    have hsame : walk world.tree (origin (source.place world) (pieces ++ last :: blanks)) pieces =
        some dir := hwalk.mp hdir
    rw [hsame]
    dsimp only
    rw [if_pos hisdir, List.forall₂_map_left_iff, List.forall₂_map_right_iff, List.forall₂_same]
    intro name hin
    obtain ⟨hentry, hlookup⟩ := mem_ron_names hin
    exact (place_of_resolve (hentries hdir name hentry hlookup)).symm

/-! ## The lines of a file -/

theorem parse_ok {line include_pattern : Text} {source_path : Path}
    (h : parse_include_directive world line source_path = .ok (some include_pattern)) :
    ∃ rest, include_directive line = some rest ∧ world.ron_from_str rest = .ok include_pattern ∧
      trim include_pattern ≠ [] := by
  unfold parse_include_directive at h
  split at h
  · cases h
  · rename_i rest hrest
    obtain ⟨text, htext, h⟩ := bind_eq_ok.mp h
    split at h
    · cases h
    · rename_i hne
      obtain rfl := Option.some.inj (Except.ok.inj h)
      exact ⟨rest, hrest, map_err_eq_ok.mp htext, hne⟩

theorem parse_none {line : Text} {source_path : Path}
    (h : parse_include_directive world line source_path = .ok none) :
    include_directive line = none := by
  unfold parse_include_directive at h
  split at h
  · assumption
  · obtain ⟨text, -, h⟩ := bind_eq_ok.mp h
    split at h
    · cases h
    · cases h

theorem failed_follows (error : LineError) (parts : List (nested_texts.Part Node Char)) :
    Script.Follows (Source.place world) ⟨[], some error⟩ parts :=
  ⟨List.nil_prefix, nofun⟩

theorem line_follows {source : Source} (hsource : read_source world source.path = some source.contents)
    (hnamed : NamedGlobs world source) {line : Text}
    (hline : line ∈ split_lines_preserving_newlines source.contents) :
    (line_script world source.path line).Follows (Source.place world)
      (line_parts world (source.place world) line) := by
  unfold line_script
  cases hparse : parse_include_directive world line source.path with
  | error error => exact failed_follows error _
  | ok directive =>
    unfold line_parts
    cases directive with
    | none =>
      rw [parse_none hparse]
      dsimp only
      cases htext : expand_env_placeholders_in_ron_strings world.env (world.display source.path)
          line with
      | error message => exact failed_follows (.Env message) _
      | ok text =>
        rw [text_any_path htext []]
        exact ⟨List.prefix_rfl, fun _ => rfl⟩
    | some include_pattern =>
      obtain ⟨rest, hrest, hron, hpattern⟩ := parse_ok hparse
      rw [hrest]
      dsimp only
      rw [hron]
      dsimp only
      cases hpaths : resolve_include_paths world include_pattern (base_dir source.path)
          source.path with
      | error error => exact failed_follows error _
      | ok include_paths =>
        have hasks : AsksFor world source line include_pattern include_paths := ⟨hparse, hpaths⟩
        unfold resolve_include_paths at hpaths
        dsimp only at hpaths
        split at hpaths
        · rename_i hstar
          obtain rfl := Except.ok.inj hpaths
          exact file_follows hsource hpattern hstar
        · rename_i hstar
          have hin := not_not.mp hstar
          exact files_follow (glob_follows hsource hin hpaths
            (hnamed line hline include_pattern include_paths hasks hin))

theorem lines_follow {source : Source} (hsource : read_source world source.path = some source.contents)
    (hnamed : NamedGlobs world source) {lines : List Text}
    (hlines : lines ⊆ split_lines_preserving_newlines source.contents) :
    (lines_script world source.path lines).Follows (Source.place world)
      (lines.flatMap (line_parts world (source.place world))) := by
  induction lines with
  | nil => exact ⟨List.prefix_rfl, fun _ => rfl⟩
  | cons line lines ih =>
    obtain ⟨hline, hrest⟩ := List.cons_subset.mp hlines
    rw [lines_script, List.flatMap_cons]
    exact (line_follows hsource hnamed hline).append (ih hrest)

/-- The script of a file has the parts of the file at its place, however the file was named. -/
theorem source_follows {source : Source}
    (hsource : read_source world source.path = some source.contents)
    (hnamed : NamedGlobs world source) :
    (source.script world).Follows (Source.place world) (file_parts world (source.place world)) := by
  have hcontents := (resolve_of_read hsource).2
  unfold file_parts Source.place
  rw [hcontents]
  exact lines_follow hsource hnamed (List.Subset.refl _)

/-! ### What a script includes -/

theorem mem_files_script {source_path : Path} {line : Text} {include_paths : List Path}
    {included : Source} {finish : Text → Text}
    (h : .file included finish ∈ (files_script world source_path line include_paths).parts) :
    included.path ∈ include_paths ∧ read_source world included.path = some included.contents := by
  induction include_paths with
  | nil => cases h
  | cons include_path include_paths ih =>
    rw [files_script] at h
    cases hread : read_source world include_path with
    | none =>
      rw [hread] at h
      cases h
    | some contents =>
      rw [hread] at h
      rcases List.mem_cons.mp h with hfirst | hrest
      · obtain ⟨rfl, -⟩ := nested_texts.Part.file.inj hfirst
        exact ⟨List.mem_cons_self, hread⟩
      · obtain ⟨hin, hcontents⟩ := ih hrest
        exact ⟨List.mem_cons_of_mem _ hin, hcontents⟩

theorem mem_script {source included : Source} {finish : Text → Text}
    (h : .file included finish ∈ (source.script world).parts) : Opens world source included := by
  unfold Source.script at h
  have hlines : ∀ lines ⊆ split_lines_preserving_newlines source.contents,
      .file included finish ∈ (lines_script world source.path lines).parts →
      ∃ line ∈ lines, .file included finish ∈ (line_script world source.path line).parts := by
    intro lines
    induction lines with
    | nil => exact fun _ h => nomatch h
    | cons line lines ih =>
      intro hsubset h
      rcases Script.mem_append h with hline | hrest
      · exact ⟨line, List.mem_cons_self, hline⟩
      · obtain ⟨other, hother, hin⟩ := ih (List.cons_subset.mp hsubset).2 hrest
        exact ⟨other, List.mem_cons_of_mem _ hother, hin⟩
  obtain ⟨line, hline, hin⟩ := hlines _ (List.Subset.refl _) h
  unfold line_script at hin
  split at hin
  · cases hin
  · rename_i include_pattern hparse
    split at hin
    · cases hin
    · rename_i include_paths hpaths
      obtain ⟨hpath, hread⟩ := mem_files_script hin
      exact ⟨line, hline, include_pattern, include_paths, ⟨hparse, hpaths⟩, hpath, hread⟩
  · split at hin
    · cases hin
    · simp at hin

/-- A file of which no line fails has a script without an error. -/
theorem sound_script {source : Source} (h : Sound world source) :
    (source.script world).error = none := by
  have hfiles : ∀ (line : Text) (include_paths : List Path),
      (∀ include_path ∈ include_paths, (read_source world include_path).isSome) →
      (files_script world source.path line include_paths).error = none := by
    intro line include_paths hread
    induction include_paths with
    | nil => rfl
    | cons include_path include_paths ih =>
      obtain ⟨hfirst, hrest⟩ := List.forall_mem_cons.mp hread
      obtain ⟨contents, hcontents⟩ := Option.isSome_iff_exists.mp hfirst
      rw [files_script, hcontents]
      exact ih hrest
  have hlines : ∀ lines ⊆ split_lines_preserving_newlines source.contents,
      (lines_script world source.path lines).error = none := by
    intro lines
    induction lines with
    | nil => exact fun _ => rfl
    | cons line lines ih =>
      intro hsubset
      obtain ⟨hline, hrest⟩ := List.cons_subset.mp hsubset
      have hfirst : (line_script world source.path line).error = none := by
        unfold line_script
        rcases h line hline with ⟨hparse, expanded, hexpanded⟩ |
          ⟨include_pattern, include_paths, ⟨hparse, hpaths⟩, hread⟩
        · rw [hparse]
          dsimp only
          rw [hexpanded]
        · rw [hparse]
          dsimp only
          rw [hpaths]
          exact hfiles line include_paths hread
      rw [lines_script, Script.append, hfirst]
      exact ih hrest
  exact hlines _ (List.Subset.refl _)

/-! ## Paths with a directory -/

/-- What a path with a slash leads to beside it has one, too. -/
theorem beside_slash {path : Path} {node : Node} {contents : Option Text}
    (hpath : resolve world.tree world.cwd path = some node)
    (hfile : world.tree.contents node = some contents) (hslash : 2 ≤ path.length)
    (other : Path) : ∃ lead, beside path other = lead ++ other ∧ (lead ≠ [] ∨ is_absolute other = true) := by
  unfold beside
  by_cases habsolute : is_absolute other = true
  · rw [if_pos habsolute]
    exact ⟨[], rfl, .inr habsolute⟩
  · rw [if_neg habsolute]
    unfold resolve at hpath
    split at hpath
    · cases hpath
    rcases List.eq_nil_or_concat path with rfl | ⟨init, name, rfl⟩
    · cases hslash
    rw [List.concat_eq_append] at hpath hslash ⊢
    obtain ⟨hname, -⟩ := walk_last hpath hfile
    rw [parent_named hname init (List.forall_mem_nil _), Option.getD_some,
      join_trimmed init (Bool.eq_false_iff.mpr habsolute)]
    refine ⟨kept init, rfl, .inl ?_⟩
    cases init with
    | nil => simp at hslash
    | cons piece pieces => exact List.cons_ne_nil _ _

theorem glob_directory {source : Source} (hsource : read_source world source.path = some source.contents)
    (hslash : 2 ≤ source.path.length) {include_pattern : Text} (hstar : '*' ∈ include_pattern)
    {include_paths : List Path}
    (hpaths : expand_simple_glob world (beside source.path (of_bytes (as_bytes include_pattern)))
      source.path = .ok include_paths) :
    ∃ directory, directory ≠ [] ∧
      parent (beside source.path (of_bytes (as_bytes include_pattern))) = some (trimmed directory) := by
  obtain ⟨hpath, hcontents⟩ := resolve_of_read hsource
  have hother : of_bytes (as_bytes include_pattern) ≠ [] := List.splitOn_ne_nil 47 _
  obtain ⟨lead, hlead, hdirectory⟩ := beside_slash hpath hcontents hslash
      (of_bytes (as_bytes include_pattern))
  rw [hlead] at hpaths ⊢
  obtain ⟨pieces, last, blanks, hpieces, hlast, hblanks⟩ := glob_pieces hstar hpaths
  rw [hpieces] at hdirectory ⊢
  refine ⟨lead ++ pieces, ?_, ?_⟩
  · rcases hdirectory with hne | habsolute
    · exact List.append_ne_nil_of_left_ne_nil hne pieces
    · apply List.append_ne_nil_of_right_ne_nil
      rintro rfl
      -- An absolute path begins with an empty piece.
      obtain ⟨hnil, -⟩ := is_absolute_cons.mp habsolute
      exact plain_ne_nil hlast hnil
  · rw [← List.append_assoc, parent_named hlast _ hblanks]

/-- From a root with a directory in its path, every file is opened by such a path. -/
theorem opens_slash {source included : Source}
    (hsource : read_source world source.path = some source.contents)
    (hslash : 2 ≤ source.path.length) (h : Opens world source included) :
    2 ≤ included.path.length := by
  obtain ⟨line, -, include_pattern, include_paths, ⟨-, hpaths⟩, hin, -⟩ := h
  have hother : of_bytes (as_bytes include_pattern) ≠ [] := List.splitOn_ne_nil 47 _
  unfold resolve_include_paths at hpaths
  dsimp only at hpaths
  split at hpaths
  · obtain rfl := Except.ok.inj hpaths
    rw [List.mem_singleton.mp hin]
    obtain ⟨hpath, hcontents⟩ := resolve_of_read hsource
    obtain ⟨lead, hlead, hdirectory⟩ := beside_slash hpath hcontents hslash
      (of_bytes (as_bytes include_pattern))
    have hbeside : (beside source.path (of_bytes (as_bytes include_pattern))).length =
        lead.length + (of_bytes (as_bytes include_pattern)).length := by
      rw [hlead, List.length_append]
    change 2 ≤ (beside source.path (of_bytes (as_bytes include_pattern))).length
    rw [hbeside]
    have hpos := List.length_pos_of_ne_nil hother
    rcases hdirectory with hne | habsolute
    · have hlead := List.length_pos_of_ne_nil hne
      omega
    · obtain ⟨piece, pieces, hpieces⟩ := List.exists_cons_of_ne_nil hother
      rw [hpieces] at habsolute ⊢
      have hrest := List.length_pos_of_ne_nil (is_absolute_cons.mp habsolute).2
      rw [List.length_cons]
      omega
  · rename_i hstar
    obtain ⟨directory, hdirectory, hparent⟩ :=
      glob_directory hsource hslash (not_not.mp hstar) hpaths
    rcases expand_simple_glob_eq hpaths hparent with ⟨-, rfl⟩ | ⟨dir, -, -, rfl⟩
    · cases hin
    · obtain ⟨name, -, hname⟩ := List.mem_map.mp hin
      rw [← hname, join_trimmed directory (not_absolute_singleton name), List.length_append]
      obtain ⟨piece, pieces, rfl⟩ := List.exists_cons_of_ne_nil hdirectory
      rw [kept_cons, List.length_cons, List.length_singleton]
      omega

end

/-! ## The expansion -/

section

variable (world : World) (root : Source)

/-- The files that are opened from the root on. -/
abbrev Opened : Source → Prop := Relation.ReflTransGen (Opens world) root

/-- What the result says of the includes: it is an error of a cycle only where there is one, and a
text only where there is none, the text of the root with each directive replaced. -/
structure Detects (result : Except IncludeError Text) : Prop where
  cyclic : ∀ cycle, result = .error (.Cycle cycle) → Cyclic (file_parts world) (root.place world)
  replaced : ∀ text, result = .ok text →
    ¬ Cyclic (file_parts world) (root.place world) ∧ ∃ expansion : Node → Text,
      expansion (root.place world) = text ∧
      ∀ file, Relation.ReflTransGen (Includes (file_parts world)) (root.place world) file →
        expansion file = (file_parts world file).flatMap (nested_texts.Part.replace expansion)
  detected : (∀ source, Opened world root source → Sound world source) →
    Cyclic (file_parts world) (root.place world) → ∃ cycle, result = .error (.Cycle cycle)
  accepted : (∀ source, Opened world root source → Sound world source) →
    ¬ Cyclic (file_parts world) (root.place world) → ∃ text, result = .ok text

variable {world root}

theorem read_of_opened (hroot : read_source world root.path = some root.contents) {source : Source}
    (h : Opened world root source) : read_source world source.path = some source.contents := by
  cases h with
  | refl => exact hroot
  | tail _ hopens =>
    obtain ⟨_, _, _, _, _, _, hread⟩ := hopens
    exact hread

/-- A root with a directory in its path opens no glob in the empty path. -/
theorem named_of_slash (hroot : read_source world root.path = some root.contents)
    (hslash : 2 ≤ root.path.length) {source : Source} (h : Opened world root source) :
    NamedGlobs world source := by
  have hpath : 2 ≤ source.path.length := by
    induction h with
    | refl => exact hslash
    | tail hopened hopens ih => exact opens_slash (read_of_opened hroot hopened) ih hopens
  intro line _ include_pattern include_paths ⟨_, hpaths⟩ hstar
  unfold resolve_include_paths at hpaths
  dsimp only at hpaths
  rw [if_neg (not_not_intro hstar)] at hpaths
  obtain ⟨directory, hdirectory, hparent⟩ :=
    glob_directory (read_of_opened hroot h) hpath hstar hpaths
  rw [hparent]
  exact fun hempty => trimmed_ne_empty hdirectory (Option.some.inj hempty)

theorem reads (hroot : read_source world root.path = some root.contents)
    (hnamed : ∀ source, Opened world root source → NamedGlobs world source) :
    Reads (Source.place world) (Source.script world) (file_parts world) (Opened world root) where
  opens := fun _ hfile _ _ hin => hfile.tail (mem_script hin)
  follows := fun file hfile => source_follows (read_of_opened hroot hfile) (hnamed file hfile)

/-- The expansion over the places of the files, with more fuel than there are files. -/
def place_expansion (world : World) (root : Source) : Except (Failure Node LineError) Text :=
  expand (Source.place world) (Source.script world) (world.tree.entries.length + 1) root []

theorem opened_included {source included : Source} {finish : Text → Text}
    (hsource : Opened world root source)
    (h : .file included finish ∈ (source.script world).parts) : Opened world root included :=
  hsource.tail (mem_script h)

theorem expand_opened (hroot : read_source world root.path = some root.contents) {fuel : Nat}
    (hfuel : world.tree.entries.length < fuel) :
    expand (Source.place world) (Source.script world) fuel root [] ≠ .error .Unfinished := by
  have hkeys : ∀ source, Opened world root source →
      source.place world ∈ world.tree.entries.map Prod.fst := fun source hsource =>
    mem_keys_of_contents (resolve_of_read (read_of_opened hroot hsource)).2
  refine expand_finishes (fun source hsource _ _ hin => opened_included hsource hin) hkeys .refl
    List.nodup_nil (List.nil_subset _) ?_
  rw [List.length_map, List.length_nil]
  exact hfuel

theorem preprocess_eq (hroot : read_source world root.path = some root.contents) {fuel : Nat}
    (hfuel : world.tree.entries.length < fuel) :
    preprocess_with_includes world fuel root =
      (outcome [] (place_expansion world root)).map Prod.fst := by
  have hstable : expand (Source.place world) (Source.script world) fuel root [] =
      place_expansion world root :=
    expand_stable (expand_opened hroot (Nat.lt_succ_self _)) hfuel
  rw [← hstable]
  exact congrArg _ (preprocess_source_inner_eq fuel hroot (List.forall_mem_nil _))

/-- The result that is left of an expansion that ends. -/
theorem exists_result {expansion : Except (Failure Node LineError) Text}
    (h : expansion ≠ .error .Unfinished) :
    ∃ result : Except IncludeError Text,
      (outcome [] expansion).map Prod.fst = result.mapError some ∧
      (∀ text, result = .ok text ↔ expansion = .ok text) ∧
      ((∃ cycle, result = .error (.Cycle cycle)) ↔ ∃ cycle, expansion = .error (.Cycle cycle)) := by
  cases expansion with
  | ok text => exact ⟨.ok text, rfl, fun other => by simp, by simp⟩
  | error error =>
    cases error with
    | Unfinished => exact absurd rfl h
    | Cycle cycle => exact ⟨.error (.Cycle (cycle.map node_path)), rfl, by simp, by simp⟩
    | Other error => exact ⟨.error (.Line error), rfl, by simp, by simp⟩

/-- What stops a sound expansion is a cycle. -/
theorem place_expansion_error (hroot : read_source world root.path = some root.contents)
    (hsound : ∀ source, Opened world root source → Sound world source)
    {error : Failure Node LineError} (h : place_expansion world root = .error error) :
    ∃ cycle, error = .Cycle cycle := by
  cases error with
  | Unfinished => exact absurd h (expand_opened hroot (Nat.lt_succ_self _))
  | Cycle cycle => exact ⟨cycle, rfl⟩
  | Other error =>
    obtain ⟨failing, hfailing, herror⟩ := expand_failed
      (fun source hsource _ _ hin => opened_included hsource hin) .refl h
    rw [sound_script (hsound failing hfailing)] at herror
    cases herror

/-- Includes end, and the cycles are found. Any fuel that is more than the files gives the same
result. Where no glob stands in the empty path, an error of a cycle and a text are right; where no
line fails by itself either, there is one or the other. -/
theorem includes_detected (hroot : read_source world root.path = some root.contents) :
    ∃ result : Except IncludeError Text,
      (∀ fuel, world.tree.entries.length < fuel →
        preprocess_with_includes world fuel root = result.mapError some) ∧
      ((∀ source, Opened world root source → NamedGlobs world source) →
        Detects world root result) := by
  have hends : place_expansion world root ≠ .error .Unfinished :=
    expand_opened hroot (Nat.lt_succ_self _)
  obtain ⟨result, hresult, htext, hcycle⟩ := exists_result hends
  refine ⟨result, fun fuel hfuel => (preprocess_eq hroot hfuel).trans hresult, fun hnamed => ?_⟩
  have hreads := reads hroot hnamed
  have hreported : (∃ cycle, result = .error (.Cycle cycle)) →
      Cyclic (file_parts world) (root.place world) := by
    intro h
    obtain ⟨cycle, hexpansion⟩ := hcycle.mp h
    exact cyclic_of_cycle hreads .refl ⟨.refl, List.forall_mem_nil _⟩ hexpansion
  have hreplaced := fun text (h : result = .ok text) => expand_ok hreads .refl ((htext text).mp h)
  refine ⟨fun cycle h => hreported ⟨cycle, h⟩, hreplaced, fun hsound hcyclic => ?_,
    fun hsound hacyclic => ?_⟩
  · cases hexpansion : place_expansion world root with
    | ok text => exact absurd hcyclic (hreplaced text ((htext text).mpr hexpansion)).1
    | error error =>
      obtain ⟨cycle, rfl⟩ := place_expansion_error hroot hsound hexpansion
      exact hcycle.mpr ⟨cycle, hexpansion⟩
  · cases hexpansion : place_expansion world root with
    | ok text => exact ⟨text, (htext text).mpr hexpansion⟩
    | error error =>
      obtain ⟨cycle, rfl⟩ := place_expansion_error hroot hsound hexpansion
      exact absurd (hreported (hcycle.mpr ⟨cycle, hexpansion⟩)) hacyclic

end

/-! ## One file that includes itself -/

def A_RON : Name := as_bytes "a.ron".toList

/-- A tree with one file. Its directives are written without escapes, so that their text stands
between the quotes. -/
def one_file (contents : Text) : World where
  tree :=
    { entries := [([A_RON], .File (some contents))]
      names := by
        simp only [List.mem_singleton, forall_eq]
        exact ⟨⟨by decide, by decide⟩, by decide⟩
      distinct := List.nodup_singleton _
      rooted := by
        intro node name h
        unfold lookup at h
        rw [if_neg (by simp), Option.isSome_map, List.find?_isSome] at h
        obtain ⟨row, hrow, hnode⟩ := h
        rw [List.mem_singleton.mp hrow, decide_eq_true_eq] at hnode
        obtain ⟨rfl, -⟩ := List.append_eq_singleton_iff.mp hnode.symm |>.resolve_right (by simp)
        rfl }
  cwd := []
  env := fun _ => .NotPresent
  ron_from_str := fun text => .ok (text.drop 1).dropLast
  display := fun path => (to_str path).getD []
  read_error := fun _ => "No such file or directory (os error 2)"
  in_dir := rfl

def root_of (contents : Text) : Source := ⟨contents, [[], A_RON]⟩

def SELF_INCLUDE : Text := "// @include \"a.ron\"".toList

theorem read_root (contents : Text) :
    read_source (one_file contents) (root_of contents).path = some (root_of contents).contents := by
  rfl

/-- The line of a directive that asks for the file itself. -/
theorem line_parts_self (contents : Text) :
    line_parts (one_file contents) [A_RON] SELF_INCLUDE =
      [.file [A_RON] (end_line SELF_INCLUDE)] := by
  have hdirective : include_directive SELF_INCLUDE = some "\"a.ron\"".toList := by decide
  have hron : (one_file contents).ron_from_str "\"a.ron\"".toList = .ok "a.ron".toList := rfl
  have hincluded : included_files (one_file contents) [A_RON] "a.ron".toList = [[A_RON]] := rfl
  unfold line_parts
  rw [hdirective]
  dsimp only
  rw [hron]
  dsimp only
  rw [hincluded, List.map_singleton]

theorem cyclic_one_file {contents : Text}
    (h : SELF_INCLUDE ∈ split_lines_preserving_newlines contents) :
    Cyclic (file_parts (one_file contents)) [A_RON] := by
  have hcontents : (one_file contents).tree.contents [A_RON] = some (some contents) := rfl
  refine ⟨[A_RON], .refl, .single ⟨end_line SELF_INCLUDE, ?_⟩⟩
  unfold file_parts
  rw [hcontents]
  refine List.mem_flatMap.mpr ⟨SELF_INCLUDE, h, ?_⟩
  rw [line_parts_self]
  exact List.mem_singleton.mpr rfl

/-- The directive in full. -/
theorem asks_for_self (contents : Text) :
    AsksFor (one_file contents) (root_of contents) SELF_INCLUDE "a.ron".toList
      [(root_of contents).path] :=
  ⟨rfl, rfl⟩

theorem includes_detected_self :
    ∃ cycle, ∀ fuel, 1 < fuel →
      preprocess_with_includes (one_file SELF_INCLUDE) fuel (root_of SELF_INCLUDE) =
        .error (some (.Cycle cycle)) := by
  have hroot := read_root SELF_INCLUDE
  have hlines : split_lines_preserving_newlines SELF_INCLUDE = [SELF_INCLUDE] := by decide
  have hopened : ∀ source, Opened (one_file SELF_INCLUDE) (root_of SELF_INCLUDE) source →
      source = root_of SELF_INCLUDE := by
    intro source h
    induction h with
    | refl => rfl
    | @tail _ included _ hopens ih =>
      subst ih
      obtain ⟨line, hline, pattern, paths, ⟨hparse, hpaths⟩, hin, hread⟩ := hopens
      obtain rfl : line = SELF_INCLUDE := by
        rw [← List.mem_singleton, ← hlines]
        exact hline
      obtain ⟨hparse', hpaths'⟩ := asks_for_self SELF_INCLUDE
      obtain rfl := Option.some.inj (Except.ok.inj (hparse.symm.trans hparse'))
      obtain rfl := Except.ok.inj (hpaths.symm.trans hpaths')
      rw [List.mem_singleton.mp hin, hroot] at hread
      have hpath := List.mem_singleton.mp hin
      obtain ⟨contents, path⟩ := included
      obtain rfl := Option.some.inj hread
      obtain rfl := hpath
      rfl
  have hsound : ∀ source, Opened (one_file SELF_INCLUDE) (root_of SELF_INCLUDE) source →
      Sound (one_file SELF_INCLUDE) source := by
    intro source h line hline
    rw [hopened source h] at hline ⊢
    obtain rfl : line = SELF_INCLUDE := by
      rw [← List.mem_singleton, ← hlines]
      exact hline
    refine .inr ⟨_, _, asks_for_self SELF_INCLUDE, fun path hpath => ?_⟩
    rw [List.mem_singleton.mp hpath, hroot]
    rfl
  have hcyclic : Cyclic (file_parts (one_file SELF_INCLUDE)) [A_RON] :=
    cyclic_one_file (by rw [hlines]; exact List.mem_singleton.mpr rfl)
  obtain ⟨result, hresult, hdetects⟩ :=
    @includes_detected (one_file SELF_INCLUDE) (root_of SELF_INCLUDE) hroot
  obtain ⟨cycle, hcycle⟩ :=
    (hdetects fun source h => named_of_slash hroot (by decide) h).detected hsound hcyclic
  refine ⟨cycle, fun fuel hfuel => ?_⟩
  rw [hresult fuel hfuel, hcycle]
  rfl

def HIDDEN : Text := ron_text.quote :: '$' :: '\x7b' :: '\n' :: SELF_INCLUDE

/-- A placeholder that fails in front of the directive: the file is there and its directive is well
formed, it includes itself, and another error is reported. -/
theorem placeholder_hides_cycle :
    split_lines_preserving_newlines HIDDEN = [HIDDEN.take 4, SELF_INCLUDE] ∧
      AsksFor (one_file HIDDEN) (root_of HIDDEN) SELF_INCLUDE "a.ron".toList
        [(root_of HIDDEN).path] ∧
      read_source (one_file HIDDEN) (root_of HIDDEN).path = some HIDDEN ∧
      Cyclic (file_parts (one_file HIDDEN)) ((root_of HIDDEN).place (one_file HIDDEN)) ∧
      ∀ fuel, preprocess_with_includes (one_file HIDDEN) (fuel + 1) (root_of HIDDEN) =
        .error (some (.Line (.Env "unterminated environment placeholder in `/a.ron`"))) := by
  have hlines : split_lines_preserving_newlines HIDDEN = [HIDDEN.take 4, SELF_INCLUDE] := by decide
  have hline : HIDDEN.take 4 = ron_text.quote :: '$' :: '\x7b' :: ['\n'] := rfl
  have hdirective : include_directive (HIDDEN.take 4) = none := by decide
  have hfails : expand_env_placeholders_in_ron_strings (one_file HIDDEN).env
      ((one_file HIDDEN).display (root_of HIDDEN).path) (HIDDEN.take 4) =
        .error "unterminated environment placeholder in `/a.ron`" := by
    have hquoted : LineState.next .Unquoted ron_text.quote = .Quoted := rfl
    change expand_from _ _ .Unquoted _ = _
    rw [hline, expand_other (fun h => absurd h.1 (by decide)), hquoted, expand_unterminated (by decide)]
    rfl
  refine ⟨hlines, asks_for_self HIDDEN, read_root HIDDEN, cyclic_one_file ?_, fun fuel => ?_⟩
  · rw [hlines]
    exact List.mem_cons_of_mem _ (List.mem_singleton.mpr rfl)
  · have hparse : parse_include_directive (one_file HIDDEN) (HIDDEN.take 4) (root_of HIDDEN).path =
        .ok none := by
      unfold parse_include_directive
      rw [hdirective]
    unfold preprocess_with_includes
    rw [preprocess_source_inner]
    dsimp only [List.findIdx?_nil]
    have hcontents : (root_of HIDDEN).contents = HIDDEN := rfl
    rw [hcontents, hlines, expand_lines, expand_line, hparse]
    dsimp only [Except.mapError, ok_bind]
    rw [hfails]
    rfl

end rginx.config.load
