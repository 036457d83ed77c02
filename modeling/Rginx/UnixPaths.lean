-- Paths of a Unix system, as the standard library of Rust reads them, and a tree of files without
-- links. A path is the pieces between its slashes; a file has one place in the tree, the names from
-- the root down to it.
import Mathlib.Data.List.DropRight
import Mathlib.Data.List.Infix
import Mathlib.Data.List.Sort
import Mathlib.Order.RelClasses

namespace unix_paths

/-! ## Paths -/

abbrev Name := List UInt8

/-- The pieces between the slashes; an empty path is one empty piece. -/
abbrev Path := List Name

def DOT : Name := [46]

def DOT_DOT : Name := [46, 46]

def of_bytes (bytes : List UInt8) : Path := bytes.splitOn 47

/-- A piece that stands for nothing. -/
def blank (piece : Name) : Bool := piece = [] ∨ piece = DOT

inductive Component
  | RootDir
  | CurDir
  | ParentDir
  | Normal (name : Name)
  deriving DecidableEq

def component (piece : Name) : Option Component :=
  if blank piece then none
  else if piece = DOT_DOT then some .ParentDir
  else some (.Normal piece)

/-- `Path::is_absolute`. -/
def is_absolute : Path → Bool
  | [] :: _ :: _ => true
  | _ => false

/-- The piece of the root, or of a dot that leads a path. -/
def front : Path → Path
  | [] :: _ :: _ => [[]]
  | piece :: _ => if piece = DOT then [DOT] else []
  | [] => []

def body : Path → Path
  | [] :: piece :: pieces => piece :: pieces
  | piece :: pieces => if piece = DOT then pieces else piece :: pieces
  | [] => []

/-- `Path::components`. -/
def components (path : Path) : List Component :=
  (front path).map (fun piece => if piece = [] then .RootDir else .CurDir) ++
    (body path).filterMap component

/-- `Path::file_name`. -/
def file_name (path : Path) : Option Name :=
  match (components path).getLast? with
  | some (.Normal name) => some name
  | _ => none

/-- The text behind the last dot of a name; a name that begins with its only dot has none. -/
def name_extension (name : Name) : Option Name :=
  match name.reverse.dropWhile (· ≠ 46) with
  | [] => none
  | _ :: stem => if stem = [] then none else some (name.reverse.takeWhile (· ≠ 46)).reverse

/-- `Path::extension`. -/
def extension (path : Path) : Option Name := (file_name path).bind name_extension

/-- `Path::parent`. -/
def parent (path : Path) : Option Path :=
  match (body path).rdropWhile blank with
  | [] => if front path = [DOT] then some [[]] else none
  | piece :: pieces =>
    let kept := (piece :: pieces).dropLast.rdropWhile blank
    some (if kept = [] ∧ front path ≠ [DOT] then front path ++ [[]] else front path ++ kept)

/-- `PathBuf::pop`. -/
def pop (path : Path) : Path := (parent path).getD path

/-- `Path::join`. -/
def join (base other : Path) : Path :=
  if is_absolute other then other
  else if base.getLast? = some [] then base.dropLast ++ other
  else base ++ other

/-- `Component::as_os_str`. -/
def Component.as_os_str : Component → Path
  | .RootDir => [[], []]
  | .CurDir => [DOT]
  | .ParentDir => [DOT_DOT]
  | .Normal name => [name]

/-- The order that is derived for components. -/
def Component.before : Component → Component → Bool
  | .Normal name, .Normal other => name < other
  | .Normal _, _ => false
  | .ParentDir, .Normal _ => true
  | .ParentDir, _ => false
  | .CurDir, .ParentDir | .CurDir, .Normal _ => true
  | .CurDir, _ => false
  | .RootDir, .RootDir => false
  | .RootDir, _ => true

instance : LT Component := ⟨fun first second => first.before second⟩

instance : DecidableRel fun first second : Component => first < second :=
  fun first second => inferInstanceAs (Decidable (first.before second = true))

/-- The order of paths. -/
def path_le (first second : Path) : Prop := components first ≤ components second

instance : DecidableRel path_le :=
  fun first second => inferInstanceAs (Decidable (components first ≤ components second))

/-! ## Files -/

/-- The names from the root down. -/
abbrev Node := List Name

inductive Entry (α : Type)
  | File (contents : α)
  | Dir

/-- A piece that is a name. -/
structure Plain (name : Name) : Prop where
  not_blank : blank name = false
  not_dot_dot : name ≠ DOT_DOT

def lookup {α : Type} (entries : List (Node × Entry α)) (node : Node) : Option (Entry α) :=
  if node = [] then some .Dir else (entries.find? fun row => row.1 = node).map Prod.snd

structure FileTree (α : Type) where
  entries : List (Node × Entry α)
  names : ∀ row ∈ entries, ∀ name ∈ row.1, Plain name ∧ 47 ∉ name
  distinct : (entries.map Prod.fst).Nodup
  rooted : ∀ node name, (lookup entries (node ++ [name])).isSome → lookup entries node = some .Dir

section

variable {α : Type} (tree : FileTree α)

def FileTree.is_dir (node : Node) : Bool :=
  match lookup tree.entries node with
  | some .Dir => true
  | _ => false

def FileTree.contents (node : Node) : Option α :=
  match lookup tree.entries node with
  | some (.File contents) => some contents
  | _ => none

def step (node : Node) (piece : Name) : Node :=
  if blank piece then node
  else if piece = DOT_DOT then node.dropLast
  else node ++ [piece]

/-- The system goes through a directory at each piece. -/
def walk : Node → Path → Option Node
  | node, [] => if (lookup tree.entries node).isSome then some node else none
  | node, piece :: pieces => if tree.is_dir node then walk (step node piece) pieces else none

/-- Where a path leads from. -/
def start (cwd : Node) (path : Path) : Node := if is_absolute path then [] else cwd

def resolve (cwd : Node) (path : Path) : Option Node :=
  if path = [[]] then none else walk tree (start cwd path) path

/-- `fs::read_to_string`. -/
def read_to_string (cwd : Node) (path : Path) : Option α :=
  (resolve tree cwd path).bind tree.contents

/-- `fs::read_dir`. -/
def read_dir (node : Node) : List Name :=
  tree.entries.filterMap fun row => if row.1.dropLast = node then row.1.getLast? else none

end

/-! ## Components -/

theorem component_eq_none {piece : Name} (h : blank piece = true) : component piece = none := by
  unfold component
  rw [if_pos h]

theorem component_plain {name : Name} (h : Plain name) : component name = some (.Normal name) := by
  unfold component
  rw [if_neg (by rw [h.not_blank]; decide), if_neg h.not_dot_dot]

theorem filterMap_plain {node : Node} (h : ∀ name ∈ node, Plain name) :
    node.filterMap component = node.map .Normal := by
  rw [List.filterMap_congr fun name hname => component_plain (h name hname)]
  exact congrFun List.filterMap_eq_map' node

theorem filterMap_blank {pieces : Path} (h : ∀ piece ∈ pieces, blank piece = true) :
    pieces.filterMap component = [] := by
  rw [List.filterMap_eq_nil_iff]
  exact fun piece hpiece => component_eq_none (h piece hpiece)

theorem body_filterMap (path : Path) :
    (body path).filterMap component = path.filterMap component := by
  unfold body
  split
  · exact (List.filterMap_cons_none (component_eq_none rfl)).symm
  · rename_i piece pieces _
    split
    · rename_i hdot
      exact (List.filterMap_cons_none (component_eq_none (by rw [hdot]; rfl))).symm
    · rfl
  · rfl

/-- The components are those of the pieces behind the root or a leading dot. -/
theorem components_eq (path : Path) :
    components path = (front path).map (fun piece => if piece = [] then .RootDir else .CurDir) ++
      path.filterMap component := by
  unfold components
  rw [body_filterMap]

theorem step_component (node : Node) (piece : Name) :
    step node piece = match component piece with
      | some .ParentDir => node.dropLast
      | some (.Normal name) => node ++ [name]
      | _ => node := by
  unfold step component
  split
  · rfl
  · split <;> rfl

/-- A piece leaves names that are plain. -/
theorem plain_step {node : Node} (h : ∀ name ∈ node, Plain name) (piece : Name) :
    ∀ name ∈ step node piece, Plain name := by
  unfold step
  split
  · exact h
  · rename_i hblank
    split
    · exact fun name hname => h name (List.mem_of_mem_dropLast hname)
    · rename_i hdots
      intro name hname
      rcases List.mem_append.mp hname with hname | hname
      · exact h name hname
      · rw [List.mem_singleton.mp hname]
        exact ⟨by simpa using hblank, hdots⟩

theorem plain_steps {node : Node} (h : ∀ name ∈ node, Plain name) (path : Path) :
    ∀ name ∈ path.foldl step node, Plain name := by
  induction path generalizing node with
  | nil => exact h
  | cons piece path ih => exact ih (plain_step h piece)

/-! ## The path of a node -/

def node_path (node : Node) : Path := if node = [] then [[], []] else [] :: node

theorem node_path_of_ne_nil {node : Node} (h : node ≠ []) : node_path node = [] :: node := if_neg h

theorem components_node_path {node : Node} (h : ∀ name ∈ node, Plain name) :
    components (node_path node) = .RootDir :: node.map .Normal := by
  cases node with
  | nil => rfl
  | cons name node =>
    rw [components_eq, node_path_of_ne_nil (List.cons_ne_nil name node),
      List.filterMap_cons_none (component_eq_none rfl), filterMap_plain h]
    rfl

theorem node_path_inj {node other : Node} (h : ∀ name ∈ node, Plain name)
    (hother : ∀ name ∈ other, Plain name)
    (heq : components (node_path node) = components (node_path other)) : node = other := by
  rw [components_node_path h, components_node_path hother] at heq
  exact List.map_injective_iff.mpr (fun _ _ h => Component.Normal.inj h) (List.cons.inj heq).2

theorem not_absolute_singleton (name : Name) : is_absolute [name] = false := by
  unfold is_absolute
  split
  · rename_i heq
    cases (List.cons.inj heq).2
  · rfl

theorem join_root {node : Node} (other : Path) (h : is_absolute other = false)
    (hnode : ∀ name ∈ node, Plain name) : join (node_path node) other = [] :: node ++ other := by
  unfold join
  rw [if_neg (by rw [h]; decide)]
  cases node with
  | nil => rfl
  | cons name node =>
    rw [node_path_of_ne_nil (List.cons_ne_nil name node), if_neg]
    intro hlast
    have hin : [] ∈ name :: node := by
      rw [List.getLast?_cons_cons] at hlast
      exact List.mem_of_getLast? hlast
    cases (hnode [] hin).not_blank

theorem join_node_path {node : Node} (hnode : ∀ name ∈ node, Plain name) (name : Name) :
    join (node_path node) [name] = node_path (node ++ [name]) := by
  rw [join_root [name] (not_absolute_singleton name) hnode,
    node_path_of_ne_nil (List.append_ne_nil_of_right_ne_nil _ (List.cons_ne_nil name []))]
  rfl

theorem rdropWhile_plain {node : Node} (h : ∀ name ∈ node, Plain name) :
    node.rdropWhile blank = node := by
  rw [List.rdropWhile_eq_self_iff]
  intro hne hblank
  rw [(h _ (List.getLast_mem hne)).not_blank] at hblank
  cases hblank

theorem pop_node_path {node : Node} (h : ∀ name ∈ node, Plain name) :
    pop (node_path node) = node_path node.dropLast := by
  cases node with
  | nil => rfl
  | cons name node =>
    have hkept : (name :: node).dropLast.rdropWhile blank = (name :: node).dropLast :=
      rdropWhile_plain fun other hother => h other (List.mem_of_mem_dropLast hother)
    have hbody : (body (node_path (name :: node))).rdropWhile blank = name :: node :=
      rdropWhile_plain h
    unfold pop parent
    rw [hbody]
    dsimp only
    rw [hkept, Option.getD_some]
    cases hdropped : (name :: node).dropLast with
    | nil => rfl
    | cons first names => rfl

/-! ## Ways through the tree -/

section

variable {α : Type} {tree : FileTree α}

theorem is_dir_iff {node : Node} : tree.is_dir node = true ↔ lookup tree.entries node = some .Dir := by
  unfold FileTree.is_dir
  split
  · rename_i h
    exact ⟨fun _ => h, fun _ => rfl⟩
  · rename_i h
    exact ⟨nofun, fun hdir => absurd hdir h⟩

theorem contents_eq_some {node : Node} {contents : α} :
    tree.contents node = some contents ↔ lookup tree.entries node = some (.File contents) := by
  unfold FileTree.contents
  split
  · rename_i found hfound
    rw [hfound]
    constructor
    · rintro ⟨⟩
      rfl
    · rintro ⟨⟩
      rfl
  · rename_i h
    exact ⟨nofun, fun hfile => absurd hfile (h contents)⟩

theorem not_dir_of_contents {node : Node} {contents : α} (h : tree.contents node = some contents) :
    tree.is_dir node = false := by
  rw [Bool.eq_false_iff]
  intro hdir
  rw [is_dir_iff, contents_eq_some.mp h] at hdir
  cases hdir

theorem walk_nil (node : Node) :
    walk tree node [] = if (lookup tree.entries node).isSome then some node else none := rfl

theorem walk_cons {node : Node} (h : tree.is_dir node = true) (piece : Name) (path : Path) :
    walk tree node (piece :: path) = walk tree (step node piece) path := by
  rw [walk, if_pos h]

/-- A way through the tree leads to where its pieces lead. -/
theorem walk_eq {node found : Node} {path : Path} (h : walk tree node path = some found) :
    found = path.foldl step node ∧ (lookup tree.entries found).isSome := by
  induction path generalizing node with
  | nil =>
    rw [walk_nil] at h
    split at h
    · rename_i hsome
      obtain rfl := Option.some.inj h
      exact ⟨rfl, hsome⟩
    · cases h
  | cons piece path ih =>
    rw [walk] at h
    split at h
    · exact ih h
    · cases h

theorem walk_append (node : Node) (path more : Path) :
    walk tree node (path ++ more) = (walk tree node path).bind fun found => walk tree found more := by
  induction path generalizing node with
  | nil =>
    rw [List.nil_append, walk_nil]
    split
    · rfl
    · rename_i hnone
      cases more with
      | nil => rw [walk_nil, if_neg hnone]; rfl
      | cons piece more =>
        rw [walk, if_neg]
        · rfl
        · intro hdir
          rw [is_dir_iff.mp hdir] at hnone
          exact hnone rfl
  | cons piece path ih =>
    rw [List.cons_append, walk, walk]
    split
    · exact ih _
    · rfl

/-- Where a step leads to a file, the piece is its name. -/
theorem walk_last {node found : Node} {path : Path} {piece : Name} {contents : α}
    (h : walk tree node (path ++ [piece]) = some found) (hfile : tree.contents found = some contents) :
    Plain piece ∧ ∃ dir, walk tree node path = some dir ∧ tree.is_dir dir = true ∧
      found = dir ++ [piece] := by
  rw [walk_append] at h
  obtain ⟨dir, hdir, hpiece⟩ := Option.bind_eq_some_iff.mp h
  have hisdir : tree.is_dir dir = true := by
    rw [walk] at hpiece
    split at hpiece
    · assumption
    · cases hpiece
  rw [walk_cons hisdir] at hpiece
  obtain ⟨hfound, -⟩ := walk_eq hpiece
  rw [List.foldl_nil] at hfound
  have hnotdir := not_dir_of_contents hfile
  unfold step at hfound
  split at hfound
  · rw [hfound, hisdir] at hnotdir
    cases hnotdir
  · rename_i hblank
    split at hfound
    · -- The directory above a directory is one.
      have habove : tree.is_dir dir.dropLast = true := by
        rw [is_dir_iff]
        rcases List.eq_nil_or_concat dir with rfl | ⟨names, name, rfl⟩
        · rfl
        · rw [List.concat_eq_append] at hisdir ⊢
          rw [List.dropLast_concat]
          refine tree.rooted names name ?_
          rw [is_dir_iff.mp hisdir]
          rfl
      rw [hfound, habove] at hnotdir
      cases hnotdir
    · rename_i hdots
      exact ⟨⟨by simpa using hblank, hdots⟩, dir, hdir, hisdir, hfound⟩

/-- Blank pieces lead nowhere else. -/
theorem walk_blank {node found : Node} {pieces : Path} (hblank : ∀ piece ∈ pieces, blank piece = true)
    (h : walk tree node pieces = some found) : found = node := by
  obtain ⟨hfound, -⟩ := walk_eq h
  clear h
  induction pieces with
  | nil => exact hfound
  | cons piece pieces ih =>
    have hstep : step node piece = node := by
      unfold step
      rw [if_pos (hblank piece List.mem_cons_self)]
    rw [List.foldl_cons, hstep] at hfound
    exact ih (fun other hother => hblank other (List.mem_cons_of_mem _ hother)) hfound

theorem walk_blank_dir {node : Node} {pieces : Path} (hblank : ∀ piece ∈ pieces, blank piece = true)
    (hdir : tree.is_dir node = true) : walk tree node pieces = some node := by
  induction pieces with
  | nil =>
    rw [walk_nil, is_dir_iff.mp hdir]
    rfl
  | cons piece pieces ih =>
    have hstep : step node piece = node := by
      unfold step
      rw [if_pos (hblank piece List.mem_cons_self)]
    rw [walk_cons hdir, hstep]
    exact ih fun other hother => hblank other (List.mem_cons_of_mem _ hother)

/-! ## Directories of paths -/

/-- A path without the blank pieces at its end; the first piece stays. -/
def kept : Path → Path
  | [] => []
  | piece :: pieces => piece :: pieces.rdropWhile blank

/-- The same as a path, of which an empty one and the root are an empty piece more. -/
def trimmed (path : Path) : Path :=
  if kept path = [] ∨ kept path = [[]] then kept path ++ [[]] else kept path

@[simp]
theorem kept_cons (piece : Name) (pieces : Path) :
    kept (piece :: pieces) = piece :: pieces.rdropWhile blank := rfl

theorem exists_kept (path : Path) :
    ∃ blanks, path = kept path ++ blanks ∧ ∀ piece ∈ blanks, blank piece = true := by
  cases path with
  | nil => exact ⟨[], rfl, nofun⟩
  | cons piece pieces =>
    refine ⟨pieces.rtakeWhile blank, ?_, fun other hother => List.mem_rtakeWhile_imp hother⟩
    exact congrArg (piece :: ·) List.rdropWhile_append_rtakeWhile.symm

theorem walk_kept {node found : Node} {path : Path} (h : walk tree node path = some found) :
    walk tree node (kept path) = some found := by
  obtain ⟨blanks, hpath, hblank⟩ := exists_kept path
  rw [hpath, walk_append] at h
  obtain ⟨dir, hdir, hrest⟩ := Option.bind_eq_some_iff.mp h
  rw [walk_blank hblank hrest]
  exact hdir

end

theorem rdropWhile_blanks {name : Name} (hname : Plain name) (pieces : Path) {blanks : Path}
    (hblanks : ∀ piece ∈ blanks, blank piece = true) :
    (pieces ++ name :: blanks).rdropWhile blank = pieces ++ [name] := by
  induction blanks using List.reverseRecOn with
  | nil => rw [List.rdropWhile_concat_neg _ _ _ (by rw [hname.not_blank]; decide)]
  | append_singleton blanks piece ih =>
    rw [← List.cons_append, ← List.append_assoc,
      List.rdropWhile_concat_pos _ _ _ (hblanks piece (by simp))]
    exact ih fun other hother => hblanks other (List.mem_append_left _ hother)

theorem parent_of_body {path pieces : Path} {name : Name}
    (h : (body path).rdropWhile blank = pieces ++ [name]) :
    parent path = some (if pieces.rdropWhile blank = [] ∧ front path ≠ [DOT] then
      front path ++ [[]] else front path ++ pieces.rdropWhile blank) := by
  unfold parent
  rw [h]
  cases pieces with
  | nil => rfl
  | cons piece pieces =>
    dsimp only [List.cons_append]
    rw [← List.cons_append, List.dropLast_concat]

theorem plain_ne_nil {name : Name} (h : Plain name) : name ≠ [] := by
  rintro rfl
  cases h.not_blank

theorem front_nonblank {piece : Name} (h : blank piece = false) (pieces : Path) :
    front (piece :: pieces) = [] := by
  unfold front
  split
  · rename_i heq
    rw [(List.cons.inj heq).1] at h
    cases h
  · rename_i heq
    obtain ⟨rfl, -⟩ := List.cons.inj heq
    rw [if_neg]
    rintro rfl
    cases h
  · rfl

theorem body_nonblank {piece : Name} (h : blank piece = false) (pieces : Path) :
    body (piece :: pieces) = piece :: pieces := by
  unfold body
  split
  · rename_i heq
    rw [(List.cons.inj heq).1] at h
    cases h
  · rename_i heq
    obtain ⟨rfl, rfl⟩ := List.cons.inj heq
    rw [if_neg]
    rintro rfl
    cases h
  · rename_i heq
    cases heq

theorem kept_nonblank {piece : Name} (h : blank piece = false) (pieces : Path) :
    (piece :: pieces).rdropWhile blank = piece :: pieces.rdropWhile blank := by
  induction pieces using List.reverseRecOn with
  | nil =>
    rw [List.rdropWhile_singleton, if_neg (by rw [h]; decide)]
    rfl
  | append_singleton pieces last ih =>
    rw [← List.cons_append, List.rdropWhile_concat, List.rdropWhile_concat, ih]
    split <;> rfl

/-- The parent ends in front of the last name. -/
theorem parent_named {name : Name} (hname : Plain name) (path : Path) {blanks : Path}
    (hblanks : ∀ piece ∈ blanks, blank piece = true) :
    parent (path ++ name :: blanks) = some (trimmed path) := by
  have hdrop : ∀ pieces : Path, (pieces ++ name :: blanks).rdropWhile blank = pieces ++ [name] :=
    fun pieces => rdropWhile_blanks hname pieces hblanks
  cases path with
  | nil =>
    have hbody : (body ([] ++ name :: blanks)).rdropWhile blank = [] ++ [name] := by
      rw [List.nil_append, body_nonblank hname.not_blank]
      exact hdrop []
    rw [parent_of_body hbody, List.nil_append, front_nonblank hname.not_blank]
    rfl
  | cons piece pieces =>
    rw [List.cons_append]
    by_cases hroot : piece = []
    · subst hroot
      obtain ⟨next, rest, hrest⟩ := List.exists_cons_of_ne_nil
        (List.append_ne_nil_of_right_ne_nil pieces (List.cons_ne_nil name blanks))
      have hbody : (body ([] :: (pieces ++ name :: blanks))).rdropWhile blank = pieces ++ [name] := by
        rw [← hdrop, hrest]
        rfl
      have hfront : front ([] :: (pieces ++ name :: blanks)) = [[]] := by
        rw [hrest]
        rfl
      rw [parent_of_body hbody, hfront, trimmed, kept_cons]
      cases pieces.rdropWhile blank with
      | nil => rfl
      | cons first names => rfl
    · by_cases hdot : piece = DOT
      · subst hdot
        have hbody : (body (DOT :: (pieces ++ name :: blanks))).rdropWhile blank =
            pieces ++ [name] := hdrop pieces
        have hfront : front (DOT :: (pieces ++ name :: blanks)) = [DOT] := by
          rw [front, if_pos rfl]
          nofun
        rw [parent_of_body hbody, hfront, trimmed, kept_cons]
        simp [DOT]
      · have hblank : blank piece = false := by
          simp [blank, hroot, hdot]
        have hbody : (body (piece :: (pieces ++ name :: blanks))).rdropWhile blank =
            piece :: pieces ++ [name] := by
          rw [body_nonblank hblank]
          exact hdrop (piece :: pieces)
        rw [parent_of_body hbody, front_nonblank hblank, kept_nonblank hblank]
        rw [trimmed, kept_cons]
        simp [hroot]

theorem trimmed_ne_empty {path : Path} (h : path ≠ []) : trimmed path ≠ [[]] := by
  obtain ⟨piece, pieces, rfl⟩ := List.exists_cons_of_ne_nil h
  rw [trimmed, kept_cons]
  split
  · simp
  · rename_i hne
    exact fun heq => hne (.inr heq)

/-- What is joined to the parent goes on where the pieces before the last name end. -/
theorem join_trimmed (path : Path) {other : Path} (h : is_absolute other = false) :
    join (trimmed path) other = kept path ++ other := by
  unfold join
  rw [if_neg (by rw [h]; decide)]
  unfold trimmed
  split
  · rw [List.getLast?_concat, if_pos rfl, List.dropLast_concat]
  · rename_i hne
    rw [if_neg]
    intro hlast
    cases path with
    | nil => exact hne (.inl rfl)
    | cons piece pieces =>
      rw [kept_cons] at hlast hne
      by_cases hnil : pieces.rdropWhile blank = []
      · rw [hnil] at hlast hne
        exact hne (.inr (congrArg (· :: []) (Option.some.inj hlast)))
      · have hlastne := List.rdropWhile_last_not blank pieces hnil
        have heq : (pieces.rdropWhile blank).getLast? = some [] := by
          obtain ⟨first, names, hkept⟩ := List.exists_cons_of_ne_nil hnil
          rw [hkept] at hlast ⊢
          rwa [List.getLast?_cons_cons] at hlast
        rw [List.getLast?_eq_some_getLast hnil] at heq
        rw [Option.some.inj heq] at hlastne
        exact hlastne rfl

theorem is_absolute_cons {piece : Name} {pieces : Path} :
    is_absolute (piece :: pieces) = true ↔ piece = [] ∧ pieces ≠ [] := by
  unfold is_absolute
  split
  · rename_i heq
    obtain ⟨rfl, rfl⟩ := List.cons.inj heq
    simp
  · rename_i hne
    constructor
    · nofun
    · rintro ⟨rfl, hpieces⟩
      obtain ⟨next, rest, rfl⟩ := List.exists_cons_of_ne_nil hpieces
      exact absurd rfl (hne next rest)

/-- The first piece decides where a path leads from, if it is not the only one. -/
theorem start_append {piece : Name} {pieces pieces' : Path} (h : pieces ≠ []) (h' : pieces' ≠ [])
    (cwd : Node) : start cwd (piece :: pieces) = start cwd (piece :: pieces') := by
  have hsame : is_absolute (piece :: pieces) = is_absolute (piece :: pieces') := by
    rw [Bool.eq_iff_iff, is_absolute_cons, is_absolute_cons]
    exact ⟨fun hroot => ⟨hroot.1, h'⟩, fun hroot => ⟨hroot.1, h⟩⟩
  unfold start
  rw [hsame]

section

variable {α : Type} {tree : FileTree α} {cwd : Node}

/-- A path beside a file: as it stands if it is absolute, else behind the parent of the file. -/
def beside (path other : Path) : Path :=
  if is_absolute other then other else join ((parent path).getD [DOT]) other

/-- Where a path beside a file leads from. -/
def origin (node : Node) (other : Path) : Node := if is_absolute other then [] else node.dropLast

/-- A path beside a file leads on from the directory of the file, however the file was named. -/
theorem beside_eq (hcwd : tree.is_dir cwd = true) {path other : Path} {node : Node} {contents : α}
    (hpath : resolve tree cwd path = some node) (hfile : tree.contents node = some contents)
    (hother : other ≠ []) :
    ∃ lead, beside path other = lead ++ other ∧
      walk tree (start cwd (lead ++ other)) lead = some (origin node other) := by
  unfold beside origin
  by_cases habsolute : is_absolute other = true
  · refine ⟨[], ?_, ?_⟩
    · rw [if_pos habsolute]
      rfl
    · rw [if_pos habsolute, List.nil_append, start, if_pos habsolute]
      rfl
  · rw [if_neg habsolute, if_neg habsolute]
    unfold resolve at hpath
    split at hpath
    · cases hpath
    rcases List.eq_nil_or_concat path with rfl | ⟨init, name, rfl⟩
    · obtain ⟨rfl, -⟩ := walk_eq hpath
      have hnotdir := not_dir_of_contents hfile
      rw [hcwd] at hnotdir
      cases hnotdir
    rw [List.concat_eq_append] at hpath ⊢
    obtain ⟨hname, dir, hdir, -, rfl⟩ := walk_last hpath hfile
    have hparent : parent (init ++ [name]) = some (trimmed init) :=
      parent_named hname init (List.forall_mem_nil _)
    rw [hparent, Option.getD_some, join_trimmed init (Bool.eq_false_iff.mpr habsolute), List.dropLast_concat]
    refine ⟨kept init, rfl, ?_⟩
    have hstart : start cwd (kept init ++ other) = start cwd (init ++ [name]) := by
      cases init with
      | nil =>
        unfold start
        rw [kept, List.nil_append, List.nil_append, if_neg habsolute,
          if_neg (by rw [not_absolute_singleton]; decide)]
      | cons piece pieces =>
        exact start_append (List.append_ne_nil_of_right_ne_nil _ hother)
          (List.append_ne_nil_of_right_ne_nil _ (List.cons_ne_nil name [])) cwd
    rw [hstart]
    exact walk_kept hdir

theorem resolve_beside (hcwd : tree.is_dir cwd = true) {path other : Path} {node : Node}
    {contents : α} (hpath : resolve tree cwd path = some node)
    (hfile : tree.contents node = some contents) (hother : other ≠ []) (hempty : other ≠ [[]]) :
    resolve tree cwd (beside path other) = walk tree (origin node other) other := by
  obtain ⟨lead, hlead, hwalk⟩ := beside_eq hcwd hpath hfile hother
  have hne : lead ++ other ≠ [[]] := by
    intro heq
    rcases List.append_eq_singleton_iff.mp heq with ⟨-, h⟩ | ⟨-, h⟩
    · exact hempty h
    · exact hother h
  rw [hlead, resolve, if_neg hne, walk_append, hwalk, Option.bind_some]

end

/-! ## Directories that are read -/

/-- A byte that is no slash is in one of the pieces. -/
theorem exists_piece {byte : UInt8} (hslash : byte ≠ 47) {bytes : List UInt8} (h : byte ∈ bytes) :
    ∃ piece ∈ of_bytes bytes, byte ∈ piece := by
  unfold of_bytes
  induction bytes with
  | nil => cases h
  | cons first bytes ih =>
    rw [List.splitOn_cons_eq_if_modifyHead]
    split
    · rename_i hfirst
      rcases List.mem_cons.mp h with rfl | h
      · exact absurd (eq_of_beq hfirst) hslash
      · obtain ⟨piece, hpiece, hin⟩ := ih h
        exact ⟨piece, List.mem_cons_of_mem _ hpiece, hin⟩
    · obtain ⟨piece, pieces, hpieces⟩ := List.exists_cons_of_ne_nil (List.splitOn_ne_nil 47 bytes)
      rw [hpieces] at ih ⊢
      rw [List.modifyHead_cons]
      rcases List.mem_cons.mp h with rfl | h
      · exact ⟨_, List.mem_cons_self, List.mem_cons_self⟩
      · obtain ⟨found, hfound, hin⟩ := ih h
        rcases List.mem_cons.mp hfound with rfl | hfound
        · exact ⟨_, List.mem_cons_self, List.mem_cons_of_mem _ hin⟩
        · exact ⟨found, List.mem_cons_of_mem _ hfound, hin⟩

/-- The last piece that is not blank. -/
theorem exists_last {path : Path} (h : ∃ piece ∈ path, blank piece = false) :
    ∃ pieces last blanks, path = pieces ++ last :: blanks ∧ blank last = false ∧
      ∀ piece ∈ blanks, blank piece = true := by
  induction path using List.reverseRecOn with
  | nil =>
    obtain ⟨piece, hpiece, -⟩ := h
    cases hpiece
  | append_singleton path piece ih =>
    cases hblank : blank piece with
    | false => exact ⟨path, piece, [], rfl, hblank, nofun⟩
    | true =>
      obtain ⟨found, hfound, hnot⟩ := h
      rcases List.mem_append.mp hfound with hfound | hfound
      · obtain ⟨pieces, last, blanks, rfl, hlast, hblanks⟩ := ih ⟨found, hfound, hnot⟩
        refine ⟨pieces, last, blanks ++ [piece], by simp, hlast, fun other hother => ?_⟩
        rcases List.mem_append.mp hother with hother | hother
        · exact hblanks other hother
        · rw [List.mem_singleton.mp hother, hblank]
      · rw [List.mem_singleton.mp hfound, hblank] at hnot
        cases hnot

theorem filterMap_last (pieces : Path) (last : Name) {blanks : Path}
    (hblanks : ∀ piece ∈ blanks, blank piece = true) :
    (pieces ++ last :: blanks).filterMap component =
      pieces.filterMap component ++ (component last).toList := by
  rw [List.filterMap_append, List.filterMap_cons, filterMap_blank hblanks]
  cases component last with
  | none => rfl
  | some found => rfl

/-- The name of a file is the last piece that is not blank. -/
theorem file_name_last {pieces blanks : Path} {last name : Name} (hlast : blank last = false)
    (hblanks : ∀ piece ∈ blanks, blank piece = true)
    (h : file_name (pieces ++ last :: blanks) = some name) : last = name ∧ Plain name := by
  unfold file_name at h
  rw [components_eq, filterMap_last pieces last hblanks, ← List.append_assoc] at h
  unfold component at h
  rw [if_neg (by rw [hlast]; decide)] at h
  by_cases hdots : last = DOT_DOT
  · rw [if_pos hdots, Option.toList_some, List.getLast?_concat] at h
    cases h
  · rw [if_neg hdots, Option.toList_some, List.getLast?_concat] at h
    obtain rfl := Option.some.inj h
    exact ⟨rfl, hlast, hdots⟩

theorem front_append {piece : Name} {pieces pieces' : Path} (h : pieces ≠ []) (h' : pieces' ≠ []) :
    front (piece :: pieces) = front (piece :: pieces') := by
  obtain ⟨next, rest, rfl⟩ := List.exists_cons_of_ne_nil h
  obtain ⟨next', rest', rfl⟩ := List.exists_cons_of_ne_nil h'
  cases piece with
  | nil => rfl
  | cons byte bytes => rfl

/-- The components of the entries of one directory differ in their names alone. -/
theorem components_entry (path : Path) :
    ∃ lead, ∀ name, Plain name →
      components (join (trimmed path) [name]) = lead ++ [.Normal name] := by
  cases path with
  | nil =>
    refine ⟨[], fun name hname => ?_⟩
    rw [join_trimmed [] (not_absolute_singleton name), components_eq]
    change (front [name]).map _ ++ [name].filterMap component = _
    rw [front_nonblank hname.not_blank, filterMap_plain (by simpa using hname)]
    rfl
  | cons piece pieces =>
    refine ⟨(front (piece :: [[]])).map (fun piece => if piece = [] then .RootDir else .CurDir) ++
      (kept (piece :: pieces)).filterMap component, fun name hname => ?_⟩
    have hnormal : [name].filterMap component = [.Normal name] :=
      filterMap_plain (by simpa using hname)
    rw [join_trimmed _ (not_absolute_singleton name), components_eq, List.filterMap_append, hnormal,
      kept_cons, List.cons_append, front_append (List.append_ne_nil_of_right_ne_nil _ (List.cons_ne_nil name []))
        (List.cons_ne_nil [] []), List.append_assoc]

theorem before_irrefl (component : Component) : ¬ component < component := by
  change ¬ component.before component = true
  cases component with
  | Normal name =>
    unfold Component.before
    rw [decide_eq_true_eq]
    exact List.lt_irrefl name
  | _ => nofun

theorem append_lt_append (lead : List Component) (name other : Name) :
    lead ++ [.Normal name] < lead ++ [.Normal other] ↔ name < other := by
  induction lead with
  | nil =>
    rw [List.nil_append, List.nil_append, List.cons_lt_cons_iff]
    constructor
    · rintro (h | h)
      · exact of_decide_eq_true h
      · exact absurd h.2 (List.not_lt_nil [])
    · exact fun h => .inl (decide_eq_true h)
  | cons first lead ih =>
    rw [List.cons_append, List.cons_append, List.cons_lt_cons_iff, ih]
    constructor
    · rintro (h | h)
      · exact absurd h (before_irrefl first)
      · exact h.2
    · exact fun h => .inr ⟨rfl, h⟩

/-- The entries of one directory stand in the order of their names. -/
theorem path_le_entry (path : Path) {name other : Name} (hname : Plain name) (hother : Plain other) :
    path_le (join (trimmed path) [name]) (join (trimmed path) [other]) ↔ name ≤ other := by
  obtain ⟨lead, hlead⟩ := components_entry path
  unfold path_le
  rw [hlead name hname, hlead other hother]
  exact not_congr (append_lt_append lead other name)

theorem file_name_entry (path : Path) {name : Name} (hname : Plain name) :
    file_name (join (trimmed path) [name]) = some name := by
  obtain ⟨lead, hlead⟩ := components_entry path
  unfold file_name
  rw [hlead name hname, List.getLast?_concat]

section

variable {α : Type} {tree : FileTree α} {cwd : Node}

theorem lookup_of_mem_read_dir {node : Node} {name : Name} (h : name ∈ read_dir tree node) :
    Plain name ∧ (lookup tree.entries (node ++ [name])).isSome := by
  unfold read_dir at h
  obtain ⟨row, hrow, hname⟩ := List.mem_filterMap.mp h
  split at hname
  · rename_i hnode
    have hin := List.mem_of_getLast? hname
    have hrow' : row.1 = node ++ [name] := by
      rw [← hnode]
      exact (List.dropLast_append_getLast? name hname).symm
    refine ⟨(tree.names row hrow name hin).1, ?_⟩
    unfold lookup
    rw [if_neg (by simp), Option.isSome_map, List.find?_isSome]
    exact ⟨row, hrow, decide_eq_true hrow'⟩
  · cases hname

theorem mem_keys_of_contents {node : Node} {contents : α} (h : tree.contents node = some contents) :
    node ∈ tree.entries.map Prod.fst := by
  have hlookup := contents_eq_some.mp h
  unfold lookup at hlookup
  split at hlookup
  · cases hlookup
  · obtain ⟨row, hrow, -⟩ := Option.map_eq_some_iff.mp hlookup
    have hnode := List.find?_some hrow
    rw [decide_eq_true_eq] at hnode
    rw [← hnode]
    exact List.mem_map_of_mem (List.mem_of_find?_eq_some hrow)

theorem walk_kept_dir {node dir : Node} (hdir : tree.is_dir dir = true) (path : Path) :
    walk tree node (kept path) = some dir ↔ walk tree node path = some dir := by
  constructor
  · intro h
    obtain ⟨blanks, hpath, hblanks⟩ := exists_kept path
    rw [hpath, walk_append, h, Option.bind_some, walk_blank_dir hblanks hdir]
  · exact walk_kept

/-- The parent of a path beside a file is the directory where its last name stands. -/
theorem resolve_trimmed {path more : Path} (hpath : path ≠ []) (hmore : more ≠ []) :
    resolve tree cwd (trimmed path) = walk tree (start cwd (path ++ more)) (kept path) := by
  obtain ⟨piece, pieces, rfl⟩ := List.exists_cons_of_ne_nil hpath
  unfold resolve
  rw [if_neg (trimmed_ne_empty hpath), trimmed, kept_cons]
  cases hkept : pieces.rdropWhile blank with
  | nil =>
    cases piece with
    | nil =>
      have habsolute : is_absolute ([] :: pieces ++ more) = true :=
        is_absolute_cons.mpr ⟨rfl, List.append_ne_nil_of_right_ne_nil _ hmore⟩
      rw [if_pos (.inr rfl), start, start, if_pos habsolute]
      rfl
    | cons byte bytes =>
      have hrelative : ∀ pieces, is_absolute ((byte :: bytes) :: pieces) = false := by
        intro pieces
        rw [Bool.eq_false_iff]
        intro h
        cases (is_absolute_cons.mp h).1
      rw [if_neg (by simp), List.cons_append, start, start, hrelative, hrelative]
  | cons first names =>
    rw [if_neg (by simp), List.cons_append,
      start_append (List.cons_ne_nil first names) (List.append_ne_nil_of_right_ne_nil pieces hmore)]

/-- The directory of a path beside a file, and its entries. -/
theorem parent_beside (hcwd : tree.is_dir cwd = true) {path : Path} {node : Node} {contents : α}
    (hpath : resolve tree cwd path = some node) (hfile : tree.contents node = some contents)
    {pieces blanks : Path} {last : Name} (hlast : Plain last)
    (hblanks : ∀ piece ∈ blanks, blank piece = true) :
    ∃ between, parent (beside path (pieces ++ last :: blanks)) = some (trimmed between) ∧
      (between ≠ [] → ∀ dir, tree.is_dir dir = true →
        (resolve tree cwd (trimmed between) = some dir ↔
          walk tree (origin node (pieces ++ last :: blanks)) pieces = some dir) ∧
        (resolve tree cwd (trimmed between) = some dir → ∀ name, Plain name →
          (lookup tree.entries (dir ++ [name])).isSome →
          resolve tree cwd (join (trimmed between) [name]) = some (dir ++ [name]))) := by
  have hother : pieces ++ last :: blanks ≠ [] :=
    List.append_ne_nil_of_right_ne_nil _ (List.cons_ne_nil last blanks)
  obtain ⟨lead, hlead, hwalk⟩ := beside_eq hcwd hpath hfile hother
  rw [← List.append_assoc] at hlead hwalk
  refine ⟨lead ++ pieces, ?_, fun hne dir hdir => ?_⟩
  · rw [hlead, parent_named hlast _ hblanks]
  have hresolve := @resolve_trimmed _ tree cwd _ _ hne (List.cons_ne_nil last blanks)
  constructor
  · rw [hresolve, walk_kept_dir hdir, walk_append, hwalk, Option.bind_some]
  · intro h name hname hentry
    rw [hresolve] at h
    obtain ⟨piece, rest, hkept⟩ : ∃ piece rest, lead ++ pieces = piece :: rest :=
      List.exists_cons_of_ne_nil hne
    have hstart : start cwd (kept (lead ++ pieces) ++ [name]) =
        start cwd (lead ++ pieces ++ last :: blanks) := by
      rw [hkept, kept_cons]
      exact start_append (List.append_ne_nil_of_right_ne_nil _ (List.cons_ne_nil name []))
        (List.append_ne_nil_of_right_ne_nil _ (List.cons_ne_nil last blanks)) cwd
    have hempty : kept (lead ++ pieces) ++ [name] ≠ [[]] := by
      rw [hkept, kept_cons]
      simp
    have hstep : step dir name = dir ++ [name] := by
      unfold step
      rw [if_neg (by rw [hname.not_blank]; decide), if_neg hname.not_dot_dot]
    rw [join_trimmed _ (not_absolute_singleton name), resolve, if_neg hempty, hstart, walk_append, h,
      Option.bind_some, walk_cons hdir, hstep, walk_nil, if_pos hentry]

end

end unix_paths
