-- The certificate pair of a managed certificate on disk, from `acme/storage.rs` of the crate
-- `rginx-runtime`. Each step on the files can fail, and then it changes nothing.
import Mathlib.Logic.Function.Basic
import Mathlib.Tactic.Common

namespace rginx.acme

/-! ## Files -/

structure StoredFile where
  contents : List UInt8
  mode : Nat
  deriving DecidableEq

/-- The files by their paths, and how often each was replaced or removed. The temporary files
stand apart, by the sequence number that their names have. -/
structure Disk where
  files : String → Option StoredFile
  written : String → Nat
  temps : Nat → Option StoredFile
  temp_file_sequence : Nat

/-- The count of a path whose file has just changed. -/
def Disk.counted (disk : Disk) (path : String) : String → Nat :=
  Function.update disk.written path (disk.written path + 1)

def Disk.contents (disk : Disk) (path : String) : Option (List UInt8) :=
  (disk.files path).map StoredFile.contents

inductive Error
  | Io (reason : String)
  | Server (message : String)
  deriving DecidableEq

def Error.to_string : Error → String
  | .Io reason => s!"io error: {reason}"
  | .Server message => s!"server error: {message}"

inductive FileStep
  | read | create_dir_all | create_temp_file | write_all | sync_all | rename | open_directory
  | sync_directory | remove_file
  deriving DecidableEq

/-- Where in the replacement of a pair a step belongs. -/
inductive Phase
  | certificate | private_key | rollback
  deriving DecidableEq

/-- The steps that fail, each with the reason that the system gives. -/
abbrev Failures := Phase → FileStep → Option String

abbrev DiskM := EStateM Error Disk

def CERT_FILE_MODE : Nat := 0o644
def PRIVATE_KEY_FILE_MODE : Nat := 0o600

/-! ## The steps -/

/-- A step that fails leaves the disk as it was. -/
def fallible (failure : Option String) (effect : Disk → Disk) : DiskM Unit := fun disk =>
  match failure with
  | none => .ok () (effect disk)
  | some reason => .error (.Io reason) disk

section Steps

variable (failures : Failures) (phase : Phase)

def create_temp_file (sequence mode : Nat) : DiskM Unit :=
  fallible (failures phase .create_temp_file) fun disk =>
    { disk with temps := Function.update disk.temps sequence (some ⟨[], mode⟩) }

def write_all (sequence : Nat) (contents : List UInt8) : DiskM Unit :=
  fallible (failures phase .write_all) fun disk =>
    let written := (disk.temps sequence).map fun file =>
      { file with contents := file.contents ++ contents }
    { disk with temps := Function.update disk.temps sequence written }

def rename (sequence : Nat) (path : String) : DiskM Unit :=
  fallible (failures phase .rename) fun disk =>
    { disk with
      files := Function.update disk.files path (disk.temps sequence)
      written := disk.counted path
      temps := Function.update disk.temps sequence none }

def sync_directory : DiskM Unit := do
  fallible (failures phase .open_directory) id
  fallible (failures phase .sync_directory) id

/-- The number of a temporary path, which no other has. -/
def temporary_path : DiskM Nat := fun disk =>
  .ok disk.temp_file_sequence { disk with temp_file_sequence := disk.temp_file_sequence + 1 }

def remove_temp_file (sequence : Nat) : DiskM Unit :=
  fallible (failures phase .remove_file) fun disk =>
    { disk with temps := Function.update disk.temps sequence none }

/-- The closure of `atomic_write`. -/
def write_result (temp_path : Nat) (path : String) (contents : List UInt8) (mode : Nat) :
    DiskM Unit := do
  create_temp_file failures phase temp_path mode
  write_all failures phase temp_path contents
  fallible (failures phase .sync_all) id
  rename failures phase temp_path path
  sync_directory failures phase

def atomic_write (path : String) (contents : List UInt8) (mode : Nat) : DiskM Unit := do
  fallible (failures phase .create_dir_all) id
  let temp_path ← temporary_path
  try
    write_result failures phase temp_path path contents mode
  catch error =>
    try remove_temp_file failures phase temp_path catch _ => pure ()
    throw error

def read_existing_file (path : String) : DiskM (Option (List UInt8)) := fun disk =>
  match failures phase .read with
  | none => .ok (disk.contents path) disk
  | some reason => .error (.Io reason) disk

/-- A file that is not there needs no removal. -/
def remove_file_if_exists (path : String) : DiskM Unit := fun disk =>
  match disk.files path with
  | none => .ok () disk
  | some _ =>
    (do
      fallible (failures phase .remove_file) fun disk =>
        { disk with files := Function.update disk.files path none, written := disk.counted path }
      sync_directory failures phase : DiskM Unit) disk

def rollback_file (path : String) (previous_contents : Option (List UInt8)) (mode : Nat) :
    DiskM Unit :=
  match previous_contents with
  | some contents => atomic_write failures phase path contents mode
  | none => remove_file_if_exists failures phase path

end Steps

structure ManagedCertificateSpec where
  scope : String
  domains : List String
  cert_path : String
  key_path : String
  deriving DecidableEq

def write_certificate_pair (failures : Failures) (spec : ManagedCertificateSpec)
    (certificate_chain_pem private_key_pem : List UInt8) : DiskM Unit := do
  let previous_certificate ← read_existing_file failures .certificate spec.cert_path
  atomic_write failures .certificate spec.cert_path certificate_chain_pem CERT_FILE_MODE
  try
    atomic_write failures .private_key spec.key_path private_key_pem PRIVATE_KEY_FILE_MODE
  catch error =>
    try
      rollback_file failures .rollback spec.cert_path previous_certificate CERT_FILE_MODE
    catch rollback_error =>
      throw (.Server s!"failed to persist private key for managed certificate `{spec.scope}`: {error.to_string}; failed to roll back certificate `{spec.cert_path}`: {rollback_error.to_string}")
    throw error

/-! ## What a write does to its file -/

section Rules

variable {α β : Type} {program : DiskM α} {disk disk' : Disk} {a : α} {error : Error}

theorem bind_ok {next : α → DiskM β} (h : program.run disk = .ok a disk') :
    (program >>= next).run disk = (next a).run disk' := by
  simp only [EStateM.run_bind, h]

theorem bind_error {next : α → DiskM β} (h : program.run disk = .error error disk') :
    (program >>= next).run disk = .error error disk' := by
  simp only [EStateM.run_bind, h]

theorem catch_ok {handle : Error → DiskM α} (h : program.run disk = .ok a disk') :
    (tryCatch program handle).run disk = .ok a disk' := by
  simp only [EStateM.run] at h
  simp only [EStateM.run, tryCatch, tryCatchThe, MonadExceptOf.tryCatch, EStateM.tryCatch, h]

theorem catch_error {handle : Error → DiskM α} (h : program.run disk = .error error disk') :
    (tryCatch program handle).run disk = (handle error).run disk' := by
  simp only [EStateM.run] at h
  simp only [EStateM.run, tryCatch, tryCatchThe, MonadExceptOf.tryCatch, EStateM.tryCatch, h]
  rfl

theorem fallible_ok {effect : Disk → Disk} : (fallible none effect).run disk = .ok () (effect disk) :=
  rfl

theorem fallible_error {reason : String} {effect : Disk → Disk} :
    (fallible (some reason) effect).run disk = .error (.Io reason) disk :=
  rfl

end Rules

/-- The steps of a write up to the rename succeed. -/
def Renames (failures : Failures) (phase : Phase) : Prop :=
  ∀ step ∈ [FileStep.create_dir_all, .create_temp_file, .write_all, .sync_all, .rename],
    failures phase step = none

/-- The directory is synchronised after it. -/
def SyncsDirectory (failures : Failures) (phase : Phase) : Prop :=
  ∀ step ∈ [FileStep.open_directory, .sync_directory], failures phase step = none

/-- The count of no other path has changed. -/
def OnlyAt (path : String) (before after : Disk) : Prop :=
  ∀ other, other ≠ path → after.written other = before.written other

/-- How a write ends: with the new file, with the new file and an error, or with an error only. -/
inductive Written (failures : Failures) (phase : Phase) (before : Disk) (path : String)
    (file : StoredFile) : EStateM.Result Error Disk Unit → Prop
  | replaced (disk : Disk) (hrename : Renames failures phase)
      (hsync : SyncsDirectory failures phase)
      (hfiles : disk.files = Function.update before.files path (some file))
      (hothers : OnlyAt path before disk) :
      Written failures phase before path file (.ok () disk)
  | unsynced (disk : Disk) (error : Error) (hrename : Renames failures phase)
      (hsync : ¬ SyncsDirectory failures phase)
      (hfiles : disk.files = Function.update before.files path (some file))
      (hothers : OnlyAt path before disk) :
      Written failures phase before path file (.error error disk)
  | unchanged (disk : Disk) (error : Error) (hrename : ¬ Renames failures phase)
      (hfiles : disk.files = before.files) (hwritten : disk.written = before.written) :
      Written failures phase before path file (.error error disk)

section Writes

variable {failures : Failures} {phase : Phase}

theorem write_result_written (temp_path : Nat) (path : String) (contents : List UInt8) (mode : Nat)
    (disk : Disk) (hdir : failures phase .create_dir_all = none) :
    Written failures phase disk path ⟨contents, mode⟩
      ((write_result failures phase temp_path path contents mode).run disk) := by
  unfold write_result create_temp_file write_all rename sync_directory
  cases hcreate : failures phase .create_temp_file with
  | some reason =>
    rw [bind_error fallible_error]
    exact .unchanged _ _ (by simp [Renames, hcreate]) rfl rfl
  | none =>
  rw [bind_ok fallible_ok]
  cases hwrite : failures phase .write_all with
  | some reason =>
    rw [bind_error fallible_error]
    exact .unchanged _ _ (by simp [Renames, hwrite]) rfl rfl
  | none =>
  rw [bind_ok fallible_ok]
  cases hfile : failures phase .sync_all with
  | some reason =>
    rw [bind_error fallible_error]
    exact .unchanged _ _ (by simp [Renames, hfile]) rfl rfl
  | none =>
  rw [bind_ok fallible_ok]
  cases hrename : failures phase .rename with
  | some reason =>
    rw [bind_error fallible_error]
    exact .unchanged _ _ (by simp [Renames, hrename]) rfl rfl
  | none =>
  rw [bind_ok fallible_ok]
  have hrenames : Renames failures phase := by simp [Renames, hdir, hcreate, hwrite, hfile, hrename]
  have honly : ∀ files temps, OnlyAt path disk
      { disk with files, written := disk.counted path, temps } := by
    intro files temps other hne
    simp [Disk.counted, hne]
  cases hopen : failures phase .open_directory with
  | some reason =>
    rw [bind_error fallible_error]
    exact .unsynced _ _ hrenames (by simp [SyncsDirectory, hopen]) (by simp) (honly _ _)
  | none =>
  rw [bind_ok fallible_ok]
  cases hsync : failures phase .sync_directory with
  | some reason =>
    rw [fallible_error]
    exact .unsynced _ _ hrenames (by simp [SyncsDirectory, hsync]) (by simp) (honly _ _)
  | none =>
    rw [fallible_ok]
    exact .replaced _ hrenames (by simp [SyncsDirectory, hopen, hsync]) (by simp) (honly _ _)

/-- What is left of the temporary file is no concern of the files. -/
theorem remove_temp_file_files (temp_path : Nat) (disk : Disk) :
    ∃ disk', (tryCatch (remove_temp_file failures phase temp_path) fun _ => pure ()).run disk =
      .ok () disk' ∧ disk'.files = disk.files ∧ disk'.written = disk.written := by
  unfold remove_temp_file
  cases failures phase .remove_file with
  | none => exact ⟨_, catch_ok fallible_ok, rfl, rfl⟩
  | some reason => exact ⟨disk, (catch_error fallible_error).trans rfl, rfl, rfl⟩

theorem atomic_write_written (path : String) (contents : List UInt8) (mode : Nat) (disk : Disk) :
    Written failures phase disk path ⟨contents, mode⟩
      ((atomic_write failures phase path contents mode).run disk) := by
  unfold atomic_write
  cases hdir : failures phase .create_dir_all with
  | some reason =>
    rw [bind_error fallible_error]
    exact .unchanged _ _ (by simp [Renames, hdir]) rfl rfl
  | none =>
  have htemp : temporary_path.run disk = .ok disk.temp_file_sequence
      { disk with temp_file_sequence := disk.temp_file_sequence + 1 } := rfl
  rw [bind_ok fallible_ok, id, bind_ok htemp]
  have hwritten := write_result_written disk.temp_file_sequence path contents mode
    { disk with temp_file_sequence := disk.temp_file_sequence + 1 } hdir
  generalize hresult : (write_result failures phase disk.temp_file_sequence path contents mode).run
    { disk with temp_file_sequence := disk.temp_file_sequence + 1 } = result at hwritten
  cases hwritten with
  | replaced disk' hrename hsync hfiles hothers =>
    rw [catch_ok hresult]
    exact .replaced disk' hrename hsync hfiles hothers
  | unsynced disk' error hrename hsync hfiles hothers =>
    obtain ⟨disk'', hclean, hsame, hcounts⟩ := @remove_temp_file_files failures phase
      disk.temp_file_sequence disk'
    rw [catch_error hresult, bind_ok hclean]
    refine .unsynced disk'' error hrename hsync (hsame.trans hfiles) ?_
    intro other hne
    rw [hcounts]
    exact hothers other hne
  | unchanged disk' error hrename hfiles hwritten =>
    obtain ⟨disk'', hclean, hsame, hcounts⟩ := @remove_temp_file_files failures phase
      disk.temp_file_sequence disk'
    rw [catch_error hresult, bind_ok hclean]
    exact .unchanged disk'' error hrename (hsame.trans hfiles) (hcounts.trans hwritten)

theorem contents_self {disk disk' : Disk} {path : String} {file : StoredFile}
    (h : disk'.files = Function.update disk.files path (some file)) :
    disk'.contents path = some file.contents := by
  rw [Disk.contents, h, Function.update_self, Option.map_some]

theorem contents_other {disk disk' : Disk} {path other : String} {file : StoredFile}
    (h : disk'.files = Function.update disk.files path (some file)) (hne : other ≠ path) :
    disk'.contents other = disk.contents other := by
  rw [Disk.contents, h, Function.update_of_ne hne, Disk.contents]

/-- A rollback whose steps succeed leaves the contents that it was given, in that file only. -/
theorem rollback_file_ok (h : ∀ step, failures phase step = none) (path : String)
    (previous_contents : Option (List UInt8)) (mode : Nat) (disk : Disk) :
    ∃ disk', (rollback_file failures phase path previous_contents mode).run disk = .ok () disk' ∧
      disk'.contents path = previous_contents ∧
      ∀ other, other ≠ path → disk'.contents other = disk.contents other := by
  cases previous_contents with
  | some contents =>
    have hrename : Renames failures phase := fun step _ => h step
    have hsync : SyncsDirectory failures phase := fun step _ => h step
    have hwritten := @atomic_write_written failures phase path contents mode disk
    rw [rollback_file]
    generalize (atomic_write failures phase path contents mode).run disk = result at hwritten
    cases hwritten with
    | replaced disk' _ _ hfiles _ =>
      exact ⟨disk', rfl, contents_self hfiles, fun other hne => contents_other hfiles hne⟩
    | unsynced _ _ _ hunsynced => exact absurd hsync hunsynced
    | unchanged _ _ hunrenamed => exact absurd hrename hunrenamed
  | none =>
    cases hfile : disk.files path with
    | none =>
      refine ⟨disk, ?_, ?_, fun _ _ => rfl⟩
      · simp only [rollback_file, remove_file_if_exists, EStateM.run, hfile]
      · rw [Disk.contents, hfile, Option.map_none]
    | some file =>
      refine ⟨{ disk with
        files := Function.update disk.files path none
        written := disk.counted path }, ?_, ?_, ?_⟩
      · have hremove : remove_file_if_exists failures phase path disk =
            (do
              fallible (failures phase .remove_file) fun disk =>
                { disk with
                  files := Function.update disk.files path none
                  written := disk.counted path }
              sync_directory failures phase : DiskM Unit).run disk := by
          rw [remove_file_if_exists, hfile]
          rfl
        rw [rollback_file, EStateM.run, hremove, h, bind_ok fallible_ok, sync_directory, h, h,
          bind_ok fallible_ok, fallible_ok]
        rfl
      · simp [Disk.contents]
      · intro other hne
        simp [Disk.contents, hne]

/-- The disk that a program leaves, whether it succeeds or not. -/
def final {α : Type} : EStateM.Result Error Disk α → Disk
  | .ok _ disk => disk
  | .error _ disk => disk

theorem Written.only_at {before : Disk} {path : String} {file : StoredFile}
    {result : EStateM.Result Error Disk Unit} (h : Written failures phase before path file result) :
    OnlyAt path before (final result) := by
  cases h with
  | replaced _ _ _ _ hothers => exact hothers
  | unsynced _ _ _ _ _ hothers => exact hothers
  | unchanged _ _ _ _ hwritten => exact fun other _ => congrFun hwritten other

theorem rollback_file_only_at (path : String) (previous_contents : Option (List UInt8)) (mode : Nat)
    (disk : Disk) :
    OnlyAt path disk (final ((rollback_file failures phase path previous_contents mode).run disk)) := by
  cases previous_contents with
  | some contents => exact (atomic_write_written path contents mode disk).only_at
  | none =>
    intro other hne
    simp only [rollback_file, remove_file_if_exists, EStateM.run]
    split
    · rfl
    · simp only [fallible, sync_directory, bind, EStateM.bind]
      cases failures phase .remove_file with
      | some reason => rfl
      | none =>
        cases failures phase .open_directory with
        | some reason => exact Function.update_of_ne hne _ _
        | none =>
          cases failures phase .sync_directory with
          | some reason => exact Function.update_of_ne hne _ _
          | none => exact Function.update_of_ne hne _ _

end Writes

/-! ## The pair -/

/-- How the replacement of a pair ends. -/
inductive PairEnd (failures : Failures) (spec : ManagedCertificateSpec)
    (certificate_chain_pem private_key_pem : List UInt8) (disk : Disk) :
    EStateM.Result Error Disk Unit → Prop
  | unread (error : Error) (hread : failures .certificate .read ≠ none) :
      PairEnd failures spec certificate_chain_pem private_key_pem disk (.error error disk)
  | certificate_failed (error : Error) (disk' : Disk) (hread : failures .certificate .read = none)
      (hcert : Written failures .certificate disk spec.cert_path
        ⟨certificate_chain_pem, CERT_FILE_MODE⟩ (.error error disk')) :
      PairEnd failures spec certificate_chain_pem private_key_pem disk (.error error disk')
  | stored (disk' disk'' : Disk) (hread : failures .certificate .read = none)
      (hcert : Written failures .certificate disk spec.cert_path
        ⟨certificate_chain_pem, CERT_FILE_MODE⟩ (.ok () disk'))
      (hkey : Written failures .private_key disk' spec.key_path
        ⟨private_key_pem, PRIVATE_KEY_FILE_MODE⟩ (.ok () disk'')) :
      PairEnd failures spec certificate_chain_pem private_key_pem disk (.ok () disk'')
  | rolled_back (key_error error : Error) (disk' disk'' : Disk)
      (hread : failures .certificate .read = none)
      (hcert : Written failures .certificate disk spec.cert_path
        ⟨certificate_chain_pem, CERT_FILE_MODE⟩ (.ok () disk'))
      (hkey : Written failures .private_key disk' spec.key_path
        ⟨private_key_pem, PRIVATE_KEY_FILE_MODE⟩ (.error key_error disk'')) :
      PairEnd failures spec certificate_chain_pem private_key_pem disk
        (.error error (final ((rollback_file failures .rollback spec.cert_path
          (disk.contents spec.cert_path) CERT_FILE_MODE).run disk'')))

theorem write_certificate_pair_end (failures : Failures) (spec : ManagedCertificateSpec)
    (certificate_chain_pem private_key_pem : List UInt8) (disk : Disk) :
    PairEnd failures spec certificate_chain_pem private_key_pem disk
      ((write_certificate_pair failures spec certificate_chain_pem private_key_pem).run disk) := by
  unfold write_certificate_pair
  cases hread : failures .certificate .read with
  | some reason =>
    have hrun : (read_existing_file failures .certificate spec.cert_path).run disk =
        .error (.Io reason) disk := by
      simp only [read_existing_file, EStateM.run, hread]
    rw [bind_error hrun]
    exact .unread _ (by simp [hread])
  | none =>
  have hrun : (read_existing_file failures .certificate spec.cert_path).run disk =
      .ok (disk.contents spec.cert_path) disk := by
    simp only [read_existing_file, EStateM.run, hread]
  rw [bind_ok hrun]
  have hcert := @atomic_write_written failures .certificate spec.cert_path certificate_chain_pem
    CERT_FILE_MODE disk
  cases hresult : (atomic_write failures .certificate spec.cert_path certificate_chain_pem
    CERT_FILE_MODE).run disk with
  | error error disk' =>
    rw [hresult] at hcert
    rw [bind_error hresult]
    exact .certificate_failed error disk' hread hcert
  | ok _ disk' =>
    rw [hresult] at hcert
    rw [bind_ok hresult]
    have hkey := @atomic_write_written failures .private_key spec.key_path private_key_pem
      PRIVATE_KEY_FILE_MODE disk'
    cases hkey_result : (atomic_write failures .private_key spec.key_path private_key_pem
      PRIVATE_KEY_FILE_MODE).run disk' with
    | ok _ disk'' =>
      rw [hkey_result] at hkey
      rw [catch_ok hkey_result]
      exact .stored disk' disk'' hread hcert hkey
    | error key_error disk'' =>
      rw [hkey_result] at hkey
      rw [catch_error hkey_result]
      have hend := fun error => PairEnd.rolled_back key_error error disk' disk'' hread hcert hkey
      cases hrollback : (rollback_file failures .rollback spec.cert_path
          (disk.contents spec.cert_path) CERT_FILE_MODE).run disk'' with
      | ok _ last =>
        rw [hrollback] at hend
        rw [bind_ok (catch_ok hrollback)]
        exact hend key_error
      | error rollback_error last =>
        rw [hrollback] at hend
        rw [EStateM.run_bind, catch_error hrollback]
        exact hend _

/-- Both files are the new ones, or both are as they were. -/
def PairIntact (spec : ManagedCertificateSpec) (certificate_chain_pem private_key_pem : List UInt8)
    (disk : Disk) : EStateM.Result Error Disk Unit → Prop
  | .ok _ disk' => disk'.contents spec.cert_path = some certificate_chain_pem ∧
      disk'.contents spec.key_path = some private_key_pem
  | .error _ disk' => disk'.contents spec.cert_path = disk.contents spec.cert_path ∧
      disk'.contents spec.key_path = disk.contents spec.key_path

/-- A pair stays a pair, exactly where no directory that holds a changed file is left
unsynchronised. -/
theorem pair_intact_iff {failures : Failures} (hrollback : ∀ step, failures .rollback step = none)
    (spec : ManagedCertificateSpec) (certificate_chain_pem private_key_pem : List UInt8)
    (disk : Disk) :
    PairIntact spec certificate_chain_pem private_key_pem disk
        ((write_certificate_pair failures spec certificate_chain_pem private_key_pem).run disk) ↔
      (failures .certificate .read = none → Renames failures .certificate →
        (¬ SyncsDirectory failures .certificate →
          disk.contents spec.cert_path = some certificate_chain_pem) ∧
        (SyncsDirectory failures .certificate → Renames failures .private_key →
          if spec.cert_path = spec.key_path then
            SyncsDirectory failures .private_key → certificate_chain_pem = private_key_pem
          else
            ¬ SyncsDirectory failures .private_key →
              disk.contents spec.key_path = some private_key_pem)) := by
  have hend := write_certificate_pair_end failures spec certificate_chain_pem private_key_pem disk
  generalize (write_certificate_pair failures spec certificate_chain_pem private_key_pem).run disk =
    result at hend
  cases hend with
  | unread error hread => simp [PairIntact, hread]
  | certificate_failed error disk' hread hcert =>
    cases hcert with
    | unchanged _ _ hrename hfiles _ =>
      have hsame : ∀ path, disk'.contents path = disk.contents path := fun path => by
        rw [Disk.contents, hfiles, Disk.contents]
      simp [PairIntact, hsame, hrename]
    | unsynced _ _ hrename hsync hfiles _ =>
      have hnew := contents_self hfiles
      have hcondition : disk.contents spec.cert_path = some certificate_chain_pem ↔
          (disk'.contents spec.cert_path = disk.contents spec.cert_path ∧
            disk'.contents spec.key_path = disk.contents spec.key_path) := by
        rw [hnew]
        refine ⟨fun hsame => ⟨hsame.symm, ?_⟩, fun hsame => hsame.1.symm⟩
        by_cases hpath : spec.key_path = spec.cert_path
        · rw [hpath, hnew, hsame]
        · exact contents_other hfiles hpath
      simp only [PairIntact, ← hcondition]
      simp [hread, hrename, hsync]
  | stored disk' disk'' hread hcert hkey =>
    cases hcert with
    | replaced _ hrename hsync hfiles _ =>
    cases hkey with
    | replaced _ hkey_rename hkey_sync hkey_files _ =>
    simp only [PairIntact, contents_self hkey_files]
    by_cases hpath : spec.cert_path = spec.key_path
    · simp [hpath, contents_self hkey_files, hread, hrename, hsync, hkey_rename, hkey_sync, eq_comm]
    · simp [hpath, contents_other hkey_files hpath, contents_self hfiles, hsync, hkey_sync]
  | rolled_back key_error error disk' disk'' hread hcert hkey =>
    obtain ⟨last, hlast, hlast_cert, hothers⟩ := @rollback_file_ok failures .rollback hrollback
      spec.cert_path (disk.contents spec.cert_path) CERT_FILE_MODE disk''
    rw [hlast]
    show last.contents spec.cert_path = disk.contents spec.cert_path ∧
      last.contents spec.key_path = disk.contents spec.key_path ↔ _
    cases hcert with
    | replaced _ hrename hsync hfiles _ =>
    cases hkey with
    | unsynced _ _ hkey_rename hkey_sync hkey_files _ =>
      by_cases hpath : spec.cert_path = spec.key_path
      · rw [← hpath]
        simp [hlast_cert, hsync, hkey_sync]
      · have hnew : last.contents spec.key_path = some private_key_pem :=
          (hothers _ (Ne.symm hpath)).trans (contents_self hkey_files)
        simp [hpath, hlast_cert, hnew, hread, hrename, hsync, hkey_rename, hkey_sync, eq_comm]
    | unchanged _ _ hkey_rename hkey_files _ =>
      have hsame : last.contents spec.key_path = disk.contents spec.key_path := by
        by_cases hpath : spec.key_path = spec.cert_path
        · rw [hpath, hlast_cert]
        · rw [hothers _ hpath, Disk.contents, hkey_files]
          exact contents_other hfiles hpath
      simp [hlast_cert, hsame, hsync, hkey_rename]

/-- The new certificate becomes visible. -/
def Touches (failures : Failures) : Prop :=
  failures .certificate .read = none ∧ Renames failures .certificate

/-- Both files are replaced, with their directories. -/
def StoresBoth (failures : Failures) : Prop :=
  Touches failures ∧ SyncsDirectory failures .certificate ∧ Renames failures .private_key ∧
    SyncsDirectory failures .private_key

/-- A replacement succeeds where both files are stored. -/
theorem PairEnd.ok {failures : Failures} {spec : ManagedCertificateSpec}
    {certificate_chain_pem private_key_pem : List UInt8} {disk : Disk}
    {result : EStateM.Result Error Disk Unit}
    (h : PairEnd failures spec certificate_chain_pem private_key_pem disk result)
    (hstores : StoresBoth failures) : ∃ disk', result = .ok () disk' := by
  obtain ⟨⟨hread, hrename⟩, hsync, hkey_rename, hkey_sync⟩ := hstores
  cases h with
  | unread _ hunread => exact absurd hread hunread
  | certificate_failed _ _ _ hcert =>
    cases hcert with
    | unsynced _ _ _ hunsynced => exact absurd hsync hunsynced
    | unchanged _ _ hunrenamed => exact absurd hrename hunrenamed
  | stored disk' disk'' => exact ⟨disk'', rfl⟩
  | rolled_back _ _ _ _ _ _ hkey =>
    cases hkey with
    | unsynced _ _ _ hunsynced => exact absurd hkey_sync hunsynced
    | unchanged _ _ hunrenamed => exact absurd hkey_rename hunrenamed

/-- Where the new certificate does not become visible, no file changes. -/
theorem PairEnd.untouched {failures : Failures} {spec : ManagedCertificateSpec}
    {certificate_chain_pem private_key_pem : List UInt8} {disk : Disk}
    {result : EStateM.Result Error Disk Unit}
    (h : PairEnd failures spec certificate_chain_pem private_key_pem disk result)
    (htouches : ¬ Touches failures) : (final result).written = disk.written := by
  cases h with
  | unread _ _ => rfl
  | certificate_failed _ _ hread hcert =>
    cases hcert with
    | unsynced _ _ hrename => exact absurd ⟨hread, hrename⟩ htouches
    | unchanged _ _ _ _ hwritten => exact hwritten
  | stored _ _ hread hcert =>
    cases hcert with
    | replaced _ hrename => exact absurd ⟨hread, hrename⟩ htouches
  | rolled_back _ _ _ _ hread hcert =>
    cases hcert with
    | replaced _ hrename => exact absurd ⟨hread, hrename⟩ htouches

/-- A replacement changes no file but the two. -/
theorem PairEnd.others {failures : Failures} {spec : ManagedCertificateSpec}
    {certificate_chain_pem private_key_pem : List UInt8} {disk : Disk}
    {result : EStateM.Result Error Disk Unit}
    (h : PairEnd failures spec certificate_chain_pem private_key_pem disk result) {other : String}
    (hcert_path : other ≠ spec.cert_path) (hkey_path : other ≠ spec.key_path) :
    (final result).written other = disk.written other := by
  cases h with
  | unread _ _ => rfl
  | certificate_failed _ _ _ hcert => exact hcert.only_at other hcert_path
  | stored _ _ _ hcert hkey =>
    exact (hkey.only_at other hkey_path).trans (hcert.only_at other hcert_path)
  | rolled_back _ _ _ _ _ hcert hkey =>
    exact (rollback_file_only_at _ _ _ _ other hcert_path).trans
      ((hkey.only_at other hkey_path).trans (hcert.only_at other hcert_path))

/-! ## A directory that is not synchronised -/

def old_pair : Disk :=
  ⟨fun path => if path = "cert.pem" then some ⟨[1], CERT_FILE_MODE⟩
    else if path = "key.pem" then some ⟨[2], PRIVATE_KEY_FILE_MODE⟩ else none, fun _ => 1,
    fun _ => none, 0⟩

def site_certificate : ManagedCertificateSpec := ⟨"servers[0]", ["a.example"], "cert.pem", "key.pem"⟩

/-- The one step that fails. -/
def only (failed : Phase × FileStep) : Failures := fun phase step =>
  if (phase, step) = failed then some "Input/output error" else none

theorem pair_intact_iff_unsynced_key :
    PairIntact site_certificate [3] [4] old_pair
        ((write_certificate_pair (only (.private_key, .sync_directory)) site_certificate [3] [4]).run
          old_pair) ↔
      (only (.private_key, .sync_directory) .certificate .read = none →
        Renames (only (.private_key, .sync_directory)) .certificate →
        (¬ SyncsDirectory (only (.private_key, .sync_directory)) .certificate →
          old_pair.contents "cert.pem" = some [3]) ∧
        (SyncsDirectory (only (.private_key, .sync_directory)) .certificate →
          Renames (only (.private_key, .sync_directory)) .private_key →
          if "cert.pem" = "key.pem" then
            SyncsDirectory (only (.private_key, .sync_directory)) .private_key → [3] = [4]
          else
            ¬ SyncsDirectory (only (.private_key, .sync_directory)) .private_key →
              old_pair.contents "key.pem" = some [4])) :=
  pair_intact_iff (fun _ => rfl) site_certificate [3] [4] old_pair

/-- Where the directory of the key is not synchronised, the old certificate stands beside the
new key; where that of the certificate is not, the new certificate beside the old key. -/
theorem mismatched_pair :
    (∃ error disk, (write_certificate_pair (only (.private_key, .sync_directory)) site_certificate
        [3] [4]).run old_pair = .error error disk ∧
      disk.contents "cert.pem" = some [1] ∧ disk.contents "key.pem" = some [4]) ∧
    ∃ error disk, (write_certificate_pair (only (.certificate, .sync_directory)) site_certificate
        [3] [4]).run old_pair = .error error disk ∧
      disk.contents "cert.pem" = some [3] ∧ disk.contents "key.pem" = some [2] :=
  ⟨⟨_, _, rfl, by decide, by decide⟩, ⟨_, _, rfl, by decide, by decide⟩⟩

end rginx.acme
