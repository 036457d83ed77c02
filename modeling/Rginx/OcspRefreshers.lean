-- The refresh of an OCSP staple, from `ocsp/scheduler.rs`, `ocsp/persist.rs` and `ocsp/refresh.rs`
-- of the crate `rginx-runtime`. Any number of refreshers work on one staple file without a lock,
-- each in its file steps, while the certificate file and the clock change beside them. How a step
-- ends is an outcome that the refresher does not choose.
import Rginx.AtomicSections
import Rginx.OcspAuthorization

open rust_result atomic_sections rginx.config rginx.http.ocsp

namespace rginx.ocsp

/-! ## The files -/

def MAX_OCSP_RESPONSE_BYTES : Nat := 128 * 1024

/-- A file beside the staple, by the nanoseconds of the clock when it was named. -/
inductive TempFile
  | response (unique : Nat)
  | cleared (unique : Nat)
  deriving DecidableEq

/-- What a validation reads beside the response: the certificate chain and the clock. -/
structure Surroundings where
  certs : Except String (List Bytes)
  now : Instant

structure Disk where
  staple : Option Bytes
  temps : TempFile → Option Bytes
  surroundings : Surroundings

/-- How a step ends: an error; the random bytes of a nonce; what each responder sends; the clock
when a temporary file is named; and what a write that fails leaves of its file. -/
structure Outcome where
  error : Option String := none
  nonce : Bytes := []
  answers : String → Except String Bytes := fun _ => .error "request failed"
  unique : Nat := 0
  left : Option Bytes := none

/-- The steps of a refresher. A rename comes with the variables that its task decided on: the
response or the content of the staple, and what it was validated against. The certificate file and
the clock change in steps of their own. -/
inductive FileStep
  | build_request
  | fetch_response
  | validate
  | metadata
  | read
  | create_dir_all
  | write (temp : TempFile) (content : Bytes)
  | rename (temp : TempFile) (decided_on : Bytes) (seen : Surroundings)
  | record_refresh_success
  | record_refresh_failure (message : String)
  | change_surroundings (surroundings : Surroundings)

/-- Why a rename does not happen. -/
def Disk.rename_error (disk : Disk) (temp : TempFile) (outcome : Outcome) : Option String :=
  if disk.temps temp = none then some "No such file or directory (os error 2)" else outcome.error

def FileStep.effect (step : FileStep) (outcome : Outcome) (disk : Disk) : Disk :=
  match step with
  | .write temp content =>
    let written := if outcome.error = none then some content else outcome.left
    { disk with temps := Function.update disk.temps temp written }
  | .rename temp _ _ =>
    if disk.rename_error temp outcome = none then
      { disk with staple := disk.temps temp, temps := Function.update disk.temps temp none }
    else disk
  | .change_surroundings surroundings => { disk with surroundings }
  | _ => disk

/-- The chain is loaded at the start of a validation, and that can fail. -/
def Disk.seen (disk : Disk) (loaded : Outcome) : Surroundings :=
  match loaded.error with
  | some error => { disk.surroundings with certs := .error error }
  | none => disk.surroundings

abbrev Refresher := Program Empty FileStep Outcome Disk

/-- The path of the staple, its directory, and the path without its extension. -/
structure CachePath where
  path : String
  parent : String
  stem : String

/-- `Path::with_extension` of a name for a temporary file. -/
def CachePath.temp_path (cache : CachePath) : TempFile → String
  | .response unique => s!"{cache.stem}.ocsp-{unique}.tmp"
  | .cleared unique => s!"{cache.stem}.ocsp-clear-{unique}.tmp"

/-! ## The file of the staple -/

section Refresh

variable {Name Algorithm EndEntityCert : Type} [DecidableEq Name]
  (crates : Crates Name Algorithm EndEntityCert) (cert_path : String) (cache : CachePath)
  (responder_policy : OcspResponderPolicy)

def validate (seen : Surroundings) (body : Bytes) (expected_nonce : Option Bytes)
    (nonce_mode : OcspNonceMode) : Except String Unit :=
  validate_ocsp_response_for_certificate_with_options crates cert_path seen.certs body
    expected_nonce nonce_mode responder_policy seen.now

/-- A directory is made, a temporary file is written and renamed to the staple. The two callers
differ in the texts of their errors. -/
def replace_cache_file (temp : Nat → TempFile) (content decided_on : Bytes) (seen : Surroundings)
    (write_text replace_text : String) (next : Except String Bool → Refresher) : Refresher :=
  .run .create_dir_all fun created _ =>
    match created.error with
    | some error =>
      next (.error s!"failed to create OCSP cache directory `{cache.parent}`: {error}")
    | none =>
      let temp := temp created.unique
      .run (.write temp content) fun written _ =>
        match written.error with
        | some error => next (.error s!"{write_text} `{cache.temp_path temp}`: {error}")
        | none =>
          .run (.rename temp decided_on seen) fun renamed disk =>
            match disk.rename_error temp renamed with
            | some error => next (.error s!"{replace_text} `{cache.path}`: {error}")
            | none => next (.ok true)

def write_ocsp_cache_file (body : Bytes) (seen : Surroundings)
    (next : Except String Bool → Refresher) : Refresher :=
  .run .read fun read disk =>
    if read.error = none ∧ disk.staple = some body then next (.ok false)
    else replace_cache_file cache .response body body seen "failed to write OCSP cache file"
      "failed to replace OCSP cache file" next

def clear_ocsp_cache_file (decided_on : Bytes) (seen : Surroundings)
    (next : Except String Bool → Refresher) : Refresher :=
  .run .metadata fun metadata disk =>
    match metadata.error, disk.staple with
    | some error, _ => next (.error s!"failed to stat OCSP cache file `{cache.path}`: {error}")
    | none, none => next (.ok false)
    | none, some content =>
      if content.length = 0 then next (.ok false)
      else replace_cache_file cache .cleared [] decided_on seen "failed to clear OCSP cache file"
        "failed to replace cleared OCSP cache file" next

def clear_invalid_ocsp_cache_file (next : Except String Bool → Refresher) : Refresher :=
  .run .metadata fun metadata disk =>
    match metadata.error, disk.staple with
    | some error, _ => next (.error s!"failed to stat OCSP cache file `{cache.path}`: {error}")
    | none, none => next (.ok false)
    | none, some content =>
      if content.length = 0 then next (.ok false)
      else if MAX_OCSP_RESPONSE_BYTES < content.length then
        clear_ocsp_cache_file cache content disk.surroundings next
      else .run .read fun read disk =>
        match read.error, disk.staple with
        | some error, _ => next (.error s!"failed to read OCSP cache file `{cache.path}`: {error}")
        | none, none => next (.ok false)
        | none, some body =>
          if body = [] then next (.ok false)
          else .run .validate fun loaded disk =>
            match validate crates cert_path responder_policy (disk.seen loaded) body none .Disabled with
            | .ok () => next (.ok false)
            | .error _ => clear_ocsp_cache_file cache body (disk.seen loaded) next

def handle_ocsp_refresh_failure (error : String) (next : String × Bool → Refresher) : Refresher :=
  clear_invalid_ocsp_cache_file crates cert_path cache responder_policy fun
    | .ok true => next (s!"{error}; cleared stale OCSP cache", true)
    | .ok false => next (error, false)
    | .error clear_error =>
      next (s!"{error}; additionally failed to clear stale OCSP cache: {clear_error}", true)

/-! ## The refresh -/

/-- What is left of an answer when its body was read. -/
def fetch_ocsp_response_from_url (answer : Except String Bytes) : Except String Bytes := do
  let payload ← answer
  refuse_if (MAX_OCSP_RESPONSE_BYTES < payload.length)
    s!"OCSP response exceeded {MAX_OCSP_RESPONSE_BYTES} bytes"
  refuse_if (payload = []) "responder returned an empty OCSP response body"
  return payload

/-- The responders in order, after those that gave `errors`. -/
def fetch_ocsp_response (answers : String → Except String Bytes) (errors : List String) :
    List String → Except String Bytes
  | [] =>
    .error (if errors = [] then "no OCSP responder URLs were available" else "; ".intercalate errors)
  | responder_url :: rest =>
    match fetch_ocsp_response_from_url (answers responder_url) with
    | .ok response_body => .ok response_body
    | .error error => fetch_ocsp_response answers (errors ++ [s!"{responder_url}: {error}"]) rest

structure RefreshSpec where
  auto_refresh_enabled : Bool
  responder_urls : List String
  ocsp_nonce_mode : OcspNonceMode

/-- The part of `refresh_ocsp_staples` for one staple; `next` goes on with the answer whether the
acceptors have changed. -/
def refresh_ocsp_staple (spec : RefreshSpec) (next : Bool → Refresher) : Refresher :=
  if spec.auto_refresh_enabled = false then next false
  else
    let fails (error : String) : Refresher :=
      handle_ocsp_refresh_failure crates cert_path cache responder_policy error
        fun (message, cache_cleared) =>
          .run (.record_refresh_failure message) fun _ _ => next cache_cleared
    .run .build_request fun built _ =>
      match built.error with
      | some error => fails error
      | none =>
        let request_nonce := if spec.ocsp_nonce_mode = .Disabled then none else some built.nonce
        .run .fetch_response fun fetched _ =>
          match fetch_ocsp_response fetched.answers [] spec.responder_urls with
          | .error error => fails error
          | .ok response_body =>
            .run .validate fun loaded disk =>
              match validate crates cert_path responder_policy (disk.seen loaded) response_body
                request_nonce spec.ocsp_nonce_mode with
              | .error error => fails error
              | .ok () =>
                write_ocsp_cache_file cache response_body (disk.seen loaded) fun
                  | .ok changed => .run .record_refresh_success fun _ _ => next changed
                  | .error error => fails error

/-- The certificate file is replaced or the clock moves on. -/
def surroundings_change (surroundings : Surroundings) : Refresher :=
  .run (.change_surroundings surroundings) fun _ _ => .done

/-! ## What a run is asked -/

def Validates (seen : Surroundings) (body : Bytes) : Prop :=
  validate crates cert_path responder_policy seen body none .Disabled = .ok ()

/-- The staple validates for the certificate file and the clock as they are. -/
def Disk.Valid (disk : Disk) : Prop :=
  ∃ body, disk.staple = some body ∧ Validates crates cert_path responder_policy disk.surroundings body

/-- A refresher renames what it validated, and clears what is too large or did not validate. -/
def FileStep.Decided : FileStep → Prop
  | .rename (.response _) body seen => body ≠ [] ∧ body.length ≤ MAX_OCSP_RESPONSE_BYTES ∧
      Validates crates cert_path responder_policy seen body
  | .rename (.cleared _) content seen => MAX_OCSP_RESPONSE_BYTES < content.length ∨
      ¬Validates crates cert_path responder_policy seen content
  | _ => True

/-- Nothing came between a decision and its rename. A response that is put is the one that this
task wrote, and it has not become invalid since it was validated; where the staple is cleared it
is what this task judged, or there is nothing in it, and what was judged has not become valid. -/
def Undisturbed (world : World Empty FileStep Outcome Disk) (_task : Nat) (step : FileStep)
    (outcome : Outcome) : Prop :=
  match step with
  | .rename (.response unique) body seen =>
    world.state.rename_error (.response unique) outcome = none →
    world.state.temps (.response unique) = some body ∧
      (Validates crates cert_path responder_policy seen body →
        Validates crates cert_path responder_policy world.state.surroundings body)
  | .rename (.cleared unique) content seen =>
    world.state.rename_error (.cleared unique) outcome = none →
    (world.state.staple = some content ∨ world.state.staple.getD [] = []) ∧
      (content.length ≤ MAX_OCSP_RESPONSE_BYTES →
        Validates crates cert_path responder_policy world.state.surroundings content →
        Validates crates cert_path responder_policy seen content)
  | _ => True

/-- The certificate file and the clock do not change in a way that invalidates the staple. -/
def SparesStaple (world : World Empty FileStep Outcome Disk) (_task : Nat) (step : FileStep)
    (_outcome : Outcome) : Prop :=
  match step with
  | .change_surroundings surroundings => world.state.Valid crates cert_path responder_policy →
      Disk.Valid crates cert_path responder_policy { world.state with surroundings }
  | _ => True

/-- The programs of a run: refreshers of the staple, and changes of what they read. -/
def Begins (program : Refresher) : Prop :=
  (∃ spec, program = refresh_ocsp_staple crates cert_path cache responder_policy spec fun _ => .done) ∨
    ∃ surroundings, program = surroundings_change surroundings

end Refresh

/-- The turn is the rename by which a refresher puts its response. -/
def Puts (world : World Empty FileStep Outcome Disk) (task : Nat) (outcome : Outcome) : Prop :=
  ∃ unique body seen next,
    world.programs task = .run (.rename (.response unique) body seen) next ∧
    world.state.rename_error (.response unique) outcome = none

/-! ## What a refresher decides -/

theorem fetched_bounds {answers : String → Except String Bytes} {errors urls : List String}
    {body : Bytes} (h : fetch_ocsp_response answers errors urls = .ok body) :
    body ≠ [] ∧ body.length ≤ MAX_OCSP_RESPONSE_BYTES := by
  induction urls generalizing errors with
  | nil => simp [fetch_ocsp_response] at h
  | cons url rest ih =>
    rw [fetch_ocsp_response] at h
    split at h
    · rename_i fetched hfetched
      obtain rfl := Except.ok.inj h
      simp only [fetch_ocsp_response_from_url, bind_eq_ok, refuse_if_eq_ok, exists_unit, pure_eq_ok,
        Except.ok.injEq, not_lt] at hfetched
      obtain ⟨payload, -, hsize, hnonempty, rfl⟩ := hfetched
      exact ⟨hnonempty, hsize⟩
    · exact ih h

section Run

variable {Name Algorithm EndEntityCert : Type} [DecidableEq Name]
  {crates : Crates Name Algorithm EndEntityCert} {cert_path : String} {cache : CachePath}
  {responder_policy : OcspResponderPolicy}

theorem replace_cache_file_only {parts : FileStep → Prop} {temp : Nat → TempFile}
    {content decided_on : Bytes} {seen : Surroundings} {write_text replace_text : String}
    {next : Except String Bool → Refresher} (hcreate : parts .create_dir_all)
    (hwrite : ∀ unique, parts (.write (temp unique) content))
    (hrename : ∀ unique, parts (.rename (temp unique) decided_on seen))
    (hnext : ∀ result, (next result).Only parts) :
    (replace_cache_file cache temp content decided_on seen write_text replace_text next).Only parts := by
  unfold replace_cache_file
  refine ⟨hcreate, fun created _ => ?_⟩
  dsimp only
  split
  · exact hnext _
  · refine ⟨hwrite created.unique, fun written _ => ?_⟩
    dsimp only
    split
    · exact hnext _
    · refine ⟨hrename created.unique, fun renamed disk => ?_⟩
      dsimp only
      split <;> exact hnext _

theorem write_ocsp_cache_file_only {body : Bytes} {seen : Surroundings}
    {next : Except String Bool → Refresher} (hnonempty : body ≠ [])
    (hsize : body.length ≤ MAX_OCSP_RESPONSE_BYTES)
    (hvalid : Validates crates cert_path responder_policy seen body)
    (hnext : ∀ result, (next result).Only (FileStep.Decided crates cert_path responder_policy)) :
    (write_ocsp_cache_file cache body seen next).Only
      (FileStep.Decided crates cert_path responder_policy) := by
  unfold write_ocsp_cache_file
  refine ⟨trivial, fun read disk => ?_⟩
  dsimp only
  split
  · exact hnext _
  · exact replace_cache_file_only trivial (fun _ => trivial) (fun _ => ⟨hnonempty, hsize, hvalid⟩) hnext

theorem clear_ocsp_cache_file_only {content : Bytes} {seen : Surroundings}
    {next : Except String Bool → Refresher}
    (hjudged : MAX_OCSP_RESPONSE_BYTES < content.length ∨
      ¬Validates crates cert_path responder_policy seen content)
    (hnext : ∀ result, (next result).Only (FileStep.Decided crates cert_path responder_policy)) :
    (clear_ocsp_cache_file cache content seen next).Only
      (FileStep.Decided crates cert_path responder_policy) := by
  unfold clear_ocsp_cache_file
  refine ⟨trivial, fun metadata disk => ?_⟩
  dsimp only
  split
  · exact hnext _
  · exact hnext _
  · split
    · exact hnext _
    · exact replace_cache_file_only trivial (fun _ => trivial) (fun _ => hjudged) hnext

theorem clear_invalid_ocsp_cache_file_only {next : Except String Bool → Refresher}
    (hnext : ∀ result, (next result).Only (FileStep.Decided crates cert_path responder_policy)) :
    (clear_invalid_ocsp_cache_file crates cert_path cache responder_policy next).Only
      (FileStep.Decided crates cert_path responder_policy) := by
  unfold clear_invalid_ocsp_cache_file
  refine ⟨trivial, fun metadata disk => ?_⟩
  dsimp only
  split
  · exact hnext _
  · exact hnext _
  · split
    · exact hnext _
    · split
      · rename_i hsize
        exact clear_ocsp_cache_file_only (.inl hsize) hnext
      · refine ⟨trivial, fun read disk => ?_⟩
        dsimp only
        split
        · exact hnext _
        · exact hnext _
        · split
          · exact hnext _
          · refine ⟨trivial, fun loaded disk => ?_⟩
            dsimp only
            split
            · exact hnext _
            · rename_i error hinvalid
              refine clear_ocsp_cache_file_only (.inr fun hvalid => ?_) hnext
              rw [Validates, hinvalid] at hvalid
              cases hvalid

/-- Every rename of a refresher follows its decision. -/
theorem refresh_ocsp_staple_only {spec : RefreshSpec} {next : Bool → Refresher}
    (hnext : ∀ changed, (next changed).Only (FileStep.Decided crates cert_path responder_policy)) :
    (refresh_ocsp_staple crates cert_path cache responder_policy spec next).Only
      (FileStep.Decided crates cert_path responder_policy) := by
  have hfails : ∀ error, (handle_ocsp_refresh_failure crates cert_path cache responder_policy error
      fun (message, cache_cleared) =>
        .run (.record_refresh_failure message) fun _ _ => next cache_cleared).Only
      (FileStep.Decided crates cert_path responder_policy) := by
    intro error
    unfold handle_ocsp_refresh_failure
    apply clear_invalid_ocsp_cache_file_only
    intro result
    split <;> exact ⟨trivial, fun _ _ => hnext _⟩
  unfold refresh_ocsp_staple
  split
  · exact hnext false
  · refine ⟨trivial, fun built _ => ?_⟩
    dsimp only
    split
    · exact hfails _
    · refine ⟨trivial, fun fetched _ => ?_⟩
      dsimp only
      split
      · exact hfails _
      · rename_i response_body hfetched
        obtain ⟨hnonempty, hsize⟩ := fetched_bounds hfetched
        refine ⟨trivial, fun loaded disk => ?_⟩
        dsimp only
        split
        · exact hfails _
        · rename_i hvalid
          apply write_ocsp_cache_file_only hnonempty hsize (validate_without_nonce hvalid)
          intro result
          split
          · exact ⟨trivial, fun _ _ => hnext _⟩
          · exact hfails _

theorem Begins.only {program : Refresher}
    (h : Begins crates cert_path cache responder_policy program) :
    program.Only (FileStep.Decided crates cert_path responder_policy) := by
  obtain ⟨spec, rfl⟩ | ⟨surroundings, rfl⟩ := h
  · exact refresh_ocsp_staple_only fun _ => trivial
  · exact ⟨trivial, fun _ _ => trivial⟩

/-! ## The staple over a run -/

variable (crates cert_path responder_policy) in
/-- The staple is a response that a refresher would put here. -/
def Disk.Fresh (disk : Disk) : Prop :=
  ∃ body, disk.staple = some body ∧ body ≠ [] ∧ body.length ≤ MAX_OCSP_RESPONSE_BYTES ∧
    Validates crates cert_path responder_policy disk.surroundings body

theorem Disk.Fresh.valid {disk : Disk} (h : disk.Fresh crates cert_path responder_policy) :
    disk.Valid crates cert_path responder_policy := by
  obtain ⟨body, hstaple, -, -, hvalid⟩ := h
  exact ⟨body, hstaple, hvalid⟩

/-- A response that is put undisturbed is fresh. -/
theorem fresh_of_put {world : World Empty FileStep Outcome Disk} {task unique : Nat} {body : Bytes}
    {seen : Surroundings} {outcome : Outcome}
    (hdecided : FileStep.Decided crates cert_path responder_policy (.rename (.response unique) body seen))
    (hundisturbed : Undisturbed crates cert_path responder_policy world task
      (.rename (.response unique) body seen) outcome)
    (hrenames : world.state.rename_error (.response unique) outcome = none) :
    ((FileStep.rename (.response unique) body seen).effect outcome world.state).Fresh crates cert_path
      responder_policy := by
  obtain ⟨hnonempty, hsize, hvalid⟩ := hdecided
  obtain ⟨hwritten, hstill⟩ := hundisturbed hrenames
  refine ⟨body, ?_, hnonempty, hsize, ?_⟩
  · simp [FileStep.effect, hrenames, hwritten]
  · simpa [FileStep.effect, hrenames] using hstill hvalid

/-- No step takes a fresh staple away, when its decision still stands and the surroundings spare
the staple. -/
theorem fresh_of_step {world : World Empty FileStep Outcome Disk} {task : Nat} {step : FileStep}
    {outcome : Outcome} (hdecided : step.Decided crates cert_path responder_policy)
    (hundisturbed : Undisturbed crates cert_path responder_policy world task step outcome)
    (hspares : SparesStaple crates cert_path responder_policy world task step outcome)
    (hfresh : world.state.Fresh crates cert_path responder_policy) :
    (step.effect outcome world.state).Fresh crates cert_path responder_policy := by
  obtain ⟨body, hstaple, hnonempty, hsize, hvalid⟩ := id hfresh
  cases step with
  | change_surroundings surroundings =>
    obtain ⟨body', hstaple', hvalid'⟩ := hspares hfresh.valid
    obtain rfl : body' = body := Option.some.inj (hstaple'.symm.trans hstaple)
    exact ⟨body', hstaple, hnonempty, hsize, hvalid'⟩
  | rename temp decided_on seen =>
    by_cases hrenames : world.state.rename_error temp outcome = none
    · cases temp with
      | response unique => exact fresh_of_put hdecided hundisturbed hrenames
      | cleared unique =>
        obtain ⟨hheld, hstill⟩ := hundisturbed hrenames
        exfalso
        rcases hheld with hsame | hempty
        · obtain rfl : body = decided_on := Option.some.inj (hstaple.symm.trans hsame)
          rcases hdecided with hlarge | hinvalid
          · omega
          · exact hinvalid (hstill hsize hvalid)
        · rw [hstaple] at hempty
          exact hnonempty hempty
    · simpa [FileStep.effect, hrenames] using hfresh
  | _ => exact hfresh

/-- In a run in which nothing comes between a decision and its rename, a response that a refresher
has put is followed by staples that validate, as long as the certificate file and the clock spare
the one that is there. -/
theorem fresh_staple_stays {disk : Disk} {task : Nat} {outcome : Outcome}
    {before later : List (Turn Empty FileStep Outcome Disk)}
    (hbegins : ∀ task' program, .spawn task' program ∈ before ++ .step task outcome :: later →
      Begins crates cert_path cache responder_policy program)
    (hundisturbed : (World.start disk).AllowsAll FileStep.effect
      (Undisturbed crates cert_path responder_policy) (before ++ .step task outcome :: later))
    (hputs : Puts ((World.start disk).run FileStep.effect before) task outcome)
    (hspares : ((World.start disk).run FileStep.effect (before ++ [.step task outcome])).AllowsAll
      FileStep.effect (SparesStaple crates cert_path responder_policy) later) :
    ((World.start disk).run FileStep.effect (before ++ .step task outcome :: later)).state.Valid
      crates cert_path responder_policy := by
  have honly : ∀ turns, turns ⊆ before ++ .step task outcome :: later → ∀ task' program,
      Turn.spawn task' program ∈ turns →
      program.Only (FileStep.Decided crates cert_path responder_policy) :=
    fun turns hturns task' program hmem => (hbegins task' program (hturns hmem)).only
  obtain ⟨hbefore, hput, hlater⟩ := World.allowsAll_append.mp hundisturbed
  have hreached : ((World.start disk).run FileStep.effect before).Within
      (FileStep.Decided crates cert_path responder_policy) fun _ => True :=
    (World.start_within trivial).run (fun _ _ _ _ _ _ _ => trivial) hbefore
      (honly before (List.subset_append_left _ _))
  obtain ⟨unique, body, seen, next, hprogram, hrenames⟩ := hputs
  have htask := hreached.tasks task
  rw [hprogram] at htask
  have hstate : (((World.start disk).run FileStep.effect before).turn FileStep.effect
      (.step task outcome)).Within (FileStep.Decided crates cert_path responder_policy)
      (Disk.Fresh crates cert_path responder_policy) := by
    refine ⟨?_, (hreached.turn (fun _ _ _ _ _ => trivial) (by simp)).tasks⟩
    unfold World.Allows at hput
    simp only [hprogram] at hput
    simp only [World.turn, hprogram]
    exact fresh_of_put htask.1 hput hrenames
  have hrun : (World.start disk).run FileStep.effect (before ++ .step task outcome :: later) =
      (((World.start disk).run FileStep.effect before).turn FileStep.effect
        (.step task outcome)).run FileStep.effect later := by
    simp [World.run, List.foldl_append]
  have hsame : (World.start disk).run FileStep.effect (before ++ [.step task outcome]) =
      ((World.start disk).run FileStep.effect before).turn FileStep.effect (.step task outcome) := by
    simp [World.run, List.foldl_append]
  rw [hrun]
  rw [hsame] at hspares
  have hkept := hstate.run (fun world task part outcome hpart hallowed hfresh =>
    fresh_of_step hpart hallowed.1 hallowed.2 hfresh) (hlater.and hspares)
    (honly later (fun turn hturn => by simp [hturn]))
  exact hkept.invariant.valid

end Run

/-! Task 1 puts the response of the delegated responder. Task 0 gets no answer. -/

section Delegation

open delegation

def stale_disk : Disk := ⟨some [4], fun _ => none, ⟨.ok [[2], [1]], 5000000000⟩⟩

def refresher : Refresher :=
  refresh_ocsp_staple crates "/etc/rginx/site.pem"
    ⟨"/var/cache/site.ocsp", "/var/cache", "/var/cache/site"⟩ .IssuerOrDelegated
    ⟨true, ["http://ocsp.example"], .Disabled⟩ fun _ => .done

/-- The turns of task 1 up to its rename. -/
def fetched : List (Turn Empty FileStep Outcome Disk) :=
  [.spawn 1 refresher, .step 1 {}, .step 1 { answers := fun _ => .ok [5] }, .step 1 {}, .step 1 {},
    .step 1 { unique := 1 }, .step 1 {}]

/-- The turns of task 0 up to where it has found the staple invalid. -/
def judged : List (Turn Empty FileStep Outcome Disk) :=
  [.spawn 0 refresher, .step 0 {}, .step 0 {}, .step 0 {}, .step 0 {}, .step 0 {}, .step 0 {}]

theorem refresher_begins (task : Nat) (program : Refresher)
    {turns : List (Turn Empty FileStep Outcome Disk)}
    (hturns : ∀ turn ∈ turns, turn = .spawn 0 refresher ∨ turn = .spawn 1 refresher ∨
      ∃ task outcome, turn = .step task outcome) (hmem : .spawn task program ∈ turns) :
    Begins crates "/etc/rginx/site.pem" ⟨"/var/cache/site.ocsp", "/var/cache", "/var/cache/site"⟩
      .IssuerOrDelegated program := by
  obtain h | h | ⟨_, _, h⟩ := hturns _ hmem
  · exact .inl ⟨_, (Turn.spawn.inj h).2⟩
  · exact .inl ⟨_, (Turn.spawn.inj h).2⟩
  · cases h

/-- Task 0 judges the staple after the response was put, and finds it valid. -/
theorem fresh_staple_stays_judged :
    ((World.start stale_disk).run FileStep.effect (fetched ++ .step 1 {} :: judged)).state.Valid
      crates "/etc/rginx/site.pem" .IssuerOrDelegated := by
  apply fresh_staple_stays (fun task program => refresher_begins task program (by simp [judged, fetched]))
  · exact ⟨trivial, trivial, trivial, trivial, trivial, trivial, trivial, fun _ => ⟨rfl, id⟩,
      trivial, trivial, trivial, trivial, trivial, trivial, trivial, trivial⟩
  · exact ⟨1, [5], _, _, rfl, rfl⟩
  · exact ⟨trivial, trivial, trivial, trivial, trivial, trivial, trivial, trivial⟩

/-- Task 0 judges the staple before the response is put, and clears it after. -/
theorem fresh_staple_cleared :
    (∀ task program, .spawn task program ∈ judged ++ fetched ++
        .step 1 {} :: [.step 0 { unique := 2 }, .step 0 {}, .step 0 {}] →
      Begins crates "/etc/rginx/site.pem" ⟨"/var/cache/site.ocsp", "/var/cache", "/var/cache/site"⟩
        .IssuerOrDelegated program) ∧
    Puts ((World.start stale_disk).run FileStep.effect (judged ++ fetched)) 1 {} ∧
    ((World.start stale_disk).run FileStep.effect (judged ++ fetched ++ [.step 1 {}])).state.Valid
      crates "/etc/rginx/site.pem" .IssuerOrDelegated ∧
    ((World.start stale_disk).run FileStep.effect (judged ++ fetched ++ [.step 1 {}])).AllowsAll
      FileStep.effect (SparesStaple crates "/etc/rginx/site.pem" .IssuerOrDelegated)
      [.step 0 { unique := 2 }, .step 0 {}, .step 0 {}] ∧
    ¬((World.start stale_disk).run FileStep.effect (judged ++ fetched ++
        .step 1 {} :: [.step 0 { unique := 2 }, .step 0 {}, .step 0 {}])).state.Valid
      crates "/etc/rginx/site.pem" .IssuerOrDelegated := by
  refine ⟨fun task program => refresher_begins task program (by simp [judged, fetched]),
    ⟨1, [5], _, _, rfl, rfl⟩, ⟨[5], rfl, rfl⟩, ⟨trivial, trivial, trivial, trivial⟩, ?_⟩
  rintro ⟨body, hstaple, hvalid⟩
  obtain rfl : [] = body := Option.some.inj hstaple
  cases hvalid

end Delegation

end rginx.ocsp
