-- The responders of an OCSP staple, in the order in which a refresh asks them (`ocsp/refresh.rs`
-- and `ocsp/scheduler.rs`): which of them ends the search, and what becomes of the staple. One
-- refresh runs alone here, and its files do not fail.
import Rginx.OcspRefreshers

open rust_result atomic_sections rginx.config rginx.http.ocsp

namespace rginx.ocsp

/-! ## A refresh that runs alone -/

/-- The steps that the program takes, and the disk that it leaves. -/
def alone (outcomes : FileStep → Outcome) : Refresher → Disk → List FileStep × Disk
  | .done, disk => ([], disk)
  | .acquire lock _, _ => nomatch lock
  | .release lock _, _ => nomatch lock
  | .run part next, disk =>
    let rest := alone outcomes (next (outcomes part) disk) (part.effect (outcomes part) disk)
    (part :: rest.1, rest.2)

/-- The program leads to another one, which decides what becomes of the disk and whether the
refresh succeeds. -/
structure LeadsTo (outcomes : FileStep → Outcome) (program : Refresher) (disk : Disk)
    (program' : Refresher) (disk' : Disk) : Prop where
  left : (alone outcomes program disk).2 = (alone outcomes program' disk').2
  success : .record_refresh_success ∈ (alone outcomes program disk).1 ↔
    .record_refresh_success ∈ (alone outcomes program' disk').1

section LeadsTo

variable {outcomes : FileStep → Outcome} {program program' program'' : Refresher}
  {disk disk' disk'' : Disk}

theorem LeadsTo.refl : LeadsTo outcomes program disk program disk := ⟨rfl, .rfl⟩

theorem LeadsTo.trans (h : LeadsTo outcomes program disk program' disk')
    (h' : LeadsTo outcomes program' disk' program'' disk'') :
    LeadsTo outcomes program disk program'' disk'' :=
  ⟨h.left.trans h'.left, h.success.trans h'.success⟩

/-- One step that is not the success. -/
theorem LeadsTo.step {part : FileStep} {next : Outcome → Disk → Refresher}
    (hpart : part ≠ .record_refresh_success)
    (h : LeadsTo outcomes (next (outcomes part) disk) (part.effect (outcomes part) disk) program' disk') :
    LeadsTo outcomes (.run part next) disk program' disk' := by
  refine ⟨h.left, Iff.trans ?_ h.success⟩
  have hsteps : (alone outcomes (.run part next) disk).1 = part :: (alone outcomes
      (next (outcomes part) disk) (part.effect (outcomes part) disk)).1 := rfl
  rw [hsteps, List.mem_cons]
  exact or_iff_right (Ne.symm hpart)

/-- One step that only looks at the disk. -/
theorem LeadsTo.look {part : FileStep} {next : Outcome → Disk → Refresher}
    (hpart : part ≠ .record_refresh_success)
    (heffect : part.effect (outcomes part) disk = disk)
    (h : LeadsTo outcomes (next (outcomes part) disk) disk program' disk') :
    LeadsTo outcomes (.run part next) disk program' disk' := by
  apply LeadsTo.step hpart
  rw [heffect]
  exact h

end LeadsTo

/-! ## What is promised -/

/-- The answer brings a body that is read to its end. -/
def Delivers (answer : Except String Bytes) (body : Bytes) : Prop :=
  answer = .ok body ∧ body ≠ [] ∧ body.length ≤ MAX_OCSP_RESPONSE_BYTES

section Promise

variable {Name Algorithm EndEntityCert : Type} [DecidableEq Name]
  (crates : Crates Name Algorithm EndEntityCert) (cert_path : String) (cache : CachePath)
  (responder_policy : OcspResponderPolicy)

/-- The files do not fail, and a request is built for every certificate that allows for one. -/
structure Quiet (outcomes : FileStep → Outcome) (disk : Disk) : Prop where
  files : ∀ part, part ≠ .build_request → (outcomes part).error = none
  request : (outcomes .build_request).error = none ↔ ∃ certs cert_id,
    disk.surroundings.certs = .ok certs ∧
      build_rasn_ocsp_cert_id_from_chain crates cert_path certs = .ok cert_id

variable (spec : RefreshSpec) (outcomes : FileStep → Outcome) (disk : Disk)

def request_nonce : Option Bytes :=
  if spec.ocsp_nonce_mode = .Disabled then none else some (outcomes .build_request).nonce

/-- The body answers the request with a response that validates. -/
def Answers (body : Bytes) : Prop :=
  validate crates cert_path responder_policy disk.surroundings body (request_nonce spec outcomes)
    spec.ocsp_nonce_mode = .ok ()

def Good (url : String) : Prop :=
  ∃ body, Delivers ((outcomes .fetch_response).answers url) body ∧
    Answers crates cert_path responder_policy spec outcomes disk body

/-- A refresh succeeds if any responder is good, and puts the response of a good one. Otherwise
the staple is kept if it still validates, and there is nothing in it if it does not. -/
structure Refreshed (steps : List FileStep) (final : Disk) : Prop where
  succeeds : .record_refresh_success ∈ steps ↔
    ∃ url ∈ spec.responder_urls, Good crates cert_path responder_policy spec outcomes disk url
  written : .record_refresh_success ∈ steps → ∃ url ∈ spec.responder_urls, ∃ body,
    Delivers ((outcomes .fetch_response).answers url) body ∧
      Answers crates cert_path responder_policy spec outcomes disk body ∧ final.staple = some body ∧
      final.Valid crates cert_path responder_policy
  kept : .record_refresh_success ∉ steps → disk.Fresh crates cert_path responder_policy →
    final.staple = disk.staple
  emptied : .record_refresh_success ∉ steps → ¬ disk.Fresh crates cert_path responder_policy →
    final.staple.getD [] = []

/-- No body that does not validate stands in the way of a good responder. -/
def InvalidLast : Prop :=
  ∀ before url after body, spec.responder_urls = before ++ url :: after →
    Delivers ((outcomes .fetch_response).answers url) body →
    ¬ Answers crates cert_path responder_policy spec outcomes disk body →
    (∃ earlier ∈ before, Good crates cert_path responder_policy spec outcomes disk earlier) ∨
      ∀ later ∈ after, ¬ Good crates cert_path responder_policy spec outcomes disk later

end Promise

/-! ## The search -/

theorem fetch_from_url_eq_ok {answer : Except String Bytes} {body : Bytes} :
    fetch_ocsp_response_from_url answer = .ok body ↔ Delivers answer body := by
  simp only [fetch_ocsp_response_from_url, bind_eq_ok, refuse_if_eq_ok, exists_unit, pure_eq_ok,
    Except.ok.injEq, not_lt, Delivers]
  constructor
  · rintro ⟨payload, hanswer, hsize, hnonempty, rfl⟩
    exact ⟨hanswer, hnonempty, hsize⟩
  · rintro ⟨hanswer, hnonempty, hsize⟩
    exact ⟨body, hanswer, hsize, hnonempty, rfl⟩

/-- The first responder that delivers a body ends the search. -/
theorem fetch_eq_ok_iff {answers : String → Except String Bytes} {errors urls : List String}
    {body : Bytes} :
    fetch_ocsp_response answers errors urls = .ok body ↔
      ∃ before url after, urls = before ++ url :: after ∧
        (∀ earlier ∈ before, ∀ other, ¬ Delivers (answers earlier) other) ∧
        Delivers (answers url) body := by
  induction urls generalizing errors with
  | nil => simp [fetch_ocsp_response]
  | cons url rest ih =>
    rw [fetch_ocsp_response]
    split
    · rename_i found hfound
      rw [fetch_from_url_eq_ok] at hfound
      rw [Except.ok.injEq]
      constructor
      · rintro rfl
        exact ⟨[], url, rest, rfl, by simp, hfound⟩
      · rintro ⟨before, url', after, hurls, hnone, hdelivers⟩
        cases before with
        | nil =>
          obtain ⟨rfl, -⟩ := List.cons.inj hurls
          exact Except.ok.inj (hfound.1.symm.trans hdelivers.1)
        | cons first before =>
          obtain ⟨rfl, -⟩ := List.cons.inj hurls
          exact absurd hfound (hnone url List.mem_cons_self found)
    · rename_i error hfailed
      have hnot : ∀ other, ¬ Delivers (answers url) other := by
        intro other hdelivers
        rw [fetch_from_url_eq_ok.mpr hdelivers] at hfailed
        cases hfailed
      rw [ih]
      constructor
      · rintro ⟨before, url', after, rfl, hnone, hdelivers⟩
        refine ⟨url :: before, url', after, rfl, fun earlier hearlier => ?_, hdelivers⟩
        rcases List.mem_cons.mp hearlier with rfl | hearlier
        · exact hnot
        · exact hnone earlier hearlier
      · rintro ⟨before, url', after, hurls, hnone, hdelivers⟩
        cases before with
        | nil =>
          obtain ⟨rfl, -⟩ := List.cons.inj hurls
          exact absurd hdelivers (hnot body)
        | cons first before =>
          obtain ⟨rfl, rfl⟩ := List.cons.inj hurls
          exact ⟨before, url', after, rfl,
            fun earlier hearlier => hnone earlier (List.mem_cons_of_mem _ hearlier), hdelivers⟩

theorem exists_fetched {answers : String → Except String Bytes} {urls : List String} {url : String}
    {body : Bytes} (hurl : url ∈ urls) (hdelivers : Delivers (answers url) body)
    (errors : List String) : ∃ found, fetch_ocsp_response answers errors urls = .ok found := by
  induction urls generalizing errors with
  | nil => cases hurl
  | cons first rest ih =>
    rw [fetch_ocsp_response]
    split
    · rename_i found _
      exact ⟨found, rfl⟩
    · rename_i error hfailed
      rcases List.mem_cons.mp hurl with rfl | hrest
      · rw [fetch_from_url_eq_ok.mpr hdelivers] at hfailed
        cases hfailed
      · exact ih hrest _

theorem Delivers.unique {answer : Except String Bytes} {body body' : Bytes}
    (h : Delivers answer body) (h' : Delivers answer body') : body = body' :=
  Except.ok.inj (h.1.symm.trans h'.1)

/-- Of two places in a list one comes first. -/
theorem places {before before' after after' : List String} {url url' : String}
    (h : before ++ url :: after = before' ++ url' :: after') :
    url = url' ∨ url ∈ before' ∨ url' ∈ before := by
  rcases List.append_eq_append_iff.mp h with ⟨between, rfl, hrest⟩ | ⟨between, rfl, hrest⟩
  · cases between with
    | nil => exact .inl (List.cons.inj hrest).1
    | cons first between =>
      rw [(List.cons.inj hrest).1]
      simp
  · cases between with
    | nil => exact .inl (List.cons.inj hrest).1.symm
    | cons first between =>
      rw [(List.cons.inj hrest).1]
      simp

/-! ## The file of the staple -/

section Files

variable {Name Algorithm EndEntityCert : Type} [DecidableEq Name]
  {crates : Crates Name Algorithm EndEntityCert} {cert_path : String} {cache : CachePath}
  {responder_policy : OcspResponderPolicy} {outcomes : FileStep → Outcome}

/-- What the disk holds after the staple was replaced. -/
structure Replaced (disk : Disk) (content : Bytes) (disk' : Disk) : Prop where
  staple : disk'.staple = some content
  surroundings : disk'.surroundings = disk.surroundings

theorem replace_cache_file_leads
    (hfiles : ∀ part, part ≠ .build_request → (outcomes part).error = none)
    (temp : Nat → TempFile) (content decided_on : Bytes) (seen : Surroundings)
    (write_text replace_text : String) (next : Except String Bool → Refresher) (disk : Disk) :
    ∃ disk', LeadsTo outcomes
        (replace_cache_file cache temp content decided_on seen write_text replace_text next) disk
        (next (.ok true)) disk' ∧ Replaced disk content disk' := by
  obtain ⟨unique, hunique⟩ : ∃ unique, (outcomes .create_dir_all).unique = unique := ⟨_, rfl⟩
  have hcreate : (outcomes .create_dir_all).error = none := hfiles .create_dir_all (by simp)
  have hwrite : (outcomes (.write (temp unique) content)).error = none :=
    hfiles (.write (temp unique) content) (by simp)
  have hrename : (outcomes (.rename (temp unique) decided_on seen)).error = none :=
    hfiles (.rename (temp unique) decided_on seen) (by simp)
  let written : Disk := { disk with temps := Function.update disk.temps (temp unique) (some content) }
  have hwritten : (FileStep.write (temp unique) content).effect
      (outcomes (.write (temp unique) content)) disk = written := by
    simp only [FileStep.effect, hwrite, if_true, written]
  have hrenames : written.rename_error (temp unique)
      (outcomes (.rename (temp unique) decided_on seen)) = none := by
    simp [Disk.rename_error, written, hrename]
  refine ⟨(FileStep.rename (temp unique) decided_on seen).effect
    (outcomes (.rename (temp unique) decided_on seen)) written, ?_, ?_, ?_⟩
  · unfold replace_cache_file
    refine LeadsTo.look (by simp) rfl ?_
    rw [hcreate, hunique]
    refine LeadsTo.step (by simp) ?_
    rw [hwrite, hwritten]
    refine LeadsTo.step (by simp) ?_
    rw [hrenames]
    exact .refl
  · simp [FileStep.effect, hrenames, written]
  · simp [FileStep.effect, hrenames, written]

variable (cache) in
/-- A response is put, or it is there already. -/
theorem write_ocsp_cache_file_leads
    (hfiles : ∀ part, part ≠ .build_request → (outcomes part).error = none) (body : Bytes)
    (seen : Surroundings) (next : Except String Bool → Refresher) (disk : Disk) :
    ∃ changed disk', LeadsTo outcomes (write_ocsp_cache_file cache body seen next) disk
        (next (.ok changed)) disk' ∧ Replaced disk body disk' := by
  unfold write_ocsp_cache_file
  by_cases hsame : disk.staple = some body
  · refine ⟨false, disk, LeadsTo.look (by nofun) rfl ?_, hsame, rfl⟩
    rw [if_pos ⟨hfiles .read nofun, hsame⟩]
    exact .refl
  · obtain ⟨disk', hleads, hreplaced⟩ := replace_cache_file_leads hfiles .response body body seen
      "failed to write OCSP cache file" "failed to replace OCSP cache file" next disk
    refine ⟨true, disk', LeadsTo.look (by nofun) rfl ?_, hreplaced⟩
    rw [if_neg fun h => hsame h.2]
    exact hleads

theorem clear_ocsp_cache_file_leads
    (hfiles : ∀ part, part ≠ .build_request → (outcomes part).error = none)
    {disk : Disk} {content : Bytes} (hstaple : disk.staple = some content)
    (hcontent : content.length ≠ 0) (decided_on : Bytes) (seen : Surroundings)
    (next : Except String Bool → Refresher) :
    ∃ disk', LeadsTo outcomes (clear_ocsp_cache_file cache decided_on seen next) disk
        (next (.ok true)) disk' ∧ Replaced disk [] disk' := by
  obtain ⟨disk', hleads, hreplaced⟩ := replace_cache_file_leads hfiles .cleared [] decided_on seen
    "failed to clear OCSP cache file" "failed to replace cleared OCSP cache file" next disk
  refine ⟨disk', ?_, hreplaced⟩
  unfold clear_ocsp_cache_file
  refine LeadsTo.look (by nofun) rfl ?_
  rw [hfiles .metadata nofun, hstaple]
  dsimp only
  rw [if_neg hcontent]
  exact hleads

/-- What a refresh that fails leaves of the staple. -/
def Judged (crates : Crates Name Algorithm EndEntityCert) (cert_path : String)
    (responder_policy : OcspResponderPolicy) (disk disk' : Disk) : Prop :=
  (disk.Fresh crates cert_path responder_policy → disk'.staple = disk.staple) ∧
    (¬ disk.Fresh crates cert_path responder_policy → disk'.staple.getD [] = [])

theorem judged_of_empty {disk : Disk} (h : disk.staple.getD [] = []) :
    Judged crates cert_path responder_policy disk disk :=
  ⟨fun _ => rfl, fun _ => h⟩

theorem judged_of_cleared {disk disk' : Disk}
    (hstale : ¬ disk.Fresh crates cert_path responder_policy) (h : Replaced disk [] disk') :
    Judged crates cert_path responder_policy disk disk' := by
  refine ⟨fun hfresh => absurd hfresh hstale, fun _ => ?_⟩
  rw [h.staple]
  rfl

variable (crates cert_path cache responder_policy) in
/-- The staple is validated, and cleared if it does not validate. -/
theorem clear_invalid_ocsp_cache_file_leads
    (hfiles : ∀ part, part ≠ .build_request → (outcomes part).error = none) (disk : Disk)
    (next : Except String Bool → Refresher) :
    ∃ cleared disk', LeadsTo outcomes
        (clear_invalid_ocsp_cache_file crates cert_path cache responder_policy next) disk
        (next (.ok cleared)) disk' ∧ Judged crates cert_path responder_policy disk disk' := by
  have hmetadata : (outcomes .metadata).error = none := hfiles .metadata nofun
  have hread : (outcomes .read).error = none := hfiles .read nofun
  have hseen : disk.seen (outcomes .validate) = disk.surroundings := by
    unfold Disk.seen
    rw [hfiles .validate nofun]
  unfold clear_invalid_ocsp_cache_file
  cases hstaple : disk.staple with
  | none =>
    refine ⟨false, disk, LeadsTo.look (by nofun) rfl ?_, judged_of_empty (by rw [hstaple]; rfl)⟩
    rw [hmetadata, hstaple]
    exact .refl
  | some content =>
    by_cases hempty : content.length = 0
    · have hnil : content = [] := List.length_eq_zero_iff.mp hempty
      refine ⟨false, disk, LeadsTo.look (by nofun) rfl ?_,
        judged_of_empty (by rw [hstaple, hnil]; rfl)⟩
      rw [hmetadata, hstaple]
      dsimp only
      rw [if_pos hempty]
      exact .refl
    by_cases hlarge : MAX_OCSP_RESPONSE_BYTES < content.length
    · have hstale : ¬ disk.Fresh crates cert_path responder_policy := by
        rintro ⟨body, hbody, -, hsize, -⟩
        obtain rfl := Option.some.inj (hstaple.symm.trans hbody)
        omega
      obtain ⟨disk', hleads, hreplaced⟩ := clear_ocsp_cache_file_leads hfiles hstaple hempty content
        disk.surroundings next
      refine ⟨true, disk', LeadsTo.look (by nofun) rfl ?_, judged_of_cleared hstale hreplaced⟩
      rw [hmetadata, hstaple]
      dsimp only
      rw [if_neg hempty, if_pos hlarge]
      exact hleads
    have hne : content ≠ [] := fun hnil => hempty (by rw [hnil]; rfl)
    cases hvalid : validate crates cert_path responder_policy disk.surroundings content none
        .Disabled with
    | ok valid =>
      have hfresh : disk.Fresh crates cert_path responder_policy :=
        ⟨content, hstaple, hne, not_lt.mp hlarge, hvalid⟩
      refine ⟨false, disk, LeadsTo.look (by nofun) rfl ?_, fun _ => rfl, fun h => absurd hfresh h⟩
      rw [hmetadata, hstaple]
      dsimp only
      rw [if_neg hempty, if_neg hlarge]
      refine LeadsTo.look (by nofun) rfl ?_
      rw [hread, hstaple]
      dsimp only
      rw [if_neg hne]
      refine LeadsTo.look (by nofun) rfl ?_
      rw [hseen, hvalid]
      exact .refl
    | error error =>
      have hstale : ¬ disk.Fresh crates cert_path responder_policy := by
        rintro ⟨body, hbody, -, -, hvalidates⟩
        obtain rfl := Option.some.inj (hstaple.symm.trans hbody)
        rw [Validates, hvalid] at hvalidates
        cases hvalidates
      obtain ⟨disk', hleads, hreplaced⟩ := clear_ocsp_cache_file_leads hfiles hstaple hempty content
        disk.surroundings next
      refine ⟨true, disk', LeadsTo.look (by nofun) rfl ?_, judged_of_cleared hstale hreplaced⟩
      rw [hmetadata, hstaple]
      dsimp only
      rw [if_neg hempty, if_neg hlarge]
      refine LeadsTo.look (by nofun) rfl ?_
      rw [hread, hstaple]
      dsimp only
      rw [if_neg hne]
      refine LeadsTo.look (by nofun) rfl ?_
      rw [hseen, hvalid]
      exact hleads

/-- What a refresh that fails has done. -/
def FailsFrom (crates : Crates Name Algorithm EndEntityCert) (cert_path : String)
    (responder_policy : OcspResponderPolicy) (disk : Disk) (result : List FileStep × Disk) : Prop :=
  .record_refresh_success ∉ result.1 ∧ Judged crates cert_path responder_policy disk result.2

variable (crates cert_path cache responder_policy) in
theorem handle_ocsp_refresh_failure_fails
    (hfiles : ∀ part, part ≠ .build_request → (outcomes part).error = none) (disk : Disk)
    (error : String) :
    FailsFrom crates cert_path responder_policy disk (alone outcomes
      (handle_ocsp_refresh_failure crates cert_path cache responder_policy error
        fun (message, _) => .run (.record_refresh_failure message) fun _ _ => .done) disk) := by
  unfold handle_ocsp_refresh_failure
  obtain ⟨cleared, disk', hleads, hjudged⟩ :=
    clear_invalid_ocsp_cache_file_leads crates cert_path cache responder_policy hfiles disk _
  unfold FailsFrom
  rw [hleads.left, hleads.success]
  cases cleared with
  | true => exact ⟨by simp [alone], hjudged⟩
  | false => exact ⟨by simp [alone], hjudged⟩

end Files

/-! ## The refresh -/

section Refresh

variable {Name Algorithm EndEntityCert : Type} [DecidableEq Name]
  {crates : Crates Name Algorithm EndEntityCert} {cert_path : String} {cache : CachePath}
  {responder_policy : OcspResponderPolicy} {spec : RefreshSpec} {outcomes : FileStep → Outcome}
  {disk : Disk}

/-- No response validates for a certificate that no request can be built for. -/
theorem request_of_answers (hquiet : Quiet crates cert_path outcomes disk) {body : Bytes}
    (h : Answers crates cert_path responder_policy spec outcomes disk body) :
    (outcomes .build_request).error = none := by
  unfold Answers validate validate_ocsp_response_for_certificate_with_options at h
  obtain ⟨certs, hcerts, h⟩ := bind_eq_ok.mp h
  obtain ⟨cert_id, hcert_id, -⟩ := bind_eq_ok.mp h
  exact hquiet.request.mpr ⟨certs, cert_id, hcerts, hcert_id⟩

variable (cache responder_policy) in
/-- A refresh puts the first body that is delivered, if that validates, and fails otherwise. -/
theorem refresh_cases (hauto : spec.auto_refresh_enabled = true)
    (hquiet : Quiet crates cert_path outcomes disk) :
    (∃ body, fetch_ocsp_response (outcomes .fetch_response).answers [] spec.responder_urls = .ok body ∧
      Answers crates cert_path responder_policy spec outcomes disk body ∧
      .record_refresh_success ∈ (alone outcomes
        (refresh_ocsp_staple crates cert_path cache responder_policy spec fun _ => .done) disk).1 ∧
      Replaced disk body (alone outcomes
        (refresh_ocsp_staple crates cert_path cache responder_policy spec fun _ => .done) disk).2) ∨
    (∀ body, fetch_ocsp_response (outcomes .fetch_response).answers [] spec.responder_urls = .ok body →
      ¬ Answers crates cert_path responder_policy spec outcomes disk body) ∧
      FailsFrom crates cert_path responder_policy disk (alone outcomes
        (refresh_ocsp_staple crates cert_path cache responder_policy spec fun _ => .done) disk) := by
  obtain ⟨program, hprogram⟩ : ∃ program, program =
      refresh_ocsp_staple crates cert_path cache responder_policy spec fun _ => .done := ⟨_, rfl⟩
  have hfails : ∀ error,
      LeadsTo outcomes program disk (handle_ocsp_refresh_failure crates cert_path cache
        responder_policy error fun (message, _) =>
          .run (.record_refresh_failure message) fun _ _ => .done) disk →
      FailsFrom crates cert_path responder_policy disk (alone outcomes program disk) := by
    intro error hleads
    have hfailed := handle_ocsp_refresh_failure_fails crates cert_path cache responder_policy
      hquiet.files disk error
    unfold FailsFrom at hfailed ⊢
    rw [hleads.left, hleads.success]
    exact hfailed
  have hseen : disk.seen (outcomes .validate) = disk.surroundings := by
    unfold Disk.seen
    rw [hquiet.files .validate nofun]
  rw [← hprogram]
  cases hbuilt : (outcomes .build_request).error with
  | some error =>
    right
    constructor
    · intro body _ hanswers
      rw [request_of_answers hquiet hanswers] at hbuilt
      cases hbuilt
    · apply hfails error
      rw [hprogram, refresh_ocsp_staple, if_neg (by simp [hauto])]
      refine LeadsTo.look (by simp) rfl ?_
      rw [hbuilt]
      exact .refl
  | none =>
    cases hfetched : fetch_ocsp_response (outcomes .fetch_response).answers [] spec.responder_urls with
    | error error =>
      right
      constructor
      · intro body hbody
        cases hbody
      · apply hfails error
        rw [hprogram, refresh_ocsp_staple, if_neg (by simp [hauto])]
        refine LeadsTo.look (by simp) rfl ?_
        rw [hbuilt]
        refine LeadsTo.look (by simp) rfl ?_
        rw [hfetched]
        exact .refl
    | ok response_body =>
      cases hvalid : validate crates cert_path responder_policy disk.surroundings response_body
          (request_nonce spec outcomes) spec.ocsp_nonce_mode with
      | error error =>
        right
        constructor
        · intro body hbody hanswers
          obtain rfl := Except.ok.inj hbody
          rw [Answers, hvalid] at hanswers
          cases hanswers
        · apply hfails error
          rw [hprogram, refresh_ocsp_staple, if_neg (by simp [hauto])]
          refine LeadsTo.look (by simp) rfl ?_
          rw [hbuilt]
          refine LeadsTo.look (by simp) rfl ?_
          rw [hfetched]
          refine LeadsTo.look (by simp) rfl ?_
          unfold request_nonce at hvalid
          rw [hseen, hvalid]
          exact .refl
      | ok valid =>
        left
        obtain ⟨next, hreaches, hnext⟩ : ∃ next, LeadsTo outcomes program disk
            (write_ocsp_cache_file cache response_body disk.surroundings next) disk ∧
            ∀ changed, next (.ok changed) = .run .record_refresh_success fun _ _ => .done := by
          refine ⟨?_, ?reaches, ?succeeds⟩
          case reaches =>
            rw [hprogram, refresh_ocsp_staple, if_neg (by simp [hauto])]
            refine LeadsTo.look (by simp) rfl ?_
            rw [hbuilt]
            refine LeadsTo.look (by simp) rfl ?_
            rw [hfetched]
            refine LeadsTo.look (by simp) rfl ?_
            unfold request_nonce at hvalid
            rw [hseen, hvalid]
            exact .refl
          case succeeds =>
            intro changed
            rfl
        obtain ⟨changed, disk', hput, hreplaced⟩ := write_ocsp_cache_file_leads cache
          hquiet.files response_body disk.surroundings next disk
        have hleads : LeadsTo outcomes program disk
            (.run .record_refresh_success fun _ _ => .done) disk' := by
          rw [hnext] at hput
          exact hreaches.trans hput
        refine ⟨response_body, rfl, hvalid, ?_, ?_⟩
        · rw [hleads.success]
          exact List.mem_cons_self
        · rw [hleads.left]
          exact hreplaced

/-- The fallback ends at the first body. Any good responder makes a refresh succeed, exactly if no
responder before it delivers a body that does not validate. -/
theorem refresh_falls_back_iff (hauto : spec.auto_refresh_enabled = true)
    (hquiet : Quiet crates cert_path outcomes disk) :
    Refreshed crates cert_path responder_policy spec outcomes disk
        (alone outcomes
          (refresh_ocsp_staple crates cert_path cache responder_policy spec fun _ => .done) disk).1
        (alone outcomes
          (refresh_ocsp_staple crates cert_path cache responder_policy spec fun _ => .done) disk).2 ↔
      InvalidLast crates cert_path responder_policy spec outcomes disk := by
  rcases refresh_cases cache responder_policy hauto hquiet with
    ⟨body, hfetched, hanswers, hsuccess, hreplaced⟩ | ⟨hnot, hfailed, hjudged⟩
  · obtain ⟨before, url, after, hurls, hnone, hdelivers⟩ := fetch_eq_ok_iff.mp hfetched
    have hmem : url ∈ spec.responder_urls := by
      rw [hurls]
      simp
    constructor
    · intro _ before' url' after' body' hurls' hdelivers' hinvalid
      left
      rcases places (hurls.symm.trans hurls') with rfl | hearlier | hlater
      · rw [hdelivers'.unique hdelivers] at hinvalid
        exact absurd hanswers hinvalid
      · exact ⟨url, hearlier, body, hdelivers, hanswers⟩
      · exact absurd hdelivers' (hnone url' hlater body')
    · intro _
      refine ⟨iff_of_true hsuccess ⟨url, hmem, body, hdelivers, hanswers⟩, fun _ => ?_,
        fun h => absurd hsuccess h, fun h => absurd hsuccess h⟩
      refine ⟨url, hmem, body, hdelivers, hanswers, hreplaced.staple, body, hreplaced.staple, ?_⟩
      rw [hreplaced.surroundings]
      exact validate_without_nonce hanswers
  · have hinvalid_iff : InvalidLast crates cert_path responder_policy spec outcomes disk ↔
        ¬ ∃ url ∈ spec.responder_urls,
          Good crates cert_path responder_policy spec outcomes disk url := by
      constructor
      · rintro hlast ⟨url, hurl, body, hdelivers, hanswers⟩
        obtain ⟨found, hfound⟩ := exists_fetched hurl hdelivers []
        obtain ⟨before, first, after, hurls, hnone, hfirst⟩ := fetch_eq_ok_iff.mp hfound
        rw [hurls] at hurl
        rcases hlast before first after found hurls hfirst (hnot found hfound) with
          ⟨earlier, hearlier, other, hother, -⟩ | hlater
        · exact hnone earlier hearlier other hother
        · rcases List.mem_append.mp hurl with hbefore | hrest
          · exact hnone url hbefore body hdelivers
          · rcases List.mem_cons.mp hrest with rfl | hafter
            · rw [hdelivers.unique hfirst] at hanswers
              exact hnot found hfound hanswers
            · exact hlater url hafter ⟨body, hdelivers, hanswers⟩
      · intro hnone before url after body hurls _ _
        right
        intro later hlater hgood
        refine hnone ⟨later, ?_, hgood⟩
        rw [hurls]
        simp [hlater]
    rw [hinvalid_iff]
    constructor
    · intro h hgood
      exact hfailed (h.succeeds.mpr hgood)
    · intro hnone
      exact ⟨iff_of_false hfailed hnone, fun h => absurd h hfailed, fun _ => hjudged.1,
        fun _ => hjudged.2⟩

end Refresh

/-! Two responders of the certificate of `stale_disk`; the second one is good. -/

section Delegation

open delegation

def two_responders : RefreshSpec := ⟨true, ["http://a.example", "http://b.example"], .Disabled⟩

/-- The first responder answers so, and the second one with the response of the delegated one. -/
def answered (first : Except String Bytes) : FileStep → Outcome := fun _ =>
  { answers := fun url => if url = "http://b.example" then .ok [5] else first }

def site_cache : CachePath := ⟨"/var/cache/site.ocsp", "/var/cache", "/var/cache/site"⟩

theorem answered_quiet (first : Except String Bytes) :
    Quiet crates "/etc/rginx/site.pem" (answered first) stale_disk where
  files _ _ := rfl
  request := iff_of_true rfl ⟨_, _, rfl, rfl⟩

theorem second_good (first : Except String Bytes) :
    Good crates "/etc/rginx/site.pem" .IssuerOrDelegated two_responders (answered first) stale_disk
      "http://b.example" :=
  ⟨[5], ⟨by simp [answered], by decide, by decide⟩, rfl⟩

theorem refresh_falls_back_iff_error :
    Refreshed crates "/etc/rginx/site.pem" .IssuerOrDelegated two_responders
        (answered (.error "request failed")) stale_disk
        (alone (answered (.error "request failed")) (refresh_ocsp_staple crates "/etc/rginx/site.pem"
          site_cache .IssuerOrDelegated two_responders fun _ => .done) stale_disk).1
        (alone (answered (.error "request failed")) (refresh_ocsp_staple crates "/etc/rginx/site.pem"
          site_cache .IssuerOrDelegated two_responders fun _ => .done) stale_disk).2 ↔
      InvalidLast crates "/etc/rginx/site.pem" .IssuerOrDelegated two_responders
        (answered (.error "request failed")) stale_disk :=
  refresh_falls_back_iff rfl (answered_quiet _)

/-- The first responder answers with a body that does not validate, and the second is not asked. -/
theorem invalid_body_stops_fallback :
    ¬ Refreshed crates "/etc/rginx/site.pem" .IssuerOrDelegated two_responders
        (answered (.ok [4])) stale_disk
        (alone (answered (.ok [4])) (refresh_ocsp_staple crates "/etc/rginx/site.pem" site_cache
          .IssuerOrDelegated two_responders fun _ => .done) stale_disk).1
        (alone (answered (.ok [4])) (refresh_ocsp_staple crates "/etc/rginx/site.pem" site_cache
          .IssuerOrDelegated two_responders fun _ => .done) stale_disk).2 := by
  intro h
  have hsuccess := h.succeeds.mpr ⟨"http://b.example", by decide, second_good _⟩
  have hauto : two_responders.auto_refresh_enabled = true := rfl
  rcases refresh_cases site_cache .IssuerOrDelegated hauto (answered_quiet (.ok [4])) with
    ⟨body, hfetched, hanswers, -⟩ | ⟨-, hfailed, -⟩
  · have hfirst : fetch_ocsp_response ((answered (.ok [4])) .fetch_response).answers []
        two_responders.responder_urls = .ok [4] := rfl
    obtain rfl := Except.ok.inj (hfirst.symm.trans hfetched)
    cases hanswers
  · exact hfailed hsuccess

end Delegation

end rginx.ocsp

