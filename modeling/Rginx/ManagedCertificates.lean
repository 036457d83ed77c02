-- The renewal of managed certificates, from `acme/scheduler.rs` and `acme/types.rs` of the crate
-- `rginx-runtime`: what is due is decided from the files, and the endpoints hold what they were
-- built from. What an inspection of the files finds, and how each step ends, is a parameter.
import Rginx.CertificatePairs
import Rginx.ListenerConfigs
import Rginx.StepRuns

open rust_text rginx.config

namespace rginx.acme

/-! ## What is due -/

structure AcmeSettings where
  renew_before_secs : Nat
  poll_interval_secs : Nat

structure TlsCertificateStatusSnapshot where
  scope : String
  cert_path : String
  fingerprint_sha256 : Option String
  san_dns_names : List String
  expires_in_days : Option Int

inductive ReconcileReason
  | MissingCertificate
  | MissingPrivateKey
  | MissingCertificateMetadata
  | SanMismatch (expected actual : List Text)
  | Expiring (remaining_days renew_before_days : Int)
  deriving DecidableEq

def DAY_SECS : Nat := 86400

def renew_before_days (settings : AcmeSettings) : Int :=
  ((settings.renew_before_secs + DAY_SECS - 1) / DAY_SECS : Nat)

/-- The names in order, each once. -/
def normalized_domains (values : List String) : List Text :=
  (((values.map fun value => to_ascii_lowercase (trim value.toList)).filter (· ≠ [])).dedup).insertionSort
    (· ≤ ·)

/-- By scope, and for a virtual host by its id as well; a later status takes the place of an
earlier one. -/
def certificate_status_index (certificates : List TlsCertificateStatusSnapshot) :
    String → Option TlsCertificateStatusSnapshot :=
  certificates.foldl (fun index status =>
    let index := match stripStart "vhost:".toList status.scope.toList with
      | some scope => Function.update index (String.ofList scope) (some status)
      | none => index
    Function.update index status.scope (some status)) fun _ => none

def Disk.is_file (disk : Disk) (path : String) : Bool := (disk.files path).isSome

def plan_reconcile (disk : Disk) (spec : ManagedCertificateSpec)
    (status : Option TlsCertificateStatusSnapshot) (settings : AcmeSettings) :
    Option ReconcileReason :=
  match status with
  | none => some .MissingCertificate
  | some status =>
    if !disk.is_file spec.key_path then some .MissingPrivateKey
    else if status.fingerprint_sha256.isNone then
      if disk.is_file status.cert_path then some .MissingCertificateMetadata
      else some .MissingCertificate
    else
      let expected := normalized_domains spec.domains
      let actual := normalized_domains status.san_dns_names
      if expected ≠ actual then some (.SanMismatch expected actual)
      else
        match status.expires_in_days with
        | some remaining_days =>
          if remaining_days > renew_before_days settings then none
          else some (.Expiring remaining_days (renew_before_days settings))
        | none => some .MissingCertificateMetadata

/-! ## Retries -/

def INITIAL_RETRY_DELAY_SECS : Nat := 60
def MAX_RETRY_DELAY_SECS : Nat := 6 * 60 * 60

structure RetryState where
  failures : Nat
  next_retry_at : Nat

/-- `HashMap<String, RetryState>`. -/
abbrev RetryBackoff := String → Option RetryState

def RetryBackoff.retain_scopes (backoff : RetryBackoff) (scopes : List String) : RetryBackoff :=
  fun scope => if scope ∈ scopes then backoff scope else none

def RetryBackoff.remaining_delay (backoff : RetryBackoff) (scope : String) (now : Nat) :
    Option Nat :=
  match backoff scope with
  | none => none
  | some state => if now ≤ state.next_retry_at then some (state.next_retry_at - now) else none

def RetryBackoff.record_success (backoff : RetryBackoff) (scope : String) : RetryBackoff :=
  Function.update backoff scope none

def RetryBackoff.record_failure (backoff : RetryBackoff) (scope : String) (now : Nat) :
    RetryBackoff :=
  let failures := match backoff scope with
    | some state => min (state.failures + 1) (2 ^ 32 - 1)
    | none => 1
  let exponent := min (failures - 1) 8
  let retry_delay := min (INITIAL_RETRY_DELAY_SECS * 2 ^ exponent) MAX_RETRY_DELAY_SECS
  Function.update backoff scope (some ⟨failures, now + retry_delay⟩)

/-! ## One call -/

structure ManagedConfig where
  config : ConfigSnapshot
  acme_settings : Option AcmeSettings
  managed_certificates : List ManagedCertificateSpec

def http01_listener_addrs (config : ConfigSnapshot) : List rust_net.SocketAddr :=
  (config.listeners.filter fun listener =>
    !listener.tls_enabled && listener.server.listen_addr.port == 80).map (·.server.listen_addr)

/-- How the issuing of one certificate ends: the exchange with the server, the steps on the
files, and when. -/
structure Issue where
  exchange : Except String (List UInt8 × List UInt8)
  failures : Failures
  finished_at : Nat

/-- What a call finds outside: the clock, the lock and the account, each issuing in its order,
and the rebuild of the acceptors. The refresh of the staples is only logged. -/
structure Call where
  now : Nat
  lock : Except String Unit
  account : Except String Unit
  issue : Nat → Issue
  refresh : Except String Unit

/-- The disk, and the counts of its files when the acceptors of the listeners, and the HTTP/3
endpoint of each, were built. -/
structure AcmeState where
  disk : Disk
  retry_backoff : RetryBackoff
  listener_tls_acceptors : String → Nat
  http3_endpoints : String → String → Nat

def issue_and_store_managed_certificate (issue : Issue) (spec : ManagedCertificateSpec) :
    DiskM Unit :=
  match issue.exchange with
  | .error error => throw (.Server error)
  | .ok (certificate_chain_pem, private_key_pem) =>
    write_certificate_pair issue.failures spec certificate_chain_pem private_key_pem

/-- The loop over the work items, with whether a certificate has changed. -/
def issue_each (call : Call) : Nat → List ManagedCertificateSpec → AcmeState × Bool →
    AcmeState × Bool
  | _, [], result => result
  | position, spec :: work_items, (state, certificates_changed) =>
    let issue := call.issue position
    match (issue_and_store_managed_certificate issue spec).run state.disk with
    | .ok _ disk =>
      issue_each call (position + 1) work_items
        ({ state with disk, retry_backoff := state.retry_backoff.record_success spec.scope }, true)
    | .error _ disk =>
      issue_each call (position + 1) work_items
        ({ state with
          disk
          retry_backoff := state.retry_backoff.record_failure spec.scope issue.finished_at },
          certificates_changed)

section Calls

variable (inspect : Disk → Nat → List TlsCertificateStatusSnapshot) (managed : ManagedConfig)

/-- The certificates for which something is to be done. -/
def pending (settings : AcmeSettings) (disk : Disk) (now : Nat) : List ManagedCertificateSpec :=
  let certificate_statuses := certificate_status_index (inspect disk now)
  managed.managed_certificates.filter fun spec =>
    (plan_reconcile disk spec (certificate_statuses spec.scope) settings).isSome

def retained (state : AcmeState) : AcmeState :=
  { state with retry_backoff :=
      state.retry_backoff.retain_scopes (managed.managed_certificates.map (·.scope)) }

/-- Those that do not wait for a retry. -/
def work_items (settings : AcmeSettings) (state : AcmeState) (now : Nat) :
    List ManagedCertificateSpec :=
  (pending inspect managed settings state.disk now).filter fun spec =>
    (state.retry_backoff.remaining_delay spec.scope now).isNone

def reconcile_managed_certificates (state : AcmeState) (call : Call) :
    Except String Unit × AcmeState :=
  match managed.acme_settings with
  | none => (.ok (), { state with retry_backoff := fun _ => none })
  | some settings =>
    if managed.managed_certificates.isEmpty then
      (.ok (), { state with retry_backoff := fun _ => none })
    else
      let state := retained managed state
      if (pending inspect managed settings state.disk call.now).isEmpty then (.ok (), state)
      else if (http01_listener_addrs managed.config).isEmpty then (.ok (), state)
      else
        let work_items := work_items inspect managed settings state call.now
        if work_items.isEmpty then (.ok (), state)
        else
          match call.lock, call.account with
          | .error _, _ => (.ok (), state)
          | .ok _, .error message =>
            (.error message, { state with
              retry_backoff := work_items.foldl (fun backoff spec =>
                backoff.record_failure spec.scope call.now) state.retry_backoff })
          | .ok _, .ok _ =>
            let (state, certificates_changed) := issue_each call 0 work_items (state, false)
            if certificates_changed then
              match call.refresh with
              | .error error =>
                (.error s!"failed to rebuild TLS acceptors after ACME certificate refresh: {error}",
                  state)
              | .ok _ => (.ok (), { state with listener_tls_acceptors := state.disk.written })
            else (.ok (), state)

end Calls

/-! ## What an endpoint is built from -/

def ServerCertificateBundle.files (bundle : ServerCertificateBundle) : List String :=
  [bundle.cert_path, bundle.key_path]

def server_tls_files (tls : ServerTls) : List String :=
  [tls.cert_path, tls.key_path] ++ tls.additional_certificates.flatMap ServerCertificateBundle.files

def vhost_tls_files (tls : VirtualHostTls) : List String :=
  [tls.cert_path, tls.key_path] ++ tls.additional_certificates.flatMap ServerCertificateBundle.files

/-- The files that an endpoint of a listener loads: its own, and those of all virtual hosts. -/
def tls_files (config : ConfigSnapshot) (listener : Listener) : List String :=
  if listener.tls_enabled then
    listener.server.tls.toList.flatMap server_tls_files ++
      (config.default_vhost :: config.vhosts).flatMap fun vhost =>
        vhost.tls.toList.flatMap vhost_tls_files
  else []

/-- Every endpoint was built after the files of the managed certificates that it loads were last
written. -/
def BuiltAfterWritten (managed : ManagedConfig) (state : AcmeState) : Prop :=
  ∀ listener ∈ managed.config.listeners, ∀ spec ∈ managed.managed_certificates,
    ∀ path ∈ [spec.cert_path, spec.key_path], path ∈ tls_files managed.config listener →
      state.listener_tls_acceptors path = state.disk.written path ∧
      (listener.http3.isSome → state.http3_endpoints listener.id path = state.disk.written path)

/-- Nothing is to be done for any managed certificate, whenever the files are looked at. -/
def NothingToDo (inspect : Disk → Nat → List TlsCertificateStatusSnapshot)
    (managed : ManagedConfig) (disk : Disk) (now : Nat) : Prop :=
  ∀ settings, managed.acme_settings = some settings →
    pending inspect managed settings disk now = []

/-- The renewed certificates are in use after a call. -/
def RenewedInUse (inspect : Disk → Nat → List TlsCertificateStatusSnapshot)
    (managed : ManagedConfig) (state : AcmeState) (call : Call) : Prop :=
  let result := reconcile_managed_certificates inspect managed state call
  result.1 = .ok () → ∀ now, NothingToDo inspect managed result.2.disk now →
    BuiltAfterWritten managed result.2

/-! ## When the renewed certificates are in use -/

/-- The issuing makes a new certificate visible, with a success or not. -/
def Issue.Visible (issue : Issue) : Prop :=
  (∃ pair, issue.exchange = .ok pair) ∧ Touches issue.failures

def Issue.Succeeds (issue : Issue) : Prop :=
  (∃ pair, issue.exchange = .ok pair) ∧ StoresBoth issue.failures

/-- Whoever loads a file that becomes visible has no HTTP/3 endpoint, and the acceptors are
rebuilt in the same call. -/
def Covered (managed : ManagedConfig) (work_items : List ManagedCertificateSpec) (call : Call) :
    Prop :=
  ∀ (position : Nat) spec, work_items[position]? = some spec → (call.issue position).Visible →
    ∀ listener ∈ managed.config.listeners,
      (spec.cert_path ∈ tls_files managed.config listener ∨
        spec.key_path ∈ tls_files managed.config listener) →
      listener.http3 = none ∧
        (∃ other < work_items.length, (call.issue other).Succeeds) ∧ call.refresh = .ok ()

/-- A call that comes to the issuing covers it. -/
def CallCovered (inspect : Disk → Nat → List TlsCertificateStatusSnapshot)
    (managed : ManagedConfig) (state : AcmeState) (call : Call) : Prop :=
  ∀ settings, managed.acme_settings = some settings → call.lock = .ok () →
    call.account = .ok () →
    Covered managed (work_items inspect managed settings (retained managed state) call.now) call

theorem issue_untouched {issue : Issue} {spec : ManagedCertificateSpec} {disk : Disk}
    (h : ¬ issue.Visible) :
    (final ((issue_and_store_managed_certificate issue spec).run disk)).written = disk.written := by
  unfold issue_and_store_managed_certificate
  split
  · rfl
  · rename_i certificate_chain_pem private_key_pem hexchange
    refine (write_certificate_pair_end _ _ _ _ _).untouched fun htouches => ?_
    exact h ⟨⟨_, hexchange⟩, htouches⟩

theorem issue_others {issue : Issue} {spec : ManagedCertificateSpec} {disk : Disk} {other : String}
    (hcert_path : other ≠ spec.cert_path) (hkey_path : other ≠ spec.key_path) :
    (final ((issue_and_store_managed_certificate issue spec).run disk)).written other =
      disk.written other := by
  unfold issue_and_store_managed_certificate
  split
  · rfl
  · exact (write_certificate_pair_end _ _ _ _ _).others hcert_path hkey_path

theorem issue_ok {issue : Issue} {spec : ManagedCertificateSpec} {disk : Disk}
    (h : issue.Succeeds) :
    ∃ disk', (issue_and_store_managed_certificate issue spec).run disk = .ok () disk' := by
  obtain ⟨⟨pair, hexchange⟩, hstores⟩ := h
  unfold issue_and_store_managed_certificate
  rw [hexchange]
  exact (write_certificate_pair_end _ _ _ _ _).ok hstores

/-- What the loop leaves: the endpoints as they were, the files that no visible issuing is for,
and whether some issuing has succeeded. -/
structure Issued (call : Call) (position : Nat) (work_items : List ManagedCertificateSpec)
    (before after : AcmeState × Bool) : Prop where
  acceptors : after.1.listener_tls_acceptors = before.1.listener_tls_acceptors
  http3_endpoints : after.1.http3_endpoints = before.1.http3_endpoints
  others : ∀ path, (∀ (offset : Nat) spec, work_items[offset]? = some spec →
      (call.issue (position + offset)).Visible → path ≠ spec.cert_path ∧ path ≠ spec.key_path) →
    after.1.disk.written path = before.1.disk.written path
  changed : before.2 = true ∨
      (∃ offset < work_items.length, (call.issue (position + offset)).Succeeds) → after.2 = true

/-- One issuing leaves the files that it is not visible for. -/
theorem issue_written {issue : Issue} {spec : ManagedCertificateSpec} {disk : Disk} {path : String}
    (h : issue.Visible → path ≠ spec.cert_path ∧ path ≠ spec.key_path) :
    (final ((issue_and_store_managed_certificate issue spec).run disk)).written path =
      disk.written path := by
  by_cases hvisible : issue.Visible
  · exact issue_others (h hvisible).1 (h hvisible).2
  · exact congrFun (issue_untouched hvisible) path

/-- The rest of the loop, after one issuing. -/
theorem Issued.cons {call : Call} {position : Nat} {spec : ManagedCertificateSpec}
    {work_items : List ManagedCertificateSpec} {before middle after : AcmeState × Bool}
    (h : Issued call (position + 1) work_items middle after)
    (hacceptors : middle.1.listener_tls_acceptors = before.1.listener_tls_acceptors)
    (hendpoints : middle.1.http3_endpoints = before.1.http3_endpoints)
    (hdisk : middle.1.disk = final ((issue_and_store_managed_certificate (call.issue position)
      spec).run before.1.disk))
    (hchanged : before.2 = true ∨ (call.issue position).Succeeds → middle.2 = true) :
    Issued call position (spec :: work_items) before after := by
  refine ⟨h.acceptors.trans hacceptors, h.http3_endpoints.trans hendpoints, ?_, ?_⟩
  · intro path hpath
    have hrest := h.others path fun offset other hother hvisible =>
      hpath (offset + 1) other hother (by rwa [← Nat.add_assoc, Nat.add_right_comm])
    rw [hrest, hdisk]
    exact issue_written (hpath 0 spec rfl)
  · rintro (hbefore | ⟨offset, hlt, hsucceeds⟩)
    · exact h.changed (.inl (hchanged (.inl hbefore)))
    · cases offset with
      | zero => exact h.changed (.inl (hchanged (.inr hsucceeds)))
      | succ offset =>
        refine h.changed (.inr ⟨offset, Nat.lt_of_succ_lt_succ hlt, ?_⟩)
        rwa [Nat.add_right_comm, Nat.add_assoc]

theorem issue_each_issued (call : Call) (position : Nat) (work_items : List ManagedCertificateSpec)
    (before : AcmeState × Bool) :
    Issued call position work_items before (issue_each call position work_items before) := by
  induction work_items generalizing position before with
  | nil =>
    refine ⟨rfl, rfl, fun _ _ => rfl, ?_⟩
    rintro (hbefore | ⟨offset, hlt, _⟩)
    · exact hbefore
    · cases hlt
  | cons spec work_items ih =>
    obtain ⟨state, certificates_changed⟩ := before
    unfold issue_each
    dsimp only
    cases hrun : (issue_and_store_managed_certificate (call.issue position) spec).run state.disk with
    | ok _ disk => exact (ih (position + 1) _).cons rfl rfl (by rw [hrun]; rfl) fun _ => rfl
    | error _ disk =>
      refine (ih (position + 1) _).cons rfl rfl (by rw [hrun]; rfl) ?_
      rintro (hbefore | hsucceeds)
      · exact hbefore
      · obtain ⟨disk', hok⟩ := @issue_ok _ spec state.disk hsucceeds
        rw [hrun] at hok
        cases hok

/-! ## Runs of calls -/

/-- Without a rebuild, or for an HTTP/3 endpoint, no file of the listener becomes visible. -/
theorem Covered.not_visible {managed : ManagedConfig} {work_items : List ManagedCertificateSpec}
    {call : Call} (h : Covered managed work_items call) {listener : Listener}
    (hmem : listener ∈ managed.config.listeners) {path : String}
    (hpath : path ∈ tls_files managed.config listener)
    (hnot : ¬ (listener.http3 = none ∧
      (∃ other < work_items.length, (call.issue other).Succeeds) ∧ call.refresh = .ok ()))
    (position : Nat) (spec : ManagedCertificateSpec) (hitem : work_items[position]? = some spec)
    (hvisible : (call.issue position).Visible) :
    path ≠ spec.cert_path ∧ path ≠ spec.key_path := by
  constructor
  · rintro rfl
    exact hnot (h position spec hitem hvisible listener hmem (.inl hpath))
  · rintro rfl
    exact hnot (h position spec hitem hvisible listener hmem (.inr hpath))

/-- A covered call leaves endpoints that were built after the files were written. -/
theorem reconcile_built (inspect : Disk → Nat → List TlsCertificateStatusSnapshot)
    {managed : ManagedConfig} {state : AcmeState} {call : Call}
    (h : BuiltAfterWritten managed state) (hcovered : CallCovered inspect managed state call) :
    BuiltAfterWritten managed (reconcile_managed_certificates inspect managed state call).2 := by
  unfold reconcile_managed_certificates
  cases hsettings : managed.acme_settings with
  | none => exact h
  | some settings =>
    have hcovered := hcovered settings hsettings
    dsimp only
    split
    · exact h
    split
    · exact h
    split
    · exact h
    split
    · exact h
    cases hlock : call.lock with
    | error _ => exact h
    | ok _ =>
    cases haccount : call.account with
    | error _ => exact h
    | ok _ =>
    have hcovered := hcovered hlock haccount
    have hissued := issue_each_issued call 0
      (work_items inspect managed settings (retained managed state) call.now)
      (retained managed state, false)
    dsimp only
    generalize issue_each call 0
      (work_items inspect managed settings (retained managed state) call.now)
      (retained managed state, false) = after at hissued
    have hkept : ∀ listener ∈ managed.config.listeners,
        ∀ path ∈ tls_files managed.config listener,
        ¬ (listener.http3 = none ∧ (∃ other < (work_items inspect managed settings
          (retained managed state) call.now).length, (call.issue other).Succeeds) ∧
          call.refresh = .ok ()) →
        after.1.disk.written path = state.disk.written path := by
      intro listener hlistener path hpath hnot
      refine hissued.others path fun position spec hitem hvisible => ?_
      rw [Nat.zero_add] at hvisible
      exact hcovered.not_visible hlistener hpath hnot position spec hitem hvisible
    obtain ⟨after, certificates_changed⟩ := after
    intro listener hlistener spec hspec path hpath hfile
    obtain ⟨hacceptor, hendpoint⟩ := h listener hlistener spec hspec path hpath hfile
    have hkept := hkept listener hlistener path hfile
    cases certificates_changed with
    | false =>
      have hsame : after.disk.written path = state.disk.written path := by
        refine hkept fun hrebuilt => ?_
        obtain ⟨_, ⟨other, hlt, hsucceeds⟩, _⟩ := hrebuilt
        have hchanged := hissued.changed (.inr ⟨other, hlt, by rwa [Nat.zero_add]⟩)
        cases hchanged
      dsimp only
      rw [if_neg (by decide), hissued.acceptors, hissued.http3_endpoints, hsame]
      exact ⟨hacceptor, hendpoint⟩
    | true =>
      dsimp only
      rw [if_pos rfl]
      cases hrefresh : call.refresh with
      | error error =>
        have hsame : after.disk.written path = state.disk.written path := by
          refine hkept fun hrebuilt => ?_
          have hok := hrebuilt.2.2
          rw [hrefresh] at hok
          cases hok
        dsimp only
        rw [hissued.acceptors, hissued.http3_endpoints, hsame]
        exact ⟨hacceptor, hendpoint⟩
      | ok _ =>
        refine ⟨rfl, fun hhttp3 => ?_⟩
        have hsame : after.disk.written path = state.disk.written path := by
          refine hkept fun hrebuilt => ?_
          rw [hrebuilt.1] at hhttp3
          cases hhttp3
        dsimp only
        rw [hissued.http3_endpoints, hsame]
        exact hendpoint hhttp3

/-- Along a run of covered calls without a reload, the renewed certificates are in use whenever a
call ends well and nothing is left to do. -/
theorem renewed_in_use (inspect : Disk → Nat → List TlsCertificateStatusSnapshot)
    (managed : ManagedConfig) {start : AcmeState} (hstart : BuiltAfterWritten managed start)
    (calls : List Call)
    (hcovered : step_runs.Along
      (fun state call => (reconcile_managed_certificates inspect managed state call).2)
      (CallCovered inspect managed) start calls) :
    step_runs.Along (fun state call => (reconcile_managed_certificates inspect managed state call).2)
      (RenewedInUse inspect managed) start calls := by
  have hbuilt : ∀ state call, BuiltAfterWritten managed state →
      CallCovered inspect managed state call →
      BuiltAfterWritten managed (reconcile_managed_certificates inspect managed state call).2 :=
    fun _ _ => reconcile_built inspect
  have hinuse : ∀ state call, BuiltAfterWritten managed state →
      CallCovered inspect managed state call → RenewedInUse inspect managed state call :=
    fun state call hstate hcall _ _ _ => hbuilt state call hstate hcall
  exact step_runs.along_of_along hbuilt hinuse hstart calls hcovered

/-! ## A rebuild that fails -/

def site_listeners (http3 : Bool) : List Listener :=
  [⟨"listener:http", "http", ⟨⟨.V4 0x7f000001#32, 80⟩, none, none⟩, false, none⟩,
    ⟨"listener:https", "https", ⟨⟨.V4 0x7f000001#32, 443⟩, none, none⟩, true,
      if http3 then some ⟨⟨.V4 0x7f000001#32, 443⟩⟩ else none⟩]

def managed_site (http3 : Bool) : ManagedConfig :=
  ⟨⟨⟨none, 1⟩, site_listeners http3, ⟨"server", [], none⟩,
    [⟨"servers[0]", ["a.example"], some { cert_path := "cert.pem", key_path := "key.pem" }⟩]⟩,
    some ⟨30 * DAY_SECS, 3600⟩, [site_certificate]⟩

/-- The old certificate has a day left, any other has ninety. -/
def days_left (disk : Disk) (_ : Nat) : List TlsCertificateStatusSnapshot :=
  [⟨"vhost:servers[0]", "cert.pem", some "fingerprint", ["a.example"],
    if disk.contents "cert.pem" = some [1] then some 1 else some 90⟩]

def site_start : AcmeState := ⟨old_pair, fun _ => none, fun _ => 1, fun _ _ => 1⟩

def renewal (refresh : Except String Unit) : Call :=
  ⟨0, .ok (), .ok (), fun _ => ⟨.ok ([3], [4]), fun _ _ => none, 0⟩, refresh⟩

theorem renewed_in_use_one_call :
    step_runs.Along (fun state call =>
        (reconcile_managed_certificates days_left (managed_site false) state call).2)
      (RenewedInUse days_left (managed_site false)) site_start [renewal (.ok ())] := by
  refine renewed_in_use days_left (managed_site false) (fun _ _ _ _ _ _ _ => ⟨rfl, fun _ => rfl⟩) _
    ⟨?_, trivial⟩
  have hplain : ∀ listener ∈ site_listeners false, listener.http3 = none := by decide
  intro settings hsettings _ _ position spec _ _ listener hlistener _
  obtain rfl := Option.some.inj hsettings
  refine ⟨hplain listener hlistener, ⟨0, by decide, ⟨_, rfl⟩, ⟨rfl, fun _ _ => rfl⟩, fun _ _ => rfl, fun _ _ => rfl,
    fun _ _ => rfl⟩, rfl⟩

/-- After a rebuild that failed, the next call ends well with nothing to do, and the old
certificate stays in use; an HTTP/3 endpoint keeps it even where the rebuild succeeds. -/
theorem old_certificate_in_use :
    BuiltAfterWritten (managed_site false) site_start ∧
      ¬ RenewedInUse days_left (managed_site false)
        (reconcile_managed_certificates days_left (managed_site false) site_start
          (renewal (.error "out of memory"))).2 (renewal (.ok ())) ∧
      BuiltAfterWritten (managed_site true) site_start ∧
      ¬ RenewedInUse days_left (managed_site true) site_start (renewal (.ok ())) := by
  refine ⟨fun _ _ _ _ _ _ _ => ⟨rfl, fun _ => rfl⟩, ?_, fun _ _ _ _ _ _ _ => ⟨rfl, fun _ => rfl⟩, ?_⟩
  · intro h
    have hbuilt := h (by decide) 0 fun settings hsettings => by
      obtain rfl := Option.some.inj hsettings
      decide
    have hcurrent := hbuilt ((site_listeners false).getLast (by decide)) (by decide)
      site_certificate (by decide) "cert.pem" (by decide) (by decide)
    exact absurd hcurrent.1 (by decide)
  · intro h
    have hbuilt := h (by decide) 0 fun settings hsettings => by
      obtain rfl := Option.some.inj hsettings
      decide
    have hcurrent := hbuilt ((site_listeners true).getLast (by decide)) (by decide)
      site_certificate (by decide) "cert.pem" (by decide) (by decide)
    exact absurd (hcurrent.2 (by decide)) (by decide)

end rginx.acme
