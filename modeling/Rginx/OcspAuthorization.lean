-- When an OCSP response is accepted: the conditions in their own terms, and that the checks of a
-- response pass exactly under them, whatever certificates it brings and in whatever order.
import Rginx.OcspResponses

open rust_text rust_net rust_result rginx.config

namespace rginx.http.ocsp

variable {Name Algorithm EndEntityCert : Type}

/-! ## What acceptance asks for -/

section Conditions

variable (crates : Crates Name Algorithm EndEntityCert)

def nonce_extensions (extensions : Option (List Extension)) : List Extension :=
  (extensions.getD []).filter (·.extn_id = ocsp_nonce_oid)

/-- Exactly one extension carries a nonce, and it is this one. -/
def Echoes (extensions : Option (List Extension)) (nonce : Bytes) : Prop :=
  ∃ extension, nonce_extensions extensions = [extension] ∧
    crates.decode_octet_string extension.extn_value = .ok nonce

/-- The nonce of a request is required, or preferred. Without one in the request nothing is asked
of the response; one that is passed all the same where nonces are disabled asks that the response
can be read. -/
def NonceRule (extensions : Option (List Extension)) (expected_nonce : Option Bytes) :
    OcspNonceMode → Prop
  | .Required => ∃ nonce, expected_nonce = some nonce ∧ Echoes crates extensions nonce
  | .Preferred => ∃ nonce, expected_nonce = some nonce ∧
      (nonce_extensions extensions = [] ∨ Echoes crates extensions nonce)
  | .Disabled => expected_nonce = none ∨ nonce_extensions extensions = [] ∨
      ∃ nonce, Echoes crates extensions nonce

/-- An algorithm of that identifier verifies the signature, and those before it in the list are
for another kind of key. -/
def KeyVerifies (key : EndEntityCert) (algorithm_der signature message : Bytes) : Prop :=
  ∃ before algorithm after,
    signature_candidates crates algorithm_der = before ++ algorithm :: after ∧
    (∀ other ∈ before, ∃ text, crates.verify_signature key other message signature =
      .error (.UnsupportedSignatureAlgorithmForPublicKeyContext text)) ∧
    crates.verify_signature key algorithm message signature = .ok ()

def CertificateVerifies (certificate : Certificate Name) (algorithm_der signature message : Bytes) :
    Prop :=
  ∃ certificate_der key, crates.encode_certificate certificate = .ok certificate_der ∧
    crates.end_entity_cert certificate_der = .ok key ∧
    KeyVerifies crates key algorithm_der signature message

/-- The certificate verifies a signature of whole bytes under the algorithm. -/
def Verifies (certificate : Certificate Name) (algorithm : AlgorithmIdentifier)
    (signature : BitString) (message : Bytes) : Prop :=
  8 ∣ signature.length ∧ ∃ oid_der,
    crates.encode_object_identifier algorithm.algorithm = .ok oid_der ∧
    CertificateVerifies crates certificate (oid_der ++ algorithm.parameters.getD [])
      signature.as_raw_slice message

def id_kp_OCSPSigning : ObjectIdentifier := [1, 3, 6, 1, 5, 5, 7, 3, 9]

/-- The issuer has delegated the signing of OCSP responses to the certificate. -/
structure Delegated (issuer certificate : Certificate Name) (now : Instant) : Prop where
  named : certificate.tbs_certificate.issuer = issuer.tbs_certificate.subject
  issued : ∃ tbs_der, crates.encode_tbs_certificate certificate.tbs_certificate = .ok tbs_der ∧
    Verifies crates issuer certificate.signature_algorithm certificate.signature_value tbs_der
  valid : certificate_valid_now certificate now = true
  ocsp_signing : ∃ extension usages,
    find_certificate_extension certificate "2.5.29.37" = some extension ∧
    crates.decode_ext_key_usage extension.extn_value = .ok usages ∧ id_kp_OCSPSigning ∈ usages
  digital_signature : ∀ extension,
    find_certificate_extension certificate "2.5.29.15" = some extension →
    ∃ usage : BitString, crates.decode_key_usage extension.extn_value = .ok usage ∧
      usage[0]? = some true

def Authorized (issuer certificate : Certificate Name) (policy : OcspResponderPolicy)
    (now : Instant) : Prop :=
  certificate = issuer ∨ policy ≠ .IssuerOnly ∧ Delegated crates issuer certificate now

/-- The responder id is that of the certificate. -/
def Identifies (certificate : Certificate Name) : ResponderId Name → Prop
  | .ByName name => name = certificate.tbs_certificate.subject
  | .ByKey key_hash => crates.sha1_digest certificate.subject_public_key_bytes = key_hash

def Signs (certificate : Certificate Name) (basic : BasicOcspResponse Name) : Prop :=
  ∃ data_der, crates.encode_response_data basic.tbs_response_data = .ok data_der ∧
    Verifies crates certificate basic.signature_algorithm basic.signature data_der

/-- The certificate is good, by a status that is neither of the future nor out of date. -/
structure GoodNow (single : SingleResponse) (produced_at now : Instant) : Prop where
  good : single.cert_status = .Good
  produced : single.this_update ≤ produced_at
  begun : single.this_update ≤ now
  current : ∀ next_update ∈ single.next_update, now ≤ next_update

structure Acceptable (issuer : Certificate Name) (cert_id : CertId) (expected_nonce : Option Bytes)
    (nonce_mode : OcspNonceMode) (policy : OcspResponderPolicy) (now : Instant)
    (basic : BasicOcspResponse Name) : Prop where
  produced : basic.tbs_response_data.produced_at ≤ now
  nonce : NonceRule crates basic.tbs_response_data.response_extensions expected_nonce nonce_mode
  signed : ∃ certificate ∈ issuer :: basic.certs.getD [],
    Identifies crates certificate basic.tbs_response_data.responder_id ∧
    Signs crates certificate basic ∧ Authorized crates issuer certificate policy now
  certified : ∃ single,
    basic.tbs_response_data.responses.filter (·.cert_id = cert_id) = [single] ∧
    GoodNow single basic.tbs_response_data.produced_at now

/-- The response is successful and holds a basic response. -/
def Holds (response : OcspResponse) (basic : BasicOcspResponse Name) : Prop :=
  response.status = .Successful ∧ ∃ bytes, response.bytes = some bytes ∧
    bytes.type = basic_ocsp_response_type_oid ∧
    crates.decode_basic_response bytes.response = .ok basic

/-- The chain starts with a leaf and its issuer. -/
def Chain (certs : List Bytes) (leaf issuer : Certificate Name) : Prop :=
  ∃ leaf_der issuer_der rest, certs = leaf_der :: issuer_der :: rest ∧
    crates.decode_certificate leaf_der = .ok leaf ∧
    crates.decode_certificate issuer_der = .ok issuer

/-- The id under which a response speaks of the leaf. -/
def IdOf (leaf issuer : Certificate Name) (cert_id : CertId) : Prop :=
  ∃ name_der, crates.encode_name issuer.tbs_certificate.subject = .ok name_der ∧
    cert_id = ⟨⟨ID_SHA1, none⟩, crates.sha1_digest name_der,
      crates.sha1_digest issuer.subject_public_key_bytes, leaf.tbs_certificate.serial_number⟩

/-- Names are encoded, no two of them alike. -/
structure EncodesNames : Prop where
  succeeds : ∀ name, ∃ der, crates.encode_name name = .ok der
  injective : ∀ name name' der, crates.encode_name name = .ok der →
    crates.encode_name name' = .ok der → name = name'

end Conditions

section Checks

variable {crates : Crates Name Algorithm EndEntityCert} {path : String}

/-! ## The nonce -/

/-- Once a nonce is found, no other extension may carry one. -/
theorem extract_from_some {found : Bytes} {extensions : List Extension} {nonce : Option Bytes} :
    extract_from crates path (some found) extensions = .ok nonce ↔
      nonce = some found ∧ extensions.filter (·.extn_id = ocsp_nonce_oid) = [] := by
  induction extensions with
  | nil => simp [extract_from, eq_comm]
  | cons extension rest ih =>
    by_cases hoid : extension.extn_id = ocsp_nonce_oid
    · simp [extract_from, hoid, check_bind_eq_ok]
    · simp [extract_from, hoid, ih]

theorem extract_from_none {extensions : List Extension} {nonce : Option Bytes} :
    extract_from crates path none extensions = .ok nonce ↔
      (nonce = none ∧ nonce_extensions (some extensions) = []) ∨
        ∃ found, nonce = some found ∧ Echoes crates (some extensions) found := by
  unfold Echoes nonce_extensions
  induction extensions with
  | nil => simp [extract_from, eq_comm]
  | cons extension rest ih =>
    by_cases hoid : extension.extn_id = ocsp_nonce_oid
    · simp only [extract_from, hoid, ne_eq, not_true_eq_false, if_false, Option.isSome_none,
        Bool.false_eq_true, check_bind_eq_ok, refuse_if_eq_ok, not_false_eq_true, true_and]
      simp only [bind_eq_ok, map_err_eq_ok, extract_from_some, Option.getD_some, List.filter_cons,
        hoid, decide_true, if_true, reduceCtorEq, and_false, false_or]
      constructor
      · rintro ⟨found, hdecode, rfl, hrest⟩
        exact ⟨found, rfl, extension, by rw [hrest], hdecode⟩
      · rintro ⟨found, rfl, other, hother, hdecode⟩
        obtain ⟨rfl, hrest⟩ := List.cons.inj hother
        exact ⟨found, hdecode, rfl, hrest⟩
    · simpa [extract_from, hoid] using ih

theorem extract_ocsp_nonce_eq_ok {extensions : Option (List Extension)} {nonce : Option Bytes} :
    extract_ocsp_nonce crates path extensions = .ok nonce ↔
      (nonce = none ∧ nonce_extensions extensions = []) ∨
        ∃ found, nonce = some found ∧ Echoes crates extensions found := by
  cases extensions with
  | none => simp [extract_ocsp_nonce, nonce_extensions, Echoes, eq_comm]
  | some extensions => exact extract_from_none

theorem validate_ocsp_nonce_eq_ok {extensions : Option (List Extension)}
    {expected_nonce : Option Bytes} {nonce_mode : OcspNonceMode} :
    validate_ocsp_nonce crates path extensions expected_nonce nonce_mode = .ok () ↔
      NonceRule crates extensions expected_nonce nonce_mode := by
  unfold validate_ocsp_nonce
  rw [check_bind_eq_ok, refuse_if_eq_ok]
  cases expected_nonce with
  | none => cases nonce_mode <;> simp [NonceRule]
  | some expected =>
    simp only [reduceCtorEq, and_false, not_false_eq_true, true_and, bind_eq_ok,
      extract_ocsp_nonce_eq_ok]
    cases nonce_mode with
    | Disabled =>
      simp only [NonceRule, reduceCtorEq, false_or, pure_eq_ok, and_true]
      constructor
      · rintro ⟨nonce, ⟨-, hnone⟩ | ⟨found, -, hfound⟩⟩
        · exact .inl hnone
        · exact .inr ⟨found, hfound⟩
      · rintro (hnone | ⟨found, hfound⟩)
        · exact ⟨none, .inl ⟨rfl, hnone⟩⟩
        · exact ⟨some found, .inr ⟨found, rfl, hfound⟩⟩
    | Preferred =>
      simp only [NonceRule, Option.some.injEq]
      constructor
      · rintro ⟨nonce, ⟨rfl, hnone⟩ | ⟨found, rfl, hfound⟩, hsame⟩
        · exact ⟨expected, rfl, .inl hnone⟩
        · obtain rfl : found = expected := by simpa using hsame
          exact ⟨found, rfl, .inr hfound⟩
      · rintro ⟨_, rfl, hnone | hfound⟩
        · exact ⟨none, .inl ⟨rfl, hnone⟩, rfl⟩
        · exact ⟨some expected, .inr ⟨expected, rfl, hfound⟩, by simp⟩
    | Required =>
      simp only [NonceRule, Option.some.injEq, bind_eq_ok, ok_or_eq_ok, refuse_if_eq_ok, ne_eq,
        not_not]
      constructor
      · rintro ⟨nonce, ⟨rfl, -⟩ | ⟨found, rfl, hfound⟩, echoed, hechoed, hsame⟩
        · cases hechoed
        · obtain rfl := Option.some.inj hechoed
          exact ⟨found, hsame.symm, hfound⟩
      · rintro ⟨_, rfl, hfound⟩
        exact ⟨some expected, .inr ⟨expected, rfl, hfound⟩, expected, rfl, rfl⟩

/-! ## The signature -/

theorem verify_with_candidates_eq_ok {key : EndEntityCert} {signature message : Bytes}
    {error_text : VerifyError → String} {candidates : List Algorithm} {last : Option VerifyError} :
    verify_with_candidates crates key signature message error_text last candidates = .ok () ↔
      ∃ before algorithm after, candidates = before ++ algorithm :: after ∧
        (∀ other ∈ before, ∃ text, crates.verify_signature key other message signature =
          .error (.UnsupportedSignatureAlgorithmForPublicKeyContext text)) ∧
        crates.verify_signature key algorithm message signature = .ok () := by
  induction candidates generalizing last with
  | nil => cases last <;> simp [verify_with_candidates]
  | cons candidate rest ih =>
    rw [verify_with_candidates]
    split
    · rename_i u hverify
      simp only [true_iff]
      exact ⟨[], candidate, rest, rfl, by simp, hverify⟩
    · rename_i text hmismatch
      rw [ih]
      constructor
      · rintro ⟨before, algorithm, after, rfl, hbefore, hverify⟩
        refine ⟨candidate :: before, algorithm, after, rfl, ?_, hverify⟩
        exact List.forall_mem_cons.mpr ⟨⟨text, hmismatch⟩, hbefore⟩
      · rintro ⟨before, algorithm, after, hsplit, hbefore, hverify⟩
        cases before with
        | nil =>
          obtain ⟨rfl, -⟩ := List.cons.inj hsplit
          rw [hmismatch] at hverify
          cases hverify
        | cons first before =>
          obtain ⟨-, hrest⟩ := List.cons.inj hsplit
          exact ⟨before, algorithm, after, hrest, (List.forall_mem_cons.mp hbefore).2, hverify⟩
    · rename_i error hother hfails
      simp only [reduceCtorEq, false_iff]
      rintro ⟨before, algorithm, after, hsplit, hbefore, hverify⟩
      cases before with
      | nil =>
        obtain ⟨rfl, -⟩ := List.cons.inj hsplit
        rw [hfails] at hverify
        cases hverify
      | cons first before =>
        obtain ⟨rfl, -⟩ := List.cons.inj hsplit
        obtain ⟨text, hmismatch⟩ := hbefore candidate List.mem_cons_self
        rw [hfails] at hmismatch
        exact hother text (Except.error.inj hmismatch)

theorem verify_signature_eq_ok {certificate : Certificate Name}
    {algorithm_der signature message : Bytes} { scope_prefix error_suffix : String} :
    verify_signature_with_webpki crates path certificate algorithm_der signature message
        scope_prefix error_suffix = .ok () ↔
      CertificateVerifies crates certificate algorithm_der signature message := by
  unfold verify_signature_with_webpki CertificateVerifies KeyVerifies
  simp only [bind_eq_ok, map_err_eq_ok, refuse_if_eq_ok, exists_const, verify_with_candidates_eq_ok]
  constructor
  · rintro ⟨certificate_der, hencode, key, hkey, -, hverify⟩
    exact ⟨certificate_der, key, hencode, hkey, hverify⟩
  · rintro ⟨certificate_der, key, hencode, hkey, before, algorithm, after, hsplit, hverify⟩
    refine ⟨certificate_der, hencode, key, hkey, ?_, before, algorithm, after, hsplit, hverify⟩
    rw [hsplit]
    exact List.append_ne_nil_of_right_ne_nil before (List.cons_ne_nil algorithm after)

theorem algorithm_bytes_eq_ok {algorithm : AlgorithmIdentifier} {context : String} {der : Bytes} :
    algorithm_identifier_value_bytes crates path algorithm context = .ok der ↔
      ∃ oid_der, crates.encode_object_identifier algorithm.algorithm = .ok oid_der ∧
        oid_der ++ algorithm.parameters.getD [] = der := by
  unfold algorithm_identifier_value_bytes
  simp only [bind_eq_ok, map_err_eq_ok, pure_eq_ok, Except.ok.injEq]

theorem signature_bytes_eq_ok {signature : BitString} {bytes : Bytes} :
    signature_bytes path signature = .ok bytes ↔
      8 ∣ signature.length ∧ signature.as_raw_slice = bytes := by
  unfold signature_bytes
  rw [check_bind_eq_ok, refuse_if_eq_ok, pure_eq_ok, Except.ok.injEq, not_not,
    Nat.dvd_iff_mod_eq_zero]

/-- A signed text is checked in four steps; together they ask that the certificate verifies it. -/
theorem verifies_iff {certificate : Certificate Name} {algorithm : AlgorithmIdentifier}
    {signature : BitString} {message : Bytes} {context scope_prefix error_suffix : String} :
    (∃ algorithm_der, algorithm_identifier_value_bytes crates path algorithm context = .ok algorithm_der ∧
      ∃ signature_value, signature_bytes path signature = .ok signature_value ∧
        verify_signature_with_webpki crates path certificate algorithm_der signature_value message
          scope_prefix error_suffix = .ok ()) ↔
      Verifies crates certificate algorithm signature message := by
  unfold Verifies
  simp only [algorithm_bytes_eq_ok, signature_bytes_eq_ok, verify_signature_eq_ok]
  constructor
  · rintro ⟨_, ⟨oid_der, hoid, rfl⟩, _, ⟨hwhole, rfl⟩, hverify⟩
    exact ⟨hwhole, oid_der, hoid, hverify⟩
  · rintro ⟨hwhole, oid_der, hoid, hverify⟩
    exact ⟨_, ⟨oid_der, hoid, rfl⟩, _, ⟨hwhole, rfl⟩, hverify⟩

/-! ## The signer -/

theorem to_string_injective {oid oid' : ObjectIdentifier} (hne : oid ≠ []) (hne' : oid' ≠ [])
    (h : oid.to_string = oid'.to_string) : oid = oid' := by
  have hdot : ∀ {arcs : List Nat}, ∀ part ∈ arcs.map decimal, '.' ∉ part := by
    intro arcs part hpart
    obtain ⟨arc, -, rfl⟩ := List.mem_map.mp hpart
    exact notMem_decimal (by decide) arc
  have hparts : oid.map decimal = oid'.map decimal :=
    joined_injective hdot hdot (by simpa using hne) (by simpa using hne') h
  exact decimal_injective.list_map hparts

/-- The identifier is compared as a text, and that text is the one of no other identifier. -/
theorem to_string_eq_iff {oid : ObjectIdentifier} :
    oid.to_string = "1.3.6.1.5.5.7.3.9".toList ↔ oid = id_kp_OCSPSigning := by
  have htext : "1.3.6.1.5.5.7.3.9".toList = id_kp_OCSPSigning.to_string := by decide
  rw [htext]
  refine ⟨fun h => ?_, fun h => congrArg _ h⟩
  refine to_string_injective ?_ (List.cons_ne_nil _ _) h
  rintro rfl
  cases h

theorem usage_signs_iff {usages : List ObjectIdentifier} :
    usages.any (·.to_string = "1.3.6.1.5.5.7.3.9".toList) = true ↔ id_kp_OCSPSigning ∈ usages := by
  simp only [to_string_eq_iff, List.any_eq_true, decide_eq_true_eq, exists_eq_right]

theorem verify_certificate_signature_eq_ok {signer issuer : Certificate Name} :
    verify_certificate_signature_with_webpki crates path signer issuer = .ok () ↔
      ∃ tbs_der, crates.encode_tbs_certificate signer.tbs_certificate = .ok tbs_der ∧
        Verifies crates issuer signer.signature_algorithm signer.signature_value tbs_der := by
  unfold verify_certificate_signature_with_webpki
  simp only [bind_eq_ok, map_err_eq_ok, verifies_iff]

theorem inspect_extension_eq_ok {α : Type} {decode : Bytes → Except String α}
    {cert : Certificate Name} {oid label : String} {value : Option α} :
    inspect_certificate_extension decode cert oid label = .ok value ↔
      (value = none ∧ find_certificate_extension cert oid = none) ∨
      ∃ held extension, value = some held ∧ find_certificate_extension cert oid = some extension ∧
        decode extension.extn_value = .ok held := by
  unfold inspect_certificate_extension
  cases find_certificate_extension cert oid with
  | none => simp [eq_comm]
  | some extension =>
    simp only [map_err_eq_ok, map_eq_ok, Option.some.injEq]
    constructor
    · rintro ⟨held, hdecode, rfl⟩
      exact .inr ⟨held, extension, rfl, rfl, hdecode⟩
    · rintro (⟨-, hnone⟩ | ⟨held, _, rfl, rfl, hdecode⟩)
      · cases hnone
      · exact ⟨held, hdecode, rfl⟩

theorem bit_string_flag_iff {bits : BitString} {index : Nat} :
    bit_string_flag bits index = true ↔ bits[index]? = some true := by
  unfold bit_string_flag
  cases bits[index]? <;> simp

theorem authorize_ocsp_signer_eq_ok [DecidableEq Name] {signer issuer : Certificate Name}
    {policy : OcspResponderPolicy} {now : Instant} :
    authorize_ocsp_signer crates path signer issuer policy now = .ok () ↔
      Authorized crates issuer signer policy now := by
  unfold authorize_ocsp_signer Authorized
  by_cases hself : signer = issuer
  · simp [hself]
  simp only [hself, if_false, false_or, check_bind_eq_ok, refuse_if_eq_ok, ne_eq, not_not,
    verify_certificate_signature_eq_ok, Bool.not_eq_false]
  simp only [bind_eq_ok, ok_or_eq_ok, certificate_extended_key_usage, certificate_key_usage,
    inspect_extension_eq_ok, refuse_if_eq_ok, exists_const, Bool.not_eq_false, usage_signs_iff]
  constructor
  · rintro ⟨hpolicy, hnamed, hissued, hvalid, _, hfound, usages, rfl, hsigning, usage, husage, hflag⟩
    refine ⟨hpolicy, hnamed, hissued, hvalid, ?_, ?_⟩
    · obtain ⟨hnone, -⟩ | ⟨_, extension, heq, hextension, hdecode⟩ := hfound
      · cases hnone
      · obtain rfl := Option.some.inj heq
        exact ⟨extension, usages, hextension, hdecode, hsigning⟩
    · intro extension hextension
      obtain ⟨-, hnone⟩ | ⟨bits, _, rfl, hother, hdecode⟩ := husage
      · rw [hnone] at hextension
        cases hextension
      · rw [hother] at hextension
        obtain rfl := Option.some.inj hextension
        rw [refuse_if_eq_ok, Bool.not_eq_false, bit_string_flag_iff] at hflag
        exact ⟨bits, hdecode, hflag⟩
  · rintro ⟨hpolicy, hnamed, hissued, hvalid, ⟨extension, usages, hextension, hdecode, hsigning⟩, hflag⟩
    refine ⟨hpolicy, hnamed, hissued, hvalid, some usages, ?_, usages, rfl, hsigning, ?_⟩
    · exact .inr ⟨usages, extension, rfl, hextension, hdecode⟩
    · cases hfind : find_certificate_extension signer "2.5.29.15" with
      | none => exact ⟨none, .inl ⟨rfl, rfl⟩, rfl⟩
      | some extension =>
        obtain ⟨bits, hbits, hset⟩ := hflag extension hfind
        refine ⟨some bits, .inr ⟨bits, extension, rfl, rfl, hbits⟩, ?_⟩
        rw [refuse_if_eq_ok, Bool.not_eq_false, bit_string_flag_iff]
        exact hset

/-! ## The responder -/

theorem responder_id_matches (encodes : EncodesNames crates) (responder_id : ResponderId Name)
    (cert : Certificate Name) :
    ∃ b, responder_id_matches_certificate crates path responder_id cert = .ok b ∧
      (b = true ↔ Identifies crates cert responder_id) := by
  cases responder_id with
  | ByKey key_hash =>
    refine ⟨_, rfl, ?_⟩
    rw [decide_eq_true_iff]
    rfl
  | ByName name =>
    obtain ⟨name_der, hname⟩ := encodes.succeeds name
    obtain ⟨subject_der, hsubject⟩ := encodes.succeeds cert.tbs_certificate.subject
    refine ⟨decide (name_der = subject_der), ?_, ?_⟩
    · simp [responder_id_matches_certificate, hname, hsubject, Except.mapError]
    · rw [decide_eq_true_iff]
      constructor
      · rintro rfl
        exact encodes.injective _ _ _ hname hsubject
      · intro (hsame : name = _)
        rw [hsame, hsubject] at hname
        exact (Except.ok.inj hname).symm

theorem validate_signature_eq_ok [DecidableEq Name] (encodes : EncodesNames crates)
    {basic : BasicOcspResponse Name} {issuer : Certificate Name} {policy : OcspResponderPolicy}
    {now : Instant} :
    validate_basic_ocsp_response_signature crates path basic issuer policy now = .ok () ↔
      ∃ certificate ∈ issuer :: basic.certs.getD [],
        Identifies crates certificate basic.tbs_response_data.responder_id ∧
        Signs crates certificate basic ∧ Authorized crates issuer certificate policy now := by
  have hpicked : ∀ certificate, ∃ b, responder_id_matches_certificate crates path
      basic.tbs_response_data.responder_id certificate = .ok b := fun certificate =>
    (responder_id_matches encodes _ certificate).imp fun _ h => h.1
  have hmatches : ∀ certificate, responder_id_matches_certificate crates path
      basic.tbs_response_data.responder_id certificate = .ok true ↔
      Identifies crates certificate basic.tbs_response_data.responder_id := by
    intro certificate
    obtain ⟨b, hb, hiff⟩ := @responder_id_matches _ _ _ _ path encodes
      basic.tbs_response_data.responder_id certificate
    rw [hb, ← hiff, Except.ok.injEq]
  unfold validate_basic_ocsp_response_signature Signs validate_ocsp_signer_candidate
  simp only [bind_eq_ok, exists_unit, map_err_eq_ok, search_eq_ok hpicked, hmatches,
    authorize_ocsp_signer_eq_ok]
  constructor
  · rintro ⟨data_der, hdata, der, hder, bytes, hbytes, certificate, hmem, hid, hauthorized, hverify⟩
    refine ⟨certificate, hmem, hid, ⟨data_der, hdata, ?_⟩, hauthorized⟩
    exact verifies_iff.mp ⟨der, hder, bytes, hbytes, hverify⟩
  · rintro ⟨certificate, hmem, hid, ⟨data_der, hdata, hverifies⟩, hauthorized⟩
    obtain ⟨der, hder, bytes, hbytes, hverify⟩ := verifies_iff.mpr hverifies
    exact ⟨data_der, hdata, der, hder, bytes, hbytes, certificate, hmem, hid, hauthorized, hverify⟩

/-! ## The response -/

theorem matching_single_response_eq_ok {data : ResponseData Name} {cert_id : CertId}
    {single : SingleResponse} :
    matching_single_response_for_cert path data cert_id = .ok single ↔
      data.responses.filter (·.cert_id = cert_id) = [single] := by
  unfold matching_single_response_for_cert
  split <;> simp [*]

theorem good_now_iff {data : ResponseData Name} {single : SingleResponse} {now : Instant} :
    (validate_ocsp_cert_status path single = .ok () ∧
      validate_ocsp_response_time path data single now = .ok ()) ↔
      GoodNow single data.produced_at now := by
  have hstatus : validate_ocsp_cert_status path single = .ok () ↔ single.cert_status = .Good := by
    unfold validate_ocsp_cert_status
    split <;> simp [*]
  have htime : validate_ocsp_response_time path data single now = .ok () ↔
      single.this_update ≤ data.produced_at ∧ single.this_update ≤ now ∧
        ∀ next_update ∈ single.next_update, now ≤ next_update := by
    unfold validate_ocsp_response_time
    cases single.next_update <;> simp [check_bind_eq_ok]
  rw [hstatus, htime]
  exact ⟨fun ⟨hgood, hproduced, hbegun, hcurrent⟩ => ⟨hgood, hproduced, hbegun, hcurrent⟩,
    fun h => ⟨h.good, h.produced, h.begun, h.current⟩⟩

theorem parse_chain_eq_ok {certs : List Bytes} {context : String}
    {leaf issuer : Certificate Name} :
    parse_leaf_and_issuer_certificates crates path certs context = .ok (leaf, issuer) ↔
      Chain crates certs leaf issuer := by
  unfold parse_leaf_and_issuer_certificates Chain
  match certs with
  | [] => simp
  | [_] => simp
  | leaf_der :: issuer_der :: rest =>
    simp only [bind_eq_ok, map_err_eq_ok, pure_eq_ok, Except.ok.injEq, Prod.mk.injEq]
    constructor
    · rintro ⟨_, hleaf, _, hissuer, rfl, rfl⟩
      exact ⟨leaf_der, issuer_der, rest, rfl, hleaf, hissuer⟩
    · rintro ⟨_, _, _, heq, hleaf, hissuer⟩
      cases heq
      exact ⟨leaf, hleaf, issuer, hissuer, rfl, rfl⟩

theorem build_cert_id_eq_ok {certs : List Bytes} {cert_id : CertId} :
    build_rasn_ocsp_cert_id_from_chain crates path certs = .ok cert_id ↔
      ∃ leaf issuer, Chain crates certs leaf issuer ∧ IdOf crates leaf issuer cert_id := by
  unfold build_rasn_ocsp_cert_id_from_chain IdOf
  simp only [bind_eq_ok, map_err_eq_ok, pure_eq_ok, Except.ok.injEq, Prod.exists,
    parse_chain_eq_ok]
  constructor
  · rintro ⟨leaf, issuer, hchain, name_der, hname, rfl⟩
    exact ⟨leaf, issuer, hchain, name_der, hname, rfl⟩
  · rintro ⟨leaf, issuer, hchain, name_der, hname, rfl⟩
    exact ⟨leaf, issuer, hchain, name_der, hname, rfl⟩

theorem Chain.unique {certs : List Bytes} {leaf leaf' issuer issuer' : Certificate Name}
    (h : Chain crates certs leaf issuer) (h' : Chain crates certs leaf' issuer') :
    leaf = leaf' ∧ issuer = issuer' := by
  obtain ⟨leaf_der, issuer_der, rest, rfl, hleaf, hissuer⟩ := h
  obtain ⟨_, _, _, heq, hleaf', hissuer'⟩ := h'
  cases heq
  rw [hleaf] at hleaf'
  rw [hissuer] at hissuer'
  exact ⟨Except.ok.inj hleaf', Except.ok.inj hissuer'⟩

/-- A response is accepted exactly when it is a successful one about the leaf of the chain, fresh
and of the request's nonce, and a certificate that the issuer stands for has signed it. -/
theorem validate_ocsp_response_iff [DecidableEq Name] (encodes : EncodesNames crates)
    (certs : Except String (List Bytes)) (response_der : Bytes) (expected_nonce : Option Bytes)
    (nonce_mode : OcspNonceMode) (policy : OcspResponderPolicy) (now : Instant) :
    validate_ocsp_response_for_certificate_with_options crates path certs response_der
        expected_nonce nonce_mode policy now = .ok () ↔
      ∃ chain leaf issuer cert_id response basic, certs = .ok chain ∧
        Chain crates chain leaf issuer ∧ IdOf crates leaf issuer cert_id ∧
        crates.decode_response response_der = .ok response ∧ Holds crates response basic ∧
        Acceptable crates issuer cert_id expected_nonce nonce_mode policy now basic := by
  unfold validate_ocsp_response_for_certificate_with_options validate_basic_ocsp_response Holds
    validate_ocsp_produced_at
  simp only [bind_eq_ok, exists_unit, map_err_eq_ok, refuse_if_eq_ok, ok_or_eq_ok, Prod.exists,
    parse_chain_eq_ok, build_cert_id_eq_ok, validate_ocsp_nonce_eq_ok,
    validate_signature_eq_ok encodes, matching_single_response_eq_ok, not_not, ne_eq, not_lt,
    good_now_iff]
  constructor
  · rintro ⟨chain, hcerts, cert_id, ⟨leaf, issuer, hchain, hid⟩, _, _, hchain', response, hresponse,
      hsuccessful, bytes, hbytes, htype, basic, hbasic, ⟨hproduced, hnonce, hsigned⟩, single,
      hsingle, hgood⟩
    obtain ⟨rfl, rfl⟩ := hchain.unique hchain'
    exact ⟨chain, leaf, issuer, cert_id, response, basic, hcerts, hchain, hid, hresponse,
      ⟨hsuccessful, bytes, hbytes, htype, hbasic⟩, hproduced, hnonce, hsigned, single, hsingle, hgood⟩
  · rintro ⟨chain, leaf, issuer, cert_id, response, basic, hcerts, hchain, hid, hresponse,
      ⟨hsuccessful, bytes, hbytes, htype, hbasic⟩, hproduced, hnonce, hsigned, single, hsingle, hgood⟩
    exact ⟨chain, hcerts, cert_id, ⟨leaf, issuer, hchain, hid⟩, leaf, issuer, hchain, response,
      hresponse, hsuccessful, bytes, hbytes, htype, basic, hbasic, ⟨hproduced, hnonce, hsigned⟩, single,
      hsingle, hgood⟩

/-- What was accepted with the nonce of a request is accepted without one. -/
theorem validate_without_nonce [DecidableEq Name] {certs : Except String (List Bytes)}
    {response_der : Bytes} {expected_nonce : Option Bytes} {nonce_mode : OcspNonceMode}
    {policy : OcspResponderPolicy} {now : Instant}
    (h : validate_ocsp_response_for_certificate_with_options crates path certs response_der
      expected_nonce nonce_mode policy now = .ok ()) :
    validate_ocsp_response_for_certificate_with_options crates path certs response_der
      none .Disabled policy now = .ok () := by
  unfold validate_ocsp_response_for_certificate_with_options validate_basic_ocsp_response at h ⊢
  simp only [bind_eq_ok, exists_unit] at h ⊢
  obtain ⟨chain, hchain, cert_id, hcert_id, issuer, hissuer, response, hresponse, hstatus, bytes,
    hbytes, htype, basic, hbasic, ⟨hproduced, -, hsigned⟩, hrest⟩ := h
  have hnonce : validate_ocsp_nonce crates path basic.tbs_response_data.response_extensions none
      .Disabled = .ok () := validate_ocsp_nonce_eq_ok.mpr (.inl rfl)
  exact ⟨chain, hchain, cert_id, hcert_id, issuer, hissuer, response, hresponse, hstatus, bytes,
    hbytes, htype, basic, hbasic, ⟨hproduced, hnonce, hsigned⟩, hrest⟩

end Checks

/-! A response of a responder that the issuer `a` delegated to. A name is its encoding, and a
certificate is read back from the bytes that it is written as. -/

namespace delegation

/-- The name whose common name is that letter. -/
def named (letter : UInt8) : Bytes := [48, 12, 49, 10, 48, 8, 6, 3, 85, 4, 3, 12, 1, letter]

def ecdsa_with_SHA256 : AlgorithmIdentifier := ⟨[1, 2, 840, 10045, 4, 3, 2], none⟩

def usages : List Extension :=
  [⟨[2, 5, 29, 37], false, [48, 10, 6, 8, 43, 6, 1, 5, 5, 7, 3, 9]⟩, ⟨[2, 5, 29, 15], true, [3, 2, 7, 128]⟩]

def certificate (serial_number : Int) (subject : Bytes) (key : BitString)
    (extensions : Option (List Extension)) : Certificate Bytes :=
  ⟨⟨2, serial_number, ecdsa_with_SHA256, named 97, ⟨.Utc 0, .Utc 9000000000⟩, subject,
    ⟨ecdsa_with_SHA256, key⟩, none, none, extensions⟩, ecdsa_with_SHA256, List.replicate 8 true⟩

def issuer : Certificate Bytes := certificate 1 (named 97) [true] none

def leaf : Certificate Bytes := certificate 2 (named 98) [false] none

def responder : Certificate Bytes := certificate 3 (named 99) [false, true] (some usages)

def single : SingleResponse :=
  ⟨⟨⟨ID_SHA1, none⟩, named 97, issuer.subject_public_key_bytes, 2⟩, .Good, 3000000000,
    some 8000000000, none⟩

def basic : BasicOcspResponse Bytes :=
  ⟨⟨0, .ByName (named 99), 4000000000, [single], none⟩, ecdsa_with_SHA256,
    List.replicate 16 false, some [leaf, responder]⟩

def crates : Crates Bytes Unit Bytes where
  decode_certificate der :=
    if der = [1] then .ok issuer else if der = [2] then .ok leaf else .error "unexpected tag"
  decode_response der :=
    if der = [5] then .ok ⟨.Successful, some ⟨basic_ocsp_response_type_oid, [6]⟩⟩
    else .error "unexpected tag"
  decode_basic_response der := if der = [6] then .ok basic else .error "unexpected tag"
  decode_octet_string _ := .error "unexpected tag"
  decode_ext_key_usage der :=
    if der = [48, 10, 6, 8, 43, 6, 1, 5, 5, 7, 3, 9] then .ok [id_kp_OCSPSigning]
    else .error "unexpected tag"
  decode_key_usage der := if der = [3, 2, 7, 128] then .ok [true] else .error "unexpected tag"
  encode_name name := .ok name
  encode_object_identifier _ := .ok [6, 8, 42, 134, 72, 206, 61, 4, 3, 2]
  encode_response_data _ := .ok [7]
  encode_tbs_certificate tbs := .ok [8, UInt8.ofNat tbs.serial_number.toNat]
  encode_certificate certificate := .ok [UInt8.ofNat certificate.tbs_certificate.serial_number.toNat]
  sha1_digest bytes := bytes
  all_verification_algs := [()]
  signature_alg_id _ := [6, 8, 42, 134, 72, 206, 61, 4, 3, 2]
  end_entity_cert der := .ok der
  verify_signature key _ message signature :=
    if (key, message, signature) ∈ [([1], [8, 3], [255]), ([3], [7], [0, 0])] then .ok ()
    else .error (.Other "InvalidSignatureForPublicKey")

theorem encodes_names : EncodesNames crates where
  succeeds name := ⟨name, rfl⟩
  injective name name' der h h' := by
    cases h
    cases h'
    rfl

theorem delegated : Delegated crates issuer responder 5000000000 where
  named := rfl
  issued := ⟨_, rfl, by decide, _, rfl, _, _, rfl, rfl, [], (), [], rfl, by simp, rfl⟩
  valid := by decide
  ocsp_signing := ⟨_, [id_kp_OCSPSigning], rfl, rfl, by decide⟩
  digital_signature extension h := by
    obtain rfl := Option.some.inj h
    exact ⟨_, rfl, rfl⟩

end delegation

open delegation in
theorem validate_ocsp_response_iff_delegated :
    validate_ocsp_response_for_certificate_with_options crates "/etc/rginx/site.pem"
      (.ok [[2], [1]]) [5] none .Disabled .IssuerOrDelegated 5000000000 = .ok () := by
  apply (validate_ocsp_response_iff encodes_names _ _ _ _ _ _).mpr
  refine ⟨_, leaf, issuer, single.cert_id, _, basic, rfl, ⟨_, _, _, rfl, rfl, rfl⟩, ⟨_, rfl, rfl⟩,
    rfl, ⟨rfl, _, rfl, rfl, rfl⟩, by decide, .inl rfl, ?_, single, rfl, rfl, by decide, by decide,
    by simp [single]⟩
  refine ⟨responder, by simp [basic], rfl, ?_, .inr ⟨by decide, delegated⟩⟩
  exact ⟨_, rfl, by decide, _, rfl, _, _, rfl, rfl, [], (), [], rfl, by simp, rfl⟩

end rginx.http.ocsp
