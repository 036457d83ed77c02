-- The checks of an OCSP response, from `tls/ocsp/validate.rs`, `signer.rs`, `nonce.rs`, `time.rs`
-- and `der_helpers.rs` of the crate `rginx-http`. A certificate file is what loading it gives;
-- the codec of `rasn`, the signatures of `webpki` and `Sha1::digest` are parameters. Instants are
-- in nanoseconds, and one reading of the clock stands for those that a call makes.
import Rginx.ListenerConfigs
import Rginx.ResultChains

open rust_text rust_net rust_result rginx.config

namespace rginx.http.ocsp

/-! ## What is decoded -/

abbrev Bytes := List UInt8

abbrev ObjectIdentifier := List Nat

def ObjectIdentifier.to_string (oid : ObjectIdentifier) : Text := joined ['.'] (oid.map decimal)

abbrev BitString := List Bool

/-- The first bit is the highest one of the first byte; zeros fill the last byte. -/
def BitString.as_raw_slice : BitString → Bytes
  | [] => []
  | a :: b :: c :: d :: e :: f :: g :: h :: rest =>
    byte [a, b, c, d, e, f, g, h] :: as_raw_slice rest
  | bits => [byte (bits.rightpad 8 false)]
where
  byte (bits : List Bool) : UInt8 := UInt8.ofNat (bits.foldl (fun n bit => 2 * n + bit.toNat) 0)

structure AlgorithmIdentifier where
  algorithm : ObjectIdentifier
  parameters : Option Bytes
  deriving DecidableEq

structure Extension where
  extn_id : ObjectIdentifier
  critical : Bool
  extn_value : Bytes
  deriving DecidableEq

abbrev Instant := Int

/-- `DateTime::timestamp`: whole seconds. -/
def Instant.timestamp (instant : Instant) : Int := instant / 1000000000

inductive Time
  | Utc (value : Instant)
  | General (value : Instant)
  deriving DecidableEq

structure Validity where
  not_before : Time
  not_after : Time
  deriving DecidableEq

structure SubjectPublicKeyInfo where
  algorithm : AlgorithmIdentifier
  subject_public_key : BitString
  deriving DecidableEq

structure TbsCertificate (Name : Type) where
  version : Nat
  serial_number : Int
  signature : AlgorithmIdentifier
  issuer : Name
  validity : Validity
  subject : Name
  subject_public_key_info : SubjectPublicKeyInfo
  issuer_unique_id : Option BitString
  subject_unique_id : Option BitString
  extensions : Option (List Extension)
  deriving DecidableEq

structure Certificate (Name : Type) where
  tbs_certificate : TbsCertificate Name
  signature_algorithm : AlgorithmIdentifier
  signature_value : BitString
  deriving DecidableEq

structure CertId where
  hash_algorithm : AlgorithmIdentifier
  issuer_name_hash : Bytes
  issuer_key_hash : Bytes
  serial_number : Int
  deriving DecidableEq

inductive CertStatus
  | Good
  | Revoked (revocation_time : Instant) (revocation_reason : Option Nat)
  | Unknown
  deriving DecidableEq

structure SingleResponse where
  cert_id : CertId
  cert_status : CertStatus
  this_update : Instant
  next_update : Option Instant
  single_extensions : Option (List Extension)

inductive ResponderId (Name : Type)
  | ByName (name : Name)
  | ByKey (key_hash : Bytes)

structure ResponseData (Name : Type) where
  version : Int
  responder_id : ResponderId Name
  produced_at : Instant
  responses : List SingleResponse
  response_extensions : Option (List Extension)

structure BasicOcspResponse (Name : Type) where
  tbs_response_data : ResponseData Name
  signature_algorithm : AlgorithmIdentifier
  signature : BitString
  certs : Option (List (Certificate Name))

inductive OcspResponseStatus
  | Successful
  | MalformedRequest
  | InternalError
  | TryLater
  | SigRequired
  | Unauthorized
  deriving DecidableEq

/-- What `\x7b:?\x7d` writes. -/
def OcspResponseStatus.debug : OcspResponseStatus → String
  | .Successful => "Successful"
  | .MalformedRequest => "MalformedRequest"
  | .InternalError => "InternalError"
  | .TryLater => "TryLater"
  | .SigRequired => "SigRequired"
  | .Unauthorized => "Unauthorized"

structure ResponseBytes where
  type : ObjectIdentifier
  response : Bytes

structure OcspResponse where
  status : OcspResponseStatus
  bytes : Option ResponseBytes

/-! ## What is called -/

/-- The errors of `webpki` that a check tells apart. -/
inductive VerifyError
  | UnsupportedSignatureAlgorithmForPublicKeyContext (text : String)
  | Other (text : String)

def VerifyError.to_string : VerifyError → String
  | .UnsupportedSignatureAlgorithmForPublicKeyContext text => text
  | .Other text => text

structure Crates (Name Algorithm EndEntityCert : Type) where
  decode_certificate : Bytes → Except String (Certificate Name)
  decode_response : Bytes → Except String OcspResponse
  decode_basic_response : Bytes → Except String (BasicOcspResponse Name)
  decode_octet_string : Bytes → Except String Bytes
  decode_ext_key_usage : Bytes → Except String (List ObjectIdentifier)
  decode_key_usage : Bytes → Except String BitString
  encode_name : Name → Except String Bytes
  encode_object_identifier : ObjectIdentifier → Except String Bytes
  encode_response_data : ResponseData Name → Except String Bytes
  encode_tbs_certificate : TbsCertificate Name → Except String Bytes
  encode_certificate : Certificate Name → Except String Bytes
  sha1_digest : Bytes → Bytes
  all_verification_algs : List Algorithm
  signature_alg_id : Algorithm → Bytes
  end_entity_cert : Bytes → Except String EndEntityCert
  verify_signature : EndEntityCert → Algorithm → Bytes → Bytes → Except VerifyError Unit

variable {Name Algorithm EndEntityCert : Type}
  (crates : Crates Name Algorithm EndEntityCert) (path : String)

/-! ## The certificate chain -/

def basic_ocsp_response_type_oid : ObjectIdentifier := [1, 3, 6, 1, 5, 5, 7, 48, 1, 1]

def ID_SHA1 : ObjectIdentifier := [1, 3, 14, 3, 2, 26]

def parse_leaf_and_issuer_certificates (certs : List Bytes) (context : String) :
    Except String (Certificate Name × Certificate Name) :=
  match certs with
  | leaf_der :: issuer_der :: _ => do
    let leaf ← (crates.decode_certificate leaf_der).mapError fun error =>
      s!"failed to parse leaf certificate `{path}` for {context}: {error}"
    let issuer ← (crates.decode_certificate issuer_der).mapError fun error =>
      s!"failed to parse issuer certificate `{path}` for {context}: {error}"
    return (leaf, issuer)
  | _ => .error s!"certificate `{path}` requires a leaf and issuer certificate to build an OCSP request"

def Certificate.subject_public_key_bytes (cert : Certificate Name) : Bytes :=
  BitString.as_raw_slice cert.tbs_certificate.subject_public_key_info.subject_public_key

def build_rasn_ocsp_cert_id_from_chain (certs : List Bytes) : Except String CertId := do
  let (leaf, issuer) ← parse_leaf_and_issuer_certificates crates path certs "OCSP request"
  let issuer_name_der ← (crates.encode_name issuer.tbs_certificate.subject).mapError fun error =>
    s!"failed to encode issuer subject name for certificate `{path}` while building OCSP request: {error}"
  return {
    hash_algorithm := ⟨ID_SHA1, none⟩
    issuer_name_hash := crates.sha1_digest issuer_name_der
    issuer_key_hash := crates.sha1_digest issuer.subject_public_key_bytes
    serial_number := leaf.tbs_certificate.serial_number }

def find_certificate_extension (cert : Certificate Name) (oid : String) : Option Extension :=
  (cert.tbs_certificate.extensions.getD []).find? fun extension =>
    ObjectIdentifier.to_string extension.extn_id = oid.toList

/-- What the first extension of that identifier holds. -/
def inspect_certificate_extension {α : Type} (decode : Bytes → Except String α)
    (cert : Certificate Name) (oid label : String) : Except String (Option α) :=
  match find_certificate_extension cert oid with
  | none => .ok none
  | some extension => ((decode extension.extn_value).map some).mapError fun error =>
      s!"failed to inspect responder certificate {label} for `<embedded>`: {error}"

def certificate_extended_key_usage (cert : Certificate Name) :
    Except String (Option (List ObjectIdentifier)) :=
  inspect_certificate_extension crates.decode_ext_key_usage cert "2.5.29.37" "extended key usage"

def certificate_key_usage (cert : Certificate Name) : Except String (Option BitString) :=
  inspect_certificate_extension crates.decode_key_usage cert "2.5.29.15" "key usage"

def bit_string_flag (value : BitString) (index : Nat) : Bool := value[index]?.getD false

/-- Every byte as two digits. -/
def hex_string (bytes : Bytes) : String :=
  String.ofList (bytes.flatMap fun byte => (Nat.toDigits 16 byte.toNat).leftpad 2 '0')

/-! ## Signatures -/

def algorithm_identifier_value_bytes (algorithm : AlgorithmIdentifier) (context : String) :
    Except String Bytes := do
  let value ← (crates.encode_object_identifier algorithm.algorithm).mapError fun error =>
    s!"{context} for certificate `{path}`: {error}"
  return value ++ algorithm.parameters.getD []

def signature_bytes (signature : BitString) : Except String Bytes := do
  refuse_if (signature.length % 8 ≠ 0)
    s!"failed to parse OCSP signature value for certificate `{path}`: signature BIT STRING contains unused bits"
  return BitString.as_raw_slice signature

def signature_candidates (signature_algorithm_der : Bytes) : List Algorithm :=
  crates.all_verification_algs.filter fun algorithm =>
    crates.signature_alg_id algorithm = signature_algorithm_der

/-- The candidates in order, and the mismatch that was seen last. A candidate for another kind of
key than the certificate's is passed over; the first other one decides. -/
def verify_with_candidates (certificate : EndEntityCert) (signature_value message : Bytes)
    (error_text : VerifyError → String) :
    Option VerifyError → List Algorithm → Except String Unit
  | some error, [] => .error (error_text error)
  | none, [] => .error "candidates should produce an error when none verify"
  | _, algorithm :: rest =>
    match crates.verify_signature certificate algorithm message signature_value with
    | .ok () => .ok ()
    | .error (.UnsupportedSignatureAlgorithmForPublicKeyContext text) =>
      verify_with_candidates certificate signature_value message error_text
        (some (.UnsupportedSignatureAlgorithmForPublicKeyContext text)) rest
    | .error error => .error (error_text error)

def verify_signature_with_webpki (certificate : Certificate Name)
    (signature_algorithm_der signature_value message : Bytes)
    ( scope_prefix error_suffix : String) : Except String Unit := do
  let certificate_der ← (crates.encode_certificate certificate).mapError fun error =>
    s!"failed to encode certificate `{path}` for signature verification: {error}"
  let certificate ← (crates.end_entity_cert certificate_der).mapError fun error =>
    s!"failed to parse certificate `{path}` for signature verification: {error}"
  let candidates := signature_candidates crates signature_algorithm_der
  refuse_if (candidates = [])
    s!"{ scope_prefix} `{path}` uses unsupported signature algorithm `{hex_string signature_algorithm_der}`"
  verify_with_candidates crates certificate signature_value message
    (fun error => s!"{ scope_prefix} `{path}` {error_suffix}: {error.to_string}") none candidates

/-! ## The signer -/

def certificate_valid_now (cert : Certificate Name) (now : Instant) : Bool :=
  seconds cert.tbs_certificate.validity.not_before ≤ now.timestamp ∧
    now.timestamp ≤ seconds cert.tbs_certificate.validity.not_after
where
  seconds : Time → Int
    | .Utc value => value.timestamp
    | .General value => value.timestamp

def responder_id_matches_certificate (responder_id : ResponderId Name) (cert : Certificate Name) :
    Except String Bool :=
  match responder_id with
  | .ByName name => do
    let encoded_name ← (crates.encode_name name).mapError fun error =>
      s!"failed to encode OCSP responderId name for certificate `{path}`: {error}"
    let subject_der ← (crates.encode_name cert.tbs_certificate.subject).mapError fun error =>
      s!"failed to encode responder certificate subject for `{path}`: {error}"
    return encoded_name = subject_der
  | .ByKey key_hash => .ok (crates.sha1_digest cert.subject_public_key_bytes = key_hash)

def verify_certificate_signature_with_webpki (signer issuer : Certificate Name) :
    Except String Unit := do
  let tbs_certificate_der ← (crates.encode_tbs_certificate signer.tbs_certificate).mapError
    fun error => s!"failed to encode responder certificate TBS for `{path}` during issuer signature verification: {error}"
  let signature_algorithm_der ← algorithm_identifier_value_bytes crates path
    signer.signature_algorithm "failed to encode responder certificate signature algorithm"
  let signature_value ← signature_bytes path signer.signature_value
  verify_signature_with_webpki crates path issuer signature_algorithm_der signature_value
    tbs_certificate_der "OCSP response for certificate"
    "uses a responder certificate with an invalid issuer signature"

def authorize_ocsp_signer [DecidableEq Name] (signer issuer : Certificate Name)
    (responder_policy : OcspResponderPolicy) (now : Instant) : Except String Unit := do
  if signer = issuer then
    return
  refuse_if (responder_policy = .IssuerOnly)
    s!"OCSP response for certificate `{path}` uses a delegated responder certificate but policy is issuer_only"
  refuse_if (signer.tbs_certificate.issuer ≠ issuer.tbs_certificate.subject)
    s!"OCSP response for certificate `{path}` uses a responder certificate that is not issued by the certificate issuer"
  verify_certificate_signature_with_webpki crates path signer issuer
  refuse_if (certificate_valid_now signer now = false)
    s!"OCSP response for certificate `{path}` uses an expired or not-yet-valid responder certificate"
  let extended_key_usage ← ok_or
    s!"OCSP response for certificate `{path}` uses a delegated responder certificate without an OCSP signing extended key usage"
    (← certificate_extended_key_usage crates signer)
  refuse_if (extended_key_usage.any (·.to_string = "1.3.6.1.5.5.7.3.9".toList) = false)
    s!"OCSP response for certificate `{path}` uses a delegated responder certificate without an OCSP signing extended key usage"
  if let some key_usage := ← certificate_key_usage crates signer then
    refuse_if (bit_string_flag key_usage 0 = false)
      s!"OCSP response for certificate `{path}` uses a delegated responder certificate without digitalSignature key usage"

def validate_ocsp_signer_candidate [DecidableEq Name] (signer issuer : Certificate Name)
    (tbs_response_der signature_algorithm_der signature_value : Bytes)
    (responder_policy : OcspResponderPolicy) (now : Instant) : Except String Unit := do
  authorize_ocsp_signer crates path signer issuer responder_policy now
  verify_signature_with_webpki crates path signer signature_algorithm_der signature_value
    tbs_response_der "OCSP response for certificate" "has an invalid responder signature"

/-- The issuer is tried first, then the certificates that the response brings. -/
def validate_basic_ocsp_response_signature [DecidableEq Name]
    (basic_response : BasicOcspResponse Name) (issuer : Certificate Name) (responder_policy : OcspResponderPolicy) (now : Instant) :
    Except String Unit := do
  let tbs_response_der ← (crates.encode_response_data basic_response.tbs_response_data).mapError
    fun error => s!"failed to encode OCSP response data for certificate `{path}`: {error}"
  let signature_algorithm_der ← algorithm_identifier_value_bytes crates path
    basic_response.signature_algorithm "failed to encode OCSP signature algorithm"
  let signature_value ← signature_bytes path basic_response.signature
  search (responder_id_matches_certificate crates path basic_response.tbs_response_data.responder_id)
    (fun signer => validate_ocsp_signer_candidate crates path signer issuer tbs_response_der
      signature_algorithm_der signature_value responder_policy now)
    s!"OCSP response for certificate `{path}` does not contain an authorized responder certificate matching responderId"
    none (issuer :: basic_response.certs.getD [])

/-! ## The nonce -/

def ocsp_nonce_oid : ObjectIdentifier := [1, 3, 6, 1, 5, 5, 7, 48, 1, 2]

/-- The rest of the extensions, after those that gave `nonce`. -/
def extract_from (nonce : Option Bytes) : List Extension → Except String (Option Bytes)
  | [] => .ok nonce
  | extension :: rest =>
    if extension.extn_id ≠ ocsp_nonce_oid then extract_from nonce rest
    else do
      refuse_if (nonce.isSome = true)
        s!"OCSP response for certificate `{path}` contains duplicate nonce extensions"
      let parsed_nonce ← (crates.decode_octet_string extension.extn_value).mapError fun error =>
        s!"failed to parse OCSP nonce extension for certificate `{path}`: {error}"
      extract_from (some parsed_nonce) rest

def extract_ocsp_nonce (extensions : Option (List Extension)) : Except String (Option Bytes) :=
  match extensions with
  | none => .ok none
  | some extensions => extract_from crates path none extensions

def validate_ocsp_nonce (response_extensions : Option (List Extension))
    (expected_nonce : Option Bytes) (nonce_mode : OcspNonceMode) : Except String Unit := do
  refuse_if (nonce_mode ≠ .Disabled ∧ expected_nonce = none)
    s!"OCSP response for certificate `{path}` could not validate nonce because the request nonce was unavailable"
  match expected_nonce with
  | none => return
  | some expected_nonce =>
    let response_nonce ← extract_ocsp_nonce crates path response_extensions
    match nonce_mode with
    | .Disabled => return
    | .Preferred =>
      if let some response_nonce := response_nonce then
        refuse_if (response_nonce ≠ expected_nonce)
          s!"OCSP response for certificate `{path}` returned a mismatched nonce"
    | .Required =>
      let response_nonce ← ok_or
        s!"OCSP response for certificate `{path}` did not echo the required nonce" response_nonce
      refuse_if (response_nonce ≠ expected_nonce)
        s!"OCSP response for certificate `{path}` returned a mismatched nonce"

/-! ## The response -/

def validate_ocsp_produced_at (response_data : ResponseData Name) (now : Instant) :
    Except String Unit :=
  refuse_if (now < response_data.produced_at)
    s!"OCSP response for certificate `{path}` is not yet valid (producedAt is in the future)"

def matching_single_response_for_cert (response_data : ResponseData Name)
    (expected_cert_id : CertId) : Except String SingleResponse :=
  match response_data.responses.filter fun response => response.cert_id = expected_cert_id with
  | [] => .error s!"OCSP response for certificate `{path}` does not contain a matching SingleResponse"
  | [response] => .ok response
  | _ :: _ :: _ =>
    .error s!"OCSP response for certificate `{path}` contains multiple matching SingleResponses"

def validate_ocsp_cert_status (response : SingleResponse) : Except String Unit :=
  match response.cert_status with
  | .Good => .ok ()
  | .Revoked _ _ =>
    .error s!"OCSP response for certificate `{path}` reports the certificate as revoked"
  | .Unknown =>
    .error s!"OCSP response for certificate `{path}` reports an unknown certificate status"

def validate_ocsp_response_time (response_data : ResponseData Name) (response : SingleResponse)
    (now : Instant) : Except String Unit := do
  refuse_if (response_data.produced_at < response.this_update)
    s!"OCSP response for certificate `{path}` is inconsistent (producedAt precedes thisUpdate)"
  refuse_if (now < response.this_update)
    s!"OCSP response for certificate `{path}` is not yet valid (thisUpdate is in the future)"
  if let some next_update := response.next_update then
    refuse_if (next_update < now)
      s!"OCSP response for certificate `{path}` is expired (nextUpdate is in the past)"

def validate_basic_ocsp_response [DecidableEq Name] (basic_response : BasicOcspResponse Name)
    (issuer : Certificate Name) (expected_nonce : Option Bytes) (nonce_mode : OcspNonceMode)
    (responder_policy : OcspResponderPolicy) (now : Instant) : Except String Unit := do
  validate_ocsp_produced_at path basic_response.tbs_response_data now
  validate_ocsp_nonce crates path basic_response.tbs_response_data.response_extensions
    expected_nonce nonce_mode
  validate_basic_ocsp_response_signature crates path basic_response issuer responder_policy now

/-- `certs` is what loading the chain at the path gives. -/
def validate_ocsp_response_for_certificate_with_options [DecidableEq Name]
    (certs : Except String (List Bytes)) (response_der : Bytes) (expected_nonce : Option Bytes) (nonce_mode : OcspNonceMode)
    (responder_policy : OcspResponderPolicy) (now : Instant) : Except String Unit := do
  let certs ← certs
  let expected_cert_id ← build_rasn_ocsp_cert_id_from_chain crates path certs
  let (_, issuer) ← parse_leaf_and_issuer_certificates crates path certs "OCSP response validation"
  let response ← (crates.decode_response response_der).mapError fun error =>
    s!"failed to parse OCSP response for certificate `{path}`: {error}"
  refuse_if (response.status ≠ .Successful)
    s!"OCSP response for certificate `{path}` is not successful: {response.status.debug}"
  let response_bytes ← ok_or
    s!"OCSP response for certificate `{path}` is missing response_bytes" response.bytes
  refuse_if (response_bytes.type ≠ basic_ocsp_response_type_oid)
    s!"OCSP response for certificate `{path}` uses unsupported response type `{String.ofList response_bytes.type.to_string}`"
  let basic_response ← (crates.decode_basic_response response_bytes.response).mapError fun error =>
    s!"failed to parse basic OCSP response for certificate `{path}`: {error}"
  validate_basic_ocsp_response crates path basic_response issuer expected_nonce nonce_mode
    responder_policy now
  let matched_response ← matching_single_response_for_cert path basic_response.tbs_response_data
    expected_cert_id
  validate_ocsp_cert_status path matched_response
  validate_ocsp_response_time path basic_response.tbs_response_data matched_response now

end rginx.http.ocsp
