import CvmAttestation.ClientToken
import Mathlib.Data.List.DropRight

/-! What `Attest` does before it talks to the attestation service: the renewal of the AK certificate, the endpoint,
the client payload, and the evidence about the OS, the isolation and the TPM. The payload comes from the caller and
the VCEK certificate from IMDS; both are JSON read without a `try` block. The renewal also reads texts of IMDS, but
catches what that raises. -/

namespace CvmAttestation.Client

open Base

/-- What the caller passes to `Attest`; a null pointer is `none`. -/
structure ClientParameters where
  version : Nat
  attestationEndpointUrl : Option Bytes
  clientPayload : Option Bytes
  deriving DecidableEq, Repr

def clientParamsVersion : Nat := 1

structure OsInfo where
  distroName : Bytes
  distroVersionMajor : Nat
  deriving DecidableEq, Repr

structure TpmInfo where
  aikCert : Bytes
  aikPub : Bytes
  pcrValues : List (Nat × Bytes)
  encryptionKey : Bytes
  certifyInfo : Bytes
  certifyInfoSignature : Bytes
  deriving DecidableEq, Repr

inductive IsolationInfo
  | trustedLaunch
  | sevSnp (snpReport runtimeData vcekCert : Bytes)
  deriving DecidableEq, Repr

structure AttestationParameters where
  clientPayload : List (Bytes × Bytes)
  osInfo : OsInfo
  isolationInfo : IsolationInfo
  tpmInfo : TpmInfo
  deriving DecidableEq, Repr

/-- The texts that IMDS returns for the renewal of the AK certificate; a request that fails gives an empty one. -/
structure RenewalTexts where
  vmId : Bytes
  renewSync : Bytes
  renewAsync : Bytes
  query : Bytes
  deriving DecidableEq, Repr

/-- The machine: the TPM and the operating system as `Attest` finds them, and the responses of IMDS. The certificate
is looked at by OpenSSL, and an HCL report that is too short to be cut is `none`. -/
structure Machine where
  isAkCertRenewalRequired : AttestationResult × Bool
  readAkCertFromTpm : AttestationResult
  writeAikCert : Bytes → Except Exc Unit
  renewal : RenewalTexts
  osInfo : AttestationResult × OsInfo
  hclReport : Option Bytes
  hclParts : Bytes → Option (Bytes × Bytes)
  vcekResponse : AttestationResult × Bytes
  tpmInfo : AttestationResult × TpmInfo

/-! ### The AK certificate -/

/-- Without the occurrences of the pattern, from left to right; `skip` bytes of one are still to be dropped. -/
def eraseFrom (pattern : Bytes) : Nat → Bytes → Bytes
  | _, [] => []
  | skip + 1, _ :: s => eraseFrom pattern skip s
  | 0, c :: s => if pattern.isPrefixOf (c :: s) then eraseFrom pattern (pattern.length - 1) s else c :: eraseFrom pattern 0 s

/-- `std::regex_replace` by the empty string, for a pattern that is plain text. -/
def eraseAll (pattern s : Bytes) : Bytes := eraseFrom pattern 0 s

def removeCertHeaderAndFooter (pemCert : Bytes) : Bytes :=
  eraseAll (ascii "\n") (eraseAll (ascii "\n-----END CERTIFICATE-----")
    (eraseAll (ascii "-----BEGIN CERTIFICATE-----\n") (eraseAll (ascii "\r") pemCert)))

section

variable (J : Jsoncpp) (M : Machine)

def parseAndGetAkCert (jsonResponse : Bytes) : Except Exc Bytes :=
  match J.parse (cStr jsonResponse) with
  | .raises => .error .jsonRuntimeError
  | .fails => .ok []
  | .value jsonObj => do
    let akCert ← getString J jsonObj (ascii "AkCertPem")
    let _ ← getString J jsonObj (ascii "CertQueryId")
    return akCert

/-- `ImdsClient::QueryAkCert`, with the response to the renewal as the id to ask for. -/
def queryAkCert (certQueryGuid : Bytes) : Bytes := if certQueryGuid = [] then [] else M.renewal.query

def akCertRenewFailure (description : Bytes) : Failure := ⟨.failure .akCertRenew description, nofun⟩

def renewedCert : Fallible Exc Failure Bytes :=
  if M.renewal.renewSync ≠ [] then do
    let cert ← Fallible.call (parseAndGetAkCert J M.renewal.renewSync)
    if cert = [] then throw (akCertRenewFailure (ascii "Failed to get AkCert Pem from response")) else pure cert
  else if queryAkCert M M.renewal.renewAsync = [] then
    throw (akCertRenewFailure (ascii "Failed to query Ak cert using async api"))
  else pure (queryAkCert M M.renewal.renewAsync)

def renewAndReplace : Fallible Exc Failure Unit := do
  if M.renewal.vmId = [] then throw (akCertRenewFailure (ascii "Failed to get VM id from IMDS"))
  check M.readAkCertFromTpm
  let cert ← renewedCert J M
  let certDer ← Fallible.call (base64ToBinary (removeCertHeaderAndFooter cert))
  Fallible.call (M.writeAikCert certDer)

def renewAndReplaceAkCert : Except Exc AttestationResult :=
  guarded ((renewAndReplace J M).run.map fun
    | .ok _ => .success
    | .error f => f.result) fun _ =>
      .ok (.failure .akCertRenew (ascii "Unexpected erropr in RenewAndReplaceAkCert"))

/-- The part of `Attest` about the AK certificate. The result of a renewal is not looked at any further. -/
def akCertStage : Fallible Exc Failure Unit :=
  let result := M.isAkCertRenewalRequired.1
  if h : result.code ≠ .success ∧ result.tpmErrorCode ≠ 0 then throw ⟨result, h.1⟩
  else if result.code = .akCertProvisioningFailed then
    throw ⟨⟨.akCertProvisioningFailed,
      ascii "AK cert provisioning delayed. Please try attestation after some time.", result.tpmErrorCode⟩, nofun⟩
  else if M.isAkCertRenewalRequired.2 then do
    let _ ← Fallible.call (renewAndReplaceAkCert J M)
  else pure ()

/-! ### The endpoint -/

def isSpace (c : UInt8) : Bool := c = 32 || (9 ≤ c && c ≤ 13)

/-- The host of a URL: what stands before the first colon in the part up to the first slash after the protocol. The
search for the slash starts one character after the protocol. -/
def dnsOf (url : Bytes) : Bytes :=
  let sanitizedUrl := (url.dropWhile isSpace).rdropWhile isSpace
  let offset := if ascii "https://" <+: sanitizedUrl then 8 else if ascii "http://" <+: sanitizedUrl then 7 else 0
  let rest := sanitizedUrl.drop offset
  (rest.take 1 ++ (rest.drop 1).takeWhile (· ≠ 47)).takeWhile (· ≠ 58)

def parseURL (url : Bytes) : Fallible Exc Failure Bytes :=
  if url = [] then throw ⟨.failure .invalidInputParameter (ascii "Invalid input parameter"), nofun⟩
  else if dnsOf url = [] then throw ⟨.failure .parsingDnsInfo (ascii "Error extracting DNS info from URL"), nofun⟩
  else pure (dnsOf url)

/-! ### The payload -/

/-- What an iteration over a value visits: the key of a member as a string, and the member. -/
def entries : Json → List (Bytes × Json)
  | .array xs => xs.zipIdx.map fun (x, i) => (intText i, x)
  | .object ms => ms
  | _ => []

def readPayload : List (Bytes × Json) → Except Exc (List (Bytes × Bytes))
  | [] => return []
  | (key, v) :: ms => do
    let value ← asString J v
    let rest ← readPayload ms
    return (key, value) :: rest

def parseClientPayload (clientPayload : Bytes) : Fallible Exc Failure (List (Bytes × Bytes)) := do
  let root ← parse J clientPayload ⟨.failure .invalidInputParameter (ascii "Invalid client payload Json"), nofun⟩
  Fallible.call (readPayload J (entries root))

/-! ### The evidence -/

def getVCekCert : Fallible Exc Failure Bytes := do
  check M.vcekResponse.1
  let root ← parse J M.vcekResponse.2
    ⟨.failure .invalidJsonResponse (ascii "Invalid JSON reponse from IMDS"), nofun⟩
  let cert ← Fallible.call (indexString J root (ascii "vcekCert"))
  let chain ← Fallible.call (indexString J root (ascii "certificateChain"))
  if cert = [] ∨ chain = [] then throw ⟨.failure .emptyVcekCert (ascii "Empty VCek cert received from THIM"), nofun⟩
  else pure (Base64.encode (cert ++ chain))

def extractSnpReportAndRuntimeData (hclReport : Bytes) : Fallible Exc Failure (Bytes × Bytes) :=
  if hclReport = [] then throw ⟨.failure .hclReportEmpty (ascii "Empty HCL report"), nofun⟩
  else
    match M.hclParts hclReport with
    | some parts => pure parts
    | none => throw ⟨.failure .hclReportParsingFailure
        (ascii "Failed to parse SNP report or variable data from the HCL report"), nofun⟩

def getIsolationInfo : Fallible Exc Failure IsolationInfo :=
  match M.hclReport with
  | none => pure .trustedLaunch
  | some hclReport => do
    let parts ← extractSnpReportAndRuntimeData M hclReport
    let vcekCert ← getVCekCert J M
    return .sevSnp parts.1 parts.2 vcekCert

def getAttestationParameters (clientPayload : List (Bytes × Bytes)) : Fallible Exc Failure AttestationParameters := do
  check M.osInfo.1
  let isolationInfo ← getIsolationInfo J M
  check M.tpmInfo.1
  return ⟨clientPayload, M.osInfo.2, isolationInfo, M.tpmInfo.2⟩

def TpmInfo.validate (t : TpmInfo) : Bool :=
  t.aikCert ≠ [] && t.aikPub ≠ [] && t.pcrValues ≠ [] && t.certifyInfo ≠ [] && t.encryptionKey ≠ [] &&
    t.certifyInfoSignature ≠ []

def IsolationInfo.validate : IsolationInfo → Bool
  | .trustedLaunch => true
  | .sevSnp snpReport runtimeData vcekCert => snpReport ≠ [] && runtimeData ≠ [] && vcekCert ≠ []

/-- `AttestationParameters::Validate`, for a Linux guest. -/
def AttestationParameters.validate (p : AttestationParameters) : Bool :=
  p.tpmInfo.validate && p.isolationInfo.validate && p.osInfo.distroName ≠ [] && p.osInfo.distroVersionMajor ≠ 0

def openEndpoint (params : ClientParameters) (hasOut : Bool) : Fallible Exc Failure Bytes :=
  match params.attestationEndpointUrl with
  | some url =>
    if params.version ≠ clientParamsVersion ∨ hasOut = false then
      throw ⟨.failure .invalidInputParameter (ascii "Invalid input parameter"), nofun⟩
    else do
      akCertStage J M
      parseURL url
  | none => throw ⟨.failure .invalidInputParameter (ascii "Invalid input parameter"), nofun⟩

def payloadOf (params : ClientParameters) : Fallible Exc Failure (List (Bytes × Bytes)) :=
  match params.clientPayload with
  | none => pure []
  | some clientPayload => parseClientPayload J clientPayload

/-- `AttestationClientImpl::Attest` up to its loop. -/
def prepare (params : ClientParameters) (hasOut : Bool) : Fallible Exc Failure AttestationParameters := do
  let _ ← openEndpoint J M params hasOut
  let clientPayload ← payloadOf J params
  let p ← getAttestationParameters J M clientPayload
  if p.validate then pure p
  else throw ⟨.failure .attestationParametersValidationFailed
    (ascii "Failed to validate parameters for attestation request."), nofun⟩

end

/-! ### Which texts are read without an exception -/

section

variable {J : Jsoncpp} {M : Machine}

theorem safe_check {ε : Type} (result : AttestationResult) : (check result : Fallible ε Failure Unit).Safe := by
  rw [check]
  split
  · exact Fallible.safe_pure _
  · exact Fallible.safe_throw _

theorem returns_check_iff {ε : Type} {result : AttestationResult} :
    (check result : Fallible ε Failure Unit).Returns () ↔ result.code = .success := by
  rw [check]
  split
  · rename_i h
    simp [Fallible.returns_pure_iff, h]
  · rename_i h
    simp [Fallible.not_returns_throw, h]

theorem safe_check_bind_iff {ε α : Type} {result : AttestationResult} {f : Unit → Fallible ε Failure α} :
    (check result >>= f).Safe ↔ (result.code = .success → (f ()).Safe) := by
  rw [Fallible.safe_bind_iff]
  constructor
  · rintro ⟨-, h⟩ hcode
    exact h () (returns_check_iff.2 hcode)
  · intro h
    exact ⟨safe_check result, fun _ hr => h (returns_check_iff.1 hr)⟩

theorem renewAndReplaceAkCert_returns : ∃ result, renewAndReplaceAkCert J M = .ok result :=
  guarded_always fun _ => ⟨_, rfl⟩

theorem safe_akCertStage : (akCertStage J M).Safe := by
  rw [akCertStage]
  split_ifs
  · exact Fallible.safe_throw _
  · exact Fallible.safe_throw _
  · rw [Fallible.safe_bind_iff, Fallible.safe_call_iff]
    exact ⟨renewAndReplaceAkCert_returns, fun _ _ => Fallible.safe_pure _⟩
  · exact Fallible.safe_pure _

theorem safe_parseURL (url : Bytes) : (parseURL url).Safe :=
  Fallible.safe_ite (Fallible.safe_throw _) (Fallible.safe_ite (Fallible.safe_throw _) (Fallible.safe_pure _))

theorem safe_openEndpoint (params : ClientParameters) (hasOut : Bool) : (openEndpoint J M params hasOut).Safe := by
  rw [openEndpoint]
  split
  · refine Fallible.safe_ite (Fallible.safe_throw _) ?_
    rw [Fallible.safe_bind_iff]
    exact ⟨safe_akCertStage, fun _ _ => safe_parseURL _⟩
  · exact Fallible.safe_throw _

theorem readPayload_returns_iff {ms : List (Bytes × Json)} :
    (∃ payload, readPayload J ms = .ok payload) ↔ ∀ m ∈ ms, Scalar m.2 := by
  induction ms with
  | nil => simp [readPayload, pure, Except.pure]
  | cons m ms ih =>
      obtain ⟨key, v⟩ := m
      rw [List.forall_mem_cons, ← ih]
      simp only [readPayload, bind_returns, asString_iff]
      constructor
      · rintro ⟨payload, value, ⟨hv, -⟩, rest, hrest, -⟩
        exact ⟨hv, rest, hrest⟩
      · rintro ⟨hv, rest, hrest⟩
        exact ⟨_, _, ⟨hv, rfl⟩, rest, hrest, rfl⟩

end

/-- The payload parses to a value without nested arrays or objects, or not at all. -/
def PayloadOk (J : Jsoncpp) (clientPayload : Bytes) : Prop :=
  Parses J clientPayload fun root => ∀ m ∈ entries root, Scalar m.2

/-- The response of IMDS parses to an object with two texts, or not at all. -/
def VcekOk (J : Jsoncpp) (response : Bytes) : Prop :=
  Parses J response fun root =>
    NullOrObject root ∧ Scalar (field root (ascii "vcekCert")) ∧ Scalar (field root (ascii "certificateChain"))

/-- What is read before the loop is in order, as far as it is read. -/
def EvidenceOk (J : Jsoncpp) (M : Machine) (params : ClientParameters) (hasOut : Bool) : Prop :=
  ∀ dns, (openEndpoint J M params hasOut).Returns dns →
    (∀ clientPayload, params.clientPayload = some clientPayload → PayloadOk J clientPayload) ∧
      ∀ payload, (payloadOf J params).Returns payload → M.osInfo.1.code = .success →
        ∀ hclReport parts, M.hclReport = some hclReport → hclReport ≠ [] → M.hclParts hclReport = some parts →
          M.vcekResponse.1.code = .success → VcekOk J M.vcekResponse.2

section

variable {J : Jsoncpp} {M : Machine}

theorem safe_payloadOf_iff {params : ClientParameters} :
    (payloadOf J params).Safe ↔
      ∀ clientPayload, params.clientPayload = some clientPayload → PayloadOk J clientPayload := by
  rw [payloadOf]
  split
  · rename_i h
    simp [h, Fallible.safe_pure]
  · rename_i clientPayload h
    rw [parseClientPayload, safe_parse_bind_iff]
    simp [h, PayloadOk, Fallible.safe_call_iff, readPayload_returns_iff]

theorem safe_getVCekCert_iff :
    (getVCekCert J M).Safe ↔ (M.vcekResponse.1.code = .success → VcekOk J M.vcekResponse.2) := by
  rw [getVCekCert, safe_check_bind_iff, safe_parse_bind_iff, VcekOk]
  refine imp_congr_right fun _ => ?_
  unfold Parses
  cases J.parse M.vcekResponse.2 with
  | raises => exact Iff.rfl
  | fails => exact Iff.rfl
  | value root =>
      simp only [Fallible.safe_bind_iff, Fallible.safe_call_iff, Fallible.returns_call_iff, indexString_iff]
      constructor
      · rintro ⟨⟨cert, hroot, hcert, -⟩, h⟩
        obtain ⟨⟨chain, -, hchain, -⟩, -⟩ := h _ ⟨hroot, hcert, rfl⟩
        exact ⟨hroot, hcert, hchain⟩
      · rintro ⟨hroot, hcert, hchain⟩
        refine ⟨⟨_, hroot, hcert, rfl⟩, fun cert _ => ⟨⟨_, hroot, hchain, rfl⟩, fun chain _ => ?_⟩⟩
        exact Fallible.safe_ite (Fallible.safe_throw _) (Fallible.safe_pure _)

theorem safe_extract (hclReport : Bytes) : (extractSnpReportAndRuntimeData M hclReport).Safe := by
  rw [extractSnpReportAndRuntimeData]
  split
  · exact Fallible.safe_throw _
  · split
    · exact Fallible.safe_pure _
    · exact Fallible.safe_throw _

theorem returns_extract_iff {hclReport : Bytes} {parts : Bytes × Bytes} :
    (extractSnpReportAndRuntimeData M hclReport).Returns parts ↔ hclReport ≠ [] ∧ M.hclParts hclReport = some parts := by
  rw [extractSnpReportAndRuntimeData]
  split
  · rename_i h
    simp [h, Fallible.not_returns_throw]
  · rename_i h
    split
    · rename_i parts' hp
      simp [h, hp, Fallible.returns_pure_iff]
    · rename_i hp
      simp [hp, Fallible.not_returns_throw]

theorem safe_getIsolationInfo_iff :
    (getIsolationInfo J M).Safe ↔
      ∀ hclReport parts, M.hclReport = some hclReport → hclReport ≠ [] → M.hclParts hclReport = some parts →
        M.vcekResponse.1.code = .success → VcekOk J M.vcekResponse.2 := by
  rw [getIsolationInfo]
  split
  · rename_i h
    simp [h, Fallible.safe_pure]
  · rename_i hclReport h
    simp only [Fallible.safe_bind_iff, safe_extract, true_and, returns_extract_iff, safe_getVCekCert_iff,
      Fallible.safe_pure, implies_true, and_true, h, Option.some.injEq]
    constructor
    · rintro hs _ parts rfl hne hp
      exact hs parts ⟨hne, hp⟩
    · rintro hs parts ⟨hne, hp⟩
      exact hs hclReport parts rfl hne hp

theorem safe_getAttestationParameters_iff {payload : List (Bytes × Bytes)} :
    (getAttestationParameters J M payload).Safe ↔ (M.osInfo.1.code = .success →
      ∀ hclReport parts, M.hclReport = some hclReport → hclReport ≠ [] → M.hclParts hclReport = some parts →
        M.vcekResponse.1.code = .success → VcekOk J M.vcekResponse.2) := by
  rw [getAttestationParameters, safe_check_bind_iff]
  simp only [Fallible.safe_bind_iff, safe_getIsolationInfo_iff, safe_check, Fallible.safe_pure, implies_true, and_true]

/-- **Before the loop nothing is raised** exactly when the payload and the response of IMDS are in order. -/
theorem safe_prepare_iff {params : ClientParameters} {hasOut : Bool} :
    (prepare J M params hasOut).Safe ↔ EvidenceOk J M params hasOut := by
  rw [prepare, EvidenceOk, Fallible.safe_bind_iff, and_iff_right (safe_openEndpoint params hasOut)]
  refine forall_congr' fun dns => imp_congr_right fun _ => ?_
  rw [Fallible.safe_bind_iff, safe_payloadOf_iff]
  refine and_congr_right fun _ => forall_congr' fun payload => imp_congr_right fun _ => ?_
  rw [Fallible.safe_bind_iff, safe_getAttestationParameters_iff]
  refine and_iff_left fun p _ => ?_
  exact Fallible.safe_ite (Fallible.safe_pure _) (Fallible.safe_throw _)

end

end CvmAttestation.Client
