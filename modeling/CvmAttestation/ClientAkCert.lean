import CvmAttestation.ClientEvidence
import CvmAttestation.TpmAikCert

/-! The renewal of the AK certificate on the TPM itself. What `RenewAndReplaceAkCert` writes is whatever remains of
the text it received when line breaks and the markers of a certificate are removed, decoded from base64; that the
text has such markers is not looked at. -/

namespace CvmAttestation.Client

open Base Tpm

/-- The TPM during a renewal: the calls that fail, how much its reads return, the value of an erased byte, and the
codes of its errors. -/
structure TpmCalls where
  fails : NvCall → Bool
  reads : ShortReads
  erased : UInt8
  rc : Tss2Error → Nat

def tss2What (message : String) (rc : Nat) : Bytes :=
  ascii "tpm2-tss exception : message=" ++ ascii message ++ ascii ", code=" ++ ascii (toString rc)

def TpmCalls.readAkCertFromTpm (T : TpmCalls) (s : NvStore) : AttestationResult :=
  match ((getAIKCert T.reads).exec s).1 with
  | .ok _ => .success
  | .error e => ⟨.tpmOperationFailure, tss2What e.what (T.rc e), T.rc e⟩

/-- The machine as the renewal finds it: its certificate is read from a store and would be written to it. -/
def Machine.on (M : Machine) (T : TpmCalls) (s : NvStore) : Machine :=
  { M with
    readAkCertFromTpm := T.readAkCertFromTpm s
    writeAikCert := fun cert => ((Tpm.writeAikCert T.fails T.erased cert).exec s).1.mapError fun _ => .tpm }

section

variable (J : Jsoncpp) (M : Machine) (T : TpmCalls)

/-- `RenewAndReplaceAkCert` up to the write. -/
def renewedDer : Fallible Exc Failure Bytes := do
  if M.renewal.vmId = [] then throw (akCertRenewFailure (ascii "Failed to get VM id from IMDS"))
  check M.readAkCertFromTpm
  let cert ← renewedCert J M
  Fallible.call (base64ToBinary (removeCertHeaderAndFooter cert))

/-- `RenewAndReplaceAkCert`, with the TPM it leaves: the exceptions of the write are caught as all others are. -/
def renewAndReplaceAkCertOn (s : NvStore) : AttestationResult × NvStore :=
  let unexpected : AttestationResult := .failure .akCertRenew (ascii "Unexpected erropr in RenewAndReplaceAkCert")
  match (renewedDer J (M.on T s)).run with
  | .error _ => (unexpected, s)
  | .ok (.error f) => (f.result, s)
  | .ok (.ok certDer) =>
    match (writeAikCert T.fails T.erased certDer).exec s with
    | (.ok (), s') => (.success, s')
    | (.error _, s') => (unexpected, s')

/-- The text that is taken for the renewed certificate: the member of a response to the renewal, or, if there is no
response, the answer to a query with the response to a second renewal. -/
def Received (cert : Bytes) : Prop :=
  M.renewal.vmId ≠ [] ∧ cert ≠ [] ∧
    (M.renewal.renewSync ≠ [] ∧ parseAndGetAkCert J M.renewal.renewSync = .ok cert ∨
      M.renewal.renewSync = [] ∧ M.renewal.renewAsync ≠ [] ∧ M.renewal.query = cert)

end

section

variable {J : Jsoncpp} {M : Machine} {T : TpmCalls} {s : NvStore}

theorem renewAndReplace_eq : renewAndReplace J M = renewedDer J M >>= fun der => Fallible.call (M.writeAikCert der) := by
  rw [renewAndReplace, renewedDer]
  split
  · rfl
  · simp only [bind_assoc]

/-- **The renewal on the TPM reports what the renewal reports** on the machine that the TPM is part of. -/
theorem renewAndReplaceAkCertOn_result :
    renewAndReplaceAkCert J (M.on T s) = .ok (renewAndReplaceAkCertOn J M T s).1 := by
  rw [renewAndReplaceAkCert, renewAndReplace_eq, Fallible.run_bind_cases, renewAndReplaceAkCertOn]
  cases (renewedDer J (M.on T s)).run with
  | error e => rfl
  | ok r =>
      cases r with
      | error f => rfl
      | ok der =>
          rcases hw : (writeAikCert T.fails T.erased der).exec s with ⟨r, s'⟩
          have hraised : (M.on T s).writeAikCert der = r.mapError fun _ => .tpm := by
            show ((writeAikCert T.fails T.erased der).exec s).1.mapError _ = _
            rw [hw]
          simp only [hraised, hw]
          cases r with
          | ok u => rfl
          | error e => rfl

theorem returns_renewedCert_iff {cert : Bytes} (hvm : M.renewal.vmId ≠ []) :
    (renewedCert J M).Returns cert ↔ Received J M cert := by
  rw [renewedCert, Received, and_iff_right hvm]
  by_cases hsync : M.renewal.renewSync = []
  · rw [if_neg (not_not.2 hsync), queryAkCert]
    by_cases hasync : M.renewal.renewAsync = []
    · simp [hsync, hasync, Fallible.not_returns_throw]
    · by_cases hquery : M.renewal.query = []
      · simp [hsync, hasync, hquery, Fallible.not_returns_throw, eq_comm]
      · simp only [hsync, hasync, hquery, if_false, Fallible.returns_pure_iff, ne_eq, not_true_eq_false, false_and,
          false_or, not_false_eq_true, true_and]
        refine ⟨fun h => ⟨h ▸ hquery, h⟩, fun h => h.2⟩
  · simp only [hsync, ne_eq, not_false_eq_true, if_true, true_and, false_and, or_false, Fallible.returns_bind_iff,
      Fallible.returns_call_iff]
    constructor
    · rintro ⟨cert', hparse, hret⟩
      by_cases hempty : cert' = []
      · rw [if_pos hempty] at hret
        exact absurd hret Fallible.not_returns_throw
      · rw [if_neg hempty, Fallible.returns_pure_iff] at hret
        subst hret
        exact ⟨hempty, hparse⟩
    · rintro ⟨hne, hparse⟩
      refine ⟨cert, hparse, ?_⟩
      rw [if_neg hne, Fallible.returns_pure_iff]

/-- What is written is the decoded rest of the text that was received. -/
theorem returns_renewedDer_iff {der : Bytes} (hread : M.readAkCertFromTpm.code = .success) :
    (renewedDer J M).Returns der ↔
      ∃ cert, Received J M cert ∧ base64ToBinary (removeCertHeaderAndFooter cert) = .ok der := by
  rw [renewedDer]
  by_cases hvm : M.renewal.vmId = []
  · rw [if_pos hvm]
    refine ⟨fun h => absurd h Fallible.not_returns_throw, ?_⟩
    rintro ⟨cert, ⟨h, -⟩, -⟩
    exact absurd hvm h
  · rw [if_neg hvm]
    simp only [Fallible.returns_bind_iff, Fallible.returns_call_iff, returns_renewedCert_iff hvm]
    refine ⟨?_, fun h => ⟨(), returns_check_iff.2 hread, h⟩⟩
    rintro ⟨-, -, h⟩
    exact h

/-- At most one text is received. -/
theorem Received.unique {cert cert' : Bytes} (h : Received J M cert) (h' : Received J M cert') : cert = cert' := by
  obtain ⟨-, -, ⟨hsync, hparse⟩ | ⟨hsync, -, hquery⟩⟩ := h
  · obtain ⟨-, -, ⟨-, hparse'⟩ | ⟨hnone, -⟩⟩ := h'
    · rw [hparse] at hparse'
      exact Except.ok.inj hparse'
    · exact absurd hnone hsync
  · obtain ⟨-, -, ⟨hsome, -⟩ | ⟨-, -, hquery'⟩⟩ := h'
    · exact absurd hsync hsome
    · exact hquery.symm.trans hquery'

theorem readAkCertFromTpm_stored {old : Bytes} (hold : Stored s old) : T.readAkCertFromTpm s = .success := by
  rw [TpmCalls.readAkCertFromTpm, getAIKCert_stored T.reads hold]

theorem renewAndReplaceAkCertOn_written {der : Bytes} (hder : (renewedDer J (M.on T s)).Returns der) {s' : NvStore}
    (hw : (writeAikCert T.fails T.erased der).exec s = (.ok (), s')) :
    renewAndReplaceAkCertOn J M T s = (.success, s') := by
  rw [renewAndReplaceAkCertOn, hder]
  simp only [hw]

/-- Without a certificate to write the renewal fails, and the TPM stays as it was. -/
theorem renewAndReplaceAkCertOn_unwritten (hder : ∀ der, ¬(renewedDer J (M.on T s)).Returns der) :
    (renewAndReplaceAkCertOn J M T s).1.code ≠ .success ∧ (renewAndReplaceAkCertOn J M T s).2 = s := by
  rw [renewAndReplaceAkCertOn]
  cases h : (renewedDer J (M.on T s)).run with
  | error e => exact ⟨nofun, rfl⟩
  | ok r =>
      cases r with
      | error f => exact ⟨f.failed, rfl⟩
      | ok der => exact absurd h (hder der)

end

/-- **What a renewal does to the stored certificate**, whatever texts IMDS returns, when no call to the TPM fails. If a
text was received and decodes once line breaks and markers are removed, the certificate becomes the decoded bytes.
For every other text the renewal reports an error and the TPM stays as it was. -/
theorem renewAndReplaceAkCert_replaces (J : Jsoncpp) (M : Machine) (T : TpmCalls) (s : NvStore) (old : Bytes)
    (hold : Stored s old) (hcalls : ∀ c, T.fails c = false) :
    let run := renewAndReplaceAkCertOn J M T s
    (∀ cert, Received J M cert → Decodes (removeCertHeaderAndFooter cert) →
      ∃ der, base64ToBinary (removeCertHeaderAndFooter cert) = .ok der ∧
        (der.length ≤ 65535 → run.1 = .success ∧ (getAIKCert T.reads).exec run.2 = (.ok der, run.2))) ∧
    ((¬∃ cert, Received J M cert ∧ Decodes (removeCertHeaderAndFooter cert)) →
      run.1.code ≠ .success ∧ run.2 = s ∧ (getAIKCert T.reads).exec run.2 = (.ok old, run.2)) := by
  have hread : (M.on T s).readAkCertFromTpm.code = .success := by
    show (T.readAkCertFromTpm s).code = .success
    rw [readAkCertFromTpm_stored hold]
    rfl
  refine ⟨?_, ?_⟩
  · intro cert hcert hdecodes
    obtain ⟨der, hder⟩ := base64ToBinary_returns_iff.2 hdecodes
    refine ⟨der, hder, fun hsize => ?_⟩
    obtain ⟨s', hwrite, hstored⟩ := writeAikCert_stores T.erased hold hsize hcalls
    have hreturns := (returns_renewedDer_iff hread).2 ⟨cert, hcert, hder⟩
    simp only [renewAndReplaceAkCertOn_written hreturns hwrite]
    exact ⟨trivial, getAIKCert_stored T.reads hstored⟩
  · intro hnone
    have hunwritten : ∀ der, ¬(renewedDer J (M.on T s)).Returns der := by
      intro der hder
      obtain ⟨cert, hcert, hbinary⟩ := (returns_renewedDer_iff hread).1 hder
      exact hnone ⟨cert, hcert, base64ToBinary_returns_iff.1 ⟨der, hbinary⟩⟩
    obtain ⟨hfailed, hsame⟩ := renewAndReplaceAkCertOn_unwritten hunwritten
    refine ⟨hfailed, hsame, ?_⟩
    rw [hsame]
    exact getAIKCert_stored T.reads hold

/-- A text in base64 that is not empty: groups of four characters, with up to two for padding in the last one. -/
def IsBase64 (text : Bytes) : Prop :=
  text ≠ [] ∧ text.length % 4 = 0 ∧ ∃ digits pad, text = digits ++ List.replicate pad Base64.padChar ∧ pad ≤ 2 ∧
    ∀ c ∈ digits, (Base64.sextet c).isSome = true ∧ c ≠ Base64.padChar

def isLineBreak (c : UInt8) : Bool := c = 10 || c = 13

/-- One certificate block with content, and nothing around it but line breaks. -/
def OnePemBlock (text : Bytes) : Prop :=
  ∃ body tail, text = ascii "-----BEGIN CERTIFICATE-----" ++ (body ++ (ascii "-----END CERTIFICATE-----" ++ tail)) ∧
    IsBase64 (body.filter fun c => !isLineBreak c) ∧ tail.all isLineBreak = true

example : OnePemBlock (ascii "-----BEGIN CERTIFICATE-----\nAAEC\nAwQ=\n-----END CERTIFICATE-----\n") :=
  ⟨ascii "\nAAEC\nAwQ=\n", ascii "\n", rfl, ⟨by decide, by decide, ascii "AAECAwQ", 1, by decide +kernel, by decide,
    by decide +kernel⟩, rfl⟩

section

variable (J : Jsoncpp) (M : Machine) (T : TpmCalls) (s : NvStore)

/-- Unless one certificate block is received, the renewal reports an error and the certificate stays as it was. -/
def GuardsCertificate (old : Bytes) : Prop :=
  let run := renewAndReplaceAkCertOn J M T s
  (¬∃ cert, Received J M cert ∧ OnePemBlock cert) →
    run.1.code ≠ .success ∧ (getAIKCert T.reads).exec run.2 = (.ok old, run.2)

/-- No operation of the TPM fails in the write that the renewal comes to. -/
def WriteSucceeds : Prop :=
  ∀ cert der, Received J M cert → base64ToBinary (removeCertHeaderAndFooter cert) = .ok der →
    ((writeAikCert T.fails T.erased der).exec s).1 = .ok ()

end

/-- **When the renewal guards the stored certificate**, with all operations of the TPM succeeding: exactly when the text
that is received for a certificate, if there is one, is a certificate block or does not decode once line breaks and
markers are removed from it. -/
theorem renewAndReplaceAkCert_guards_iff (J : Jsoncpp) (M : Machine) (T : TpmCalls) (s : NvStore) (old : Bytes)
    (hold : Stored s old) (hsucceeds : WriteSucceeds J M T s) :
    GuardsCertificate J M T s old ↔
      ∀ cert, Received J M cert → OnePemBlock cert ∨ ¬Decodes (removeCertHeaderAndFooter cert) := by
  have hread : (M.on T s).readAkCertFromTpm.code = .success := by
    show (T.readAkCertFromTpm s).code = .success
    rw [readAkCertFromTpm_stored hold]
    rfl
  constructor
  · intro hguards cert hcert
    rw [or_iff_not_imp_left]
    intro hblock hdecodes
    obtain ⟨der, hder⟩ := base64ToBinary_returns_iff.2 hdecodes
    have hwrite : (writeAikCert T.fails T.erased der).exec s =
        (.ok (), ((writeAikCert T.fails T.erased der).exec s).2) := Prod.ext (hsucceeds cert der hcert hder) rfl
    have hreturns := (returns_renewedDer_iff hread).2 ⟨cert, hcert, hder⟩
    have hnone : ¬∃ cert', Received J M cert' ∧ OnePemBlock cert' := by
      rintro ⟨cert', hcert', hblock'⟩
      rw [hcert.unique hcert'] at hblock
      exact hblock hblock'
    have hfailed := (hguards hnone).1
    rw [renewAndReplaceAkCertOn_written hreturns hwrite] at hfailed
    exact hfailed rfl
  · intro hall hnone
    have hunwritten : ∀ der, ¬(renewedDer J (M.on T s)).Returns der := by
      intro der hder
      obtain ⟨cert, hcert, hbinary⟩ := (returns_renewedDer_iff hread).1 hder
      rcases hall cert hcert with hblock | hdecodes
      · exact hnone ⟨cert, hcert, hblock⟩
      · exact hdecodes (base64ToBinary_returns_iff.1 ⟨der, hbinary⟩)
    obtain ⟨hfailed, hsame⟩ := renewAndReplaceAkCertOn_unwritten hunwritten
    refine ⟨hfailed, ?_⟩
    rw [hsame]
    exact getAIKCert_stored T.reads hold

namespace Sample

def noJson : Jsoncpp := ⟨fun _ => .fails, fun _ => []⟩

/-- A machine where IMDS answers the query for the renewed certificate with the given text. -/
def queried (query : Bytes) : Machine where
  isAkCertRenewalRequired := (.success, true)
  readAkCertFromTpm := .success
  writeAikCert _ := .ok ()
  renewal := ⟨ascii "vm", [], ascii "guid", query⟩
  osInfo := (.success, ⟨ascii "Ubuntu", 22⟩)
  hclReport := none
  hclParts _ := none
  vcekResponse := (.success, [])
  tpmInfo := (.success, ⟨[1], [1], [(0, [1])], [1], [1], [1]⟩)

def calls : TpmCalls := ⟨fun _ => false, .full, 0xFF, fun _ => 0⟩

end Sample

open Sample in
/-- A certificate block is received and its content stored. -/
theorem renewAndReplaceAkCert_replaces_sample :
    let cert := ascii "-----BEGIN CERTIFICATE-----\nAAEC\n-----END CERTIFICATE-----"
    let run := renewAndReplaceAkCertOn noJson (queried cert) calls sampleStore
    Stored sampleStore [1] ∧ (∀ c, calls.fails c = false) ∧ run.1 = .success ∧
      (getAIKCert .full).exec run.2 = (.ok [0, 1, 2], run.2) := by
  intro cert run
  have hbinary : base64ToBinary (removeCertHeaderAndFooter cert) = .ok [0, 1, 2] := by decide +kernel
  have hreceived : Received noJson (queried cert) cert := ⟨by decide, by decide, .inr ⟨rfl, by decide, rfl⟩⟩
  obtain ⟨der, hder, hstored⟩ := (renewAndReplaceAkCert_replaces noJson (queried cert) calls sampleStore [1]
    stored_sampleStore fun _ => rfl).1 cert hreceived (base64ToBinary_returns_iff.1 ⟨_, hbinary⟩)
  rw [hbinary] at hder
  cases hder
  exact ⟨stored_sampleStore, fun _ => rfl, hstored (by decide)⟩

open Sample in
/-- A status message made of four-letter groups is stored in place of the certificate. -/
theorem renewAndReplaceAkCert_stores_message :
    Stored sampleStore [1] ∧ WriteSucceeds noJson (queried (ascii "Accepted")) calls sampleStore ∧
      ¬GuardsCertificate noJson (queried (ascii "Accepted")) calls sampleStore [1] ∧
      let run := renewAndReplaceAkCertOn noJson (queried (ascii "Accepted")) calls sampleStore
      run.1 = .success ∧ ((getAIKCert .full).exec run.2).1 ≠ .ok [1] := by
  have hreceived : Received noJson (queried (ascii "Accepted")) (ascii "Accepted") :=
    ⟨by decide, by decide, .inr ⟨rfl, by decide, rfl⟩⟩
  have hsuccess : (renewAndReplaceAkCertOn noJson (queried (ascii "Accepted")) calls sampleStore).1 = .success := by
    decide +kernel
  have hnone : ¬∃ cert, Received noJson (queried (ascii "Accepted")) cert ∧ OnePemBlock cert := by
    rintro ⟨cert, hcert, body, tail, htext, -⟩
    rw [hcert.unique hreceived] at htext
    have hhead : (some 65 : Option UInt8) = some 45 := congrArg List.head? htext
    cases hhead
  refine ⟨stored_sampleStore, ?_, fun hguards => ?_, hsuccess, by decide +kernel⟩
  · intro cert der hcert hder
    rw [hcert.unique hreceived] at hder
    have hbinary : base64ToBinary (removeCertHeaderAndFooter (ascii "Accepted")) = .ok [1, 199, 30, 166, 215, 157] := by
      decide +kernel
    rw [hbinary] at hder
    cases hder
    decide +kernel
  · have hfailed := (hguards hnone).1
    rw [hsuccess] at hfailed
    exact hfailed rfl

open Sample in
/-- The certificate stays when half of a block is received, which does not decode. -/
theorem renewAndReplaceAkCert_guards_truncated :
    Stored sampleStore [1] ∧
      GuardsCertificate noJson (queried (ascii "-----BEGIN CERTIFICATE-----\nAAEC\nAwQ=\n-----END")) calls sampleStore
        [1] := by
  have hcut : ¬Decodes (removeCertHeaderAndFooter (ascii "-----BEGIN CERTIFICATE-----\nAAEC\nAwQ=\n-----END")) := by
    intro hdecodes
    obtain ⟨der, hder⟩ := base64ToBinary_returns_iff.2 hdecodes
    have hfails : base64ToBinary
        (removeCertHeaderAndFooter (ascii "-----BEGIN CERTIFICATE-----\nAAEC\nAwQ=\n-----END")) = .error .dataflow := by
      decide +kernel
    rw [hfails] at hder
    cases hder
  have hreceived : Received noJson (queried (ascii "-----BEGIN CERTIFICATE-----\nAAEC\nAwQ=\n-----END"))
      (ascii "-----BEGIN CERTIFICATE-----\nAAEC\nAwQ=\n-----END") := ⟨by decide, by decide, .inr ⟨rfl, by decide, rfl⟩⟩
  refine ⟨stored_sampleStore, (renewAndReplaceAkCert_guards_iff noJson _ calls sampleStore [1] stored_sampleStore ?_).2 ?_⟩
  · intro cert der hcert hder
    rw [hcert.unique hreceived] at hder
    exact absurd (base64ToBinary_returns_iff.1 ⟨der, hder⟩) hcut
  · intro cert hcert
    rw [hcert.unique hreceived]
    exact .inr hcut

end CvmAttestation.Client
