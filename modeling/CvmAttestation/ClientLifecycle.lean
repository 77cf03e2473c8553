import CvmAttestation.ClientAttest
import CvmAttestation.ClientPem
import CvmAttestation.TpmAikParts

/-! The AK certificate over the lifetime of a machine. Each call of `Attest` looks at the certificate on the TPM,
replaces it when it ends soon, and sends whatever is stored then. What went wrong with the replacement is not looked at,
so that the next call finds it on the TPM. -/

namespace CvmAttestation.Client

open Base Tpm

/-- The certificates of OpenSSL, with times in seconds. The end of a certificate may be no time at all.
`asn1TimeDiff` gives the days and the seconds from one time to another. The seconds are fewer than those of a day, and
have the sign of the days where neither is zero. -/
structure Certificates where
  X509 : Type
  readPem : Bytes → Option X509
  issuerName : X509 → Bytes
  notAfter : X509 → Option ℤ
  asn1TimeDiff : ℤ → ℤ → ℤ × ℤ
  diff_total : ∀ start stop, (asn1TimeDiff start stop).1 * 86400 + (asn1TimeDiff start stop).2 = stop - start
  diff_seconds : ∀ start stop, |(asn1TimeDiff start stop).2| < 86400
  diff_sign : ∀ start stop, 0 ≤ (asn1TimeDiff start stop).1 * (asn1TimeDiff start stop).2

def trustedVmCertIssuerNamePrefix : Bytes := ascii "/CN=MICROSOFT AZURE TRUSTED VM RSA"

def akCertRenewalThreshold : ℤ := -90

/-- What one call of `Attest` is given and finds: the time, the calls of the TPM that fail, what reading the AK gives,
and the rest of the machine. The certificate and what depends on it are in the store instead. -/
structure AttestCall where
  now : ℤ
  calls : TpmCalls
  readAikPub : AttestationResult
  machine : Machine
  network : Network
  unsealer : Unsealer
  params : ClientParameters
  hasOut : Bool

namespace AttestCall

section

variable (O : Certificates) (J : Jsoncpp) (c : AttestCall)

/-- `TpmCertOperations::IsAkCertProvisioned`. A certificate of the issuer is one that awaits its replacement. -/
def isAkCertProvisioned (cert : O.X509) : AttestationResult :=
  let result := c.readAikPub
  if trustedVmCertIssuerNamePrefix <:+: O.issuerName cert then
    { result with code := .akCertProvisioningFailed, description := ascii "AkCert provisioning failed" }
  else result

/-- `TpmCertOperations::IsAkCertRenewalRequired`, with the value its output has at the end. -/
def isAkCertRenewalRequired (s : NvStore) : AttestationResult × Bool :=
  let (result, akCert) := c.calls.readAkCert s []
  if result.code ≠ .success then (result, false)
  else
    match O.readPem akCert with
    | none => ({ result with code := .akCertParsing, description := ascii "Failed to pass Ak cert in memory" }, false)
    | some cert =>
      let result := c.isAkCertProvisioned O cert
      if result.code ≠ .success then (result, false)
      else
        match O.notAfter cert with
        | none =>
          ({ result with code := .akCertParsing, description := ascii "Failed while checking Ak Cert validity" }, false)
        | some notAfter =>
          let (diffDays, _) := O.asn1TimeDiff notAfter c.now
          (result, decide (akCertRenewalThreshold ≤ diffDays))

/-- The part of `Attest` about the AK certificate, with the TPM it leaves. -/
def akCertStageOn (s : NvStore) : Fallible Exc Failure Unit × NvStore :=
  let result := (c.isAkCertRenewalRequired O s).1
  if h : result.code ≠ .success ∧ result.tpmErrorCode ≠ 0 then (throw ⟨result, h.1⟩, s)
  else if result.code = .akCertProvisioningFailed then
    (throw ⟨⟨.akCertProvisioningFailed,
      ascii "AK cert provisioning delayed. Please try attestation after some time.", result.tpmErrorCode⟩, nofun⟩, s)
  else if (c.isAkCertRenewalRequired O s).2 then (pure (), (renewAndReplaceAkCertOn J c.machine c.calls s).2)
  else (pure (), s)

/-- The first check of `Attest`. -/
def opens : Bool :=
  c.params.attestationEndpointUrl.isSome && c.params.version == clientParamsVersion && c.hasOut

/-- The TPM that a call leaves. Nothing after the first stage writes to an index. -/
def leaves (s : NvStore) : NvStore := if c.opens then (c.akCertStageOn O J s).2 else s

/-- `GetTpmInfo`: the certificate is read first, and then what the machine has beside it. -/
def getTpmInfo (s : NvStore) : AttestationResult × TpmInfo :=
  match ((getAIKCert c.calls.reads).exec s).1 with
  | .ok aikCert => (c.machine.tpmInfo.1, { c.machine.tpmInfo.2 with aikCert := aikCert })
  | .error e => (⟨.tpmOperationFailure, tss2What e.what (c.calls.rc e), c.calls.rc e⟩, c.machine.tpmInfo.2)

def machineOn (s : NvStore) : Machine :=
  { c.machine.on c.calls s with
    isAkCertRenewalRequired := c.isAkCertRenewalRequired O s
    tpmInfo := c.getTpmInfo (c.leaves O J s) }

/-- `AttestationClientImpl::Attest` on a TPM, with the TPM it leaves. -/
def attestOn (s : NvStore) : Except Exc Run × NvStore :=
  (attest ⟨J, c.machineOn O J s, c.network, c.unsealer⟩ c.params c.hasOut, c.leaves O J s)

/-- The evidence that the call sends. -/
def Sends (s : NvStore) (p : AttestationParameters) : Prop :=
  (prepare J (c.machineOn O J s) c.params c.hasOut).Returns p

end

end AttestCall

/-- One call of `Attest` after the other. -/
def attestAll (O : Certificates) (J : Jsoncpp) (calls : List AttestCall) (s : NvStore) : NvStore :=
  calls.foldl (fun s c => (c.attestOn O J s).2) s

/-- A certificate is stored, it is not one that awaits its replacement, and it ends at some time. -/
def ExpiresAt (O : Certificates) (s : NvStore) (notAfter : ℤ) : Prop :=
  ∃ der cert, Stored s der ∧ O.readPem (akCertPem der) = some cert ∧
    ¬trustedVmCertIssuerNamePrefix <:+: O.issuerName cert ∧ O.notAfter cert = some notAfter

/-- The content of an index that comes from a text which one of the calls received: a part of what it decodes to. -/
def FromImds (J : Jsoncpp) (calls : List AttestCall) (content : Bytes) : Prop :=
  ∃ c ∈ calls, ∃ text der n, Received J c.machine text ∧ base64ToBinary (removeCertHeaderAndFooter text) = .ok der ∧
    content = partOf c.calls.erased der n

/-! ### One call -/

/-- The days leave out what is less than a day, so that a certificate is renewed when less than 91 days are left. -/
theorem akCertRenewalThreshold_le_iff (O : Certificates) {now notAfter : ℤ} :
    akCertRenewalThreshold ≤ (O.asn1TimeDiff notAfter now).1 ↔ notAfter < now + 91 * 86400 := by
  have htotal := O.diff_total notAfter now
  have hseconds := abs_lt.1 (O.diff_seconds notAfter now)
  have hsign := O.diff_sign notAfter now
  generalize O.asn1TimeDiff notAfter now = diff at htotal hseconds hsign ⊢
  unfold akCertRenewalThreshold
  constructor
  · intro hdays
    omega
  · intro hsoon
    by_contra hdays
    have hnonpos : diff.2 ≤ 0 := nonpos_of_mul_nonneg_right hsign (by omega)
    omega

namespace AttestCall

section

variable {O : Certificates} {J : Jsoncpp} {c : AttestCall} {s : NvStore}

theorem readAkCert_eq_success {akCert : Bytes} (h : (c.calls.readAkCert s akCert).1.code = .success) :
    ∃ der, Stored s der ∧ c.calls.readAkCert s akCert = (.success, akCertPem der) := by
  cases hread : ((getAIKCert c.calls.reads).exec s).1 with
  | ok der =>
      have hstored : Stored s der := getAIKCert_eq_ok_iff.1 hread
      exact ⟨der, hstored, readAkCert_stored hstored akCert⟩
  | error e =>
      rw [TpmCalls.readAkCert, hread] at h
      cases h

theorem isAkCertProvisioned_eq_success_iff {cert : O.X509} :
    (c.isAkCertProvisioned O cert).code = .success ↔
      c.readAikPub.code = .success ∧ ¬trustedVmCertIssuerNamePrefix <:+: O.issuerName cert := by
  unfold isAkCertProvisioned
  by_cases hissuer : trustedVmCertIssuerNamePrefix <:+: O.issuerName cert
  · simp [hissuer]
  · simp [hissuer]

/-- **When the certificate is renewed**: its end is less than 91 days away, and the AK can be read. -/
theorem isAkCertRenewalRequired_iff :
    (c.isAkCertRenewalRequired O s).2 = true ↔
      c.readAikPub.code = .success ∧ ∃ notAfter, ExpiresAt O s notAfter ∧ notAfter < c.now + 91 * 86400 := by
  unfold isAkCertRenewalRequired
  by_cases hread : (c.calls.readAkCert s []).1.code = .success
  · obtain ⟨der, hstored, hcert⟩ := readAkCert_eq_success hread
    have hexpires : ∀ {t}, ExpiresAt O s t ↔ ∃ cert, O.readPem (akCertPem der) = some cert ∧
        ¬trustedVmCertIssuerNamePrefix <:+: O.issuerName cert ∧ O.notAfter cert = some t := by
      intro t
      constructor
      · rintro ⟨der', cert, hder', hrest⟩
        rw [hder'.unique hstored] at hrest
        exact ⟨cert, hrest⟩
      · rintro ⟨cert, hrest⟩
        exact ⟨der, cert, hstored, hrest⟩
    rw [hcert]
    simp only [AttestationResult.success, ne_eq, not_true_eq_false, if_false, hexpires]
    cases hpem : O.readPem (akCertPem der) with
    | none => simp
    | some cert =>
        simp only [Option.some.injEq, exists_eq_left']
        by_cases hprovisioned : (c.isAkCertProvisioned O cert).code = .success
        · obtain ⟨haik, hissuer⟩ := isAkCertProvisioned_eq_success_iff.1 hprovisioned
          rw [if_neg (not_not.2 hprovisioned)]
          cases htime : O.notAfter cert with
          | none => simp
          | some t => simp [haik, hissuer, akCertRenewalThreshold_le_iff O]
        · rw [if_pos hprovisioned]
          rw [isAkCertProvisioned_eq_success_iff] at hprovisioned
          refine iff_of_false Bool.false_ne_true ?_
          rintro ⟨haik, t, ⟨hissuer, -⟩, -⟩
          exact hprovisioned ⟨haik, hissuer⟩
  · simp only [ne_eq, hread, not_false_eq_true, if_true]
    refine iff_of_false Bool.false_ne_true ?_
    rintro ⟨-, t, ⟨der, cert, hstored, -⟩, -⟩
    rw [readAkCert_stored hstored] at hread
    exact hread rfl

theorem isAkCertRenewalRequired_success (h : (c.isAkCertRenewalRequired O s).2 = true) :
    (c.isAkCertRenewalRequired O s).1.code = .success := by
  unfold isAkCertRenewalRequired at h ⊢
  by_cases hread : (c.calls.readAkCert s []).1.code = .success
  · simp only [ne_eq, hread, not_true_eq_false, if_false] at h ⊢
    split at h
    · cases h
    · rename_i cert hpem
      by_cases hprovisioned : (c.isAkCertProvisioned O cert).code = .success
      · simp only [hprovisioned, not_true_eq_false, if_false] at h ⊢
        split at h
        · cases h
        · exact hprovisioned
      · simp only [hprovisioned, not_false_eq_true, if_true] at h
        cases h
  · simp only [ne_eq, hread, not_false_eq_true, if_true] at h
    cases h

/-- The stage reports what it reports on the machine that the TPM is part of. -/
theorem akCertStageOn_result : (c.akCertStageOn O J s).1 = akCertStage J (c.machineOn O J s) := by
  have hrenew : renewAndReplaceAkCert J (c.machineOn O J s) = .ok (renewAndReplaceAkCertOn J c.machine c.calls s).1 :=
    renewAndReplaceAkCertOn_result
  unfold akCertStageOn akCertStage
  rw [hrenew]
  dsimp only [machineOn]
  split_ifs with hfailed hprovisioning hrequired
  · rfl
  · rfl
  · exact (if_pos hrequired).symm
  · exact (if_neg hrequired).symm

theorem akCertStageOn_store :
    (c.akCertStageOn O J s).2 =
      if (c.isAkCertRenewalRequired O s).2 then (renewAndReplaceAkCertOn J c.machine c.calls s).2 else s := by
  unfold akCertStageOn
  dsimp only
  cases hrequired : (c.isAkCertRenewalRequired O s).2 with
  | true =>
      have hcode := isAkCertRenewalRequired_success hrequired
      rw [dif_neg (fun h => h.1 hcode), if_neg (by rw [hcode]; nofun)]
      rfl
  | false =>
      simp only [Bool.false_eq_true, if_false]
      split_ifs <;> rfl

theorem renewAndReplaceAkCertOn_store {der : Bytes} (h : (renewedDer J (c.machine.on c.calls s)).Returns der) :
    (renewAndReplaceAkCertOn J c.machine c.calls s).2 =
      ((writeAikCert c.calls.fails c.calls.erased der).exec s).2 := by
  rw [renewAndReplaceAkCertOn, h]
  rcases hwrite : (writeAikCert c.calls.fails c.calls.erased der).exec s with ⟨r, s'⟩
  simp only [hwrite]
  cases r with
  | ok u => rfl
  | error e => rfl

theorem readAkCertFromTpm_code {der : Bytes} (h : Stored s der) :
    (c.machine.on c.calls s).readAkCertFromTpm.code = .success := by
  show (c.calls.readAkCertFromTpm s).code = .success
  rw [readAkCertFromTpm_stored h]
  rfl

/-- A certificate that ends soon gives way to what was received. -/
theorem leaves_renewed {notAfter : ℤ} {text der : Bytes} (hopens : c.opens = true)
    (haik : c.readAikPub.code = .success) (hexpires : ExpiresAt O s notAfter)
    (hsoon : notAfter < c.now + 91 * 86400) (hreceived : Received J c.machine text)
    (hbinary : base64ToBinary (removeCertHeaderAndFooter text) = .ok der) :
    c.leaves O J s = ((writeAikCert c.calls.fails c.calls.erased der).exec s).2 := by
  have hrequired : (c.isAkCertRenewalRequired O s).2 = true :=
    isAkCertRenewalRequired_iff.2 ⟨haik, notAfter, hexpires, hsoon⟩
  obtain ⟨old, cert, hstored, -⟩ := hexpires
  have hder : (renewedDer J (c.machine.on c.calls s)).Returns der :=
    (returns_renewedDer_iff (readAkCertFromTpm_code hstored)).2 ⟨text, hreceived, hbinary⟩
  rw [leaves, if_pos hopens, akCertStageOn_store, if_pos hrequired, renewAndReplaceAkCertOn_store hder]

/-- The TPM is left as it was, or the certificate was about to end and gave way to a part of one that was received. -/
theorem leaves_cases :
    c.leaves O J s = s ∨
      (∃ notAfter, ExpiresAt O s notAfter ∧ notAfter < c.now + 91 * 86400) ∧
        ∃ text der, Received J c.machine text ∧ base64ToBinary (removeCertHeaderAndFooter text) = .ok der ∧
          Left c.calls.erased der s (c.leaves O J s) := by
  unfold leaves
  cases hopens : c.opens with
  | false => exact .inl rfl
  | true =>
      rw [if_pos rfl, akCertStageOn_store]
      cases hrequired : (c.isAkCertRenewalRequired O s).2 with
      | false => exact .inl rfl
      | true =>
          obtain ⟨-, hexpires⟩ := isAkCertRenewalRequired_iff.1 hrequired
          obtain ⟨t, ⟨old, cert, hstored, -⟩, -⟩ := id hexpires
          have hread := readAkCertFromTpm_code (c := c) hstored
          rw [if_pos rfl]
          by_cases hder : ∃ der, (renewedDer J (c.machine.on c.calls s)).Returns der
          · obtain ⟨der, hder⟩ := hder
            obtain ⟨text, hreceived, hbinary⟩ := (returns_renewedDer_iff hread).1 hder
            rw [renewAndReplaceAkCertOn_store hder]
            obtain hsame | hleft := writeAikCert_left c.calls.fails c.calls.erased s der
            · exact .inl hsame
            · exact .inr ⟨hexpires, text, der, hreceived, hbinary, hleft⟩
          · exact .inl (renewAndReplaceAkCertOn_unwritten (not_exists.1 hder)).2

/-- What a call sends holds the certificate that it leaves stored. -/
theorem Sends.stored {p : AttestationParameters} (h : c.Sends O J s p) : Stored (c.leaves O J s) p.tpmInfo.aikCert := by
  unfold Sends prepare at h
  rw [Fallible.returns_bind_iff] at h
  obtain ⟨dns, -, h⟩ := h
  rw [Fallible.returns_bind_iff] at h
  obtain ⟨payload, -, h⟩ := h
  rw [Fallible.returns_bind_iff] at h
  obtain ⟨evidence, hevidence, h⟩ := h
  have hp : evidence = p := by
    by_cases hvalid : evidence.validate = true
    · rw [if_pos hvalid, Fallible.returns_pure_iff] at h
      exact h
    · rw [if_neg hvalid] at h
      exact absurd h Fallible.not_returns_throw
  subst hp
  unfold getAttestationParameters at hevidence
  simp only [Fallible.returns_bind_iff, Fallible.returns_pure_iff] at hevidence
  obtain ⟨-, -, isolation, -, ⟨⟩, htpm, rfl⟩ := hevidence
  rw [returns_check_iff] at htpm
  have hinfo : (c.machineOn O J s).tpmInfo = c.getTpmInfo (c.leaves O J s) := rfl
  rw [hinfo] at htpm ⊢
  cases hread : ((getAIKCert c.calls.reads).exec (c.leaves O J s)).1 with
  | ok aikCert =>
      have hcert : (c.getTpmInfo (c.leaves O J s)).2.aikCert = aikCert := by
        rw [getTpmInfo, hread]
      rw [hcert]
      exact getAIKCert_eq_ok_iff.1 hread
  | error e =>
      rw [getTpmInfo, hread] at htpm
      cases htpm

/-- Without a certificate that can be read the call ends with the error of the TPM, before anything is sent. -/
theorem attestOn_unread (hopens : c.opens = true) (hrc : ∀ e, c.calls.rc e ≠ 0) (hs : ∀ cert, ¬Stored s cert) :
    ∃ e, c.attestOn O J s =
      (.ok ⟨⟨.tpmOperationFailure, tss2What e.what (c.calls.rc e), c.calls.rc e⟩, none, 0, 0⟩, s) := by
  cases hread : ((getAIKCert c.calls.reads).exec s).1 with
  | ok cert => exact absurd (getAIKCert_eq_ok_iff.1 hread) (hs cert)
  | error e =>
      generalize hresult : (⟨.tpmOperationFailure, tss2What e.what (c.calls.rc e), c.calls.rc e⟩ :
        AttestationResult) = result
      have hcode : result.code ≠ .success ∧ result.tpmErrorCode ≠ 0 := by
        rw [← hresult]
        exact ⟨nofun, hrc e⟩
      have hrequired : c.isAkCertRenewalRequired O s = (result, false) := by
        unfold isAkCertRenewalRequired TpmCalls.readAkCert
        simp only [hread, hresult, hcode.1, ne_eq, not_false_eq_true, if_true]
      have hstage : c.akCertStageOn O J s = (throw ⟨result, hcode.1⟩, s) := by
        unfold akCertStageOn
        simp only [hrequired]
        exact dif_pos hcode
      have hleaves : c.leaves O J s = s := by
        rw [leaves, if_pos hopens, hstage]
      have hprepare : (prepare J (c.machineOn O J s) c.params c.hasOut).run = .ok (.error ⟨result, hcode.1⟩) := by
        unfold opens at hopens
        simp only [Bool.and_eq_true, beq_iff_eq] at hopens
        obtain ⟨⟨hurl, hversion⟩, hout⟩ := hopens
        obtain ⟨url, hurl⟩ := Option.isSome_iff_exists.1 hurl
        rw [prepare, Fallible.run_bind_cases, openEndpoint, hurl]
        dsimp only
        rw [if_neg (by simp [hversion, hout]), Fallible.run_bind_cases, ← akCertStageOn_result, hstage]
        rfl
      refine ⟨e, ?_⟩
      rw [attestOn, hleaves, attest]
      dsimp only
      rw [hprepare, hresult]

end

end AttestCall

/-! ### Runs -/

section

variable (O : Certificates) (J : Jsoncpp)

theorem attestAll_append (calls : List AttestCall) (c : AttestCall) (s : NvStore) :
    attestAll O J (calls ++ [c]) s = c.leaves O J (attestAll O J calls s) := by
  unfold attestAll
  rw [List.foldl_append]
  rfl

theorem FromImds.mono {J : Jsoncpp} {calls : List AttestCall} {content : Bytes} (h : FromImds J calls content)
    (c : AttestCall) : FromImds J (calls ++ [c]) content := by
  obtain ⟨d, hd, text, der, n, hreceived, hbinary, hcontent⟩ := h
  exact ⟨d, List.mem_append_left [c] hd, text, der, n, hreceived, hbinary, hcontent⟩

/-- What the index of the certificate holds after a run is what it held before, or it comes from IMDS. -/
theorem attestAll_content (calls : List AttestCall) (s : NvStore) {i : NvIndex}
    (hi : attestAll O J calls s aikCertIndex = some i) : s aikCertIndex = some i ∨ FromImds J calls i.data := by
  induction calls using List.reverseRecOn generalizing i with
  | nil => exact .inl hi
  | append_singleton calls c ih =>
      rw [attestAll_append] at hi
      obtain hsame | ⟨-, text, der, hreceived, hbinary, index, hleft, hbegun⟩ :=
        AttestCall.leaves_cases (O := O) (J := J) (c := c) (s := attestAll O J calls s)
      · rw [hsame] at hi
        exact (ih hi).imp_right fun h => h.mono c
      · right
        rw [hleft, Function.update_self] at hi
        obtain ⟨n, hdata, -⟩ := hbegun i hi
        exact ⟨c, List.mem_append_right calls (List.mem_singleton_self c), text, der, n, hreceived, hbinary, hdata⟩

theorem attestAll_other (calls : List AttestCall) (s : NvStore) {index : Handle} (hindex : index ≠ aikCertIndex) :
    attestAll O J calls s index = s index := by
  induction calls using List.reverseRecOn with
  | nil => rfl
  | append_singleton calls c ih =>
      rw [attestAll_append, ← ih]
      obtain hsame | ⟨-, text, der, -, -, _, hleft, -⟩ :=
        AttestCall.leaves_cases (O := O) (J := J) (c := c) (s := attestAll O J calls s)
      · rw [hsame]
      · rw [hleft, Function.update_of_ne hindex]

end

/-- **Where the certificates come from**, in every run of calls from any store. No index but the one of the certificate is
touched. What that one holds, and what each call sends as the certificate, was stored when the run began or is a part of
what a text that one of the calls received decodes to. -/
theorem attestAll_certificates (O : Certificates) (J : Jsoncpp) (calls : List AttestCall) (s : NvStore) :
    (∀ index, index ≠ aikCertIndex → attestAll O J calls s index = s index) ∧
      (∀ i, attestAll O J calls s aikCertIndex = some i → s aikCertIndex = some i ∨ FromImds J calls i.data) ∧
      ∀ c p, c.Sends O J (attestAll O J calls s) p →
        Stored s p.tpmInfo.aikCert ∨ FromImds J (calls ++ [c]) p.tpmInfo.aikCert := by
  refine ⟨fun _ => attestAll_other O J calls s, fun _ => attestAll_content O J calls s, ?_⟩
  intro c p hsends
  obtain ⟨i, hi, hdata, hread⟩ := hsends.stored
  rw [← attestAll_append] at hi
  obtain hold | hnew := attestAll_content O J (calls ++ [c]) s hi
  · exact .inl ⟨i, hold, hdata, hread⟩
  · right
    rw [← hdata]
    exact hnew

namespace Sample

/-- A call at a given time on a machine where IMDS answers the query for the renewed certificate. -/
def asking (now : ℤ) (query : Bytes) : AttestCall where
  now := now
  calls := calls
  readAikPub := .success
  machine := queried query
  network := ⟨fun _ => ⟨[], .failed []⟩, fun _ => true⟩
  unsealer := ⟨fun _ _ => .unknown, fun _ _ _ _ => .error []⟩
  params := ⟨clientParamsVersion, some [], none⟩
  hasOut := true

end Sample

/-- Every certificate that ends soon can be replaced by another one. -/
theorem exists_replacing (O : Certificates) (J : Jsoncpp) {s : NvStore} {now notAfter : ℤ}
    (hexpires : ExpiresAt O s notAfter) (hsoon : notAfter < now + 91 * 86400) :
    ∃ c : AttestCall, c.now = now ∧ c.leaves O J s ≠ s := by
  obtain ⟨old, cert, hstored, -⟩ := id hexpires
  have hreplace : ∀ new, new ≠ old → ∀ text, text ≠ [] → new.length ≤ 65535 →
      base64ToBinary (removeCertHeaderAndFooter text) = .ok new → (Sample.asking now text).leaves O J s ≠ s := by
    intro new hnew text htext hsize hbinary hsame
    have hvm : ascii "vm" ≠ [] := by decide
    have hguid : ascii "guid" ≠ [] := by decide
    have hreceived : Received J (Sample.asking now text).machine text := ⟨hvm, htext, .inr ⟨rfl, hguid, rfl⟩⟩
    have hleaves := AttestCall.leaves_renewed (c := Sample.asking now text) rfl rfl hexpires hsoon hreceived hbinary
    have hcalls : ∀ call, (Sample.asking now text).calls.fails call = false := fun _ => rfl
    obtain ⟨s', hwrite, hstored'⟩ := writeAikCert_stores (Sample.asking now text).calls.erased hstored hsize hcalls
    rw [hsame, hwrite] at hleaves
    dsimp only at hleaves
    rw [← hleaves] at hstored'
    exact hnew (hstored'.unique hstored)
  by_cases hold : old = [0]
  · refine ⟨Sample.asking now (ascii "AQ=="), rfl, hreplace [1] ?_ _ (by decide) (by decide) (by decide +kernel)⟩
    rw [hold]
    decide
  · exact ⟨Sample.asking now (ascii "AA=="), rfl,
      hreplace [0] (Ne.symm hold) _ (by decide) (by decide) (by decide +kernel)⟩

/-- **When nothing is ever replaced**: no run of calls up to some time changes the TPM exactly when the stored
certificate cannot be read by OpenSSL, awaits its replacement, has no end, or ends 91 days after that time or later. -/
theorem attestAll_fixed_iff (O : Certificates) (J : Jsoncpp) (s : NvStore) (time : ℤ) :
    (∀ calls : List AttestCall, (∀ c ∈ calls, c.now ≤ time) → attestAll O J calls s = s) ↔
      ∀ notAfter, ExpiresAt O s notAfter → time + 91 * 86400 ≤ notAfter := by
  constructor
  · intro h notAfter hexpires
    by_contra hsoon
    obtain ⟨c, hnow, hchanged⟩ := exists_replacing O J hexpires (not_le.1 hsoon)
    have hrun : attestAll O J [c] s = s := by
      apply h
      rw [List.forall_mem_singleton]
      exact le_of_eq hnow
    exact hchanged hrun
  · intro h calls hcalls
    induction calls using List.reverseRecOn with
    | nil => rfl
    | append_singleton calls c ih =>
        rw [List.forall_mem_append, List.forall_mem_singleton] at hcalls
        rw [attestAll_append, ih hcalls.1]
        obtain hsame | ⟨⟨notAfter, hexpires, hsoon⟩, -⟩ := AttestCall.leaves_cases (O := O) (J := J) (c := c) (s := s)
        · exact hsame
        · have hlate := h notAfter hexpires
          have hnow := hcalls.2
          omega

/-- What cannot be read is never replaced. -/
theorem attestAll_unread {O : Certificates} {J : Jsoncpp} {s : NvStore} (hs : ∀ cert, ¬Stored s cert)
    (calls : List AttestCall) : attestAll O J calls s = s := by
  induction calls with
  | nil => rfl
  | cons c calls ih =>
      have hsame : c.leaves O J s = s := by
        obtain hsame | ⟨⟨_, ⟨der, -, hstored, -⟩, -⟩, -⟩ := AttestCall.leaves_cases (O := O) (J := J) (c := c) (s := s)
        · exact hsame
        · exact absurd hstored (hs der)
      show attestAll O J calls (c.leaves O J s) = s
      rw [hsame, ih]

/-- **A replacement that stops at the wrong moment ends attestation for good.** The old index is removed, and the
definition of the new one or the first write to it fails: every later call, after any run of others, returns the error
of the TPM without sending anything, and leaves the TPM as it is. -/
theorem attestOn_after_lost (O : Certificates) (J : Jsoncpp) (s : NvStore) (c : AttestCall) (notAfter : ℤ)
    (text der : Bytes) (hopens : c.opens = true) (haik : c.readAikPub.code = .success)
    (hexpires : ExpiresAt O s notAfter) (hsoon : notAfter < c.now + 91 * 86400) (hreceived : Received J c.machine text)
    (hbinary : base64ToBinary (removeCertHeaderAndFooter text) = .ok der) (hder : der ≠ [] ∧ der.length ≤ 65535)
    (hremoved : c.calls.fails .openUndefine = false ∧ c.calls.fails .undefine = false)
    (hstops : c.calls.fails .define = true ∨ c.calls.fails .openWrite = true ∨ c.calls.fails (.write 0) = true) :
    let lost := c.leaves O J s
    ∀ (calls : List AttestCall) (later : AttestCall), later.opens = true → (∀ e, later.calls.rc e ≠ 0) →
      ∃ e, later.attestOn O J (attestAll O J calls lost) =
        (.ok ⟨⟨.tpmOperationFailure, tss2What e.what (later.calls.rc e), later.calls.rc e⟩, none, 0, 0⟩, lost) := by
  intro lost calls later hlater hrc
  obtain ⟨old, cert, hstored, -⟩ := id hexpires
  have hlost : ∀ cert, ¬Stored lost cert := by
    intro cert
    show ¬Stored (c.leaves O J s) cert
    rw [AttestCall.leaves_renewed hopens haik hexpires hsoon hreceived hbinary]
    exact writeAikCert_lost c.calls.erased hstored hder.1 (by omega) hremoved.1 hremoved.2 hstops cert
  rw [attestAll_unread hlost]
  exact AttestCall.attestOn_unread hlater hrc hlost

namespace Sample

def diff (start stop : ℤ) : ℤ × ℤ :=
  if start ≤ stop then ((stop - start) / 86400, (stop - start) % 86400)
  else (-((start - stop) / 86400), -((start - stop) % 86400))

theorem diff_total (start stop : ℤ) : (diff start stop).1 * 86400 + (diff start stop).2 = stop - start := by
  unfold diff
  split_ifs <;> dsimp only <;> omega

theorem diff_seconds (start stop : ℤ) : |(diff start stop).2| < 86400 := by
  rw [abs_lt]
  unfold diff
  split_ifs <;> dsimp only <;> omega

theorem diff_sign (start stop : ℤ) : 0 ≤ (diff start stop).1 * (diff start stop).2 := by
  unfold diff
  split_ifs
  · exact mul_nonneg (by dsimp only; omega) (by dsimp only; omega)
  · exact mul_nonneg_of_nonpos_of_nonpos (by dsimp only; omega) (by dsimp only; omega)

/-- Every text is a certificate that ends at time 0. -/
def certificates : Certificates where
  X509 := Unit
  readPem _ := some ()
  issuerName _ := []
  notAfter _ := some 0
  asn1TimeDiff := diff
  diff_total := diff_total
  diff_seconds := diff_seconds
  diff_sign := diff_sign

/-- The definition of the index fails, and errors have code 1. -/
def failing : AttestCall :=
  { asking 0 (ascii "AA==") with calls := { calls with fails := fun c => c = .define, rc := fun _ => 1 } }

end Sample

open Sample in
/-- The call that loses the certificate, and the same call once more. -/
theorem attestOn_after_lost_sample :
    Stored sampleStore [1] ∧
      (failing.attestOn certificates noJson (failing.leaves certificates noJson sampleStore)).1.toOption.map
        (fun run => run.result.code) = some .tpmOperationFailure := by
  have hreceived : Received noJson failing.machine (ascii "AA==") := ⟨by decide, by decide, .inr ⟨rfl, by decide, rfl⟩⟩
  have hexpires : ExpiresAt certificates sampleStore 0 := ⟨[1], (), stored_sampleStore, rfl, by decide, rfl⟩
  obtain ⟨e, hlater⟩ := attestOn_after_lost certificates noJson sampleStore failing 0 (ascii "AA==") [0] rfl rfl hexpires
    (by decide) hreceived (by decide +kernel) (by decide) ⟨rfl, rfl⟩ (.inl rfl) [] failing rfl fun _ => Nat.one_ne_zero
  refine ⟨stored_sampleStore, ?_⟩
  have hagain : failing.attestOn certificates noJson (failing.leaves certificates noJson sampleStore) = _ := hlater
  rw [hagain]
  rfl

end CvmAttestation.Client
