import CvmAttestation.SecretsToken
import Mathlib.Tactic

/-! The guest key. `Tss2Wrapper` of the secrets library works on one persistent handle of the TPM: a key is created under
the owner hierarchy and made persistent there, removed from there, and used there. What `CreatePrimary` derives depends
only on the seed of the hierarchy and on the template, so the key that comes back after a removal is the same one, and
what was encrypted before can be decrypted again. -/

namespace CvmAttestation.Secrets.Tss2

open Base

/-- The RSA keys of a TPM and its commands on them; encryption draws random bytes for the padding. -/
structure RsaTpm where
  Key : Type
  publicKey : Key → Bytes
  encrypt : Key → RsaPaddingScheme → (random plain : Bytes) → Option Bytes
  decrypt : Key → RsaPaddingScheme → (cipher : Bytes) → Option Bytes
  decrypt_encrypt : ∀ {key scheme random plain cipher}, encrypt key scheme random plain = some cipher →
    decrypt key scheme cipher = some plain
  length_encrypt : ∀ {key scheme random plain cipher}, encrypt key scheme random plain = some cipher →
    cipher.length ≤ 512

/-- The calls of the wrapper and of the context it opens. -/
inductive TssCall
  | tctiSize
  | tctiInit
  | esysInit
  | setOwnerAuth
  | fromTpmPublic
  | setKeyAuth
  | rsaEncrypt
  | rsaDecrypt
  | createPrimary
  | evictControl
  deriving DecidableEq, Repr

/-- The calls that fail for a reason of their own. -/
abbrev Refusals := TssCall → Bool

/-- What leaves an operation: an exception, or a store beyond the end of a buffer, which is none. -/
inductive Fault
  | thrown (e : Exc)
  | outOfBounds
  deriving DecidableEq, Repr

/-- The size of `buffer` in a `TPM2B_PUBLIC_KEY_RSA`. -/
def maxRsaKeyBytes : ℕ := 512

/-- `std::copy(data.begin(), data.end(), plain.buffer)`. -/
def fillBuffer (data : Bytes) : Except Fault Bytes :=
  if data.length ≤ maxRsaKeyBytes then .ok data else .error .outOfBounds

/-- The code of the `TpmError` that is thrown when a call fails. -/
def TssCall.code : TssCall → ErrorCode
  | .tctiSize | .tctiInit => .tpmErrorContextTctiInitError
  | .esysInit => .tpmErrorContextEsysInitError
  | .setOwnerAuth | .setKeyAuth => .tpmErrorAuthSetAuthError
  | .fromTpmPublic => .tpmErrorHandlesHandlePresentError
  | .rsaEncrypt => .cryptographyErrorTpmRsaEncryptError
  | .rsaDecrypt => .cryptographyErrorTpmRsaDecryptError
  | .createPrimary => .tpmErrorObjectsCreateError
  | .evictControl => .tpmErrorHandlesEvictControlError

theorem TssCall.code_ne (call : TssCall) : call.code ≠ .success := by
  intro h
  cases call <;> cases h

def TssCall.failed (call : TssCall) : Fault := .thrown (.tpmError ⟨call.code, call.code_ne⟩)

section

variable {α : Type} (R : RsaTpm) (ownerKey : R.Key) (refuses : Refusals)

/-- `if (call != TSS2_RC_SUCCESS) throw TpmError(.., code)`. -/
def esys (call : TssCall) : Except Fault Unit :=
  if refuses call then .error call.failed else .ok ()

/-- The constructors of `Tss2Wrapper` and `TssCtx`. -/
def newWrapper : Except Fault Unit := do
  esys refuses .tctiSize
  esys refuses .tctiInit
  esys refuses .esysInit

/-- `Esys_TR_FromTPMPublic` on `KEYHANDLE`, where `handle` is what is kept there. -/
def fromTpmPublic (handle : Option R.Key) : Except Fault R.Key :=
  match handle with
  | some key => if refuses .fromTpmPublic then .error TssCall.fromTpmPublic.failed else .ok key
  | none => .error TssCall.fromTpmPublic.failed

def isKeyPresent (handle : Option R.Key) : Bool :=
  match fromTpmPublic R refuses handle with
  | .ok _ => true
  | .error _ => false

/-- `Tss2Wrapper::RemoveKey`: what it returns, and what it leaves at the handle. -/
def removeKey (handle : Option R.Key) : Except Fault Unit × Option R.Key :=
  match fromTpmPublic R refuses handle with
  | .error e => (.error e, handle)
  | .ok _ =>
    if refuses .evictControl then (.error TssCall.evictControl.failed, handle)
    else (.ok (), none)

/-- `Tss2Wrapper::GenerateGuestKey`. The TPM makes nothing persistent at a handle that is taken. -/
def generateGuestKey (handle : Option R.Key) : Except Fault Bytes × Option R.Key :=
  if refuses .createPrimary then (.error TssCall.createPrimary.failed, handle)
  else if refuses .evictControl || handle.isSome then
    (.error TssCall.evictControl.failed, handle)
  else (.ok (R.publicKey ownerKey), some ownerKey)

/-- `Esys_RSA_Encrypt` and `Esys_RSA_Decrypt`, whose text the TPM may find fault with. -/
def rsaCall (call : TssCall) (text : Option Bytes) : Except Fault Bytes :=
  match text with
  | some t => if refuses call then .error call.failed else .ok t
  | none => .error call.failed

def tss2RsaEncrypt (handle : Option R.Key) (random plaintextData : Bytes) (paddingScheme : RsaPaddingScheme) :
    Except Fault Bytes := do
  let primaryHandle ← fromTpmPublic R refuses handle
  esys refuses .setKeyAuth
  let plain ← fillBuffer plaintextData
  rsaCall refuses .rsaEncrypt (R.encrypt primaryHandle paddingScheme random plain)

def tss2RsaDecrypt (handle : Option R.Key) (encryptedData : Bytes) (paddingScheme : RsaPaddingScheme) :
    Except Fault Bytes := do
  esys refuses .setOwnerAuth
  let primaryHandle ← fromTpmPublic R refuses handle
  esys refuses .setKeyAuth
  let cipher ← fillBuffer encryptedData
  rsaCall refuses .rsaDecrypt (R.decrypt primaryHandle paddingScheme cipher)

/-- `is_secrets_provisioning_enabled`. -/
def isSecretsProvisioningEnabled (handle : Option R.Key) : ℤ :=
  match newWrapper refuses with
  | .error _ => -1
  | .ok () => if isKeyPresent R refuses handle then 1 else 0

end

/-! ### Runs -/

inductive Operation
  | generateGuestKey
  | removeKey
  | isKeyPresent
  | rsaEncrypt (random plain : Bytes) (scheme : RsaPaddingScheme)
  | rsaDecrypt (cipher : Bytes) (scheme : RsaPaddingScheme)
  deriving DecidableEq, Repr

inductive Response
  | publicKey (bytes : Bytes)
  | removed
  | present (b : Bool)
  | text (bytes : Bytes)
  deriving DecidableEq, Repr

/-- An operation on a wrapper of its own, with the calls that fail in it. -/
structure Step where
  operation : Operation
  refuses : Refusals

section

variable (R : RsaTpm) (ownerKey : R.Key)

def Step.perform (step : Step) (handle : Option R.Key) : Except Fault Response × Option R.Key :=
  match newWrapper step.refuses with
  | .error e => (.error e, handle)
  | .ok () =>
    match step.operation with
    | .generateGuestKey =>
      let (r, handle) := generateGuestKey R ownerKey step.refuses handle
      (r.map .publicKey, handle)
    | .removeKey =>
      let (r, handle) := removeKey R step.refuses handle
      (r.map fun _ => .removed, handle)
    | .isKeyPresent => (.ok (.present (isKeyPresent R step.refuses handle)), handle)
    | .rsaEncrypt random plain scheme => ((tss2RsaEncrypt R step.refuses handle random plain scheme).map .text, handle)
    | .rsaDecrypt cipher scheme => ((tss2RsaDecrypt R step.refuses handle cipher scheme).map .text, handle)

/-- What a run leaves at the handle. -/
def after (handle : Option R.Key) (steps : List Step) : Option R.Key :=
  steps.foldl (fun handle step => (step.perform R ownerKey handle).2) handle

/-- What the steps of a run return. -/
def responses (handle : Option R.Key) : List Step → List (Operation × Except Fault Response)
  | [] => []
  | step :: steps =>
    (step.operation, (step.perform R ownerKey handle).1) :: responses (step.perform R ownerKey handle).2 steps

/-- Whether the handle is taken, as far as the caller has been told. -/
def toldPresent (present : Bool) : List (Operation × Except Fault Response) → Bool
  | [] => present
  | (.generateGuestKey, .ok _) :: told => toldPresent true told
  | (.removeKey, .ok _) :: told => toldPresent false told
  | _ :: told => toldPresent present told

/-! ### One step -/

/-- What a step can do to the handle. -/
inductive Change (operation : Operation) (handle : Option R.Key) : Except Fault Response × Option R.Key → Prop
  | kept {r : Except Fault Response}
    (h : ∀ response, r = .ok response → operation ≠ .generateGuestKey ∧ operation ≠ .removeKey) :
    Change operation handle (r, handle)
  | created (hop : operation = .generateGuestKey) (hnone : handle = none) (response : Response) :
    Change operation handle (.ok response, some ownerKey)
  | removed (hop : operation = .removeKey) (hsome : handle ≠ none) (response : Response) :
    Change operation handle (.ok response, none)

variable {R ownerKey} {refuses : Refusals} {handle : Option R.Key} {key : R.Key} {scheme : RsaPaddingScheme}
  {random plain cipher : Bytes}

theorem perform_cases (step : Step) (handle : Option R.Key) :
    Change R ownerKey step.operation handle (step.perform R ownerKey handle) := by
  obtain ⟨operation, refuses⟩ := step
  rw [Step.perform]
  cases newWrapper refuses with
  | error e => exact .kept nofun
  | ok u =>
      cases operation with
      | generateGuestKey =>
          simp only [generateGuestKey]
          split_ifs with hcreate hevict
          · exact .kept nofun
          · exact .kept nofun
          · refine .created rfl ?_ _
            rw [Bool.or_eq_true, not_or, Bool.not_eq_true, Bool.not_eq_true, Option.isSome_eq_false_iff,
              Option.isNone_iff_eq_none] at hevict
            exact hevict.2
      | removeKey =>
          simp only [removeKey]
          cases hread : fromTpmPublic R refuses handle with
          | error e => exact .kept nofun
          | ok key =>
              split_ifs with hevict
              · exact .kept nofun
              · refine .removed rfl ?_ _
                rintro rfl
                cases hread
      | isKeyPresent => exact .kept fun _ _ => ⟨nofun, nofun⟩
      | rsaEncrypt random plain scheme => exact .kept fun _ _ => ⟨nofun, nofun⟩
      | rsaDecrypt cipher scheme => exact .kept fun _ _ => ⟨nofun, nofun⟩

theorem esys_ok_iff {call : TssCall} : esys refuses call = .ok () ↔ refuses call = false := by
  rw [esys]
  cases refuses call <;> simp

theorem fromTpmPublic_ok_iff : fromTpmPublic R refuses handle = .ok key ↔
    handle = some key ∧ refuses .fromTpmPublic = false := by
  cases handle with
  | none => simp [fromTpmPublic]
  | some k => cases h : refuses .fromTpmPublic <;> simp [fromTpmPublic, h]

theorem rsaCall_ok_iff {call : TssCall} {text : Option Bytes} {t : Bytes} :
    rsaCall refuses call text = .ok t ↔ text = some t ∧ refuses call = false := by
  cases text with
  | none => simp [rsaCall]
  | some t' => cases h : refuses call <;> simp [rsaCall, h]

theorem fillBuffer_ok_iff {data buffer : Bytes} :
    fillBuffer data = .ok buffer ↔ data.length ≤ maxRsaKeyBytes ∧ buffer = data := by
  rw [fillBuffer]
  split_ifs with h <;> simp [h, eq_comm]

theorem tss2RsaEncrypt_ok_iff : tss2RsaEncrypt R refuses handle random plain scheme = .ok cipher ↔
    ∃ key, handle = some key ∧ R.encrypt key scheme random plain = some cipher ∧ plain.length ≤ maxRsaKeyBytes ∧
      refuses .fromTpmPublic = false ∧ refuses .setKeyAuth = false ∧ refuses .rsaEncrypt = false := by
  simp only [tss2RsaEncrypt, bind_returns, fromTpmPublic_ok_iff, fillBuffer_ok_iff, rsaCall_ok_iff]
  constructor
  · rintro ⟨key, ⟨hkey, hread⟩, u, hauth, buffer, ⟨hlen, rfl⟩, hencrypt, hrsa⟩
    exact ⟨key, hkey, hencrypt, hlen, hread, esys_ok_iff.1 hauth, hrsa⟩
  · rintro ⟨key, hkey, hencrypt, hlen, hread, hauth, hrsa⟩
    exact ⟨key, ⟨hkey, hread⟩, (), esys_ok_iff.2 hauth, plain, ⟨hlen, rfl⟩, hencrypt, hrsa⟩

theorem tss2RsaDecrypt_ok_iff : tss2RsaDecrypt R refuses handle cipher scheme = .ok plain ↔
    ∃ key, handle = some key ∧ R.decrypt key scheme cipher = some plain ∧ cipher.length ≤ maxRsaKeyBytes ∧
      refuses .setOwnerAuth = false ∧ refuses .fromTpmPublic = false ∧ refuses .setKeyAuth = false ∧
        refuses .rsaDecrypt = false := by
  simp only [tss2RsaDecrypt, bind_returns, fromTpmPublic_ok_iff, fillBuffer_ok_iff, rsaCall_ok_iff]
  constructor
  · rintro ⟨u, howner, key, ⟨hkey, hread⟩, u', hauth, buffer, ⟨hlen, rfl⟩, hdecrypt, hrsa⟩
    exact ⟨key, hkey, hdecrypt, hlen, esys_ok_iff.1 howner, hread, esys_ok_iff.1 hauth, hrsa⟩
  · rintro ⟨key, hkey, hdecrypt, hlen, howner, hread, hauth, hrsa⟩
    exact ⟨(), esys_ok_iff.2 howner, key, ⟨hkey, hread⟩, (), esys_ok_iff.2 hauth, cipher, ⟨hlen, rfl⟩, hdecrypt, hrsa⟩

/-- When a decryption leaves its buffer: a text that is too long reaches the copy. -/
theorem tss2RsaDecrypt_outOfBounds_iff : tss2RsaDecrypt R refuses handle cipher scheme = .error .outOfBounds ↔
    maxRsaKeyBytes < cipher.length ∧ handle ≠ none ∧ refuses .setOwnerAuth = false ∧ refuses .fromTpmPublic = false ∧
      refuses .setKeyAuth = false := by
  have hrsa : ∀ key : R.Key, rsaCall refuses .rsaDecrypt (R.decrypt key scheme cipher) ≠ .error .outOfBounds := by
    intro key h
    cases htext : R.decrypt key scheme cipher with
    | none =>
        rw [htext] at h
        cases h
    | some text =>
        rw [htext] at h
        cases hcall : refuses .rsaDecrypt <;> simp [rsaCall, hcall, TssCall.failed] at h
  rw [tss2RsaDecrypt, esys, esys]
  cases refuses .setOwnerAuth with
  | true => simp [TssCall.failed, bind, Except.bind]
  | false =>
      cases handle with
      | none => simp [fromTpmPublic, TssCall.failed, bind, Except.bind]
      | some key =>
          rw [fromTpmPublic]
          cases refuses .fromTpmPublic with
          | true => simp [TssCall.failed, bind, Except.bind]
          | false =>
              cases refuses .setKeyAuth with
              | true => simp [TssCall.failed, bind, Except.bind]
              | false =>
                  rw [fillBuffer]
                  by_cases hlen : cipher.length ≤ maxRsaKeyBytes
                  · simp [hlen, hrsa, bind, Except.bind]
                  · simp [hlen, bind, Except.bind, Nat.lt_of_not_le hlen]

theorem tss2RsaEncrypt_inside (h : plain.length ≤ maxRsaKeyBytes) :
    tss2RsaEncrypt R refuses handle random plain scheme ≠ .error .outOfBounds := by
  intro hout
  rw [tss2RsaEncrypt] at hout
  cases hread : fromTpmPublic R refuses handle with
  | error e =>
      rw [hread] at hout
      cases hout
      cases handle with
      | none => cases hread
      | some key => cases hrefused : refuses .fromTpmPublic <;> simp [fromTpmPublic, hrefused, TssCall.failed] at hread
  | ok key =>
      rw [hread, ok_bind, esys] at hout
      split_ifs at hout
      · cases hout
      · rw [ok_bind, fillBuffer, if_pos h, ok_bind] at hout
        cases htext : R.encrypt key scheme random plain with
        | none =>
            rw [htext] at hout
            cases hout
        | some text =>
            rw [htext] at hout
            cases hcall : refuses .rsaEncrypt <;> simp [rsaCall, hcall, TssCall.failed] at hout

/-! ### Whole runs -/

theorem after_append (handle : Option R.Key) (earlier later : List Step) :
    after R ownerKey handle (earlier ++ later) = after R ownerKey (after R ownerKey handle earlier) later :=
  List.foldl_append ..

theorem after_cons (handle : Option R.Key) (step : Step) (steps : List Step) :
    after R ownerKey handle (step :: steps) = after R ownerKey (step.perform R ownerKey handle).2 steps := rfl

/-- The handle holds what it held at first, nothing, or the key of the owner. -/
theorem after_cases (handle : Option R.Key) (steps : List Step) :
    after R ownerKey handle steps = handle ∨ after R ownerKey handle steps = none ∨
      after R ownerKey handle steps = some ownerKey := by
  induction steps generalizing handle with
  | nil => exact .inl rfl
  | cons step steps ih =>
      have hstep := @perform_cases R ownerKey step handle
      rw [after_cons]
      generalize step.perform R ownerKey handle = out at hstep
      cases hstep with
      | kept h => exact ih handle
      | created hop hnone response =>
          rcases ih (some ownerKey) with h | h
          · exact .inr (.inr h)
          · exact .inr h
      | removed hop hsome response =>
          rcases ih none with h | h
          · exact .inr (.inl h)
          · exact .inr h

/-- A guest key that was there once is the one that is there again. -/
theorem after_guest {steps : List Step} (h : handle = none ∨ handle = some ownerKey)
    (hkey : after R ownerKey handle steps = some key) : key = ownerKey := by
  rcases @after_cases R ownerKey handle steps with hafter | hafter | hafter
  · rcases h with h | h
    · rw [hafter, h] at hkey
      cases hkey
    · rw [hafter, h] at hkey
      exact (Option.some.inj hkey).symm
  · rw [hafter] at hkey
    cases hkey
  · rw [hafter] at hkey
    exact (Option.some.inj hkey).symm

theorem toldPresent_kept {present : Bool} {operation : Operation} {r : Except Fault Response}
    (h : ∀ response, r = .ok response → operation ≠ .generateGuestKey ∧ operation ≠ .removeKey)
    (told : List (Operation × Except Fault Response)) :
    toldPresent present ((operation, r) :: told) = toldPresent present told := by
  cases r with
  | error e => cases operation <;> rfl
  | ok response =>
      obtain ⟨hgenerate, hremove⟩ := h response rfl
      cases operation with
      | generateGuestKey => exact absurd rfl hgenerate
      | removeKey => exact absurd rfl hremove
      | isKeyPresent => rfl
      | rsaEncrypt random plain scheme => rfl
      | rsaDecrypt cipher scheme => rfl

/-- The caller can tell from what the operations returned whether the handle is taken. -/
theorem toldPresent_responses (handle : Option R.Key) (steps : List Step) :
    toldPresent handle.isSome (responses R ownerKey handle steps) = (after R ownerKey handle steps).isSome := by
  induction steps generalizing handle with
  | nil => rfl
  | cons step steps ih =>
      have hstep := @perform_cases R ownerKey step handle
      rw [responses, after_cons]
      generalize step.perform R ownerKey handle = out at hstep
      cases hstep with
      | kept h => rw [toldPresent_kept h, ih]
      | created hop hnone response =>
          rw [hop]
          exact ih (some ownerKey)
      | removed hop hsome response =>
          rw [hop]
          exact ih none

theorem newWrapper_ok_iff : newWrapper refuses = .ok () ↔
    refuses .tctiSize = false ∧ refuses .tctiInit = false ∧ refuses .esysInit = false := by
  simp only [newWrapper, bind_returns]
  constructor
  · rintro ⟨u, hsize, u', hinit, hesys⟩
    exact ⟨esys_ok_iff.1 hsize, esys_ok_iff.1 hinit, esys_ok_iff.1 hesys⟩
  · rintro ⟨hsize, hinit, hesys⟩
    exact ⟨(), esys_ok_iff.2 hsize, (), esys_ok_iff.2 hinit, esys_ok_iff.2 hesys⟩

theorem isSecretsProvisioningEnabled_eq_one_iff : isSecretsProvisioningEnabled R refuses handle = 1 ↔
    newWrapper refuses = .ok () ∧ refuses .fromTpmPublic = false ∧ handle ≠ none := by
  rw [isSecretsProvisioningEnabled]
  cases newWrapper refuses with
  | error e => simp
  | ok u =>
      rw [isKeyPresent]
      cases handle with
      | none => simp [fromTpmPublic]
      | some key => cases h : refuses .fromTpmPublic <;> simp [fromTpmPublic, h]

end

section

variable {R : RsaTpm} {ownerKey key : R.Key} {handle : Option R.Key} {refuses refuses' : Refusals}
  {scheme : RsaPaddingScheme} {random plain cipher : Bytes}

theorem perform_rsaDecrypt (handle : Option R.Key) {u : Unit} (h : newWrapper refuses = .ok u) :
    ((Step.mk (.rsaDecrypt cipher scheme) refuses).perform R ownerKey handle).1 =
      (tss2RsaDecrypt R refuses handle cipher scheme).map .text := by
  rw [Step.perform, h]

/-- A text that was encrypted under the key at the handle, if there is one. -/
def EncryptedUnder (handle : Option R.Key) (scheme : RsaPaddingScheme) (plain cipher : Bytes) : Prop :=
  cipher.length ≤ maxRsaKeyBytes ∧ ∀ key, handle = some key → R.decrypt key scheme cipher = some plain

/-- A decryption of such a text: it stays inside its buffer and returns nothing but the text. -/
theorem EncryptedUnder.decrypt (h : EncryptedUnder handle scheme plain cipher) :
    ((Step.mk (.rsaDecrypt cipher scheme) refuses).perform R ownerKey handle).1 ≠ .error .outOfBounds ∧
      ∀ r, ((Step.mk (.rsaDecrypt cipher scheme) refuses).perform R ownerKey handle).1 = .ok r ↔
        r = .text plain ∧ isSecretsProvisioningEnabled R refuses handle = 1 ∧ refuses .setOwnerAuth = false ∧
          refuses .setKeyAuth = false ∧ refuses .rsaDecrypt = false := by
  obtain ⟨hlen, hdecrypt⟩ := h
  rw [isSecretsProvisioningEnabled_eq_one_iff]
  cases hnew : newWrapper refuses with
  | error e =>
      have herror : ((Step.mk (.rsaDecrypt cipher scheme) refuses).perform R ownerKey handle).1 = .error e := by
        rw [Step.perform, hnew]
      have he : e ≠ .outOfBounds := by
        rintro rfl
        simp only [newWrapper, esys] at hnew
        split_ifs at hnew <;> cases hnew
      rw [herror]
      exact ⟨fun hout => he (Except.error.inj hout), fun r => iff_of_false nofun (fun hr => nomatch hr.2.1.1)⟩
  | ok u =>
      rw [perform_rsaDecrypt handle hnew]
      constructor
      · intro hout
        have hbounds : tss2RsaDecrypt R refuses handle cipher scheme = .error .outOfBounds := by
          cases hd : tss2RsaDecrypt R refuses handle cipher scheme with
          | ok t =>
              rw [hd] at hout
              cases hout
          | error e =>
              rw [hd] at hout
              cases hout
              rfl
        exact absurd (tss2RsaDecrypt_outOfBounds_iff.1 hbounds).1 (by omega)
      · intro r
        constructor
        · intro hr
          cases hd : tss2RsaDecrypt R refuses handle cipher scheme with
          | error e =>
              rw [hd] at hr
              cases hr
          | ok t =>
              rw [hd] at hr
              cases hr
              obtain ⟨key, rfl, hplain, -, howner, hread, hauth, hrsa⟩ := tss2RsaDecrypt_ok_iff.1 hd
              rw [hdecrypt key rfl] at hplain
              cases hplain
              exact ⟨rfl, ⟨rfl, hread, by simp⟩, howner, hauth, hrsa⟩
        · rintro ⟨rfl, ⟨-, hread, hsome⟩, howner, hauth, hrsa⟩
          obtain ⟨key, rfl⟩ := Option.ne_none_iff_exists'.1 hsome
          rw [tss2RsaDecrypt_ok_iff.2 ⟨key, rfl, hdecrypt key rfl, hlen, howner, hread, hauth, hrsa⟩]
          rfl

theorem perform_rsaEncrypt (h : ((Step.mk (.rsaEncrypt random plain scheme) refuses).perform R ownerKey handle).1 =
    .ok (.text cipher)) : tss2RsaEncrypt R refuses handle random plain scheme = .ok cipher := by
  rw [Step.perform] at h
  cases hnew : newWrapper refuses with
  | error e =>
      rw [hnew] at h
      cases h
  | ok u =>
      rw [hnew] at h
      cases he : tss2RsaEncrypt R refuses handle random plain scheme with
      | error e =>
          simp only [he] at h
          cases h
      | ok t =>
          simp only [he] at h
          cases h
          rfl

/-- What was encrypted in a run stays encrypted under whatever the handle holds later in it. -/
theorem encryptedUnder_after (h : handle = none ∨ handle = some ownerKey) {earlier : List Step}
    (hencrypt : tss2RsaEncrypt R refuses (after R ownerKey handle earlier) random plain scheme = .ok cipher)
    (later : List Step) :
    EncryptedUnder (after R ownerKey (after R ownerKey handle earlier) later) scheme plain cipher := by
  obtain ⟨key, hkey, hcipher, -⟩ := tss2RsaEncrypt_ok_iff.1 hencrypt
  obtain rfl := after_guest h hkey
  refine ⟨R.length_encrypt hcipher, fun key' hkey' => ?_⟩
  rw [hkey] at hkey'
  obtain rfl := after_guest (.inr rfl) hkey'
  exact R.decrypt_encrypt hcipher

end

/-- **What is wrapped stays wrapped.** The handle is empty at first or holds the key of the owner. Whatever is generated
and removed in a run, and whichever calls fail, a text that was encrypted in it is decrypted later to the very same or
not at all; it is decrypted exactly when secrets are said to be enabled and no call of the decryption fails; and whether
the handle is taken can be told from what the operations returned. -/
theorem rsaDecrypt_after_run (R : RsaTpm) (ownerKey : R.Key) (handle : Option R.Key)
    (h : handle = none ∨ handle = some ownerKey) (earlier later : List Step) (refuses refuses' : Refusals)
    (random plain cipher : Bytes) (scheme : RsaPaddingScheme)
    (hencrypt : ((Step.mk (.rsaEncrypt random plain scheme) refuses).perform R ownerKey
      (after R ownerKey handle earlier)).1 = .ok (.text cipher)) :
    let steps := earlier ++ ⟨.rsaEncrypt random plain scheme, refuses⟩ :: later
    let now := after R ownerKey handle steps
    let answer := ((Step.mk (.rsaDecrypt cipher scheme) refuses').perform R ownerKey now).1
    answer ≠ .error .outOfBounds ∧ (∀ r, answer = .ok r → r = .text plain) ∧
      ((∃ r, answer = .ok r) ↔ isSecretsProvisioningEnabled R refuses' now = 1 ∧ refuses' .setOwnerAuth = false ∧
        refuses' .setKeyAuth = false ∧ refuses' .rsaDecrypt = false) ∧
      now.isSome = toldPresent handle.isSome (responses R ownerKey handle steps) := by
  intro steps now answer
  have hunder : EncryptedUnder now scheme plain cipher := by
    have hafter := encryptedUnder_after h (perform_rsaEncrypt hencrypt)
      (⟨.rsaEncrypt random plain scheme, refuses⟩ :: later)
    rwa [← after_append] at hafter
  obtain ⟨hinside, hanswer⟩ := @EncryptedUnder.decrypt R ownerKey now refuses' scheme plain cipher hunder
  refine ⟨hinside, fun r hr => ((hanswer r).1 hr).1, ⟨fun ⟨r, hr⟩ => ((hanswer r).1 hr).2, fun hcalls => ?_⟩,
    (toldPresent_responses handle steps).symm⟩
  exact ⟨_, (hanswer _).2 ⟨rfl, hcalls⟩⟩

namespace SampleTpm

/-- A cipher that puts one random byte before the text. -/
def rsaTpm : RsaTpm where
  Key := Unit
  publicKey _ := [1]
  encrypt _ _ random plain := if random.length = 1 ∧ plain.length ≤ 190 then some (random ++ plain) else none
  decrypt _ _ cipher := some (cipher.drop 1)
  decrypt_encrypt := by
    intro key scheme random plain cipher h
    split_ifs at h with hlen
    cases h
    rw [← hlen.1, List.drop_left]
  length_encrypt := by
    intro key scheme random plain cipher h
    split_ifs at h with hlen
    cases h
    rw [List.length_append]
    omega

def willing : Refusals := fun _ => false

end SampleTpm

open SampleTpm in
/-- The key is removed and generated again between the two uses of it. -/
theorem rsaDecrypt_after_run_regenerated :
    ((Step.mk (.rsaDecrypt [9, 7] .rsaes) willing).perform rsaTpm ()
      (after rsaTpm () none ([⟨.generateGuestKey, willing⟩] ++ ⟨.rsaEncrypt [9] [7] .rsaes, willing⟩ ::
        [⟨.removeKey, willing⟩, ⟨.generateGuestKey, willing⟩]))).1 = .ok (.text [7]) := by
  obtain ⟨-, hsound, hreturns, -⟩ := rsaDecrypt_after_run rsaTpm () none (.inl rfl) [⟨.generateGuestKey, willing⟩]
    [⟨.removeKey, willing⟩, ⟨.generateGuestKey, willing⟩] willing willing [9] [7] [9, 7] .rsaes rfl
  obtain ⟨r, hr⟩ := hreturns.2 ⟨rfl, rfl, rfl, rfl⟩
  rw [hr, hsound r hr]

end CvmAttestation.Secrets.Tss2
