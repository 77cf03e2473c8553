import CvmAttestation.SecretsPolicy
import Mathlib.Tactic

/-! The entry points `unprotect_secret` and `unprotect_secret_wide`. A run starts from the caller's two
output parameters and ends with them and with a return value or an exception that escaped; what was
written before an exception stays written. -/

namespace CvmAttestation.Secrets

open Base

section

variable (P : Providers) (claims : Json)

def claimBytes (key : Bytes) : Except Exc Bytes := do
  let value ← ofJson (claims.at? key)
  let text ← ofJson value.getString
  P.base64Decode text

/-- The body of the `try` block of `decrypt_secret`. -/
def decryptClaims (infoData : Bytes) (paddingScheme : RsaPaddingScheme) : Except Exc (Int × Bytes) := do
  let _ ← P.dump claims
  let salt ← claimBytes P claims (ascii "salt")
  let dataNonce ← claimBytes P claims (ascii "dataNonce")
  let wrappingNonce ← claimBytes P claims (ascii "keyNonce")
  let wrappedAesKey ← claimBytes P claims (ascii "wrappedAesTransportKey")
  let encryptedSecret ← claimBytes P claims (ascii "encryptedSecret")
  let encryptedEcdhPrivate ← claimBytes P claims (ascii "encryptedGuestEcdhPrivateKey")
  let exportedPublicKeyData ← claimBytes P claims (ascii "ephemeralEcdhPublicKey")
  let tpm ← P.newTpm
  let aesKey ← P.rsaDecrypt tpm wrappedAesKey paddingScheme
  if aesKey.isEmpty then
    return (ErrorCode.unknownError.toInt, [])
  else
    let aesWrapper ← P.createAesWrapper
    let aesWrapper ← P.setKey aesWrapper aesKey
    let encodedEcdhPrivate ← P.aesDecrypt aesWrapper wrappingNonce encryptedEcdhPrivate
    if encodedEcdhPrivate.isEmpty then
      return (ErrorCode.unknownError.toInt, [])
    else
      let ecdhPrivate ← P.newEcdh
      let ecdhPublic ← P.newEcdh
      let ecdhPrivate ← P.importPkcs8PrivateKey ecdhPrivate encodedEcdhPrivate
      let ecdhPublic ← P.importSubjectPublicKeyInfo ecdhPublic exportedPublicKeyData
      let secret ← P.deriveSecret ecdhPrivate ecdhPublic
      let aesKey ← P.deriveKey secret salt infoData 32
      let aesWrapper ← P.setKey aesWrapper aesKey
      let plaintextData ← P.aesDecrypt aesWrapper dataNonce encryptedSecret
      if plaintextData.isEmpty then
        return (ErrorCode.unknownError.toInt, [])
      else
        return (0, plaintextData)

def decryptError : Exc → FailureCode
  | .tpmError rc => rc
  | .osslError => ⟨.cryptographyError, by decide⟩
  | .outOfRange => ⟨.parsingErrorJwtMissingFieldError, by decide⟩
  | .json .outOfRange => ⟨.parsingErrorJwtMissingFieldError, by decide⟩
  | .json .typeError => ⟨.parsingErrorJwtInvalidFieldError, by decide⟩
  | .jwtError rc => rc
  | _ => ⟨.unknownError, by decide⟩

/-- `decrypt_secret`: the result and what it leaves in `plaintextData`. The UUID is read outside of the
`try` block. -/
def decryptSecret (paddingScheme : RsaPaddingScheme) : Except Exc (Int × Bytes) := do
  let infoString ← P.getSystemUuid
  guarded (decryptClaims P claims infoString paddingScheme) fun e => .ok ((decryptError e).val.toInt, [])

end

/-- The caller's variables `*output_secret` and `*eval_policy`; `none` is a null pointer and a variable
that has not been written. -/
structure Outputs (τ : Type) where
  outputSecret : Option (List τ)
  evalPolicy : Option Word
  deriving DecidableEq, Repr

abbrev Api (τ α : Type) := Proc Exc (Outputs τ) α

def setOutputSecret {τ : Type} (data : Option (List τ)) : Api τ Unit :=
  modify fun s => { s with outputSecret := data }

def setEvalPolicy {τ : Type} (policy : Word) : Api τ Unit :=
  modify fun s => { s with evalPolicy := some policy }

section

variable {τ : Type} (P : Providers) (mem : Memory)

def marshalOutput (data : List τ) : Api τ Int := do
  if data.isEmpty then
    setOutputSecret none
    return 0
  else
    Proc.call (alloc mem .outputBuffer)
    setOutputSecret (some data)
    return data.length

def unprotectError : Exc → FailureCode
  | .jwtError rc => rc
  | .invalidArgument => ⟨.parsingErrorJwtInvalidFieldError, by decide⟩
  | _ => ⟨.unknownError, by decide⟩

def decryptToken (pe : PolicyEvaluator) : Except Exc (Int × Bytes) := do
  let claims ← pe.getClaims mem
  let scheme ← getPaddingScheme pe
  decryptSecret P claims scheme

/-- The data that follows a compliant evaluation, or the code the call ends with: legacy data is copied,
a token is decrypted and its plaintext converted. -/
def gatherData (pe : PolicyEvaluator) (input : List τ)
    (convert : Bytes → Except Exc (Except FailureCode (List τ))) : Except Exc (Except Int (List τ)) := do
  if pe.isLegacy then
    alloc mem .legacyCopy
    return .ok input
  else
    let (result, plaintextData) ← decryptToken P mem pe
    if result ≠ 0 then
      return .error result
    else
      match ← convert plaintextData with
      | .error code => return .error code.val.toInt
      | .ok data => return .ok data

def unprotectWith (evaluator : Except Exc PolicyEvaluator) (input : List τ)
    (convert : Bytes → Except Exc (Except FailureCode (List τ))) : Api τ Int := do
  setOutputSecret none
  tryCatch (do
      let pe ← Proc.call evaluator
      let evalPolicy ← Proc.call (pe.getEvaluatedPolicy mem 0)
      setEvalPolicy evalPolicy
      let compliant ← Proc.call (pe.isCompliant mem)
      if !compliant then
        return ErrorCode.policyMismatchError.toInt
      else
        match ← Proc.call (gatherData P mem pe input convert) with
        | .error result => return result
        | .ok data => marshalOutput mem data)
    fun e => return (unprotectError e).val.toInt

def unprotectSecret (jwt : Bytes) (policy : Word) : Api UInt8 Int :=
  unprotectWith P mem (PolicyEvaluator.ofNarrow P mem policy jwt) jwt fun plaintextData => .ok (.ok plaintextData)

def convertWide (plaintextData : Bytes) : Except Exc (Except FailureCode (List WChar)) := do
  let wideData ← utf8ToWide mem plaintextData
  if wideData.isEmpty && !plaintextData.isEmpty then
    return .error ⟨.parsingErrorJwtInvalidFieldError, by decide⟩
  else
    return .ok wideData

def unprotectSecretWide (jwt : List WChar) (policy : Word) : Api WChar Int :=
  unprotectWith P mem (PolicyEvaluator.ofWide P mem policy jwt) jwt (convertWide mem)

end

/-! ### Decryption -/

section

variable {P : Providers} {claims : Json} {scheme : RsaPaddingScheme} {r : Int} {plaintext : Bytes}

theorem claimBytes_returns {key bytes : Bytes} (h : claimBytes P claims key = .ok bytes) :
    claims.contains key = true := by
  rw [claimBytes, bind_returns] at h
  obtain ⟨value, hv, -⟩ := h
  rw [Json.contains, Json.at?_eq_ok (ofJson_eq_ok hv), Option.isSome_some]

/-- The result of a decryption: a non-empty plaintext of claims that hold an encrypted secret, or a code
and no plaintext. -/
inductive Decryption (claims : Json) : Int → Bytes → Prop
  | plaintext {s : Bytes} (hne : s ≠ []) (henc : claims.contains (ascii "encryptedSecret") = true) :
    Decryption claims 0 s
  | failed (c : FailureCode) : Decryption claims c.val.toInt []

theorem decryptClaims_returns {infoData : Bytes} (h : decryptClaims P claims infoData scheme = .ok (r, plaintext)) :
    Decryption claims r plaintext := by
  have hunknown : Decryption claims ErrorCode.unknownError.toInt [] := .failed ⟨.unknownError, by decide⟩
  simp only [decryptClaims, bind_returns] at h
  obtain ⟨-, -, salt, -, dataNonce, -, wrappingNonce, -, wrappedAesKey, -, encryptedSecret, henc,
    encryptedEcdhPrivate, -, exportedPublicKeyData, -, tpm, -, aesKey, -, h⟩ := h
  split_ifs at h with hkey
  · cases h
    exact hunknown
  simp only [bind_returns] at h
  obtain ⟨aes, -, aes', -, encoded, -, h⟩ := h
  split_ifs at h with hencoded
  · cases h
    exact hunknown
  simp only [bind_returns] at h
  obtain ⟨private', -, public', -, private'', -, public'', -, secret, -, key, -, aes'', -, plain, -, h⟩ := h
  split_ifs at h with hplain
  · cases h
    exact hunknown
  · cases h
    refine .plaintext ?_ (claimBytes_returns henc)
    intro hnil
    rw [hnil] at hplain
    exact hplain rfl

/-- **Decryption** either yields the whole plaintext or fails with a code. -/
theorem decryptSecret_returns (h : decryptSecret P claims scheme = .ok (r, plaintext)) :
    Decryption claims r plaintext := by
  rw [decryptSecret, bind_returns] at h
  obtain ⟨infoString, -, h⟩ := h
  cases hd : decryptClaims P claims infoString scheme with
  | ok out =>
      rw [hd] at h
      injection h with h
      rw [h] at hd
      exact decryptClaims_returns hd
  | error e =>
      rw [hd] at h
      cases h
      exact .failed (decryptError e)

end

theorem Decryption.of_zero {claims : Json} {plaintext : Bytes} (h : Decryption claims 0 plaintext) :
    plaintext ≠ [] ∧ claims.contains (ascii "encryptedSecret") = true := by
  generalize hr : (0 : Int) = r at h
  cases h with
  | plaintext hne henc => exact ⟨hne, henc⟩
  | failed c =>
      have := ErrorCode.toInt_neg c.property
      omega

/-! ### What a run can do -/

section

variable {τ : Type} {P : Providers} {mem : Memory} {evaluator : Except Exc PolicyEvaluator} {input : List τ}
  {convert : Bytes → Except Exc (Except FailureCode (List τ))}

/-- Where the data that is handed out comes from. -/
inductive Gathered (P : Providers) (mem : Memory) (pe : PolicyEvaluator) (input : List τ)
    (convert : Bytes → Except Exc (Except FailureCode (List τ))) : List τ → Prop
  | legacy (hl : pe.isLegacy = true) : Gathered P mem pe input convert input
  | token {plaintext : Bytes} {data : List τ} (hl : pe.isLegacy = false)
    (hd : decryptToken P mem pe = .ok (0, plaintext)) (hv : convert plaintext = .ok (.ok data)) :
    Gathered P mem pe input convert data

theorem gatherData_token {pe : PolicyEvaluator} (hl : pe.isLegacy = false) :
    gatherData P mem pe input convert =
      match decryptToken P mem pe with
      | .error e => .error e
      | .ok (result, plaintext) =>
        if result ≠ 0 then .ok (.error result)
        else
          match convert plaintext with
          | .error e => .error e
          | .ok (.error code) => .ok (.error code.val.toInt)
          | .ok (.ok data) => .ok (.ok data) := by
  simp only [gatherData, hl, Bool.false_eq_true, if_false]
  rcases decryptToken P mem pe with e | ⟨result, plaintext⟩
  · rfl
  · by_cases hr : result ≠ 0
    · simp only [if_pos hr]
      exact if_pos hr
    · simp only [if_neg hr]
      refine (if_neg hr).trans ?_
      rcases convert plaintext with e | code | data
      · rfl
      · rfl
      · rfl

theorem decryptToken_returns {pe : PolicyEvaluator} {r : Int} {plaintext : Bytes}
    (h : decryptToken P mem pe = .ok (r, plaintext)) :
    ∃ claims, pe.getClaims mem = .ok claims ∧ Decryption claims r plaintext := by
  simp only [decryptToken, bind_returns] at h
  obtain ⟨claims, hc, scheme, -, hd⟩ := h
  exact ⟨claims, hc, decryptSecret_returns hd⟩

theorem gatherData_returns {pe : PolicyEvaluator} {x : Except Int (List τ)}
    (h : gatherData P mem pe input convert = .ok x) :
    (∃ c : FailureCode, x = .error c.val.toInt) ∨ ∃ data, x = .ok data ∧ Gathered P mem pe input convert data := by
  cases hl : pe.isLegacy with
  | true =>
      rw [gatherData, if_pos hl, bind_returns] at h
      obtain ⟨-, -, h⟩ := h
      cases h
      exact .inr ⟨input, rfl, .legacy hl⟩
  | false =>
      rw [gatherData_token hl] at h
      cases hd : decryptToken P mem pe with
      | error e =>
          rw [hd] at h
          cases h
      | ok out =>
          obtain ⟨result, plaintext⟩ := out
          obtain ⟨claims, hc, hdec⟩ := decryptToken_returns hd
          simp only [hd] at h
          cases hdec with
          | failed c =>
              rw [if_pos (ErrorCode.toInt_neg c.property).ne] at h
              cases h
              exact .inl ⟨c, rfl⟩
          | plaintext hne henc =>
              simp only [ne_eq, not_true_eq_false, if_false] at h
              cases hv : convert plaintext with
              | error e =>
                  rw [hv] at h
                  cases h
              | ok converted =>
                  rw [hv] at h
                  cases converted with
                  | error code =>
                      cases h
                      exact .inl ⟨code, rfl⟩
                  | ok data =>
                      cases h
                      exact .inr ⟨data, rfl, .token hl hd hv⟩

def handedOut (data : List τ) : Option (List τ) := if data.isEmpty then none else some data

theorem handedOut_of_ne_nil {data : List τ} (h : data ≠ []) : handedOut data = some data := by
  have hempty : ¬data.isEmpty = true := by simpa using h
  rw [handedOut, if_neg hempty]

theorem exec_marshalOutput (data : List τ) (s : Outputs τ) (hs : s.outputSecret = none) :
    (marshalOutput mem data).exec s =
      if !data.isEmpty && mem .outputBuffer then (.error .badAlloc, s)
      else (.ok (data.length : Int), { s with outputSecret := handedOut data }) := by
  cases data with
  | nil =>
      cases s
      cases hs
      rfl
  | cons c data =>
      simp only [marshalOutput, alloc, List.isEmpty_cons, Bool.false_eq_true, if_false, Bool.not_false,
        Bool.true_and]
      cases mem .outputBuffer with
      | true => rfl
      | false => rfl

/-- What a run returns and hands out once the payload has been evaluated. -/
def finish (P : Providers) (mem : Memory) (pe : PolicyEvaluator) (input : List τ)
    (convert : Bytes → Except Exc (Except FailureCode (List τ))) : Int × Option (List τ) :=
  match pe.isCompliant mem with
  | .error e => ((unprotectError e).val.toInt, none)
  | .ok false => (ErrorCode.policyMismatchError.toInt, none)
  | .ok true =>
    match gatherData P mem pe input convert with
    | .error e => ((unprotectError e).val.toInt, none)
    | .ok (.error result) => (result, none)
    | .ok (.ok data) =>
      if !data.isEmpty && mem .outputBuffer then (ErrorCode.unknownError.toInt, none)
      else (data.length, handedOut data)

/-- A run in closed form: no exception escapes, and `*eval_policy` is written once the payload has been
evaluated. -/
theorem exec_unprotectWith (P : Providers) (mem : Memory) (evaluator : Except Exc PolicyEvaluator)
    (input : List τ) (convert : Bytes → Except Exc (Except FailureCode (List τ))) (before : Outputs τ) :
    (unprotectWith P mem evaluator input convert).exec before =
      match evaluator with
      | .error e => (.ok (unprotectError e).val.toInt, ⟨none, before.evalPolicy⟩)
      | .ok pe =>
        match pe.getEvaluatedPolicy mem 0 with
        | .error e => (.ok (unprotectError e).val.toInt, ⟨none, before.evalPolicy⟩)
        | .ok evalPolicy =>
          (.ok (finish P mem pe input convert).1, ⟨(finish P mem pe input convert).2, some evalPolicy⟩) := by
  rw [unprotectWith, setOutputSecret, Proc.exec_modify, Proc.exec_tryCatch]
  cases evaluator with
  | error e => rfl
  | ok pe =>
      rw [Proc.exec_call_ok]
      simp only [finish]
      cases pe.getEvaluatedPolicy mem 0 with
      | error e => rfl
      | ok evalPolicy =>
          rw [Proc.exec_call_ok, setEvalPolicy, Proc.exec_modify]
          cases pe.isCompliant mem with
          | error e => rfl
          | ok compliant =>
              rw [Proc.exec_call_ok]
              cases compliant with
              | false => rfl
              | true =>
                  simp only [Bool.not_true, Bool.false_eq_true, if_false]
                  rcases gatherData P mem pe input convert with e | result | data
                  · rfl
                  · rfl
                  · rw [Proc.exec_call_ok]
                    simp only [exec_marshalOutput]
                    split_ifs with hb
                    · rfl
                    · rfl

/-- The ways a run can end. None of them is an escaping exception. -/
inductive Outcome (P : Providers) (mem : Memory) (evaluator : Except Exc PolicyEvaluator) (input : List τ)
    (convert : Bytes → Except Exc (Except FailureCode (List τ))) (before : Outputs τ) :
    Except Exc Int × Outputs τ → Prop
  /-- Nothing was evaluated. -/
  | failed (c : FailureCode) : Outcome P mem evaluator input convert before (.ok c.val.toInt, ⟨none, before.evalPolicy⟩)
  /-- The payload was evaluated, and nothing was handed out. -/
  | refused {pe : PolicyEvaluator} {evalPolicy : Word} (c : FailureCode) (hpe : evaluator = .ok pe)
    (hev : pe.getEvaluatedPolicy mem 0 = .ok evalPolicy) :
    Outcome P mem evaluator input convert before (.ok c.val.toInt, ⟨none, some evalPolicy⟩)
  /-- The data of a compliant payload was handed out. -/
  | released {pe : PolicyEvaluator} {evalPolicy : Word} {data : List τ} (hpe : evaluator = .ok pe)
    (hev : pe.getEvaluatedPolicy mem 0 = .ok evalPolicy) (hcomp : pe.isCompliant mem = .ok true)
    (hdata : Gathered P mem pe input convert data) (hbuffer : data ≠ [] → mem .outputBuffer = false) :
    Outcome P mem evaluator input convert before (.ok (data.length : Int), ⟨handedOut data, some evalPolicy⟩)

/-- **Every run** of an entry point ends in one of these ways. -/
theorem unprotectWith_outcome (P : Providers) (mem : Memory) (evaluator : Except Exc PolicyEvaluator)
    (input : List τ) (convert : Bytes → Except Exc (Except FailureCode (List τ))) (before : Outputs τ) :
    Outcome P mem evaluator input convert before ((unprotectWith P mem evaluator input convert).exec before) := by
  rw [exec_unprotectWith]
  cases hpe : evaluator with
  | error e => exact .failed (unprotectError e)
  | ok pe =>
      cases hev : pe.getEvaluatedPolicy mem 0 with
      | error e =>
          simp only [hev]
          exact .failed (unprotectError e)
      | ok evalPolicy =>
          simp only [hev, finish]
          cases hcomp : pe.isCompliant mem with
          | error e => exact .refused (unprotectError e) rfl hev
          | ok compliant =>
              cases compliant with
              | false => exact .refused ⟨.policyMismatchError, by decide⟩ rfl hev
              | true =>
                  cases hg : gatherData P mem pe input convert with
                  | error e => exact .refused (unprotectError e) rfl hev
                  | ok x =>
                      rcases gatherData_returns hg with ⟨c, rfl⟩ | ⟨data, rfl, hdata⟩
                      · exact .refused c rfl hev
                      · simp only
                        split_ifs with hb
                        · exact .refused ⟨.unknownError, by decide⟩ rfl hev
                        · refine .released rfl hev hcomp hdata fun hne => ?_
                          simpa [hne] using hb

end

end CvmAttestation.Secrets
