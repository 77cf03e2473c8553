import CvmAttestation.SecretsUnprotect
import Mathlib.Tactic

/-! The entry points with their log calls. The logger is a function pointer; the default one builds its message on the
heap and, where that fails, a second message in its handler, so any call may raise. A call within a `try` block ends in
its handlers, one within a handler of `decrypt_secret` in those of the entry point. The first call of the entry point
and those of its own handlers are in no `try` block at all. -/

namespace CvmAttestation.Secrets

open Base

/-- The calls of the logger that a run can reach. -/
inductive LogCall
  | start
  | lostInput
  | notJwt
  | headerSegment
  | payloadSegment
  | chainVerified
  | signatureVerified
  | signatureHandler
  | noSignature
  | evaluated (call : Fin 2)
  | policyMismatch
  | vmid
  | emptyResult
  | decryptHandler
  | lostSecret
  | handler
  deriving DecidableEq, Repr

/-- What `__logger` does at each call. -/
abbrev Logger := LogCall → Except Exc Unit

def Logger.silent : Logger := fun _ => .ok ()

/-- The default logger where the memory for one message is missing. -/
def Logger.failing (missing : LogCall) : Logger := fun call => if call = missing then .error .badAlloc else .ok ()

theorem ErrorCode.signingCertChainError_ne : ErrorCode.cryptographyErrorSigningCertChainError ≠ .success := by
  intro h
  cases h

theorem ErrorCode.signingVerifyError_ne : ErrorCode.cryptographyErrorSigningVerifyError ≠ .success := by
  intro h
  cases h

namespace Logged

section

variable (P : Providers) (mem : Memory) (log : Logger)

def isRealJwt (token : Bytes) (requiredFields : List (Bytes × Bytes)) : Except Exc Bool := do
  alloc mem .tokenString
  match find dot token, rfind dot token with
  | some firstDot, some lastDot =>
    if firstDot = lastDot ∨ token.count dot ≠ 2 then
      return false
    else
      alloc mem .headerSegment
      guarded (do
          let header ← decodeJson P (token.take firstDot)
          return headerMatches header requiredFields)
        fun _ => do
          log .notJwt
          return false
  | _, _ => return false

/-- Whatever a segment raises comes from a handler that logs first. -/
def parseSegment (call : LogCall) (kept : Json) (segment : Bytes) : Except Exc Json :=
  guarded (Secrets.parseSegment P kept segment) fun e => do
    log call
    throw e

def checkSignature (x509 : P.X509) (header : Json) (signedPortion signatureBase64 suffix : Bytes) :
    Except Exc Bytes := do
  let signature ← P.base64UrlDecode signatureBase64
  let chain ← ofJson (header.index (ascii "x5c"))
  alloc mem .chainCopy
  match chain with
  | .array (leaf :: intermediates) =>
    let x509 ← loadChain P x509 leaf intermediates
    let chainOk ← P.verifyCertChain x509 suffix
    if !chainOk then
      throw (.jwtError ⟨.cryptographyErrorSigningCertChainError, ErrorCode.signingCertChainError_ne⟩)
    log .chainVerified
    alloc mem .signedData
    let signatureOk ← P.verifySignature x509 signedPortion signature
    if !signatureOk then
      throw (.jwtError ⟨.cryptographyErrorSigningVerifyError, ErrorCode.signingVerifyError_ne⟩)
    log .signatureVerified
    return signature
  | _ => throw .runtimeError

/-- The exceptions that the handlers around the verification name. -/
def named : Exc → Bool
  | .dataflow => true
  | .json .outOfRange => true
  | .osslError => true
  | _ => false

def parseToken (self : JsonWebToken) (token : Bytes) (verify : Bool) (expectedSubjectSuffix : Bytes) :
    Except Exc JsonWebToken := do
  alloc mem .tokenVector
  if token.length < 2 then
    throw .jwtDefault
  match find dot token, rfind dot token with
  | some first, some last =>
    if first = last then
      throw .jwtDefault
    alloc mem .segments
    let headerBase64 := token.take first
    let payloadBase64 := (token.drop (first + 1)).take (last - (first + 1))
    let signatureBase64 := token.drop (last + 1)
    let header ← parseSegment P log .headerSegment self.header headerBase64
    let jwt ← parseSegment P log .payloadSegment self.jwt payloadBase64
    if signatureBase64.isEmpty then
      log .noSignature
      return ⟨header, jwt, self.signature⟩
    else if !verify then
      return ⟨header, jwt, self.signature⟩
    else
      alloc mem .signedPortion
      let x509 ← P.newX509
      let signature ← guarded
        (checkSignature P mem log x509 header (token.take last) signatureBase64 expectedSubjectSuffix)
        fun e => do
          if named e then
            log .signatureHandler
          throw (signatureError e)
      return ⟨header, jwt, signature⟩
  | _, _ => throw .jwtDefault

def parseInput (policy : Word) (input : Bytes) : Except Exc PolicyEvaluator := do
  alloc mem .tokenObject
  alloc mem .inputString
  let t ← parseToken P mem log .new input true subjectNameSuffix
  return PolicyEvaluator.ofToken policy t

def ofNarrow (policy : Word) (input : Bytes) : Except Exc PolicyEvaluator := do
  alloc mem .requiredFields
  let isReal ← isRealJwt P mem log input requiredFields
  if isReal then parseInput P mem log policy input
  else return PolicyEvaluator.ofLegacy policy

def ofWide (policy : Word) (input : List WChar) : Except Exc PolicyEvaluator := do
  alloc mem .requiredFields
  alloc mem .wideInput
  let inputVec := wideToUtf8 mem input
  if inputVec.isEmpty && !input.isEmpty then
    log .lostInput
    return PolicyEvaluator.ofLegacy policy
  else
    alloc mem .inputString
    let isReal ← isRealJwt P mem log (inputVec.take (inputVec.length % 2 ^ 32)) requiredFields
    if isReal then parseInput P mem log policy inputVec
    else return PolicyEvaluator.ofLegacy policy

def getEvaluatedPolicy (pe : PolicyEvaluator) (call : Fin 2) : Except Exc Word := do
  let evaluatedPolicy ← pe.getEvaluatedPolicy mem call
  log (.evaluated call)
  return evaluatedPolicy

def isCompliant (pe : PolicyEvaluator) : Except Exc Bool := do
  let evalFeatures ← getEvaluatedPolicy mem log pe 1
  return pe.compliant evalFeatures

/-- Each of the three branches that end with `UnknownError` logs before it returns. -/
def decryptClaims (claims : Json) (infoData : Bytes) (paddingScheme : RsaPaddingScheme) : Except Exc (Int × Bytes) := do
  log .vmid
  let (result, plaintextData) ← Secrets.decryptClaims P claims infoData paddingScheme
  if result ≠ 0 then
    log .emptyResult
  return (result, plaintextData)

def decryptSecret (claims : Json) (paddingScheme : RsaPaddingScheme) : Except Exc (Int × Bytes) := do
  let infoString ← P.getSystemUuid
  guarded (decryptClaims P log claims infoString paddingScheme) fun e => do
    log .decryptHandler
    return ((decryptError e).val.toInt, [])

def decryptToken (pe : PolicyEvaluator) : Except Exc (Int × Bytes) := do
  let claims ← pe.getClaims mem
  let scheme ← getPaddingScheme pe
  decryptSecret P log claims scheme

def convertWide (plaintextData : Bytes) : Except Exc (Except FailureCode (List WChar)) := do
  let converted ← Secrets.convertWide mem plaintextData
  match converted with
  | .error code =>
    log .lostSecret
    return .error code
  | .ok wideData => return .ok wideData

section

variable {τ : Type}

def gatherData (pe : PolicyEvaluator) (input : List τ)
    (convert : Bytes → Except Exc (Except FailureCode (List τ))) : Except Exc (Except Int (List τ)) := do
  if pe.isLegacy then
    alloc mem .legacyCopy
    return .ok input
  else
    let (result, plaintextData) ← decryptToken P mem log pe
    if result ≠ 0 then
      return .error result
    else
      match ← convert plaintextData with
      | .error code => return .error code.val.toInt
      | .ok data => return .ok data

/-- The `try` block of the entry points. -/
def tryBlock (evaluator : Except Exc PolicyEvaluator) (input : List τ)
    (convert : Bytes → Except Exc (Except FailureCode (List τ))) : Api τ Int := do
  let pe ← Proc.call evaluator
  let evalPolicy ← Proc.call (getEvaluatedPolicy mem log pe 0)
  setEvalPolicy evalPolicy
  let compliant ← Proc.call (isCompliant mem log pe)
  if !compliant then
    Proc.call (log .policyMismatch)
    return ErrorCode.policyMismatchError.toInt
  else
    match ← Proc.call (gatherData P mem log pe input convert) with
    | .error result => return result
    | .ok data => marshalOutput mem data

def unprotectWith (evaluator : Except Exc PolicyEvaluator) (input : List τ)
    (convert : Bytes → Except Exc (Except FailureCode (List τ))) : Api τ Int := do
  setOutputSecret none
  Proc.call (log .start)
  tryCatch (tryBlock P mem log evaluator input convert) fun e => do
    Proc.call (log .handler)
    return (unprotectError e).val.toInt

end

def unprotectSecret (jwt : Bytes) (policy : Word) : Api UInt8 Int :=
  unprotectWith P mem log (ofNarrow P mem log policy jwt) jwt fun plaintextData => .ok (.ok plaintextData)

def unprotectSecretWide (jwt : List WChar) (policy : Word) : Api WChar Int :=
  unprotectWith P mem log (ofWide P mem log policy jwt) jwt (convertWide mem log)

end

/-! ### What log calls change -/

/-- A computation with log calls beside the one without them: it returns nothing else, and with a logger that never
raises it is the same. -/
structure Logs (log : Logger) {α : Type} (logged quiet : Except Exc α) : Prop where
  returns : ∀ a, logged = .ok a → quiet = .ok a
  silent : (∀ call, log call = .ok ()) → logged = quiet

section

variable {log : Logger} {α β : Type}

theorem Logs.refl (x : Except Exc α) : Logs log x x := ⟨fun _ h => h, fun _ => rfl⟩

theorem Logs.bind {x x' : Except Exc α} {f f' : α → Except Exc β} (h : Logs log x x')
    (hf : ∀ a, Logs log (f a) (f' a)) : Logs log (x >>= f) (x' >>= f') where
  returns b hb := by
    obtain ⟨a, ha, hb⟩ := bind_returns.1 hb
    exact bind_returns.2 ⟨a, h.returns a ha, (hf a).returns b hb⟩
  silent hlog := by
    have hsame : f = f' := by
      funext a
      exact (hf a).silent hlog
    rw [h.silent hlog, hsame]

/-- A call in front of the rest. -/
theorem Logs.logged {x x' : Except Exc α} (h : Logs log x x') (call : LogCall) :
    Logs log (log call >>= fun _ => x) x' where
  returns a ha := by
    obtain ⟨-, -, ha⟩ := bind_returns.1 ha
    exact h.returns a ha
  silent hlog := by
    rw [hlog call, ok_bind, h.silent hlog]

/-- A handler that raises again. -/
theorem Logs.guarded {x x' : Except Exc α} (h : Logs log x x') {handler : Exc → Except Exc α} {raised : Exc → Exc}
    (hhandler : ∀ e, Logs log (handler e) (.error (raised e))) :
    Logs log (guarded x handler) (guarded x' fun e => .error (raised e)) where
  returns a ha := by
    cases x with
    | ok b => rw [h.returns b rfl, ← ha]; rfl
    | error e => cases (hhandler e).returns a ha
  silent hlog := by
    rw [h.silent hlog]
    cases x' with
    | ok b => rfl
    | error e => exact (hhandler e).silent hlog

end

section

variable (P : Providers) (mem : Memory) (log : Logger)

theorem isRealJwt_logs (token : Bytes) (requiredFields : List (Bytes × Bytes)) :
    Logs log (isRealJwt P mem log token requiredFields) (Secrets.isRealJwt P mem token requiredFields) := by
  rw [isRealJwt, Secrets.isRealJwt]
  refine .bind (.refl _) fun _ => ?_
  cases find dot token with
  | none => exact .refl _
  | some firstDot =>
      cases rfind dot token with
      | none => exact .refl _
      | some lastDot =>
          dsimp only
          split_ifs
          · exact .refl _
          · refine .bind (.refl _) fun _ => ?_
            cases decodeJson P (token.take firstDot) with
            | ok header => exact .refl _
            | error e => exact .logged (.refl _) .notJwt

theorem parseSegment_logs (call : LogCall) (kept : Json) (segment : Bytes) :
    Logs log (parseSegment P log call kept segment) (Secrets.parseSegment P kept segment) := by
  rw [parseSegment]
  cases Secrets.parseSegment P kept segment with
  | ok j => exact .refl _
  | error e => exact .logged (.refl _) call

theorem checkSignature_logs (x509 : P.X509) (header : Json) (signedPortion signatureBase64 suffix : Bytes) :
    Logs log (checkSignature P mem log x509 header signedPortion signatureBase64 suffix)
      (Secrets.checkSignature P mem x509 header signedPortion signatureBase64 suffix) := by
  rw [checkSignature, Secrets.checkSignature]
  refine .bind (.refl _) fun signature => .bind (.refl _) fun chain => .bind (.refl _) fun _ => ?_
  cases chain with
  | array certs =>
      cases certs with
      | nil => exact .refl _
      | cons leaf intermediates =>
          refine .bind (.refl _) fun x509 => .bind (.refl _) fun chainOk => ?_
          cases chainOk with
          | false => exact .refl _
          | true =>
              refine .logged (.bind (.refl _) fun _ => .bind (.refl _) fun signatureOk => ?_) .chainVerified
              cases signatureOk with
              | false => exact .refl _
              | true => exact .logged (.refl _) .signatureVerified
  | _ => exact .refl _

theorem parseToken_logs (self : JsonWebToken) (token : Bytes) (verify : Bool) (suffix : Bytes) :
    Logs log (parseToken P mem log self token verify suffix) (Secrets.parseToken P mem self token verify suffix) := by
  rw [parseToken, Secrets.parseToken]
  refine .bind (.refl _) fun _ => ?_
  by_cases hlen : token.length < 2
  · rw [if_pos hlen, if_pos hlen]
    exact .refl _
  rw [if_neg hlen, if_neg hlen]
  cases find dot token with
  | none => exact .refl _
  | some first =>
      cases rfind dot token with
      | none => exact .refl _
      | some last =>
          dsimp only
          by_cases hsame : first = last
          · rw [if_pos hsame, if_pos hsame]
            exact .refl _
          rw [if_neg hsame, if_neg hsame]
          refine .bind (.refl _) fun _ => .bind (parseSegment_logs P log _ _ _) fun header =>
            .bind (parseSegment_logs P log _ _ _) fun jwt => ?_
          cases (token.drop (last + 1)).isEmpty with
          | true => exact .logged (.refl _) .noSignature
          | false =>
              cases verify with
              | false => exact .refl _
              | true =>
                  refine .bind (.refl _) fun _ => .bind (.refl _) fun x509 => .bind (.guarded ?_ fun e => ?_) fun _ => .refl _
                  · exact checkSignature_logs P mem log x509 header _ _ _
                  · cases named e with
                    | true => exact .logged (.refl _) .signatureHandler
                    | false => exact .refl _

theorem parseInput_logs (policy : Word) (input : Bytes) :
    Logs log (parseInput P mem log policy input) (Secrets.parseInput P mem policy input) := by
  rw [parseInput, Secrets.parseInput]
  exact .bind (.refl _) fun _ => .bind (.refl _) fun _ => .bind (parseToken_logs P mem log _ _ _ _) fun _ => .refl _

theorem ofNarrow_logs (policy : Word) (input : Bytes) :
    Logs log (ofNarrow P mem log policy input) (PolicyEvaluator.ofNarrow P mem policy input) := by
  rw [ofNarrow, PolicyEvaluator.ofNarrow]
  refine .bind (.refl _) fun _ => .bind (isRealJwt_logs P mem log _ _) fun isReal => ?_
  cases isReal with
  | true => exact parseInput_logs P mem log policy input
  | false => exact .refl _

theorem ofWide_logs (policy : Word) (input : List WChar) :
    Logs log (ofWide P mem log policy input) (PolicyEvaluator.ofWide P mem policy input) := by
  rw [ofWide, PolicyEvaluator.ofWide]
  refine .bind (.refl _) fun _ => .bind (.refl _) fun _ => ?_
  dsimp only
  split_ifs
  · exact .logged (.refl _) .lostInput
  · refine .bind (.refl _) fun _ => .bind (isRealJwt_logs P mem log _ _) fun isReal => ?_
    cases isReal with
    | true => exact parseInput_logs P mem log policy _
    | false => exact .refl _

theorem getEvaluatedPolicy_logs (pe : PolicyEvaluator) (call : Fin 2) :
    Logs log (getEvaluatedPolicy mem log pe call) (pe.getEvaluatedPolicy mem call) := by
  rw [getEvaluatedPolicy]
  cases pe.getEvaluatedPolicy mem call with
  | ok evaluatedPolicy => exact .logged (.refl _) (.evaluated call)
  | error e => exact .refl _

theorem isCompliant_logs (pe : PolicyEvaluator) : Logs log (isCompliant mem log pe) (pe.isCompliant mem) :=
  .bind (getEvaluatedPolicy_logs mem log pe 1) fun _ => .refl _

theorem decryptClaims_logs (claims : Json) (infoData : Bytes) (scheme : RsaPaddingScheme) :
    Logs log (decryptClaims P log claims infoData scheme) (Secrets.decryptClaims P claims infoData scheme) := by
  rw [decryptClaims]
  refine .logged ?_ .vmid
  cases Secrets.decryptClaims P claims infoData scheme with
  | error e => exact .refl _
  | ok out =>
      obtain ⟨result, plaintextData⟩ := out
      rw [ok_bind]
      dsimp only
      split_ifs
      · exact .logged (.refl _) .emptyResult
      · exact .refl _

theorem convertWide_logs (plaintextData : Bytes) :
    Logs log (convertWide mem log plaintextData) (Secrets.convertWide mem plaintextData) := by
  rw [convertWide]
  rcases Secrets.convertWide mem plaintextData with e | code | wideData
  · exact .refl _
  · exact .logged (.refl _) .lostSecret
  · exact .refl _

end

/-! ### Decryption -/

section

variable {P : Providers} {mem : Memory} {log : Logger} {claims : Json} {scheme : RsaPaddingScheme}

/-- The codes are those of `decrypt_secret`, and a secret is one that it decrypts without log calls, too. -/
theorem decryptSecret_returns {r : Int} {plaintext : Bytes}
    (h : decryptSecret P log claims scheme = .ok (r, plaintext)) :
    Decryption claims r plaintext ∧ (r = 0 → Secrets.decryptSecret P claims scheme = .ok (r, plaintext)) := by
  rw [decryptSecret, bind_returns] at h
  obtain ⟨infoString, huuid, h⟩ := h
  cases hd : decryptClaims P log claims infoString scheme with
  | ok out =>
      have hquiet := (decryptClaims_logs P log claims infoString scheme).returns out hd
      rw [hd] at h
      cases h
      refine ⟨decryptClaims_returns hquiet, fun _ => ?_⟩
      rw [Secrets.decryptSecret, bind_returns]
      refine ⟨infoString, huuid, ?_⟩
      rw [hquiet]
      rfl
  | error e =>
      rw [hd] at h
      obtain ⟨-, -, h⟩ := bind_returns.1 h
      cases h
      refine ⟨.failed (decryptError e), fun hzero => ?_⟩
      have hneg := ErrorCode.toInt_neg (decryptError e).property
      omega

theorem decryptSecret_silent (hlog : ∀ call, log call = .ok ()) :
    decryptSecret P log claims scheme = Secrets.decryptSecret P claims scheme := by
  have hhandler : (fun e => (do
      log .decryptHandler
      return ((decryptError e).val.toInt, []) : Except Exc (Int × Bytes))) =
        fun e => .ok ((decryptError e).val.toInt, []) := by
    funext e
    rw [hlog, ok_bind]
    rfl
  rw [decryptSecret, Secrets.decryptSecret]
  simp only [(decryptClaims_logs P log claims _ scheme).silent hlog, hhandler]

theorem decryptToken_returns {pe : PolicyEvaluator} {r : Int} {plaintext : Bytes}
    (h : decryptToken P mem log pe = .ok (r, plaintext)) :
    ∃ claims, pe.getClaims mem = .ok claims ∧ Decryption claims r plaintext ∧
      (r = 0 → Secrets.decryptToken P mem pe = .ok (r, plaintext)) := by
  simp only [decryptToken, bind_returns] at h
  obtain ⟨claims, hclaims, scheme, hscheme, h⟩ := h
  obtain ⟨hdec, hquiet⟩ := decryptSecret_returns h
  refine ⟨claims, hclaims, hdec, fun hzero => ?_⟩
  simp only [Secrets.decryptToken, bind_returns]
  exact ⟨claims, hclaims, scheme, hscheme, hquiet hzero⟩

theorem decryptToken_silent (hlog : ∀ call, log call = .ok ()) (pe : PolicyEvaluator) :
    decryptToken P mem log pe = Secrets.decryptToken P mem pe := by
  rw [decryptToken, Secrets.decryptToken]
  simp only [decryptSecret_silent hlog]

end

/-! ### The entry points -/

section

variable {τ : Type} (P : Providers) (mem : Memory) (log : Logger) (evaluator : Except Exc PolicyEvaluator)
  (input : List τ) (convert : Bytes → Except Exc (Except FailureCode (List τ)))

/-- **Without failures of the logger** a call is the one that has no log calls. -/
theorem unprotectWith_silent (hlog : ∀ call, log call = .ok ()) :
    unprotectWith P mem log evaluator input convert = Secrets.unprotectWith P mem evaluator input convert := by
  have hgather : gatherData P mem log = @Secrets.gatherData τ P mem := by
    funext pe input convert
    rw [gatherData, decryptToken_silent hlog]
    rfl
  have hevaluated : ∀ pe call, getEvaluatedPolicy mem log pe call = pe.getEvaluatedPolicy mem call :=
    fun pe call => (getEvaluatedPolicy_logs mem log pe call).silent hlog
  have hcompliant : ∀ pe, isCompliant mem log pe = pe.isCompliant mem :=
    fun pe => (isCompliant_logs mem log pe).silent hlog
  rw [unprotectWith, Secrets.unprotectWith, tryBlock, hgather]
  simp only [hevaluated, hcompliant, hlog]
  rfl

theorem unprotectSecret_silent (hlog : ∀ call, log call = .ok ()) (jwt : Bytes) (policy : Word) :
    unprotectSecret P mem log jwt policy = Secrets.unprotectSecret P mem jwt policy := by
  rw [unprotectSecret, (ofNarrow_logs P mem log policy jwt).silent hlog, unprotectWith_silent P mem log _ _ _ hlog]
  rfl

theorem unprotectSecretWide_silent (hlog : ∀ call, log call = .ok ()) (jwt : List WChar) (policy : Word) :
    unprotectSecretWide P mem log jwt policy = Secrets.unprotectSecretWide P mem jwt policy := by
  have hconvert : convertWide mem log = Secrets.convertWide mem := by
    funext plaintextData
    exact (convertWide_logs mem log plaintextData).silent hlog
  rw [unprotectSecretWide, (ofWide_logs P mem log policy jwt).silent hlog, hconvert,
    unprotectWith_silent P mem log _ _ _ hlog]
  rfl

/-- A step of the `try` block raises. -/
inductive Raises : Prop
  | evaluation {e : Exc} (h : evaluator = .error e)
  | policy {pe : PolicyEvaluator} {e : Exc} (hpe : evaluator = .ok pe) (h : getEvaluatedPolicy mem log pe 0 = .error e)
  | compliance {pe : PolicyEvaluator} {evalPolicy : Word} {e : Exc} (hpe : evaluator = .ok pe)
    (hev : getEvaluatedPolicy mem log pe 0 = .ok evalPolicy) (h : isCompliant mem log pe = .error e)
  | mismatch {pe : PolicyEvaluator} {evalPolicy : Word} {e : Exc} (hpe : evaluator = .ok pe)
    (hev : getEvaluatedPolicy mem log pe 0 = .ok evalPolicy) (hcomp : isCompliant mem log pe = .ok false)
    (h : log .policyMismatch = .error e)
  | gathering {pe : PolicyEvaluator} {evalPolicy : Word} {e : Exc} (hpe : evaluator = .ok pe)
    (hev : getEvaluatedPolicy mem log pe 0 = .ok evalPolicy) (hcomp : isCompliant mem log pe = .ok true)
    (h : gatherData P mem log pe input convert = .error e)
  | marshalling {pe : PolicyEvaluator} {evalPolicy : Word} {data : List τ} (hpe : evaluator = .ok pe)
    (hev : getEvaluatedPolicy mem log pe 0 = .ok evalPolicy) (hcomp : isCompliant mem log pe = .ok true)
    (hdata : gatherData P mem log pe input convert = .ok (.ok data)) (hne : data.isEmpty = false)
    (h : mem .outputBuffer = true)

/-- The ways the `try` block can end. -/
inductive Ended : Except Exc Int × Outputs τ → Prop
  | raised (e : Exc) (evalPolicy : Option Word) (h : Raises P mem log evaluator input convert) :
    Ended (.error e, ⟨none, evalPolicy⟩)
  | refused (c : FailureCode) (evalPolicy : Option Word) (h : ¬Raises P mem log evaluator input convert) :
    Ended (.ok c.val.toInt, ⟨none, evalPolicy⟩)
  | released {pe : PolicyEvaluator} {evalPolicy : Word} {data : List τ} (hpe : evaluator = .ok pe)
    (hev : getEvaluatedPolicy mem log pe 0 = .ok evalPolicy) (hcomp : isCompliant mem log pe = .ok true)
    (hdata : gatherData P mem log pe input convert = .ok (.ok data))
    (hbuffer : data.isEmpty = false → mem .outputBuffer = false)
    (h : ¬Raises P mem log evaluator input convert) :
    Ended (.ok (data.length : Int), ⟨handedOut data, some evalPolicy⟩)

end

section

variable {τ : Type} {P : Providers} {mem : Memory} {log : Logger} {evaluator : Except Exc PolicyEvaluator}
  {input : List τ} {convert : Bytes → Except Exc (Except FailureCode (List τ))}

theorem gatherData_legacy {pe : PolicyEvaluator} (hl : pe.isLegacy = true) {x : Except Int (List τ)}
    (h : gatherData P mem log pe input convert = .ok x) : x = .ok input := by
  rw [gatherData, if_pos hl] at h
  obtain ⟨-, -, h⟩ := bind_returns.1 h
  exact (Except.ok.inj h).symm

theorem gatherData_token {pe : PolicyEvaluator} (hl : pe.isLegacy = false) {x : Except Int (List τ)}
    (h : gatherData P mem log pe input convert = .ok x) :
    (∃ c : FailureCode, x = .error c.val.toInt) ∨ ∃ secret data, x = .ok data ∧
      decryptToken P mem log pe = .ok (0, secret) ∧ convert secret = .ok (.ok data) := by
  have hl' : ¬pe.isLegacy = true := by simp [hl]
  rw [gatherData, if_neg hl'] at h
  obtain ⟨⟨result, plaintext⟩, hd, h⟩ := bind_returns.1 h
  obtain ⟨claims, -, hdec, -⟩ := decryptToken_returns hd
  dsimp only at h
  split_ifs at h with hr
  · cases hdec with
    | plaintext => exact absurd rfl hr
    | failed c => exact .inl ⟨c, (Except.ok.inj h).symm⟩
  · rw [ne_eq, not_not] at hr
    obtain ⟨converted, hv, h⟩ := bind_returns.1 h
    cases converted with
    | error code => exact .inl ⟨code, (Except.ok.inj h).symm⟩
    | ok data => exact .inr ⟨plaintext, data, (Except.ok.inj h).symm, by rw [hd, hr], hv⟩

theorem gatherData_error {pe : PolicyEvaluator} {result : Int}
    (h : gatherData P mem log pe input convert = .ok (.error result)) : ∃ c : FailureCode, result = c.val.toInt := by
  cases hl : pe.isLegacy with
  | true => cases gatherData_legacy hl h
  | false =>
      rcases gatherData_token hl h with ⟨c, hc⟩ | ⟨secret, data, hdata, -⟩
      · exact ⟨c, Except.error.inj hc⟩
      · cases hdata

theorem policyMismatchError_ne : ErrorCode.policyMismatchError ≠ .success := by
  intro h
  cases h

/-- What the block does once a policy has been evaluated. -/
theorem exec_tryBlock_evaluated {pe : PolicyEvaluator} {evalPolicy : Word} (s : Outputs τ) (hs : s.outputSecret = none)
    (hev : getEvaluatedPolicy mem log pe 0 = .ok evalPolicy) :
    (tryBlock P mem log (.ok pe) input convert).exec s =
      match isCompliant mem log pe with
      | .error e => (.error e, ⟨none, some evalPolicy⟩)
      | .ok false =>
        match log .policyMismatch with
        | .error e => (.error e, ⟨none, some evalPolicy⟩)
        | .ok _ => (.ok ErrorCode.policyMismatchError.toInt, ⟨none, some evalPolicy⟩)
      | .ok true =>
        match gatherData P mem log pe input convert with
        | .error e => (.error e, ⟨none, some evalPolicy⟩)
        | .ok (.error result) => (.ok result, ⟨none, some evalPolicy⟩)
        | .ok (.ok data) =>
          if !data.isEmpty && mem .outputBuffer then (.error .badAlloc, ⟨none, some evalPolicy⟩)
          else (.ok (data.length : Int), ⟨handedOut data, some evalPolicy⟩) := by
  obtain ⟨outputSecret, before⟩ := s
  obtain rfl : outputSecret = none := hs
  rw [tryBlock, Proc.exec_call_ok, hev, Proc.exec_call_ok, setEvalPolicy, Proc.exec_modify]
  cases isCompliant mem log pe with
  | error e => rfl
  | ok compliant =>
      rw [Proc.exec_call_ok]
      cases compliant with
      | false => cases log .policyMismatch <;> rfl
      | true =>
          simp only [Bool.not_true, Bool.false_eq_true, if_false]
          rcases gatherData P mem log pe input convert with e | result | data
          · rfl
          · rfl
          · rw [Proc.exec_call_ok]
            exact exec_marshalOutput data _ rfl

theorem tryBlock_ended (before : Option Word) :
    Ended P mem log evaluator input convert ((tryBlock P mem log evaluator input convert).exec ⟨none, before⟩) := by
  rcases evaluator with e | pe
  · exact .raised e before (.evaluation rfl)
  cases hev : getEvaluatedPolicy mem log pe 0 with
  | error e =>
      rw [tryBlock, Proc.exec_call_ok, hev]
      exact .raised e before (.policy rfl hev)
  | ok evalPolicy =>
      rw [exec_tryBlock_evaluated _ rfl hev]
      cases hcomp : isCompliant mem log pe with
      | error e => exact .raised e _ (.compliance rfl hev hcomp)
      | ok compliant =>
          cases compliant with
          | false =>
              cases hlog : log .policyMismatch with
              | error e => exact .raised e _ (.mismatch rfl hev hcomp hlog)
              | ok _ =>
                  refine .refused ⟨.policyMismatchError, policyMismatchError_ne⟩ _ fun h => ?_
                  cases h <;> simp_all
          | true =>
              cases hdata : gatherData P mem log pe input convert with
              | error e => exact .raised e _ (.gathering rfl hev hcomp hdata)
              | ok gathered =>
                  cases gathered with
                  | error result =>
                      obtain ⟨c, rfl⟩ := gatherData_error hdata
                      refine .refused c _ fun h => ?_
                      cases h <;> simp_all
                  | ok data =>
                      dsimp only
                      split_ifs with hbuffer
                      · rw [Bool.and_eq_true, Bool.not_eq_true'] at hbuffer
                        exact .raised _ _ (.marshalling rfl hev hcomp hdata hbuffer.1 hbuffer.2)
                      · refine .released rfl hev hcomp hdata (fun hne => ?_) fun h => ?_
                        · simpa [hne] using hbuffer
                        · cases h <;> simp_all

/-- **A call in closed form.** What escapes is an exception of the first log call, or of the one in the handler that ends
a `try` block that has raised. -/
theorem exec_unprotectWith (before : Outputs τ) :
    (unprotectWith P mem log evaluator input convert).exec before =
      match log .start with
      | .error e => (.error e, ⟨none, before.evalPolicy⟩)
      | .ok _ =>
        match (tryBlock P mem log evaluator input convert).exec ⟨none, before.evalPolicy⟩ with
        | (.ok r, s) => (.ok r, s)
        | (.error e, s) =>
          match log .handler with
          | .error e' => (.error e', s)
          | .ok _ => (.ok (unprotectError e).val.toInt, s) := by
  rw [unprotectWith, setOutputSecret, Proc.exec_modify]
  cases log .start with
  | error e => rfl
  | ok _ =>
      rw [Proc.exec_call_ok, Proc.exec_tryCatch]
      rcases (tryBlock P mem log evaluator input convert).exec ⟨none, before.evalPolicy⟩ with ⟨e | r, s⟩
      · cases log .handler <;> rfl
      · rfl

end

end Logged

end CvmAttestation.Secrets
