import CvmAttestation.SecretsRelease

/-! What leaves `ParseToken` when something is wrong with a token. The certificate store is the one of Linux, over the
functions of OpenSSL that it calls; the base64 functions are those of the library, and the JSON parser raises nothing
but `parse_error`. `diagnose` goes through a token in the order of `ParseToken` and names the first thing that is wrong
with it; each defect has the exception it ends in, and the stage that the code of that exception should name. -/

namespace CvmAttestation.Secrets

open Base

/-! ### Certificates on Linux -/

/-- What `OsslX509` calls: `none` and `false` stand for the failure of a call. -/
structure X509Library where
  Cert : Type
  d2i : Bytes → Option Cert
  /-- The store with its root certificates, and the empty stack. -/
  construct : Bool
  push : List Cert → Cert → Bool
  storeContext : List Cert → Option Cert → Bool
  verifyCert : List Cert → Option Cert → Bool
  commonName : Option Cert → Bytes
  terminatesAtRoot : List Cert → Option Cert → Bool
  /-- The public key of the leaf and the calls up to `EVP_DigestVerifyFinal`, and what that returns. -/
  digestVerify : Option Cert → (signedData signature : Bytes) → Option Bool

structure OsslX509 (L : X509Library) where
  leafCert : Option L.Cert
  intermediateCerts : List L.Cert

section

variable (L : X509Library)

def OsslX509.new : Except Exc (OsslX509 L) := if L.construct then .ok ⟨none, []⟩ else .error .runtimeError

def loadCertificate (certBuffer : Bytes) : Except Exc L.Cert :=
  match L.d2i certBuffer with
  | some cert => .ok cert
  | none => .error .runtimeError

variable {L}

def OsslX509.loadIntermediateCertificate (x509 : OsslX509 L) (cert : Bytes) : Except Exc (OsslX509 L) := do
  let certBuffer ← Encoders.base64Decode cert
  let interCert ← loadCertificate L certBuffer
  if L.push x509.intermediateCerts interCert then
    return { x509 with intermediateCerts := x509.intermediateCerts ++ [interCert] }
  else throw .runtimeError

def OsslX509.loadLeafCertificate (x509 : OsslX509 L) (cert : Bytes) : Except Exc (OsslX509 L) := do
  let leafCertBuffer ← Encoders.base64Decode cert
  let leafCert ← loadCertificate L leafCertBuffer
  return { x509 with leafCert := some leafCert }

def toLower (c : UInt8) : UInt8 := if 65 ≤ c.toNat ∧ c.toNat ≤ 90 then UInt8.ofNat (c.toNat + 32) else c

def OsslX509.verifySubjectSuffix (x509 : OsslX509 L) (expectedSuffix : Bytes) : Bool :=
  if expectedSuffix.isEmpty then false
  else
    let commonName := L.commonName x509.leafCert
    if commonName.isEmpty then false
    else
      let lowerCommonName := commonName.map toLower
      let lowerSuffix := expectedSuffix.map toLower
      decide (lowerSuffix.length ≤ lowerCommonName.length) &&
        decide (lowerCommonName.drop (lowerCommonName.length - lowerSuffix.length) = lowerSuffix)

def OsslX509.verifyCertChain (x509 : OsslX509 L) (expectedSubjectSuffix : Bytes) : Except Exc Bool :=
  if L.storeContext x509.intermediateCerts x509.leafCert then
    .ok (L.verifyCert x509.intermediateCerts x509.leafCert && x509.verifySubjectSuffix expectedSubjectSuffix &&
      L.terminatesAtRoot x509.intermediateCerts x509.leafCert)
  else .error .runtimeError

def OsslX509.verifySignature (x509 : OsslX509 L) (signedData signature : Bytes) : Except Exc Bool :=
  match L.digestVerify x509.leafCert signedData signature with
  | some result => .ok result
  | none => .error .osslError

variable (L)

/-- The functions that `ParseToken` calls on Linux. -/
abbrev Providers.linux (P : Providers) (parse : Bytes → Option Json) : Providers :=
  { P with
    base64UrlDecode := Encoders.base64UrlDecode
    base64Decode := Encoders.base64Decode
    parse := fun text => (parse text).elim (.error (.json .parseError)) .ok
    X509 := OsslX509 L
    newX509 := OsslX509.new L
    loadIntermediateCertificate := OsslX509.loadIntermediateCertificate
    loadLeafCertificate := OsslX509.loadLeafCertificate
    verifyCertChain := OsslX509.verifyCertChain
    verifySignature := OsslX509.verifySignature }

end

/-! ### Defects -/

/-- What is wrong with a text that should be base64: a character outside the alphabet or a group of one character, or
more padding than bytes. -/
inductive TextDefect
  | character
  | padding
  deriving DecidableEq, Repr

inductive Defect
  | tokenStructure
  | segmentText (d : TextDefect)
  | segmentJson
  | x509Object
  | signatureText (d : TextDefect)
  | headerNotObject
  | chainMalformed
  | certificateNotString
  | certificateText (d : TextDefect)
  | certificateUnreadable
  | certificateNotPushed
  | chainContext
  | chainRejected
  | signatureContext
  | signatureRejected
  deriving DecidableEq, Repr

def TextDefect.thrown : TextDefect → Exc
  | character => .dataflow
  | padding => .lengthError

theorem ErrorCode.jsonParseError_ne : ErrorCode.parsingErrorJwtJsonParseError ≠ .success := by
  intro h
  cases h

theorem ErrorCode.certChainError_ne : ErrorCode.cryptographyErrorSigningCertChainError ≠ .success := by
  intro h
  cases h

theorem ErrorCode.verifyError_ne : ErrorCode.cryptographyErrorSigningVerifyError ≠ .success := by
  intro h
  cases h

/-- The exception that leaves `ParseToken`. -/
def Defect.thrown : Defect → Exc
  | .tokenStructure => .jwtDefault
  | segmentText d => segmentError d.thrown
  | segmentJson => segmentError (.json .parseError)
  | x509Object => .runtimeError
  | signatureText d => signatureError d.thrown
  | headerNotObject => signatureError (.json .typeError)
  | chainMalformed => signatureError .runtimeError
  | certificateNotString => signatureError (.json .typeError)
  | certificateText d => signatureError d.thrown
  | certificateUnreadable => signatureError .runtimeError
  | certificateNotPushed => signatureError .runtimeError
  | chainContext => signatureError .runtimeError
  | chainRejected => signatureError (.jwtError ⟨_, ErrorCode.certChainError_ne⟩)
  | signatureContext => signatureError .osslError
  | signatureRejected => signatureError (.jwtError ⟨_, ErrorCode.verifyError_ne⟩)

/-- The stages of `ParseToken`, as far as the error codes tell them apart. -/
inductive Stage
  | tokenStructure
  | base64
  /-- The JSON of the header and the payload, and the chain in the header. -/
  | json
  | certificate
  deriving DecidableEq, Repr

def Defect.stage : Defect → Stage
  | .tokenStructure => .tokenStructure
  | segmentText _ | signatureText _ | certificateText _ => .base64
  | segmentJson | headerNotObject | chainMalformed | certificateNotString => .json
  | x509Object | certificateUnreadable | certificateNotPushed | chainContext | chainRejected | signatureContext |
    signatureRejected => .certificate

/-- The codes that name a stage. For certificates and signatures these are the class `CryptographyError` and the X.509
codes of the class `ParsingError`. -/
def Stage.names (rc : ErrorCode) : Stage → Bool
  | .tokenStructure => rc = .parsingErrorJwtInvStructureError
  | base64 => rc = .parsingErrorBase64B64Error
  | json => rc = .parsingErrorJwtJsonParseError
  | certificate => decide (-0x3000 < rc.toInt ∧ rc.toInt ≤ -0x2000) || decide (rc ∈ [ErrorCode.parsingErrorX509CertParseError,
      .parsingErrorX509CertChainError, .parsingErrorX509CertLoadError, .parsingErrorX509CertStoreError])

/-- The defects that are reported under a code of their stage: a character that is not base64, text that is not JSON,
and the verdicts on the chain and on the signature. -/
def Defect.reported : Defect → Bool
  | segmentText .character | segmentJson | signatureText .character | certificateText .character | chainRejected |
    signatureRejected => true
  | _ => false

/-! ### The first defect of a token -/

def decodedText : Except Exc Bytes → Except TextDefect Bytes
  | .ok text => .ok text
  | .error .dataflow => .error .character
  | .error _ => .error .padding

section

variable (L : X509Library) (parse : Bytes → Option Json)

def diagnoseSegment (kept : Json) (segment : Bytes) : Except Defect Json :=
  if segment.isEmpty then .ok kept
  else do
    let text ← (decodedText (Encoders.base64UrlDecode segment)).mapError .segmentText
    (parse text).elim (.error .segmentJson) .ok

def diagnoseCertificate : Json → Except Defect L.Cert
  | .string text => do
    let certBuffer ← (decodedText (Encoders.base64Decode (cStr text))).mapError .certificateText
    (L.d2i certBuffer).elim (.error .certificateUnreadable) .ok
  | _ => .error .certificateNotString

def diagnoseIntermediates : List L.Cert → List Json → Except Defect (List L.Cert)
  | loaded, [] => .ok loaded
  | loaded, cert :: certs => do
    let interCert ← diagnoseCertificate L cert
    if L.push loaded interCert then diagnoseIntermediates (loaded ++ [interCert]) certs
    else .error .certificateNotPushed

/-- The member `x5c`, a value that is not null, of an object. -/
def diagnoseChain : Json → Except Defect (Json × List Json)
  | .object ms =>
    match (ms.lookup (ascii "x5c")).getD .null with
    | .array (leaf :: intermediates) => .ok (leaf, intermediates)
    | _ => .error .chainMalformed
  | .null => .error .chainMalformed
  | _ => .error .headerNotObject

def diagnoseSignature (header : Json) (signedPortion signatureBase64 suffix : Bytes) : Except Defect Bytes := do
  let signature ← (decodedText (Encoders.base64UrlDecode signatureBase64)).mapError .signatureText
  let (leaf, intermediates) ← diagnoseChain header
  let interCerts ← diagnoseIntermediates L [] intermediates
  let leafCert ← diagnoseCertificate L leaf
  let x509 : OsslX509 L := ⟨some leafCert, interCerts⟩
  if L.storeContext interCerts (some leafCert) = false then .error .chainContext
  else if (L.verifyCert interCerts (some leafCert) && x509.verifySubjectSuffix suffix &&
      L.terminatesAtRoot interCerts (some leafCert)) = false then .error .chainRejected
  else
    match L.digestVerify (some leafCert) signedPortion signature with
    | none => .error .signatureContext
    | some false => .error .signatureRejected
    | some true => .ok signature

/-- The first defect of a token, or what is parsed from it. -/
def diagnose (self : JsonWebToken) (token : Bytes) (verify : Bool) (suffix : Bytes) : Except Defect JsonWebToken :=
  if token.length < 2 then .error .tokenStructure
  else
    match find dot token, rfind dot token with
    | some first, some last =>
      if first = last then .error .tokenStructure
      else do
        let header ← diagnoseSegment parse self.header (token.take first)
        let jwt ← diagnoseSegment parse self.jwt ((token.drop (first + 1)).take (last - (first + 1)))
        if (token.drop (last + 1)).isEmpty || !verify then return ⟨header, jwt, self.signature⟩
        else if L.construct = false then .error .x509Object
        else do
          let signature ← diagnoseSignature L header (token.take last) (token.drop (last + 1)) suffix
          return ⟨header, jwt, signature⟩
    | _, _ => .error .tokenStructure

end

/-! ### Every exception is that of the first defect -/

theorem base64Decode_cases (s : Bytes) :
    (∃ d : TextDefect, Encoders.base64Decode s = .error d.thrown) ∨ ∃ v, Encoders.base64Decode s = .ok v := by
  rw [Encoders.base64Decode]
  split
  · exact .inl ⟨.character, rfl⟩
  · dsimp only
    split_ifs
    · exact .inl ⟨.padding, rfl⟩
    · exact .inr ⟨_, rfl⟩

@[simp] theorem decodedText_thrown (d : TextDefect) : decodedText (.error d.thrown) = .error d := by
  cases d <;> rfl

@[simp] theorem decodedText_ok (v : Bytes) : decodedText (.ok v) = .ok v := rfl

theorem guarded_error {α : Type} (body : Except Exc α) (f : Exc → Exc) :
    guarded body (fun e => .error (f e)) = body.mapError f := by
  cases body <;> rfl

section

variable (P : Providers) (L : X509Library) (parse : Bytes → Option Json)

theorem parseSegment_diagnosed (kept : Json) (segment : Bytes) :
    parseSegment (P.linux L parse) kept segment = (diagnoseSegment parse kept segment).mapError Defect.thrown := by
  rw [parseSegment, diagnoseSegment]
  split_ifs
  · rfl
  · rw [guarded_error]
    change Except.mapError segmentError (Encoders.base64UrlDecode segment >>= _) = _
    rcases base64Decode_cases (segment.map fun c => if c = 45 then 43 else if c = 95 then 47 else c) with
      ⟨d, hraw⟩ | ⟨text, hraw⟩
    · rw [Encoders.base64UrlDecode, hraw, decodedText_thrown]
      rfl
    · rw [Encoders.base64UrlDecode, hraw, decodedText_ok]
      change Except.mapError segmentError ((parse text).elim (.error (.json .parseError)) .ok) =
        Except.mapError Defect.thrown ((parse text).elim (.error .segmentJson) .ok)
      cases parse text <;> rfl

/-- A certificate of the chain, up to the point where it is put away. -/
theorem certificate_diagnosed (cert : Json) :
    (do let text ← ofJson cert.getString
        let certBuffer ← Encoders.base64Decode (cStr text)
        loadCertificate L certBuffer).mapError signatureError =
      (diagnoseCertificate L cert).mapError Defect.thrown := by
  cases cert with
  | string text =>
      change Except.mapError signatureError (Encoders.base64Decode (cStr text) >>= _) = _
      rw [diagnoseCertificate]
      rcases base64Decode_cases (cStr text) with ⟨d, hraw⟩ | ⟨certBuffer, hraw⟩
      · rw [hraw, decodedText_thrown]
        rfl
      · rw [hraw, decodedText_ok]
        change Except.mapError signatureError (loadCertificate L certBuffer) =
          Except.mapError Defect.thrown ((L.d2i certBuffer).elim (.error .certificateUnreadable) .ok)
        rw [loadCertificate]
        cases L.d2i certBuffer <;> rfl
  | _ => rfl

/-- An intermediate certificate is read first, and then pushed. -/
theorem loadIntermediates_cons (x509 : OsslX509 L) (cert : Json) (certs : List Json) :
    loadIntermediates (P.linux L parse) x509 (cert :: certs) = (do
      let interCert ← (do
        let text ← ofJson cert.getString
        let certBuffer ← Encoders.base64Decode (cStr text)
        loadCertificate L certBuffer)
      if L.push x509.intermediateCerts interCert then
        loadIntermediates (P.linux L parse)
          ({ x509 with intermediateCerts := x509.intermediateCerts ++ [interCert] } : OsslX509 L) certs
      else throw .runtimeError) := by
  change (ofJson cert.getString >>= fun text => x509.loadIntermediateCertificate (cStr text) >>= fun x509 =>
    loadIntermediates (P.linux L parse) x509 certs) = _
  cases ofJson cert.getString with
  | error e => rfl
  | ok text =>
      rw [ok_bind, ok_bind, OsslX509.loadIntermediateCertificate]
      cases Encoders.base64Decode (cStr text) with
      | error e => rfl
      | ok certBuffer =>
          rw [ok_bind, ok_bind]
          cases loadCertificate L certBuffer with
          | error e => rfl
          | ok interCert =>
              rw [ok_bind, ok_bind]
              split_ifs <;> rfl

theorem loadIntermediates_diagnosed (x509 : OsslX509 L) (certs : List Json) :
    (loadIntermediates (P.linux L parse) x509 certs).mapError signatureError =
      ((diagnoseIntermediates L x509.intermediateCerts certs).map
        fun loaded => ({ x509 with intermediateCerts := loaded } : OsslX509 L)).mapError Defect.thrown := by
  induction certs generalizing x509 with
  | nil => rfl
  | cons cert certs ih =>
      rw [loadIntermediates_cons, mapError_bind, certificate_diagnosed, diagnoseIntermediates]
      cases diagnoseCertificate L cert with
      | error d => rfl
      | ok interCert =>
          change Except.mapError signatureError (if L.push x509.intermediateCerts interCert then _ else _) =
            Except.mapError Defect.thrown (Except.map _ (if L.push x509.intermediateCerts interCert then _ else _))
          split_ifs
          · exact ih _
          · rfl

theorem loadChain_diagnosed (leaf : Json) (intermediates : List Json) :
    (loadChain (P.linux L parse) ⟨none, []⟩ leaf intermediates).mapError signatureError =
      (do let interCerts ← diagnoseIntermediates L [] intermediates
          let leafCert ← diagnoseCertificate L leaf
          return (⟨some leafCert, interCerts⟩ : OsslX509 L)).mapError Defect.thrown := by
  rw [loadChain, mapError_bind, loadIntermediates_diagnosed]
  cases diagnoseIntermediates L [] intermediates with
  | error d => rfl
  | ok interCerts =>
      have hleaf := certificate_diagnosed L leaf
      rw [ok_bind]
      change Except.mapError signatureError (ofJson leaf.getString >>= fun text =>
        OsslX509.loadLeafCertificate (⟨none, interCerts⟩ : OsslX509 L) (cStr text)) = _
      have hload : (ofJson leaf.getString >>= fun text =>
          OsslX509.loadLeafCertificate (⟨none, interCerts⟩ : OsslX509 L) (cStr text)) = (do
            let leafCert ← (do
              let text ← ofJson leaf.getString
              let certBuffer ← Encoders.base64Decode (cStr text)
              loadCertificate L certBuffer)
            return (⟨some leafCert, interCerts⟩ : OsslX509 L)) := by
        cases ofJson leaf.getString with
        | error e => rfl
        | ok text =>
            rw [ok_bind, ok_bind, OsslX509.loadLeafCertificate]
            cases Encoders.base64Decode (cStr text) <;> rfl
      rw [hload, mapError_bind, hleaf]
      cases diagnoseCertificate L leaf <;> rfl

/-- The verdicts on the chain and on the signature. -/
theorem verdicts_diagnosed (leafCert : L.Cert) (interCerts : List L.Cert) (signedPortion signature suffix : Bytes) :
    (do
      let chainOk ← OsslX509.verifyCertChain (⟨some leafCert, interCerts⟩ : OsslX509 L) suffix
      if !chainOk then
        throw (Exc.jwtError ⟨.cryptographyErrorSigningCertChainError, ErrorCode.certChainError_ne⟩)
      alloc .ample .signedData
      let signatureOk ← OsslX509.verifySignature (⟨some leafCert, interCerts⟩ : OsslX509 L) signedPortion signature
      if !signatureOk then
        throw (Exc.jwtError ⟨.cryptographyErrorSigningVerifyError, ErrorCode.verifyError_ne⟩)
      return signature).mapError signatureError =
    (if L.storeContext interCerts (some leafCert) = false then Except.error Defect.chainContext
      else if (L.verifyCert interCerts (some leafCert) &&
          OsslX509.verifySubjectSuffix (⟨some leafCert, interCerts⟩ : OsslX509 L) suffix &&
          L.terminatesAtRoot interCerts (some leafCert)) = false then .error .chainRejected
      else
        match L.digestVerify (some leafCert) signedPortion signature with
        | none => .error .signatureContext
        | some false => .error .signatureRejected
        | some true => .ok signature).mapError Defect.thrown := by
  rw [OsslX509.verifyCertChain]
  cases L.storeContext interCerts (some leafCert) with
  | false => rfl
  | true =>
      dsimp only
      rw [if_pos rfl, ok_bind, if_neg Bool.false_ne_true.symm]
      generalize (L.verifyCert interCerts (some leafCert) &&
        OsslX509.verifySubjectSuffix (⟨some leafCert, interCerts⟩ : OsslX509 L) suffix &&
        L.terminatesAtRoot interCerts (some leafCert)) = chainOk
      cases chainOk with
      | false => rfl
      | true =>
          change Except.mapError signatureError (OsslX509.verifySignature _ signedPortion signature >>= _) = _
          rw [OsslX509.verifySignature, if_neg Bool.false_ne_true.symm]
          dsimp only
          cases L.digestVerify (some leafCert) signedPortion signature with
          | none => rfl
          | some result => cases result <;> rfl

theorem checkSignature_diagnosed (header : Json) (signedPortion signatureBase64 suffix : Bytes) :
    (checkSignature (P.linux L parse) .ample ⟨none, []⟩ header signedPortion signatureBase64 suffix).mapError
        signatureError =
      (diagnoseSignature L header signedPortion signatureBase64 suffix).mapError Defect.thrown := by
  rw [checkSignature, diagnoseSignature]
  change Except.mapError signatureError (Encoders.base64UrlDecode signatureBase64 >>= _) = _
  rcases base64Decode_cases (signatureBase64.map fun c => if c = 45 then 43 else if c = 95 then 47 else c) with
    ⟨d, hraw⟩ | ⟨signature, hraw⟩
  · rw [Encoders.base64UrlDecode, hraw, decodedText_thrown]
    rfl
  rw [Encoders.base64UrlDecode, hraw, decodedText_ok, ok_bind]
  change _ = Except.mapError Defect.thrown (diagnoseChain header >>= _)
  cases header with
  | object ms =>
      rw [Json.index, diagnoseChain]
      generalize (ms.lookup (ascii "x5c")).getD Json.null = chain
      cases chain with
      | array certs =>
          cases certs with
          | nil => rfl
          | cons leaf intermediates =>
              have hload := loadChain_diagnosed P L parse leaf intermediates
              change Except.mapError signatureError (loadChain (P.linux L parse) ⟨none, []⟩ leaf intermediates >>= _) =
                Except.mapError Defect.thrown (diagnoseIntermediates L [] intermediates >>= _)
              rw [mapError_bind, hload]
              cases diagnoseIntermediates L [] intermediates with
              | error d => rfl
              | ok interCerts =>
                  rw [ok_bind, ok_bind]
                  cases diagnoseCertificate L leaf with
                  | error d => rfl
                  | ok leafCert => exact verdicts_diagnosed L leafCert interCerts signedPortion signature suffix
      | _ => rfl
  | _ => rfl

/-- **`ParseToken` ends as the first defect of the token says.** -/
theorem parseToken_diagnosed (self : JsonWebToken) (token : Bytes) (verify : Bool) (suffix : Bytes) :
    parseToken (P.linux L parse) .ample self token verify suffix =
      (diagnose L parse self token verify suffix).mapError Defect.thrown := by
  rw [parseToken, diagnose]
  change (if token.length < 2 then _ else _) = _
  by_cases hlen : token.length < 2
  · rw [if_pos hlen, if_pos hlen]
    rfl
  rw [if_neg hlen, if_neg hlen]
  change (match find dot token, rfind dot token with
    | some first, some last => _
    | _, _ => _) = _
  cases hfirst : find dot token with
  | none => rfl
  | some first =>
      cases hlast : rfind dot token with
      | none => rfl
      | some last =>
          change (if first = last then _ else _) = Except.mapError Defect.thrown (if first = last then _ else _)
          by_cases heq : first = last
          · rw [if_pos heq, if_pos heq]
            rfl
          rw [if_neg heq, if_neg heq, mapError_bind]
          change (parseSegment (P.linux L parse) self.header (token.take first) >>= _) = _
          rw [parseSegment_diagnosed]
          cases diagnoseSegment parse self.header (token.take first) with
          | error d => rfl
          | ok header =>
              change (parseSegment (P.linux L parse) self.jwt _ >>= _) =
                Except.mapError Defect.thrown (diagnoseSegment parse self.jwt _ >>= _)
              rw [parseSegment_diagnosed]
              cases diagnoseSegment parse self.jwt ((token.drop (first + 1)).take (last - (first + 1))) with
              | error d => rfl
              | ok jwt =>
                  rw [ok_bind]
                  change (if _ then _ else _) = Except.mapError Defect.thrown (if _ then _ else _)
                  split_ifs with hunsigned hobject
                  · rfl
                  · change (OsslX509.new L >>= _) = _
                    rw [OsslX509.new, hobject]
                    rfl
                  · have hcheck := checkSignature_diagnosed P L parse header (token.take last) (token.drop (last + 1))
                      suffix
                    change (OsslX509.new L >>= _) = _
                    rw [OsslX509.new, if_pos (Bool.not_eq_false _ ▸ hobject), ok_bind, guarded_error, hcheck]
                    cases diagnoseSignature L header (token.take last) (token.drop (last + 1)) suffix <;> rfl

/-! ### Codes -/

/-- Every exception is a `JwtError` whose code is negative and names the stage of the first defect. -/
def StageReported (result : Except Exc JsonWebToken) (defects : Except Defect JsonWebToken) : Prop :=
  ∀ e, result = .error e →
    ∃ rc : FailureCode, e = .jwtError rc ∧ rc.1.toInt < 0 ∧ ∃ d, defects = .error d ∧ d.stage.names rc.1 = true

/-- An exception with a code of the stage. -/
def Exc.names (stage : Stage) : Exc → Bool
  | .jwtError rc => stage.names rc.1
  | _ => false

theorem Exc.names_iff {stage : Stage} {e : Exc} :
    e.names stage = true ↔ ∃ rc : FailureCode, e = .jwtError rc ∧ stage.names rc.1 = true := by
  cases e <;> simp [Exc.names]

theorem reported_eq (d : Defect) : d.reported = d.thrown.names d.stage := by
  cases d with
  | segmentText d => cases d <;> rfl
  | signatureText d => cases d <;> rfl
  | certificateText d => cases d <;> rfl
  | _ => rfl

theorem reported_iff (d : Defect) :
    d.reported = true ↔ ∃ rc : FailureCode, d.thrown = .jwtError rc ∧ d.stage.names rc.1 = true := by
  rw [reported_eq, Exc.names_iff]

theorem stageReported_error_iff {self : JsonWebToken} {token suffix : Bytes} {verify : Bool} {d : Defect}
    (hd : diagnose L parse self token verify suffix = .error d) :
    StageReported (parseToken (P.linux L parse) .ample self token verify suffix)
      (diagnose L parse self token verify suffix) ↔ d.reported = true := by
  rw [parseToken_diagnosed, StageReported, hd]
  constructor
  · intro h
    obtain ⟨rc, hthrown, -, d', hd', hnames⟩ := h d.thrown rfl
    cases hd'
    exact (reported_iff d).2 ⟨rc, hthrown, hnames⟩
  · intro h e he
    cases he
    obtain ⟨rc, hthrown, hnames⟩ := (reported_iff d).1 h
    exact ⟨rc, hthrown, ErrorCode.toInt_neg rc.2, d, rfl, hnames⟩

/-- **`ParseToken` reports a stage exactly for the defects it has a code for.** -/
theorem parseToken_reported_iff (self : JsonWebToken) (token : Bytes) (verify : Bool) (suffix : Bytes) :
    StageReported (parseToken (P.linux L parse) .ample self token verify suffix)
        (diagnose L parse self token verify suffix) ↔
      ∀ d, diagnose L parse self token verify suffix = .error d → d.reported = true := by
  cases hd : diagnose L parse self token verify suffix with
  | ok t =>
      rw [parseToken_diagnosed, StageReported, hd]
      exact iff_of_true (fun e he => by cases he) (fun d hd => by cases hd)
  | error d =>
      rw [← hd, stageReported_error_iff P L parse hd]
      constructor
      · intro h d' hd'
        cases hd.symm.trans hd'
        exact h
      · exact fun h => h d hd

variable {self : JsonWebToken} {token suffix : Bytes} {verify : Bool}

/-- `ParseToken` ends in an exception that does not say what is wrong with the token. -/
def Unreported (self : JsonWebToken) (token suffix : Bytes) (verify : Bool) (e : Exc) : Prop :=
  parseToken (P.linux L parse) .ample self token verify suffix = .error e ∧
    ¬ StageReported (parseToken (P.linux L parse) .ample self token verify suffix)
      (diagnose L parse self token verify suffix)

theorem unreported_of {d : Defect} (hd : diagnose L parse self token verify suffix = .error d)
    (hr : d.reported = false) : Unreported P L parse self token suffix verify d.thrown := by
  refine ⟨by rw [parseToken_diagnosed, hd]; rfl, fun h => ?_⟩
  have hreported := (stageReported_error_iff P L parse hd).1 h
  cases hr.symm.trans hreported

end

namespace Sample

/-- An OpenSSL that reads no certificate. -/
def noCertificates : X509Library where
  Cert := Unit
  d2i _ := none
  construct := true
  push _ _ := true
  storeContext _ _ := true
  verifyCert _ _ := false
  commonName _ := []
  terminatesAtRoot _ _ := false
  digestVerify _ _ _ := none

/-- A JSON parser that knows `\x7b\x7d` and `[]`. -/
def parseEmpty (text : Bytes) : Option Json :=
  if text = ascii "\x7b\x7d" then some (.object []) else if text = ascii "[]" then some (.array []) else none

/-- A new object is given a token, and the signature of the token is to be verified. -/
def UnreportedFor (token : Bytes) (e : Exc) : Prop :=
  Unreported (providers []) noCertificates parseEmpty .new token subjectNameSuffix true e

end Sample

/-- No dots; a header that is padded too much; a signature that is padded too much; a header that is no object; and one
without a chain. The first two end in a `JwtError` under a code of another stage, the others in exceptions of other
classes. -/
theorem parseToken_unreported :
    Sample.UnreportedFor (ascii "a") .jwtDefault ∧
      Sample.UnreportedFor (ascii "==.e30.")
        (.jwtError ⟨.parsingErrorJwtJsonParseError, ErrorCode.jsonParseError_ne⟩) ∧
      Sample.UnreportedFor (ascii "e30.e30.==") .lengthError ∧
      Sample.UnreportedFor (ascii "W10.e30.QQ") (.json .typeError) ∧
      Sample.UnreportedFor (ascii "e30.e30.QQ") .runtimeError :=
  ⟨unreported_of _ _ _ (d := .tokenStructure) rfl rfl, unreported_of _ _ _ (d := .segmentText .padding) rfl rfl,
    unreported_of _ _ _ (d := .signatureText .padding) rfl rfl, unreported_of _ _ _ (d := .headerNotObject) rfl rfl,
    unreported_of _ _ _ (d := .chainMalformed) rfl rfl⟩

end CvmAttestation.Secrets
