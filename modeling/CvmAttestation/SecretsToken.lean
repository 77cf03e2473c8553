import CvmAttestation.BaseControl
import CvmAttestation.SecretsErrors
import Mathlib.Tactic

/-! JSON web tokens of the secrets library: the test that tells a token from legacy data and the parser
that verifies a signed token. The decoders, the JSON parser, the certificate store, the TPM and the
ciphers are given functions that may return or raise anything. -/

namespace CvmAttestation.Secrets

open Base

inductive RsaPaddingScheme
  | rsaes
  | rsaesOaep
  deriving DecidableEq, Repr

/-- What the library calls: `X509`, `Tpm`, `Aes` and `Ecdh` are the states of the objects it creates. -/
structure Providers where
  base64UrlDecode : Bytes → Except Exc Bytes
  base64Decode : Bytes → Except Exc Bytes
  parse : Bytes → Except Exc Json
  dump : Json → Except Exc Bytes
  X509 : Type
  newX509 : Except Exc X509
  loadIntermediateCertificate : X509 → Bytes → Except Exc X509
  loadLeafCertificate : X509 → Bytes → Except Exc X509
  verifyCertChain : X509 → Bytes → Except Exc Bool
  verifySignature : X509 → Bytes → Bytes → Except Exc Bool
  getSystemUuid : Except Exc Bytes
  Tpm : Type
  newTpm : Except Exc Tpm
  rsaDecrypt : Tpm → Bytes → RsaPaddingScheme → Except Exc Bytes
  Aes : Type
  createAesWrapper : Except Exc Aes
  setKey : Aes → Bytes → Except Exc Aes
  aesDecrypt : Aes → Bytes → Bytes → Except Exc Bytes
  Ecdh : Type
  newEcdh : Except Exc Ecdh
  importPkcs8PrivateKey : Ecdh → Bytes → Except Exc Ecdh
  importSubjectPublicKeyInfo : Ecdh → Bytes → Except Exc Ecdh
  deriveSecret : Ecdh → Ecdh → Except Exc Bytes
  deriveKey : Bytes → Bytes → Bytes → Nat → Except Exc Bytes

/-- The calls of `GetEvaluatedPolicy` are numbered in `Fin 2`. -/
instance instNeZeroTwo : NeZero 2 := ⟨by decide⟩

/-- The allocations of the library outside of what it calls. -/
inductive Site
  | requiredFields
  | tokenString
  | headerSegment
  | tokenObject
  | inputString
  | tokenVector
  | segments
  | signedPortion
  | chainCopy
  | signedData
  | claims (copy : Fin 3)
  | signature (copy : Fin 2)
  | legacyCopy
  | outputBuffer
  | wideInput
  | toBytes
  | fromBytes
  | fallback
  deriving DecidableEq, Repr

abbrev Memory := Site → Bool

def Memory.ample : Memory := fun _ => false

def alloc (mem : Memory) (site : Site) : Except Exc Unit :=
  if mem site then .error .badAlloc else .ok ()

def dot : UInt8 := 46

/-- What `c_str()` hands to a function that reads up to the first zero byte. -/
def cStr (s : Bytes) : Bytes := s.takeWhile (· ≠ 0)

def subjectNameSuffix : Bytes := ascii ".SecureCPSProvisioning.cloudapp.net"

/-- The test of a parsed header: a string `alg`, and every required field with its value. -/
def headerMatches (header : Json) (requiredFields : List (Bytes × Bytes)) : Bool :=
  (match header.member? (ascii "alg") with
    | some alg => alg.isString
    | none => false) &&
  requiredFields.all fun field =>
    match header.member? field.1 with
    | some value => value.equalsString field.2
    | none => false

section

variable (P : Providers) (mem : Memory)

def decodeJson (segment : Bytes) : Except Exc Json := do
  let text ← P.base64UrlDecode segment
  P.parse text

/-- `JsonWebToken::isRealJwt`. The copy of the token and of its header are made outside of the `try`
block, in which every exception means that the token is none. -/
def isRealJwt (token : Bytes) (requiredFields : List (Bytes × Bytes)) : Except Exc Bool := do
  alloc mem .tokenString
  match find dot token, rfind dot token with
  | some firstDot, some lastDot =>
    if firstDot = lastDot ∨ token.count dot ≠ 2 then
      return false
    else
      alloc mem .headerSegment
      guarded (do
          let header ← decodeJson P (token.take firstDot)
          return headerMatches header requiredFields)
        fun _ => .ok false
  | _, _ => return false

structure JsonWebToken where
  header : Json
  jwt : Json
  signature : Bytes

def JsonWebToken.new : JsonWebToken where
  header := .object [(ascii "alg", .string (ascii "RS256")), (ascii "typ", .string (ascii "JWT"))]
  jwt := .null
  signature := []

def segmentError : Exc → Exc
  | .dataflow => .jwtError ⟨.parsingErrorBase64B64Error, by decide⟩
  | .json .parseError => .jwtError ⟨.parsingErrorJwtJsonParseError, by decide⟩
  | _ => .jwtError ⟨.parsingErrorJwtJsonParseError, by decide⟩

/-- The member an empty segment leaves as it was. -/
def parseSegment (kept : Json) (segment : Bytes) : Except Exc Json :=
  if segment.isEmpty then .ok kept
  else guarded (decodeJson P segment) fun e => .error (segmentError e)

/-- The handlers around the verification of the signature; what they do not name is raised again. -/
def signatureError : Exc → Exc
  | .dataflow => .jwtError ⟨.parsingErrorBase64B64Error, by decide⟩
  | .json .outOfRange => .jwtError ⟨.parsingErrorJwtJsonParseError, by decide⟩
  | .osslError => .jwtDefault
  | e => e

def loadIntermediates : P.X509 → List Json → Except Exc P.X509
  | x509, [] => .ok x509
  | x509, cert :: certs => do
    let text ← ofJson cert.getString
    let x509 ← P.loadIntermediateCertificate x509 (cStr text)
    loadIntermediates x509 certs

def loadChain (x509 : P.X509) (leaf : Json) (intermediates : List Json) : Except Exc P.X509 := do
  let x509 ← loadIntermediates P x509 intermediates
  let text ← ofJson leaf.getString
  P.loadLeafCertificate x509 (cStr text)

/-- The body of the `try` block around the verification; it returns the decoded signature. -/
def checkSignature (x509 : P.X509) (header : Json) (signedPortion signatureBase64 suffix : Bytes) :
    Except Exc Bytes := do
  let signature ← P.base64UrlDecode signatureBase64
  let chain ← ofJson (header.index (ascii "x5c"))
  alloc mem .chainCopy
  match chain with
  | .array (leaf :: intermediates) =>
    let x509 ← loadChain P x509 leaf intermediates
    let chainOk ← P.verifyCertChain x509 suffix
    if !chainOk then
      throw (.jwtError ⟨.cryptographyErrorSigningCertChainError, by decide⟩)
    alloc mem .signedData
    let signatureOk ← P.verifySignature x509 signedPortion signature
    if !signatureOk then
      throw (.jwtError ⟨.cryptographyErrorSigningVerifyError, by decide⟩)
    return signature
  | _ => throw .runtimeError

/-- `JsonWebToken::ParseToken`: what the object holds when the call returns. -/
def parseToken (self : JsonWebToken) (token : Bytes) (verify : Bool) (expectedSubjectSuffix : Bytes) :
    Except Exc JsonWebToken := do
  alloc mem .tokenVector
  if token.length < 2 then
    throw .jwtDefault
  match find dot token, rfind dot token with
  | some first, some last =>
    if first = last then
      throw .jwtDefault
    alloc mem .segments
    let headerBase64 := token.take first
    let payloadBase64 := (token.drop (first + 1)).take (last - (first + 1))
    let signatureBase64 := token.drop (last + 1)
    let header ← parseSegment P self.header headerBase64
    let jwt ← parseSegment P self.jwt payloadBase64
    if signatureBase64.isEmpty || !verify then
      return ⟨header, jwt, self.signature⟩
    else
      alloc mem .signedPortion
      let x509 ← P.newX509
      let signature ← guarded
        (checkSignature P mem x509 header (token.take last) signatureBase64 expectedSubjectSuffix)
        fun e => .error (signatureError e)
      return ⟨header, jwt, signature⟩
  | _, _ => throw .jwtDefault

end

/-! ### What the two functions establish -/

section

variable {P : Providers} {mem : Memory} {token a b d : Bytes}

theorem isRealJwt_of_segments (h : Segments dot token a b d) (requiredFields : List (Bytes × Bytes)) :
    isRealJwt P mem token requiredFields = (do
      alloc mem .tokenString
      alloc mem .headerSegment
      guarded (do
          let header ← decodeJson P a
          return headerMatches header requiredFields)
        fun _ => .ok false) := by
  have hne : ¬(a.length = a.length + 1 + b.length ∨ token.count dot ≠ 2) := by
    rw [h.count]
    omega
  simp only [isRealJwt, h.find, h.rfind, if_neg hne, h.take_first]

/-- What `isRealJwt` accepts: three segments, the first of which decodes to a matching header. -/
theorem isRealJwt_accepts {requiredFields : List (Bytes × Bytes)}
    (h : isRealJwt P mem token requiredFields = .ok true) :
    ∃ a b d header, Segments dot token a b d ∧ decodeJson P a = .ok header ∧
      headerMatches header requiredFields = true := by
  have hcount : token.count dot = 2 := by
    by_contra hc
    simp only [isRealJwt, bind_returns] at h
    obtain ⟨-, -, h⟩ := h
    split at h
    · rw [if_pos (Or.inr hc)] at h
      cases h
    · cases h
  obtain ⟨a, b, d, hs⟩ := exists_segments hcount
  rw [isRealJwt_of_segments hs, bind_returns] at h
  obtain ⟨-, -, h⟩ := h
  rw [bind_returns] at h
  obtain ⟨-, -, h⟩ := h
  cases hd : decodeJson P a with
  | error e =>
      rw [hd] at h
      cases h
  | ok header =>
      rw [hd] at h
      refine ⟨a, b, d, header, hs, hd, ?_⟩
      injection h

/-- No token with three segments and a matching header is rejected. -/
theorem isRealJwt_not_rejects {requiredFields : List (Bytes × Bytes)} {header : Json}
    (hs : Segments dot token a b d) (hd : decodeJson P a = .ok header)
    (hm : headerMatches header requiredFields = true) : isRealJwt P mem token requiredFields ≠ .ok false := by
  intro h
  rw [isRealJwt_of_segments hs, bind_returns] at h
  obtain ⟨-, -, h⟩ := h
  rw [bind_returns] at h
  obtain ⟨-, -, h⟩ := h
  rw [hd] at h
  injection h with h
  rw [hm] at h
  cases h

/-- The signature text of a token was verified over `signedPortion`, against the chain of `header`. -/
structure SignatureVerified (P : Providers) (header : Json) (signedPortion signatureBase64 suffix signature : Bytes) :
    Prop where
  decoded : P.base64UrlDecode signatureBase64 = .ok signature
  verified : ∃ leaf intermediates x509 loaded,
    header.member? (ascii "x5c") = some (.array (leaf :: intermediates)) ∧ P.newX509 = .ok x509 ∧
      loadChain P x509 leaf intermediates = .ok loaded ∧ P.verifyCertChain loaded suffix = .ok true ∧
        P.verifySignature loaded signedPortion signature = .ok true

theorem checkSignature_returns {x509 : P.X509} {header : Json} {signedPortion signatureBase64 suffix signature : Bytes}
    (hx : P.newX509 = .ok x509)
    (h : checkSignature P mem x509 header signedPortion signatureBase64 suffix = .ok signature) :
    SignatureVerified P header signedPortion signatureBase64 suffix signature := by
  rw [checkSignature, bind_returns] at h
  obtain ⟨decoded, hdec, h⟩ := h
  rw [bind_returns] at h
  obtain ⟨chain, hchain, h⟩ := h
  rw [bind_returns] at h
  obtain ⟨-, -, h⟩ := h
  split at h
  · rename_i leaf intermediates
    have hmem := Json.index_eq_array (ofJson_eq_ok hchain)
    rw [bind_returns] at h
    obtain ⟨loaded, hload, h⟩ := h
    rw [bind_returns] at h
    obtain ⟨chainOk, hc, h⟩ := h
    cases chainOk with
    | false => cases h
    | true =>
        simp only [Bool.not_true, Bool.false_eq_true, if_false, bind_returns] at h
        obtain ⟨-, -, signatureOk, hs, h⟩ := h
        cases signatureOk with
        | false => cases h
        | true =>
            simp only [Bool.not_true, Bool.false_eq_true, if_false] at h
            cases h
            exact ⟨hdec, leaf, intermediates, x509, loaded, hmem, hx, hload, hc, hs⟩
  · cases h

/-- What a verifying `ParseToken` leaves in the object, segment by segment. -/
structure Parsed (P : Providers) (old : JsonWebToken) (a b d suffix : Bytes) (t : JsonWebToken) : Prop where
  header : a ≠ [] → decodeJson P a = .ok t.header
  headerKept : a = [] → t.header = old.header
  claims : b ≠ [] → decodeJson P b = .ok t.jwt
  claimsKept : b = [] → t.jwt = old.jwt
  verified : d ≠ [] → SignatureVerified P t.header (a ++ dot :: b) d suffix t.signature
  signatureKept : d = [] → t.signature = old.signature

theorem parseSegment_returns {s : Bytes} {kept j : Json} (h : parseSegment P kept s = .ok j) :
    (s ≠ [] → decodeJson P s = .ok j) ∧ (s = [] → j = kept) := by
  cases s with
  | nil =>
      cases h
      exact ⟨fun hne => absurd rfl hne, fun _ => rfl⟩
  | cons c s => exact ⟨fun _ => guarded_returns h, fun he => by cases he⟩

/-- **A verifying `ParseToken` that returns** has decoded each segment that is not empty, and has
verified the signature unless its segment is empty. -/
theorem parseToken_returns {self t : JsonWebToken} {suffix : Bytes} (hs : Segments dot token a b d)
    (h : parseToken P mem self token true suffix = .ok t) : Parsed P self a b d suffix t := by
  rw [parseToken, bind_returns] at h
  obtain ⟨-, -, h⟩ := h
  have hlen : ¬token.length < 2 := by
    rw [hs.eq]
    simp only [List.length_append, List.length_cons]
    omega
  have hne : ¬a.length = a.length + 1 + b.length := by omega
  simp only [if_neg hlen, hs.find, hs.rfind, if_neg hne, hs.take_first, hs.middle, hs.take_last,
    hs.drop_last, bind_returns] at h
  obtain ⟨-, -, header, hh, jwt, hj, h⟩ := h
  obtain ⟨hhDec, hhKept⟩ := parseSegment_returns hh
  obtain ⟨hjDec, hjKept⟩ := parseSegment_returns hj
  cases d with
  | nil =>
      cases h
      exact ⟨hhDec, hhKept, hjDec, hjKept, fun hd => absurd rfl hd, fun _ => rfl⟩
  | cons c d =>
      simp only [List.isEmpty_cons, Bool.not_true, Bool.or_self, Bool.false_eq_true, if_false,
        bind_returns] at h
      obtain ⟨-, -, x509, hx, signature, hg, h⟩ := h
      cases h
      exact ⟨hhDec, hhKept, hjDec, hjKept, fun _ => checkSignature_returns hx (guarded_returns hg),
        fun hd => by cases hd⟩

end

end CvmAttestation.Secrets
