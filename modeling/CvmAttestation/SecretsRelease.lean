import CvmAttestation.SecretsUnprotect
import Mathlib.Logic.Basic
import Mathlib.Tactic

/-! Release of a secret. A call of `unprotect_secret` that succeeds has either copied legacy input that
the policy allows, or decrypted a token whose signature was verified or may be missing: there is no third
way, whatever the decoders, the parser, the certificate store, the TPM and the ciphers do. -/

namespace CvmAttestation.Secrets

open Base

structure LegacyRelease (P : Providers) (mem : Memory) (jwt : Bytes) (policy : Word) (after : Outputs UInt8) :
    Prop where
  rejected : isRealJwt P mem jwt requiredFields = .ok false
  allowed : isPolicySet policy PolicyOption.allowLegacy = true
  evaluated : after.evalPolicy = some PayloadFeature.legacy
  copied : after.outputSecret = handedOut jwt

structure PurposeHeader (header : Json) : Prop where
  isObject : header.isObject = true
  alg : ∃ alg, header.member? (ascii "alg") = some (.string alg)
  purpose : header.member? (ascii "x-az-cvm-purpose") = some (.string (ascii "secrets-provisioning"))

structure TokenRelease (P : Providers) (jwt : Bytes) (policy : Word) (a b d : Bytes) (header claims : Json) :
    Prop where
  segments : Segments dot jwt a b d
  header_decoded : decodeJson P a = .ok header
  header_ok : PurposeHeader header
  claims_decoded : decodeJson P b = .ok claims
  claims_ok : claims.contains (ascii "encryptedSecret") = true
  verified : (d ≠ [] ∧ ∃ signature, SignatureVerified P header (a ++ dot :: b) d subjectNameSuffix signature) ∨
    (d = [] ∧ isPolicySet policy PolicyOption.allowUnsigned = true)

theorem isObject_of_member {header value : Json} {key : Bytes} (h : header.member? key = some value) :
    header.isObject = true := by
  cases header with
  | object ms => rfl
  | _ => cases h

theorem purposeHeader_iff {header : Json} : headerMatches header requiredFields = true ↔ PurposeHeader header := by
  constructor
  · intro h
    simp only [headerMatches, requiredFields, List.all_cons, List.all_nil, Bool.and_true, Bool.and_eq_true] at h
    obtain ⟨halg, hpurpose⟩ := h
    split at halg
    · rename_i alg ha
      split at hpurpose
      · rename_i purpose hp
        obtain ⟨text, rfl⟩ := Json.isString_iff.1 halg
        rw [Json.equalsString_iff.1 hpurpose] at hp
        exact ⟨isObject_of_member ha, ⟨text, ha⟩, hp⟩
      · cases hpurpose
    · cases halg
  · rintro ⟨-, ⟨alg, ha⟩, hp⟩
    simp only [headerMatches, requiredFields, ha, hp, Json.isString, List.all_cons, List.all_nil,
      Json.equalsString_iff.2 rfl, Bool.and_self]

section

variable {P : Providers} {mem : Memory} {jwt : Bytes} {policy : Word} {a b d : Bytes} {t : JsonWebToken}

/-- A verified signature belongs to a header that was decoded: the header a fresh object starts with has
no certificate chain. -/
theorem Parsed.header_of_verified (hp : Parsed P .new a b d subjectNameSuffix t) (hd : d ≠ []) :
    decodeJson P a = .ok t.header := by
  refine hp.header fun ha => ?_
  obtain ⟨leaf, intermediates, x509, loaded, hmem, -⟩ := (hp.verified hd).verified
  rw [hp.headerKept ha] at hmem
  have hnone : JsonWebToken.new.header.member? (ascii "x5c") = none := by rfl
  rw [hnone] at hmem
  cases hmem

theorem Parsed.claims_of_contains (hp : Parsed P .new a b d subjectNameSuffix t)
    (hc : t.jwt.contains (ascii "encryptedSecret") = true) : decodeJson P b = .ok t.jwt := by
  refine hp.claims fun hb => ?_
  rw [hp.claimsKept hb] at hc
  cases hc

theorem tokenRelease_of_parsed {header : Json} (hs : Segments dot jwt a b d) (hd : decodeJson P a = .ok header)
    (hm : headerMatches header requiredFields = true) (hp : Parsed P .new a b d subjectNameSuffix t)
    (hc : t.jwt.contains (ascii "encryptedSecret") = true)
    (hcomp : (PolicyEvaluator.ofToken policy t).isCompliant mem = .ok true) :
    TokenRelease P jwt policy a b d header t.jwt := by
  refine ⟨hs, hd, purposeHeader_iff.1 hm, hp.claims_of_contains hc, hc, ?_⟩
  by_cases hsig : d = []
  · refine .inr ⟨hsig, ?_⟩
    rcases PolicyEvaluator.isCompliant_ofToken hcomp with h | h
    · exact absurd (hp.signatureKept hsig) h
    · exact h
  · have hheader : header = t.header := by
      have h := hp.header_of_verified hsig
      rw [hd] at h
      injection h
    refine .inl ⟨hsig, t.signature, ?_⟩
    rw [hheader]
    exact hp.verified hsig

theorem segments_of_accepted (hacc : isRealJwt P mem jwt requiredFields = .ok true)
    (ht : parseToken P mem .new jwt true subjectNameSuffix = .ok t) :
    ∃ a b d header, Segments dot jwt a b d ∧ decodeJson P a = .ok header ∧
      headerMatches header requiredFields = true ∧ Parsed P .new a b d subjectNameSuffix t := by
  obtain ⟨a, b, d, header, hs, hd, hm⟩ := isRealJwt_accepts hacc
  exact ⟨a, b, d, header, hs, hd, hm, parseToken_returns hs ht⟩

theorem legacy_or_token {pe : PolicyEvaluator} {evalPolicy : Word} {data : Bytes}
    (hpe : PolicyEvaluator.ofNarrow P mem policy jwt = .ok pe)
    (hev : pe.getEvaluatedPolicy mem 0 = .ok evalPolicy) (hcomp : pe.isCompliant mem = .ok true)
    (hdata : Gathered P mem pe jwt (fun plaintextData => .ok (.ok plaintextData)) data) :
    LegacyRelease P mem jwt policy ⟨handedOut data, some evalPolicy⟩ ∨
      ∃ a b d header claims, TokenRelease P jwt policy a b d header claims := by
  rcases PolicyEvaluator.ofNarrow_returns hpe with ⟨hrej, rfl⟩ | ⟨hacc, t, ht, rfl⟩
  · rw [PolicyEvaluator.getEvaluatedPolicy_ofLegacy] at hev
    rw [PolicyEvaluator.isCompliant_ofLegacy] at hcomp
    injection hev with hev
    injection hcomp with hcomp
    cases hdata with
    | legacy hl => exact .inl ⟨hrej, hcomp, by rw [hev], rfl⟩
    | token hl => cases hl
  · obtain ⟨a, b, d, header, hs, hd, hm, hp⟩ := segments_of_accepted hacc ht
    cases hdata with
    | legacy hl => cases hl
    | token hl hdec hconv =>
        have hc : t.jwt.contains (ascii "encryptedSecret") = true := by
          obtain ⟨claims, hclaims, hd⟩ := decryptToken_returns hdec
          rw [PolicyEvaluator.getClaims, PolicyEvaluator.ofToken, bind_returns] at hclaims
          obtain ⟨-, -, hclaims⟩ := hclaims
          cases hclaims
          exact hd.of_zero.2
        exact .inr ⟨a, b, d, header, t.jwt, tokenRelease_of_parsed hs hd hm hp hc hcomp⟩

/-- What was taken for legacy data is no token with the purpose of this library. -/
theorem not_legacy_and_token {after : Outputs UInt8} {header claims : Json}
    (hl : LegacyRelease P mem jwt policy after) (ht : TokenRelease P jwt policy a b d header claims) : False :=
  isRealJwt_not_rejects ht.segments ht.header_decoded (purposeHeader_iff.2 ht.header_ok) hl.rejected

theorem verified_of_signed {pe : PolicyEvaluator} {evalPolicy : Word}
    (hpe : PolicyEvaluator.ofNarrow P mem policy jwt = .ok pe)
    (hev : pe.getEvaluatedPolicy mem 0 = .ok evalPolicy)
    (hsigned : isPolicySet evalPolicy PayloadFeature.signed = true) :
    ∃ a b d header signature, Segments dot jwt a b d ∧ d ≠ [] ∧ decodeJson P a = .ok header ∧
      SignatureVerified P header (a ++ dot :: b) d subjectNameSuffix signature := by
  rcases PolicyEvaluator.ofNarrow_returns hpe with ⟨hrej, rfl⟩ | ⟨hacc, t, ht, rfl⟩
  · rw [PolicyEvaluator.getEvaluatedPolicy_ofLegacy] at hev
    injection hev with hev
    rw [← hev] at hsigned
    exact absurd hsigned (by decide)
  · obtain ⟨a, b, d, header, hs, hd, hm, hp⟩ := segments_of_accepted hacc ht
    rw [PolicyEvaluator.getEvaluatedPolicy_ofToken hev, PolicyEvaluator.isPolicySet_signed] at hsigned
    have hne : d ≠ [] := fun hnil => by
      rw [hp.signatureKept hnil] at hsigned
      cases hsigned
    exact ⟨a, b, d, t.header, t.signature, hs, hne, hp.header_of_verified hne, hp.verified hne⟩

end

/-- **Release of a secret by `unprotect_secret`.** A run that returns a value that is not negative is
either a legacy release or the release of a token, never both; and an evaluated policy with the bit
`Signed` belongs to a token whose signature text is not empty and was verified. -/
theorem unprotectSecret_release (P : Providers) (mem : Memory) (jwt : Bytes) (policy : Word)
    (pointer : Option Bytes) :
    (∀ r, ((unprotectSecret P mem jwt policy).exec ⟨pointer, none⟩).1 = .ok r → 0 ≤ r →
      Xor (LegacyRelease P mem jwt policy ((unprotectSecret P mem jwt policy).exec ⟨pointer, none⟩).2)
        (∃ a b d header claims, TokenRelease P jwt policy a b d header claims)) ∧
    (∀ evalPolicy, ((unprotectSecret P mem jwt policy).exec ⟨pointer, none⟩).2.evalPolicy = some evalPolicy →
      isPolicySet evalPolicy PayloadFeature.signed = true →
        ∃ a b d header signature, Segments dot jwt a b d ∧ d ≠ [] ∧ decodeJson P a = .ok header ∧
          SignatureVerified P header (a ++ dot :: b) d subjectNameSuffix signature) := by
  have hrun := unprotectWith_outcome P mem (PolicyEvaluator.ofNarrow P mem policy jwt) jwt
    (fun plaintextData => .ok (.ok plaintextData)) ⟨pointer, none⟩
  rw [← unprotectSecret] at hrun
  generalize (unprotectSecret P mem jwt policy).exec ⟨pointer, none⟩ = run at hrun
  constructor
  · intro r hr hpos
    cases hrun with
    | failed c =>
        injection hr with hr
        have := ErrorCode.toInt_neg c.property
        omega
    | refused c hpe hev =>
        injection hr with hr
        have := ErrorCode.toInt_neg c.property
        omega
    | released hpe hev hcomp hdata hbuffer =>
        rcases legacy_or_token hpe hev hcomp hdata with hl | ⟨a, b, d, header, claims, ht⟩
        · exact .inl ⟨hl, fun ⟨a, b, d, header, claims, ht⟩ => not_legacy_and_token hl ht⟩
        · exact .inr ⟨⟨a, b, d, header, claims, ht⟩, fun hl => not_legacy_and_token hl ht⟩
  · intro evalPolicy hev hsigned
    cases hrun with
    | failed c => cases hev
    | refused c hpe hev' =>
        cases hev
        exact verified_of_signed hpe hev' hsigned
    | released hpe hev' hcomp hdata hbuffer =>
        cases hev
        exact verified_of_signed hpe hev' hsigned

/-! ### A sample platform -/

namespace Sample

def objectText (fields : List (Bytes × Bytes)) : Bytes :=
  ascii "\x7b" ++
    List.intercalate (ascii ",") (fields.map fun f => ascii "\"" ++ f.1 ++ ascii "\":\"" ++ f.2 ++ ascii "\"") ++
      ascii "\x7d"

def object (fields : List (Bytes × Bytes)) : Json := .object (fields.map fun f => (f.1, .string f.2))

def header : List (Bytes × Bytes) :=
  [(ascii "alg", ascii "RS256"), (ascii "x-az-cvm-purpose", ascii "secrets-provisioning")]

def claims : List (Bytes × Bytes) :=
  [ascii "salt", ascii "dataNonce", ascii "keyNonce", ascii "wrappedAesTransportKey", ascii "encryptedSecret",
    ascii "encryptedGuestEcdhPrivateKey", ascii "ephemeralEcdhPublicKey"].map fun key => (key, ascii "AA==")

def providers (secret : Bytes) : Providers where
  base64UrlDecode := Encoders.base64UrlDecode
  base64Decode := Encoders.base64Decode
  parse text :=
    if text = objectText header then .ok (object header)
    else if text = objectText claims then .ok (object claims)
    else .error (.json .parseError)
  dump _ := .ok []
  X509 := Unit
  newX509 := .ok ()
  loadIntermediateCertificate _ _ := .error .osslError
  loadLeafCertificate _ _ := .error .osslError
  verifyCertChain _ _ := .ok false
  verifySignature _ _ _ := .ok false
  getSystemUuid := .ok (ascii "00000000-0000-0000-0000-000000000000")
  Tpm := Unit
  newTpm := .ok ()
  rsaDecrypt _ _ _ := .ok [1]
  Aes := Bytes
  createAesWrapper := .ok []
  setKey _ key := .ok key
  aesDecrypt key _ _ := if key = [1] then .ok [2] else .ok secret
  Ecdh := Unit
  newEcdh := .ok ()
  importPkcs8PrivateKey _ _ := .ok ()
  importSubjectPublicKeyInfo _ _ := .ok ()
  deriveSecret _ _ := .ok [3]
  deriveKey _ _ _ _ := .ok [4]

def token : Bytes :=
  Encoders.base64UrlEncode (objectText header) ++ dot :: (Encoders.base64UrlEncode (objectText claims) ++ [dot])

end Sample

/-- Legacy input under a policy that allows it, and an unsigned token under a policy that allows one. -/
theorem unprotectSecret_release_sample :
    Xor (LegacyRelease (Sample.providers [7]) .ample (ascii "old") PolicyOption.allowLegacy
        ⟨some (ascii "old"), some PayloadFeature.legacy⟩)
      (∃ a b d header claims, TokenRelease (Sample.providers [7]) (ascii "old") PolicyOption.allowLegacy
        a b d header claims) ∧
    Xor (LegacyRelease (Sample.providers [7]) .ample Sample.token PolicyOption.allowUnsigned
        ⟨some [7], some PayloadFeature.encrypted⟩)
      (∃ a b d header claims, TokenRelease (Sample.providers [7]) Sample.token PolicyOption.allowUnsigned
        a b d header claims) := by
  have hold : (unprotectSecret (Sample.providers [7]) .ample (ascii "old") PolicyOption.allowLegacy).exec ⟨none, none⟩ =
      (.ok 3, ⟨some (ascii "old"), some PayloadFeature.legacy⟩) := by decide +kernel
  have htoken : (unprotectSecret (Sample.providers [7]) .ample Sample.token PolicyOption.allowUnsigned).exec
      ⟨none, none⟩ = (.ok 1, ⟨some [7], some PayloadFeature.encrypted⟩) := by decide +kernel
  constructor
  · have h := (unprotectSecret_release (Sample.providers [7]) .ample (ascii "old") PolicyOption.allowLegacy none).1
    rw [hold] at h
    exact h 3 rfl (by decide)
  · have h := (unprotectSecret_release (Sample.providers [7]) .ample Sample.token PolicyOption.allowUnsigned none).1
    rw [htoken] at h
    exact h 1 rfl (by decide)

end CvmAttestation.Secrets
