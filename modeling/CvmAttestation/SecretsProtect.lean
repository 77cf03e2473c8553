import CvmAttestation.BaseJsonText
import CvmAttestation.SecretsConvert
import CvmAttestation.SecretsCreate
import Mathlib.Data.List.TakeWhile

/-! Protecting a secret. `EncryptWithPadding` is the other end of `unprotect_secret`: it seals a string under a key that
two fresh key pairs agree on, wraps the private one of them under a transport key, and that under the key in the TPM.
What it writes into a token is read back by the library in another order, with other objects and under a policy of the
reader. -/

namespace CvmAttestation.Secrets.SecretsProvisioningSample

open Base Base.Json

/-! ### The sender -/

/-- What the sender calls beside what the library does too. The TPM is the one of another moment, and the first argument
of a function that draws random bytes is what it draws. -/
structure Sender (P : Providers) where
  newTpm : Except Exc P.Tpm
  generateKeyPair : Bytes → P.Ecdh → Except Exc P.Ecdh
  exportSubjectPublicKeyInfo : P.Ecdh → Except Exc Bytes
  exportPkcs8PrivateKey : P.Ecdh → Except Exc Bytes
  aesEncrypt : P.Aes → (nonce data : Bytes) → Except Exc Bytes
  rsaEncrypt : Bytes → P.Tpm → Bytes → RsaPaddingScheme → Except Exc Bytes

/-- What `MakeRandomBytes` and the clock supply in one run, and the randomness of the other calls. -/
structure Drawn where
  salt : Bytes
  dataNonce : Bytes
  wrappingKey : Bytes
  wrappingNonce : Bytes
  ecdhPrivate : Bytes
  ecdhPublic : Bytes
  padding : Bytes
  iat : ℤ
  exp : ℤ
  length_salt : salt.length = 32
  length_dataNonce : dataNonce.length = 12
  length_wrappingKey : wrappingKey.length = 32
  length_wrappingNonce : wrappingNonce.length = 12
  iat_range : -2 ^ 63 ≤ iat ∧ iat < 2 ^ 63
  exp_range : -2 ^ 63 ≤ exp ∧ exp + 1800 < 2 ^ 63

/-- What goes into the payload of the token. -/
structure Sealed where
  salt : Bytes
  dataNonce : Bytes
  keyNonce : Bytes
  wrappedAesTransportKey : Bytes
  encryptedSecret : Bytes
  encryptedGuestEcdhPrivateKey : Bytes
  ephemeralEcdhPublicKey : Bytes

def Sealed.fields (s : Sealed) : List (Bytes × Bytes) :=
  [(ascii "salt", s.salt), (ascii "dataNonce", s.dataNonce), (ascii "keyNonce", s.keyNonce),
    (ascii "wrappedAesTransportKey", s.wrappedAesTransportKey), (ascii "encryptedSecret", s.encryptedSecret),
    (ascii "encryptedGuestEcdhPrivateKey", s.encryptedGuestEcdhPrivateKey),
    (ascii "ephemeralEcdhPublicKey", s.ephemeralEcdhPublicKey)]

def Sealed.members (s : Sealed) : List (Bytes × Json) :=
  s.fields.map fun field => (field.1, .string (Encoders.base64Encode field.2))

def rsaPaddingSchemeToString : RsaPaddingScheme → Bytes
  | .rsaesOaep => ascii "rsaes-oaep"
  | .rsaes => ascii "rsaes"

def headerMembers (paddingScheme : RsaPaddingScheme) : List (Bytes × Json) :=
  [(ascii "alg", .string (ascii "RS256")), (ascii "typ", .string (ascii "JWT")),
    (ascii "x-az-cvm-purpose", .string (ascii "secrets-provisioning")),
    (ascii "x-az-rsa-padding", .string (rsaPaddingSchemeToString paddingScheme))]

section

variable (P : Providers) (S : Sender P) (drawn : Drawn)

/-- The body of the `try` block of `EncryptWithPadding`; `none` where it returns the empty token. -/
def sealData (secretData : Bytes) (paddingScheme : RsaPaddingScheme) : Except Exc (Option Sealed) := do
  let infoString ← P.getSystemUuid
  let ecdhPrivate ← P.newEcdh
  let ecdhPublic ← P.newEcdh
  let ecdhPrivate ← S.generateKeyPair drawn.ecdhPrivate ecdhPrivate
  let ecdhPublic ← S.generateKeyPair drawn.ecdhPublic ecdhPublic
  let exportedPublicKeyData ← S.exportSubjectPublicKeyInfo ecdhPublic
  let exportedPrivateKeyData ← S.exportPkcs8PrivateKey ecdhPrivate
  let shared ← P.deriveSecret ecdhPrivate ecdhPublic
  let aesKey ← P.deriveKey shared drawn.salt infoString 32
  if aesKey.isEmpty then
    return none
  else
    let aesWrapper ← P.createAesWrapper
    let aesWrapper ← P.setKey aesWrapper aesKey
    let encryptedSecret ← S.aesEncrypt aesWrapper drawn.dataNonce secretData
    if encryptedSecret.isEmpty then
      return none
    else
      let aesWrapper ← P.setKey aesWrapper drawn.wrappingKey
      let encryptedEcdhPrivate ← S.aesEncrypt aesWrapper drawn.wrappingNonce exportedPrivateKeyData
      -- the source tests the first ciphertext once more, not the one it has just made
      if encryptedSecret.isEmpty then
        return none
      else
        let tss2Wrapper ← S.newTpm
        let wrappedAesKey ← S.rsaEncrypt drawn.padding tss2Wrapper drawn.wrappingKey paddingScheme
        if wrappedAesKey.isEmpty then
          return none
        else
          return some ⟨drawn.salt, drawn.dataNonce, drawn.wrappingNonce, wrappedAesKey, encryptedSecret,
            encryptedEcdhPrivate, exportedPublicKeyData⟩

/-- `EncryptWithPadding`. Everything derived from `std::exception` ends in the empty token; the token is written
outside of the `try` block. -/
def encryptWithPadding (data : Bytes) (paddingScheme : RsaPaddingScheme) : Except Exc Bytes := do
  let sealed? ← guarded (sealData P S drawn (cStr data ++ [0]) paddingScheme) fun
    | .foreign => .error .foreign
    | _ => .ok none
  match sealed? with
  | none => return []
  | some s =>
    let (token, _) ← createToken P.dump drawn.iat drawn.exp
      ⟨assignAll (headerMembers paddingScheme), assignAll s.members, []⟩
    return token

/-- `EncryptWideWithPadding`; `none` where the string has no UTF-8 form and a null pointer is passed on. -/
def encryptWideWithPadding (data : List WChar) (paddingScheme : RsaPaddingScheme) : Option (Except Exc Bytes) :=
  match wideToUtf8 .ample (data.takeWhile (· ≠ 0) ++ [0]) with
  | [] => none
  | utf8Vec => some (encryptWithPadding P S drawn utf8Vec paddingScheme)

/-- `Decrypt` of the sample; the length of the token goes through an `int` and an `unsigned int`. -/
def decrypt (jwt : Bytes) : Bytes :=
  let token := cStr jwt
  match (unprotectSecret P .ample (token.take (token.length % 2 ^ 32)) PolicyOption.allowUnsigned).exec ⟨none, none⟩ with
  | (.ok result, outputs) => if result ≤ 0 then [] else (outputs.outputSecret.getD []).take result.toNat
  | (.error _, _) => []

end

/-! ### What the two sides rely on -/

section

variable (P : Providers) (S : Sender P)

/-- Two key pairs of the sender: what the private one and the public one are exported as, and what they agree on. -/
inductive Exchanged (exportedPrivate exportedPublic shared : Bytes) : Prop
  | intro {seed seed' : Bytes} {ecdh ecdh' ecdhPrivate ecdhPublic : P.Ecdh}
    (generatedPrivate : S.generateKeyPair seed ecdh = .ok ecdhPrivate)
    (generatedPublic : S.generateKeyPair seed' ecdh' = .ok ecdhPublic)
    (exportPrivate : S.exportPkcs8PrivateKey ecdhPrivate = .ok exportedPrivate)
    (exportPublic : S.exportSubjectPublicKeyInfo ecdhPublic = .ok exportedPublic)
    (derived : P.deriveSecret ecdhPrivate ecdhPublic = .ok shared)

inductive Encrypted (key nonce data ciphertext : Bytes) : Prop
  | intro {aes keyed : P.Aes} (keyed_eq : P.setKey aes key = .ok keyed)
    (encrypted : S.aesEncrypt keyed nonce data = .ok ciphertext)

inductive Wrapped (key wrapped : Bytes) (scheme : RsaPaddingScheme) : Prop
  | intro {padding : Bytes} {tpm : P.Tpm} (opened : S.newTpm = .ok tpm)
    (encrypted : S.rsaEncrypt padding tpm key scheme = .ok wrapped)

/-- What the calls of the receiver return on what the sender has made, where they return. -/
structure Matched : Prop where
  base64Url : P.base64UrlDecode = Encoders.base64UrlDecode
  base64 : P.base64Decode = Encoders.base64Decode
  parse_nil : ∀ j, P.parse [] ≠ .ok j
  undone : ∀ j, portable 1 j = true → Undone P j
  length_key : ∀ {shared salt info key}, P.deriveKey shared salt info 32 = .ok key → key.length = 32
  length_exported : ∀ {ecdh exported}, S.exportPkcs8PrivateKey ecdh = .ok exported →
    0 < exported.length ∧ exported.length < 2 ^ 31
  agrees : ∀ {exportedPrivate exportedPublic shared shared' : Bytes} {ecdh ecdh' ecdhPrivate ecdhPublic : P.Ecdh},
    Exchanged P S exportedPrivate exportedPublic shared →
    P.importPkcs8PrivateKey ecdh exportedPrivate = .ok ecdhPrivate →
    P.importSubjectPublicKeyInfo ecdh' exportedPublic = .ok ecdhPublic →
    P.deriveSecret ecdhPrivate ecdhPublic = .ok shared' → shared' = shared
  opens : ∀ {key nonce data ciphertext plaintext : Bytes} {aes keyed : P.Aes},
    Encrypted P S key nonce data ciphertext → key.length = 32 → nonce.length = 12 → data.length < 2 ^ 31 →
    P.setKey aes key = .ok keyed → P.aesDecrypt keyed nonce ciphertext = .ok plaintext → plaintext = data
  unwraps : ∀ {key wrapped unwrapped : Bytes} {scheme : RsaPaddingScheme} {tpm : P.Tpm}, key.length = 32 →
    Wrapped P S key wrapped scheme → P.newTpm = .ok tpm → P.rsaDecrypt tpm wrapped scheme = .ok unwrapped →
    unwrapped = key

/-- The calls of the receiver return on what the sender has made. -/
structure Serves : Prop where
  unwrap : ∀ {key wrapped : Bytes} {scheme : RsaPaddingScheme}, key.length = 32 → Wrapped P S key wrapped scheme →
    ∃ tpm unwrapped, P.newTpm = .ok tpm ∧ P.rsaDecrypt tpm wrapped scheme = .ok unwrapped
  setKey : ∀ (aes : P.Aes) {key : Bytes}, key.length = 32 → ∃ keyed, P.setKey aes key = .ok keyed
  decrypt : ∀ {key nonce data ciphertext : Bytes} {aes keyed : P.Aes}, Encrypted P S key nonce data ciphertext →
    key.length = 32 → nonce.length = 12 → data.length < 2 ^ 31 → P.setKey aes key = .ok keyed →
    ∃ plaintext, P.aesDecrypt keyed nonce ciphertext = .ok plaintext
  agreement : ∀ {exportedPrivate exportedPublic shared : Bytes} (ecdh ecdh' : P.Ecdh),
    Exchanged P S exportedPrivate exportedPublic shared → ∃ ecdhPrivate ecdhPublic shared',
      P.importPkcs8PrivateKey ecdh exportedPrivate = .ok ecdhPrivate ∧
        P.importSubjectPublicKeyInfo ecdh' exportedPublic = .ok ecdhPublic ∧
          P.deriveSecret ecdhPrivate ecdhPublic = .ok shared'

/-- How the parts of a token hang together. -/
structure Sealing (drawn : Drawn) (secretData : Bytes) (scheme : RsaPaddingScheme) (s : Sealed)
    (infoString shared exportedPrivate aesKey : Bytes) : Prop where
  uuid : P.getSystemUuid = .ok infoString
  objects : (∃ ecdh, P.newEcdh = .ok ecdh) ∧ ∃ aes, P.createAesWrapper = .ok aes
  exchanged : Exchanged P S exportedPrivate s.ephemeralEcdhPublicKey shared
  derived : P.deriveKey shared s.salt infoString 32 = .ok aesKey
  secret : Encrypted P S aesKey s.dataNonce secretData s.encryptedSecret
  privateKey : Encrypted P S drawn.wrappingKey s.keyNonce exportedPrivate s.encryptedGuestEcdhPrivateKey
  exported : ∃ ecdh, S.exportPkcs8PrivateKey ecdh = .ok exportedPrivate
  wrapped : Wrapped P S drawn.wrappingKey s.wrappedAesTransportKey scheme
  nonces : s.dataNonce = drawn.dataNonce ∧ s.keyNonce = drawn.wrappingNonce

end

section

variable {P : Providers} {S : Sender P} {drawn : Drawn} {secretData : Bytes} {scheme : RsaPaddingScheme} {s : Sealed}

theorem sealData_returns (h : sealData P S drawn secretData scheme = .ok (some s)) :
    ∃ infoString shared exportedPrivate aesKey,
      Sealing P S drawn secretData scheme s infoString shared exportedPrivate aesKey := by
  simp only [sealData, bind_returns] at h
  obtain ⟨infoString, huuid, ecdh, hecdh, ecdh', -, ecdhPrivate, hprivate, ecdhPublic, hpublic, exportedPublic,
    hexportPublic, exportedPrivate, hexportPrivate, shared, hshared, aesKey, hkey, h⟩ := h
  split_ifs at h
  · cases h
  simp only [bind_returns] at h
  obtain ⟨aes, haes, keyed, hkeyed, encryptedSecret, hsecret, h⟩ := h
  split_ifs at h
  · cases h
  simp only [bind_returns] at h
  obtain ⟨keyed', hkeyed', encryptedPrivate, hencrypted, tpm, htpm, wrappedAesKey, hwrapped, h⟩ := h
  split_ifs at h
  · cases h
  cases h
  exact ⟨infoString, shared, exportedPrivate, aesKey, {
    uuid := huuid
    objects := ⟨⟨ecdh, hecdh⟩, aes, haes⟩
    exchanged := .intro hprivate hpublic hexportPrivate hexportPublic hshared
    derived := hkey
    secret := .intro hkeyed hsecret
    privateKey := .intro hkeyed' hencrypted
    exported := ⟨ecdhPrivate, hexportPrivate⟩
    wrapped := .intro htpm hwrapped
    nonces := ⟨rfl, rfl⟩ }⟩

/-! ### The receiver -/

/-- The fields of a token are found in its claims. -/
def Claimed (P : Providers) (claims : Json) (s : Sealed) : Prop :=
  ∀ field ∈ s.fields, claimBytes P claims field.1 = .ok field.2

variable {claims : Json} {infoString shared exportedPrivate aesKey plaintext : Bytes}

theorem Claimed.all (h : Claimed P claims s) :
    claimBytes P claims (ascii "salt") = .ok s.salt ∧ claimBytes P claims (ascii "dataNonce") = .ok s.dataNonce ∧
      claimBytes P claims (ascii "keyNonce") = .ok s.keyNonce ∧
      claimBytes P claims (ascii "wrappedAesTransportKey") = .ok s.wrappedAesTransportKey ∧
      claimBytes P claims (ascii "encryptedSecret") = .ok s.encryptedSecret ∧
      claimBytes P claims (ascii "encryptedGuestEcdhPrivateKey") = .ok s.encryptedGuestEcdhPrivateKey ∧
      claimBytes P claims (ascii "ephemeralEcdhPublicKey") = .ok s.ephemeralEcdhPublicKey := by
  simpa [Claimed, Sealed.fields] using h

/-- A receiver that gets to the end has the data of the sender. -/
theorem decryptClaims_sound (hm : Matched P S)
    (hs : Sealing P S drawn secretData scheme s infoString shared exportedPrivate aesKey) (hc : Claimed P claims s)
    (hlen : secretData.length < 2 ^ 31) (h : decryptClaims P claims infoString scheme = .ok (0, plaintext)) :
    plaintext = secretData := by
  obtain ⟨hsalt, hdata, hkeyNonce, hwrapped, hsecret, hprivate, hpublic⟩ := hc.all
  have hunknown : ErrorCode.unknownError.toInt ≠ 0 := by decide
  obtain ⟨ecdh, hexported⟩ := hs.exported
  simp only [decryptClaims, hsalt, hdata, hkeyNonce, hwrapped, hsecret, hprivate, hpublic, bind_returns, Except.ok.injEq,
    exists_eq_left'] at h
  obtain ⟨-, -, tpm, htpm, key, hkey, h⟩ := h
  obtain rfl := hm.unwraps drawn.length_wrappingKey hs.wrapped htpm hkey
  split_ifs at h
  · cases h
  simp only [bind_returns] at h
  obtain ⟨aes, -, keyed, hkeyed, encoded, hencoded, h⟩ := h
  have hnonce : s.keyNonce.length = 12 := by rw [hs.nonces.2, drawn.length_wrappingNonce]
  obtain rfl := hm.opens hs.privateKey drawn.length_wrappingKey hnonce (hm.length_exported hexported).2 hkeyed hencoded
  split_ifs at h
  · cases h
  simp only [bind_returns] at h
  obtain ⟨ecdh, -, ecdh', -, ecdhPrivate, himport, ecdhPublic, himport', shared', hshared, key, hkey', keyed', hkeyed',
    plain, hplain, h⟩ := h
  obtain rfl := hm.agrees hs.exchanged himport himport' hshared
  obtain rfl : aesKey = key := Except.ok.inj (hs.derived.symm.trans hkey')
  have hnonce' : s.dataNonce.length = 12 := by rw [hs.nonces.1, drawn.length_dataNonce]
  obtain rfl := hm.opens hs.secret (hm.length_key hs.derived) hnonce' hlen hkeyed' hplain
  split_ifs at h
  · cases h
  · cases h
    rfl

/-- A receiver whose calls return gets to the end. -/
theorem decryptClaims_complete (hm : Matched P S) (hv : Serves P S)
    (hs : Sealing P S drawn secretData scheme s infoString shared exportedPrivate aesKey) (hc : Claimed P claims s)
    (hlen : secretData.length < 2 ^ 31) (hne : secretData ≠ []) (hdump : ∃ text, P.dump claims = .ok text) :
    decryptClaims P claims infoString scheme = .ok (0, secretData) := by
  obtain ⟨hsalt, hdata, hkeyNonce, hwrapped, hsecret, hprivate, hpublic⟩ := hc.all
  obtain ⟨text, hdump⟩ := hdump
  obtain ⟨⟨ecdh, hecdh⟩, aes, haes⟩ := hs.objects
  obtain ⟨tpm, key, htpm, hkey⟩ := hv.unwrap drawn.length_wrappingKey hs.wrapped
  obtain rfl := hm.unwraps drawn.length_wrappingKey hs.wrapped htpm hkey
  have hnonce : s.keyNonce.length = 12 := by rw [hs.nonces.2, drawn.length_wrappingNonce]
  have hnonce' : s.dataNonce.length = 12 := by rw [hs.nonces.1, drawn.length_dataNonce]
  obtain ⟨ecdh', hexported⟩ := hs.exported
  obtain ⟨hpos, hexported⟩ := hm.length_exported hexported
  obtain ⟨keyed, hkeyed⟩ := hv.setKey aes drawn.length_wrappingKey
  obtain ⟨encoded, hencoded⟩ := hv.decrypt hs.privateKey drawn.length_wrappingKey hnonce hexported hkeyed
  obtain rfl := hm.opens hs.privateKey drawn.length_wrappingKey hnonce hexported hkeyed hencoded
  obtain ⟨ecdhPrivate, ecdhPublic, shared', himport, himport', hshared⟩ := hv.agreement ecdh ecdh hs.exchanged
  obtain rfl := hm.agrees hs.exchanged himport himport' hshared
  have hderived := hs.derived
  obtain ⟨keyed', hkeyed'⟩ := hv.setKey keyed (hm.length_key hderived)
  obtain ⟨plain, hplain⟩ := hv.decrypt hs.secret (hm.length_key hderived) hnonce' hlen hkeyed'
  obtain rfl := hm.opens hs.secret (hm.length_key hderived) hnonce' hlen hkeyed' hplain
  have hunwrapped : ¬drawn.wrappingKey.isEmpty = true := by
    rw [List.isEmpty_iff, ← List.length_eq_zero_iff, drawn.length_wrappingKey]
    decide
  have hprivateKey : ¬encoded.isEmpty = true := by
    rw [List.isEmpty_iff, ← List.length_eq_zero_iff]
    omega
  have hplaintext : ¬plain.isEmpty = true := by rwa [List.isEmpty_iff]
  simp only [decryptClaims, hdump, hsalt, hdata, hkeyNonce, hwrapped, hsecret, hprivate, hpublic, htpm, hkey, haes, hkeyed,
    hencoded, hecdh, himport, himport', hshared, hderived, hkeyed', hplain, ok_bind, if_neg hunwrapped,
    if_neg hprivateKey, if_neg hplaintext]
  rfl

/-- `decrypt_secret` on the claims of a token: the data of the sender, or a code. -/
theorem decryptSecret_sealed (hm : Matched P S)
    (hs : Sealing P S drawn secretData scheme s infoString shared exportedPrivate aesKey) (hc : Claimed P claims s)
    (hlen : secretData.length < 2 ^ 31) :
    decryptSecret P claims scheme = .ok (0, secretData) ∨
      ∃ c : FailureCode, decryptSecret P claims scheme = .ok (c.val.toInt, []) := by
  have hbody : decryptSecret P claims scheme = guarded (decryptClaims P claims infoString scheme)
      fun e => .ok ((decryptError e).val.toInt, []) := by
    rw [decryptSecret, hs.uuid, ok_bind]
  cases hd : decryptClaims P claims infoString scheme with
  | error e => exact .inr ⟨decryptError e, by rw [hbody, hd, guarded]⟩
  | ok out =>
      obtain ⟨r, plaintext⟩ := out
      rw [hbody, hd, guarded]
      have hcases := decryptClaims_returns hd
      cases hcases with
      | failed c => exact .inr ⟨c, rfl⟩
      | plaintext hne henc => exact .inl (by rw [decryptClaims_sound hm hs hc hlen hd])

end

/-! ### The token -/

theorem at?_of_member {j v : Json} {k : Bytes} (h : j.member? k = some v) : j.at? k = .ok v := by
  cases j with
  | object ms =>
      rw [Json.member?] at h
      rw [Json.at?, h]
  | _ => cases h

theorem set_assignAll (ms : List (Bytes × Json)) (k : Bytes) (v : Json) :
    (assignAll ms).set k v = .ok (assignAll (ms ++ [(k, v)])) := by
  cases ms with
  | nil => rfl
  | cons m ms =>
      have happend : assignAll (m :: ms ++ [(k, v)]) = assign (assignAll (m :: ms)) k v := List.foldl_append ..
      rw [happend, assignAll_cons]
      rfl

/-- The times of a token, as `CreateToken` adds them. -/
def times (drawn : Drawn) : List (Bytes × Json) :=
  [(ascii "iat", .int drawn.iat), (ascii "exp", .int (drawn.exp + 1800))]

theorem stamp_assignAll (drawn : Drawn) (ms : List (Bytes × Json)) :
    stamp drawn.iat drawn.exp (assignAll ms) = .ok (assignAll (ms ++ times drawn)) := by
  have happend : ms ++ times drawn =
      ms ++ [(ascii "iat", .int drawn.iat)] ++ [(ascii "exp", .int (drawn.exp + 1800))] := by
    rw [List.append_assoc]
    rfl
  rw [stamp, set_assignAll, ok_bind, set_assignAll, happend]

theorem portable_header (scheme : RsaPaddingScheme) : portable 1 (assignAll (headerMembers scheme)) = true := by
  cases scheme <;> decide +kernel

/-- The keys of the claims in the order in which they are assigned. -/
def claimKeys : List Bytes :=
  [ascii "salt", ascii "dataNonce", ascii "keyNonce", ascii "wrappedAesTransportKey", ascii "encryptedSecret",
    ascii "encryptedGuestEcdhPrivateKey", ascii "ephemeralEcdhPublicKey", ascii "iat", ascii "exp"]

theorem claimKeys_plain : claimKeys.Nodup ∧ ∀ key ∈ claimKeys, Utf8.valid key = true := by decide +kernel

theorem keys_claims (drawn : Drawn) (s : Sealed) : (s.members ++ times drawn).map Prod.fst = claimKeys := rfl

theorem portable_claims (drawn : Drawn) (s : Sealed) : portable 1 (assignAll (s.members ++ times drawn)) = true := by
  have htime : ∀ n : ℤ, -2 ^ 63 ≤ n ∧ n < 2 ^ 63 → portable 0 (.int n) = true := by
    intro n hn
    rw [portable, Bool.and_eq_true, decide_eq_true_eq, decide_eq_true_eq]
    omega
  apply portable_assignAll
  intro m hm
  refine ⟨claimKeys_plain.2 _ (keys_claims drawn s ▸ List.mem_map_of_mem hm), ?_⟩
  rcases List.mem_append.1 hm with hm | hm
  · obtain ⟨field, -, rfl⟩ := List.mem_map.1 hm
    exact Utf8.valid_of_ascii fun _ hc => Base64.toNat_lt_of_mem_encode hc
  · simp only [times, List.mem_cons, List.not_mem_nil, or_false] at hm
    rcases hm with rfl | rfl
    · exact htime _ drawn.iat_range
    · exact htime _ ⟨by linarith [drawn.exp_range.1], drawn.exp_range.2⟩

section

variable {P : Providers} {S : Sender P} {drawn : Drawn} {scheme : RsaPaddingScheme} {s : Sealed}

theorem claimed_assignAll (hm : Matched P S) : Claimed P (assignAll (s.members ++ times drawn)) s := by
  intro field hfield
  have hmem : (field.1, Json.string (Encoders.base64Encode field.2)) ∈ s.members ++ times drawn :=
    List.mem_append_left _ (List.mem_map_of_mem hfield)
  have hnodup : ((s.members ++ times drawn).map Prod.fst).Nodup := claimKeys_plain.1
  have hmember := lookup_assignAll hnodup field.1
  rw [lookup_of_mem hnodup hmem] at hmember
  rw [claimBytes, at?_of_member hmember, hm.base64]
  exact Encoders.base64Decode_encode field.2

theorem contains_encryptedSecret (drawn : Drawn) (s : Sealed) :
    (assignAll (s.members ++ times drawn)).contains (ascii "encryptedSecret") = true := by
  have hnodup : ((s.members ++ times drawn).map Prod.fst).Nodup := claimKeys_plain.1
  have hmem : (ascii "encryptedSecret", Json.string (Encoders.base64Encode s.encryptedSecret)) ∈
      s.members ++ times drawn := List.mem_append_left _ (by simp [Sealed.members, Sealed.fields])
  rw [contains, lookup_assignAll hnodup, lookup_of_mem hnodup hmem, Option.isSome_some]

theorem member_header (scheme : RsaPaddingScheme) {key value : Bytes}
    (h : (key, Json.string value) ∈ headerMembers scheme) :
    (assignAll (headerMembers scheme)).member? key = some (.string value) := by
  have hnodup : ((headerMembers scheme).map Prod.fst).Nodup := by
    change [ascii "alg", ascii "typ", ascii "x-az-cvm-purpose", ascii "x-az-rsa-padding"].Nodup
    decide +kernel
  rw [lookup_assignAll hnodup, lookup_of_mem hnodup h]

theorem headerMatches_header (scheme : RsaPaddingScheme) :
    headerMatches (assignAll (headerMembers scheme)) requiredFields = true := by
  rw [headerMatches_iff]
  refine ⟨⟨ascii "RS256", member_header scheme (by simp [headerMembers])⟩, ?_⟩
  simp only [requiredFields, List.mem_singleton, forall_eq]
  exact member_header scheme (by simp [headerMembers])

theorem parse_toString (scheme : RsaPaddingScheme) :
    parseRsaPaddingScheme (rsaPaddingSchemeToString scheme) = .ok scheme := by
  cases scheme <;> decide +kernel

theorem getPaddingScheme_header {policy : Word} {t : JsonWebToken} (h : t.header = assignAll (headerMembers scheme)) :
    getPaddingScheme (.ofToken policy t) = .ok scheme := by
  have hmember := @member_header scheme (ascii "x-az-rsa-padding") (rsaPaddingSchemeToString scheme)
    (by simp [headerMembers])
  have hheader : (PolicyEvaluator.ofToken policy t).getHeader = assignAll (headerMembers scheme) := h
  have hcontains : (assignAll (headerMembers scheme)).contains (ascii "x-az-rsa-padding") = true := by
    rw [contains, hmember, Option.isSome_some]
  rw [getPaddingScheme, hheader, if_pos hcontains, at?_of_member hmember]
  exact parse_toString scheme

/-- Without a signature there is nothing to verify. -/
theorem parseToken_unsigned {token a b suffix : Bytes} (hs : Segments dot token a b []) (self : JsonWebToken) :
    parseToken P .ample self token true suffix = parseToken P .ample self token false suffix := by
  have hne : ¬a.length = a.length + 1 + b.length := by omega
  simp only [parseToken, hs.find, hs.rfind, if_neg hne, hs.drop_last, List.isEmpty_nil, Bool.true_or, if_true]

/-- The token object that a reader builds from a token of the sender. -/
def created (drawn : Drawn) (scheme : RsaPaddingScheme) (s : Sealed) : JsonWebToken :=
  ⟨assignAll (headerMembers scheme), assignAll (s.members ++ times drawn), []⟩

theorem plain_encode {v : Bytes} {c : UInt8} (h : c ∈ Encoders.base64UrlEncode v) : c ≠ 0 ∧ c.toNat < 0x80 := by
  have hchar : ∀ n < 64, Encoders.toUrl (Base64.char n) ≠ 0 ∧ (Encoders.toUrl (Base64.char n)).toNat < 0x80 := by decide
  obtain ⟨b, hb, rfl⟩ := List.mem_map.1 h
  rw [Encoders.base64Encode, Base64.encode, List.mem_append] at hb
  rcases hb with hb | hb
  · obtain ⟨n, hn, rfl⟩ := Base64.mem_encodeRaw hb
    exact hchar n hn
  · rw [List.eq_of_mem_replicate hb]
    decide

theorem createToken_evaluates (hm : Matched P S) {token : Bytes} {t : JsonWebToken}
    (h : createToken P.dump drawn.iat drawn.exp
      ⟨assignAll (headerMembers scheme), assignAll s.members, []⟩ = .ok (token, t)) (policy : Word) :
    (∀ c ∈ token, c ≠ 0 ∧ c.toNat < 0x80) ∧
      PolicyEvaluator.ofNarrow P .ample policy token = .ok (.ofToken policy (created drawn scheme s)) := by
  obtain ⟨htext, hdump, hparse⟩ := hm.undone _ (portable_header scheme)
  obtain ⟨ptext, hdump', hparse'⟩ := hm.undone _ (portable_claims drawn s)
  have hencoders : P.withEncoders = P := by
    rw [Providers.withEncoders, ← hm.base64Url]
  have hdecode : ∀ {text : Bytes} {j : Json}, P.parse text = .ok j →
      decodeJson P (Encoders.base64UrlEncode text) = .ok j ∧ Encoders.base64UrlEncode text ≠ [] := by
    intro text j hj
    refine ⟨?_, Encoders.base64UrlEncode_ne_nil ?_⟩
    · have hdecoded := decodeJson_encode hj
      rwa [hencoders] at hdecoded
    · rintro rfl
      exact hm.parse_nil j hj
  have hdot : ascii "." = [dot] := by decide
  have hnil : Encoders.base64UrlEncode [] = [] := by decide
  simp only [createToken, hdump, stamp_assignAll, ofJson, hdump', ok_bind] at h
  cases h
  generalize htoken : Encoders.base64UrlEncode htext ++ ascii "." ++ Encoders.base64UrlEncode ptext ++ ascii "." ++
    Encoders.base64UrlEncode [] = token
  have hs : Segments dot token (Encoders.base64UrlEncode htext) (Encoders.base64UrlEncode ptext) [] :=
    ⟨by simp [← htoken, hdot, hnil],
      Encoders.dot_not_mem_encode htext, Encoders.dot_not_mem_encode ptext, List.not_mem_nil⟩
  constructor
  · intro c hc
    simp only [← htoken, hnil, hdot, List.append_nil, List.mem_append, List.mem_singleton] at hc
    rcases hc with ((hc | rfl) | hc) | rfl
    · exact plain_encode hc
    · decide
    · exact plain_encode hc
    · decide
  · rw [PolicyEvaluator.ofNarrow, isRealJwt_of_header hs (hdecode hparse).1, headerMatches_header, parseInput,
      parseToken_unsigned hs, parseToken_of_segments hs (hdecode hparse).2 (hdecode hparse').2 (hdecode hparse).1
        (hdecode hparse').1]
    rfl

/-! ### Round trips -/

/-- The token carries sealed data of `secretData`, and a reader builds the evaluator of it. -/
structure Carries (P : Providers) (S : Sender P) (drawn : Drawn) (secretData : Bytes) (scheme : RsaPaddingScheme)
    (token : Bytes) (s : Sealed) : Prop where
  nonempty : token ≠ []
  plain : ∀ c ∈ token, c ≠ 0 ∧ c.toNat < 0x80
  sealing : ∃ infoString shared exportedPrivate aesKey,
    Sealing P S drawn secretData scheme s infoString shared exportedPrivate aesKey
  evaluates : ∀ policy, PolicyEvaluator.ofNarrow P .ample policy token = .ok (.ofToken policy (created drawn scheme s))

variable {data token : Bytes} {policy : Word}

theorem encryptWithPadding_carries (hm : Matched P S) (h : encryptWithPadding P S drawn data scheme = .ok token)
    (hne : token ≠ []) : ∃ s, Carries P S drawn (cStr data ++ [0]) scheme token s := by
  rw [encryptWithPadding, bind_returns] at h
  obtain ⟨sealed?, hseal, h⟩ := h
  cases sealed? with
  | none =>
      cases h
      exact absurd rfl hne
  | some s =>
      obtain ⟨⟨token', t⟩, hcreate, h⟩ := bind_returns.1 h
      cases h
      have hreturns : sealData P S drawn (cStr data ++ [0]) scheme = .ok (some s) := by
        cases hd : sealData P S drawn (cStr data ++ [0]) scheme with
        | ok out =>
            rw [hd] at hseal
            exact hseal
        | error e =>
            rw [hd] at hseal
            cases e <;> cases hseal
      exact ⟨s, hne, (createToken_evaluates hm hcreate 0).1, sealData_returns hreturns,
        fun policy => (createToken_evaluates hm hcreate policy).2⟩

/-- What the evaluator of a token says, and what it decrypts to. -/
theorem evaluated_created (policy : Word) (call : Fin 2) :
    (PolicyEvaluator.ofToken policy (created drawn scheme s)).getEvaluatedPolicy .ample call =
      .ok PayloadFeature.encrypted := by
  have hfeatures : PolicyEvaluator.features true false false = PayloadFeature.encrypted := by decide
  have hencrypted : (PolicyEvaluator.ofToken policy (created drawn scheme s)).isEncrypted .ample call.castSucc =
      .ok true := by
    rw [← contains_encryptedSecret drawn s]
    rfl
  rw [PolicyEvaluator.getEvaluatedPolicy, hencrypted, ok_bind, ← hfeatures]
  rfl

theorem compliant_created (policy : Word) :
    (PolicyEvaluator.ofToken policy (created drawn scheme s)).isCompliant .ample =
      .ok (isPolicySet policy PolicyOption.allowUnsigned) := by
  have hlegacy : isPolicySet PayloadFeature.encrypted PayloadFeature.legacy = false := by decide
  have hencrypted : isPolicySet PayloadFeature.encrypted PayloadFeature.encrypted = true := by decide
  have hsigned : isPolicySet PayloadFeature.encrypted PayloadFeature.signed = false := by decide
  rw [PolicyEvaluator.isCompliant, evaluated_created, ok_bind, PolicyEvaluator.compliant, hlegacy, hencrypted, hsigned]
  cases h : isPolicySet policy PolicyOption.allowUnsigned <;> simp [PolicyEvaluator.ofToken, h, pure, Except.pure]

theorem decryptToken_created (policy : Word) :
    decryptToken P .ample (PolicyEvaluator.ofToken policy (created drawn scheme s)) =
      decryptSecret P (assignAll (s.members ++ times drawn)) scheme := by
  rw [decryptToken, getPaddingScheme_header rfl]
  rfl

theorem Carries.decrypts (hm : Matched P S) (h : Carries P S drawn data scheme token s) (hlen : data.length < 2 ^ 31) :
    decryptSecret P (assignAll (s.members ++ times drawn)) scheme = .ok (0, data) ∨
      ∃ c : FailureCode, decryptSecret P (assignAll (s.members ++ times drawn)) scheme = .ok (c.val.toInt, []) := by
  obtain ⟨infoString, shared, exportedPrivate, aesKey, hs⟩ := h.sealing
  exact decryptSecret_sealed hm hs (claimed_assignAll hm) hlen

theorem Carries.served (hm : Matched P S) (hv : Serves P S) (h : Carries P S drawn data scheme token s)
    (hlen : data.length < 2 ^ 31) (hne : data ≠ []) :
    decryptSecret P (assignAll (s.members ++ times drawn)) scheme = .ok (0, data) := by
  obtain ⟨infoString, shared, exportedPrivate, aesKey, hs⟩ := h.sealing
  obtain ⟨text, hdump, -⟩ := hm.undone _ (portable_claims drawn s)
  rw [decryptSecret, hs.uuid, ok_bind,
    decryptClaims_complete hm hv hs (claimed_assignAll hm) hlen hne ⟨text, hdump⟩]
  rfl

section

variable {τ : Type} {input secret : List τ} {convert : Bytes → Except Exc (Except FailureCode (List τ))}
  {evaluator : Except Exc PolicyEvaluator}

/-- A run that hands out the secret of an encrypted, unsigned token. -/
def released (secret : List τ) : Except Exc Int × Outputs τ :=
  (.ok (secret.length : Int), ⟨some secret, some PayloadFeature.encrypted⟩)

/-- A run that evaluates such a token and hands out nothing. -/
def withheld (c : FailureCode) : Except Exc Int × Outputs τ :=
  (.ok c.val.toInt, ⟨none, some PayloadFeature.encrypted⟩)

/-- What a reader with some policy makes of a token that carries `secret`. -/
structure Returned (P : Providers) (S : Sender P) (policy : Word) (secret : List τ)
    (run : Except Exc Int × Outputs τ) : Prop where
  refused : isPolicySet policy PolicyOption.allowUnsigned = false → run = withheld ⟨.policyMismatchError, by decide⟩
  allowed : isPolicySet policy PolicyOption.allowUnsigned = true → run = released secret ∨ ∃ c, run = withheld c
  served : isPolicySet policy PolicyOption.allowUnsigned = true → Serves P S → run = released secret

theorem Carries.returned (hm : Matched P S) (h : Carries P S drawn data scheme token s) (hlen : data.length < 2 ^ 31)
    (hdata : data ≠ []) (hconvert : convert data = .ok (.ok secret)) (hsecret : secret ≠ [])
    (hevaluator : evaluator = .ok (.ofToken policy (created drawn scheme s))) (before : Outputs τ) :
    Returned P S policy secret ((unprotectWith P .ample evaluator input convert).exec before) := by
  have hl : (PolicyEvaluator.ofToken policy (created drawn scheme s)).isLegacy = false := rfl
  have hreleased : isPolicySet policy PolicyOption.allowUnsigned = true →
      decryptSecret P (assignAll (s.members ++ times drawn)) scheme = .ok (0, data) →
      (unprotectWith P .ample evaluator input convert).exec before = released secret := by
    intro hpolicy hd
    rw [exec_unprotectWith, hevaluator]
    simp only [evaluated_created, finish, compliant_created, hpolicy, gatherData_token hl, decryptToken_created, hd, ne_eq,
      not_true_eq_false, if_false, hconvert, if_neg (not_ample_outputBuffer _), handedOut_of_ne_nil hsecret]
    rfl
  refine ⟨fun hpolicy => ?_, fun hpolicy => ?_, fun hpolicy hv => hreleased hpolicy (h.served hm hv hlen hdata)⟩
  · rw [exec_unprotectWith, hevaluator]
    simp only [evaluated_created, finish, compliant_created, hpolicy]
    rfl
  · rcases h.decrypts hm hlen with hd | ⟨c, hd⟩
    · exact .inl (hreleased hpolicy hd)
    · refine .inr ⟨c, ?_⟩
      rw [exec_unprotectWith, hevaluator]
      simp only [evaluated_created, finish, compliant_created, hpolicy, gatherData_token hl, decryptToken_created, hd,
        if_pos (ErrorCode.toInt_neg c.property).ne]
      rfl

end

end

/-! ### C strings and wide strings -/

/-- Up to the first zero, there is none. -/
theorem decide_ne_zero {α : Type} [DecidableEq α] [Zero α] {s : List α} (h : 0 ∉ s) : ∀ b ∈ s, decide (b ≠ 0) = true := by
  intro b hb
  rw [decide_eq_true_eq]
  rintro rfl
  exact h hb

theorem cStr_terminated {s : Bytes} (h : 0 ∉ s) (rest : Bytes) : cStr (s ++ 0 :: rest) = s := by
  rw [cStr, List.takeWhile_append_of_pos (decide_ne_zero h), List.takeWhile_cons_of_neg (by simp), List.append_nil]

theorem cStr_plain {s : Bytes} (h : 0 ∉ s) : cStr s = s := by
  rw [cStr, List.takeWhile_eq_self_iff.2 (decide_ne_zero h)]

theorem zero_not_mem_encodeScalar {c : UInt32} {p : Bytes} (h : Utf8.encodeScalar c = some p) (hc : c ≠ 0) : 0 ∉ p := by
  have hpos : 0 < c.toNat := by
    rw [Nat.pos_iff_ne_zero]
    exact fun h0 => hc (UInt32.toNat.inj h0)
  have hbyte : ∀ n : ℕ, 0 < n → n < 256 → (0 : UInt8) ≠ UInt8.ofNat n := by
    intro n hn hlt heq
    have h0 := congrArg UInt8.toNat heq
    rw [UInt8.toNat_ofNat_of_lt' hlt] at h0
    exact hn.ne h0
  simp only [Utf8.encodeScalar] at h
  split_ifs at h <;> cases h
  all_goals
    simp only [List.mem_cons, List.not_mem_nil, or_false, not_or]
    repeat' apply And.intro
  all_goals exact hbyte _ (by omega) (by omega)

theorem zero_not_mem_encode {w : List WChar} {p : Bytes} (h : Utf8.encode w = some p) (hw : 0 ∉ w) : 0 ∉ p := by
  induction w generalizing p with
  | nil =>
      cases h
      exact List.not_mem_nil
  | cons c w ih =>
      obtain ⟨q, r, hq, hr, rfl⟩ := Utf8.encode_cons_iff.1 h
      rw [List.mem_cons, not_or] at hw
      rw [List.mem_append, not_or]
      exact ⟨zero_not_mem_encodeScalar hq (Ne.symm hw.1), ih hr hw.2⟩

theorem encode_terminated (w : List WChar) : Utf8.encode (w ++ [0]) = (Utf8.encode w).map (· ++ [0]) := by
  induction w with
  | nil => decide
  | cons c w ih =>
      rw [List.cons_append, Utf8.encode, ih, Utf8.encode]
      cases Utf8.encodeScalar c <;> cases Utf8.encode w <;> simp

theorem encode_widen_plain {s : Bytes} (h : ∀ b ∈ s, b.toNat < 0x80) : Utf8.encode (widen s) = some s := by
  induction s with
  | nil => rfl
  | cons b s ih =>
      rw [List.forall_mem_cons] at h
      have hb := Utf8.encodeScalar_one h.1
      have hwiden : UInt32.ofNat b.toNat = b.toUInt32 := by
        apply UInt32.toNat.inj
        rw [UInt8.toNat_toUInt32, Utf8.toNat_code (by omega)]
      rw [hwiden] at hb
      exact Utf8.encode_cons hb (ih h.2)

/-- A token is read alike by the two entry points. -/
theorem ofWide_widen {P : Providers} {token : Bytes} (h : ∀ b ∈ token, b.toNat < 0x80) (hne : token ≠ [])
    (hlen : token.length < 2 ^ 32) (policy : Word) :
    PolicyEvaluator.ofWide P .ample policy (widen token) = PolicyEvaluator.ofNarrow P .ample policy token := by
  have hutf8 : wideToUtf8 .ample (widen token) = token := wideToUtf8_encode (encode_widen_plain h)
  have hshort : ¬(token.isEmpty && !(widen token).isEmpty) = true := by simp [hne]
  have htake : token.take (token.length % 2 ^ 32) = token := by
    rw [Nat.mod_eq_of_lt hlen, List.take_length]
  simp only [PolicyEvaluator.ofWide, PolicyEvaluator.ofNarrow, hutf8, if_neg hshort, htake]
  rfl

/-! ### Protecting and unprotecting -/

section

variable {P : Providers} {S : Sender P} {drawn : Drawn} {data token : Bytes} {scheme : RsaPaddingScheme} {s : Sealed}
  {policy : Word}

theorem Carries.unprotects (hm : Matched P S) (h : Carries P S drawn data scheme token s) (hlen : data.length < 2 ^ 31)
    (hne : data ≠ []) (before : Outputs UInt8) :
    Returned P S policy data ((unprotectSecret P .ample token policy).exec before) :=
  h.returned hm hlen hne rfl hne (h.evaluates policy) before

theorem Carries.unprotects_wide (hm : Matched P S) (h : Carries P S drawn data scheme token s)
    (hlen : data.length < 2 ^ 31) (htoken : token.length < 2 ^ 32) {wide : List WChar}
    (hwide : Utf8.encode wide = some data) (hne : wide ≠ []) (before : Outputs WChar) :
    Returned P S policy wide ((unprotectSecretWide P .ample (widen token) policy).exec before) := by
  have hdata : data ≠ [] := by
    rintro rfl
    have hle := Utf8.length_le_encode hwide
    exact hne (List.eq_nil_of_length_eq_zero (Nat.le_zero.1 hle))
  have hconvert : convertWide .ample data = .ok (.ok wide) := by
    rw [convertWide_ample hdata (utf8ToWide_encode hwide), if_neg hne]
  have hevaluator : PolicyEvaluator.ofWide P .ample policy (widen token) =
      .ok (.ofToken policy (created drawn scheme s)) := by
    rw [ofWide_widen (fun b hb => (h.plain b hb).2) h.nonempty htoken, h.evaluates]
  exact h.returned hm hlen hdata hconvert hne hevaluator before

theorem Carries.decrypted (hm : Matched P S) (h : Carries P S drawn data scheme token s) (hlen : data.length < 2 ^ 31)
    (hne : data ≠ []) (htoken : token.length < 2 ^ 32) :
    (decrypt P token = data ∨ decrypt P token = []) ∧ (Serves P S → decrypt P token = data) := by
  have hplain : cStr token = token := cStr_plain fun hmem => (h.plain 0 hmem).1 rfl
  have hpolicy : isPolicySet PolicyOption.allowUnsigned PolicyOption.allowUnsigned = true := by decide
  have hrun := @Carries.unprotects _ _ _ _ _ _ _ PolicyOption.allowUnsigned hm h hlen hne ⟨none, none⟩
  have hreleased : (unprotectSecret P .ample token PolicyOption.allowUnsigned).exec ⟨none, none⟩ = released data →
      decrypt P token = data := by
    intro hr
    have hpos : ¬(data.length : ℤ) ≤ 0 := by
      have := List.length_pos_of_ne_nil hne
      omega
    simp only [decrypt, hplain, Nat.mod_eq_of_lt htoken, List.take_length, hr, released, if_neg hpos, Int.toNat_natCast,
      Option.getD_some]
  refine ⟨?_, fun hv => hreleased (hrun.served hpolicy hv)⟩
  rcases hrun.allowed hpolicy with hr | ⟨c, hr⟩
  · exact .inl (hreleased hr)
  · right
    simp only [decrypt, hplain, Nat.mod_eq_of_lt htoken, List.take_length, hr, withheld,
      if_pos (ErrorCode.toInt_neg c.property).le]

end

/-- **What was protected is unprotected.** The sender writes a string with its terminating zero; whatever the
randomness and the padding scheme, a reader whose policy allows an unsigned token is handed exactly that, or a code and
nothing else, and one whose policy does not gets the code of a mismatch. -/
theorem unprotectSecret_encryptWithPadding (P : Providers) (S : Sender P) (hm : Matched P S) (drawn : Drawn)
    (data token : Bytes) (scheme : RsaPaddingScheme) (hlen : (cStr data).length + 1 < 2 ^ 31)
    (h : encryptWithPadding P S drawn data scheme = .ok token) (hne : token ≠ []) :
    (∀ policy before, Returned P S policy (cStr data ++ [0]) ((unprotectSecret P .ample token policy).exec before)) ∧
      (token.length < 2 ^ 32 → (decrypt P token = cStr data ++ [0] ∨ decrypt P token = []) ∧
        (Serves P S → decrypt P token = cStr data ++ [0])) := by
  obtain ⟨s, hs⟩ := encryptWithPadding_carries hm h hne
  have hlength : (cStr data ++ [0]).length < 2 ^ 31 := by
    rw [List.length_append]
    exact hlen
  have hnil : cStr data ++ [0] ≠ [] := by simp
  exact ⟨fun policy before => hs.unprotects hm hlength hnil before, hs.decrypted hm hlength hnil⟩

section

variable {P : Providers} {S : Sender P} {drawn : Drawn} {data : List WChar} {token : Bytes} {scheme : RsaPaddingScheme}

theorem encryptWideWithPadding_of_encode {utf8 : Bytes} (h : Utf8.encode (data.takeWhile (· ≠ 0)) = some utf8) :
    encryptWideWithPadding P S drawn data scheme = some (encryptWithPadding P S drawn (utf8 ++ [0]) scheme) := by
  have hutf8 : wideToUtf8 .ample (data.takeWhile (· ≠ 0) ++ [0]) = utf8 ++ [0] :=
    wideToUtf8_encode (by rw [encode_terminated, h, Option.map_some])
  rw [encryptWideWithPadding, hutf8]
  cases hcons : utf8 ++ [0] with
  | nil => simp at hcons
  | cons b rest => rfl

/-- A null pointer is passed on for what is no Unicode. -/
theorem encryptWideWithPadding_eq_none_iff :
    encryptWideWithPadding P S drawn data scheme = none ↔ Utf8.encode (data.takeWhile (· ≠ 0)) = none := by
  cases h : Utf8.encode (data.takeWhile (· ≠ 0)) with
  | none =>
      have hutf8 : wideToUtf8 .ample (data.takeWhile (· ≠ 0) ++ [0]) = [] := by
        rw [wideToUtf8, encode_terminated, h]
        split_ifs <;> rfl
      rw [encryptWideWithPadding, hutf8]
      exact iff_of_true rfl rfl
  | some utf8 =>
      rw [encryptWideWithPadding_of_encode h]
      constructor
      · intro hnone
        cases hnone
      · intro hnone
        cases hnone

theorem encryptWideWithPadding_carries (hm : Matched P S)
    (h : encryptWideWithPadding P S drawn data scheme = some (.ok token)) (hne : token ≠ []) :
    ∃ utf8 s, Utf8.encode (data.takeWhile (· ≠ 0) ++ [0]) = some utf8 ∧ Carries P S drawn utf8 scheme token s := by
  cases hencode : Utf8.encode (data.takeWhile (· ≠ 0)) with
  | none =>
      rw [encryptWideWithPadding_eq_none_iff.2 hencode] at h
      cases h
  | some utf8 =>
      have hzero : 0 ∉ data.takeWhile (· ≠ 0) := fun hmem => by simpa using List.mem_takeWhile_imp hmem
      rw [encryptWideWithPadding_of_encode hencode] at h
      obtain ⟨s, hs⟩ := encryptWithPadding_carries hm (Option.some.inj h) hne
      rw [cStr_terminated (zero_not_mem_encode hencode hzero)] at hs
      exact ⟨utf8 ++ [0], s, by rw [encode_terminated, hencode, Option.map_some], hs⟩

end

/-- **What was protected from a wide string is unprotected as one**, code unit by code unit; and a wide string is
protected unless it is no Unicode, when a null pointer is passed on. -/
theorem unprotectSecretWide_encryptWideWithPadding (P : Providers) (S : Sender P) (hm : Matched P S) (drawn : Drawn)
    (data : List WChar) (scheme : RsaPaddingScheme) :
    (encryptWideWithPadding P S drawn data scheme = none ↔ Utf8.encode (data.takeWhile (· ≠ 0)) = none) ∧
      ∀ token, encryptWideWithPadding P S drawn data scheme = some (.ok token) → token ≠ [] →
        (wideToUtf8 .ample (data.takeWhile (· ≠ 0) ++ [0])).length < 2 ^ 31 → token.length < 2 ^ 32 →
          ∀ policy before, Returned P S policy (data.takeWhile (· ≠ 0) ++ [0])
            ((unprotectSecretWide P .ample (widen token) policy).exec before) := by
  refine ⟨encryptWideWithPadding_eq_none_iff, fun token h hne hlen htoken policy before => ?_⟩
  obtain ⟨utf8, s, hencode, hs⟩ := encryptWideWithPadding_carries hm h hne
  rw [wideToUtf8_encode hencode] at hlen
  exact hs.unprotects_wide hm hlen htoken hencode (by simp) before

end CvmAttestation.Secrets.SecretsProvisioningSample
