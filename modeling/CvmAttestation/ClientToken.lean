import CvmAttestation.ClientJson

/-! From the response of the attestation service to the decrypted token. Everything here is read from remote text:
the response is JSON with a token, the token is base64 of JSON, and its members are base64 again. Failures that the
functions look for are returned; what the accessors and decoders raise is not caught on the way. -/

namespace CvmAttestation.Client

open Base

/-! ### The encrypted token -/

inductive BlockCipherMode
  | chainingModeGcm
  | invalid
  deriving DecidableEq, Repr

inductive BlockCipherPadding
  | pkcs7
  | invalid
  deriving DecidableEq, Repr

inductive CipherAlgorithm
  | aes
  | invalid
  deriving DecidableEq, Repr

def toNativeBlockMode (modeStr : Bytes) : Option BlockCipherMode :=
  if modeStr = ascii "ChainingModeGCM" then some .chainingModeGcm else none

def toNativeBlockPadding (paddingStr : Bytes) : Option BlockCipherPadding :=
  if paddingStr = ascii "PKCS7" then some .pkcs7 else none

def toNativeCipher (cipherStr : Bytes) : Option CipherAlgorithm :=
  if cipherStr = ascii "AES" then some .aes else none

structure EncryptionParameters where
  blockMode : BlockCipherMode
  blockPadding : BlockCipherPadding
  cipherAlg : CipherAlgorithm
  keySize : Nat
  iv : Bytes
  authenticationData : Bytes
  deriving DecidableEq, Repr

inductive TpmOutcome
  | key (decryptedKey : Bytes)
  | tss2Exception (rc : Nat) (what : Bytes)
  | stdException (what : Bytes)
  | unknown
  deriving DecidableEq, Repr

/-- The TPM, by the number of requests issued so far, and AES-GCM with the error text of OpenSSL. -/
structure Unsealer where
  decryptWithEphemeralKey : Nat → Bytes → TpmOutcome
  gcmDecrypt : (key iv tag cipherText : Bytes) → Except Bytes Bytes

section

variable (J : Jsoncpp)

def requireString (j : Json) (key err : Bytes) : Fallible Exc Bytes Bytes := do
  let s ← Fallible.call (getString J j key)
  if s = [] then throw err else pure s

def requireInt (j : Json) (key err : Bytes) : Fallible Exc Bytes Int := do
  let n ← Fallible.call (getInt j key)
  if n = 0 then throw err else pure n

def requireNative {α : Type} (toNative : Bytes → Option α) (s err : Bytes) : Fallible Exc Bytes α :=
  match toNative s with
  | some a => pure a
  | none => throw (err ++ s)

def getEncryptedInnerKey (jsonObj : Json) : Fallible Exc Bytes Bytes := do
  let encryptedInnerKeyStr ← requireString J jsonObj (ascii "EncryptedInnerKey")
    (ascii "Failed to get encrypted inner key from response.")
  Fallible.call (base64ToBinary encryptedInnerKeyStr)

def readParameters (jsonObj params : Json) : Fallible Exc Bytes EncryptionParameters := do
  let blockModeStr ← requireString J params (ascii "BlockMode")
    (ascii "Failed to get block mode from encryption parameters")
  let blockMode ← requireNative toNativeBlockMode blockModeStr (ascii "Unsupported block mode:")
  let blockPaddingStr ← requireString J params (ascii "BlockPadding")
    (ascii "Failed to get block padding from encryption parameters")
  let blockPadding ← requireNative toNativeBlockPadding blockPaddingStr (ascii "Unsupported block padding:")
  let cipherStr ← requireString J params (ascii "Cipher")
    (ascii "Failed to get cipher algorithm from encryption parameters")
  let cipherAlg ← requireNative toNativeCipher cipherStr (ascii "Unsupported cipher algorithm:")
  let keyBits ← requireInt params (ascii "KeySizeInBits")
    (ascii "Failed to get key bits from encryption parameters")
  let ivStr ← requireString J params (ascii "Iv") (ascii "Failed to get iv from encryption parameters")
  let authenticationDataStr ← requireString J jsonObj (ascii "AuthenticationData")
    (ascii "Failed to get authentication data response")
  let iv ← Fallible.call (base64ToBinary ivStr)
  let authenticationData ← Fallible.call (base64ToBinary authenticationDataStr)
  return ⟨blockMode, blockPadding, cipherAlg, (keyBits % 2 ^ 64).toNat, iv, authenticationData⟩

def getEncryptionParameters (jsonObj : Json) : Fallible Exc Bytes EncryptionParameters := do
  match ← Fallible.call (get jsonObj (ascii "EncryptionParams") .null) with
  | .null => throw (ascii "Failed to get encryption parameters from response.")
  | params => readParameters J jsonObj params

def getEncryptedJwt (jsonObj : Json) : Fallible Exc Bytes Bytes := do
  let jwtEncryptedStr ← requireString J jsonObj (ascii "Jwt") (ascii "Failed to get jwt from response.")
  Fallible.call (base64ToBinary jwtEncryptedStr)

def decryptInnerKey (U : Unsealer) (now : Nat) (encryptedInnerKey : Bytes) : Fallible Exc Failure Bytes :=
  match U.decryptWithEphemeralKey now encryptedInnerKey with
  | .key decryptedKey => pure decryptedKey
  | .tss2Exception rc what => throw ⟨⟨.jwtDecryptionTpmError, what, rc⟩, nofun⟩
  | .stdException what => throw ⟨.failure .tpmInternalFailure what, nofun⟩
  | .unknown => throw ⟨.failure .tpmInternalFailure (ascii "Error: Unknown internal error"), nofun⟩

def decryptJwt (U : Unsealer) (params : EncryptionParameters) (decryptionKey jwtEncrypted : Bytes) :
    Fallible Exc Bytes Bytes :=
  if params.blockMode ≠ .chainingModeGcm then throw (ascii "Error: Unsupported block mode")
  else if params.blockPadding ≠ .pkcs7 then throw (ascii "Error: Unsupported block padding")
  else if params.cipherAlg ≠ .aes then throw (ascii "Error: Unsupported decryption algorithm")
  else if decryptionKey.length ≠ 16 ∧ decryptionKey.length ≠ 24 ∧ decryptionKey.length ≠ 32 then
    throw (ascii "Openssl Error: Failed to get decryption algorithm")
  else
    match U.gcmDecrypt decryptionKey params.iv params.authenticationData jwtEncrypted with
    | .ok plainText => pure plainText
    | .error errorStr => throw (ascii "Openssl Error:" ++ errorStr)

/-- The failure that `DecryptMaaToken` returns for the error of a callee. -/
def jwtFailure (err : Bytes) : Failure := ⟨.failure .jwtDecryptionFailed err, nofun⟩

/-- `AttestationClientImpl::DecryptMaaToken` from the parsed token on. -/
def decryptReply (U : Unsealer) (now : Nat) (response : Json) : Fallible Exc Failure Bytes := do
  let encryptedInnerKey ← (getEncryptedInnerKey J response).report jwtFailure
  let encryptionParams ← (getEncryptionParameters J response).report jwtFailure
  let decryptedKey ← decryptInnerKey U now encryptedInnerKey
  let jwtEncrypted ← (getEncryptedJwt J response).report jwtFailure
  (decryptJwt U encryptionParams decryptedKey jwtEncrypted).report jwtFailure

def decryptMaaToken (U : Unsealer) (now : Nat) (jwtTokenEncrypted : Bytes) : Fallible Exc Failure Bytes :=
  if jwtTokenEncrypted = [] then throw (jwtFailure (ascii "Invalid JWT"))
  else do
    let decoded ← Fallible.call (base64urlToBinary jwtTokenEncrypted)
    let response ← parse J (cStr decoded) (jwtFailure (ascii "Failed to parse AAS response"))
    decryptReply J U now response

def parseMaaResponse (maaResponse : Bytes) : Fallible Exc Failure Bytes := do
  let response ← parse J (cStr maaResponse)
    ⟨.failure .parsingAttestationResponse (ascii "Failed to parse MAA response Json file"), nofun⟩
  Fallible.call (indexString J response (ascii "token"))

end

/-! ### Which tokens are read without an exception -/

def BinaryField (J : Jsoncpp) (j : Json) (key : Bytes) : Prop :=
  Scalar (field j key) ∧ (text J (field j key) ≠ [] → Decodes (text J (field j key)))

/-- The encryption parameters can be read as far as they are read: each member is looked at only when the ones
before it are known and not empty. -/
def ParametersOk (J : Jsoncpp) (jsonObj params : Json) : Prop :=
  NullOrObject params ∧ Scalar (field params (ascii "BlockMode")) ∧
    (text J (field params (ascii "BlockMode")) = ascii "ChainingModeGCM" →
      Scalar (field params (ascii "BlockPadding")) ∧
        (text J (field params (ascii "BlockPadding")) = ascii "PKCS7" →
          Scalar (field params (ascii "Cipher")) ∧
            (text J (field params (ascii "Cipher")) = ascii "AES" →
              IntLike (field params (ascii "KeySizeInBits")) ∧
                (number (field params (ascii "KeySizeInBits")) ≠ 0 →
                  Scalar (field params (ascii "Iv")) ∧
                    (text J (field params (ascii "Iv")) ≠ [] →
                      Scalar (field jsonObj (ascii "AuthenticationData")) ∧
                        (text J (field jsonObj (ascii "AuthenticationData")) ≠ [] →
                          Decodes (text J (field params (ascii "Iv"))) ∧
                            Decodes (text J (field jsonObj (ascii "AuthenticationData")))))))))

section

variable {J : Jsoncpp} {j : Json}

theorem safe_requireString_iff {key err : Bytes} :
    (requireString J j key err).Safe ↔ NullOrObject j ∧ Scalar (field j key) := by
  rw [requireString, Fallible.safe_bind_iff, Fallible.safe_call_iff]
  simp only [getString_iff]
  constructor
  · rintro ⟨⟨s, hj, hs, -⟩, -⟩
    exact ⟨hj, hs⟩
  · rintro ⟨hj, hs⟩
    refine ⟨⟨_, hj, hs, rfl⟩, fun s _ => ?_⟩
    exact Fallible.safe_ite (Fallible.safe_throw _) (Fallible.safe_pure _)

theorem returns_requireString_iff {key err s : Bytes} :
    (requireString J j key err).Returns s ↔
      NullOrObject j ∧ Scalar (field j key) ∧ s = text J (field j key) ∧ s ≠ [] := by
  rw [requireString, Fallible.returns_bind_iff]
  simp only [Fallible.returns_call_iff, getString_iff]
  constructor
  · rintro ⟨s', ⟨hj, hs, rfl⟩, h⟩
    split at h
    · exact absurd h Fallible.not_returns_throw
    · rename_i hne
      cases Fallible.returns_pure_iff.1 h
      exact ⟨hj, hs, rfl, hne⟩
  · rintro ⟨hj, hs, rfl, hne⟩
    refine ⟨_, ⟨hj, hs, rfl⟩, ?_⟩
    rw [if_neg hne]
    exact Fallible.returns_pure_iff.2 rfl

theorem safe_requireNative {α : Type} (toNative : Bytes → Option α) (s err : Bytes) :
    (requireNative toNative s err).Safe := by
  rw [requireNative]
  split
  · exact Fallible.safe_pure _
  · exact Fallible.safe_throw _

theorem returns_requireNative_iff {α : Type} {toNative : Bytes → Option α} {s err : Bytes} {a : α} :
    (requireNative toNative s err).Returns a ↔ toNative s = some a := by
  rw [requireNative]
  cases toNative s with
  | none => simp [Fallible.not_returns_throw]
  | some b => simp [Fallible.returns_pure_iff]

theorem safe_requireString_bind_iff {α : Type} {key err : Bytes} {f : Bytes → Fallible Exc Bytes α} :
    (requireString J j key err >>= f).Safe ↔
      NullOrObject j ∧ Scalar (field j key) ∧ (text J (field j key) ≠ [] → (f (text J (field j key))).Safe) := by
  rw [Fallible.safe_bind_iff, safe_requireString_iff]
  simp only [returns_requireString_iff]
  constructor
  · rintro ⟨⟨hj, hs⟩, h⟩
    exact ⟨hj, hs, fun hne => h _ ⟨hj, hs, rfl, hne⟩⟩
  · rintro ⟨hj, hs, h⟩
    refine ⟨⟨hj, hs⟩, ?_⟩
    rintro s ⟨-, -, rfl, hne⟩
    exact h hne

theorem safe_requireName_bind_iff {α β : Type} (toNative : Bytes → Option α) {name : Bytes} {a : α}
    (hnative : ∀ s, toNative s = if s = name then some a else none) (hname : name ≠ []) {key err err' : Bytes}
    {f : α → Fallible Exc Bytes β} :
    (requireString J j key err >>= fun s => requireNative toNative s err' >>= f).Safe ↔
      NullOrObject j ∧ Scalar (field j key) ∧ (text J (field j key) = name → (f a).Safe) := by
  have hsafe : ∀ s, (requireNative toNative s err' >>= f).Safe ↔ (s = name → (f a).Safe) := by
    intro s
    rw [Fallible.safe_bind_iff]
    simp only [safe_requireNative, returns_requireNative_iff, hnative, true_and]
    by_cases hs : s = name <;> simp [hs]
  rw [safe_requireString_bind_iff]
  simp only [hsafe]
  constructor
  · rintro ⟨hj, hs, h⟩
    exact ⟨hj, hs, fun heq => h (heq ▸ hname) heq⟩
  · rintro ⟨hj, hs, h⟩
    exact ⟨hj, hs, fun _ => h⟩

theorem safe_decode_iff {s : Bytes} : (Fallible.call (base64ToBinary s) : Fallible Exc Bytes Bytes).Safe ↔ Decodes s := by
  rw [Fallible.safe_call_iff, base64ToBinary_returns_iff]

theorem safe_decode_both_iff {α : Type} {s t : Bytes} {f : Bytes → Bytes → α} :
    ((do
      let a ← Fallible.call (base64ToBinary s)
      let b ← Fallible.call (base64ToBinary t)
      return f a b) : Fallible Exc Bytes α).Safe ↔ Decodes s ∧ Decodes t := by
  rw [Fallible.safe_bind_iff, safe_decode_iff]
  simp only [Fallible.returns_call_iff, Fallible.safe_bind_iff, safe_decode_iff, Fallible.safe_pure, implies_true,
    and_true]
  constructor
  · rintro ⟨hs, ht⟩
    obtain ⟨a, ha⟩ := base64ToBinary_returns_iff.2 hs
    exact ⟨hs, ht a ha⟩
  · rintro ⟨hs, ht⟩
    exact ⟨hs, fun _ _ => ht⟩

theorem safe_requireBinary_iff {key err : Bytes} :
    (requireString J j key err >>= fun s => Fallible.call (base64ToBinary s)).Safe ↔
      NullOrObject j ∧ BinaryField J j key := by
  rw [safe_requireString_bind_iff, BinaryField, safe_decode_iff]

theorem safe_getEncryptedInnerKey_iff :
    (getEncryptedInnerKey J j).Safe ↔ NullOrObject j ∧ BinaryField J j (ascii "EncryptedInnerKey") :=
  safe_requireBinary_iff

theorem safe_getEncryptedJwt_iff : (getEncryptedJwt J j).Safe ↔ NullOrObject j ∧ BinaryField J j (ascii "Jwt") :=
  safe_requireBinary_iff

theorem safe_requireInt_bind_iff {α : Type} {key err : Bytes} {f : Int → Fallible Exc Bytes α} :
    (requireInt j key err >>= f).Safe ↔
      NullOrObject j ∧ IntLike (field j key) ∧ (number (field j key) ≠ 0 → (f (number (field j key))).Safe) := by
  simp only [requireInt, Fallible.safe_bind_iff, Fallible.returns_bind_iff, Fallible.safe_call_iff,
    Fallible.returns_call_iff, getInt_iff]
  constructor
  · rintro ⟨⟨⟨n, hj, hn, -⟩, -⟩, h⟩
    refine ⟨hj, hn, fun hne => h _ ⟨_, ⟨hj, hn, rfl⟩, ?_⟩⟩
    rw [if_neg hne]
    exact Fallible.returns_pure_iff.2 rfl
  · rintro ⟨hj, hn, h⟩
    refine ⟨⟨⟨_, hj, hn, rfl⟩, ?_⟩, ?_⟩
    · exact fun n _ => Fallible.safe_ite (Fallible.safe_throw _) (Fallible.safe_pure _)
    · rintro n ⟨m, ⟨-, -, rfl⟩, hr⟩
      split at hr
      · exact absurd hr Fallible.not_returns_throw
      · rename_i hne
        cases Fallible.returns_pure_iff.1 hr
        exact h hne

theorem safe_readParameters_iff {params : Json} (hj : NullOrObject j) :
    (readParameters J j params).Safe ↔ ParametersOk J j params := by
  rw [readParameters, ParametersOk, safe_requireName_bind_iff toNativeBlockMode (fun _ => rfl) (by decide)]
  refine and_congr_right fun hp => ?_
  rw [safe_requireName_bind_iff toNativeBlockPadding (fun _ => rfl) (by decide),
    safe_requireName_bind_iff toNativeCipher (fun _ => rfl) (by decide), safe_requireInt_bind_iff,
    safe_requireString_bind_iff, safe_requireString_bind_iff, safe_decode_both_iff]
  simp only [hp, hj, true_and]

theorem safe_getEncryptionParameters_iff (hj : NullOrObject j) :
    (getEncryptionParameters J j).Safe ↔
      (field j (ascii "EncryptionParams") ≠ .null → ParametersOk J j (field j (ascii "EncryptionParams"))) := by
  rw [getEncryptionParameters, Fallible.safe_bind_iff, Fallible.safe_call_iff]
  simp only [Fallible.returns_call_iff, get_null_iff, hj, true_and, exists_eq, forall_eq]
  cases h : field j (ascii "EncryptionParams") with
  | null => simp [Fallible.safe_throw]
  | _ => simp [safe_readParameters_iff hj]

theorem safe_decryptInnerKey (U : Unsealer) (now : Nat) (encryptedInnerKey : Bytes) :
    (decryptInnerKey U now encryptedInnerKey).Safe := by
  rw [decryptInnerKey]
  split
  · exact Fallible.safe_pure _
  · exact Fallible.safe_throw _
  · exact Fallible.safe_throw _
  · exact Fallible.safe_throw _

theorem returns_decryptInnerKey_iff {U : Unsealer} {now : Nat} {encryptedInnerKey key : Bytes} :
    (decryptInnerKey U now encryptedInnerKey).Returns key ↔
      U.decryptWithEphemeralKey now encryptedInnerKey = .key key := by
  rw [decryptInnerKey]
  cases U.decryptWithEphemeralKey now encryptedInnerKey with
  | key k => simp [Fallible.returns_pure_iff]
  | _ => simp [Fallible.not_returns_throw]

theorem safe_decryptJwt (U : Unsealer) (params : EncryptionParameters) (key jwtEncrypted : Bytes) :
    (decryptJwt U params key jwtEncrypted).Safe := by
  rw [decryptJwt]
  split_ifs
  · exact Fallible.safe_throw _
  · exact Fallible.safe_throw _
  · exact Fallible.safe_throw _
  · exact Fallible.safe_throw _
  · cases U.gcmDecrypt key params.iv params.authenticationData jwtEncrypted with
    | ok plainText => exact Fallible.safe_pure _
    | error errorStr => exact Fallible.safe_throw _

end

section

variable (J : Jsoncpp) (U : Unsealer) (now : Nat)

/-- The parsed token can be read as far as it is read: the parameters after the inner key, and the JWT after the
parameters, once the TPM has decrypted the inner key. -/
def ReplyOk (j : Json) : Prop :=
  NullOrObject j ∧ BinaryField J j (ascii "EncryptedInnerKey") ∧
    ∀ innerKey, (getEncryptedInnerKey J j).Returns innerKey →
      (field j (ascii "EncryptionParams") ≠ .null → ParametersOk J j (field j (ascii "EncryptionParams"))) ∧
        ∀ params key, (getEncryptionParameters J j).Returns params →
          U.decryptWithEphemeralKey now innerKey = .key key → BinaryField J j (ascii "Jwt")

/-- The encrypted token is empty, or it decodes to a text that parses to such a value or not at all. -/
def TokenOk (jwtTokenEncrypted : Bytes) : Prop :=
  jwtTokenEncrypted = [] ∨
    ∃ decoded, base64urlToBinary jwtTokenEncrypted = .ok decoded ∧ Parses J (cStr decoded) (ReplyOk J U now)

/-- The response of the service parses to an object with such a token or not at all. -/
def ResponseOk (maaResponse : Bytes) : Prop :=
  Parses J (cStr maaResponse) fun j => NullOrObject j ∧ Scalar (field j (ascii "token")) ∧
    TokenOk J U now (text J (field j (ascii "token")))

end

section

variable {J : Jsoncpp} {U : Unsealer} {now : Nat}

theorem safe_decryptReply_iff {j : Json} : (decryptReply J U now j).Safe ↔ ReplyOk J U now j := by
  rw [decryptReply, ReplyOk, Fallible.safe_bind_iff, Fallible.safe_report_iff, safe_getEncryptedInnerKey_iff, and_assoc]
  refine and_congr_right fun hj => and_congr_right fun _ => forall_congr' fun innerKey => ?_
  rw [Fallible.returns_report_iff]
  refine imp_congr_right fun _ => ?_
  rw [Fallible.safe_bind_iff, Fallible.safe_report_iff, safe_getEncryptionParameters_iff hj]
  refine and_congr_right fun _ => forall_congr' fun params => ?_
  simp only [Fallible.returns_report_iff, Fallible.safe_bind_iff, safe_decryptInnerKey, true_and,
    returns_decryptInnerKey_iff, Fallible.safe_report_iff, safe_getEncryptedJwt_iff, hj, safe_decryptJwt,
    implies_true, and_true]
  exact ⟨fun h key hp hk => h hp key hk, fun h hp key hk => h key hp hk⟩

/-- **`DecryptMaaToken` raises nothing** exactly on the tokens that are in order. -/
theorem safe_decryptMaaToken_iff {token : Bytes} : (decryptMaaToken J U now token).Safe ↔ TokenOk J U now token := by
  rw [decryptMaaToken, TokenOk]
  by_cases htoken : token = []
  · simp [htoken, Fallible.safe_throw]
  · rw [if_neg htoken, Fallible.safe_bind_iff, Fallible.safe_call_iff]
    simp only [htoken, false_or, Fallible.returns_call_iff, safe_parse_bind_iff, safe_decryptReply_iff]
    constructor
    · rintro ⟨⟨decoded, hd⟩, h⟩
      exact ⟨decoded, hd, h decoded hd⟩
    · rintro ⟨decoded, hd, h⟩
      refine ⟨⟨decoded, hd⟩, fun decoded' hd' => ?_⟩
      cases hd.symm.trans hd'
      exact h

theorem safe_response_iff {maaResponse : Bytes} :
    (parseMaaResponse J maaResponse >>= decryptMaaToken J U now).Safe ↔ ResponseOk J U now maaResponse := by
  rw [parseMaaResponse, bind_assoc, safe_parse_bind_iff, ResponseOk]
  simp only [Fallible.safe_bind_iff, Fallible.safe_call_iff, Fallible.returns_call_iff, indexString_iff,
    safe_decryptMaaToken_iff]
  unfold Parses
  cases J.parse (cStr maaResponse) with
  | raises => exact Iff.rfl
  | fails => exact Iff.rfl
  | value j =>
      constructor
      · rintro ⟨⟨s, hj, hs, -⟩, h⟩
        exact ⟨hj, hs, h _ ⟨hj, hs, rfl⟩⟩
      · rintro ⟨hj, hs, h⟩
        refine ⟨⟨_, hj, hs, rfl⟩, ?_⟩
        rintro s ⟨-, -, rfl⟩
        exact h

end

end CvmAttestation.Client
