import CvmAttestation.BaseBase64
import CvmAttestation.BaseControl
import CvmAttestation.BaseJson
import Mathlib.Data.List.DropRight
import Mathlib.Tactic

/-! Wrapping and unwrapping of a symmetric key by the key release application. The released RSA key, OAEP
encryption and OAEP decryption are given; everything that happens to the bytes on the way is modelled. The
base64 decoders of this application cut off every zero byte at the end of what they decode, whether it
comes from padding or from the data. -/

namespace CvmAttestation.Release

open Base

def exitUsage : Nat := 1
def exitSkrFail : Nat := 4
def exitCryptoFail : Nat := 5

/-- The exceptions of the application and of the libraries it calls. -/
inductive Exc
  | skrError (exitCode : Nat) (msg : Bytes)
  | runtimeError (msg : Bytes)
  | dataflow
  | json (e : JsonError)
  deriving DecidableEq, Repr

/-! ### Base64 -/

def trimZeros (v : Bytes) : Bytes := v.rdropWhile (· == 0)

def EndsInZero (v : Bytes) : Prop := v.getLast? = some 0

instance (v : Bytes) : Decidable (EndsInZero v) := inferInstanceAs (Decidable (v.getLast? = some 0))

def decodeTrimmed (s : Bytes) : Except Exc Bytes :=
  match Base64.decodeRaw s with
  | none => .error .dataflow
  | some v => .ok (trimZeros v)

def base64ToBinary (base64Data : Bytes) : Except Exc Bytes := decodeTrimmed base64Data

def base64Decode (data : Bytes) : Except Exc Bytes := decodeTrimmed data

def binaryToBase64 (binaryData : Bytes) : Bytes := Base64.encode binaryData

theorem trimZeros_eq_self_iff {v : Bytes} : trimZeros v = v ↔ ¬EndsInZero v := by
  rw [trimZeros, List.rdropWhile_eq_self_iff, EndsInZero]
  constructor
  · intro h hlast
    have hne : v ≠ [] := by
      rintro rfl
      cases hlast
    refine h hne ?_
    rw [(List.getLast_eq_iff_getLast?_eq_some hne).2 hlast]
    rfl
  · intro h hne hlast
    exact h ((List.getLast_eq_iff_getLast?_eq_some hne).1 (by simpa using hlast))

theorem trimZeros_append_zeros (v : Bytes) (n : Nat) : trimZeros (v ++ List.replicate n 0) = trimZeros v := by
  induction n with
  | zero => rw [List.replicate_zero, List.append_nil]
  | succ n ih =>
      rw [List.replicate_succ', ← List.append_assoc, trimZeros, List.rdropWhile_concat_pos _ _ _ (by rfl)]
      exact ih

/-- **Encoding and decoding again** loses the zero bytes at the end, and nothing else. -/
theorem decodeTrimmed_binaryToBase64 (v : Bytes) : decodeTrimmed (binaryToBase64 v) = .ok (trimZeros v) := by
  rw [decodeTrimmed, binaryToBase64, Base64.decodeRaw_encode]
  change Except.ok (trimZeros _) = _
  rw [trimZeros_append_zeros]

/-! ### Cryptography -/

inductive EvpMd
  | sha1
  | sha256
  | sha384
  | sha512
  deriving DecidableEq, Repr

def toLower (c : UInt8) : UInt8 := if 65 ≤ c.toNat ∧ c.toNat ≤ 90 then c + 32 else c

def getEvpMdByName (name : Bytes) : Except Exc EvpMd :=
  let lower := (name.map toLower).filter (· ≠ 45)
  if lower = ascii "sha1" then .ok .sha1
  else if lower = ascii "sha256" then .ok .sha256
  else if lower = ascii "sha384" then .ok .sha384
  else if lower = ascii "sha512" then .ok .sha512
  else .error (.runtimeError (ascii "Unsupported hash algorithm: " ++ name ++
    ascii ". Supported: sha1, sha256, sha384, sha512"))

/-- The digest for MGF1: that of OAEP when no name is given. -/
def getMgf1Md (oaepMd : EvpMd) (mgf1HashAlg : Bytes) : Except Exc EvpMd :=
  if mgf1HashAlg.isEmpty then .ok oaepMd else getEvpMdByName mgf1HashAlg

/-- The calls to OpenSSL of a decryption, in their order. -/
inductive RsaStage
  | newContext
  | decryptInit
  | setPadding
  | setOaepMd
  | setMgf1Md
  | sizeQuery
  | malloc
  | decrypt
  deriving DecidableEq, Repr

/-- OpenSSL: released keys, OAEP encryption with SHA-256 and some randomness, and OAEP decryption with the
digests for OAEP and MGF1. A failure names the call that failed and the text of the error queue. -/
structure Openssl where
  Key : Type
  isRsa : Key → Bool
  Seed : Type
  encrypt : Key → Seed → Bytes → Except Bytes Bytes
  decrypt : Key → EvpMd → EvpMd → Bytes → Except (RsaStage × Bytes) Bytes

section

variable (O : Openssl)

def handleErrors (queue : Bytes) : Exc := .skrError exitCryptoFail (ascii "OpenSSL error: " ++ queue)

def rsaEncrypt (pkey : O.Key) (seed : O.Seed) (msg : Bytes) : Except Exc Bytes :=
  match O.encrypt pkey seed msg with
  | .ok enc => .ok enc
  | .error queue => .error (handleErrors queue)

def rsaDecrypt (pkey : O.Key) (msg : Bytes) (oaepMd mgf1Md : EvpMd) : Except Exc Bytes :=
  match O.decrypt pkey oaepMd mgf1Md msg with
  | .ok dec => .ok dec
  | .error (_, queue) => .error (handleErrors queue)

theorem rsaDecrypt_ok_iff {pkey : O.Key} {msg dec : Bytes} {oaepMd mgf1Md : EvpMd} :
    rsaDecrypt O pkey msg oaepMd mgf1Md = .ok dec ↔ O.decrypt pkey oaepMd mgf1Md msg = .ok dec := by
  rw [rsaDecrypt]
  cases O.decrypt pkey oaepMd mgf1Md msg with
  | ok key => simp
  | error e => simp

/-- What `doSKR` ends with: an exception, no key, or a key, which has to be an RSA key. -/
def releasedRsaKey (released : Except Exc (Option O.Key)) (notReleased notRsa : Bytes) : Except Exc O.Key := do
  match ← released with
  | none => throw (.skrError exitSkrFail notReleased)
  | some pkey => if O.isRsa pkey then return pkey else throw (.skrError exitCryptoFail notRsa)

def wrapKey (released : Except Exc (Option O.Key)) (seed : O.Seed) (symKey : Bytes) : Except Exc Bytes := do
  let pkey ← releasedRsaKey O released (ascii "WrapKey: Failed to release the private key")
    (ascii "The key is not of type RSA. Only RSA keys are supported for wrapKey/unwrapKey")
  let encryptedKey ← rsaEncrypt O pkey seed symKey
  return binaryToBase64 encryptedKey

def unwrapKey (released : Except Exc (Option O.Key)) (wrappedKeyBase64 oaepHashAlg mgf1HashAlg : Bytes) :
    Except Exc Bytes := do
  let pkey ← releasedRsaKey O released (ascii "UnwrapKey: Failed to release the private key")
    (ascii "The key is not of type RSA. Only RSA keys are supported for wrapKey/unwrapKey")
  let wrappedKey ← base64ToBinary wrappedKeyBase64
  let oaepMd ← getEvpMdByName oaepHashAlg
  let mgf1Md ← getMgf1Md oaepMd mgf1HashAlg
  let decryptedKey ← rsaDecrypt O pkey wrappedKey oaepMd mgf1Md
  base64Decode (binaryToBase64 decryptedKey)

end

/-! ### The round trip -/

section

variable {O : Openssl} {pkey : O.Key}

theorem releasedRsaKey_ok (hrsa : O.isRsa pkey = true) (notReleased notRsa : Bytes) :
    releasedRsaKey O (.ok (some pkey)) notReleased notRsa = .ok pkey := by
  change (if O.isRsa pkey then _ else _) = _
  rw [if_pos hrsa]
  rfl

theorem releasedRsaKey_returns {released : Except Exc (Option O.Key)} {notReleased notRsa : Bytes}
    (h : releasedRsaKey O released notReleased notRsa = .ok pkey) :
    released = .ok (some pkey) ∧ O.isRsa pkey = true := by
  rw [releasedRsaKey, bind_returns] at h
  obtain ⟨key?, hreleased, h⟩ := h
  cases key? with
  | none => cases h
  | some key =>
      simp only at h
      split at h
      · rename_i hrsa
        cases h
        exact ⟨hreleased, hrsa⟩
      · cases h

theorem unwrapKey_eq (hrsa : O.isRsa pkey = true) {oaepName mgf1Name : Bytes} {oaepMd mgf1Md : EvpMd}
    (hoaep : getEvpMdByName oaepName = .ok oaepMd) (hmgf1 : getMgf1Md oaepMd mgf1Name = .ok mgf1Md)
    (wrapped : Bytes) :
    unwrapKey O (.ok (some pkey)) wrapped oaepName mgf1Name = (do
      let wrappedKey ← base64ToBinary wrapped
      let decryptedKey ← rsaDecrypt O pkey wrappedKey oaepMd mgf1Md
      return trimZeros decryptedKey) := by
  rw [unwrapKey, releasedRsaKey_ok hrsa]
  simp only [ok_bind, hoaep, hmgf1, base64Decode, decodeTrimmed_binaryToBase64]
  rfl

theorem unwrapKey_ok_iff (hrsa : O.isRsa pkey = true) {oaepName mgf1Name : Bytes} {oaepMd mgf1Md : EvpMd}
    (hoaep : getEvpMdByName oaepName = .ok oaepMd) (hmgf1 : getMgf1Md oaepMd mgf1Name = .ok mgf1Md)
    {wrapped key : Bytes} :
    unwrapKey O (.ok (some pkey)) wrapped oaepName mgf1Name = .ok key ↔
      ∃ wrappedKey dec, base64ToBinary wrapped = .ok wrappedKey ∧
        O.decrypt pkey oaepMd mgf1Md wrappedKey = .ok dec ∧ trimZeros dec = key := by
  rw [unwrapKey_eq hrsa hoaep hmgf1]
  simp only [bind_returns, rsaDecrypt_ok_iff]
  constructor
  · rintro ⟨wrappedKey, hw, dec, hd, h⟩
    cases h
    exact ⟨wrappedKey, dec, hw, hd, rfl⟩
  · rintro ⟨wrappedKey, dec, hw, hd, rfl⟩
    exact ⟨wrappedKey, hw, dec, hd, rfl⟩

/-- What comes back from a wrapped key: the ciphertext without the zero bytes at its end is decrypted, and
the plaintext loses those at its end. -/
theorem wrapKey_unwrapKey (hrsa : O.isRsa pkey = true) {oaepName mgf1Name : Bytes}
    (hoaep : getEvpMdByName oaepName = .ok .sha256) (hmgf1 : getMgf1Md .sha256 mgf1Name = .ok .sha256)
    {seed : O.Seed} {symKey cipherText : Bytes} (henc : O.encrypt pkey seed symKey = .ok cipherText) :
    (wrapKey O (.ok (some pkey)) seed symKey >>= fun wrapped =>
      unwrapKey O (.ok (some pkey)) wrapped oaepName mgf1Name) = (do
        let decryptedKey ← rsaDecrypt O pkey (trimZeros cipherText) .sha256 .sha256
        return trimZeros decryptedKey) := by
  have hwrap : wrapKey O (.ok (some pkey)) seed symKey = .ok (binaryToBase64 cipherText) := by
    rw [wrapKey, releasedRsaKey_ok hrsa]
    simp only [ok_bind, rsaEncrypt, henc]
    rfl
  have hdecode : base64ToBinary (binaryToBase64 cipherText) = .ok (trimZeros cipherText) :=
    decodeTrimmed_binaryToBase64 cipherText
  rw [hwrap, ok_bind, unwrapKey_eq hrsa hoaep hmgf1, hdecode, ok_bind]

end

/-- **Unwrapping a wrapped key** gives the key back exactly when the key does not end in a zero byte and
its ciphertext does not either, unless the shortened ciphertext happens to be one of the same key. -/
theorem unwrapKey_wrapKey_iff (O : Openssl) (pkey : O.Key) (hrsa : O.isRsa pkey = true) (oaepName mgf1Name : Bytes)
    (hoaep : getEvpMdByName oaepName = .ok .sha256) (hmgf1 : getMgf1Md .sha256 mgf1Name = .ok .sha256)
    (seed : O.Seed) (symKey cipherText : Bytes) (henc : O.encrypt pkey seed symKey = .ok cipherText)
    (hdec : O.decrypt pkey .sha256 .sha256 cipherText = .ok symKey) :
    (wrapKey O (.ok (some pkey)) seed symKey >>= fun wrapped =>
      unwrapKey O (.ok (some pkey)) wrapped oaepName mgf1Name) = .ok symKey ↔
      ¬EndsInZero symKey ∧ (¬EndsInZero cipherText ∨
        ∃ key, O.decrypt pkey .sha256 .sha256 (trimZeros cipherText) = .ok key ∧ trimZeros key = symKey) := by
  rw [wrapKey_unwrapKey hrsa hoaep hmgf1 henc]
  constructor
  · intro h
    rw [bind_returns] at h
    obtain ⟨key, hkey, h⟩ := h
    injection h with h
    refine ⟨?_, .inr ⟨key, (rsaDecrypt_ok_iff O).1 hkey, h⟩⟩
    rw [← trimZeros_eq_self_iff, ← h]
    exact List.rdropWhile_idempotent _ _
  · rintro ⟨hkey, hcipher⟩
    have hopenssl : ∃ key, O.decrypt pkey .sha256 .sha256 (trimZeros cipherText) = .ok key ∧ trimZeros key = symKey := by
      rcases hcipher with hcipher | hcipher
      · exact ⟨symKey, by rw [trimZeros_eq_self_iff.2 hcipher, hdec], trimZeros_eq_self_iff.2 hkey⟩
      · exact hcipher
    obtain ⟨key, hd, htrim⟩ := hopenssl
    rw [(rsaDecrypt_ok_iff O).2 hd, ok_bind, htrim]
    rfl

def sampleOpenssl : Openssl where
  Key := Unit
  isRsa _ := true
  Seed := Unit
  encrypt _ _ msg := .ok (msg ++ [1])
  decrypt _ _ _ msg := if msg.getLast? = some 1 then .ok msg.dropLast else .error (.decrypt, [])

/-- The key `61 00`: encryption can be undone, but one byte comes back. -/
theorem unwrapKey_wrapKey_trims :
    sampleOpenssl.encrypt () () [0x61, 0] = .ok [0x61, 0, 1] ∧
      sampleOpenssl.decrypt () .sha256 .sha256 [0x61, 0, 1] = .ok [0x61, 0] ∧
        (wrapKey sampleOpenssl (.ok (some ())) () [0x61, 0] >>= fun wrapped =>
          unwrapKey sampleOpenssl (.ok (some ())) wrapped (ascii "sha256") []) ≠ .ok [0x61, 0] := by
  refine ⟨rfl, rfl, ?_⟩
  have h : (wrapKey sampleOpenssl (.ok (some ())) () [0x61, 0] >>= fun wrapped =>
      unwrapKey sampleOpenssl (.ok (some ())) wrapped (ascii "sha256") []) = .ok [0x61] := by decide +kernel
  rw [h]
  decide

/-- The key `61` comes back. -/
theorem unwrapKey_wrapKey_iff_sample :
    (wrapKey sampleOpenssl (.ok (some ())) () [0x61] >>= fun wrapped =>
      unwrapKey sampleOpenssl (.ok (some ())) wrapped (ascii "SHA-256") []) = .ok [0x61] := by
  refine (unwrapKey_wrapKey_iff sampleOpenssl () rfl (ascii "SHA-256") [] (by rfl) rfl () [0x61] [0x61, 1] rfl
    rfl).2 ⟨?_, .inl ?_⟩
  · decide
  · decide

end CvmAttestation.Release
