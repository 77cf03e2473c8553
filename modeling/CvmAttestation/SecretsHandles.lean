import CvmAttestation.BaseLedger
import CvmAttestation.SecretsUnprotect
import CvmAttestation.SecretsRelease

/-! The BCrypt handles behind a decryption on Windows. `GcmWrapper`, `BcryptECDiffieHellman` and `BcryptHKDF` keep the
handles they create as members, and their destructors destroy what the members name when `decrypt_secret` is left. A
constructor that throws leaves no object behind, so nothing destroys what it had created. To destroy a handle that is
alive does not fail, but for the hash, whose failure the code looks at. -/

namespace CvmAttestation.Secrets.Handles

open Base

inductive HandleKind
  | provider
  | key
  | secret
  | hash
  deriving DecidableEq, Repr

/-- What the AES object is used for: the private key of the guest, then the secret. -/
inductive AesUse
  | wrapping
  | data
  deriving DecidableEq, Repr

inductive EcdhObject
  | ecdhPrivate
  | ecdhPublic
  deriving DecidableEq, Repr

/-- The calls that may fail, by the place they are made from. One `decrypt` stands for the calls of one `Decrypt`, and
`publicKeyForm` is the test of the first byte of a decoded key. -/
inductive WindowsCall
  | openAes
  | setChainingMode
  | getTagLength
  | getBlockLength
  | getObjectLength
  | generateSymmetricKey (use : AesUse)
  | chainingTagLength (use : AesUse)
  | chainingBlockLength (use : AesUse)
  | decrypt (use : AesUse)
  | openEcdh (object : EcdhObject)
  | decodePrivateKeyInfo
  | decodeEccPrivateKey
  | publicKeyForm
  | decodePublicKeyInfo
  | importKeyPair (object : EcdhObject)
  | secretAgreement
  | openHmac
  | deriveKeyLength
  | deriveKey
  | extractHash
  | createHash (round : ℕ)
  | hashPrevious (round : ℕ)
  | hashInfo (round : ℕ)
  | hashCounter (round : ℕ)
  | finishHash (round : ℕ)
  | destroyHash (round : ℕ)
  deriving DecidableEq, Repr

/-- The code of the `BcryptError` or `WinCryptError` that is thrown. -/
def WindowsCall.libRC : WindowsCall → FailureCode
  | openAes => ⟨.libraryErrorBcryptProviderError, by decide⟩
  | setChainingMode => ⟨.libraryErrorBcryptPropertyError, by decide⟩
  | getTagLength => ⟨.libraryErrorBcryptPropertyError, by decide⟩
  | getBlockLength => ⟨.libraryErrorBcryptPropertyError, by decide⟩
  | getObjectLength => ⟨.libraryErrorBcryptPropertyError, by decide⟩
  | generateSymmetricKey _ => ⟨.libraryErrorBcryptKeyError, by decide⟩
  | chainingTagLength _ => ⟨.libraryErrorBcryptPropertyError, by decide⟩
  | chainingBlockLength _ => ⟨.libraryErrorBcryptPropertyError, by decide⟩
  | decrypt _ => ⟨.cryptographyErrorAesDecryptError, by decide⟩
  | openEcdh _ => ⟨.libraryErrorBcryptProviderError, by decide⟩
  | decodePrivateKeyInfo => ⟨.parsingErrorAsn1X509PrivKeyError, by decide⟩
  | decodeEccPrivateKey => ⟨.parsingErrorAsn1X509PrivKeyError, by decide⟩
  | publicKeyForm => ⟨.parsingErrorAsn1X509PrivKeyError, by decide⟩
  | decodePublicKeyInfo => ⟨.parsingErrorAsn1X509PubKeyError, by decide⟩
  | importKeyPair _ => ⟨.libraryErrorBcryptKeyError, by decide⟩
  | secretAgreement => ⟨.cryptographyErrorEccKeyGenError, by decide⟩
  | openHmac => ⟨.libraryErrorBcryptProviderError, by decide⟩
  | deriveKeyLength => ⟨.cryptographyErrorHkdfExtractError, by decide⟩
  | deriveKey => ⟨.cryptographyErrorHkdfExtractError, by decide⟩
  | extractHash => ⟨.cryptographyErrorHkdfExtractError, by decide⟩
  | createHash _ => ⟨.cryptographyErrorHkdfExpandError, by decide⟩
  | hashPrevious _ => ⟨.cryptographyErrorHkdfExpandError, by decide⟩
  | hashInfo _ => ⟨.cryptographyErrorHkdfExpandError, by decide⟩
  | hashCounter _ => ⟨.cryptographyErrorHkdfExpandError, by decide⟩
  | finishHash _ => ⟨.cryptographyErrorHkdfExpandError, by decide⟩
  | destroyHash _ => ⟨.libraryErrorBcryptHandleError, by decide⟩

inductive WindowsExc
  | failed (call : WindowsCall)
  | other (e : Exc)
  deriving DecidableEq, Repr

/-- The Windows build: the data that its objects compute, as of `Providers`, and the calls that fail. An exception of
a provider is one that none of these calls causes, such as an allocation. -/
structure Windows where
  providers : Providers
  fails : WindowsCall → Bool

/-! ### The objects and their handles -/

structure GcmWrapper where
  hAesHandle : ℕ
  hAesKey : Option ℕ
  deriving DecidableEq, Repr

structure BcryptECDiffieHellman where
  hEcHandle : ℕ
  hEccKeyHandle : Option ℕ
  hSharedSecret : Option ℕ
  deriving DecidableEq, Repr

structure BcryptHKDF where
  secret : ℕ
  hAlg : ℕ
  deriving DecidableEq, Repr

/-- The handles that each destructor destroys, in its order. -/
def GcmWrapper.destroyed (w : GcmWrapper) : List ℕ := w.hAesHandle :: w.hAesKey.toList

def BcryptECDiffieHellman.destroyed (e : BcryptECDiffieHellman) : List ℕ :=
  e.hSharedSecret.toList ++ (e.hEccKeyHandle.toList ++ [e.hEcHandle])

def BcryptHKDF.destroyed (k : BcryptHKDF) : List ℕ := [k.secret, k.hAlg]

/-- The objects of `decrypt_secret` that have been constructed, and the handles that are alive. -/
structure Objects where
  handles : Ledger HandleKind
  aesWrapper : Option GcmWrapper
  ecdhPrivate : Option BcryptECDiffieHellman
  ecdhPublic : Option BcryptECDiffieHellman
  hkdf : Option BcryptHKDF

namespace Objects

def start : Objects := ⟨.empty, none, none, none, none⟩

/-- What the destructors destroy: the objects of the `try` block in reverse order, then the AES object, which is
declared before the block. -/
def destroyed (s : Objects) : List ℕ :=
  s.hkdf.toList.flatMap BcryptHKDF.destroyed ++ (s.ecdhPublic.toList.flatMap BcryptECDiffieHellman.destroyed ++
    (s.ecdhPrivate.toList.flatMap BcryptECDiffieHellman.destroyed ++ s.aesWrapper.toList.flatMap GcmWrapper.destroyed))

/-- The handles once every object is gone. -/
def leave (s : Objects) : Ledger HandleKind := s.handles.releaseAll s.destroyed

def ecdh (s : Objects) : EcdhObject → Option BcryptECDiffieHellman
  | .ecdhPrivate => s.ecdhPrivate
  | .ecdhPublic => s.ecdhPublic

def setEcdh (object : EcdhObject) (f : Option BcryptECDiffieHellman → Option BcryptECDiffieHellman) (s : Objects) :
    Objects :=
  match object with
  | .ecdhPrivate => { s with ecdhPrivate := f s.ecdhPrivate }
  | .ecdhPublic => { s with ecdhPublic := f s.ecdhPublic }

end Objects

abbrev WindowsProc (α : Type) := Proc WindowsExc Objects α

section

variable (W : Windows)

def attempt (c : WindowsCall) : Except WindowsExc Unit := if W.fails c then .error (.failed c) else .ok ()

def check (c : WindowsCall) : WindowsProc Unit := Proc.call (attempt W c)

/-- Calls one after the other, up to the first that fails. -/
def checkAll : List WindowsCall → WindowsProc Unit
  | [] => return ()
  | c :: cs => do
    check W c
    checkAll cs

def call {α : Type} (x : Except Exc α) : WindowsProc α := Proc.call (x.mapError .other)

/-- A call that creates a handle and writes it where `store` says. -/
def create (c : WindowsCall) (kind : HandleKind) (store : ℕ → Objects → Objects) : WindowsProc ℕ := do
  check W c
  Proc.attempt fun s => .ok (s.handles.next, store s.handles.next { s with handles := s.handles.acquire kind })

/-! ### `GcmWrapper` -/

/-- The properties of the provider that the constructor sets or reads. -/
def aesProperties : List WindowsCall := [.setChainingMode, .getTagLength, .getBlockLength, .getObjectLength]

/-- `GcmCreator::CreateAesWrapper`. The object is there only when its constructor has got to its end. -/
def createAesWrapper : WindowsProc W.providers.Aes := do
  let aes ← call W.providers.createAesWrapper
  let hAesHandle ← create W .openAes .provider fun _ s => s
  checkAll W aesProperties
  modify fun s => { s with aesWrapper := some ⟨hAesHandle, none⟩ }
  return aes

def setKey (use : AesUse) (aes : W.providers.Aes) (key : Bytes) : WindowsProc W.providers.Aes := do
  let aes ← call (W.providers.setKey aes key)
  let _ ← create W (.generateSymmetricKey use) .key fun hAesKey s =>
    { s with aesWrapper := s.aesWrapper.map fun w => { w with hAesKey := some hAesKey } }
  return aes

/-- `SetChainingInfo`, then `Decrypt`. -/
def decrypt (use : AesUse) (aes : W.providers.Aes) (nonce ciphertext : Bytes) : WindowsProc Bytes := do
  checkAll W [.chainingTagLength use, .chainingBlockLength use, .decrypt use]
  call (W.providers.aesDecrypt aes nonce ciphertext)

/-! ### `BcryptECDiffieHellman` -/

def newEcdh (object : EcdhObject) : WindowsProc W.providers.Ecdh := do
  let ecdh ← call W.providers.newEcdh
  let _ ← create W (.openEcdh object) .provider fun hEcHandle =>
    Objects.setEcdh object fun _ => some ⟨hEcHandle, none, none⟩
  return ecdh

def importKeyPair (object : EcdhObject) : WindowsProc ℕ :=
  create W (.importKeyPair object) .key fun hEccKeyHandle =>
    Objects.setEcdh object (Option.map fun e => { e with hEccKeyHandle := some hEccKeyHandle })

def importPkcs8PrivateKey (ecdh : W.providers.Ecdh) (derPrivateKey : Bytes) : WindowsProc W.providers.Ecdh := do
  checkAll W [.decodePrivateKeyInfo, .decodeEccPrivateKey, .publicKeyForm]
  let ecdh ← call (W.providers.importPkcs8PrivateKey ecdh derPrivateKey)
  let _ ← importKeyPair W .ecdhPrivate
  return ecdh

def importSubjectPublicKeyInfo (ecdh : W.providers.Ecdh) (derPublicKey : Bytes) : WindowsProc W.providers.Ecdh := do
  check W .decodePublicKeyInfo
  let ecdh ← call (W.providers.importSubjectPublicKeyInfo ecdh derPublicKey)
  let _ ← importKeyPair W .ecdhPublic
  return ecdh

/-- `DeriveSecret`: the secret, and its handle, which stays in the object. -/
def deriveSecret (ecdh otherParty : W.providers.Ecdh) : WindowsProc (Bytes × ℕ) := do
  let secret ← call (W.providers.deriveSecret ecdh otherParty)
  let hSharedSecret ← create W .secretAgreement .secret fun hSharedSecret =>
    Objects.setEcdh .ecdhPrivate (Option.map fun e => { e with hSharedSecret := some hSharedSecret })
  return (secret, hSharedSecret)

/-! ### `BcryptHKDF` -/

def newHkdf (secret : ℕ) : WindowsProc ℕ :=
  create W .openHmac .provider fun hAlg s => { s with hkdf := some ⟨secret, hAlg⟩ }

/-- One round of `Expand`. The hash is a local variable and no destructor destroys it. -/
def expandRound (i : ℕ) : WindowsProc Unit := do
  let hHash ← create W (.createHash i) .hash fun _ s => s
  checkAll W ((if 0 < i then [.hashPrevious i] else []) ++
    [.hashInfo i, .hashCounter i, .finishHash i, .destroyHash i])
  modify fun s => { s with handles := s.handles.release hHash }

def expandLoop : ℕ → ℕ → WindowsProc Unit
  | 0, _ => return ()
  | rounds + 1, i => do
    expandRound W i
    expandLoop rounds (i + 1)

def deriveKey (secret salt info : Bytes) (keySize : ℕ) : WindowsProc Bytes := do
  checkAll W [.deriveKeyLength, .deriveKey, .extractHash]
  expandLoop W ((keySize + 31) / 32) 0
  call (W.providers.deriveKey secret salt info keySize)

/-! ### `decrypt_secret` -/

/-- What is known before the first object is created. -/
structure Transport where
  salt : Bytes
  dataNonce : Bytes
  wrappingNonce : Bytes
  encryptedSecret : Bytes
  encryptedEcdhPrivate : Bytes
  exportedPublicKeyData : Bytes
  aesKey : Bytes

/-- The claims are decoded and the transport key is decrypted by the TPM. -/
def openTransport (P : Providers) (claims : Json) (paddingScheme : RsaPaddingScheme) : Except Exc Transport := do
  let _ ← P.dump claims
  let salt ← claimBytes P claims (ascii "salt")
  let dataNonce ← claimBytes P claims (ascii "dataNonce")
  let wrappingNonce ← claimBytes P claims (ascii "keyNonce")
  let wrappedAesKey ← claimBytes P claims (ascii "wrappedAesTransportKey")
  let encryptedSecret ← claimBytes P claims (ascii "encryptedSecret")
  let encryptedEcdhPrivate ← claimBytes P claims (ascii "encryptedGuestEcdhPrivateKey")
  let exportedPublicKeyData ← claimBytes P claims (ascii "ephemeralEcdhPublicKey")
  let tpm ← P.newTpm
  let aesKey ← P.rsaDecrypt tpm wrappedAesKey paddingScheme
  return ⟨salt, dataNonce, wrappingNonce, encryptedSecret, encryptedEcdhPrivate, exportedPublicKeyData, aesKey⟩

/-- What follows the construction of the `BcryptHKDF`. -/
def recoverSecret (t : Transport) (infoData : Bytes) (aes : W.providers.Aes) (secret : Bytes) :
    WindowsProc (Int × Bytes) := do
  let aesKey ← deriveKey W secret t.salt infoData 32
  let aes ← setKey W .data aes aesKey
  let plaintextData ← decrypt W .data aes t.dataNonce t.encryptedSecret
  if plaintextData.isEmpty then
    return (ErrorCode.unknownError.toInt, [])
  else
    return (0, plaintextData)

/-- What follows the decryption of the private key. -/
def agreeOnSecret (t : Transport) (infoData : Bytes) (aes : W.providers.Aes) (encodedEcdhPrivate : Bytes) :
    WindowsProc (Int × Bytes) := do
  let ecdhPrivate ← newEcdh W .ecdhPrivate
  let ecdhPublic ← newEcdh W .ecdhPublic
  let ecdhPrivate ← importPkcs8PrivateKey W ecdhPrivate encodedEcdhPrivate
  let ecdhPublic ← importSubjectPublicKeyInfo W ecdhPublic t.exportedPublicKeyData
  let (secret, hSharedSecret) ← deriveSecret W ecdhPrivate ecdhPublic
  let _ ← newHkdf W hSharedSecret
  recoverSecret W t infoData aes secret

/-- The body of the `try` block. -/
def decryptClaims (claims : Json) (infoData : Bytes) (paddingScheme : RsaPaddingScheme) :
    WindowsProc (Int × Bytes) := do
  let t ← call (openTransport W.providers claims paddingScheme)
  if t.aesKey.isEmpty then
    return (ErrorCode.unknownError.toInt, [])
  else
    let aes ← createAesWrapper W
    let aes ← setKey W .wrapping aes t.aesKey
    let encodedEcdhPrivate ← decrypt W .wrapping aes t.wrappingNonce t.encryptedEcdhPrivate
    if encodedEcdhPrivate.isEmpty then
      return (ErrorCode.unknownError.toInt, [])
    else
      agreeOnSecret W t infoData aes encodedEcdhPrivate

def windowsError : WindowsExc → FailureCode
  | .failed c => c.libRC
  | .other e => decryptError e

/-- `decrypt_secret` on Windows: the result with what is left in `plaintextData`, and the handles after the last
destructor. -/
def decryptSecret (claims : Json) (paddingScheme : RsaPaddingScheme) :
    Except Exc (Int × Bytes) × Ledger HandleKind :=
  match W.providers.getSystemUuid with
  | .error e => (.error e, .empty)
  | .ok infoString =>
    let (result, s) := (decryptClaims W claims infoString paddingScheme).exec Objects.start
    (guarded result fun e => .ok ((windowsError e).val.toInt, []), s.leave)

end

/-! ### The result -/

/-- What `decrypt_secret` computes once the transport key is known. -/
def decryptTransport (P : Providers) (t : Transport) (infoData : Bytes) : Except Exc (Int × Bytes) := do
  if t.aesKey.isEmpty then
    return (ErrorCode.unknownError.toInt, [])
  else
    let aesWrapper ← P.createAesWrapper
    let aesWrapper ← P.setKey aesWrapper t.aesKey
    let encodedEcdhPrivate ← P.aesDecrypt aesWrapper t.wrappingNonce t.encryptedEcdhPrivate
    if encodedEcdhPrivate.isEmpty then
      return (ErrorCode.unknownError.toInt, [])
    else
      let ecdhPrivate ← P.newEcdh
      let ecdhPublic ← P.newEcdh
      let ecdhPrivate ← P.importPkcs8PrivateKey ecdhPrivate encodedEcdhPrivate
      let ecdhPublic ← P.importSubjectPublicKeyInfo ecdhPublic t.exportedPublicKeyData
      let secret ← P.deriveSecret ecdhPrivate ecdhPublic
      let aesKey ← P.deriveKey secret t.salt infoData 32
      let aesWrapper ← P.setKey aesWrapper aesKey
      let plaintextData ← P.aesDecrypt aesWrapper t.dataNonce t.encryptedSecret
      if plaintextData.isEmpty then
        return (ErrorCode.unknownError.toInt, [])
      else
        return (0, plaintextData)

theorem decryptClaims_eq (P : Providers) (claims : Json) (infoData : Bytes) (paddingScheme : RsaPaddingScheme) :
    Secrets.decryptClaims P claims infoData paddingScheme =
      openTransport P claims paddingScheme >>= fun t => decryptTransport P t infoData := by
  simp only [Secrets.decryptClaims, openTransport, bind_assoc, pure_bind]
  rfl

section

variable {W : Windows} (h : ∀ c, W.fails c = false)

include h

theorem check_succeeds (c : WindowsCall) : (check W c).Succeeds := by
  intro s
  refine ⟨(), s, ?_⟩
  rw [check, Proc.exec_call, attempt, h c]
  rfl

theorem checkAll_succeeds (cs : List WindowsCall) : (checkAll W cs).Succeeds := by
  induction cs with
  | nil => exact fun s => ⟨(), s, rfl⟩
  | cons c cs ih => exact (check_succeeds h c).bind fun _ => ih

theorem create_succeeds (c : WindowsCall) (kind : HandleKind) (store : ℕ → Objects → Objects) :
    (create W c kind store).Succeeds :=
  (check_succeeds h c).bind fun _ _ => ⟨_, _, rfl⟩

theorem createAesWrapper_yields :
    (createAesWrapper W).Yields (W.providers.createAesWrapper.mapError .other) := by
  apply Proc.Yields.bind_ok (Proc.yields_call _)
  intro aes
  apply (create_succeeds h _ _ _).yields_bind
  intro hAesHandle
  apply (checkAll_succeeds h _).yields_bind
  intro _ s
  rfl

theorem setKey_yields (use : AesUse) (aes : W.providers.Aes) (key : Bytes) :
    (setKey W use aes key).Yields ((W.providers.setKey aes key).mapError .other) := by
  apply Proc.Yields.bind_ok (Proc.yields_call _)
  intro aes'
  exact (create_succeeds h _ _ _).yields_bind fun _ => Proc.yields_pure aes'

theorem decrypt_yields (use : AesUse) (aes : W.providers.Aes) (nonce ciphertext : Bytes) :
    (decrypt W use aes nonce ciphertext).Yields ((W.providers.aesDecrypt aes nonce ciphertext).mapError .other) := by
  exact (checkAll_succeeds h _).yields_bind fun _ => Proc.yields_call _

theorem newEcdh_yields (object : EcdhObject) :
    (newEcdh W object).Yields (W.providers.newEcdh.mapError .other) := by
  apply Proc.Yields.bind_ok (Proc.yields_call _)
  intro ecdh
  exact (create_succeeds h _ _ _).yields_bind fun _ => Proc.yields_pure ecdh

theorem importPkcs8PrivateKey_yields (ecdh : W.providers.Ecdh) (derPrivateKey : Bytes) :
    (importPkcs8PrivateKey W ecdh derPrivateKey).Yields
      ((W.providers.importPkcs8PrivateKey ecdh derPrivateKey).mapError .other) := by
  apply (checkAll_succeeds h _).yields_bind
  intro _
  apply Proc.Yields.bind_ok (Proc.yields_call _)
  intro ecdh'
  exact (create_succeeds h _ _ _).yields_bind fun _ => Proc.yields_pure ecdh'

theorem importSubjectPublicKeyInfo_yields (ecdh : W.providers.Ecdh) (derPublicKey : Bytes) :
    (importSubjectPublicKeyInfo W ecdh derPublicKey).Yields
      ((W.providers.importSubjectPublicKeyInfo ecdh derPublicKey).mapError .other) := by
  apply (check_succeeds h _).yields_bind
  intro _
  apply Proc.Yields.bind_ok (Proc.yields_call _)
  intro ecdh'
  exact (create_succeeds h _ _ _).yields_bind fun _ => Proc.yields_pure ecdh'

/-- The handle that `DeriveSecret` returns depends on the handles before it, the secret does not. -/
theorem deriveSecret_bind_yields {β : Type} (ecdh otherParty : W.providers.Ecdh) {f : Bytes × ℕ → WindowsProc β}
    {g : Bytes → Except WindowsExc β} (hf : ∀ secret t, (f (secret, t)).Yields (g secret)) :
    (deriveSecret W ecdh otherParty >>= f).Yields
      ((W.providers.deriveSecret ecdh otherParty).mapError .other >>= g) := by
  rw [deriveSecret, bind_assoc]
  apply (Proc.yields_call _).bind
  intro secret
  rw [bind_assoc]
  apply (create_succeeds h _ _ _).yields_bind
  intro hSharedSecret
  rw [pure_bind]
  exact hf secret hSharedSecret

theorem expandRound_succeeds (i : ℕ) : (expandRound W i).Succeeds := by
  apply (create_succeeds h _ _ _).bind
  intro hHash
  apply (checkAll_succeeds h _).bind
  intro _ s
  exact ⟨_, _, rfl⟩

theorem expandLoop_succeeds (rounds i : ℕ) : (expandLoop W rounds i).Succeeds := by
  induction rounds generalizing i with
  | zero => exact fun s => ⟨(), s, rfl⟩
  | succ rounds ih => exact (expandRound_succeeds h i).bind fun _ => ih (i + 1)

theorem deriveKey_yields (secret salt info : Bytes) (keySize : ℕ) :
    (deriveKey W secret salt info keySize).Yields
      ((W.providers.deriveKey secret salt info keySize).mapError .other) := by
  apply (checkAll_succeeds h _).yields_bind
  intro _
  exact (expandLoop_succeeds h _ _).yields_bind fun _ => Proc.yields_call _

theorem decryptClaims_yields (claims : Json) (infoData : Bytes) (paddingScheme : RsaPaddingScheme) :
    (decryptClaims W claims infoData paddingScheme).Yields
      ((Secrets.decryptClaims W.providers claims infoData paddingScheme).mapError .other) := by
  rw [decryptClaims_eq, mapError_bind]
  apply (Proc.yields_call _).bind
  intro t
  rw [decryptTransport]
  split
  · exact Proc.yields_pure _
  rw [mapError_bind]
  apply (createAesWrapper_yields h).bind
  intro aes₀
  rw [mapError_bind]
  apply (setKey_yields h _ _ _).bind
  intro aes
  rw [mapError_bind]
  apply (decrypt_yields h _ _ _ _).bind
  intro encodedEcdhPrivate
  split
  · exact Proc.yields_pure _
  rw [mapError_bind]
  apply (newEcdh_yields h _).bind
  intro ecdhPrivate
  rw [mapError_bind]
  apply (newEcdh_yields h _).bind
  intro ecdhPublic
  rw [mapError_bind]
  apply (importPkcs8PrivateKey_yields h _ _).bind
  intro ecdhPrivate'
  rw [mapError_bind]
  apply (importSubjectPublicKeyInfo_yields h _ _).bind
  intro ecdhPublic'
  rw [mapError_bind]
  apply deriveSecret_bind_yields h
  intro secret hSharedSecret
  apply (create_succeeds h _ _ _).yields_bind
  intro hAlg
  rw [mapError_bind]
  apply (deriveKey_yields h _ _ _ _).bind
  intro aesKey
  rw [mapError_bind]
  apply (setKey_yields h _ _ _).bind
  intro aes'
  rw [mapError_bind]
  apply (decrypt_yields h _ _ _ _).bind
  intro plaintextData
  split
  · exact Proc.yields_pure _
  · exact Proc.yields_pure _

/-- When no call fails, the objects compute what `decrypt_secret` computes from their providers. -/
theorem decryptSecret_result (claims : Json) (paddingScheme : RsaPaddingScheme) :
    (decryptSecret W claims paddingScheme).1 = Secrets.decryptSecret W.providers claims paddingScheme := by
  unfold decryptSecret Secrets.decryptSecret
  cases W.providers.getSystemUuid with
  | error e => rfl
  | ok infoString =>
      have hyields := decryptClaims_yields h claims infoString paddingScheme Objects.start
      show guarded ((decryptClaims W claims infoString paddingScheme).exec Objects.start).1 _ = _
      rw [hyields]
      cases hresult : Secrets.decryptClaims W.providers claims infoString paddingScheme with
      | ok r =>
          rw [ok_bind, hresult]
          rfl
      | error e =>
          rw [ok_bind, hresult]
          rfl

end

end CvmAttestation.Secrets.Handles
