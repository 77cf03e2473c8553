import CvmAttestation.BaseLedger
import CvmAttestation.TpmNv
import CvmAttestation.TpmEphemeral

/-! The objects that the operations of `Tss2Wrapper` load into the TPM. `CreatePrimary` and `Load` add one, and only
`FlushContext` removes one: what `unique_esys_tr` does at the end of its scope frees the memory of the client, not
that of the TPM. Any call other than `FlushContext` may fail, and every operation is left by an exception then. -/

namespace CvmAttestation.Tpm

open Base

/-- The fields of `TPM2B_PUBLIC` that describe an endorsement key. -/
structure EkTemplate where
  type : Nat
  nameAlg : Nat
  objectAttributes : Nat
  authPolicy : Bytes
  symmetricAlgorithm : Nat
  symmetricKeyBits : Nat
  symmetricMode : Nat
  scheme : Nat
  keyBits : Nat
  exponent : Nat
  uniqueSize : Nat
  uniqueBuffer : Bytes
  deriving DecidableEq, Repr

def ekAuthPolicy : Bytes :=
  [0x83, 0x71, 0x97, 0x67, 0x44, 0x84, 0xb3, 0xf8, 0x1a, 0x90, 0xcc, 0x8d, 0x46, 0xa5, 0xd7, 0x24,
    0xfd, 0x52, 0xd7, 0x6e, 0x06, 0x52, 0x0b, 0x64, 0xf2, 0xa1, 0xda, 0x1b, 0x33, 0x14, 0x69, 0xaa]

/-- `_PopulateParametersEkFromSpec`. The attributes are restricted, decrypt, fixedTPM, fixedParent and
sensitiveDataOrigin, and adminWithPolicy on demand. -/
def populateParametersEkFromSpec (setAdminWithAuthPolicy : Bool) : EkTemplate where
  type := 0x0001
  nameAlg := 0x000B
  objectAttributes := 0x00010000 + 0x00020000 + 0x2 + 0x10 + 0x20 + if setAdminWithAuthPolicy then 0x80 else 0
  authPolicy := ekAuthPolicy
  symmetricAlgorithm := 0x0006
  symmetricKeyBits := 128
  symmetricMode := 0x0043
  scheme := 0x0010
  keyBits := 2048
  exponent := 0
  uniqueSize := 256
  uniqueBuffer := List.replicate 512 0

/-- The calls to the TPM, by the place they are made from. -/
inductive TpmCall
  | digestCapability
  | trialStart
  | trialPolicyPcr
  | trialGetDigest
  | createPrimary
  | openAik
  | certify
  | decryptCapability
  | decryptStart
  | decryptPolicyPcr
  | rsaDecrypt
  | openEk
  | readEkPublic
  | importStart
  | importPolicySecret
  | importData
  | loadStart
  | loadPolicySecret
  | load
  | unsealCapability
  | unsealStart
  | unsealPolicyPcr
  | unseal
  | evictControl
  deriving DecidableEq, Repr

/-- The texts that `UnsealInternal` unmarshals. -/
inductive Blob
  | importablePublic
  | importablePrivate
  | encryptedSeed
  deriving DecidableEq, Repr

inductive ObjectError
  | failed (call : TpmCall)
  | pcr (e : PcrError)
  | unmarshal (blob : Blob)
  | nvRead (rc : Nat)
  | flushContext
  deriving DecidableEq, Repr

/-- A TPM with the data its commands return, the calls that fail, and the functions of the library that unmarshal. The
two indices that may describe the endorsement key are read with a return code. -/
structure Platform (Key : Type) where
  dev : Device Key
  registers : PcrState
  ekTemplate : Except Nat Bytes
  ekNonce : Except Nat Bytes
  unmarshalTemplate : Bytes → Except Nat EkTemplate
  createEk : EkTemplate → Key
  unmarshal : Blob → Bytes → Option Bytes
  imported : Key → Bytes → Bytes → Bytes → Loaded Key
  unsealed : Key → Bytes
  fails : TpmCall → Bool

/-- The objects in the TPM: the loaded ones by the handle of the client, the persistent ones by their own. -/
structure ObjectStore (Key : Type) where
  transient : Ledger (Loaded Key)
  persistent : Handle → Option (Loaded Key)

def ObjectStore.load {Key : Type} (s : ObjectStore Key) (o : Loaded Key) : ObjectStore Key :=
  { s with transient := s.transient.acquire o }

def ObjectStore.flush {Key : Type} (s : ObjectStore Key) (handle : ℕ) : ObjectStore Key :=
  { s with transient := s.transient.release handle }

def ekPubIndex : Handle := 0x81010001

abbrev ObjectProc (Key α : Type) := Proc ObjectError (ObjectStore Key) α

namespace Objects

variable {Key : Type} (P : Platform Key)

/-! ### The calls -/

def attempt (c : TpmCall) : Except ObjectError Unit := if P.fails c then .error (.failed c) else .ok ()

def loadObject (o : Loaded Key) : ObjectProc Key ℕ :=
  Proc.attempt fun s => .ok (s.transient.next, s.load o)

/-- `Tss2Util::FlushObjectContext`; the TPM refuses a handle without an object. -/
def flushObjectContext (handle : ℕ) : ObjectProc Key Unit :=
  ExceptT.mk fun s =>
    (if (s.transient.held handle).isSome then .ok () else .error .flushContext, s.flush handle)

/-- A step after which the object is flushed if it has failed. -/
def orFlush {α : Type} (handle : ℕ) (x : Except ObjectError α) : ObjectProc Key α :=
  tryCatch (Proc.call x) fun e => do
    flushObjectContext handle
    throw e

def createPrimary (o : Loaded Key) : ObjectProc Key ℕ := do
  Proc.call (attempt P .createPrimary)
  loadObject o

def pcrSelection (capability : TpmCall) (pcrSet : PcrSet) (hashAlg : HashAlg) : Except ObjectError PcrSelection := do
  attempt P capability
  (getTssPcrSelection P.dev.pcrCount pcrSet hashAlg).mapError .pcr

def policyPcr (call : TpmCall) (type : SessionType) (digest : Bytes) (sel : PcrSelection) :
    Except ObjectError Session := do
  attempt P call
  ((Session.start type).policyPcr P.dev P.registers digest sel).mapError .pcr

/-! ### The ephemeral key -/

def getEphemeralKeyPolicyDigest (pcrSet : PcrSet) : Except ObjectError Bytes := do
  let pcrDigest := generatePcrDigest P.dev pcrSet pcrSet.hashAlg
  let sel ← pcrSelection P .digestCapability pcrSet pcrSet.hashAlg
  attempt P .trialStart
  let session ← policyPcr P .trialPolicyPcr .trial pcrDigest sel
  attempt P .trialGetDigest
  return session.digest

def ephemeralObject (digest : Bytes) : Loaded Key :=
  ⟨(ephemeralTemplate digest).authPolicy, P.dev.createPrimary (ephemeralTemplate digest)⟩

def createEphemeralKey (pcrSet : PcrSet) : ObjectProc Key (ℕ × Loaded Key) := do
  let digest ← Proc.call (getEphemeralKeyPolicyDigest P pcrSet)
  let primaryHandle ← createPrimary P (ephemeralObject P digest)
  return (primaryHandle, ephemeralObject P digest)

def certify (key : Key) : Except ObjectError (Bytes × Bytes) := do
  attempt P .certify
  (P.dev.certify key).mapError .pcr

/-- `GetCertifiedKeyAndFlushHandle`. The handle of the AIK is opened before the first place that flushes. -/
def getCertifiedKeyAndFlushHandle (primaryHandle : ℕ) (primary : Loaded Key) : ObjectProc Key EphemeralKey := do
  Proc.call (attempt P .openAik)
  let (certifyInfo, signature) ← orFlush primaryHandle (certify P primary.key)
  flushObjectContext primaryHandle
  return ⟨P.dev.marshalPublic primary.key, certifyInfo, signature⟩

def getEphemeralKey (pcrSet : PcrSet) : ObjectProc Key EphemeralKey := do
  let (primaryHandle, primary) ← createEphemeralKey P pcrSet
  getCertifiedKeyAndFlushHandle P primaryHandle primary

def decryptSession (pcrSet : PcrSet) : Except ObjectError Session := do
  let pcrDigest := generatePcrDigest P.dev pcrSet pcrSet.hashAlg
  let sel ← pcrSelection P .decryptCapability pcrSet pcrSet.hashAlg
  attempt P .decryptStart
  policyPcr P .decryptPolicyPcr .policy pcrDigest sel

def rsaDecrypt (session : Session) (primary : Loaded Key) (rsaWrapAlgId : RsaScheme) (rsaHashAlgId : RsaHashAlg)
    (encryptedBlob : Bytes) : Except ObjectError Bytes := do
  attempt P .rsaDecrypt
  if session.digest = primary.authPolicy then
    (P.dev.rsaDecrypt primary.key rsaWrapAlgId rsaHashAlgId encryptedBlob).mapError .pcr
  else .error (.pcr .policyCheck)

def blobSize (encryptedBlob : Bytes) : Except ObjectError Unit :=
  if 512 < encryptedBlob.length then .error (.pcr .blobTooLarge) else .ok ()

def decryptWithEphemeralKey (pcrSet : PcrSet) (encryptedBlob : Bytes) (rsaWrapAlgId : RsaScheme)
    (rsaHashAlgId : RsaHashAlg) : ObjectProc Key Bytes := do
  let (primaryHandle, primary) ← createEphemeralKey P pcrSet
  let session ← orFlush primaryHandle (decryptSession P pcrSet)
  orFlush primaryHandle (blobSize encryptedBlob)
  let decrypted ← orFlush primaryHandle (rsaDecrypt P session primary rsaWrapAlgId rsaHashAlgId encryptedBlob)
  flushObjectContext primaryHandle
  return decrypted

/-! ### The endorsement key -/

/-- The catch blocks of `_PopulateEkPublicInput`: a return code other than `TPM2_RC_HANDLE` is thrown again. -/
def orAbsent (rc : Nat) (default : EkTemplate) : Except ObjectError EkTemplate :=
  if rc % 256 ≠ 0x8B then .error (.nvRead rc) else .ok default

def populateEkPublicInput : Except ObjectError EkTemplate := do
  let inPub ←
    match P.ekTemplate >>= P.unmarshalTemplate with
    | .ok template => .ok template
    | .error rc => orAbsent rc (populateParametersEkFromSpec true)
  match P.ekNonce with
  | .ok nonce => .ok { inPub with uniqueBuffer := nonce ++ inPub.uniqueBuffer.drop nonce.length }
  | .error rc => orAbsent rc inPub

def ekObject (inPub : EkTemplate) : Loaded Key := ⟨inPub.authPolicy, P.createEk inPub⟩

/-- `Tss2Util::GenerateEk`. The handle of the key goes out of scope here, the key stays loaded. -/
def generateEk : ObjectProc Key (Loaded Key) := do
  let inPub ← Proc.call (populateEkPublicInput P)
  let _ ← createPrimary P (ekObject P inPub)
  return ekObject P inPub

def generateEkFromSpec (setAdminWithAuthPolicy : Bool) : ObjectProc Key (ℕ × Loaded Key) := do
  let ek := ekObject P (populateParametersEkFromSpec setAdminWithAuthPolicy)
  let primaryHandle ← createPrimary P ek
  return (primaryHandle, ek)

def getEkPubWithoutPersisting : ObjectProc Key Bytes := do
  let ek ← generateEk P
  return P.dev.marshalPublic ek.key

def getEkPubWithCertification : ObjectProc Key EphemeralKey := do
  let (primaryHandle, primary) ← generateEkFromSpec P false
  getCertifiedKeyAndFlushHandle P primaryHandle primary

/-! ### Sealed data -/

/-- What the caller of the two unseal functions passes. -/
structure Sealed where
  importablePublic : Bytes
  importablePrivate : Bytes
  encryptedSeed : Bytes
  pcrSet : PcrSet
  hashAlg : HashAlg
  usePcrAuth : Bool

def unmarshal (blob : Blob) (data : Bytes) : Except ObjectError Bytes :=
  match P.unmarshal blob data with
  | some content => .ok content
  | none => .error (.unmarshal blob)

/-- `UnsealInternal` up to `Load`: the object that is loaded then. -/
def importData (key : Loaded Key) (sealed : Sealed) : Except ObjectError (Loaded Key) := do
  let inPub ← unmarshal P .importablePublic sealed.importablePublic
  let inPriv ← unmarshal P .importablePrivate sealed.importablePrivate
  let seed ← unmarshal P .encryptedSeed sealed.encryptedSeed
  attempt P .importStart
  attempt P .importPolicySecret
  attempt P .importData
  attempt P .loadStart
  attempt P .loadPolicySecret
  attempt P .load
  return P.imported key.key inPub inPriv seed

def unsealLoaded (loadedData : Loaded Key) (sealed : Sealed) : Except ObjectError Bytes := do
  if sealed.usePcrAuth then
    let pcrDigest := generatePcrDigest P.dev sealed.pcrSet sealed.hashAlg
    let sel ← pcrSelection P .unsealCapability sealed.pcrSet sealed.pcrSet.hashAlg
    attempt P .unsealStart
    let _ ← policyPcr P .unsealPolicyPcr .policy pcrDigest sel
  attempt P .unseal
  return P.unsealed loadedData.key

def unsealInternal (key : Loaded Key) (sealed : Sealed) : ObjectProc Key Bytes := do
  let data ← Proc.call (importData P key sealed)
  let _ ← loadObject data
  Proc.call (unsealLoaded P data sealed)

/-- `Tss2Wrapper::UnsealWithEkFromSpec`. -/
def unsealWithEkFromSpec (sealed : Sealed) : ObjectProc Key Bytes := do
  let (ekHandle, ek) ← generateEkFromSpec P false
  let unsealedData ← unsealInternal P ek sealed
  flushObjectContext ekHandle
  return unsealedData

/-- `Tss2Util::HandleToEsys`, for a persistent object. -/
def handleToEsys (call : TpmCall) (index : Handle) : ObjectProc Key (Loaded Key) :=
  Proc.attempt fun s =>
    match s.persistent index with
    | none => .error (.failed call)
    | some o => if P.fails call then .error (.failed call) else .ok (o, s)

/-- `Tss2Wrapper::Unseal`, with the name of the class because `unseal` is a word of Lean. -/
def Tss2Wrapper.unseal (sealed : Sealed) : ObjectProc Key Bytes := do
  let ek ← handleToEsys P .openEk ekPubIndex
  unsealInternal P ek sealed

end Objects

end CvmAttestation.Tpm
