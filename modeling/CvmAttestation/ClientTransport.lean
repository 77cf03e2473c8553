import CvmAttestation.ClientAkCert
import CvmAttestation.ClientJwk
import CvmAttestation.ClientToken
import CvmAttestation.TpmReopen

/-! A secret for an attested guest. Whoever holds its token encrypts to the key in the claims with `Encrypt`, and the
guest decrypts with `Decrypt`, which keeps nothing from the attestation: it reads the registers again and has the TPM
derive the key from what it finds. -/

namespace CvmAttestation.Client

open Base

/-! ### `Encrypt` over OpenSSL -/

/-- The calls to OpenSSL that can fail whatever they are given. -/
inductive RsaCall
  | fromDataInit
  | writePubkey
  | encryptInit
  | setPadding
  | setOaepMd
  | encryptSize
  deriving DecidableEq, Repr

/-- `OSSL_PKEY_PARAM_RSA_N` and `OSSL_PKEY_PARAM_RSA_E`. -/
inductive RsaParam
  | rsaN
  | rsaE
  deriving DecidableEq, Repr

inductive RsaPadding
  | pkcs1
  | oaep (md : RsaHashAlg)
  | none
  deriving DecidableEq, Repr

/-- RSA of OpenSSL. `bnBin2bn` reads a number with its high byte first. `setBn` is `OSSL_PARAM_set_BN` of the number of
a vector into that vector: it gives what the parameter holds then, and for which numbers it fails depends on the version.
Keys are made of a modulus and an exponent, and encryption fails for data that does not fit the padding. -/
structure OpenSslRsa where
  Key : Type
  refuses : RsaCall → Bool
  bnBin2bn : Bytes → ℕ
  bnBin2bn_nil : bnBin2bn [] = 0
  bnBin2bn_concat : ∀ s b, bnBin2bn (s ++ [b]) = 256 * bnBin2bn s + b.toNat
  setBn : RsaParam → Bytes → Option ℕ
  setBn_some : ∀ {param bin n}, setBn param bin = some n → n = bnBin2bn bin
  fromData : (n e : ℕ) → Option Key
  encrypt : Key → RsaPadding → Bytes → Option Bytes

theorem convertingJwkToRsaPub_ne : ErrorCode.convertingJwkToRsaPub ≠ .success := by
  intro h
  cases h

theorem evpPkeyEncryptInitFailed_ne : ErrorCode.evpPkeyEncryptInitFailed ≠ .success := by
  intro h
  cases h

theorem evpPkeyEncryptFailed_ne : ErrorCode.evpPkeyEncryptFailed ≠ .success := by
  intro h
  cases h

def convertingJwkToRsaPub (description : Bytes) : Failure :=
  ⟨.failure .convertingJwkToRsaPub description, convertingJwkToRsaPub_ne⟩

def evpPkeyEncryptInitFailed (description : Bytes) : Failure :=
  ⟨.failure .evpPkeyEncryptInitFailed description, evpPkeyEncryptInitFailed_ne⟩

def evpPkeyEncryptFailed : Failure :=
  ⟨.failure .evpPkeyEncryptFailed (ascii "EVP_PKEY_encrypt failed"), evpPkeyEncryptFailed_ne⟩

namespace OpenSslRsa

variable (O : OpenSslRsa)

def setParam (param : RsaParam) (bin : Bytes) : Except Failure ℕ :=
  match O.setBn param bin with
  | .none => .error (convertingJwkToRsaPub (ascii "OSSL_PARAM_set_BN failed"))
  | some n => .ok n

def convertBinary (nBin eBin : Bytes) : Except Failure O.Key := do
  let modul ← O.setParam .rsaN nBin
  let expon ← O.setParam .rsaE eBin
  if O.refuses .fromDataInit then .error (convertingJwkToRsaPub (ascii "EVP_PKEY_fromdata_init failed"))
  else
    match O.fromData modul expon with
    | .none => .error (convertingJwkToRsaPub (ascii "EVP_PKEY_fromdata failed"))
    | some pkey =>
      if O.refuses .writePubkey then .error (convertingJwkToRsaPub (ascii "PEM_write_bio_PUBKEY failed"))
      else .ok pkey

/-- `crypto::ConvertJwkToRsaPubKey`. The key is what is read back from the PEM text. -/
def convertJwkToRsaPubKey (n e : Bytes) : Except Failure O.Key :=
  if n.isEmpty || e.isEmpty then .error invalidInput
  else
    match base64urlToBinary n, base64urlToBinary e with
    | .ok nBin, .ok eBin => O.convertBinary nBin eBin
    | _, _ => .error (convertingJwkToRsaPub (ascii "Error while converting JWK to RSA public key"))

def rsaPaddingAlgo (rsaWrapAlgId : RsaScheme) (rsaHashAlgId : RsaHashAlg) : RsaPadding :=
  match rsaWrapAlgId with
  | .rsaEs => .pkcs1
  | .rsaOaep => .oaep rsaHashAlgId
  | .rsaNull => .none

/-- `crypto::EncryptDataWithRSAPubKey`. -/
def encryptDataWithRSAPubKey (pkey : O.Key) (rsaWrapAlgId : RsaScheme) (rsaHashAlgId : RsaHashAlg) (inputData : Bytes) :
    Except Failure Bytes :=
  if inputData.isEmpty then .error invalidInput
  else if O.refuses .encryptInit then .error (evpPkeyEncryptInitFailed (ascii "EVP_PKEY_encrypt_init failed"))
  else if O.refuses .setPadding then
    .error (evpPkeyEncryptInitFailed (ascii "EVP_PKEY_CTX_set_rsa_padding failed"))
  else if rsaWrapAlgId = .rsaOaep && O.refuses .setOaepMd then
    .error (evpPkeyEncryptInitFailed (ascii "EVP_PKEY_CTX_set_rsa_oaep_md failed"))
  else if O.refuses .encryptSize then .error evpPkeyEncryptFailed
  else
    match O.encrypt pkey (rsaPaddingAlgo rsaWrapAlgId rsaHashAlgId) inputData with
    | .none => .error evpPkeyEncryptFailed
    | some outData => .ok outData

variable {O}

theorem setParam_eq_ok {param : RsaParam} {bin : Bytes} {n : ℕ} (h : O.setParam param bin = .ok n) :
    n = O.bnBin2bn bin := by
  rw [setParam] at h
  split at h
  · cases h
  · rename_i m hset
    rw [← Except.ok.inj h]
    exact O.setBn_some hset

theorem convertBinary_eq_ok {nBin eBin : Bytes} {pkey : O.Key} (h : O.convertBinary nBin eBin = .ok pkey) :
    O.fromData (O.bnBin2bn nBin) (O.bnBin2bn eBin) = some pkey := by
  unfold convertBinary at h
  obtain ⟨modul, hmodul, h⟩ := bind_returns.1 h
  obtain ⟨expon, hexpon, h⟩ := bind_returns.1 h
  rw [setParam_eq_ok hmodul, setParam_eq_ok hexpon] at h
  split at h
  · cases h
  · split at h
    · cases h
    · rename_i pkey' hdata
      split at h
      · cases h
      · rw [hdata, Except.ok.inj h]

/-- The strings of a key give the numbers that were encoded. -/
theorem convertJwkToRsaPubKey_eq_ok {modulus exponent : Bytes} {pkey : O.Key}
    (h : O.convertJwkToRsaPubKey (binaryToBase64url modulus) (binaryToBase64url exponent) = .ok pkey) :
    O.fromData (O.bnBin2bn modulus) (O.bnBin2bn exponent) = some pkey := by
  unfold convertJwkToRsaPubKey at h
  split_ifs at h
  rw [binaryToBase64url, binaryToBase64url, base64urlToBinary_encodeUrl, base64urlToBinary_encodeUrl] at h
  exact convertBinary_eq_ok h

theorem encryptDataWithRSAPubKey_eq_ok {pkey : O.Key} {rsaWrapAlgId : RsaScheme} {rsaHashAlgId : RsaHashAlg}
    {inputData outData : Bytes}
    (h : O.encryptDataWithRSAPubKey pkey rsaWrapAlgId rsaHashAlgId inputData = .ok outData) :
    O.encrypt pkey (rsaPaddingAlgo rsaWrapAlgId rsaHashAlgId) inputData = some outData := by
  unfold encryptDataWithRSAPubKey at h
  split_ifs at h
  split at h
  · cases h
  · rename_i outData' hencrypt
    rw [hencrypt, Except.ok.inj h]

theorem setParam_code {param : RsaParam} {bin : Bytes} {f : Failure} (h : O.setParam param bin = .error f) :
    f.result.code = .convertingJwkToRsaPub := by
  rw [setParam] at h
  split at h
  · rw [← Except.error.inj h]
    rfl
  · cases h

theorem convertBinary_code {nBin eBin : Bytes} {f : Failure} (h : O.convertBinary nBin eBin = .error f) :
    f.result.code = .convertingJwkToRsaPub := by
  unfold convertBinary at h
  cases hmodul : O.setParam .rsaN nBin with
  | error f' =>
      rw [hmodul] at h
      cases h
      exact setParam_code hmodul
  | ok modul =>
      rw [hmodul, ok_bind] at h
      cases hexpon : O.setParam .rsaE eBin with
      | error f' =>
          rw [hexpon] at h
          cases h
          exact setParam_code hexpon
      | ok expon =>
          rw [hexpon, ok_bind] at h
          split at h
          · cases h
            rfl
          · split at h
            · cases h
              rfl
            · split at h
              · cases h
                rfl
              · cases h

theorem convertJwkToRsaPubKey_code {n e : Bytes} {f : Failure} (h : O.convertJwkToRsaPubKey n e = .error f) :
    f.result.code = .invalidInputParameter ∨ f.result.code = .convertingJwkToRsaPub := by
  unfold convertJwkToRsaPubKey at h
  split_ifs at h
  · cases h
    exact .inl rfl
  · split at h
    · exact .inr (convertBinary_code h)
    · cases h
      exact .inr rfl

theorem encryptDataWithRSAPubKey_code {pkey : O.Key} {rsaWrapAlgId : RsaScheme} {rsaHashAlgId : RsaHashAlg}
    {inputData : Bytes} {f : Failure}
    (h : O.encryptDataWithRSAPubKey pkey rsaWrapAlgId rsaHashAlgId inputData = .error f) :
    f.result.code = .invalidInputParameter ∨ f.result.code = .evpPkeyEncryptInitFailed ∨
      f.result.code = .evpPkeyEncryptFailed := by
  unfold encryptDataWithRSAPubKey at h
  split_ifs at h
  · cases h
    exact .inl rfl
  · cases h
    exact .inr (.inl rfl)
  · cases h
    exact .inr (.inl rfl)
  · cases h
    exact .inr (.inl rfl)
  · cases h
    exact .inr (.inr rfl)
  · split at h
    · cases h
      exact .inr (.inr rfl)
    · cases h

variable (O)

/-- What `Encrypt` relies on. -/
def crypto : Crypto where
  Key := O.Key
  convertJwkToRsaPubKey := O.convertJwkToRsaPubKey
  encryptDataWithRSAPubKey := O.encryptDataWithRSAPubKey
  convert_code n e f h := by
    rcases convertJwkToRsaPubKey_code h with hcode | hcode <;> rw [hcode] <;> exact ErrorCode.noConfusion
  encrypt_code key scheme alg data f h := by
    rcases encryptDataWithRSAPubKey_code h with hcode | hcode | hcode <;> rw [hcode] <;> exact ErrorCode.noConfusion

end OpenSslRsa

/-! ### `Decrypt` -/

def RsaScheme.toTpm : RsaScheme → Tpm.RsaScheme
  | .rsaEs => .rsaEs
  | .rsaOaep => .rsaOaep
  | .rsaNull => .rsaNull

def RsaHashAlg.toTpm : RsaHashAlg → Tpm.RsaHashAlg
  | .rsaSha1 => .rsaSha1
  | .rsaSha256 => .rsaSha256
  | .rsaSha384 => .rsaSha384
  | .rsaSha512 => .rsaSha512

/-- `GetAttestationPcrList` on Linux. -/
def getAttestationPcrList : List ℕ := [0, 1, 2, 3, 4, 5, 6, 7]

/-- What `GetPCRValues` and `DecryptWithEphemeralKey` return or raise, with the response codes of the TPM. -/
def tpmOutcome (rc : Tpm.DecryptError → ℕ) : Except Tpm.DecryptError Bytes → TpmOutcome
  | .ok decryptedBlob => .key decryptedBlob
  | .error (.pcr .indexOutOfRange) => .stdException (ascii "PCR index out of range")
  | .error (.pcr .blobTooLarge) => .stdException (ascii "Encrypted data size larger than Max RSA key size")
  | .error (.pcr .policyPcr) =>
    .tss2Exception (rc (.pcr .policyPcr)) (tss2What "Tss2Session failed to set policy pcr" (rc (.pcr .policyPcr)))
  | .error e => .tss2Exception (rc e) (tss2What "Failed to decrypt message" (rc e))

theorem dataDecryptionTpmError_ne : ErrorCode.dataDecryptionTpmError ≠ .success := by
  intro h
  cases h

theorem tpmInternalFailure_ne : ErrorCode.tpmInternalFailure ≠ .success := by
  intro h
  cases h

/-- The `catch` clauses of `Decrypt`. -/
def caught : TpmOutcome → Except Failure Bytes
  | .key outData => .ok outData
  | .tss2Exception rc what => .error ⟨⟨.dataDecryptionTpmError, what, rc⟩, dataDecryptionTpmError_ne⟩
  | .stdException what => .error ⟨.failure .tpmInternalFailure what, tpmInternalFailure_ne⟩
  | .unknown =>
    .error ⟨.failure .tpmInternalFailure (ascii "Error: Unknown internal error"), tpmInternalFailure_ne⟩

/-- The arguments of `Decrypt`; `none` is a null pointer. -/
structure DecryptArgs where
  encryptedData : Option Bytes
  hasOutputs : Bool
  rsaWrapAlgId : RsaScheme
  rsaHashAlgId : RsaHashAlg

/-- A TPM, and how other software extends its registers while `Decrypt` runs. -/
structure Guest (Key : Type) where
  device : Tpm.Device Key
  banks : Tpm.Banks
  interleaving : Tpm.Interleaving
  counted : ℕ → Bool
  batch : ℕ → ℕ
  rc : Tpm.DecryptError → ℕ

section

variable {Key : Type} (G : Guest Key)

/-- `GetPCRValues` in `Decrypt`, with the command that comes after it. -/
def Guest.readPcrs (fuel : ℕ) : Option (Except Tpm.PcrError (Tpm.PcrSet × ℕ)) :=
  Tpm.getPCRValuesFrom G.banks G.interleaving G.batch G.device.pcrCount getAttestationPcrList .sha256 fuel

/-- What the registers hold when a command is executed. -/
def Guest.valuesAt (command : ℕ) : Tpm.PcrSet :=
  Tpm.recorded (G.interleaving.atCommand G.banks command) getAttestationPcrList

def Guest.Reopened (attested read : Tpm.PcrSet) (next : ℕ) : Prop :=
  Tpm.Reopened G.banks G.interleaving G.counted getAttestationPcrList attested read next

/-- `AttestationClientImpl::Decrypt`; `none` is a run that has not come to its end with the fuel given. -/
def decrypt (fuel : ℕ) (args : DecryptArgs) : Option (Except Failure Bytes) :=
  match args.encryptedData with
  | none => some (.error invalidInput)
  | some encryptedData =>
    if encryptedData.isEmpty || !args.hasOutputs then some (.error invalidInput)
    else
      (Tpm.decryptDuring G.banks G.interleaving G.device G.counted G.batch getAttestationPcrList fuel encryptedData
        args.rsaWrapAlgId.toTpm args.rsaHashAlgId.toTpm).map fun outcome => caught (tpmOutcome G.rc outcome)

end

/-! ### From one to the other -/

/-- The numbers of a key of the TPM: what OpenSSL encrypts with the key that they make, the TPM decrypts. -/
def PublicHalf {Key : Type} (O : OpenSslRsa) (dev : Tpm.Device Key) (encryptionKey modulus exponent : Bytes) : Prop :=
  ∀ pkey, O.fromData (O.bnBin2bn modulus) (O.bnBin2bn exponent) = some pkey →
    ∀ rsaWrapAlgId rsaHashAlgId data encryptedData,
      O.encrypt pkey (OpenSslRsa.rsaPaddingAlgo rsaWrapAlgId rsaHashAlgId) data = some encryptedData →
        encryptedData ≠ [] ∧
          Tpm.EncryptedTo dev encryptionKey rsaWrapAlgId.toTpm rsaHashAlgId.toTpm data encryptedData

/-- A token that was issued for a key: its claims hold the numbers of the key. -/
inductive TokenFor {Key : Type} (J : Jsoncpp) (O : OpenSslRsa) (dev : Tpm.Device Key) (encryptionKey : Bytes) :
    Bytes → Prop
  | intro {C : Json} {text header signature modulus exponent jwtToken : Bytes} (htext : TextOf J C text)
    (hkey : HoldsKey (binaryToBase64url modulus) (binaryToBase64url exponent) C) (hheader : dot ∉ header)
    (hsignature : dot ∉ signature) (hpublic : PublicHalf O dev encryptionKey modulus exponent)
    (htoken : cStr jwtToken = tokenOf header text signature) : TokenFor J O dev encryptionKey jwtToken

section

variable {Key : Type} {J : Jsoncpp} {O : OpenSslRsa} {rsaWrapAlgId : RsaScheme} {rsaHashAlgId : RsaHashAlg}
  {jwtToken data encryptedData : Bytes}

theorem ne_nil_of_encrypt (K : Crypto)
    (h : encrypt J K ⟨some jwtToken, some data, true, rsaWrapAlgId, rsaHashAlgId⟩ = .ok encryptedData) : data ≠ [] := by
  rintro rfl
  cases h

/-- What `Encrypt` returns is a blob for the key of the token. -/
theorem encryptedTo_of_encrypt {dev : Tpm.Device Key} {encryptionKey : Bytes}
    (hfor : TokenFor J O dev encryptionKey jwtToken)
    (h : encrypt J O.crypto ⟨some jwtToken, some data, true, rsaWrapAlgId, rsaHashAlgId⟩ = .ok encryptedData) :
    encryptedData ≠ [] ∧
      Tpm.EncryptedTo dev encryptionKey rsaWrapAlgId.toTpm rsaHashAlgId.toTpm data encryptedData := by
  obtain ⟨htext, hkey, hheader, hsignature, hpublic, htoken⟩ := hfor
  rw [encrypt_tokenOf htext hkey hheader hsignature O.crypto rsaWrapAlgId rsaHashAlgId (ne_nil_of_encrypt O.crypto h)
    htoken] at h
  split_ifs at h
  obtain ⟨pkey, hpkey, h⟩ := bind_returns.1 h
  exact hpublic pkey (OpenSslRsa.convertJwkToRsaPubKey_eq_ok hpkey) rsaWrapAlgId rsaHashAlgId data encryptedData
    (OpenSslRsa.encryptDataWithRSAPubKey_eq_ok h)

theorem decrypt_eq_ok_iff {G : Guest Key} {fuel : ℕ} (hne : encryptedData ≠ []) :
    decrypt G fuel ⟨some encryptedData, true, rsaWrapAlgId, rsaHashAlgId⟩ = some (.ok data) ↔
      Tpm.decryptDuring G.banks G.interleaving G.device G.counted G.batch getAttestationPcrList fuel encryptedData
        rsaWrapAlgId.toTpm rsaHashAlgId.toTpm = some (.ok data) := by
  have hvalid : ¬(encryptedData.isEmpty || !true) = true := by simpa using hne
  rw [decrypt]
  dsimp only
  rw [if_neg hvalid]
  cases Tpm.decryptDuring G.banks G.interleaving G.device G.counted G.batch getAttestationPcrList fuel encryptedData
    rsaWrapAlgId.toTpm rsaHashAlgId.toTpm with
  | none => simp
  | some outcome =>
      rw [Option.map_some, Option.some.injEq, Option.some.injEq]
      cases outcome with
      | ok decryptedBlob => rw [tpmOutcome, caught, Except.ok.injEq, Except.ok.injEq]
      | error e =>
          refine iff_of_false ?_ (fun h => by cases h)
          cases e with
          | pcrChanged => intro h; cases h
          | pcr e => cases e <;> intro h <;> cases h

end

/-- **A secret that is encrypted to the key in a token comes back from `Decrypt`** exactly when the registers hold the
attested values while they are read and when the TPM compares them, and nothing that the TPM counts is extended between
that and the use of the key; they hold the attested values at that moment, too. This is so in any interleaving with the
extends of other software, and for registers that were read for the attestation during extends. Where no listed register
is extended, only an extend at that last moment prevents it. -/
theorem decrypt_encrypt_iff {Key : Type} (G : Guest Key) (J : Jsoncpp) (O : OpenSslRsa)
    (hcount : 8 ≤ G.device.pcrCount ∧ G.device.pcrCount < 40) (hbatch : ∀ k, 1 ≤ G.batch k) (fuel : ℕ)
    (hfuel : 8 < fuel) (attested : Tpm.PcrSet) (hattested : Tpm.ValuesOf getAttestationPcrList attested)
    (sel : Tpm.PcrSelection) (hsel : Tpm.getTssPcrSelection G.device.pcrCount attested attested.hashAlg = .ok sel)
    (s : Tpm.PcrState) (ephemeral : Tpm.EphemeralKey)
    (hephemeral : Tpm.getEphemeralKey G.device s attested = .ok ephemeral) (rsaWrapAlgId : RsaScheme)
    (rsaHashAlgId : RsaHashAlg) (jwtToken data encryptedData : Bytes)
    (htoken : TokenFor J O G.device ephemeral.encryptionKey jwtToken)
    (hencrypt : encrypt J O.crypto ⟨some jwtToken, some data, true, rsaWrapAlgId, rsaHashAlgId⟩ = .ok encryptedData) :
    ∃ read next, G.readPcrs fuel = some (.ok (read, next)) ∧
      (G.Reopened attested read next →
        decrypt G fuel ⟨some encryptedData, true, rsaWrapAlgId, rsaHashAlgId⟩ = some (.ok data) ∧
          ((∀ i ∈ getAttestationPcrList, G.counted i = true) → G.valuesAt (next + 1) = attested)) ∧
      (Tpm.Separated G.device sel ephemeral.encryptionKey rsaWrapAlgId.toTpm rsaHashAlgId.toTpm data encryptedData
          {attested, read, G.valuesAt next} →
        decrypt G fuel ⟨some encryptedData, true, rsaWrapAlgId, rsaHashAlgId⟩ = some (.ok data) →
          G.Reopened attested read next) ∧
      (∀ s' : Tpm.PcrState, attested = Tpm.recorded s' getAttestationPcrList →
        (∀ i ∈ getAttestationPcrList, G.interleaving.start.value .sha256 i = s'.value .sha256 i) →
          (∀ k ≤ next, ∀ e ∈ G.interleaving.before k, e.hashAlg = .sha256 → e.index ∉ getAttestationPcrList) →
            (∀ e ∈ G.interleaving.before (next + 1), G.counted e.index = false) →
              G.Reopened attested read next) := by
  obtain ⟨hge, hcount⟩ := hcount
  have hlisted : Tpm.Listed G.device.pcrCount getAttestationPcrList := by
    refine ⟨by decide, fun i hi => ?_, by omega⟩
    have hlt : ∀ i ∈ getAttestationPcrList, i < 8 := by decide
    exact (hlt i hi).trans_le (by omega)
  obtain ⟨hne, hblob⟩ := encryptedTo_of_encrypt htoken hencrypt
  obtain ⟨read, next, hget, hreopened, hseparated, hunextended⟩ := Tpm.decryptDuring_iff G.banks G.interleaving
    G.counted hlisted hbatch hfuel hattested hsel hephemeral hblob
  rw [← decrypt_eq_ok_iff hne] at hreopened hseparated
  exact ⟨read, next, hget, fun h => ⟨hreopened h, h.used⟩, hseparated, hunextended⟩

namespace SampleTransport

/-- A TPM whose hash functions keep what they are given, and which puts the policy of a key in front of what is
encrypted to it. -/
def device : Tpm.Device Tpm.Template where
  sha1 := id
  sha256 := id
  sha384 := id
  sha512 := id
  pcrCount := 24
  createPrimary := id
  marshalPublic key := key.authPolicy
  certify key := .ok (key.authPolicy, [])
  rsaDecrypt key _ _ blob :=
    if key.authPolicy.isPrefixOf blob then .ok (blob.drop key.authPolicy.length) else .error .decrypt

theorem length_zeros (hashAlg : Tpm.HashAlg) (_ : ℕ) : (List.replicate hashAlg.size (0 : UInt8)).length = hashAlg.size :=
  List.length_replicate

def start : Tpm.PcrState := ⟨fun hashAlg _ => List.replicate hashAlg.size 0, length_zeros⟩

def attested : Tpm.PcrSet := Tpm.recorded start getAttestationPcrList

def sel : Tpm.PcrSelection := ⟨.sha256, 3, Tpm.octets 0xff#32⟩

def encryptionKey : Bytes := Tpm.policyText device sel attested

def bigEndian (s : Bytes) : ℕ := s.foldl (fun n b => 256 * n + b.toNat) 0

theorem bigEndian_concat (s : Bytes) (b : UInt8) : bigEndian (s ++ [b]) = 256 * bigEndian s + b.toNat := by
  rw [bigEndian, bigEndian, List.foldl_append, List.foldl_cons, List.foldl_nil]

def openSsl : OpenSslRsa where
  Key := Unit
  refuses _ := false
  bnBin2bn := bigEndian
  bnBin2bn_nil := rfl
  bnBin2bn_concat := bigEndian_concat
  setBn _ bin := some (bigEndian bin)
  setBn_some h := (Option.some.inj h).symm
  fromData n e := if n = 1 ∧ e = 3 then some () else none
  encrypt _ _ data := if data.length ≤ 200 then some (encryptionKey ++ data) else none

/-- All registers but the one for debugging are counted. -/
def guest (before : ℕ → List Tpm.Extend) : Guest Tpm.Template :=
  ⟨device, Tpm.Sample.banks, ⟨start, before⟩, fun i => i ≠ 16, fun _ => 3, fun _ => 0⟩

/-- The register for debugging is extended before each command. -/
def debugged (_ : ℕ) : List Tpm.Extend := [⟨.sha256, 16, [1]⟩]

/-- Register 3 is extended after the attestation. -/
def changed (k : ℕ) : List Tpm.Extend := if k = 0 then [⟨.sha256, 3, [1]⟩] else []

def jwtToken : Bytes := tokenOf (ascii "h") SampleJwk.claimsText (ascii "s")

theorem length_values {pcrSet : Tpm.PcrSet} (h : Tpm.ValuesOf getAttestationPcrList pcrSet) :
    pcrSet.values.length = 256 := by
  have hlengths : pcrSet.pcrs.map (List.length ∘ Tpm.PcrValue.digest) = List.replicate pcrSet.pcrs.length 32 := by
    rw [List.map_eq_replicate_iff]
    exact h.size
  have hcount : pcrSet.pcrs.length = 8 := by
    rw [← List.length_map Tpm.PcrValue.index, h.index]
    rfl
  rw [Tpm.PcrSet.values, List.length_flatten, List.map_map, hlengths, hcount]
  rfl

theorem length_policyText {pcrSet : Tpm.PcrSet} (h : Tpm.ValuesOf getAttestationPcrList pcrSet) :
    (Tpm.policyText device sel pcrSet).length = 302 := by
  rw [Tpm.policyText, List.length_append]
  exact congrArg (46 + ·) (length_values h)

theorem attested_valuesOf : Tpm.ValuesOf getAttestationPcrList attested := Tpm.recorded_valuesOf start _

theorem publicHalf : PublicHalf openSsl device encryptionKey [1] [3] := by
  intro pkey _ rsaWrapAlgId rsaHashAlgId data encryptedData hencrypt
  have hlength := length_policyText attested_valuesOf
  change (if data.length ≤ 200 then some (encryptionKey ++ data) else none) = some encryptedData at hencrypt
  split_ifs at hencrypt with hdata
  obtain rfl := Option.some.inj hencrypt
  refine ⟨fun hnil => ?_, ?_, fun key hkey => ?_⟩
  · rw [encryptionKey, List.append_eq_nil_iff, ← List.length_eq_zero_iff, hlength] at hnil
    exact absurd hnil.1 (by decide)
  · rw [List.length_append, encryptionKey, hlength]
    omega
  · change (if key.authPolicy.isPrefixOf (encryptionKey ++ data) then _ else _) = _
    rw [show key.authPolicy = encryptionKey from hkey, if_pos (List.isPrefixOf_iff_prefix.2 (List.prefix_append _ _)),
      List.drop_left]

theorem tokenFor : TokenFor SampleJwk.json openSsl device encryptionKey jwtToken := by
  have htext : TextOf SampleJwk.json SampleJwk.claims SampleJwk.claimsText := ⟨rfl, by decide⟩
  have hn : binaryToBase64url [1] = ascii "AQ" := by decide
  have he : binaryToBase64url [3] = ascii "Aw" := by decide
  have hkey : HoldsKey (binaryToBase64url [1]) (binaryToBase64url [3]) SampleJwk.claims := by
    rw [hn, he]
    exact SampleJwk.holdsKey rfl
  have hheader : dot ∉ ascii "h" := by decide
  have hsignature : dot ∉ ascii "s" := by decide
  exact .intro htext hkey hheader hsignature publicHalf (by decide)

/-- The keys of values are as different as the values. -/
theorem separated {sets : Set Tpm.PcrSet} (hsets : ∀ pcrSet ∈ sets, Tpm.ValuesOf getAttestationPcrList pcrSet)
    (rsaWrapAlgId : Tpm.RsaScheme) (rsaHashAlgId : Tpm.RsaHashAlg) (plain : Bytes) :
    Tpm.Separated device sel encryptionKey rsaWrapAlgId rsaHashAlgId plain (encryptionKey ++ plain) sets where
  values _ _ _ _ h := h
  policies _ _ _ _ h := h
  keys := by
    rintro _ ⟨a, -, rfl⟩ _ ⟨b, -, rfl⟩ h
    exact congrArg Tpm.ephemeralTemplate h
  closed := by
    rintro _ ⟨pcrSet, hset, rfl⟩ hne
    change (if (Tpm.policyText device sel pcrSet).isPrefixOf (encryptionKey ++ plain) then _ else _) ≠ _
    have hprefix : ¬(Tpm.policyText device sel pcrSet).isPrefixOf (encryptionKey ++ plain) = true := by
      rw [List.isPrefixOf_iff_prefix]
      intro hprefix
      have hlength : (Tpm.policyText device sel pcrSet).length = encryptionKey.length :=
        (length_policyText (hsets pcrSet hset)).trans (length_policyText attested_valuesOf).symm
      have heq := List.prefix_iff_eq_take.1 hprefix
      rw [hlength, List.take_left] at heq
      exact hne heq
    rw [if_neg hprefix]
    intro h
    cases h

/-- Nothing undoes the extend of register 3. -/
theorem changed_not_reopened {read : Tpm.PcrSet} {next : ℕ} :
    ¬(guest changed).Reopened attested read next := by
  intro h
  have htold := Tpm.recorded_eq_iff.1 h.told_eq 3 (by decide)
  have hkept : ((guest changed).interleaving.atCommand (guest changed).banks next).value .sha256 3 =
      ((guest changed).interleaving.atCommand (guest changed).banks 0).value .sha256 3 := by
    refine Tpm.atCommand_value (Nat.zero_le next) ?_ (List.mem_singleton_self 3)
    intro k hk _ e he
    rw [show (guest changed).interleaving.before k = [] from if_neg hk.ne'] at he
    cases he
  have hextended : ((guest changed).interleaving.atCommand (guest changed).banks 0).value .sha256 3 ≠
      start.value .sha256 3 := by decide +kernel
  exact hextended (hkept.symm.trans htold)

end SampleTransport

open SampleTransport in
/-- The secret comes back from the first guest, and from the second it does not. -/
theorem decrypt_encrypt_sample :
    decrypt (guest debugged) 9 ⟨some (encryptionKey ++ [42]), true, .rsaOaep, .rsaSha256⟩ = some (.ok [42]) ∧
      decrypt (guest changed) 9 ⟨some (encryptionKey ++ [42]), true, .rsaOaep, .rsaSha256⟩ ≠ some (.ok [42]) := by
  have hsel : Tpm.getTssPcrSelection 24 attested .sha256 = .ok sel := by decide +kernel
  have hencrypt : encrypt SampleJwk.json openSsl.crypto ⟨some jwtToken, some [42], true, .rsaOaep, .rsaSha256⟩ =
      .ok (encryptionKey ++ [42]) := by decide +kernel
  have hephemeral : Tpm.getEphemeralKey device start attested = .ok ⟨encryptionKey, encryptionKey, []⟩ := by
    decide +kernel
  have hcount : 8 ≤ 24 ∧ 24 < 40 := by decide
  have hbatch : ∀ k : ℕ, 1 ≤ 3 := fun _ => by decide
  have hiff := fun before => decrypt_encrypt_iff (guest before) SampleJwk.json openSsl hcount hbatch 9 (by decide)
    attested attested_valuesOf sel hsel start _ hephemeral .rsaOaep .rsaSha256 jwtToken [42] _ tokenFor hencrypt
  constructor
  · obtain ⟨read, next, -, hreopened, -, hunextended⟩ := hiff debugged
    refine (hreopened (hunextended start rfl (fun _ _ => rfl) (fun k _ e he _ => ?_) fun e he => ?_)).1
    · rw [List.mem_singleton.1 he]
      decide
    · rw [List.mem_singleton.1 he]
      rfl
  · intro hdecrypt
    obtain ⟨read, next, hget, -, hseparated, -⟩ := hiff changed
    have hread : Tpm.ValuesOf getAttestationPcrList read := by
      have hlisted : Tpm.Listed 24 getAttestationPcrList := ⟨by decide, by decide, by decide⟩
      have hfuel : getAttestationPcrList.length < 9 := by decide
      obtain ⟨read', next', hget', hread, -⟩ := Tpm.getPCRValuesFrom_ok (guest changed).banks
        (guest changed).interleaving hbatch hlisted hfuel
      cases hget.symm.trans hget'
      exact hread
    apply changed_not_reopened (hseparated (separated ?_ _ _ _) hdecrypt)
    rintro pcrSet (rfl | rfl | rfl)
    · exact attested_valuesOf
    · exact hread
    · exact Tpm.recorded_valuesOf _ _

end CvmAttestation.Client
