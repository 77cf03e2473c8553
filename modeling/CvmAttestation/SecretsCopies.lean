import CvmAttestation.BaseLayout
import CvmAttestation.SecretsCreate
import CvmAttestation.TpmEphemeral

/-! Copies of data whose length a token decides. The wrapped transport key goes into a structure of fixed capacity on its
way to the TPM, and the private key that the transport key protects goes into a blob that is sized by the scalar alone,
with the coordinates of the point written at an unsigned difference of lengths. Neither copy compares the lengths. -/

namespace CvmAttestation.Secrets

open Base

/-! ### RSA with the key of the TPM -/

/-- `TPM2_MAX_RSA_KEY_BYTES` -/
def maxRsaKeyBytes : Nat := 512

/-- `TPM2B_PUBLIC_KEY_RSA`: a 16-bit size and a buffer of `TPM2_MAX_RSA_KEY_BYTES` bytes. -/
structure PublicKeyRsa where
  size : Nat
  buffer : Bytes
  deriving DecidableEq, Repr

/-- `std::copy` into the buffer of a zeroed structure, and the size; `none` is a copy that leaves the buffer. -/
def PublicKeyRsa.ofData (data : Bytes) : Option PublicKeyRsa :=
  (overwrite (List.replicate maxRsaKeyBytes 0) 0 data).map fun buffer => ⟨data.length % 2 ^ 16, buffer⟩

inductive RsaDecryptScheme
  | rsaes
  | oaepSha256
  deriving DecidableEq, Repr

def makeRsaScheme : RsaPaddingScheme → RsaDecryptScheme
  | .rsaesOaep => .oaepSha256
  | .rsaes => .rsaes

/-- Which calls of the TSS succeed, and what the two RSA commands return. -/
structure Esys where
  setAuthOwner : Bool
  trFromTpmPublic : Bool
  setAuthPrimary : Bool
  rsaEncrypt : PublicKeyRsa → RsaDecryptScheme → Option Bytes
  rsaDecrypt : PublicKeyRsa → RsaDecryptScheme → Option Bytes

section Rsa

variable (E : Esys)

theorem ErrorCode.handlePresent_ne : ErrorCode.tpmErrorHandlesHandlePresentError ≠ .success := by decide

def Exc.setAuth : Exc := .tpmError ⟨.tpmErrorAuthSetAuthError, by decide⟩

def Exc.handlePresent : Exc := .tpmError ⟨.tpmErrorHandlesHandlePresentError, ErrorCode.handlePresent_ne⟩

/-- `Tss2Wrapper::Tss2RsaDecrypt` up to what it hands to the TPM. -/
def tss2RsaDecryptInput (encryptedData : Bytes) : Option (Except Exc PublicKeyRsa) :=
  if ¬E.setAuthOwner then some (.error .setAuth)
  else if ¬E.trFromTpmPublic then some (.error .handlePresent)
  else if ¬E.setAuthPrimary then some (.error .setAuth)
  else (PublicKeyRsa.ofData encryptedData).map .ok

def tss2RsaDecrypt (encryptedData : Bytes) (paddingScheme : RsaPaddingScheme) : Option (Except Exc Bytes) :=
  (tss2RsaDecryptInput E encryptedData).map fun input => do
    let cipher ← input
    match E.rsaDecrypt cipher (makeRsaScheme paddingScheme) with
    | none => throw (.tpmError ⟨.cryptographyErrorTpmRsaDecryptError, by decide⟩)
    | some plain => return plain

/-- `Tss2Wrapper::Tss2RsaEncrypt` up to what it hands to the TPM. -/
def tss2RsaEncryptInput (plaintextData : Bytes) : Option (Except Exc PublicKeyRsa) :=
  if ¬E.trFromTpmPublic then some (.error .handlePresent)
  else if ¬E.setAuthPrimary then some (.error .setAuth)
  else (PublicKeyRsa.ofData plaintextData).map .ok

def tss2RsaEncrypt (plaintextData : Bytes) (paddingScheme : RsaPaddingScheme) : Option (Except Exc Bytes) :=
  (tss2RsaEncryptInput E plaintextData).map fun input => do
    let plain ← input
    match E.rsaEncrypt plain (makeRsaScheme paddingScheme) with
    | none => throw (.tpmError ⟨.cryptographyErrorTpmRsaEncryptError, by decide⟩)
    | some cipher => return cipher

/-- Nothing is written outside the buffer, the TPM gets the data with their real length, and data that do not fit are
refused. -/
def Bounded (run : Option (Except Exc PublicKeyRsa)) (data : Bytes) : Prop :=
  ∃ outcome, run = some outcome ∧
    (∀ input, outcome = .ok input → input.size = data.length ∧ input.buffer.take input.size = data) ∧
    (maxRsaKeyBytes < data.length → ∃ e, outcome = .error e)

theorem ofData_fits {data : Bytes} (h : data.length ≤ maxRsaKeyBytes) :
    PublicKeyRsa.ofData data = some ⟨data.length, filled data maxRsaKeyBytes⟩ := by
  have hsize : data.length % 2 ^ 16 = data.length := by
    apply Nat.mod_eq_of_lt
    exact lt_of_le_of_lt h (by decide)
  rw [PublicKeyRsa.ofData, overwrite_zeros h, Option.map_some, hsize]

theorem ofData_none_iff {data : Bytes} : PublicKeyRsa.ofData data = none ↔ maxRsaKeyBytes < data.length := by
  constructor
  · intro hnone
    by_contra hshort
    rw [ofData_fits (Nat.le_of_not_lt hshort)] at hnone
    cases hnone
  · intro hlong
    rw [PublicKeyRsa.ofData, overwrite_eq_none (by rwa [List.length_replicate, Nat.zero_add]), Option.map_none]

theorem bounded_error (e : Exc) (data : Bytes) : Bounded (some (.error e)) data :=
  ⟨_, rfl, nofun, fun _ => ⟨e, rfl⟩⟩

/-- The copy without a check of the length. -/
theorem bounded_ofData_iff (data : Bytes) :
    Bounded ((PublicKeyRsa.ofData data).map .ok) data ↔ data.length ≤ maxRsaKeyBytes := by
  constructor
  · rintro ⟨outcome, hrun, -⟩
    by_contra hlong
    rw [ofData_none_iff.2 (Nat.lt_of_not_le hlong)] at hrun
    cases hrun
  · intro h
    refine ⟨_, by rw [ofData_fits h, Option.map_some], ?_, fun hlong => absurd h (Nat.not_le_of_lt hlong)⟩
    intro input hinput
    cases hinput
    exact ⟨rfl, (take_filled le_rfl h).trans (filled_length data)⟩

/-- The function of the client library that decrypts with an ephemeral key checks the length before it copies. -/
theorem decryptWithEphemeralKey_long {Key : Type} (dev : Tpm.Device Key) (s : Tpm.PcrState) (pcrSet : Tpm.PcrSet)
    {data : Bytes} (h : maxRsaKeyBytes < data.length) (rsaWrapAlgId : Tpm.RsaScheme) (rsaHashAlgId : Tpm.RsaHashAlg) :
    ∃ e, Tpm.decryptWithEphemeralKey dev s pcrSet data rsaWrapAlgId rsaHashAlgId = .error e := by
  have hlong : 512 < data.length := h
  unfold Tpm.decryptWithEphemeralKey Tpm.authorisedKey
  cases Tpm.createEphemeralKey dev s pcrSet with
  | error e => exact ⟨e, rfl⟩
  | ok primary =>
      cases Tpm.getTssPcrSelection dev.pcrCount pcrSet pcrSet.hashAlg with
      | error e => exact ⟨e, rfl⟩
      | ok sel =>
          simp only [bind, Except.bind]
          cases (Tpm.Session.start .policy).policyPcr dev s (Tpm.generatePcrDigest dev pcrSet pcrSet.hashAlg) sel with
          | error e => exact ⟨e, rfl⟩
          | ok session =>
              simp only [if_pos hlong]
              exact ⟨.blobTooLarge, rfl⟩

/-- **When the two RSA functions keep inside the buffer**: the data fit, or one of the calls before the copy fails. The
function of the client library that decrypts with an ephemeral key refuses all data that do not fit. -/
theorem tss2Rsa_bounded_iff (data : Bytes) :
    (Bounded (tss2RsaDecryptInput E data) data ↔
      data.length ≤ maxRsaKeyBytes ∨ E.setAuthOwner = false ∨ E.trFromTpmPublic = false ∨ E.setAuthPrimary = false) ∧
    (Bounded (tss2RsaEncryptInput E data) data ↔
      data.length ≤ maxRsaKeyBytes ∨ E.trFromTpmPublic = false ∨ E.setAuthPrimary = false) ∧
    ∀ (Key : Type) (dev : Tpm.Device Key) s pcrSet rsaWrapAlgId rsaHashAlgId, maxRsaKeyBytes < data.length →
      ∃ e, Tpm.decryptWithEphemeralKey dev s pcrSet data rsaWrapAlgId rsaHashAlgId = .error e := by
  refine ⟨?_, ?_, fun Key dev s pcrSet rsaWrapAlgId rsaHashAlgId hlong =>
    decryptWithEphemeralKey_long dev s pcrSet hlong rsaWrapAlgId rsaHashAlgId⟩
  · unfold tss2RsaDecryptInput
    cases E.setAuthOwner <;> cases E.trFromTpmPublic <;> cases E.setAuthPrimary <;>
      simp [bounded_error, bounded_ofData_iff]
  · unfold tss2RsaEncryptInput
    cases E.trFromTpmPublic <;> cases E.setAuthPrimary <;> simp [bounded_error, bounded_ofData_iff]

/-- Data that do not fit end the whole call in a write behind the buffer, whatever the TPM would answer. -/
theorem tss2RsaDecrypt_none_iff (data : Bytes) (paddingScheme : RsaPaddingScheme) :
    tss2RsaDecrypt E data paddingScheme = none ↔
      maxRsaKeyBytes < data.length ∧ E.setAuthOwner = true ∧ E.trFromTpmPublic = true ∧ E.setAuthPrimary = true := by
  unfold tss2RsaDecrypt tss2RsaDecryptInput
  cases E.setAuthOwner <;> cases E.trFromTpmPublic <;> cases E.setAuthPrimary <;> simp [ofData_none_iff]

theorem tss2RsaEncrypt_none_iff (data : Bytes) (paddingScheme : RsaPaddingScheme) :
    tss2RsaEncrypt E data paddingScheme = none ↔
      maxRsaKeyBytes < data.length ∧ E.trFromTpmPublic = true ∧ E.setAuthPrimary = true := by
  unfold tss2RsaEncrypt tss2RsaEncryptInput
  cases E.trFromTpmPublic <;> cases E.setAuthPrimary <;> simp [ofData_none_iff]

end Rsa

namespace Sample

def esys : Esys := ⟨true, true, true, fun input _ => some (input.buffer.take input.size),
  fun input _ => some (input.buffer.take input.size)⟩

end Sample

/-- The text of a claim that decodes to 513 bytes, which are then copied over the end of the buffer. -/
theorem tss2RsaDecrypt_overflow :
    Encoders.base64Decode (Encoders.base64Encode (List.replicate 513 0)) = .ok (List.replicate 513 0) ∧
      ¬Bounded (tss2RsaDecryptInput Sample.esys (List.replicate 513 0)) (List.replicate 513 0) := by
  refine ⟨Encoders.base64Decode_encode _, ?_⟩
  rintro ⟨outcome, hrun, -⟩
  have hnone : tss2RsaDecryptInput Sample.esys (List.replicate 513 0) = none := by decide +kernel
  rw [hnone] at hrun
  cases hrun

/-! ### The private key of the guest -/

/-- `CRYPT_ECC_PRIVATE_KEY_INFO`, as far as it is read: the scalar, and the encoded point, which is empty when it is
absent. The lengths are 32-bit numbers. -/
structure EccPrivateKeyInfo where
  privateKey : Bytes
  publicKey : Bytes
  privateKey_lt : privateKey.length < 2 ^ 32
  publicKey_lt : publicKey.length < 2 ^ 32

inductive EccExc
  | winCryptError (code : FailureCode)
  | bcryptError (code : FailureCode)
  | std
  deriving DecidableEq, Repr

theorem ErrorCode.x509PrivKey_ne : ErrorCode.parsingErrorAsn1X509PrivKeyError ≠ .success := by decide

theorem ErrorCode.bcryptKey_ne : ErrorCode.libraryErrorBcryptKeyError ≠ .success := by decide

def EccExc.x509PrivKey : EccExc := .winCryptError ⟨.parsingErrorAsn1X509PrivKeyError, ErrorCode.x509PrivKey_ne⟩

def ecUncompressedBlob : UInt8 := 0x04

def ecUnknownAsnByte : UInt8 := 0x06

def ecUnknownAsnByte2 : UInt8 := 0x07

/-- `BCRYPT_ECDH_PRIVATE_P256_MAGIC` -/
def ecdhPrivateP256Magic : Nat := 0x324B4345

/-- `BCRYPT_ECCKEY_BLOB` -/
def eccKeyBlob (cbKey : Nat) : Bytes := toLittleEndian 4 ecdhPrivateP256Magic ++ toLittleEndian 4 cbKey

section Ecc

variable (allocates : Nat → Bool) (info : EccPrivateKeyInfo)

/-- The point is absent or starts with one of the three bytes that are let through. -/
def EccPrivateKeyInfo.pointOk : Bool :=
  match info.publicKey with
  | [] => true
  | lead :: _ => lead = ecUncompressedBlob ∨ lead = ecUnknownAsnByte ∨ lead = ecUnknownAsnByte2

def EccPrivateKeyInfo.cbPubKey : Nat := (info.publicKey.length - 1) / 2

def EccPrivateKeyInfo.cbKey : Nat := info.privateKey.length

/-- The two `CopyMemory` of the coordinates, for the blob that starts with the header. -/
def copyPoint (blob : Bytes) : Option Bytes :=
  let cbKey := info.cbKey
  let cbPubKey := info.cbPubKey
  let coordinates := info.publicKey.drop 1
  if 0 < cbPubKey then
    if cbKey = cbPubKey then overwrite blob 8 (coordinates.take (2 * cbKey % 2 ^ 32))
    else do
      let off := (cbKey + 2 ^ 32 - cbPubKey) % 2 ^ 32
      let blob ← overwrite blob (8 + off) (coordinates.take cbPubKey)
      overwrite blob (8 + cbKey + off) ((coordinates.drop cbPubKey).take cbPubKey)
  else some blob

/-- `BcryptECDiffieHellman::ImportPkcs8PrivateKey` after the key is decoded, up to the blob that is handed to BCrypt;
`none` is a run that writes outside the blob. A scalar that is shorter than the coordinates is only logged. -/
def importedBlob : Option (Except EccExc Bytes) :=
  if ¬info.pointOk then some (.error .x509PrivKey)
  else
    let cbKey := info.cbKey
    let cbKeyBlob := (8 + 3 * cbKey) % 2 ^ 32
    if ¬allocates cbKeyBlob then some (.error .std)
    else do
      let blob ← overwrite (List.replicate cbKeyBlob 0) 0 (eccKeyBlob cbKey)
      let blob ← copyPoint info blob
      let blob ← overwrite blob (8 + 2 * cbKey % 2 ^ 32) info.privateKey
      if cbKeyBlob ≠ 8 + 3 * cbKey % 2 ^ 32 then return .error .x509PrivKey
      else return .ok blob

/-- The ASN.1 decoder of the system, and the import of BCrypt. -/
structure Windows where
  decodePrivateKeyInfo : Bytes → Option Bytes
  decodeEccPrivateKey : Bytes → Option EccPrivateKeyInfo
  importKeyPair : Bytes → Bool
  allocates : Nat → Bool

/-- The whole function: whether it returns, raises or leaves the blob. -/
def importPkcs8PrivateKey (W : Windows) (derPrivateKey : Bytes) : Option (Except EccExc Unit) :=
  match W.decodePrivateKeyInfo derPrivateKey with
  | none => some (.error .x509PrivKey)
  | some privateKey =>
    match W.decodeEccPrivateKey privateKey with
    | none => some (.error .x509PrivKey)
    | some info =>
      (importedBlob W.allocates info).map fun imported => do
        let blob ← imported
        if W.importKeyPair blob then return ()
        else throw (.bcryptError ⟨.libraryErrorBcryptKeyError, ErrorCode.bcryptKey_ne⟩)

/-- A coordinate with zeros before it. -/
def padLeft (n : Nat) (d : Bytes) : Bytes := List.replicate (n - d.length) 0 ++ d

/-- What is to be handed to BCrypt: the coordinates, padded to the length of the scalar, and the scalar. -/
def expectedBlob : Except EccExc Bytes :=
  if ¬info.pointOk then .error .x509PrivKey
  else if info.cbKey < info.cbPubKey then .error .x509PrivKey
  else
    let coordinates := info.publicKey.drop 1
    .ok (eccKeyBlob info.cbKey ++ padLeft info.cbKey (coordinates.take info.cbPubKey) ++
      padLeft info.cbKey ((coordinates.drop info.cbPubKey).take info.cbPubKey) ++ info.privateKey)

/-! ### What the copies leave in the blob -/

@[simp] theorem length_eccKeyBlob (cbKey : Nat) : (eccKeyBlob cbKey).length = 8 := by simp [eccKeyBlob]

theorem length_padLeft {n : Nat} {d : Bytes} (h : d.length ≤ n) : (padLeft n d).length = n := by
  rw [padLeft, List.length_append, List.length_replicate]
  omega

theorem padLeft_eq_self {n : Nat} {d : Bytes} (h : d.length = n) : padLeft n d = d := by
  rw [padLeft, h, Nat.sub_self, List.replicate_zero, List.nil_append]

/-- A write that leaves room for the zeros before its bytes. -/
theorem overwrite_padLeft {done d : Bytes} {size n : Nat} (hd : d.length ≤ n) (hfits : done.length + n ≤ size) :
    overwrite (filled done size) (done.length + (n - d.length)) d = some (filled (done ++ padLeft n d) size) := by
  rw [overwrite_filled_gap (by omega), padLeft, List.append_assoc]

section

variable {info}

theorem EccPrivateKeyInfo.coordinates_le : 2 * info.cbPubKey ≤ (info.publicKey.drop 1).length := by
  rw [List.length_drop, EccPrivateKeyInfo.cbPubKey]
  omega

theorem EccPrivateKeyInfo.cbPubKey_lt : 2 * info.cbPubKey < 2 ^ 32 := by
  have := info.publicKey_lt
  rw [EccPrivateKeyInfo.cbPubKey]
  omega

theorem EccPrivateKeyInfo.length_x : ((info.publicKey.drop 1).take info.cbPubKey).length = info.cbPubKey := by
  have := info.coordinates_le
  rw [List.length_take]
  omega

theorem EccPrivateKeyInfo.length_y :
    (((info.publicKey.drop 1).drop info.cbPubKey).take info.cbPubKey).length = info.cbPubKey := by
  have := info.coordinates_le
  rw [List.length_take, List.length_drop]
  omega

/-- Coordinates that are no longer than the scalar stand in the blob with zeros before them. -/
theorem copyPoint_eq (hle : info.cbPubKey ≤ info.cbKey) (hfits : 8 + 3 * info.cbKey < 2 ^ 32) :
    copyPoint info (filled (eccKeyBlob info.cbKey) (8 + 3 * info.cbKey)) =
      some (filled (eccKeyBlob info.cbKey ++ padLeft info.cbKey ((info.publicKey.drop 1).take info.cbPubKey) ++
        padLeft info.cbKey (((info.publicKey.drop 1).drop info.cbPubKey).take info.cbPubKey))
        (8 + 3 * info.cbKey)) := by
  have hx := info.length_x
  have hy := info.length_y
  rw [copyPoint]
  generalize info.cbKey = k at *
  generalize info.cbPubKey = c at *
  generalize info.publicKey.drop 1 = coords at *
  have hheader := length_eccKeyBlob k
  split_ifs with hpos heq
  · subst heq
    -- Both coordinates at once.
    have hmod : 2 * k % 2 ^ 32 = k + k := by
      rw [Nat.mod_eq_of_lt (by omega)]
      omega
    have hboth : coords.take (k + k) = coords.take k ++ (coords.drop k).take k := List.take_add
    have hwrite := @overwrite_filled (eccKeyBlob k) (coords.take k ++ (coords.drop k).take k) (8 + 3 * k)
      (by rw [List.length_append, hheader, hx, hy]; omega)
    rw [hheader] at hwrite
    rw [hmod, hboth, hwrite, padLeft_eq_self hx, padLeft_eq_self hy, List.append_assoc]
  · have hoff : (k + 2 ^ 32 - c) % 2 ^ 32 = k - c := by omega
    have hfirst := @overwrite_padLeft (eccKeyBlob k) (coords.take c) (8 + 3 * k) k (by rwa [hx])
      (by rw [hheader]; omega)
    have hlen : (eccKeyBlob k ++ padLeft k (coords.take c)).length = 8 + k := by
      rw [List.length_append, hheader, length_padLeft (by rwa [hx])]
    have hsecond := @overwrite_padLeft (eccKeyBlob k ++ padLeft k (coords.take c)) ((coords.drop c).take c)
      (8 + 3 * k) k (by rwa [hy]) (by rw [hlen]; omega)
    rw [hheader, hx] at hfirst
    rw [hlen, hy] at hsecond
    simp only [hoff, hfirst, Option.bind_eq_bind, Option.bind_some, hsecond]
  · obtain rfl : c = 0 := by omega
    have hzeros := @filled_zeros (eccKeyBlob k) (8 + 3 * k) (k + k) (by rw [hheader]; omega)
    rw [← hzeros]
    simp only [List.take_zero, padLeft, List.length_nil, Nat.sub_zero, List.append_nil, List.append_assoc,
      List.replicate_append_replicate]

/-- A key that is consistent and not too long gives the blob that BCrypt is to get. -/
theorem importedBlob_eq (hok : info.pointOk = true) (hle : info.cbPubKey ≤ info.cbKey)
    (hfits : 8 + 3 * info.cbKey < 2 ^ 32) (hheap : allocates (8 + 3 * info.cbKey) = true) :
    importedBlob allocates info = some (expectedBlob info) := by
  have hsize : (8 + 3 * info.cbKey) % 2 ^ 32 = 8 + 3 * info.cbKey := Nat.mod_eq_of_lt hfits
  have hkey : 3 * info.cbKey % 2 ^ 32 = 3 * info.cbKey := Nat.mod_eq_of_lt (by omega)
  have htwo : 2 * info.cbKey % 2 ^ 32 = 2 * info.cbKey := Nat.mod_eq_of_lt (by omega)
  have hheader := @overwrite_zeros (eccKeyBlob info.cbKey) (8 + 3 * info.cbKey) (by rw [length_eccKeyBlob]; omega)
  have hlast := overwrite_last
    (eccKeyBlob info.cbKey ++ padLeft info.cbKey ((info.publicKey.drop 1).take info.cbPubKey) ++
      padLeft info.cbKey (((info.publicKey.drop 1).drop info.cbPubKey).take info.cbPubKey)) info.privateKey
  have hlen : (eccKeyBlob info.cbKey ++ padLeft info.cbKey ((info.publicKey.drop 1).take info.cbPubKey) ++
      padLeft info.cbKey (((info.publicKey.drop 1).drop info.cbPubKey).take info.cbPubKey)).length =
      8 + 2 * info.cbKey := by
    rw [List.length_append, List.length_append, length_eccKeyBlob, length_padLeft (by rwa [info.length_x]),
      length_padLeft (by rwa [info.length_y])]
    omega
  have hwhole : 8 + 2 * info.cbKey + info.privateKey.length = 8 + 3 * info.cbKey := by
    rw [EccPrivateKeyInfo.cbKey]
    omega
  rw [hlen, hwhole] at hlast
  simp only [importedBlob, expectedBlob, hok, not_true, if_false, hheap, hsize, hkey, htwo, hheader,
    Option.bind_eq_bind, Option.bind_some, copyPoint_eq hle hfits, hlast, ne_eq, Nat.not_lt_of_le hle]
  rfl

/-- Coordinates that are longer than the scalar are written behind the blob. -/
theorem importedBlob_long (hok : info.pointOk = true) (hlt : info.cbKey < info.cbPubKey)
    (hheap : allocates ((8 + 3 * info.cbKey) % 2 ^ 32) = true) : importedBlob allocates info = none := by
  have hbound := info.cbPubKey_lt
  have hoff : (info.cbKey + 2 ^ 32 - info.cbPubKey) % 2 ^ 32 = info.cbKey + 2 ^ 32 - info.cbPubKey :=
    Nat.mod_eq_of_lt (by omega)
  simp only [importedBlob, hok, not_true, if_false, hheap]
  cases hheader : overwrite (List.replicate ((8 + 3 * info.cbKey) % 2 ^ 32) 0) 0 (eccKeyBlob info.cbKey) with
  | none => rfl
  | some blob =>
      have hblob : blob.length < 2 ^ 32 := by
        rw [length_overwrite hheader, List.length_replicate]
        exact Nat.mod_lt _ (by decide)
      have hwrite : overwrite blob (8 + (info.cbKey + 2 ^ 32 - info.cbPubKey))
          ((info.publicKey.drop 1).take info.cbPubKey) = none := by
        apply overwrite_eq_none
        rw [info.length_x]
        omega
      have hpos : 0 < info.cbPubKey := by omega
      have hcopy : copyPoint info blob = none := by
        simp only [copyPoint, if_pos hpos, if_neg (Nat.ne_of_lt hlt), hoff, hwrite, Option.bind_eq_bind,
          Option.bind_none]
      simp only [Option.bind_eq_bind, Option.bind_some, hcopy, Option.bind_none]

theorem length_copyPoint {blob blob' : Bytes} (h : copyPoint info blob = some blob') : blob'.length = blob.length := by
  simp only [copyPoint] at h
  split_ifs at h
  · exact length_overwrite h
  · obtain ⟨blob₁, hfirst, hsecond⟩ := Option.bind_eq_some_iff.1 h
    rw [length_overwrite hsecond, length_overwrite hfirst]
  · rw [Option.some.inj h]

/-- A blob that is handed on has the size that was allocated, whatever was copied. -/
theorem length_importedBlob {blob : Bytes} (h : importedBlob allocates info = some (.ok blob)) :
    blob.length = (8 + 3 * info.cbKey) % 2 ^ 32 := by
  simp only [importedBlob] at h
  split_ifs at h
  · simp [Option.bind_eq_some_iff] at h
  · simp only [Option.bind_eq_bind, Option.bind_eq_some_iff] at h
    obtain ⟨blob₁, hheader, blob₂, hpoint, blob₃, hscalar, hlast⟩ := h
    cases hlast
    rw [length_overwrite hscalar, length_copyPoint hpoint, length_overwrite hheader, List.length_replicate]
  · cases h
  · cases h

theorem length_expectedBlob {blob : Bytes} (h : expectedBlob info = .ok blob) : blob.length = 8 + 3 * info.cbKey := by
  unfold expectedBlob at h
  split_ifs at h with hok hlt
  cases h
  have hle : info.cbPubKey ≤ info.cbKey := Nat.le_of_not_lt hlt
  simp only [List.length_append, length_eccKeyBlob]
  rw [length_padLeft (by rwa [info.length_x]), length_padLeft (by rwa [info.length_y])]
  have : info.privateKey.length = info.cbKey := rfl
  omega

theorem importedBlob_noMemory (hok : info.pointOk = true)
    (hheap : allocates ((8 + 3 * info.cbKey) % 2 ^ 32) = false) :
    importedBlob allocates info = some (.error .std) := by
  simp only [importedBlob, hok, not_true, if_false, hheap]
  rfl

theorem expectedBlob_ne_std : expectedBlob info ≠ .error .std := by
  unfold expectedBlob
  split_ifs
  · intro h
    cases h
  · intro h
    cases h
  · intro h
    cases h

/-- **When the import keeps inside the blob and hands the padded key to BCrypt**: the form of the point is refused, or the
coordinates are no longer than the scalar, and the size of the blob fits its 32-bit variable and can be had. -/
theorem importedBlob_iff (info : EccPrivateKeyInfo) :
    importedBlob allocates info = some (expectedBlob info) ↔
      info.pointOk = false ∨
        info.cbPubKey ≤ info.cbKey ∧ 8 + 3 * info.cbKey < 2 ^ 32 ∧ allocates (8 + 3 * info.cbKey) = true := by
  cases hok : info.pointOk with
  | false => simp [importedBlob, expectedBlob, hok]
  | true =>
      rw [Bool.true_eq_false, false_or]
      constructor
      · intro h
        have hheap : allocates ((8 + 3 * info.cbKey) % 2 ^ 32) = true := by
          by_contra hnone
          rw [importedBlob_noMemory allocates hok (Bool.eq_false_iff.2 hnone)] at h
          exact expectedBlob_ne_std (Option.some.inj h).symm
        have hle : info.cbPubKey ≤ info.cbKey := by
          by_contra hlt
          rw [importedBlob_long allocates hok (Nat.lt_of_not_le hlt) hheap] at h
          cases h
        have hexpected : ∃ blob, expectedBlob info = .ok blob := by
          simp [expectedBlob, hok, Nat.not_lt_of_le hle]
        obtain ⟨blob, hblob⟩ := hexpected
        rw [hblob] at h
        have hsize : 8 + 3 * info.cbKey = (8 + 3 * info.cbKey) % 2 ^ 32 :=
          calc
            8 + 3 * info.cbKey = blob.length := (length_expectedBlob hblob).symm
            _ = (8 + 3 * info.cbKey) % 2 ^ 32 := length_importedBlob allocates h
        rw [← hsize] at hheap
        refine ⟨hle, ?_, hheap⟩
        rw [hsize]
        exact Nat.mod_lt _ (by decide)
      · rintro ⟨hle, hfits, hheap⟩
        exact importedBlob_eq allocates hok hle hfits hheap

/-- For a key with longer coordinates, the whole call ends in a write behind the blob. -/
theorem importPkcs8PrivateKey_long (W : Windows) {derPrivateKey privateKey : Bytes}
    (hder : W.decodePrivateKeyInfo derPrivateKey = some privateKey)
    (hecc : W.decodeEccPrivateKey privateKey = some info) (hok : info.pointOk = true)
    (hlt : info.cbKey < info.cbPubKey) (hheap : W.allocates ((8 + 3 * info.cbKey) % 2 ^ 32) = true) :
    importPkcs8PrivateKey W derPrivateKey = none := by
  simp only [importPkcs8PrivateKey, hder, hecc, importedBlob_long W.allocates hok hlt hheap, Option.map_none]

end

end Ecc

namespace Sample

/-- A scalar of 31 bytes, as it is when its first byte is zero and not written, and a point with coordinates of 32. -/
def shortScalar : EccPrivateKeyInfo where
  privateKey := List.replicate 31 1
  publicKey := 4 :: List.replicate 64 2
  privateKey_lt := by decide
  publicKey_lt := by decide

end Sample

/-- The key is to be refused, and its coordinates are written four gigabytes behind the blob. -/
theorem importedBlob_shortScalar :
    expectedBlob Sample.shortScalar = .error .x509PrivKey ∧
      importedBlob (fun _ => true) Sample.shortScalar ≠ some (expectedBlob Sample.shortScalar) := by
  refine ⟨by decide +kernel, ?_⟩
  rw [importedBlob_long (fun _ => true) (by decide +kernel) (by decide +kernel) rfl]
  nofun

end CvmAttestation.Secrets
