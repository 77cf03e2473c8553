import CvmAttestation.TpmPcrEntries

/-! The policy of the ephemeral key over the banks. Three hash functions meet in it: the bank has the one that its
registers are extended with, `GeneratePcrDigest` hashes their values with what OpenSSL has for the same bank, and the
sessions, which compare the digest with the registers, are of SHA-256. A trial session compares nothing, so a key is
made for any bank. -/

namespace CvmAttestation.Tpm

open Base Base.Mask

/-- The digests of OpenSSL have the lengths of their algorithms. -/
structure Device.HashSizes {Key : Type} (dev : Device Key) : Prop where
  sha1 : ∀ m, (dev.sha1 m).length = 20
  sha256 : ∀ m, (dev.sha256 m).length = 32
  sha384 : ∀ m, (dev.sha384 m).length = 48
  sha512 : ∀ m, (dev.sha512 m).length = 64

/-- A blob that whoever holds the private part of a public key, and the TPM with it, decrypts to a text. No RSA key of a
TPM makes longer ones. -/
structure EncryptedTo {Key : Type} (dev : Device Key) (encryptionKey : Bytes) (rsaWrapAlgId : RsaScheme)
    (rsaHashAlgId : RsaHashAlg) (plain encryptedBlob : Bytes) : Prop where
  length_le : encryptedBlob.length ≤ 512
  opens : ∀ key, dev.marshalPublic key = encryptionKey →
    dev.rsaDecrypt key rsaWrapAlgId rsaHashAlgId encryptedBlob = .ok plain

/-- A blob for the key of a set of values is decrypted with the same set, while the registers keep their values. -/
def KeyReopens {Key : Type} (dev : Device Key) (tpm : PcrTpm) (hashAlg : HashAlg) : Prop :=
  ∀ (split : Split) (pcrs : List Nat), (∀ i ∈ pcrs, tpm.allocated hashAlg i = true) → ∀ fuel pcrSet,
    tpm.getPCRValues split pcrs hashAlg fuel = some (.ok pcrSet) → ∀ ephemeral,
      getEphemeralKey dev tpm.registers pcrSet = .ok ephemeral → ∀ rsaWrapAlgId rsaHashAlgId plain encryptedBlob,
        EncryptedTo dev ephemeral.encryptionKey rsaWrapAlgId rsaHashAlgId plain encryptedBlob →
          decryptWithEphemeralKey dev tpm.registers pcrSet encryptedBlob rsaWrapAlgId rsaHashAlgId = .ok plain

/-- The banks whose values are hashed as the sessions hash them. -/
def HashAlg.OfSession (hashAlg : HashAlg) : Prop := hashAlg = .sha256 ∨ hashAlg = .sm3_256

instance (hashAlg : HashAlg) : Decidable hashAlg.OfSession := inferInstanceAs (Decidable (_ ∨ _))

section Key

variable {Key : Type} (dev : Device Key)

/-! ### The digest of a bank -/

theorem length_getOpenSslAlg (hsizes : dev.HashSizes) (hashAlg : HashAlg) (m : Bytes) :
    (getOpenSslAlg dev hashAlg m).length = hashAlg.size := by
  cases hashAlg with
  | sha1 => exact hsizes.sha1 m
  | sha256 => exact hsizes.sha256 m
  | sha384 => exact hsizes.sha384 m
  | sha512 => exact hsizes.sha512 m
  | sm3_256 => exact hsizes.sha256 m

theorem getOpenSslAlg_ofSession {hashAlg : HashAlg} (h : hashAlg.OfSession) : getOpenSslAlg dev hashAlg = dev.sha256 := by
  rcases h with rfl | rfl
  · rfl
  · rfl

/-- The digest of another bank does not even have the length of one that a session accepts. -/
theorem generatePcrDigest_ne (hsizes : dev.HashSizes) {pcrSet : PcrSet} (h : ¬ pcrSet.hashAlg.OfSession) (m : Bytes) :
    generatePcrDigest dev pcrSet pcrSet.hashAlg ≠ dev.sha256 m := by
  intro heq
  have hsize : pcrSet.hashAlg.size = 32 :=
    calc
      pcrSet.hashAlg.size = (generatePcrDigest dev pcrSet pcrSet.hashAlg).length :=
        (length_getOpenSslAlg dev hsizes _ _).symm
      _ = (dev.sha256 m).length := by rw [heq]
      _ = 32 := hsizes.sha256 m
  revert h hsize
  cases pcrSet.hashAlg <;> decide

section Given

variable {pcrSet : PcrSet} {sel : PcrSelection} (hsel : getTssPcrSelection dev.pcrCount pcrSet pcrSet.hashAlg = .ok sel)

include hsel in
/-- What the certified key is, and where it comes from. -/
theorem getEphemeralKey_eq_ok {s : PcrState} {ephemeral : EphemeralKey}
    (h : getEphemeralKey dev s pcrSet = .ok ephemeral) :
    dev.marshalPublic (primaryOf dev (generatePcrDigest dev pcrSet pcrSet.hashAlg) sel).key =
      ephemeral.encryptionKey := by
  rw [getEphemeralKey, createEphemeralKey_eq dev hsel] at h
  simp only [bind, Except.bind, getCertifiedKeyAndFlushHandle] at h
  split at h
  · cases h
  · rw [← Except.ok.inj h]

include hsel in
/-- **A key of another bank is never authorised**, whatever the registers hold then: it is made, certified and handed
out, and nothing that is encrypted to it is ever decrypted. -/
theorem decryptWithEphemeralKey_refused (hsizes : dev.HashSizes) (h : ¬ pcrSet.hashAlg.OfSession) (s : PcrState)
    {encryptedBlob : Bytes} (hblob : encryptedBlob.length ≤ 512) (rsaWrapAlgId : RsaScheme)
    (rsaHashAlgId : RsaHashAlg) :
    decryptWithEphemeralKey dev s pcrSet encryptedBlob rsaWrapAlgId rsaHashAlgId = .error .policyPcr := by
  rw [decryptWithEphemeralKey, authorisedKey_eq dev hsel s hblob, if_neg (generatePcrDigest_ne dev hsizes h _)]
  rfl

include hsel in
/-- Where the values of the set are those of the registers, in the order of the selection, a bank of the sessions' hash
function gives the key back. -/
theorem decryptWithEphemeralKey_ofSession (h : pcrSet.hashAlg.OfSession) {s : PcrState}
    (hvalues : (pcrSet.pcrs.map PcrValue.digest).flatten = s.concat sel) {encryptedBlob : Bytes}
    (hblob : encryptedBlob.length ≤ 512) (rsaWrapAlgId : RsaScheme) (rsaHashAlgId : RsaHashAlg) :
    decryptWithEphemeralKey dev s pcrSet encryptedBlob rsaWrapAlgId rsaHashAlgId =
      dev.rsaDecrypt (primaryOf dev (generatePcrDigest dev pcrSet pcrSet.hashAlg) sel).key rsaWrapAlgId rsaHashAlgId
        encryptedBlob := by
  have hdigest : generatePcrDigest dev pcrSet pcrSet.hashAlg = dev.sha256 (s.concat sel) := by
    rw [generatePcrDigest, getOpenSslAlg_ofSession dev h, hvalues]
  rw [decryptWithEphemeralKey, authorisedKey_eq dev hsel s hblob, if_pos hdigest]
  rfl

end Given

end Key

/-! ### The values of a bank -/

section Values

variable (tpm : PcrTpm) (split : Split) (hle : tpm.pcrCount / 8 ≤ 4) {pcrs : List Nat} {hashAlg : HashAlg} {fuel : Nat}
  {pcrSet : PcrSet} (hset : tpm.getPCRValues split pcrs hashAlg fuel = some (.ok pcrSet))

include hset in
theorem PcrTpm.lt_of_getPCRValues : ∀ i ∈ pcrs, i < tpm.pcrCount := by
  intro i hi
  by_contra hge
  have hmask : pcrMask tpm.pcrCount (pcrs.map blank) 0 = .error .indexOutOfRange :=
    pcrMask_error _ ⟨blank i, List.mem_map_of_mem hi, Nat.le_of_not_lt hge⟩ 0
  rw [PcrTpm.getPCRValues, getTssPcrSelection, hmask] at hset
  cases hset

include hle hset in
/-- The set that is read selects the registers of the list, and its digests are their values as the TPM hashes them. -/
theorem PcrTpm.getPCRValues_concat (hall : ∀ i ∈ ascending tpm.pcrCount pcrs, tpm.allocated hashAlg i = true) :
    pcrSet.hashAlg = hashAlg ∧ ∃ sel, getTssPcrSelection tpm.pcrCount pcrSet hashAlg = .ok sel ∧
      (pcrSet.pcrs.map PcrValue.digest).flatten = tpm.registers.concat sel := by
  have hlt := tpm.lt_of_getPCRValues split hset
  obtain rfl := tpm.getPCRValues_unique split hashAlg hlt hle hall hset
  generalize hentries : fill (pcrs.map blank) ((ascending tpm.pcrCount pcrs).map (tpm.registers.value hashAlg)) = entries
  have hindex : entries.map PcrValue.index = pcrs := by rw [← hentries, map_index_fill]
  have hlt' : ∀ pcr ∈ entries, pcr.index < tpm.pcrCount := by
    intro pcr hpcr
    apply hlt
    rw [← hindex]
    exact List.mem_map_of_mem hpcr
  obtain ⟨sel, hsel, hholds⟩ := @getTssPcrSelection_holds tpm.pcrCount ⟨hashAlg, entries⟩ hlt' hle hashAlg
  refine ⟨rfl, sel, hsel, ?_⟩
  have hlen : ((ascending tpm.pcrCount pcrs).map (tpm.registers.value hashAlg)).length ≤ pcrs.length := by
    rw [List.length_map]
    exact length_ascending_le tpm.pcrCount pcrs
  calc
    (entries.map PcrValue.digest).flatten
      = ((ascending tpm.pcrCount pcrs).map (tpm.registers.value hashAlg)).flatten := by
        rw [← hentries, flatten_fill_blank _ _ hlen]
    _ = ((ascending tpm.pcrCount (entries.map PcrValue.index)).map (tpm.registers.value hashAlg)).flatten := by
        rw [hindex]
    _ = tpm.registers.concat sel := by rw [PcrState.concat, hholds.selected, hholds.hash]

end Values

/-- **A blob for the ephemeral key is decrypted exactly where the values of the bank are hashed with SHA-256.** These are
the banks of SHA-256 and of SM3, for which OpenSSL's SHA-256 stands in. -/
theorem decryptWithEphemeralKey_iff {Key : Type} (dev : Device Key) (hsizes : dev.HashSizes) (tpm : PcrTpm)
    (hcount : dev.pcrCount = tpm.pcrCount) (hle : tpm.pcrCount / 8 ≤ 4) (split : Split) {pcrs : List Nat}
    {hashAlg : HashAlg} (hall : ∀ i ∈ pcrs, tpm.allocated hashAlg i = true) {fuel : Nat} {pcrSet : PcrSet}
    (hset : tpm.getPCRValues split pcrs hashAlg fuel = some (.ok pcrSet)) {ephemeral : EphemeralKey}
    (hkey : getEphemeralKey dev tpm.registers pcrSet = .ok ephemeral) {rsaWrapAlgId : RsaScheme}
    {rsaHashAlgId : RsaHashAlg} {plain encryptedBlob : Bytes}
    (hblob : EncryptedTo dev ephemeral.encryptionKey rsaWrapAlgId rsaHashAlgId plain encryptedBlob) :
    decryptWithEphemeralKey dev tpm.registers pcrSet encryptedBlob rsaWrapAlgId rsaHashAlgId = .ok plain ↔
      hashAlg = .sha256 ∨ hashAlg = .sm3_256 := by
  obtain ⟨rfl, sel, hsel, hvalues⟩ := tpm.getPCRValues_concat split hle hset
    fun i hi => hall i (mem_of_mem_ascending hi)
  rw [← hcount] at hsel
  change _ ↔ pcrSet.hashAlg.OfSession
  constructor
  · intro hplain
    by_contra hother
    rw [decryptWithEphemeralKey_refused dev hsel hsizes hother _ hblob.length_le] at hplain
    cases hplain
  · intro hsession
    rw [decryptWithEphemeralKey_ofSession dev hsel hsession hvalues hblob.length_le]
    exact hblob.opens _ (getEphemeralKey_eq_ok dev hsel hkey)

namespace Sample

/-- The first octets, as many as a digest has. -/
def digestOf (n : Nat) (m : Bytes) : Bytes := (m ++ List.replicate n 0).take n

theorem length_digestOf (n : Nat) (m : Bytes) : (digestOf n m).length = n := by
  rw [digestOf, List.length_take, List.length_append, List.length_replicate]
  omega

/-- A TPM that names a key by its policy, and puts the name of the key in front of what is encrypted to it. -/
def policyDevice : Device Template where
  sha1 := digestOf 20
  sha256 := digestOf 32
  sha384 := digestOf 48
  sha512 := digestOf 64
  pcrCount := 24
  createPrimary := id
  marshalPublic key := key.authPolicy
  certify key := .ok (key.authPolicy, [])
  rsaDecrypt key _ _ blob := if blob.take 32 = key.authPolicy then .ok (blob.drop 32) else .error .decrypt

theorem policyDevice_sizes : policyDevice.HashSizes where
  sha1 := length_digestOf 20
  sha256 := length_digestOf 32
  sha384 := length_digestOf 48
  sha512 := length_digestOf 64

/-- A TPM with all banks. -/
def allBanks : PcrTpm := { pcrTpm with allocated := fun _ _ => true }

def eachRead : Split := ⟨fun _ => 8, fun _ => by decide⟩

/-- The registers of a Linux guest are read and given a key, in any bank. -/
theorem policyDevice_key (hashAlg : HashAlg) (plain : Bytes) (hplain : plain.length ≤ 480) :
    ∃ pcrSet ephemeral, allBanks.getPCRValues eachRead [0, 1, 2, 3, 4, 5, 6, 7] hashAlg 9 = some (.ok pcrSet) ∧
      getEphemeralKey policyDevice allBanks.registers pcrSet = .ok ephemeral ∧
      ∀ rsaWrapAlgId rsaHashAlgId, EncryptedTo policyDevice ephemeral.encryptionKey rsaWrapAlgId rsaHashAlgId plain
        (ephemeral.encryptionKey ++ plain) := by
  have hset := allBanks.getPCRValues_ok eachRead hashAlg (by decide : ∀ i ∈ [0, 1, 2, 3, 4, 5, 6, 7], i < 24)
    (by decide) (fun _ _ => rfl) (by decide : 8 < 9)
  obtain ⟨halg, sel, hsel, -⟩ := allBanks.getPCRValues_concat eachRead (by decide) hset (fun _ _ => rfl)
  generalize fill _ _ = entries at hset hsel
  generalize hdigest : generatePcrDigest policyDevice ⟨hashAlg, entries⟩ hashAlg = digest
  have hlength : (policyOf policyDevice digest sel).length = 32 := length_digestOf 32 _
  have hkey : getEphemeralKey policyDevice allBanks.registers ⟨hashAlg, entries⟩ =
      .ok ⟨policyOf policyDevice digest sel, policyOf policyDevice digest sel, []⟩ := by
    rw [getEphemeralKey, createEphemeralKey_eq policyDevice hsel, hdigest]
    rfl
  refine ⟨⟨hashAlg, entries⟩, _, hset, hkey, fun _ _ => ⟨?_, fun key hpublic => ?_⟩⟩
  · rw [List.length_append, hlength]
    omega
  · have hname : key.authPolicy = policyOf policyDevice digest sel := hpublic
    calc
      policyDevice.rsaDecrypt key _ _ (policyOf policyDevice digest sel ++ plain)
        = if (policyOf policyDevice digest sel ++ plain).take 32 = key.authPolicy then
            .ok ((policyOf policyDevice digest sel ++ plain).drop 32) else .error .decrypt := rfl
      _ = .ok plain := by
        rw [← hlength, List.take_left, List.drop_left, if_pos hname.symm]

end Sample

open Sample in
/-- A key of the SHA-256 bank, and what is encrypted to it. -/
theorem decryptWithEphemeralKey_sha256 :
    ∃ pcrSet ephemeral, allBanks.getPCRValues eachRead [0, 1, 2, 3, 4, 5, 6, 7] .sha256 9 = some (.ok pcrSet) ∧
      decryptWithEphemeralKey policyDevice allBanks.registers pcrSet (ephemeral ++ [42]) .rsaOaep .rsaSha256 =
        .ok [42] := by
  obtain ⟨pcrSet, ephemeral, hset, hkey, hblob⟩ := policyDevice_key .sha256 [42] (by decide)
  exact ⟨pcrSet, ephemeral.encryptionKey, hset, (decryptWithEphemeralKey_iff policyDevice policyDevice_sizes allBanks rfl
    (by decide) eachRead (fun _ _ => rfl) hset hkey (hblob .rsaOaep .rsaSha256)).2 (.inl rfl)⟩

open Sample in
/-- Nothing that is encrypted to a key of the SHA-1, the SHA-384 or the SHA-512 bank is decrypted. -/
theorem keyReopens_other :
    ¬ KeyReopens policyDevice allBanks .sha1 ∧ ¬ KeyReopens policyDevice allBanks .sha384 ∧
      ¬ KeyReopens policyDevice allBanks .sha512 := by
  have hother : ∀ hashAlg : HashAlg, ¬ hashAlg.OfSession → ¬ KeyReopens policyDevice allBanks hashAlg := by
    intro hashAlg hother hreopens
    obtain ⟨pcrSet, ephemeral, hset, hkey, hblob⟩ := policyDevice_key hashAlg [42] (by decide)
    have hplain := hreopens eachRead _ (fun _ _ => rfl) 9 pcrSet hset ephemeral hkey .rsaOaep .rsaSha256 [42] _
      (hblob .rsaOaep .rsaSha256)
    obtain ⟨rfl, sel, hsel, -⟩ := allBanks.getPCRValues_concat eachRead (by decide) hset (fun _ _ => rfl)
    rw [decryptWithEphemeralKey_refused policyDevice hsel policyDevice_sizes hother _
      (hblob .rsaOaep .rsaSha256).length_le] at hplain
    cases hplain
  exact ⟨hother .sha1 (by decide), hother .sha384 (by decide), hother .sha512 (by decide)⟩

end CvmAttestation.Tpm
