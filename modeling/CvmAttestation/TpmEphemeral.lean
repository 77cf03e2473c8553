import CvmAttestation.TpmPcrCount

/-! The ephemeral key of an attestation. The TPM does not store it: `CreatePrimary` under the null hierarchy derives it
from a template whose policy digest a trial session computes from the register values at hand. To use the key,
`DecryptWithEphemeralKey` derives it again from the values of the moment and authorises it with a policy session, so
the key of an attestation is reached exactly while the attested registers keep their values. -/

namespace CvmAttestation.Tpm

open Base Base.Mask

inductive RsaScheme
  | rsaNull
  | rsaEs
  | rsaOaep
  deriving DecidableEq, Repr

inductive RsaHashAlg
  | rsaSha1
  | rsaSha256
  | rsaSha384
  | rsaSha512
  deriving DecidableEq, Repr

inductive ObjectAttribute
  | decrypt
  | fixedTpm
  | fixedParent
  | sensitiveDataOrigin
  | noDa
  deriving DecidableEq, Repr

inductive AlgId
  | rsa
  | sha256
  | null
  deriving DecidableEq, Repr

/-- The fields of `TPM2B_PUBLIC` that `PopulateEphemeralKeyPublicTemplate` fills in; all others are zero. -/
structure Template where
  type : AlgId
  nameAlg : AlgId
  objectAttributes : List ObjectAttribute
  uniqueSize : Nat
  scheme : AlgId
  exponent : Nat
  keyBits : Nat
  symmetric : AlgId
  authPolicy : Bytes
  deriving DecidableEq, Repr

/-- A loaded object: its key, and the policy from its public area that a session has to meet. -/
structure Loaded (Key : Type) where
  authPolicy : Bytes
  key : Key
  deriving DecidableEq, Repr

structure EphemeralKey where
  encryptionKey : Bytes
  certifyInfo : Bytes
  certifyInfoSignature : Bytes
  deriving DecidableEq, Repr

/-- The hash functions of OpenSSL and the commands of the TPM. -/
structure Device (Key : Type) where
  sha1 : Bytes → Bytes
  sha256 : Bytes → Bytes
  sha384 : Bytes → Bytes
  sha512 : Bytes → Bytes
  pcrCount : Nat
  createPrimary : Template → Key
  marshalPublic : Key → Bytes
  certify : Key → Except PcrError (Bytes × Bytes)
  rsaDecrypt : Key → RsaScheme → RsaHashAlg → Bytes → Except PcrError Bytes

section Key

variable {Key : Type} (dev : Device Key)

/-! ### Digests and sessions -/

/-- `_GetOpenSslAlg`. SM3 is not there: SHA-256 takes its place. -/
def getOpenSslAlg : HashAlg → Bytes → Bytes
  | .sha1 => dev.sha1
  | .sha256 => dev.sha256
  | .sha384 => dev.sha384
  | .sha512 => dev.sha512
  | .sm3_256 => dev.sha256

def generatePcrDigest (pcrSet : PcrSet) (hashAlg : HashAlg) : Bytes :=
  getOpenSslAlg dev hashAlg (pcrSet.pcrs.map PcrValue.digest).flatten

/-- `Tss2Util::GetTssHashAlg`, as two octets. -/
def getTssHashAlg : HashAlg → Bytes
  | .sha1 => [0x00, 0x04]
  | .sha256 => [0x00, 0x0B]
  | .sha384 => [0x00, 0x0C]
  | .sha512 => [0x00, 0x0D]
  | .sm3_256 => [0x00, 0x12]

/-- `TPML_PCR_SELECTION` with one entry, as the TPM hashes it. -/
def PcrSelection.marshal (sel : PcrSelection) : Bytes :=
  [0, 0, 0, 1] ++ getTssHashAlg sel.hash ++ [UInt8.ofNat sel.sizeofSelect] ++
    (sel.pcrSelect.take sel.sizeofSelect).map fun octet => UInt8.ofBitVec octet

inductive SessionType
  | trial
  | policy
  deriving DecidableEq, Repr

structure Session where
  type : SessionType
  digest : Bytes
  deriving DecidableEq, Repr

/-- `Tss2Session::Start`: the digest of a SHA-256 session is zero. -/
def Session.start (type : SessionType) : Session := ⟨type, List.replicate 32 0⟩

def policyPcrCode : Bytes := [0x00, 0x00, 0x01, 0x7F]

def PcrState.concat (s : PcrState) (sel : PcrSelection) : Bytes := (sel.selected.map (s.value sel.hash)).flatten

/-- `Tss2Session::PolicyPcr`. A policy session compares the digest with the registers, a trial session does not. -/
def Session.policyPcr (s : PcrState) (session : Session) (digest : Bytes) (sel : PcrSelection) :
    Except PcrError Session :=
  if session.type = .policy ∧ digest ≠ dev.sha256 (s.concat sel) then .error .policyPcr
  else .ok { session with digest := dev.sha256 (session.digest ++ policyPcrCode ++ sel.marshal ++ digest) }

/-! ### The key -/

def getEphemeralKeyPolicyDigest (s : PcrState) (pcrSet : PcrSet) : Except PcrError Bytes := do
  let pcrDigest := generatePcrDigest dev pcrSet pcrSet.hashAlg
  let pcrSelection ← getTssPcrSelection dev.pcrCount pcrSet pcrSet.hashAlg
  let session ← (Session.start .trial).policyPcr dev s pcrDigest pcrSelection
  return session.digest

def ephemeralTemplate (policyDigest : Bytes) : Template where
  type := .rsa
  nameAlg := .sha256
  objectAttributes := [.decrypt, .fixedTpm, .fixedParent, .sensitiveDataOrigin, .noDa]
  uniqueSize := 256
  scheme := .null
  exponent := 0
  keyBits := 2048
  symmetric := .null
  authPolicy := policyDigest

def populateEphemeralKeyPublicTemplate (s : PcrState) (pcrSet : PcrSet) : Except PcrError Template := do
  let policyDigest ← getEphemeralKeyPolicyDigest dev s pcrSet
  return ephemeralTemplate policyDigest

def createEphemeralKey (s : PcrState) (pcrSet : PcrSet) : Except PcrError (Loaded Key) := do
  let inPub ← populateEphemeralKeyPublicTemplate dev s pcrSet
  return ⟨inPub.authPolicy, dev.createPrimary inPub⟩

def getCertifiedKeyAndFlushHandle (key : Key) : Except PcrError EphemeralKey := do
  let (certifyInfo, signature) ← dev.certify key
  return ⟨dev.marshalPublic key, certifyInfo, signature⟩

def getEphemeralKey (s : PcrState) (pcrSet : PcrSet) : Except PcrError EphemeralKey := do
  let primary ← createEphemeralKey dev s pcrSet
  getCertifiedKeyAndFlushHandle dev primary.key

/-- `Tss2Wrapper::DecryptWithEphemeralKey` up to the point where `RSA_Decrypt` has authorised the use of the key: the
session has to have the digest that the key was created with. -/
def authorisedKey (s : PcrState) (pcrSet : PcrSet) (encryptedBlob : Bytes) : Except PcrError Key := do
  let primary ← createEphemeralKey dev s pcrSet
  let pcrDigest := generatePcrDigest dev pcrSet pcrSet.hashAlg
  let pcrSelection ← getTssPcrSelection dev.pcrCount pcrSet pcrSet.hashAlg
  let session ← (Session.start .policy).policyPcr dev s pcrDigest pcrSelection
  if 512 < encryptedBlob.length then throw .blobTooLarge
  if session.digest = primary.authPolicy then return primary.key
  else throw .policyCheck

def decryptWithEphemeralKey (s : PcrState) (pcrSet : PcrSet) (encryptedBlob : Bytes) (rsaWrapAlgId : RsaScheme)
    (rsaHashAlgId : RsaHashAlg) : Except PcrError Bytes := do
  let key ← authorisedKey dev s pcrSet encryptedBlob
  dev.rsaDecrypt key rsaWrapAlgId rsaHashAlgId encryptedBlob

/-! ### The key of a set -/

section Given

variable {pcrSet : PcrSet} {sel : PcrSelection} (hsel : getTssPcrSelection dev.pcrCount pcrSet pcrSet.hashAlg = .ok sel)

/-- The digest of a session that has been told about one set of values. -/
def policyOf (digest : Bytes) (sel : PcrSelection) : Bytes :=
  dev.sha256 (List.replicate 32 0 ++ policyPcrCode ++ sel.marshal ++ digest)

/-- The key that a set of values is given, whether the registers hold them or not. -/
def primaryOf (digest : Bytes) (sel : PcrSelection) : Loaded Key :=
  ⟨policyOf dev digest sel, dev.createPrimary (ephemeralTemplate (policyOf dev digest sel))⟩

include hsel in
/-- A trial session does not look at the registers. -/
theorem createEphemeralKey_eq (s : PcrState) :
    createEphemeralKey dev s pcrSet = .ok (primaryOf dev (generatePcrDigest dev pcrSet pcrSet.hashAlg) sel) := by
  have hdigest : getEphemeralKeyPolicyDigest dev s pcrSet =
      .ok (policyOf dev (generatePcrDigest dev pcrSet pcrSet.hashAlg) sel) := by
    rw [getEphemeralKeyPolicyDigest, hsel]
    rfl
  rw [createEphemeralKey, populateEphemeralKeyPublicTemplate, hdigest]
  rfl

include hsel in
/-- A policy session does: the key is authorised exactly where the digest of the set is that of the registers. -/
theorem authorisedKey_eq (s : PcrState) {encryptedBlob : Bytes} (hblob : encryptedBlob.length ≤ 512) :
    authorisedKey dev s pcrSet encryptedBlob =
      if generatePcrDigest dev pcrSet pcrSet.hashAlg = dev.sha256 (s.concat sel) then
        .ok (primaryOf dev (generatePcrDigest dev pcrSet pcrSet.hashAlg) sel).key
      else .error .policyPcr := by
  rw [authorisedKey, createEphemeralKey_eq dev hsel, hsel]
  generalize generatePcrDigest dev pcrSet pcrSet.hashAlg = digest
  have hsize : ¬ 512 < encryptedBlob.length := by omega
  by_cases heq : digest = dev.sha256 (s.concat sel)
  · have hpolicy : (Session.start .policy).policyPcr dev s digest sel = .ok ⟨.policy, policyOf dev digest sel⟩ := by
      rw [Session.policyPcr, if_neg (fun hne => hne.2 heq)]
      rfl
    rw [if_pos heq]
    simp only [bind, Except.bind, hpolicy, if_neg hsize, primaryOf, if_true]
    rfl
  · have hpolicy : (Session.start .policy).policyPcr dev s digest sel = .error .policyPcr := by
      rw [Session.policyPcr, if_pos ⟨rfl, heq⟩]
    rw [if_neg heq]
    simp only [bind, Except.bind, hpolicy]

end Given

/-! ### The key of a state -/

/-- Values of the SHA-256 bank that were read through a selection while the registers were in some state. -/
structure ReadFrom (pcrCount : Nat) (sel : PcrSelection) (s : PcrState) (pcrSet : PcrSet) : Prop where
  hashAlg : pcrSet.hashAlg = .sha256
  selection : getTssPcrSelection pcrCount pcrSet pcrSet.hashAlg = .ok sel
  values : (pcrSet.pcrs.map PcrValue.digest).flatten = s.concat sel

def policyDigest (s : PcrState) (sel : PcrSelection) : Bytes :=
  dev.sha256 (List.replicate 32 0 ++ policyPcrCode ++ sel.marshal ++ dev.sha256 (s.concat sel))

def keyOf (s : PcrState) (sel : PcrSelection) : Key := dev.createPrimary (ephemeralTemplate (policyDigest dev s sel))

section Read

variable {sel : PcrSelection} {s' : PcrState} {pcrSet : PcrSet} (h : ReadFrom dev.pcrCount sel s' pcrSet)

include h in
theorem generatePcrDigest_read : generatePcrDigest dev pcrSet pcrSet.hashAlg = dev.sha256 (s'.concat sel) := by
  rw [generatePcrDigest, h.values, h.hashAlg]
  rfl

include h in
/-- The key of values that were read, whatever the registers hold by now. -/
theorem createEphemeralKey_read (s : PcrState) :
    createEphemeralKey dev s pcrSet = .ok ⟨policyDigest dev s' sel, keyOf dev s' sel⟩ := by
  rw [createEphemeralKey_eq dev h.selection, generatePcrDigest_read dev h]
  rfl

include h in
/-- **The key of values that were read is authorised exactly while the registers hold them.** -/
theorem authorisedKey_read (s : PcrState) {encryptedBlob : Bytes} (hblob : encryptedBlob.length ≤ 512) :
    authorisedKey dev s pcrSet encryptedBlob =
      if dev.sha256 (s'.concat sel) = dev.sha256 (s.concat sel) then .ok (keyOf dev s' sel) else .error .policyPcr := by
  rw [authorisedKey_eq dev h.selection s hblob, generatePcrDigest_read dev h]
  rfl

end Read

section Selected

variable {sel : PcrSelection} {asc : List Nat} (h : sel.Holds .sha256 asc)

include h in
theorem concat_eq_iff (s s' : PcrState) :
    s.concat sel = s'.concat sel ↔ ∀ i ∈ asc, s.value .sha256 i = s'.value .sha256 i := by
  have hlength : (asc.map (s.value .sha256)).map List.length = (asc.map (s'.value .sha256)).map List.length := by
    simp [Function.comp_def, PcrState.size_eq]
  have hflatten := @List.eq_iff_flatten_eq _ (asc.map (s.value .sha256)) (asc.map (s'.value .sha256))
  rw [PcrState.concat, PcrState.concat, h.selected, h.hash, ← List.map_inj_left, hflatten, and_iff_left hlength]

include h in
theorem keyOf_eq_iff (hsha : Function.Injective dev.sha256) (hprimary : Function.Injective dev.createPrimary)
    (s s' : PcrState) : keyOf dev s sel = keyOf dev s' sel ↔ ∀ i ∈ asc, s.value .sha256 i = s'.value .sha256 i := by
  rw [← concat_eq_iff h]
  constructor
  · intro hkey
    have hpolicy : policyDigest dev s sel = policyDigest dev s' sel := congrArg Template.authPolicy (hprimary hkey)
    exact hsha (List.append_cancel_left (hsha hpolicy))
  · intro hconcat
    rw [keyOf, keyOf, policyDigest, policyDigest, hconcat]

end Selected

/-! ### Attesting and decrypting -/

/-- What `GetPCRValues` returns for a list that is accepted. -/
def readSet (pcrCount : Nat) (pcrs : List Nat) (s : PcrState) : PcrSet :=
  ⟨.sha256, fill (pcrs.map blank) ((ascending pcrCount pcrs).map (s.value .sha256))⟩

/-- The key that an attestation certifies is reached again later exactly where some registers hold what they held. -/
def ReachedWhile (kept pcrs : List Nat) (s₁ s₂ : PcrState) (batch₁ batch₂ : Nat → Nat) (fuel : Nat) : Prop :=
  ∃ set₁ set₂ attested,
    getPCRValues s₁ batch₁ dev.pcrCount pcrs .sha256 fuel = some (.ok set₁) ∧
    createEphemeralKey dev s₁ set₁ = .ok attested ∧
    getEphemeralKey dev s₁ set₁ = getCertifiedKeyAndFlushHandle dev attested.key ∧
    getPCRValues s₂ batch₂ dev.pcrCount pcrs .sha256 fuel = some (.ok set₂) ∧
    ∀ encryptedBlob : Bytes, encryptedBlob.length ≤ 512 →
      (authorisedKey dev s₂ set₂ encryptedBlob = .ok attested.key ↔
        ∀ i ∈ kept, s₁.value .sha256 i = s₂.value .sha256 i) ∧
      ∃ key, (key = attested.key ↔ ∀ i ∈ kept, s₁.value .sha256 i = s₂.value .sha256 i) ∧
        ∀ rsaWrapAlgId rsaHashAlgId,
          decryptWithEphemeralKey dev s₂ set₂ encryptedBlob rsaWrapAlgId rsaHashAlgId =
            dev.rsaDecrypt key rsaWrapAlgId rsaHashAlgId encryptedBlob

/-- A list with a register that the TPM does not have is refused at both times. -/
def RefusedTwice (pcrs : List Nat) (s₁ s₂ : PcrState) (batch₁ batch₂ : Nat → Nat) (fuel : Nat) : Prop :=
  (∃ i ∈ pcrs, dev.pcrCount ≤ i) ∧
    getPCRValues s₁ batch₁ dev.pcrCount pcrs .sha256 fuel = some (.error .indexOutOfRange) ∧
    getPCRValues s₂ batch₂ dev.pcrCount pcrs .sha256 fuel = some (.error .indexOutOfRange)

/-- In all states of the registers, and however the reads are split, the key of an attestation with a list is reached
again exactly while the listed registers keep their values. -/
structure ReopensExactly (pcrs : List Nat) : Prop where
  selectable : Selectable dev.pcrCount pcrs
  reopens : ∀ (s₁ s₂ : PcrState) (batch₁ batch₂ : Nat → Nat), (∀ k, 1 ≤ batch₁ k) → (∀ k, 1 ≤ batch₂ k) →
    ∀ fuel, pcrs.length < fuel →
      RefusedTwice dev pcrs s₁ s₂ batch₁ batch₂ fuel ∨ ReachedWhile dev pcrs pcrs s₁ s₂ batch₁ batch₂ fuel

section Reached

variable {pcrs : List Nat}

theorem readFrom_readSet {pcrCount : Nat} {sel : PcrSelection}
    (hsel : getTssPcrSelection pcrCount ⟨.sha256, pcrs.map blank⟩ .sha256 = .ok sel)
    (h : sel.Holds .sha256 (ascending pcrCount pcrs)) (s : PcrState) :
    ReadFrom pcrCount sel s (readSet pcrCount pcrs s) where
  hashAlg := rfl
  selection := by
    rw [← hsel]
    apply getTssPcrSelection_congr
    rw [readSet, map_index_fill, map_index_blank]
  values := by
    have hlen : ((ascending pcrCount pcrs).map (s.value .sha256)).length ≤ pcrs.length := by
      rw [List.length_map]
      exact length_ascending_le pcrCount pcrs
    rw [readSet, flatten_fill_blank _ _ hlen, PcrState.concat, h.selected, h.hash]

/-- **The registers that decide are those of the selection**, whichever are listed. -/
theorem reachedWhile_ascending (hsha : Function.Injective dev.sha256) (hprimary : Function.Injective dev.createPrimary)
    (hlt : ∀ i ∈ pcrs, i < dev.pcrCount) (hle : dev.pcrCount / 8 ≤ 4) (s₁ s₂ : PcrState) {batch₁ batch₂ : Nat → Nat}
    (hbatch₁ : ∀ k, 1 ≤ batch₁ k) (hbatch₂ : ∀ k, 1 ≤ batch₂ k) {fuel : Nat} (hfuel : pcrs.length < fuel) :
    ReachedWhile dev (ascending dev.pcrCount pcrs) pcrs s₁ s₂ batch₁ batch₂ fuel := by
  obtain ⟨sel, hsel, h⟩ := getTssPcrSelection_blank hlt hle .sha256
  have hread₁ := readFrom_readSet hsel h s₁
  have hread₂ := readFrom_readSet hsel h s₂
  have hcreate := createEphemeralKey_read dev hread₁ s₁
  have hcertify : getEphemeralKey dev s₁ (readSet dev.pcrCount pcrs s₁) =
      getCertifiedKeyAndFlushHandle dev (keyOf dev s₁ sel) := by
    rw [getEphemeralKey, hcreate]
    rfl
  refine ⟨_, _, _, getPCRValues_ok s₁ .sha256 hbatch₁ hlt hle hfuel, hcreate, hcertify,
    getPCRValues_ok s₂ .sha256 hbatch₂ hlt hle hfuel, fun encryptedBlob hblob => ?_⟩
  have hkey : keyOf dev s₂ sel = keyOf dev s₁ sel ↔
      ∀ i ∈ ascending dev.pcrCount pcrs, s₁.value .sha256 i = s₂.value .sha256 i := by
    rw [eq_comm, keyOf_eq_iff dev h hsha hprimary]
  have hauth := authorisedKey_read dev hread₂ s₂ hblob
  rw [if_pos rfl] at hauth
  refine ⟨?_, keyOf dev s₂ sel, hkey, fun rsaWrapAlgId rsaHashAlgId => ?_⟩
  · rw [← readSet, hauth, Except.ok.injEq]
    exact hkey
  · rw [decryptWithEphemeralKey, ← readSet, hauth]
    rfl

end Reached

/-- Registers that are all zero, but one. -/
def onlyAt (i : Nat) (b : UInt8) : PcrState where
  value hashAlg j := List.replicate hashAlg.size (if j = i then b else 0)
  size_eq _ _ := List.length_replicate

theorem onlyAt_ne (i : Nat) : (onlyAt i 0).value .sha256 i ≠ (onlyAt i 1).value .sha256 i := by
  simp [onlyAt, HashAlg.size]

theorem onlyAt_eq {i j : Nat} (hne : j ≠ i) : (onlyAt i 0).value .sha256 j = (onlyAt i 1).value .sha256 j := by
  simp [onlyAt, hne]

/-- A register that the selection has no octet for may change. -/
theorem covers_of_reopensExactly (hsha : Function.Injective dev.sha256)
    (hprimary : Function.Injective dev.createPrimary) {pcrs : List Nat} (h : ReopensExactly dev pcrs)
    (hlt : ∀ i ∈ pcrs, i < dev.pcrCount) : ∀ i ∈ pcrs, i < 8 * (dev.pcrCount / 8) := by
  intro i hi
  by_contra hlost
  have hle : dev.pcrCount / 8 ≤ 4 := ((selectable_iff hlt).1 h.selectable).2
  have hone : ∀ k : Nat, 1 ≤ 1 := fun _ => le_refl 1
  have hkept : ∀ j ∈ ascending dev.pcrCount pcrs, (onlyAt i 0).value .sha256 j = (onlyAt i 1).value .sha256 j := by
    intro j hj
    apply onlyAt_eq
    rintro rfl
    exact hlost (mem_ascending.1 hj).1
  rcases h.reopens (onlyAt i 0) (onlyAt i 1) _ _ hone hone _ (Nat.lt_succ_self _) with hrefused | hreached
  · obtain ⟨⟨j, hj, hge⟩, -⟩ := hrefused
    exact absurd (hlt j hj) (not_lt.2 hge)
  · obtain ⟨set₁, set₂, attested, hset₁, hcreate, -, hset₂, hopens⟩ := hreached
    obtain ⟨set₁', set₂', attested', hset₁', hcreate', -, hset₂', hopens'⟩ :=
      reachedWhile_ascending dev hsha hprimary hlt hle (onlyAt i 0) (onlyAt i 1) hone hone (Nat.lt_succ_self _)
    cases hset₁.symm.trans hset₁'
    cases hset₂.symm.trans hset₂'
    cases hcreate.symm.trans hcreate'
    have hauthorised := (hopens' [] (Nat.zero_le _)).1.2 hkept
    exact onlyAt_ne i ((hopens [] (Nat.zero_le _)).1.1 hauthorised i hi)

/-- **The certified key is reached again exactly while the listed registers keep their values**, for the lists that are
selected as they are. A list with a register that the TPM does not have is refused at both times; a register that there
is no octet for is accepted, and may change. -/
theorem ephemeralKey_reopened_iff (hsha : Function.Injective dev.sha256)
    (hprimary : Function.Injective dev.createPrimary) (pcrs : List Nat) (hascending : pcrs.Pairwise (· < ·)) :
    ReopensExactly dev pcrs ↔ Representable dev.pcrCount (pcrs.map blank) := by
  rw [representable_iff]
  constructor
  · exact fun h => ⟨h.selectable, covers_of_reopensExactly dev hsha hprimary h⟩
  · rintro ⟨hselectable, hcovers⟩
    refine ⟨hselectable, fun s₁ s₂ batch₁ batch₂ hbatch₁ hbatch₂ fuel hfuel => ?_⟩
    by_cases hlt : ∀ i ∈ pcrs, i < dev.pcrCount
    · have hle : dev.pcrCount / 8 ≤ 4 := ((selectable_iff hlt).1 hselectable).2
      have hreached := reachedWhile_ascending dev hsha hprimary hlt hle s₁ s₂ hbatch₁ hbatch₂ hfuel
      rw [ascending_eq ⟨hascending, hcovers hlt, hle⟩] at hreached
      exact .inr hreached
    · push Not at hlt
      exact .inl ⟨hlt, getPCRValues_error s₁ .sha256 hlt fuel, getPCRValues_error s₂ .sha256 hlt fuel⟩

end Key

namespace Sample

def registers (b : UInt8) : PcrState where
  value hashAlg _ := List.replicate hashAlg.size b
  size_eq _ _ := List.length_replicate

/-- A TPM with 24 registers, whose hash functions and key derivation keep what they are given. -/
def device : Device Template where
  sha1 := id
  sha256 := id
  sha384 := id
  sha512 := id
  pcrCount := 24
  createPrimary := id
  marshalPublic key := key.authPolicy
  certify key := .ok (key.authPolicy, [])
  rsaDecrypt _ _ _ blob := .ok blob

end Sample

open Sample in
/-- The list of an attestation on Linux, with registers that have changed between the two times. -/
theorem ephemeralKey_reopened_sample :
    ReopensExactly device [0, 1, 2, 3, 4, 5, 6, 7] ∧
      ∃ set₁ set₂ attested,
        getPCRValues (registers 1) (fun _ => 8) 24 [0, 1, 2, 3, 4, 5, 6, 7] .sha256 9 = some (.ok set₁) ∧
        createEphemeralKey device (registers 1) set₁ = .ok attested ∧
        getPCRValues (registers 2) (fun _ => 3) 24 [0, 1, 2, 3, 4, 5, 6, 7] .sha256 9 = some (.ok set₂) ∧
        authorisedKey device (registers 2) set₂ [7] ≠ .ok attested.key := by
  have hreopens : ReopensExactly device [0, 1, 2, 3, 4, 5, 6, 7] :=
    (ephemeralKey_reopened_iff device Function.injective_id Function.injective_id [0, 1, 2, 3, 4, 5, 6, 7]
      (by decide)).2 ⟨by decide, by decide⟩
  refine ⟨hreopens, ?_⟩
  rcases hreopens.reopens (registers 1) (registers 2) (fun _ => 8) (fun _ => 3) (fun _ => by decide)
    (fun _ => by decide) 9 (by decide) with ⟨hge, _⟩ | ⟨set₁, set₂, attested, hset₁, hkey, _, hset₂, hblob⟩
  · exact absurd hge (by decide)
  · have hchanged : ¬ ∀ i ∈ [0, 1, 2, 3, 4, 5, 6, 7], (registers 1).value .sha256 i = (registers 2).value .sha256 i := by
      decide
    exact ⟨set₁, set₂, attested, hset₁, hkey, hset₂, mt (hblob [7] (by decide)).1.1 hchanged⟩

open Sample in
/-- A TPM with 27 registers, and the list of register 25: the key is certified, and it is reached again after the
register has changed. -/
theorem ephemeralKey_reopened_lost_register :
    (∃ set attested, getPCRValues (registers 1) (fun _ => 8) 27 [25] .sha256 2 = some (.ok set) ∧
      createEphemeralKey { device with pcrCount := 27 } (registers 1) set = .ok attested ∧
      getPCRValues (registers 2) (fun _ => 8) 27 [25] .sha256 2 = some (.ok set) ∧
      authorisedKey { device with pcrCount := 27 } (registers 2) set [7] = .ok attested.key ∧
      (registers 1).value .sha256 25 ≠ (registers 2).value .sha256 25) ∧
    ¬ReopensExactly { device with pcrCount := 27 } [25] := by
  refine ⟨⟨⟨.sha256, [blank 25]⟩, _, by decide, rfl, by decide, by decide +kernel, by decide⟩, fun h => ?_⟩
  have hlt := covers_of_reopensExactly { device with pcrCount := 27 } Function.injective_id Function.injective_id h
    (by decide) 25 (by decide)
  exact absurd hlt (by decide)

end CvmAttestation.Tpm
