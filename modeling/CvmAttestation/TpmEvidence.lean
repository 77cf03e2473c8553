import CvmAttestation.TpmAikCert
import CvmAttestation.TpmReopen

/-! The evidence of the TPM: `GetTpmInfo` takes a quote, then reads the registers, then makes a key for the values it has
read. Nothing here compares the quote with the values; whoever receives the evidence does. A key in evidence that
passes this comparison is bound to the values of the moment of the quote. -/

namespace CvmAttestation.Tpm

open Base

/-! ### Sized buffers -/

/-- A buffer of the TPM, with the most bytes that it holds. -/
structure Tpm2b (capacity : ℕ) where
  buffer : Bytes
  fits : buffer.length ≤ capacity

def Tpm2b.marshal {capacity : ℕ} (b : Tpm2b capacity) : Bytes :=
  UInt8.ofNat (b.buffer.length / 256) :: UInt8.ofNat b.buffer.length :: b.buffer

/-- The size is refused when the buffer could not hold it, or when less is left. -/
def unmarshal2b (capacity : ℕ) : Bytes → Option (Tpm2b capacity)
  | high :: low :: rest =>
    let size := 256 * high.toNat + low.toNat
    if h : size ≤ capacity ∧ size ≤ rest.length then some ⟨rest.take size, (List.length_take_le size rest).trans h.1⟩
    else none
  | _ => none

theorem unmarshal2b_marshal {capacity : ℕ} (hcapacity : capacity < 2 ^ 16) (b : Tpm2b capacity) :
    unmarshal2b capacity b.marshal = some b := by
  obtain ⟨buffer, fits⟩ := b
  have hsize : 256 * (UInt8.ofNat (buffer.length / 256)).toNat + (UInt8.ofNat buffer.length).toNat = buffer.length := by
    rw [UInt8.toNat_ofNat', UInt8.toNat_ofNat']
    omega
  unfold Tpm2b.marshal unmarshal2b
  simp only [hsize, fits, le_refl, and_self, dite_true, List.take_length]

/-- The signature schemes of RSA. -/
inductive SigAlg
  | rsassa
  | rsapss
  deriving DecidableEq, Repr

def SigAlg.low : SigAlg → UInt8
  | rsassa => 0x14
  | rsapss => 0x16

def SigAlg.ofLow (c : UInt8) : Option SigAlg := if c = 0x14 then some .rsassa else if c = 0x16 then some .rsapss else none

/-- `TPMT_SIGNATURE`, as a key of RSA makes it. -/
structure RsaSignature where
  sigAlg : SigAlg
  hash : UInt8 × UInt8
  sig : Tpm2b 512

def RsaSignature.marshal (signature : RsaSignature) : Bytes :=
  0 :: signature.sigAlg.low :: signature.hash.1 :: signature.hash.2 :: signature.sig.marshal

def unmarshalSignature : Bytes → Option RsaSignature
  | 0 :: low :: high :: hash :: rest => do
    let sigAlg ← SigAlg.ofLow low
    let sig ← unmarshal2b 512 rest
    return ⟨sigAlg, (high, hash), sig⟩
  | _ => none

theorem unmarshalSignature_marshal (signature : RsaSignature) :
    unmarshalSignature signature.marshal = some signature := by
  obtain ⟨sigAlg, hash, sig⟩ := signature
  have hlow : SigAlg.ofLow sigAlg.low = some sigAlg := by cases sigAlg <;> rfl
  have hsig : unmarshal2b 512 sig.marshal = some sig := unmarshal2b_marshal (by decide) sig
  unfold RsaSignature.marshal unmarshalSignature
  simp only [hlow, hsig]
  rfl

/-! ### The evidence -/

inductive EvidenceCall
  | openAik
  | readAikPub
  | openSigner
  | quote
  deriving DecidableEq, Repr

inductive EvidenceError
  | nvRead (e : Tss2Error)
  | failed (call : EvidenceCall)
  | pcr (e : PcrError)
  | unmarshal
  deriving DecidableEq, Repr

/-- The attestation key: what it quotes and signs, and what can be read from a quote. -/
structure AttestationKey (capacity : ℕ) where
  marshalPublic : Bytes
  attest : PcrSelection → Bytes → Tpm2b capacity
  sign : Tpm2b capacity → RsaSignature
  quoted : Bytes → Option (PcrSelection × Bytes)
  fails : EvidenceCall → Bool

structure PcrQuote where
  quote : Bytes
  signature : Bytes
  deriving DecidableEq, Repr

/-- What `GetTpmInfo` collects. -/
structure Evidence where
  aikCert : Bytes
  aikPub : Bytes
  pcrValues : PcrSet
  pcrQuote : PcrQuote
  encryptionKey : EphemeralKey
  deriving DecidableEq

section

variable {capacity : ℕ} (ak : AttestationKey capacity)

def AttestationKey.attempt (call : EvidenceCall) : Except EvidenceError Unit :=
  if ak.fails call then .error (.failed call) else .ok ()

def getAIKPub : Except EvidenceError Bytes := do
  ak.attempt .openAik
  ak.attempt .readAikPub
  return ak.marshalPublic

/-- `Tss2Wrapper::UnpackPcrQuoteToRSA`. -/
def unpackPcrQuoteToRSA (capacity : ℕ) (pcrQuoteMarshaled : PcrQuote) : Except EvidenceError PcrQuote :=
  match unmarshal2b capacity pcrQuoteMarshaled.quote, unmarshalSignature pcrQuoteMarshaled.signature with
  | some quote, some signature => .ok ⟨quote.buffer, signature.sig.buffer⟩
  | _, _ => .error .unmarshal

variable {Key : Type} (dev : Device Key)

/-- `Tss2Wrapper::GetPCRQuote`; the registers are hashed by the TPM. -/
def getPCRQuote (s : PcrState) (pcrs : List ℕ) (hashAlg : HashAlg) : Except EvidenceError PcrQuote := do
  ak.attempt .openSigner
  let pcrSelect ← (getTssPcrSelection dev.pcrCount ⟨hashAlg, pcrs.map blank⟩ hashAlg).mapError .pcr
  ak.attempt .quote
  let outQuote := ak.attest pcrSelect (dev.sha256 (s.concat pcrSelect))
  return ⟨outQuote.marshal, (ak.sign outQuote).marshal⟩

variable (B : Banks) (I : Interleaving)

/-- The run that is left after the first command. -/
def Interleaving.rest : Interleaving := ⟨I.after B 1, fun k => I.before (k + 1)⟩

/-- `GetTpmInfo`. Command 0 is the quote; the commands of `GetPCRValues` follow, and then those of `GetEphemeralKey`. -/
def getTpmInfo (nv : NvStore) (reads : ShortReads) (batch : ℕ → ℕ) (pcrs : List ℕ) (fuel : ℕ) :
    Option (Except EvidenceError Evidence) :=
  (getPCRValuesFrom B (I.rest B) batch dev.pcrCount pcrs .sha256 fuel).map fun outcome => do
    let aikCert ← ((getAIKCert reads).exec nv).1.mapError .nvRead
    let aikPub ← getAIKPub ak
    let pcrQuoteMarshaled ← getPCRQuote ak dev (I.atCommand B 0) pcrs .sha256
    let pcrQuote ← unpackPcrQuoteToRSA capacity pcrQuoteMarshaled
    let (pcrValues, next) ← outcome.mapError .pcr
    let encryptionKey ← (getEphemeralKey dev ((I.rest B).atCommand B next) pcrValues).mapError .pcr
    return ⟨aikCert, aikPub, pcrValues, pcrQuote, encryptionKey⟩

/-- The quote is one of the values beside it. -/
def Evidence.Matches (info : Evidence) : Prop :=
  ∃ sel, getTssPcrSelection dev.pcrCount info.pcrValues info.pcrValues.hashAlg = .ok sel ∧
    ak.quoted info.pcrQuote.quote = some (sel, dev.sha256 info.pcrValues.values)

end

section

variable {capacity : ℕ} {ak : AttestationKey capacity} {Key : Type} {dev : Device Key} {B : Banks} {I : Interleaving}
  {pcrs : List ℕ}

theorem rest_atCommand (k : ℕ) : (I.rest B).atCommand B k = I.atCommand B (k + 1) := by
  have hafter : ∀ k, (I.rest B).after B k = I.after B (k + 1) := by
    intro k
    induction k with
    | zero => rfl
    | succ k ih => exact congrArg (fun s : PcrState => s.extendAll B (I.before (k + 1))) ih
  exact hafter (k + 1)

/-- What is unpacked is what the TPM has quoted. -/
theorem unpack_getPCRQuote (hcapacity : capacity < 2 ^ 16) {s : PcrState} {sel : PcrSelection}
    (hsel : getTssPcrSelection dev.pcrCount ⟨.sha256, pcrs.map blank⟩ .sha256 = .ok sel) {quote pcrQuote : PcrQuote}
    (hquote : getPCRQuote ak dev s pcrs .sha256 = .ok quote) (hunpack : unpackPcrQuoteToRSA capacity quote = .ok pcrQuote) :
    pcrQuote.quote = (ak.attest sel (dev.sha256 (s.concat sel))).buffer := by
  unfold getPCRQuote at hquote
  rw [hsel] at hquote
  obtain ⟨-, -, hquote⟩ := bind_returns.1 hquote
  obtain ⟨_, hsel', hquote⟩ := bind_returns.1 hquote
  cases hsel'
  obtain ⟨-, -, hquote⟩ := bind_returns.1 hquote
  cases hquote
  unfold unpackPcrQuoteToRSA at hunpack
  rw [unmarshal2b_marshal hcapacity, unmarshalSignature_marshal] at hunpack
  cases hunpack
  rfl

/-- What evidence is made of. -/
theorem getTpmInfo_ok (hcapacity : capacity < 2 ^ 16) {sel : PcrSelection}
    (hsel : getTssPcrSelection dev.pcrCount ⟨.sha256, pcrs.map blank⟩ .sha256 = .ok sel) {nv : NvStore}
    {reads : ShortReads} {batch : ℕ → ℕ} {fuel : ℕ} {read : PcrSet} {next : ℕ}
    (hget : getPCRValuesFrom B (I.rest B) batch dev.pcrCount pcrs .sha256 fuel = some (.ok (read, next))) {info : Evidence}
    (hinfo : getTpmInfo ak dev B I nv reads batch pcrs fuel = some (.ok info)) :
    info.pcrValues = read ∧ info.pcrQuote.quote = (ak.attest sel (dev.sha256 ((I.atCommand B 0).concat sel))).buffer ∧
      ∃ s, getEphemeralKey dev s read = .ok info.encryptionKey := by
  unfold getTpmInfo at hinfo
  rw [hget, Option.map_some, Option.some.injEq] at hinfo
  obtain ⟨aikCert, -, hinfo⟩ := bind_returns.1 hinfo
  obtain ⟨aikPub, -, hinfo⟩ := bind_returns.1 hinfo
  obtain ⟨quote, hquote, hinfo⟩ := bind_returns.1 hinfo
  obtain ⟨pcrQuote, hunpack, hinfo⟩ := bind_returns.1 hinfo
  obtain ⟨_, hread, hinfo⟩ := bind_returns.1 hinfo
  cases hread
  obtain ⟨encryptionKey, hkey, hinfo⟩ := bind_returns.1 hinfo
  cases hinfo
  refine ⟨rfl, unpack_getPCRQuote hcapacity hsel hquote hunpack, (I.rest B).atCommand B next, ?_⟩
  cases hephemeral : getEphemeralKey dev ((I.rest B).atCommand B next) read with
  | ok ephemeral =>
      rw [hephemeral] at hkey
      cases hkey
      rfl
  | error e =>
      rw [hephemeral] at hkey
      cases hkey

/-- Registers that nobody extends after the quote are read as they were quoted. -/
theorem read_eq_quoted {read : PcrSet} {next : ℕ}
    (hstill : ∀ s : PcrState, (∀ k < next, ∀ i ∈ pcrs, ((I.rest B).atCommand B k).value .sha256 i = s.value .sha256 i) →
      read = recorded s pcrs)
    (hquiet : ∀ k, 0 < k → k ≤ next → ∀ e ∈ I.before k, e.hashAlg = .sha256 → e.index ∉ pcrs) :
    read = recorded (I.atCommand B 0) pcrs := by
  apply hstill
  intro k hk i hi
  rw [rest_atCommand]
  apply atCommand_value (Nat.zero_le (k + 1)) _ hi
  intro j hj hjk
  exact hquiet j hj (by omega)

end

/-- **A key in evidence whose quote is one of its values is bound to the quoted values.** The evidence passes exactly when
the values that were read have the digest of those at the moment of the quote, which they have when no listed register
is extended after it until the last read. If it passes and there is no collision, the key opens in every later run
exactly where the registers hold the quoted values when they are read and when the session is told, and no counted
extend comes between that and the use of the key. -/
theorem getTpmInfo_bound {capacity : ℕ} (hcapacity : capacity < 2 ^ 16) (ak : AttestationKey capacity) {Key : Type}
    (dev : Device Key) (B : Banks) (I : Interleaving) (nv : NvStore) (reads : ShortReads) {batch : ℕ → ℕ}
    (hbatch : ∀ k, 1 ≤ batch k) {pcrs : List ℕ} (hlisted : Listed dev.pcrCount pcrs) {fuel : ℕ}
    (hfuel : pcrs.length < fuel) {sel : PcrSelection}
    (hsel : getTssPcrSelection dev.pcrCount ⟨.sha256, pcrs.map blank⟩ .sha256 = .ok sel)
    (hquoted : ak.quoted (ak.attest sel (dev.sha256 ((I.atCommand B 0).concat sel))).buffer =
      some (sel, dev.sha256 ((I.atCommand B 0).concat sel))) :
    let quoted := recorded (I.atCommand B 0) pcrs
    ∃ read next outcome, getPCRValuesFrom B (I.rest B) batch dev.pcrCount pcrs .sha256 fuel = some (.ok (read, next)) ∧
      getTpmInfo ak dev B I nv reads batch pcrs fuel = some outcome ∧
      ∀ info, outcome = .ok info →
        (info.Matches ak dev ↔ dev.sha256 info.pcrValues.values = dev.sha256 quoted.values) ∧
        ((∀ k, 0 < k → k ≤ next → ∀ e ∈ I.before k, e.hashAlg = .sha256 → e.index ∉ pcrs) → info.Matches ak dev) ∧
        (Set.InjOn dev.sha256 {info.pcrValues.values, quoted.values} → info.Matches ak dev →
          ∀ (later : Interleaving) (counted : ℕ → Bool) (rsaWrapAlgId : RsaScheme) (rsaHashAlgId : RsaHashAlg)
            (plain encryptedBlob : Bytes),
            EncryptedTo dev info.encryptionKey.encryptionKey rsaWrapAlgId rsaHashAlgId plain encryptedBlob →
              ∃ read' next', getPCRValuesFrom B later batch dev.pcrCount pcrs .sha256 fuel = some (.ok (read', next')) ∧
                (Reopened B later counted pcrs quoted read' next' →
                  decryptDuring B later dev counted batch pcrs fuel encryptedBlob rsaWrapAlgId rsaHashAlgId =
                    some (.ok plain)) ∧
                (Separated dev sel info.encryptionKey.encryptionKey rsaWrapAlgId rsaHashAlgId plain encryptedBlob
                    {quoted, read', recorded (later.atCommand B next') pcrs} →
                  decryptDuring B later dev counted batch pcrs fuel encryptedBlob rsaWrapAlgId rsaHashAlgId =
                      some (.ok plain) →
                    Reopened B later counted pcrs quoted read' next')) := by
  intro quoted
  obtain ⟨sel', hsel', hholds⟩ := getTssPcrSelection_listed hlisted .sha256
  obtain rfl : sel' = sel := Except.ok.inj (hsel'.symm.trans hsel)
  obtain ⟨read, next, hget, hread, hstill⟩ := getPCRValuesFrom_ok B (I.rest B) hbatch hlisted hfuel
  obtain ⟨outcome, houtcome⟩ : ∃ outcome, getTpmInfo ak dev B I nv reads batch pcrs fuel = some outcome := by
    rw [getTpmInfo, hget]
    exact ⟨_, rfl⟩
  refine ⟨read, next, outcome, hget, houtcome, ?_⟩
  rintro info rfl
  obtain ⟨rfl, hquote, s, hkey⟩ := getTpmInfo_ok hcapacity hsel hget houtcome
  have hselRead : getTssPcrSelection dev.pcrCount info.pcrValues info.pcrValues.hashAlg = .ok sel' := by
    rw [← hsel, hread.hashAlg]
    exact getTssPcrSelection_congr (hread.index.trans (map_index_blank pcrs).symm) .sha256
  have hmatches : info.Matches ak dev ↔ dev.sha256 info.pcrValues.values = dev.sha256 quoted.values := by
    unfold Evidence.Matches
    rw [hquote, hquoted, ← values_recorded hholds]
    constructor
    · rintro ⟨_, -, hdigest⟩
      exact (congrArg Prod.snd (Option.some.inj hdigest)).symm
    · intro hdigest
      exact ⟨sel', hselRead, by rw [hdigest]⟩
  refine ⟨hmatches, fun hquiet => ?_, ?_⟩
  · rw [hmatches, read_eq_quoted hstill hquiet]
  · intro hinj hpass later counted rsaWrapAlgId rsaHashAlgId plain encryptedBlob hblob
    have hvalues : info.pcrValues.values = quoted.values := hinj (by simp) (by simp) (hmatches.1 hpass)
    have heq : info.pcrValues = quoted := hread.eq_of_values (recorded_valuesOf _ _) hvalues
    rw [heq] at hkey hselRead
    obtain ⟨read', next', hget', hopens, hcloses, -⟩ := decryptDuring_iff B later counted hlisted hbatch hfuel
      (recorded_valuesOf _ _) hselRead hkey hblob
    exact ⟨read', next', hget', hopens, hcloses⟩

namespace Sample

def attestationPcrs : List ℕ := [0, 1, 2, 3, 4, 5, 6, 7]

def attestationSel : PcrSelection := ⟨.sha256, 3, octets 0xff#32⟩

theorem length_take_attest (digest : Bytes) : (digest.take 1024).length ≤ 1024 := List.length_take_le 1024 digest

theorem length_rsaSignature : [(1 : UInt8), 2, 3].length ≤ 512 := by decide

/-- A key that quotes the digest itself. -/
def attestationKey : AttestationKey 1024 where
  marshalPublic := [5]
  attest _ digest := ⟨digest.take 1024, length_take_attest digest⟩
  sign _ := ⟨.rsassa, (0, 0x0B), [1, 2, 3], length_rsaSignature⟩
  quoted quote := some (attestationSel, quote)
  fails _ := false

/-- Register 3 is extended between the quote and the first read. -/
def extendedAfterQuote : Interleaving := ⟨registers 1, fun k => if k = 1 then [⟨.sha256, 3, [9]⟩] else []⟩

def unextended : Interleaving := ⟨registers 1, fun _ => []⟩

/-- The evidence from registers that held the value 1 at the quote. -/
def collected (values : PcrSet) : Evidence where
  aikCert := [1]
  aikPub := [5]
  pcrValues := values
  pcrQuote := ⟨(recorded (registers 1) attestationPcrs).values, [1, 2, 3]⟩
  encryptionKey := ⟨policyText device attestationSel values, policyText device attestationSel values, []⟩

end Sample

open Sample in
/-- Evidence that was collected without extends passes, and its key opens; after an extend it does not pass. -/
theorem getTpmInfo_bound_sample :
    (collected (recorded (registers 1) attestationPcrs)).Matches attestationKey device ∧
      decryptDuring banks unextended device (fun _ => true) (fun _ => 3) attestationPcrs 9 [7] .rsaOaep .rsaSha256 =
        some (.ok [7]) ∧
      ∃ info, getTpmInfo attestationKey device banks extendedAfterQuote sampleStore .full (fun _ => 3) attestationPcrs 9 =
        some (.ok info) ∧ ¬info.Matches attestationKey device := by
  have hlisted : Listed 24 attestationPcrs := ⟨by decide, by decide, by decide⟩
  have hsel : getTssPcrSelection 24 ⟨.sha256, attestationPcrs.map blank⟩ .sha256 = .ok attestationSel := by
    decide +kernel
  have hbatch : ∀ k : ℕ, 1 ≤ 3 := fun _ => by decide
  have hfuel : attestationPcrs.length < 9 := by decide
  have hbound := fun I hquoted => @getTpmInfo_bound 1024 (by decide) attestationKey _ device banks I sampleStore .full
    (fun _ => 3) hbatch attestationPcrs hlisted 9 hfuel attestationSel hsel hquoted
  have hquiet : getTpmInfo attestationKey device banks unextended sampleStore .full (fun _ => 3) attestationPcrs 9 =
      some (.ok (collected (recorded (registers 1) attestationPcrs))) := by decide +kernel
  have hextended : getTpmInfo attestationKey device banks extendedAfterQuote sampleStore .full (fun _ => 3)
      attestationPcrs 9 =
        some (.ok (collected (recorded (extendedAfterQuote.atCommand banks 1) attestationPcrs))) := by decide +kernel
  obtain ⟨read, next, outcome, hget, hinfo, hpass⟩ := hbound unextended (by decide +kernel)
  rw [hquiet, Option.some.injEq] at hinfo
  obtain ⟨-, hunextended, hopens⟩ := hpass _ hinfo.symm
  have hmatches := hunextended fun _ _ _ e he => absurd he List.not_mem_nil
  refine ⟨hmatches, ?_, _, hextended, ?_⟩
  · have hblob : EncryptedTo device (policyText device attestationSel (recorded (registers 1) attestationPcrs)) .rsaOaep
        .rsaSha256 [7] [7] := ⟨by decide, fun _ _ => rfl⟩
    obtain ⟨read', next', hget', hreopened, -⟩ := hopens (fun _ _ _ _ h => h) hmatches unextended (fun _ => true)
      .rsaOaep .rsaSha256 [7] [7] hblob
    have hread : getPCRValuesFrom banks unextended (fun _ => 3) 24 attestationPcrs .sha256 9 =
        some (.ok (recorded (registers 1) attestationPcrs, 3)) := by decide +kernel
    cases hread.symm.trans hget'
    exact hreopened ⟨rfl, by decide +kernel, fun e he => absurd he List.not_mem_nil⟩
  · obtain ⟨_, _, outcome', -, hinfo', hpass'⟩ := hbound extendedAfterQuote (by decide +kernel)
    rw [hextended, Option.some.injEq] at hinfo'
    rw [(hpass' _ hinfo'.symm).1]
    decide +kernel

end CvmAttestation.Tpm
