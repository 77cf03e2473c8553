import CvmAttestation.BaseJsonText
import CvmAttestation.ClientJson
import CvmAttestation.TpmEphemeral
import Mathlib.Data.List.TakeWhile

/-! The request for an attestation. What was collected goes into JSON in three layers: the proof of the isolation is a
text inside the evidence, which is a part of the attestation info, which is again a text inside the request. On the way
most members are base64, some are base64 for URLs without padding, and two are plain strings. -/

namespace CvmAttestation.Client.Payload

open Base Base.Json

/-! ### The collected values -/

inductive OsType
  | linux
  | windows
  | invalid
  deriving DecidableEq, Repr

structure OsInfo where
  type : OsType
  distroName : Bytes
  build : Bytes
  distroVersionMajor : UInt32
  distroVersionMinor : UInt32
  deriving DecidableEq, Repr

structure PcrValue where
  index : UInt8
  digest : Bytes
  deriving DecidableEq, Repr

structure PcrSet where
  hashAlg : Tpm.HashAlg
  pcrs : List PcrValue
  deriving DecidableEq, Repr

structure PcrQuote where
  quote : Bytes
  signature : Bytes
  deriving DecidableEq, Repr

structure TpmInfo where
  aikCert : Bytes
  aikPub : Bytes
  pcrValues : PcrSet
  pcrQuote : PcrQuote
  encryptionKey : Tpm.EphemeralKey
  deriving DecidableEq, Repr

inductive IsolationType
  | trustedLaunch
  | sevSnp
  deriving DecidableEq, Repr

structure IsolationInfo where
  isolationType : IsolationType
  snpReport : Bytes
  runtimeData : Bytes
  vcekCert : Bytes
  deriving DecidableEq, Repr

/-- A `std::unordered_map` of strings, with its entries in the order in which it is iterated over. -/
structure StringMap where
  entries : List (Bytes × Bytes)
  nodup : (entries.map Prod.fst).Nodup

def StringMap.find? (m : StringMap) (key : Bytes) : Option Bytes := m.entries.lookup key

/-- `AttestationParameters`, whose protocol version is a constant. -/
structure AttestationParameters where
  osInfo : OsInfo
  tcgLogs : Bytes
  clientPayload : StringMap
  tpmInfo : TpmInfo
  isolationInfo : IsolationInfo

def protocolVersion : Bytes := ascii "2.0"

/-! ### Writing the request -/

def getOSTypeStr : OsType → Bytes
  | .linux => ascii "Linux"
  | .windows => ascii "Windows"
  | .invalid => ascii "Unknown"

/-- A member of JSON with the base64 text of a buffer. -/
def binary (data : Bytes) : Json := .string (Base64.encode data)

def PcrValue.members (pcr : PcrValue) : List (Bytes × Json) :=
  [(ascii "Index", .int pcr.index.toNat), (ascii "Digest", binary pcr.digest)]

def PcrValue.toJson (pcr : PcrValue) : Json := assignAll pcr.members

def TpmInfo.members (t : TpmInfo) : List (Bytes × Json) :=
  [(ascii "AikCert", binary t.aikCert), (ascii "AikPub", binary t.aikPub),
    (ascii "PcrQuote", binary t.pcrQuote.quote), (ascii "PcrSignature", binary t.pcrQuote.signature),
    (ascii "EncKeyPub", binary t.encryptionKey.encryptionKey),
    (ascii "EncKeyCertifyInfo", binary t.encryptionKey.certifyInfo),
    (ascii "EncKeyCertifyInfoSignature", binary t.encryptionKey.certifyInfoSignature),
    (ascii "PcrSet", .array (t.pcrValues.pcrs.map fun pcr => .int pcr.index.toNat)),
    (ascii "PCRs", .array (t.pcrValues.pcrs.map PcrValue.toJson))]

def TpmInfo.toJson (t : TpmInfo) : Json := assignAll t.members

/-- The payload of the client. A key is passed as a C string. -/
def StringMap.toJson (m : StringMap) : Json := assignAll (m.entries.map fun entry => (cStr entry.1, binary entry.2))

section

variable (writeString : Json → Bytes)

def IsolationInfo.proof (i : IsolationInfo) : List (Bytes × Json) :=
  [(ascii "SnpReport", .string (Base64.encodeUrl i.snpReport)), (ascii "VcekCertChain", .string i.vcekCert)]

def IsolationInfo.evidence (i : IsolationInfo) : List (Bytes × Json) :=
  [(ascii "Proof", binary (writeString (assignAll i.proof))), (ascii "RunTimeData", binary i.runtimeData)]

def IsolationInfo.members (i : IsolationInfo) : List (Bytes × Json) :=
  match i.isolationType with
  | .trustedLaunch => [(ascii "Type", .string (ascii "TrustedLaunch"))]
  | .sevSnp => [(ascii "Type", .string (ascii "SevSnp")), (ascii "Evidence", assignAll (i.evidence writeString))]

def IsolationInfo.toJson (i : IsolationInfo) : Json := assignAll (i.members writeString)

def AttestationParameters.members (p : AttestationParameters) : List (Bytes × Json) :=
  [(ascii "AttestationProtocolVersion", .string protocolVersion),
    (ascii "OSType", binary (getOSTypeStr p.osInfo.type)), (ascii "OSDistro", binary p.osInfo.distroName),
    (ascii "OSVersionMajor", .int p.osInfo.distroVersionMajor.toNat),
    (ascii "OSVersionMinor", .int p.osInfo.distroVersionMinor.toNat), (ascii "OSBuild", binary p.osInfo.build),
    (ascii "TcgLogs", binary p.tcgLogs), (ascii "ClientPayload", p.clientPayload.toJson),
    (ascii "TpmInfo", p.tpmInfo.toJson), (ascii "IsolationInfo", p.isolationInfo.toJson writeString)]

def AttestationParameters.toJson (p : AttestationParameters) : Json := assignAll (p.members writeString)

/-- `AttestationClientImpl::CreatePayload` -/
def createPayload (p : AttestationParameters) : Bytes :=
  let attestationInfoStr := writeString (p.toJson writeString)
  writeString (assignAll [(ascii "AttestationInfo", .string (Base64.encodeUrl attestationInfoStr))])

end

/-! ### Reading the request -/

structure Evidence where
  snpReport : Bytes
  runtimeData : Bytes
  vcekCert : Bytes
  deriving DecidableEq, Repr

/-- What a request says. The registers are listed twice, once without their digests. -/
structure Request where
  protocolVersion : Bytes
  osInfo : OsInfo
  tcgLogs : Bytes
  clientPayload : Bytes → Option Bytes
  aikCert : Bytes
  aikPub : Bytes
  pcrQuote : PcrQuote
  encryptionKey : Tpm.EphemeralKey
  pcrSet : List UInt8
  pcrs : List PcrValue
  evidence : Option Evidence

section

variable (J : Jsoncpp)

def readText (s : Bytes) : Except Exc Json :=
  match J.parse s with
  | .value j => .ok j
  | _ => .error .jsonRuntimeError

def readBinary (j : Json) (key : Bytes) : Except Exc Bytes := do base64ToBinary (← getString J j key)

def asUInt (bound : ℕ) : Json → Except Exc ℕ
  | .int n => if 0 ≤ n ∧ n < bound then .ok n.toNat else .error .jsonLogicError
  | _ => .error .jsonLogicError

def readUInt8 (j : Json) : Except Exc UInt8 := do return UInt8.ofNat (← asUInt (2 ^ 8) j)

def readUInt32 (j : Json) : Except Exc UInt32 := do return UInt32.ofNat (← asUInt (2 ^ 32) j)

def asArray : Json → Except Exc (List Json)
  | .array xs => .ok xs
  | _ => .error .jsonLogicError

/-- What an iteration over an object visits; null has no members. -/
def members : Json → List (Bytes × Json)
  | .object ms => ms
  | _ => []

def readOsType (s : Bytes) : Except Exc OsType :=
  match [OsType.linux, .windows, .invalid].find? (getOSTypeStr · = s) with
  | some type => .ok type
  | none => .error .jsonLogicError

def readOsInfo (j : Json) : Except Exc OsInfo := do
  let type ← readOsType (← readBinary J j (ascii "OSType"))
  let distroName ← readBinary J j (ascii "OSDistro")
  let build ← readBinary J j (ascii "OSBuild")
  let distroVersionMajor ← readUInt32 (← get j (ascii "OSVersionMajor") .null)
  let distroVersionMinor ← readUInt32 (← get j (ascii "OSVersionMinor") .null)
  return ⟨type, distroName, build, distroVersionMajor, distroVersionMinor⟩

def readEntry (m : Bytes × Json) : Except Exc (Bytes × Bytes) := do
  return (m.1, ← base64ToBinary (← asString J m.2))

def readEntries (j : Json) : Except Exc (List (Bytes × Bytes)) := (members j).mapM (readEntry J)

def readPcr (j : Json) : Except Exc PcrValue := do
  let index ← readUInt8 (← get j (ascii "Index") .null)
  let digest ← readBinary J j (ascii "Digest")
  return ⟨index, digest⟩

def readPcrQuote (j : Json) : Except Exc PcrQuote := do
  let quote ← readBinary J j (ascii "PcrQuote")
  let signature ← readBinary J j (ascii "PcrSignature")
  return ⟨quote, signature⟩

def readEncryptionKey (j : Json) : Except Exc Tpm.EphemeralKey := do
  let encryptionKey ← readBinary J j (ascii "EncKeyPub")
  let certifyInfo ← readBinary J j (ascii "EncKeyCertifyInfo")
  let certifyInfoSignature ← readBinary J j (ascii "EncKeyCertifyInfoSignature")
  return ⟨encryptionKey, certifyInfo, certifyInfoSignature⟩

def readEvidence (j : Json) : Except Exc Evidence := do
  let proof ← readText J (← readBinary J j (ascii "Proof"))
  let snpReport ← base64urlToBinary (← getString J proof (ascii "SnpReport"))
  let vcekCert ← getString J proof (ascii "VcekCertChain")
  let runtimeData ← readBinary J j (ascii "RunTimeData")
  return ⟨snpReport, runtimeData, vcekCert⟩

def readIsolation (j : Json) : Except Exc (Option Evidence) := do
  let type ← getString J j (ascii "Type")
  if type = ascii "SevSnp" then return some (← readEvidence J (← get j (ascii "Evidence") .null))
  else return none

def readRequest (payload : Bytes) : Except Exc Request := do
  let root ← readText J payload
  let info ← readText J (← base64urlToBinary (← getString J root (ascii "AttestationInfo")))
  let protocolVersion ← getString J info (ascii "AttestationProtocolVersion")
  let osInfo ← readOsInfo J info
  let tcgLogs ← readBinary J info (ascii "TcgLogs")
  let entries ← readEntries J (← get info (ascii "ClientPayload") .null)
  let tpmInfo ← get info (ascii "TpmInfo") .null
  let aikCert ← readBinary J tpmInfo (ascii "AikCert")
  let aikPub ← readBinary J tpmInfo (ascii "AikPub")
  let pcrQuote ← readPcrQuote J tpmInfo
  let encryptionKey ← readEncryptionKey J tpmInfo
  let pcrSet ← (← asArray (← get tpmInfo (ascii "PcrSet") .null)).mapM readUInt8
  let pcrs ← (← asArray (← get tpmInfo (ascii "PCRs") .null)).mapM (readPcr J)
  let evidence ← readIsolation J (← get info (ascii "IsolationInfo") .null)
  return ⟨protocolVersion, osInfo, tcgLogs, fun key => entries.lookup key, aikCert, aikPub, pcrQuote, encryptionKey, pcrSet, pcrs,
    evidence⟩

end

/-! ### Encoded members -/

section

variable {J : Jsoncpp} {ms : List (Bytes × Json)} {key : Bytes}

theorem get_assignAll (h : (ms.map Prod.fst).Nodup) {v : Json} (i : ℕ) (hi : ms[i]? = some (key, v))
    (defaultValue : Json) : get (assignAll ms) key defaultValue = .ok v := by
  have hlookup := lookup_assignAll h key
  rw [lookup_of_mem h (List.mem_of_getElem? hi)] at hlookup
  cases hj : assignAll ms with
  | object members =>
      rw [hj, member?] at hlookup
      rw [get, hlookup]
      rfl
  | _ =>
      rw [hj] at hlookup
      cases hlookup

theorem getString_assignAll (h : (ms.map Prod.fst).Nodup) {s : Bytes} (i : ℕ)
    (hi : ms[i]? = some (key, .string s)) : getString J (assignAll ms) key = .ok s := by
  rw [getString, get_assignAll h i hi, ok_bind, asString]

theorem readBinary_assignAll (h : (ms.map Prod.fst).Nodup) {data : Bytes} (i : ℕ)
    (hi : ms[i]? = some (key, binary data)) : readBinary J (assignAll ms) key = .ok data := by
  rw [readBinary, getString_assignAll h i hi, ok_bind, base64ToBinary_encode]

theorem mapM_map {α : Type} {write : α → Json} {read : Json → Except Exc α} (h : ∀ a, read (write a) = .ok a)
    (l : List α) : (l.map write).mapM read = .ok l := by
  induction l with
  | nil => rfl
  | cons a l ih =>
      rw [List.map_cons, List.mapM_cons, h, ok_bind, ih]
      rfl

end

/-! ### Each layer is read back -/

section

variable {J : Jsoncpp}

theorem asUInt_natCast {bound n : ℕ} (h : n < bound) : asUInt bound (.int n) = .ok n := by
  rw [asUInt, if_pos ⟨by omega, by omega⟩, Int.toNat_natCast]

theorem readUInt8_toNat (n : UInt8) : readUInt8 (.int n.toNat) = .ok n := by
  rw [readUInt8, asUInt_natCast n.toNat_lt, ok_bind, UInt8.ofNat_toNat]
  rfl

theorem readUInt32_toNat (n : UInt32) : readUInt32 (.int n.toNat) = .ok n := by
  rw [readUInt32, asUInt_natCast n.toNat_lt, ok_bind, UInt32.ofNat_toNat]
  rfl

theorem readOsType_getOSTypeStr (type : OsType) : readOsType (getOSTypeStr type) = .ok type := by
  cases type <;> rfl

/-- The objects of a request. -/
inductive Record
  | root
  | info
  | tpmInfo
  | pcr
  | trustedLaunch
  | sevSnp
  | evidence
  | proof

def Record.keys : Record → List Bytes
  | root => [ascii "AttestationInfo"]
  | info =>
    [ascii "AttestationProtocolVersion", ascii "OSType", ascii "OSDistro", ascii "OSVersionMajor",
      ascii "OSVersionMinor", ascii "OSBuild", ascii "TcgLogs", ascii "ClientPayload", ascii "TpmInfo",
      ascii "IsolationInfo"]
  | tpmInfo =>
    [ascii "AikCert", ascii "AikPub", ascii "PcrQuote", ascii "PcrSignature", ascii "EncKeyPub",
      ascii "EncKeyCertifyInfo", ascii "EncKeyCertifyInfoSignature", ascii "PcrSet", ascii "PCRs"]
  | pcr => [ascii "Index", ascii "Digest"]
  | trustedLaunch => [ascii "Type"]
  | sevSnp => [ascii "Type", ascii "Evidence"]
  | evidence => [ascii "Proof", ascii "RunTimeData"]
  | proof => [ascii "SnpReport", ascii "VcekCertChain"]

/-- Each object has different keys, all of them in ASCII. -/
theorem Record.keys_plain (r : Record) : r.keys.Nodup ∧ ∀ key ∈ r.keys, ∀ b ∈ key, b.toNat < 0x80 := by
  cases r <;> decide +kernel

theorem Record.nodup_keys (r : Record) : r.keys.Nodup := r.keys_plain.1

theorem Record.valid_keys (r : Record) : ∀ key ∈ r.keys, Utf8.valid key = true :=
  fun key hkey => Utf8.valid_of_ascii (r.keys_plain.2 key hkey)

theorem readPcr_toJson (pcr : PcrValue) : readPcr J pcr.toJson = .ok pcr := by
  have hkeys : (pcr.members.map Prod.fst).Nodup := Record.pcr.nodup_keys
  rw [PcrValue.toJson, readPcr, get_assignAll hkeys 0 rfl, ok_bind, readUInt8_toNat, ok_bind,
    readBinary_assignAll hkeys 1 rfl]
  rfl

variable (t : TpmInfo)

theorem readPcrQuote_toJson : readPcrQuote J t.toJson = .ok t.pcrQuote := by
  have hkeys : (t.members.map Prod.fst).Nodup := Record.tpmInfo.nodup_keys
  rw [TpmInfo.toJson, readPcrQuote, readBinary_assignAll hkeys 2 rfl, ok_bind, readBinary_assignAll hkeys 3 rfl]
  rfl

theorem readEncryptionKey_toJson : readEncryptionKey J t.toJson = .ok t.encryptionKey := by
  have hkeys : (t.members.map Prod.fst).Nodup := Record.tpmInfo.nodup_keys
  rw [TpmInfo.toJson, readEncryptionKey, readBinary_assignAll hkeys 4 rfl, ok_bind,
    readBinary_assignAll hkeys 5 rfl, ok_bind, readBinary_assignAll hkeys 6 rfl]
  rfl

end

/-! ### The client payload -/

theorem cStr_eq_self {s : Bytes} (h : 0 ∉ s) : cStr s = s := by
  rw [cStr, List.takeWhile_eq_self_iff]
  intro c hc
  rw [decide_eq_true_eq]
  rintro rfl
  exact h hc

section

variable {J : Jsoncpp}

/-- Reading the members of an object whose values are all base64 texts. -/
theorem mapM_readEntry {ms : List (Bytes × Json)} (h : ∀ m ∈ ms, ∃ data, m.2 = binary data) :
    ∃ entries, ms.mapM (readEntry J) = .ok entries ∧ ∀ key, (entries.lookup key).map binary = ms.lookup key := by
  induction ms with
  | nil => exact ⟨[], rfl, fun _ => rfl⟩
  | cons m ms ih =>
      rw [List.forall_mem_cons] at h
      obtain ⟨⟨data, hdata⟩, hms⟩ := h
      obtain ⟨entries, hread, hlookup⟩ := ih hms
      refine ⟨(m.1, data) :: entries, ?_, fun key => ?_⟩
      · have hentry : readEntry J m = .ok (m.1, data) := by
          rw [readEntry, hdata, binary, asString, ok_bind, base64ToBinary_encode]
          rfl
        rw [List.mapM_cons, hentry, ok_bind, hread]
        rfl
      · rw [lookup_cons_ite, lookup_cons_ite, ← hlookup key]
        split_ifs
        · rw [hdata]
          rfl
        · rfl

theorem lookup_members (j : Json) (key : Bytes) : (members j).lookup key = j.member? key := by
  cases j <;> rfl

theorem mem_members_assignAll {ms : List (Bytes × Json)} {m : Bytes × Json} (h : m ∈ members (assignAll ms)) :
    m ∈ ms := by
  cases ms with
  | nil => cases h
  | cons m' ms =>
      rw [assignAll_cons] at h
      rcases mem_setMembers h with h | h
      · exact h
      · cases h

theorem lookup_map_snd {α β : Type} (f : α → β) (entries : List (Bytes × α)) (key : Bytes) :
    (entries.map fun entry => (entry.1, f entry.2)).lookup key = (entries.lookup key).map f := by
  induction entries with
  | nil => rfl
  | cons entry entries ih =>
      rw [List.map_cons, List.lookup_cons, List.lookup_cons, ih]
      cases key == entry.1 <;> rfl

theorem binary_injective {a b : Bytes} (h : binary a = binary b) : a = b := by
  have hdecoded : (Except.ok a : Except Exc Bytes) = .ok b :=
    calc
      .ok a = base64ToBinary (Base64.encode a) := (base64ToBinary_encode a).symm
      _ = base64ToBinary (Base64.encode b) := by rw [Json.string.inj h]
      _ = .ok b := base64ToBinary_encode b
  exact Except.ok.inj hdecoded

/-- A map whose keys are C strings is read back entry by entry. -/
theorem readEntries_toJson {m : StringMap} (h : ∀ entry ∈ m.entries, 0 ∉ entry.1) :
    ∃ entries, readEntries J m.toJson = .ok entries ∧ ∀ key, entries.lookup key = m.find? key := by
  have hwritten : m.entries.map (fun entry => (cStr entry.1, binary entry.2)) =
      m.entries.map fun entry => (entry.1, binary entry.2) :=
    List.map_congr_left fun entry hentry => by rw [cStr_eq_self (h entry hentry)]
  have hkeys : ((m.entries.map fun entry => (entry.1, binary entry.2)).map Prod.fst).Nodup := by
    rw [List.map_map]
    exact m.nodup
  rw [readEntries, StringMap.toJson, hwritten]
  obtain ⟨entries, hread, hlookup⟩ := @mapM_readEntry J (members (assignAll
    (m.entries.map fun entry => (entry.1, binary entry.2)))) (by
      intro m' hm'
      obtain ⟨entry, -, rfl⟩ := List.mem_map.1 (mem_members_assignAll hm')
      exact ⟨entry.2, rfl⟩)
  refine ⟨entries, hread, fun key => Option.map_injective (fun _ _ => binary_injective) ?_⟩
  rw [hlookup, lookup_members, lookup_assignAll hkeys, lookup_map_snd, StringMap.find?]

end

/-! ### Portable values -/

theorem valid_encode (data : Bytes) : Utf8.valid (Base64.encode data) = true :=
  Utf8.valid_of_ascii fun _ hc => Base64.toNat_lt_of_mem_encode hc

theorem valid_encodeUrl (data : Bytes) : Utf8.valid (Base64.encodeUrl data) = true :=
  Utf8.valid_of_ascii fun _ hc => Base64.toNat_lt_of_mem_encodeUrl hc

theorem portable_string (n : ℕ) (s : Bytes) : portable n (.string s) = Utf8.valid s := by
  cases n <;> rfl

theorem portable_binary (n : ℕ) (data : Bytes) : portable n (binary data) = true := by
  rw [binary, portable_string, valid_encode]

theorem portable_natCast (n : ℕ) {m : ℕ} (h : m < 2 ^ 32) : portable n (.int m) = true := by
  have hrange : (-2 ^ 63 ≤ (m : ℤ) && (m : ℤ) < 2 ^ 64) = true := by
    rw [Bool.and_eq_true, decide_eq_true_eq, decide_eq_true_eq]
    omega
  cases n with
  | zero => exact hrange
  | succ n => exact hrange

theorem valid_texts : ∀ s ∈ [ascii "TrustedLaunch", ascii "SevSnp", protocolVersion], Utf8.valid s = true := by
  decide +kernel

theorem portable_members {n : ℕ} {ms : List (Bytes × Json)} (hkeys : ∀ key ∈ ms.map Prod.fst, Utf8.valid key = true)
    (hvalues : ∀ v ∈ ms.map Prod.snd, portable n v = true) : portable (n + 1) (assignAll ms) = true :=
  portable_assignAll fun _ hm => ⟨hkeys _ (List.mem_map_of_mem hm), hvalues _ (List.mem_map_of_mem hm)⟩

theorem portable_array {n : ℕ} {xs : List Json} (h : ∀ x ∈ xs, portable n x = true) :
    portable (n + 1) (.array xs) = true := by
  rw [portable, List.all_eq_true]
  exact h

theorem portable_pcr (n : ℕ) (pcr : PcrValue) : portable (n + 1) pcr.toJson = true := by
  have hindex : pcr.index.toNat < 2 ^ 32 := lt_trans pcr.index.toNat_lt (by norm_num)
  apply portable_members
  · exact Record.pcr.valid_keys
  · simp only [PcrValue.members, List.map_cons, List.map_nil, List.forall_mem_cons]
    exact ⟨portable_natCast n hindex, portable_binary n _, by simp⟩

theorem portable_tpmInfo (n : ℕ) (t : TpmInfo) : portable (n + 3) t.toJson = true := by
  have hset : portable (n + 2) (.array (t.pcrValues.pcrs.map fun pcr => .int pcr.index.toNat)) = true := by
    apply portable_array
    intro x hx
    obtain ⟨pcr, -, rfl⟩ := List.mem_map.1 hx
    exact portable_natCast _ (lt_trans pcr.index.toNat_lt (by norm_num))
  have hpcrs : portable (n + 2) (.array (t.pcrValues.pcrs.map PcrValue.toJson)) = true := by
    apply portable_array
    intro x hx
    obtain ⟨pcr, -, rfl⟩ := List.mem_map.1 hx
    exact portable_pcr n pcr
  apply portable_members
  · exact Record.tpmInfo.valid_keys
  · simp only [TpmInfo.members, List.map_cons, List.map_nil, List.forall_mem_cons, portable_binary, hset, hpcrs, true_and]
    simp

theorem portable_clientPayload (n : ℕ) {m : StringMap}
    (h : ∀ entry ∈ m.entries, Utf8.valid entry.1 = true ∧ 0 ∉ entry.1) : portable (n + 1) m.toJson = true := by
  apply portable_assignAll
  intro m' hm'
  obtain ⟨entry, hentry, rfl⟩ := List.mem_map.1 hm'
  obtain ⟨hvalid, hzero⟩ := h entry hentry
  rw [cStr_eq_self hzero]
  exact ⟨hvalid, portable_binary n _⟩

theorem portable_proof (n : ℕ) {i : IsolationInfo} (h : Utf8.valid i.vcekCert = true) :
    portable (n + 1) (assignAll i.proof) = true := by
  apply portable_members
  · exact Record.proof.valid_keys
  · simp only [IsolationInfo.proof, List.map_cons, List.map_nil, List.forall_mem_cons, portable_string,
      valid_encodeUrl, h, true_and]
    simp

theorem portable_isolationInfo (writeString : Json → Bytes) (n : ℕ) (i : IsolationInfo) :
    portable (n + 2) (i.toJson writeString) = true := by
  have hevidence : portable (n + 1) (assignAll (i.evidence writeString)) = true := by
    apply portable_members
    · exact Record.evidence.valid_keys
    · simp only [IsolationInfo.evidence, List.map_cons, List.map_nil, List.forall_mem_cons, portable_binary, true_and]
      simp
  rw [IsolationInfo.toJson, IsolationInfo.members]
  cases i.isolationType with
  | trustedLaunch =>
      apply portable_members
      · exact Record.trustedLaunch.valid_keys
      · simp [portable_string, valid_texts]
  | sevSnp =>
      apply portable_members
      · exact Record.sevSnp.valid_keys
      · simp [portable_string, valid_texts, hevidence]

/-- What the writer and the parser keep: payload keys that are C strings in UTF-8, and a VCEK text in UTF-8. -/
structure Sendable (p : AttestationParameters) : Prop where
  clientPayload : ∀ entry ∈ p.clientPayload.entries, Utf8.valid entry.1 = true ∧ 0 ∉ entry.1
  vcekCert : p.isolationInfo.isolationType = .sevSnp → Utf8.valid p.isolationInfo.vcekCert = true

theorem portable_info (writeString : Json → Bytes) (n : ℕ) {p : AttestationParameters} (h : Sendable p) :
    portable (n + 4) (p.toJson writeString) = true := by
  have hversion : Utf8.valid protocolVersion = true := valid_texts _ (by simp)
  apply portable_members
  · exact Record.info.valid_keys
  · simp only [AttestationParameters.members, List.map_cons, List.map_nil, List.forall_mem_cons, portable_binary,
      portable_string, hversion, portable_natCast _ p.osInfo.distroVersionMajor.toNat_lt,
      portable_natCast _ p.osInfo.distroVersionMinor.toNat_lt, portable_clientPayload (n + 2) h.clientPayload,
      portable_tpmInfo n, portable_isolationInfo writeString (n + 1), true_and]
    simp

theorem portable_root (n : ℕ) (data : Bytes) :
    portable (n + 1) (assignAll [(ascii "AttestationInfo", .string (Base64.encodeUrl data))]) = true := by
  apply portable_members
  · exact Record.root.valid_keys
  · simp [portable_string, valid_encodeUrl]

/-! ### The whole request -/

/-- How deep the values of a request are nested. -/
def nestingLimit : ℕ := 4

/-- The parser inverts the writer on every portable value that is nested no deeper than a request. -/
def ReadsBack (J : Jsoncpp) (writeString : Json → Bytes) : Prop :=
  ∀ j, portable nestingLimit j = true → J.parse (writeString j) = .value j

def IsolationInfo.sent (i : IsolationInfo) : Option Evidence :=
  match i.isolationType with
  | .trustedLaunch => none
  | .sevSnp => some ⟨i.snpReport, i.runtimeData, i.vcekCert⟩

/-- The part of the parameters that is sent. -/
def AttestationParameters.request (p : AttestationParameters) : Request where
  protocolVersion := protocolVersion
  osInfo := p.osInfo
  tcgLogs := p.tcgLogs
  clientPayload := p.clientPayload.find?
  aikCert := p.tpmInfo.aikCert
  aikPub := p.tpmInfo.aikPub
  pcrQuote := p.tpmInfo.pcrQuote
  encryptionKey := p.tpmInfo.encryptionKey
  pcrSet := p.tpmInfo.pcrValues.pcrs.map PcrValue.index
  pcrs := p.tpmInfo.pcrValues.pcrs
  evidence := p.isolationInfo.sent

section

variable {J : Jsoncpp} {writeString : Json → Bytes} {p : AttestationParameters}

theorem readText_writeString (hJ : ReadsBack J writeString) {j : Json} (h : portable nestingLimit j = true) :
    readText J (writeString j) = .ok j := by
  rw [readText, hJ j h]

/-- The three texts of a request are read back: the proof of the isolation, the attestation info, and the request. -/
structure TextsReadBack (J : Jsoncpp) (writeString : Json → Bytes) (p : AttestationParameters) : Prop where
  proof : p.isolationInfo.isolationType = .sevSnp →
    readText J (writeString (assignAll p.isolationInfo.proof)) = .ok (assignAll p.isolationInfo.proof)
  info : readText J (writeString (p.toJson writeString)) = .ok (p.toJson writeString)
  root : ∀ data, readText J (writeString (assignAll [(ascii "AttestationInfo", .string (Base64.encodeUrl data))])) =
    .ok (assignAll [(ascii "AttestationInfo", .string (Base64.encodeUrl data))])
  keys : ∀ entry ∈ p.clientPayload.entries, 0 ∉ entry.1

theorem readEvidence_toJson {i : IsolationInfo}
    (hread : readText J (writeString (assignAll i.proof)) = .ok (assignAll i.proof)) :
    readEvidence J (assignAll (i.evidence writeString)) = .ok ⟨i.snpReport, i.runtimeData, i.vcekCert⟩ := by
  have hproof : (i.proof.map Prod.fst).Nodup := Record.proof.nodup_keys
  have hevidence : ((i.evidence writeString).map Prod.fst).Nodup := Record.evidence.nodup_keys
  rw [readEvidence, readBinary_assignAll hevidence 0 rfl, ok_bind, hread, ok_bind, getString_assignAll hproof 0 rfl,
    ok_bind, base64urlToBinary_encodeUrl, ok_bind, getString_assignAll hproof 1 rfl, ok_bind,
    readBinary_assignAll hevidence 1 rfl]
  rfl

theorem readIsolation_toJson {i : IsolationInfo}
    (h : i.isolationType = .sevSnp → readText J (writeString (assignAll i.proof)) = .ok (assignAll i.proof)) :
    readIsolation J (i.toJson writeString) = .ok i.sent := by
  rw [readIsolation, IsolationInfo.toJson, IsolationInfo.members, IsolationInfo.sent]
  cases htype : i.isolationType with
  | trustedLaunch =>
      have hkeys : ([(ascii "Type", Json.string (ascii "TrustedLaunch"))].map Prod.fst).Nodup :=
        Record.trustedLaunch.nodup_keys
      dsimp only
      rw [getString_assignAll hkeys 0 rfl, ok_bind, if_neg (by decide +kernel)]
      rfl
  | sevSnp =>
      have hkeys : ([(ascii "Type", Json.string (ascii "SevSnp")),
        (ascii "Evidence", assignAll (i.evidence writeString))].map Prod.fst).Nodup := Record.sevSnp.nodup_keys
      dsimp only
      rw [getString_assignAll hkeys 0 rfl, ok_bind, if_pos rfl, get_assignAll hkeys 1 rfl, ok_bind,
        readEvidence_toJson (h htype)]
      rfl

theorem readOsInfo_toJson : readOsInfo J (p.toJson writeString) = .ok p.osInfo := by
  have hkeys : ((p.members writeString).map Prod.fst).Nodup := Record.info.nodup_keys
  rw [AttestationParameters.toJson, readOsInfo, readBinary_assignAll hkeys 1 rfl, ok_bind, readOsType_getOSTypeStr,
    ok_bind, readBinary_assignAll hkeys 2 rfl, ok_bind, readBinary_assignAll hkeys 5 rfl, ok_bind,
    get_assignAll hkeys 3 rfl, ok_bind, readUInt32_toNat, ok_bind, get_assignAll hkeys 4 rfl, ok_bind,
    readUInt32_toNat]
  rfl

/-- **A request is read back** as what was sent, where its texts are. -/
theorem readRequest_of_texts (h : TextsReadBack J writeString p) :
    readRequest J (createPayload writeString p) = .ok p.request := by
  have hrootKeys : ([(ascii "AttestationInfo",
    Json.string (Base64.encodeUrl (writeString (p.toJson writeString))))].map Prod.fst).Nodup := Record.root.nodup_keys
  have hkeys : ((p.members writeString).map Prod.fst).Nodup := Record.info.nodup_keys
  have htpm : (p.tpmInfo.members.map Prod.fst).Nodup := Record.tpmInfo.nodup_keys
  obtain ⟨entries, hentries, hlookup⟩ := @readEntries_toJson J p.clientPayload h.keys
  have hpcrSet : (p.tpmInfo.pcrValues.pcrs.map fun pcr => Json.int pcr.index.toNat).mapM readUInt8 =
      .ok (p.tpmInfo.pcrValues.pcrs.map PcrValue.index) := by
    have hread := mapM_map readUInt8_toNat (p.tpmInfo.pcrValues.pcrs.map PcrValue.index)
    rw [List.map_map] at hread
    exact hread
  rw [readRequest, createPayload, h.root, ok_bind, getString_assignAll hrootKeys 0 rfl, ok_bind,
    base64urlToBinary_encodeUrl, ok_bind, h.info, ok_bind, readOsInfo_toJson, AttestationParameters.toJson,
    getString_assignAll hkeys 0 rfl, ok_bind, ok_bind, readBinary_assignAll hkeys 6 rfl, ok_bind,
    get_assignAll hkeys 7 rfl, ok_bind, hentries, ok_bind, get_assignAll hkeys 8 rfl, ok_bind,
    readPcrQuote_toJson, readEncryptionKey_toJson, TpmInfo.toJson, readBinary_assignAll htpm 0 rfl, ok_bind,
    readBinary_assignAll htpm 1 rfl, ok_bind, ok_bind, ok_bind, get_assignAll htpm 7 rfl, ok_bind, asArray, ok_bind,
    hpcrSet, ok_bind, get_assignAll htpm 8 rfl, ok_bind, asArray, ok_bind, mapM_map readPcr_toJson, ok_bind,
    get_assignAll hkeys 9 rfl, ok_bind, readIsolation_toJson h.proof, ok_bind]
  have hpayload : (fun key => entries.lookup key) = p.clientPayload.find? := by
    funext key
    exact hlookup key
  rw [hpayload]
  rfl

theorem readRequest_createPayload (hJ : ReadsBack J writeString) (h : Sendable p) :
    readRequest J (createPayload writeString p) = .ok p.request := by
  refine readRequest_of_texts ⟨fun htype => ?_, ?_, fun data => ?_, fun entry he => (h.clientPayload entry he).2⟩
  · exact readText_writeString hJ (portable_proof 3 (h.vcekCert htype))
  · exact readText_writeString hJ (portable_info writeString 0 h)
  · exact readText_writeString hJ (portable_root 3 data)

end

/-- Two values that differ at most in what is not sent: the algorithm of the registers, and the evidence of a trusted
launch. -/
structure Agree (p q : AttestationParameters) : Prop where
  osInfo : p.osInfo = q.osInfo
  tcgLogs : p.tcgLogs = q.tcgLogs
  clientPayload : ∀ key, p.clientPayload.find? key = q.clientPayload.find? key
  aikCert : p.tpmInfo.aikCert = q.tpmInfo.aikCert
  aikPub : p.tpmInfo.aikPub = q.tpmInfo.aikPub
  pcrQuote : p.tpmInfo.pcrQuote = q.tpmInfo.pcrQuote
  encryptionKey : p.tpmInfo.encryptionKey = q.tpmInfo.encryptionKey
  pcrs : p.tpmInfo.pcrValues.pcrs = q.tpmInfo.pcrValues.pcrs
  isolationType : p.isolationInfo.isolationType = q.isolationInfo.isolationType
  evidence : p.isolationInfo.isolationType = .sevSnp → p.isolationInfo = q.isolationInfo

theorem sent_inj {i k : IsolationInfo} (h : i.sent = k.sent) :
    i.isolationType = k.isolationType ∧ (i.isolationType = .sevSnp → i = k) := by
  obtain ⟨type, snpReport, runtimeData, vcekCert⟩ := i
  obtain ⟨type', snpReport', runtimeData', vcekCert'⟩ := k
  cases type with
  | trustedLaunch =>
      cases type' with
      | trustedLaunch => exact ⟨rfl, nofun⟩
      | sevSnp => cases h
  | sevSnp =>
      cases type' with
      | trustedLaunch => cases h
      | sevSnp =>
          cases h
          exact ⟨rfl, fun _ => rfl⟩

theorem agree_of_request_eq {p q : AttestationParameters} (h : p.request = q.request) : Agree p q where
  osInfo := congrArg Request.osInfo h
  tcgLogs := congrArg Request.tcgLogs h
  clientPayload := congrFun (congrArg Request.clientPayload h)
  aikCert := congrArg Request.aikCert h
  aikPub := congrArg Request.aikPub h
  pcrQuote := congrArg Request.pcrQuote h
  encryptionKey := congrArg Request.encryptionKey h
  pcrs := congrArg Request.pcrs h
  isolationType := (sent_inj (congrArg Request.evidence h)).1
  evidence := (sent_inj (congrArg Request.evidence h)).2

/-- **Everything that is sent can be recovered** from the request, so that two values with one request agree. -/
theorem createPayload_recovers (J : Jsoncpp) (writeString : Json → Bytes) (hJ : ReadsBack J writeString)
    (p : AttestationParameters) (h : Sendable p) :
    readRequest J (createPayload writeString p) = .ok p.request ∧
      ∀ q, Sendable q → createPayload writeString p = createPayload writeString q → Agree p q := by
  refine ⟨readRequest_createPayload hJ h, fun q hq heq => agree_of_request_eq ?_⟩
  have hp := readRequest_createPayload hJ h
  rw [heq, readRequest_createPayload hJ hq] at hp
  exact (Except.ok.inj hp).symm

namespace Sample

/-- The JSON library, writing without indentation. -/
def writeString : Json → Bytes := render nestingLimit

def json : Jsoncpp where
  parse text :=
    match Json.parse nestingLimit text with
    | some j => .value j
    | none => .fails
  realText _ := []

theorem readsBack : ReadsBack json writeString := by
  intro j hj
  have hparse := parse_render hj
  simp only [json, writeString, hparse]

def payload (key : Bytes) : StringMap := ⟨[(key, ascii "ADE0101")], by simp⟩

def params (key : Bytes) (hashAlg : Tpm.HashAlg) (isolationInfo : IsolationInfo) : AttestationParameters where
  osInfo := ⟨.linux, ascii "Ubuntu", ascii "NotApplication", 22, 4⟩
  tcgLogs := [1, 2, 3]
  clientPayload := payload key
  tpmInfo := ⟨[4], [5], ⟨hashAlg, [⟨7, [8]⟩, ⟨0, [9]⟩]⟩, ⟨[10], [11]⟩, ⟨[12], [13], [14]⟩⟩
  isolationInfo := isolationInfo

def snp : IsolationInfo := ⟨.sevSnp, [15, 16], [17], ascii "MTg="⟩

def sentParams (hashAlg : Tpm.HashAlg) : AttestationParameters := params (ascii "nonce") hashAlg snp

theorem sendable (hashAlg : Tpm.HashAlg) : Sendable (sentParams hashAlg) where
  clientPayload := by
    intro entry hentry
    cases List.mem_singleton.1 hentry
    exact ⟨Utf8.valid_of_ascii (by decide +kernel), by decide +kernel⟩
  vcekCert _ := by
    show Utf8.valid (ascii "MTg=") = true
    exact Utf8.valid_of_ascii (by decide +kernel)

end Sample

theorem createPayload_recovers_sample :
    readRequest Sample.json (createPayload Sample.writeString (Sample.sentParams .sha256)) =
        .ok (Sample.sentParams .sha256).request ∧
      Agree (Sample.sentParams .sha256) (Sample.sentParams .sha1) := by
  have h := createPayload_recovers Sample.json Sample.writeString Sample.readsBack (Sample.sentParams .sha256)
    (Sample.sendable .sha256)
  exact ⟨h.1, h.2 (Sample.sentParams .sha1) (Sample.sendable .sha1) rfl⟩

/-- Different values with one request: another algorithm, another report of a trusted launch, and a payload key that
goes on after a zero byte. -/
theorem createPayload_collides :
    (Sample.sentParams .sha256 ≠ Sample.sentParams .sha1 ∧
      createPayload Sample.writeString (Sample.sentParams .sha256) =
        createPayload Sample.writeString (Sample.sentParams .sha1)) ∧
    (Sample.params (ascii "nonce") .sha256 ⟨.trustedLaunch, [1], [], []⟩ ≠
        Sample.params (ascii "nonce") .sha256 ⟨.trustedLaunch, [2], [], []⟩ ∧
      createPayload Sample.writeString (Sample.params (ascii "nonce") .sha256 ⟨.trustedLaunch, [1], [], []⟩) =
        createPayload Sample.writeString (Sample.params (ascii "nonce") .sha256 ⟨.trustedLaunch, [2], [], []⟩)) ∧
    (Sample.params [97, 0, 98] .sha256 Sample.snp ≠ Sample.params [97] .sha256 Sample.snp ∧
      createPayload Sample.writeString (Sample.params [97, 0, 98] .sha256 Sample.snp) =
        createPayload Sample.writeString (Sample.params [97] .sha256 Sample.snp)) := by
  refine ⟨⟨fun h => ?_, rfl⟩, ⟨fun h => ?_, rfl⟩, ⟨fun h => ?_, rfl⟩⟩
  · cases congrArg (fun p => p.tpmInfo.pcrValues.hashAlg) h
  · cases congrArg (fun p => p.isolationInfo.snpReport) h
  · cases congrArg (fun p => p.clientPayload.find? [97]) h

end CvmAttestation.Client.Payload
