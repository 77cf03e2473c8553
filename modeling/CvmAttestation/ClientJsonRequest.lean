import CvmAttestation.ClientJsonRoundTrip
import CvmAttestation.ClientPayload

/-! The request for an attestation in the texts of the JSON library itself. It is built from values that the library
keeps, six levels at most, so that everything that is sent can be recovered; no text in it has to be UTF-8. -/

namespace CvmAttestation.Client.Payload

open Base Base.Json

/-- The JSON library of the client. -/
def jsoncpp (F : JsonReader.FloatText) : Jsoncpp := ⟨JsonReader.parse F, F.write⟩

/-- What the library keeps: no deeper than so many levels, and without fractions. -/
def Plain (n : ℕ) (j : Json) : Prop := j.WellFormed ∧ j.Integral ∧ j.depth ≤ n

section

variable {n : ℕ}

theorem plain_string (n : ℕ) (s : Bytes) : Plain (n + 1) (.string s) := ⟨trivial, trivial, Nat.le_add_left 1 n⟩

theorem plain_natCast (n : ℕ) {m : ℕ} (h : m < 2 ^ 32) : Plain (n + 1) (.int m) := by
  refine ⟨?_, trivial, Nat.le_add_left 1 n⟩
  show -2 ^ 63 ≤ (m : ℤ) ∧ (m : ℤ) < 2 ^ 64
  omega

theorem plain_array {xs : List Json} (h : ∀ x ∈ xs, Plain n x) : Plain (n + 1) (.array xs) := by
  rw [Plain, wellFormed_array, integral_array, depth_array_le_iff]
  exact ⟨fun x hx => (h x hx).1, fun x hx => (h x hx).2.1, fun x hx => (h x hx).2.2⟩

theorem plain_assignAll {ms : List (Bytes × Json)} (h : ∀ v ∈ ms.map Prod.snd, Plain n v) :
    Plain (n + 1) (assignAll ms) := by
  cases ms with
  | nil => exact ⟨trivial, trivial, Nat.le_add_left 1 n⟩
  | cons m ms =>
      have hvalues : ∀ m' ∈ setMembers (m :: ms) [], Plain n m'.2 := by
        intro m' hm'
        rcases mem_setMembers hm' with hm' | hm'
        · exact h _ (List.mem_map_of_mem hm')
        · cases hm'
      rw [assignAll_cons, Plain, wellFormed_object, integral_object, depth_object_le_iff]
      exact ⟨⟨ascending_setMembers _ rfl, fun m' hm' => (hvalues m' hm').1⟩, fun m' hm' => (hvalues m' hm').2.1,
        fun m' hm' => (hvalues m' hm').2.2⟩

theorem plain_pcr (n : ℕ) (pcr : PcrValue) : Plain (n + 2) pcr.toJson := by
  have hindex : pcr.index.toNat < 2 ^ 32 := lt_trans pcr.index.toNat_lt (by norm_num)
  apply plain_assignAll
  simp only [PcrValue.members, List.map_cons, List.map_nil, List.forall_mem_cons]
  exact ⟨plain_natCast n hindex, plain_string n _, List.forall_mem_nil _⟩

theorem plain_tpmInfo (n : ℕ) (t : TpmInfo) : Plain (n + 4) t.toJson := by
  have hset : Plain (n + 3) (.array (t.pcrValues.pcrs.map fun pcr => .int pcr.index.toNat)) := by
    apply plain_array
    intro x hx
    obtain ⟨pcr, -, rfl⟩ := List.mem_map.1 hx
    exact plain_natCast _ (lt_trans pcr.index.toNat_lt (by norm_num))
  have hpcrs : Plain (n + 3) (.array (t.pcrValues.pcrs.map PcrValue.toJson)) := by
    apply plain_array
    intro x hx
    obtain ⟨pcr, -, rfl⟩ := List.mem_map.1 hx
    exact plain_pcr n pcr
  apply plain_assignAll
  simp only [TpmInfo.members, binary, List.map_cons, List.map_nil, List.forall_mem_cons, plain_string, hset, hpcrs,
    true_and]
  exact List.forall_mem_nil _

theorem plain_clientPayload (n : ℕ) (m : StringMap) : Plain (n + 2) m.toJson := by
  apply plain_assignAll
  intro v hv
  rw [List.map_map] at hv
  obtain ⟨entry, -, rfl⟩ := List.mem_map.1 hv
  exact plain_string n _

theorem plain_proof (n : ℕ) (i : IsolationInfo) : Plain (n + 2) (assignAll i.proof) := by
  apply plain_assignAll
  simp only [IsolationInfo.proof, List.map_cons, List.map_nil, List.forall_mem_cons, plain_string, true_and]
  exact List.forall_mem_nil _

theorem plain_isolationInfo (writeString : Json → Bytes) (n : ℕ) (i : IsolationInfo) :
    Plain (n + 3) (i.toJson writeString) := by
  have hevidence : Plain (n + 2) (assignAll (i.evidence writeString)) := by
    apply plain_assignAll
    simp only [IsolationInfo.evidence, binary, List.map_cons, List.map_nil, List.forall_mem_cons, plain_string, true_and]
    exact List.forall_mem_nil _
  rw [IsolationInfo.toJson, IsolationInfo.members]
  cases i.isolationType with
  | trustedLaunch =>
      apply plain_assignAll
      simp only [List.map_cons, List.map_nil, List.forall_mem_cons, plain_string, true_and]
      exact List.forall_mem_nil _
  | sevSnp =>
      apply plain_assignAll
      simp only [List.map_cons, List.map_nil, List.forall_mem_cons, plain_string, hevidence, true_and]
      exact List.forall_mem_nil _

theorem plain_info (writeString : Json → Bytes) (n : ℕ) (p : AttestationParameters) :
    Plain (n + 5) (p.toJson writeString) := by
  have hmajor := plain_natCast (n + 3) p.osInfo.distroVersionMajor.toNat_lt
  have hminor := plain_natCast (n + 3) p.osInfo.distroVersionMinor.toNat_lt
  have hpayload := plain_clientPayload (n + 2) p.clientPayload
  have hisolation := plain_isolationInfo writeString (n + 1) p.isolationInfo
  apply plain_assignAll
  simp only [AttestationParameters.members, binary, List.map_cons, List.map_nil, List.forall_mem_cons, plain_string,
    hmajor, hminor, hpayload, plain_tpmInfo, hisolation, true_and]
  exact List.forall_mem_nil _

end

section

variable {F : JsonReader.FloatText} {p : AttestationParameters}

theorem parse_jsoncpp {n : ℕ} {j : Json} (h : Plain n j) (hn : n ≤ JsonReader.stackLimit) :
    (jsoncpp F).parse (JsonWriter.writeString F j) = .value j := by
  obtain ⟨hwellFormed, hintegral, hdepth⟩ := h
  have hread := JsonRoundTrip.readValue_writeString F JsonReader.stackLimit hwellFormed hintegral
  rw [if_pos (hdepth.trans hn)] at hread
  show JsonReader.parse F (JsonWriter.writeString F j) = .value j
  rw [JsonReader.parse, hread]

/-- The library reads back what it writes of a request, as it is asked of one that is left open. -/
theorem readsBack_jsoncpp : ReadsBack (jsoncpp F) (JsonWriter.writeString F) := by
  intro j hportable
  exact parse_jsoncpp (wellFormed_of_portable hportable) (by decide)

theorem readText_jsoncpp {n : ℕ} {j : Json} (h : Plain n j) (hn : n ≤ JsonReader.stackLimit) :
    readText (jsoncpp F) (JsonWriter.writeString F j) = .ok j := by
  rw [readText, parse_jsoncpp h hn]

theorem textsReadBack_jsoncpp (h : ∀ entry ∈ p.clientPayload.entries, 0 ∉ entry.1) :
    TextsReadBack (jsoncpp F) (JsonWriter.writeString F) p where
  proof _ := readText_jsoncpp (plain_proof 0 p.isolationInfo) (by decide)
  info := readText_jsoncpp (plain_info _ 0 p) (by decide)
  root data := readText_jsoncpp (n := 2) (plain_assignAll (by simp [plain_string])) (by decide)
  keys := h

end

/-- **Everything that is sent can be recovered** from the text of the request, with the library that wrote it, so that
two values with one request agree: nothing is assumed of texts or of the library, only that the keys of the payload are C
strings. -/
theorem createPayload_recovers_jsoncpp (F : JsonReader.FloatText) (p : AttestationParameters)
    (h : ∀ entry ∈ p.clientPayload.entries, 0 ∉ entry.1) :
    readRequest (jsoncpp F) (createPayload (JsonWriter.writeString F) p) = .ok p.request ∧
      ∀ q, (∀ entry ∈ q.clientPayload.entries, 0 ∉ entry.1) →
        createPayload (JsonWriter.writeString F) p = createPayload (JsonWriter.writeString F) q → Agree p q := by
  have hp := readRequest_of_texts (textsReadBack_jsoncpp (F := F) h)
  refine ⟨hp, fun q hq heq => agree_of_request_eq ?_⟩
  rw [heq, readRequest_of_texts (textsReadBack_jsoncpp hq)] at hp
  exact (Except.ok.inj hp).symm

namespace Sample

/-- A VCEK text that is not UTF-8. -/
def rawParams (hashAlg : Tpm.HashAlg) : AttestationParameters :=
  params (ascii "nonce") hashAlg ⟨.sevSnp, [15, 16], [17], [0xFF, 0, 0xC0]⟩

end Sample

theorem createPayload_recovers_jsoncpp_raw :
    readRequest (jsoncpp JsonRoundTrip.Sample.noFractions)
        (createPayload (JsonWriter.writeString JsonRoundTrip.Sample.noFractions) (Sample.rawParams .sha256)) =
          .ok (Sample.rawParams .sha256).request ∧
      Agree (Sample.rawParams .sha256) (Sample.rawParams .sha1) := by
  have hkeys : ∀ hashAlg, ∀ entry ∈ (Sample.rawParams hashAlg).clientPayload.entries, 0 ∉ entry.1 := by
    intro hashAlg entry hentry
    cases List.mem_singleton.1 hentry
    decide +kernel
  have h := createPayload_recovers_jsoncpp JsonRoundTrip.Sample.noFractions (Sample.rawParams .sha256) (hkeys .sha256)
  exact ⟨h.1, h.2 (Sample.rawParams .sha1) (hkeys .sha1) rfl⟩

end CvmAttestation.Client.Payload
