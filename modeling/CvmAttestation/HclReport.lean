import CvmAttestation.BaseLayout
import CvmAttestation.ClientEvidence

/-! The attestation report that the HCL leaves in the TPM, and its two parsers. Both of them cast the bytes to the packed
structure and read its members without looking at the number of bytes there are, the last member being as long as the
report itself says. What they compute is right for a report that is complete; for every other one they read past its
end, unless they give it up before. -/

namespace CvmAttestation.Hcl

open Base Client

/-! ### The layout -/

/-- `ATTESTATION_HEADER`: signature, version, report size, request type and four reserved words. -/
def headerSize : Nat := 4 + 4 + 4 + 4 + 4 * 4

/-- The members of `SNP_VM_REPORT` before `SnpReportData`. -/
def snpBefore : List Nat := [4, 4, 8, 16, 16, 4, 4, 8, 8, 4, 4]

def snpReportDataLength : Nat := 64

/-- The members after it, with the three of the signature at the end. -/
def snpAfter : List Nat := [48, 32, 48, 48, 32, 32, 8, 24, 64, 8, 8, 8, 168, 72, 72, 368]

def snpReportSize : Nat := snpBefore.sum + snpReportDataLength + snpAfter.sum

/-- The members of `TDX_REPORTMAC` before `ReportData`, which starts a `TDX_VM_REPORT`. -/
def tdxBefore : List Nat := [1, 1, 1, 1, 12, 16, 48, 48]

def tdxReportDataLength : Nat := 64

/-- The rest of it: the report's own MAC, `TDX_TEE_TCB_INFO`, the reserved bytes and `TDX_TDINFO`. -/
def tdxAfter : List Nat := [32, 32] ++ [8, 16, 48, 48, 8, 16, 95] ++ [17] ++ [8, 8, 48, 48, 48, 48, 4 * 48, 48, 64]

def tdxReportSize : Nat := tdxBefore.sum + tdxReportDataLength + tdxAfter.sum

/-- `IGVM_REQUEST_DATA` follows the union of the two hardware reports. -/
def hclDataAt : Nat := headerSize + max snpReportSize tdxReportSize

def reportTypeAt : Nat := hclDataAt + 4 + 4

def reportDataHashTypeAt : Nat := reportTypeAt + 4

def variableDataSizeAt : Nat := reportDataHashTypeAt + 4

def variableDataAt : Nat := variableDataSizeAt + 4

theorem offsets : reportTypeAt = 1224 ∧ reportDataHashTypeAt = 1228 ∧ variableDataSizeAt = 1232 ∧
    variableDataAt = 1236 ∧ snpReportSize = 1184 ∧ headerSize = 32 := by decide

/-- The size the report declares for its last member. -/
def variableDataSize (report : Bytes) : Nat := ofLittleEndian (member report variableDataSizeAt 4)

def variableData (report : Bytes) : Bytes := member report variableDataAt (variableDataSize report)

/-- A report with all of its bytes. -/
def Complete (report : Bytes) : Prop :=
  variableDataAt ≤ report.length ∧ variableDataAt + variableDataSize report ≤ report.length

instance (report : Bytes) : Decidable (Complete report) := inferInstanceAs (Decidable (_ ∧ _))

section

variable {report : Bytes}

theorem Complete.ne_nil (h : Complete report) : report ≠ [] := by
  rintro rfl
  exact absurd h.1 (by decide)

theorem Complete.reportType_le (h : Complete report) : reportTypeAt + 4 ≤ report.length := by
  have hfixed := h.1
  have : reportTypeAt + 4 ≤ variableDataAt := by decide
  omega

/-- The members of the fixed part can be read when it is there. -/
theorem snpReport_eq (h : variableDataAt ≤ report.length) :
    slice report headerSize snpReportSize = some (member report headerSize snpReportSize) := by
  apply slice_member
  have : headerSize + snpReportSize ≤ variableDataAt := by decide
  omega

theorem variableDataSize_eq (h : variableDataAt ≤ report.length) :
    word report variableDataSizeAt = some (variableDataSize report) := word_eq h

theorem Complete.variableData_eq (h : Complete report) :
    slice report variableDataAt (variableDataSize report) = some (variableData report) := slice_member h.2

/-- The read of the variable data leaves a report that is not complete. -/
theorem slice_of_not_complete (h : ¬Complete report) (hfixed : variableDataAt ≤ report.length) :
    slice report variableDataAt (variableDataSize report) = none := by
  apply slice_eq_none
  by_contra hlong
  exact h ⟨hfixed, by omega⟩

end

/-- `IGVM_REPORT_TYPE`, as far as the parser of the secrets library accepts it. -/
inductive ReportType
  | snpVmReport
  | tdxVmReport
  deriving DecidableEq, Repr

def ReportType.ofWord : Nat → Option ReportType
  | 2 => some snpVmReport
  | 4 => some tdxVmReport
  | _ => none

/-- `IGVM_HASH_TYPE`. -/
inductive HashType
  | sha256Hash
  | sha384Hash
  | sha512Hash
  deriving DecidableEq, Repr

def HashType.ofWord : Nat → Option HashType
  | 1 => some sha256Hash
  | 2 => some sha384Hash
  | 3 => some sha512Hash
  | _ => none

def HashType.size : HashType → Nat
  | sha256Hash => 32
  | sha384Hash => 48
  | sha512Hash => 64

/-! ### The parser of the secrets library -/

/-- Where a hardware report has its report data, and how many bytes these are. -/
def ReportType.reportData : ReportType → Nat × Nat
  | snpVmReport => (headerSize + snpBefore.sum, snpReportDataLength)
  | tdxVmReport => (headerSize + tdxBefore.sum, tdxReportDataLength)

/-- The hash functions of OpenSSL or of BCrypt, which may fail. -/
structure Hashes where
  sha256 : Bytes → Option Bytes
  sha384 : Bytes → Option Bytes
  sha512 : Bytes → Option Bytes

/-- `OsslSha` and `BcryptSha`; `none` is an exception. -/
def sha (H : Hashes) (data : Bytes) (hashSize : Nat) : Option Bytes :=
  match hashSize with
  | 32 => H.sha256 data
  | 48 => H.sha384 data
  | 64 => H.sha512 data
  | _ => none

/-- What can raise in the parser besides the hash function: a copy for whose size no memory can be had, and the log of
the report data. -/
structure Surroundings where
  allocates : Nat → Bool
  logs : Bool

/-- `HclReportParser::IsValidHclReport` of the secrets library; `none` is a run that reads outside the vector. Whatever
is raised ends in its handler, which returns false. -/
def isValidHclReport (H : Hashes) (R : Surroundings) (hclReport : Bytes) : Option Bool := do
  let reportType ← word hclReport reportTypeAt
  match ReportType.ofWord reportType with
  | none => return false
  | some reportType =>
    if ¬R.allocates reportType.reportData.2 then return false
    else do
      let rptData ← slice hclReport reportType.reportData.1 reportType.reportData.2
      let size ← word hclReport variableDataSizeAt
      if ¬R.allocates size then return false
      else do
        let variableData ← slice hclReport variableDataAt size
        if ¬R.logs then return false
        else do
          let hashType ← word hclReport reportDataHashTypeAt
          match HashType.ofWord hashType with
          | none => return false
          | some hashType =>
            if ¬R.allocates hashType.size then return false
            else
              let reportedHash := rptData.take hashType.size
              match sha H variableData hashType.size with
              | none => return false
              | some reportHash => return reportHash == reportedHash

/-- What a valid report is: complete, of a type and with a hash that are known, and the hash of the variable data is at the
start of the report data of the hardware report. -/
def Valid (H : Hashes) (report : Bytes) : Prop :=
  Complete report ∧ ∃ reportType hashType,
    ReportType.ofWord (ofLittleEndian (member report reportTypeAt 4)) = some reportType ∧
    HashType.ofWord (ofLittleEndian (member report reportDataHashTypeAt 4)) = some hashType ∧
    sha H (variableData report) hashType.size = some (member report reportType.reportData.1 hashType.size)

/-- Nothing is raised before the hash of the variable data is taken. -/
structure Undisturbed (R : Surroundings) (report : Bytes) : Prop where
  reportData : R.allocates snpReportDataLength = true
  variableData : R.allocates (variableDataSize report) = true
  log : R.logs = true
  reportedHash : ∀ hashType, HashType.ofWord (ofLittleEndian (member report reportDataHashTypeAt 4)) = some hashType →
    R.allocates hashType.size = true

/-- The parser stays inside the vector and accepts exactly the valid reports. -/
def DecidesValid (H : Hashes) (R : Surroundings) (report : Bytes) : Prop :=
  ∃ valid, isValidHclReport H R report = some valid ∧ (valid = true ↔ Valid H report)

section

variable (H : Hashes) (R : Surroundings) {report : Bytes}

/-- Members of the fixed part lie before the end of a report that reaches up to its type. -/
theorem ReportType.reportData_le (reportType : ReportType) :
    reportType.reportData.1 + reportType.reportData.2 ≤ reportTypeAt := by
  cases reportType <;> decide

theorem ReportType.reportData_length (reportType : ReportType) :
    reportType.reportData.2 = snpReportDataLength := by
  cases reportType <;> rfl

theorem HashType.size_le (hashType : HashType) (reportType : ReportType) :
    hashType.size ≤ reportType.reportData.2 := by
  cases hashType <;> cases reportType <;> decide

theorem isValidHclReport_short (h : report.length < reportTypeAt + 4) : isValidHclReport H R report = none := by
  simp [isValidHclReport, word_eq_none h]

theorem isValidHclReport_unsupported (h : reportTypeAt + 4 ≤ report.length)
    (htype : ReportType.ofWord (ofLittleEndian (member report reportTypeAt 4)) = none) :
    isValidHclReport H R report = some false := by
  simp [isValidHclReport, word_eq h, htype]

section

variable {H R} (h : reportTypeAt + 4 ≤ report.length) {reportType : ReportType}
  (htype : ReportType.ofWord (ofLittleEndian (member report reportTypeAt 4)) = some reportType)

include h htype

theorem isValidHclReport_noReportData (hfirst : R.allocates snpReportDataLength = false) :
    isValidHclReport H R report = some false := by
  simp [isValidHclReport, word_eq h, htype, reportType.reportData_length, hfirst]

/-- What is read of a report of a known type after its report data. -/
theorem isValidHclReport_supported (hfirst : R.allocates snpReportDataLength = true) :
    isValidHclReport H R report = do
      let size ← word report variableDataSizeAt
      if ¬R.allocates size then return false
      else do
        let variableData ← slice report variableDataAt size
        if ¬R.logs then return false
        else do
          let hashType ← word report reportDataHashTypeAt
          match HashType.ofWord hashType with
          | none => return false
          | some hashType =>
            if ¬R.allocates hashType.size then return false
            else
              match sha H variableData hashType.size with
              | none => return false
              | some reportHash => return reportHash == member report reportType.reportData.1 hashType.size := by
  have hdata : reportType.reportData.1 + reportType.reportData.2 ≤ report.length := by
    have := reportType.reportData_le
    omega
  have htake : ∀ hashType : HashType, (member report reportType.reportData.1 reportType.reportData.2).take hashType.size =
      member report reportType.reportData.1 hashType.size := by
    intro hashType
    rw [member, List.take_take, min_eq_left (hashType.size_le reportType), member]
  have hmemory : R.allocates reportType.reportData.2 = true := by rw [reportType.reportData_length, hfirst]
  simp only [isValidHclReport, word_eq h, htype, hmemory, slice_member hdata, htake, Option.bind_eq_bind,
    Option.bind_some, not_true_eq_false, if_false]

theorem isValidHclReport_noVariableData (hfirst : R.allocates snpReportDataLength = true)
    (hfixed : variableDataAt ≤ report.length) (hsecond : R.allocates (variableDataSize report) = false) :
    isValidHclReport H R report = some false := by
  rw [isValidHclReport_supported h htype hfirst, variableDataSize_eq hfixed]
  simp [hsecond]

/-- A report of a known type that is not complete is read past its end. -/
theorem isValidHclReport_incomplete (hincomplete : ¬Complete report) (hfirst : R.allocates snpReportDataLength = true)
    (hsecond : variableDataAt ≤ report.length → R.allocates (variableDataSize report) = true) :
    isValidHclReport H R report = none := by
  rw [isValidHclReport_supported h htype hfirst]
  by_cases hfixed : variableDataAt ≤ report.length
  · rw [variableDataSize_eq hfixed]
    simp [hsecond hfixed, slice_of_not_complete hincomplete hfixed]
  · rw [show word report variableDataSizeAt = none from word_eq_none (Nat.lt_of_not_le hfixed)]
    rfl

end

section

variable {H R} {reportType : ReportType}
  (htype : ReportType.ofWord (ofLittleEndian (member report reportTypeAt 4)) = some reportType)
  (hcomplete : Complete report)

include htype hcomplete

/-- What follows when both parts of a complete report have been copied. -/
theorem isValidHclReport_copied (hfirst : R.allocates snpReportDataLength = true)
    (hsecond : R.allocates (variableDataSize report) = true) :
    isValidHclReport H R report =
      if R.logs then
        match HashType.ofWord (ofLittleEndian (member report reportDataHashTypeAt 4)) with
        | none => some false
        | some hashType =>
          if R.allocates hashType.size then
            match sha H (variableData report) hashType.size with
            | none => some false
            | some reportHash => some (reportHash == member report reportType.reportData.1 hashType.size)
          else some false
      else some false := by
  have hfixed := hcomplete.1
  have hhash : word report reportDataHashTypeAt = some (ofLittleEndian (member report reportDataHashTypeAt 4)) := by
    apply word_eq
    have : reportDataHashTypeAt + 4 ≤ variableDataAt := by decide
    omega
  have hreads := hcomplete.reportType_le
  rw [isValidHclReport_supported hreads htype hfirst, variableDataSize_eq hfixed]
  simp only [Option.bind_eq_bind, Option.bind_some, hsecond, hcomplete.variableData_eq, hhash, ite_not]
  rfl

/-- A complete report is accepted exactly when it is valid and nothing is raised. -/
theorem isValidHclReport_complete :
    ∃ valid, isValidHclReport H R report = some valid ∧ (valid = true ↔ Valid H report ∧ Undisturbed R report) := by
  have hfixed := hcomplete.1
  have hreads := hcomplete.reportType_le
  have hfalse : ¬Undisturbed R report → (false = true ↔ Valid H report ∧ Undisturbed R report) := by
    intro hnot
    simp [hnot]
  by_cases hfirst : R.allocates snpReportDataLength = true
  · by_cases hsecond : R.allocates (variableDataSize report) = true
    · rw [isValidHclReport_copied htype hcomplete hfirst hsecond]
      by_cases hlog : R.logs = true
      · rw [if_pos hlog]
        cases hkind : HashType.ofWord (ofLittleEndian (member report reportDataHashTypeAt 4)) with
        | none => exact ⟨false, rfl, by simp [Valid, hkind]⟩
        | some hashType =>
            by_cases hthird : R.allocates hashType.size = true
            · have hundisturbed : Undisturbed R report := by
                refine ⟨hfirst, hsecond, hlog, fun hashType' hkind' => ?_⟩
                cases hkind.symm.trans hkind'
                exact hthird
              dsimp only
              rw [if_pos hthird]
              cases hsha : sha H (variableData report) hashType.size with
              | none => exact ⟨false, rfl, by simp [Valid, hkind, hsha]⟩
              | some reportHash =>
                  refine ⟨_, rfl, ?_⟩
                  simp [Valid, hcomplete, htype, hkind, hsha, hundisturbed]
            · dsimp only
              rw [if_neg hthird]
              exact ⟨false, rfl, hfalse fun hquiet => hthird (hquiet.reportedHash hashType hkind)⟩
      · rw [if_neg hlog]
        exact ⟨false, rfl, hfalse fun hquiet => hlog hquiet.log⟩
    · have hrun := isValidHclReport_noVariableData (H := H) hreads htype hfirst hfixed (Bool.eq_false_iff.2 hsecond)
      exact ⟨false, hrun, hfalse fun hquiet => hsecond hquiet.variableData⟩
  · have hrun := isValidHclReport_noReportData (H := H) hreads htype (Bool.eq_false_iff.2 hfirst)
    exact ⟨false, hrun, hfalse fun hquiet => hfirst hquiet.reportData⟩

end

/-- A parser that returns false is right about a report exactly when that is not valid. -/
theorem decidesValid_of_false (hrun : isValidHclReport H R report = some false) :
    DecidesValid H R report ↔ ¬Valid H report := by
  constructor
  · rintro ⟨valid, hrun', hvalid⟩ hV
    rw [hrun] at hrun'
    cases hrun'
    cases hvalid.2 hV
  · exact fun hnot => ⟨false, hrun, nofun, fun hV => absurd hV hnot⟩

theorem decidesValid_complete_iff {reportType : ReportType}
    (htype : ReportType.ofWord (ofLittleEndian (member report reportTypeAt 4)) = some reportType)
    (hcomplete : Complete report) : DecidesValid H R report ↔ (Valid H report → Undisturbed R report) := by
  obtain ⟨valid, hrun, hvalid⟩ := isValidHclReport_complete (H := H) (R := R) htype hcomplete
  constructor
  · rintro ⟨valid', hrun', hvalid'⟩ hV
    cases hrun.symm.trans hrun'
    exact (hvalid.1 (hvalid'.2 hV)).2
  · intro hquiet
    exact ⟨valid, hrun, fun htrue => (hvalid.1 htrue).1, fun hV => hvalid.2 ⟨hV, hquiet hV⟩⟩

theorem decidesValid_incomplete_iff (h : reportTypeAt + 4 ≤ report.length) {reportType : ReportType}
    (htype : ReportType.ofWord (ofLittleEndian (member report reportTypeAt 4)) = some reportType)
    (hincomplete : ¬Complete report) :
    DecidesValid H R report ↔ R.allocates snpReportDataLength = false ∨
      variableDataAt ≤ report.length ∧ R.allocates (variableDataSize report) = false := by
  have hnot : ¬Valid H report := fun hV => hincomplete hV.1
  cases hfirst : R.allocates snpReportDataLength with
  | false =>
      rw [decidesValid_of_false H R (isValidHclReport_noReportData h htype hfirst)]
      simp [hnot]
  | true =>
      by_cases hsecond : variableDataAt ≤ report.length ∧ R.allocates (variableDataSize report) = false
      · rw [decidesValid_of_false H R (isValidHclReport_noVariableData h htype hfirst hsecond.1 hsecond.2)]
        simp [hnot, hsecond]
      · have hrun : isValidHclReport H R report = none :=
          isValidHclReport_incomplete h htype hincomplete hfirst fun hfixed => by simpa [hfixed] using hsecond
        refine iff_of_false ?_ (by simp [hsecond])
        rintro ⟨valid, hrun', -⟩
        rw [hrun] at hrun'
        cases hrun'

/-- **When the parser stays inside the vector and accepts exactly the valid reports**: the vector reaches up to the type
of the report, nothing is raised for a valid report, and a report of a known type that is not complete is given up for
want of memory before its variable data is read. -/
theorem isValidHclReport_decides_iff (report : Bytes) :
    DecidesValid H R report ↔
      reportTypeAt + 4 ≤ report.length ∧
      (ReportType.ofWord (ofLittleEndian (member report reportTypeAt 4)) ≠ none →
        (Valid H report → Undisturbed R report) ∧
        (¬Complete report → R.allocates snpReportDataLength = false ∨
          variableDataAt ≤ report.length ∧ R.allocates (variableDataSize report) = false)) := by
  by_cases h : reportTypeAt + 4 ≤ report.length
  · cases htype : ReportType.ofWord (ofLittleEndian (member report reportTypeAt 4)) with
    | none =>
        refine ⟨fun _ => ⟨h, fun hne => absurd rfl hne⟩, fun _ => ?_⟩
        refine ⟨false, isValidHclReport_unsupported H R h htype, ?_⟩
        simp [Valid, htype]
    | some reportType =>
        by_cases hcomplete : Complete report
        · rw [decidesValid_complete_iff H R htype hcomplete]
          simp [h, hcomplete]
        · have hnot : ¬Valid H report := fun hV => hcomplete hV.1
          rw [decidesValid_incomplete_iff H R h htype hcomplete]
          simp [h, hcomplete, hnot]
  · refine ⟨?_, fun hread => absurd hread.1 h⟩
    rintro ⟨valid, hrun, -⟩
    rw [isValidHclReport_short H R (Nat.lt_of_not_le h)] at hrun
    cases hrun

end

namespace Sample

def hashes : Hashes := ⟨fun _ => some (List.replicate 32 0), fun _ => some (List.replicate 48 0),
  fun _ => some (List.replicate 64 0)⟩

def surroundings : Surroundings := ⟨fun _ => true, true⟩

/-- A report of which only the fixed part is there: an SNP report with SHA-256 that declares 16 bytes of data. -/
def truncated : Bytes := List.replicate 1224 0 ++ [2, 0, 0, 0] ++ [1, 0, 0, 0] ++ [16, 0, 0, 0]

end Sample

/-- The parser reads the sixteen bytes that follow the vector. -/
theorem isValidHclReport_truncated : ¬DecidesValid Sample.hashes Sample.surroundings Sample.truncated := by
  rintro ⟨valid, hrun, -⟩
  have hnone : isValidHclReport Sample.hashes Sample.surroundings Sample.truncated = none := by decide +kernel
  rw [hnone] at hrun
  cases hrun

/-! ### The parser of the client library

Its layout has no TDX report. The SNP report is the longer of the two, so the members stand at the same offsets. -/

def parsingFailure : AttestationResult :=
  .failure .hclReportParsingFailure (ascii "Failed to parse SNP report or variable data from the HCL report")

/-- `HclReportParser::ExtractSnpReportAndRuntimeDataFromHclReport` of the client library: the result and the two output
buffers. `allocates` says for which sizes memory can be had, and `none` is a run that reads outside the buffer. -/
def extractSnpReportAndRuntimeDataFromHclReport (allocates : Nat → Bool) (hclReport snpReport runtimeData : Bytes) :
    Option (AttestationResult × Bytes × Bytes) :=
  if hclReport = [] then return (.failure .hclReportEmpty (ascii "Empty HCL report"), snpReport, runtimeData)
  else if ¬allocates snpReportSize then return (parsingFailure, snpReport, runtimeData)
  else do
    let snpReport ← slice hclReport headerSize snpReportSize
    let size ← word hclReport variableDataSizeAt
    if ¬allocates size then return (parsingFailure, snpReport, runtimeData)
    else do
      let runtimeData ← slice hclReport variableDataAt size
      return (.success, snpReport, runtimeData)

/-- The parser stays inside the buffer; it succeeds with the two parts of a complete report, and fails with the output
buffers as they were for every other one. -/
def Extracts (allocates : Nat → Bool) (report snpReport runtimeData : Bytes) : Prop :=
  ∃ result snpReport' runtimeData',
    extractSnpReportAndRuntimeDataFromHclReport allocates report snpReport runtimeData =
      some (result, snpReport', runtimeData') ∧
    (result.code = .success ↔ Complete report) ∧
    (Complete report → snpReport' = member report headerSize snpReportSize ∧ runtimeData' = variableData report) ∧
    (¬Complete report →
      result.code = .hclReportParsingFailure ∧ snpReport' = snpReport ∧ runtimeData' = runtimeData)

section

variable {allocates : Nat → Bool} {report : Bytes}

theorem extract_first_fails (hne : report ≠ []) (hfirst : allocates snpReportSize = false)
    (snpReport runtimeData : Bytes) :
    extractSnpReportAndRuntimeDataFromHclReport allocates report snpReport runtimeData =
      some (parsingFailure, snpReport, runtimeData) := by
  simp [extractSnpReportAndRuntimeDataFromHclReport, hne, hfirst]

/-- When the memory for the second part cannot be had, the first output has been replaced already. -/
theorem extract_second_fails (hne : report ≠ []) (hfixed : variableDataAt ≤ report.length)
    (hfirst : allocates snpReportSize = true) (hsecond : allocates (variableDataSize report) = false)
    (snpReport runtimeData : Bytes) :
    extractSnpReportAndRuntimeDataFromHclReport allocates report snpReport runtimeData =
      some (parsingFailure, member report headerSize snpReportSize, runtimeData) := by
  simp [extractSnpReportAndRuntimeDataFromHclReport, hne, hfirst, hsecond, snpReport_eq hfixed,
    variableDataSize_eq hfixed]

theorem extract_complete (hcomplete : Complete report) (hfirst : allocates snpReportSize = true)
    (hsecond : allocates (variableDataSize report) = true) (snpReport runtimeData : Bytes) :
    extractSnpReportAndRuntimeDataFromHclReport allocates report snpReport runtimeData =
      some (.success, member report headerSize snpReportSize, variableData report) := by
  simp [extractSnpReportAndRuntimeDataFromHclReport, hcomplete.ne_nil, hfirst, hsecond, snpReport_eq hcomplete.1,
    variableDataSize_eq hcomplete.1, hcomplete.variableData_eq]

theorem extract_incomplete (hne : report ≠ []) (hincomplete : ¬Complete report)
    (hfirst : allocates snpReportSize = true)
    (hsecond : variableDataAt ≤ report.length → allocates (variableDataSize report) = true)
    (snpReport runtimeData : Bytes) :
    extractSnpReportAndRuntimeDataFromHclReport allocates report snpReport runtimeData = none := by
  by_cases hfixed : variableDataAt ≤ report.length
  · have hdata : slice report variableDataAt (variableDataSize report) = none :=
      slice_of_not_complete hincomplete hfixed
    simp [extractSnpReportAndRuntimeDataFromHclReport, hne, hfirst, hsecond hfixed, variableDataSize_eq hfixed, hdata]
  · have hsize : word report variableDataSizeAt = none := word_eq_none (Nat.lt_of_not_le hfixed)
    simp [extractSnpReportAndRuntimeDataFromHclReport, hne, hfirst, hsize]

/-- A refusal is right for a report that is not complete, when the first output is what it was. -/
theorem extracts_of_failure {snpReport snpReport' runtimeData : Bytes}
    (hrun : extractSnpReportAndRuntimeDataFromHclReport allocates report snpReport runtimeData =
      some (parsingFailure, snpReport', runtimeData)) :
    Extracts allocates report snpReport runtimeData ↔ ¬Complete report ∧ snpReport' = snpReport := by
  constructor
  · rintro ⟨result, snpReport₁, runtimeData₁, hrun', hcode, -, hkept⟩
    rw [hrun] at hrun'
    cases hrun'
    have hincomplete : ¬Complete report := fun hcomplete => nomatch hcode.2 hcomplete
    exact ⟨hincomplete, (hkept hincomplete).2.1⟩
  · rintro ⟨hincomplete, rfl⟩
    exact ⟨_, _, _, hrun, ⟨nofun, fun hcomplete => absurd hcomplete hincomplete⟩,
      fun hcomplete => absurd hcomplete hincomplete, fun _ => ⟨rfl, rfl, rfl⟩⟩

theorem not_extracts_of_none {snpReport runtimeData : Bytes}
    (hrun : extractSnpReportAndRuntimeDataFromHclReport allocates report snpReport runtimeData = none) :
    ¬Extracts allocates report snpReport runtimeData := by
  rintro ⟨result, snpReport', runtimeData', hrun', -⟩
  rw [hrun] at hrun'
  cases hrun'

/-- **When the parser stays inside the buffer and tells complete reports from the others**: the report is complete and
there is memory for its two parts. No check refuses another one; it is refused only when there is no memory for the first
part, or for the second with the first already given out. -/
theorem extractSnpReport_iff (hne : report ≠ []) (snpReport runtimeData : Bytes) :
    Extracts allocates report snpReport runtimeData ↔
      (Complete report → allocates snpReportSize = true ∧ allocates (variableDataSize report) = true) ∧
      (¬Complete report → allocates snpReportSize = false ∨
        variableDataAt ≤ report.length ∧ allocates (variableDataSize report) = false ∧
          member report headerSize snpReportSize = snpReport) := by
  cases hfirst : allocates snpReportSize with
  | false =>
      rw [extracts_of_failure (extract_first_fails hne hfirst snpReport runtimeData)]
      simp
  | true =>
      by_cases hfixed : variableDataAt ≤ report.length
      · cases hsecond : allocates (variableDataSize report) with
        | false =>
            rw [extracts_of_failure (extract_second_fails hne hfixed hfirst hsecond snpReport runtimeData)]
            by_cases hcomplete : Complete report <;> simp [hcomplete, hfixed]
        | true =>
            by_cases hcomplete : Complete report
            · have hextracts : Extracts allocates report snpReport runtimeData :=
                ⟨_, _, _, extract_complete hcomplete hfirst hsecond snpReport runtimeData,
                  ⟨fun _ => hcomplete, fun _ => rfl⟩, fun _ => ⟨rfl, rfl⟩,
                  fun hincomplete => absurd hcomplete hincomplete⟩
              simp [hextracts, hcomplete]
            · have hnot := not_extracts_of_none
                (extract_incomplete hne hcomplete hfirst (fun _ => hsecond) snpReport runtimeData)
              simp [hnot, hcomplete]
      · have hincomplete : ¬Complete report := fun hcomplete => hfixed hcomplete.1
        have hnot := not_extracts_of_none
          (extract_incomplete hne hincomplete hfirst (fun h => absurd h hfixed) snpReport runtimeData)
        simp [hnot, hincomplete, hfixed]

/-- The evidence of a machine whose parser is this one: for a complete report it is what the code returns. -/
theorem returns_extract_of_complete {M : Machine} (hcomplete : Complete report)
    (hfirst : allocates snpReportSize = true) (hsecond : allocates (variableDataSize report) = true)
    (hparts : M.hclParts report =
      (extractSnpReportAndRuntimeDataFromHclReport allocates report [] []).map Prod.snd) :
    (extractSnpReportAndRuntimeData M report).Returns
      (member report headerSize snpReportSize, variableData report) := by
  rw [returns_extract_iff, hparts, extract_complete hcomplete hfirst hsecond, Option.map_some]
  exact ⟨hcomplete.ne_nil, rfl⟩

end

/-- A buffer that ends with the fixed part: the parser reads the sixteen bytes that follow it. -/
theorem extractSnpReport_truncated : ¬Extracts (fun _ => true) Sample.truncated [] [] := by
  rintro ⟨result, snpReport, runtimeData, hrun, -⟩
  have hnone : extractSnpReportAndRuntimeDataFromHclReport (fun _ => true) Sample.truncated [] [] = none := by
    decide +kernel
  rw [hnone] at hrun
  cases hrun

/-- The same report with its sixteen bytes. -/
theorem extractSnpReport_whole :
    Extracts (fun _ => true) (Sample.truncated ++ List.replicate 16 7) [] [] ∧
      variableData (Sample.truncated ++ List.replicate 16 7) = List.replicate 16 7 := by
  have hcomplete : Complete (Sample.truncated ++ List.replicate 16 7) := by decide +kernel
  refine ⟨(extractSnpReport_iff hcomplete.ne_nil [] []).2 ⟨fun _ => ⟨rfl, rfl⟩, ?_⟩, by decide +kernel⟩
  exact fun hincomplete => absurd hcomplete hincomplete

end CvmAttestation.Hcl
