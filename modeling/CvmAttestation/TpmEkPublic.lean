import CvmAttestation.BaseRounds
import CvmAttestation.BaseStream
import CvmAttestation.TpmObjects

/-! The template that `GenerateEk` creates the endorsement key from. `_PopulateEkPublicInput` takes it from an NV index, or
from the specification if there is no such index, and copies what another index holds to the front of its unique field.
The two indices belong to the owner of the TPM, and the copy has the length of the second one. -/

namespace CvmAttestation.Tpm

open Base

def ekNonceIndex : Handle := 0x01C00003

def ekTemplateIndex : Handle := 0x01C00004

/-- A `TPMT_PUBLIC`. Its unique field, seen as the one of an RSA key, has room for 512 bytes. -/
structure PublicArea where
  template : EkTemplate
  hunique : template.uniqueBuffer.length = 512

/-- `_PopulateParametersEkFromSpec` on a structure of zeros. -/
def specArea : PublicArea := ⟨populateParametersEkFromSpec true, List.length_replicate⟩

/-- `std::memcpy` to the unique field, if the bytes fit there. -/
def PublicArea.memcpy (inPub : PublicArea) (ekNonce : Bytes) : Option PublicArea :=
  if h : ekNonce.length ≤ 512 then
    some ⟨{ inPub.template with uniqueBuffer := ekNonce ++ inPub.template.uniqueBuffer.drop ekNonce.length }, by
      rw [List.length_append, List.length_drop, inPub.hunique]
      omega⟩
  else none

theorem PublicArea.memcpy_fits (inPub : PublicArea) {ekNonce : Bytes} (h : ekNonce.length ≤ 512) :
    ∃ copied, inPub.memcpy ekNonce = some copied ∧ copied.template =
      { inPub.template with uniqueBuffer := ekNonce ++ inPub.template.uniqueBuffer.drop ekNonce.length } :=
  ⟨_, dif_pos h, rfl⟩

theorem PublicArea.memcpy_long (inPub : PublicArea) {ekNonce : Bytes} (h : ¬ekNonce.length ≤ 512) :
    inPub.memcpy ekNonce = none := dif_neg h

/-- `(rc & TSS2_RC_ERROR_MASK) == TPM2_RC_HANDLE`. -/
def IsHandleError (rc : ℕ) : Prop := rc % 256 = 0x8B

instance (rc : ℕ) : Decidable (IsHandleError rc) := inferInstanceAs (Decidable (rc % 256 = 0x8B))

/-- The TPM and its library, as far as the function uses them. The TPM reports a handle error for an index that is absent,
and neither a call that fails for another reason nor the function that unmarshals reports one. -/
structure TssCalls where
  reads : ShortReads
  rc : Tss2Error → ℕ
  /-- The failures of the calls on an index that do not depend on what is stored there. -/
  fault : Handle → Option ℕ
  unmarshal : Bytes → Except ℕ PublicArea
  habsent : IsHandleError (rc .openTr)
  hunwritten : ¬IsHandleError (rc .nvRead)
  hfault : ∀ {index code}, fault index = some code → ¬IsHandleError code
  hunmarshal : ∀ {ekTemplate code}, unmarshal ekTemplate = .error code → ¬IsHandleError code

namespace TssCalls

variable (T : TssCalls) (s : NvStore)

def nvRead (index : Handle) : Except ℕ Bytes :=
  match T.fault index with
  | some code => .error code
  | none => ((Tpm.nvRead index T.reads).exec s).1.mapError T.rc

/-- The first `try` block. -/
def populateTemplate : Except ℕ PublicArea :=
  match T.nvRead s ekTemplateIndex >>= T.unmarshal with
  | .ok temp => .ok temp
  | .error code => if ¬IsHandleError code then .error code else .ok specArea

/-- `_PopulateEkPublicInput`, on a structure of zeros. -/
def populateEkPublicInput : Ending ℕ PublicArea :=
  match T.populateTemplate s with
  | .error code => .raised code
  | .ok inPub =>
    match T.nvRead s ekNonceIndex with
    | .ok ekNonce => (inPub.memcpy ekNonce).elim .outside .returned
    | .error code => if ¬IsHandleError code then .raised code else .returned inPub

/-- The calls on the index succeed and return its content. -/
def Reads (index : Handle) (data : Bytes) : Prop :=
  T.fault index = none ∧ ∃ i, s index = some i ∧ i.data = data ∧ (i.written = true ∨ i.data = [])

/-- The calls on the index find that it is absent. -/
def Misses (index : Handle) : Prop := T.fault index = none ∧ s index = none

/-- The public area before the nonce is copied: the unmarshalled template, or the default without an index. -/
def Provides (area : PublicArea) : Prop :=
  (∃ ekTemplate, T.Reads s ekTemplateIndex ekTemplate ∧ T.unmarshal ekTemplate = .ok area) ∨
    T.Misses s ekTemplateIndex ∧ area = specArea

/-- The copy stays inside, a nonce that is too long is rejected, and the result is the provided area, with the nonce and
zeros behind it in its unique field if there is a nonce. -/
structure EkPublicSound : Prop where
  inside : T.populateEkPublicInput s ≠ .outside
  rejected : ∀ i, s ekNonceIndex = some i → 512 < i.data.length → ∃ code, T.populateEkPublicInput s = .raised code
  result : ∀ inPub, T.populateEkPublicInput s = .returned inPub → ∃ area, T.Provides s area ∧
    inPub.template = match s ekNonceIndex with
      | none => area.template
      | some i => { area.template with uniqueBuffer := filled i.data 512 }

/-! ### Reading an index -/

variable {T s} {index : Handle} {data : Bytes}

theorem nvRead_reads (h : T.Reads s index data) : T.nvRead s index = .ok data := by
  obtain ⟨hfault, i, hi, rfl, hreadable⟩ := h
  rw [nvRead, hfault]
  simp only [nvRead_stored T.reads index s i hi hreadable]
  rfl

theorem nvRead_misses (h : T.Misses s index) : T.nvRead s index = .error (T.rc .openTr) := by
  rw [nvRead, h.1]
  simp only [nvRead_absent T.reads h.2]
  rfl

/-- A call on an index that neither returns its content nor misses it raises another error. -/
theorem nvRead_fails (hreads : ∀ data, ¬T.Reads s index data) (hmisses : ¬T.Misses s index) :
    ∃ code, T.nvRead s index = .error code ∧ ¬IsHandleError code := by
  rw [nvRead]
  cases hfault : T.fault index with
  | some code => exact ⟨code, rfl, T.hfault hfault⟩
  | none =>
      cases hi : s index with
      | none => exact absurd ⟨hfault, hi⟩ hmisses
      | some i =>
          have hnot : ¬(i.written = true ∨ i.data = []) := fun hreadable =>
            hreads i.data ⟨hfault, i, hi, rfl, hreadable⟩
          rw [not_or, Bool.not_eq_true] at hnot
          refine ⟨T.rc .nvRead, ?_, T.hunwritten⟩
          simp only [nvRead_unwritten T.reads hi hnot.1 hnot.2]
          rfl

theorem nvRead_cases (T : TssCalls) (s : NvStore) (index : Handle) :
    (∃ data, T.Reads s index data ∧ T.nvRead s index = .ok data) ∨
      (T.Misses s index ∧ T.nvRead s index = .error (T.rc .openTr)) ∨
      ∃ code, T.nvRead s index = .error code ∧ ¬IsHandleError code := by
  by_cases hreads : ∃ data, T.Reads s index data
  · obtain ⟨data, hdata⟩ := hreads
    exact .inl ⟨data, hdata, nvRead_reads hdata⟩
  · by_cases hmisses : T.Misses s index
    · exact .inr (.inl ⟨hmisses, nvRead_misses hmisses⟩)
    · exact .inr (.inr (nvRead_fails (not_exists.1 hreads) hmisses))

theorem Reads.unique {data' : Bytes} (h : T.Reads s index data) (h' : T.Reads s index data') : data = data' :=
  Except.ok.inj ((nvRead_reads h).symm.trans (nvRead_reads h'))

theorem Reads.not_misses (h : T.Reads s index data) : ¬T.Misses s index := by
  rintro ⟨-, hnone⟩
  obtain ⟨-, i, hi, -⟩ := h
  rw [hnone] at hi
  cases hi

/-! ### The two blocks -/

theorem populateTemplate_ok_iff {area : PublicArea} : T.populateTemplate s = .ok area ↔ T.Provides s area := by
  rw [populateTemplate, Provides]
  rcases nvRead_cases T s ekTemplateIndex with ⟨ekTemplate, hreads, hread⟩ | ⟨hmisses, hread⟩ | ⟨code, hread, hcode⟩
  · rw [hread, ok_bind, or_iff_left fun h => hreads.not_misses h.1]
    cases hunmarshal : T.unmarshal ekTemplate with
    | ok temp =>
        constructor
        · intro h
          exact ⟨ekTemplate, hreads, hunmarshal.trans h⟩
        · rintro ⟨ekTemplate', hreads', htemp⟩
          rw [← hunmarshal, hreads.unique hreads', htemp]
    | error code =>
        simp only [if_pos (T.hunmarshal hunmarshal)]
        refine iff_of_false nofun ?_
        rintro ⟨ekTemplate', hreads', htemp⟩
        rw [← hreads.unique hreads', hunmarshal] at htemp
        cases htemp
  · rw [hread, or_iff_right fun ⟨_, hreads, _⟩ => hreads.not_misses hmisses, and_iff_right hmisses]
    show (if ¬IsHandleError (T.rc .openTr) then Except.error (T.rc .openTr) else Except.ok specArea) = _ ↔ _
    rw [if_neg (not_not.2 T.habsent), Except.ok.injEq, eq_comm]
  · rw [hread]
    show (if ¬IsHandleError code then Except.error code else Except.ok specArea) = _ ↔ _
    rw [if_pos hcode]
    refine iff_of_false nofun ?_
    rintro (⟨ekTemplate, hreads, -⟩ | ⟨hmisses, -⟩)
    · rw [nvRead_reads hreads] at hread
      cases hread
    · rw [nvRead_misses hmisses] at hread
      cases hread
      exact hcode T.habsent

section

variable {area : PublicArea}

theorem populateEkPublicInput_reads {ekNonce : Bytes} (harea : T.Provides s area) (h : T.Reads s ekNonceIndex ekNonce) :
    T.populateEkPublicInput s = (area.memcpy ekNonce).elim .outside .returned := by
  rw [populateEkPublicInput, populateTemplate_ok_iff.2 harea, nvRead_reads h]

theorem populateEkPublicInput_misses (harea : T.Provides s area) (h : T.Misses s ekNonceIndex) :
    T.populateEkPublicInput s = .returned area := by
  rw [populateEkPublicInput, populateTemplate_ok_iff.2 harea, nvRead_misses h]
  exact if_neg (not_not.2 T.habsent)

/-- What is returned comes from a provided area, without a nonce or with one that fits. -/
theorem populateEkPublicInput_cases (T : TssCalls) (s : NvStore) :
    (∃ code, T.populateEkPublicInput s = .raised code) ∨
      ∃ area, T.Provides s area ∧ ((T.Misses s ekNonceIndex ∧ T.populateEkPublicInput s = .returned area) ∨
        ∃ ekNonce, T.Reads s ekNonceIndex ekNonce ∧
          T.populateEkPublicInput s = (area.memcpy ekNonce).elim .outside .returned) := by
  cases htemplate : T.populateTemplate s with
  | error code => exact .inl ⟨code, by rw [populateEkPublicInput, htemplate]⟩
  | ok area =>
      have harea := populateTemplate_ok_iff.1 htemplate
      rcases nvRead_cases T s ekNonceIndex with ⟨ekNonce, hreads, -⟩ | ⟨hmisses, -⟩ | ⟨code, hread, hcode⟩
      · exact .inr ⟨area, harea, .inr ⟨ekNonce, hreads, populateEkPublicInput_reads harea hreads⟩⟩
      · exact .inr ⟨area, harea, .inl ⟨hmisses, populateEkPublicInput_misses harea hmisses⟩⟩
      · refine .inl ⟨code, ?_⟩
        rw [populateEkPublicInput, htemplate, hread]
        exact if_pos hcode

theorem ekPublicSound_of_raised {code : ℕ} (h : T.populateEkPublicInput s = .raised code) : T.EkPublicSound s where
  inside houtside := by
    rw [h] at houtside
    cases houtside
  rejected _ _ _ := ⟨code, h⟩
  result inPub hinPub := by
    rw [h] at hinPub
    cases hinPub

theorem ekPublicSound_of_returned {inPub : PublicArea} (h : T.populateEkPublicInput s = .returned inPub)
    (harea : T.Provides s area) (hfits : ∀ i, s ekNonceIndex = some i → i.data.length ≤ 512)
    (hresult : inPub.template = match s ekNonceIndex with
      | none => area.template
      | some i => { area.template with uniqueBuffer := filled i.data 512 }) : T.EkPublicSound s where
  inside houtside := by
    rw [h] at houtside
    cases houtside
  rejected i hi hlong := absurd (hfits i hi) (not_le.2 hlong)
  result inPub' hinPub' := by
    rw [h] at hinPub'
    cases hinPub'
    exact ⟨area, harea, hresult⟩

/-- A nonce that fits is followed by zeros when nothing else stands in its place. -/
theorem memcpy_zeros_iff {ekNonce : Bytes} :
    ekNonce ++ area.template.uniqueBuffer.drop ekNonce.length = filled ekNonce 512 ↔
      ∀ c ∈ area.template.uniqueBuffer.drop ekNonce.length, c = 0 := by
  rw [filled, List.append_cancel_left_eq, List.eq_replicate_iff, List.length_drop, area.hunique]
  exact and_iff_right rfl

end

end TssCalls

/-- **The structure is populated as it should be exactly when**, for every area that the first index provides, a nonce in
the second one has at most 512 bytes and the area has only zeros behind them. -/
theorem ekPublicSound_iff (T : TssCalls) (s : NvStore) :
    T.EkPublicSound s ↔ ∀ area ekNonce, T.Provides s area → T.Reads s ekNonceIndex ekNonce →
      ekNonce.length ≤ 512 ∧ ∀ c ∈ area.template.uniqueBuffer.drop ekNonce.length, c = 0 := by
  constructor
  · intro h area ekNonce harea hnonce
    have hrun := TssCalls.populateEkPublicInput_reads harea hnonce
    have hfits : ekNonce.length ≤ 512 := by
      by_contra hlong
      rw [area.memcpy_long hlong] at hrun
      exact h.inside hrun
    refine ⟨hfits, TssCalls.memcpy_zeros_iff.1 ?_⟩
    obtain ⟨copied, hcopied, hbuffer⟩ := area.memcpy_fits hfits
    rw [hcopied, Option.elim_some] at hrun
    obtain ⟨area', -, hresult⟩ := h.result copied hrun
    obtain ⟨-, i, hi, rfl, -⟩ := hnonce
    rw [hi, hbuffer] at hresult
    exact congrArg EkTemplate.uniqueBuffer hresult
  · intro h
    rcases TssCalls.populateEkPublicInput_cases T s with
      ⟨code, hraised⟩ | ⟨area, harea, ⟨hmisses, hreturned⟩ | ⟨ekNonce, hnonce, hrun⟩⟩
    · exact TssCalls.ekPublicSound_of_raised hraised
    · apply TssCalls.ekPublicSound_of_returned hreturned harea
      · intro i hi
        rw [hmisses.2] at hi
        cases hi
      · rw [hmisses.2]
    · obtain ⟨hfits, hzeros⟩ := h area ekNonce harea hnonce
      obtain ⟨-, i, hi, rfl, -⟩ := hnonce
      obtain ⟨copied, hcopied, hbuffer⟩ := area.memcpy_fits hfits
      rw [hcopied, Option.elim_some] at hrun
      apply TssCalls.ekPublicSound_of_returned hrun harea
      · intro i' hi'
        rw [← Option.some.inj (hi.symm.trans hi')]
        exact hfits
      · rw [hi, hbuffer, TssCalls.memcpy_zeros_iff.2 hzeros]

theorem orAbsent_of_isHandleError {code : ℕ} (h : IsHandleError code) (default : EkTemplate) :
    Objects.orAbsent code default = .ok default := if_neg (not_not.2 h)

theorem orAbsent_of_not {code : ℕ} (h : ¬IsHandleError code) (default : EkTemplate) :
    Objects.orAbsent code default = .error (.nvRead code) := if_pos h

/-- The function of the operations on objects agrees with this one, as long as the copy fits. -/
def AgreesOn {Key : Type} (P : Platform Key) (T : TssCalls) (s : NvStore) : Prop :=
  T.populateEkPublicInput s = .outside ∨
    (∃ inPub, T.populateEkPublicInput s = .returned inPub ∧ Objects.populateEkPublicInput P = .ok inPub.template) ∨
    ∃ code, T.populateEkPublicInput s = .raised code ∧ Objects.populateEkPublicInput P = .error (.nvRead code)

theorem populateEkPublicInput_second {Key : Type} {P : Platform Key} {T : TssCalls} {s : NvStore} {inPub : PublicArea}
    (hnonce : P.ekNonce = T.nvRead s ekNonceIndex) (hfirst : T.populateTemplate s = .ok inPub)
    (hplatform : Objects.populateEkPublicInput P =
      match P.ekNonce with
      | .ok nonce => .ok { inPub.template with uniqueBuffer := nonce ++ inPub.template.uniqueBuffer.drop nonce.length }
      | .error rc => Objects.orAbsent rc inPub.template) : AgreesOn P T s := by
  rw [AgreesOn, hplatform, hnonce, TssCalls.populateEkPublicInput, hfirst]
  cases T.nvRead s ekNonceIndex with
  | ok ekNonce =>
      by_cases hfits : ekNonce.length ≤ 512
      · obtain ⟨copied, hcopied, hbuffer⟩ := inPub.memcpy_fits hfits
        refine .inr (.inl ⟨copied, ?_, ?_⟩)
        · simp only [hcopied, Option.elim_some]
        · rw [hbuffer]
      · left
        simp only [inPub.memcpy_long hfits, Option.elim_none]
  | error code =>
      by_cases hcode : IsHandleError code
      · exact .inr (.inl ⟨inPub, if_neg (not_not.2 hcode), orAbsent_of_isHandleError hcode _⟩)
      · exact .inr (.inr ⟨code, if_pos hcode, orAbsent_of_not hcode _⟩)

/-- The operations on objects read the two indices, and where the copy fits their function is this one. -/
theorem populateEkPublicInput_platform {Key : Type} (P : Platform Key) (T : TssCalls) (s : NvStore)
    (htemplate : P.ekTemplate = T.nvRead s ekTemplateIndex) (hnonce : P.ekNonce = T.nvRead s ekNonceIndex)
    (hunmarshal : ∀ ekTemplate, P.unmarshalTemplate ekTemplate = (T.unmarshal ekTemplate).map PublicArea.template) :
    AgreesOn P T s := by
  have hbind : P.ekTemplate >>= P.unmarshalTemplate =
      (T.nvRead s ekTemplateIndex >>= T.unmarshal).map PublicArea.template := by
    rw [htemplate]
    cases T.nvRead s ekTemplateIndex with
    | ok ekTemplate => exact hunmarshal ekTemplate
    | error code => rfl
  cases htemp : T.nvRead s ekTemplateIndex >>= T.unmarshal with
  | ok temp =>
      have hfirst : T.populateTemplate s = .ok temp := by rw [TssCalls.populateTemplate, htemp]
      apply populateEkPublicInput_second hnonce hfirst
      rw [Objects.populateEkPublicInput, hbind, htemp]
      rfl
  | error code =>
      rw [htemp] at hbind
      by_cases hcode : IsHandleError code
      · have hfirst : T.populateTemplate s = .ok specArea := by
          rw [TssCalls.populateTemplate, htemp]
          exact if_neg (not_not.2 hcode)
        apply populateEkPublicInput_second hnonce hfirst
        rw [Objects.populateEkPublicInput, hbind]
        simp only [Except.map, orAbsent_of_isHandleError hcode]
        rfl
      · have hfirst : T.populateTemplate s = .error code := by
          rw [TssCalls.populateTemplate, htemp]
          exact if_pos hcode
        refine .inr (.inr ⟨code, by rw [TssCalls.populateEkPublicInput, hfirst], ?_⟩)
        rw [Objects.populateEkPublicInput, hbind]
        simp only [Except.map, orAbsent_of_not hcode]
        rfl

namespace Sample

/-- A library whose return codes are those of an absent and an unwritten index, of a failure, and of a template that is
too short. -/
def tssCalls : TssCalls where
  reads := ⟨fun _ n => n, fun _ _ h => h, fun _ _ => le_rfl⟩
  rc
    | .openTr => 0x18B
    | .nvRead => 0x14A
    | _ => 0x101
  fault _ := none
  unmarshal _ := .error 0x90006
  habsent := by decide
  hunwritten := by decide
  hfault := nofun
  hunmarshal h := by
    cases h
    decide

/-- No template, and a nonce of one byte more than there is room for. -/
def longNonce : NvStore :=
  Function.update (fun _ => none) ekNonceIndex (some ⟨List.replicate 513 0xAA, true, by rw [List.length_replicate]; decide⟩)

end Sample

open Sample in
/-- A nonce of 513 bytes is copied past the end of the unique field. -/
theorem ekPublicSound_long_nonce :
    tssCalls.populateEkPublicInput longNonce = .outside ∧ ¬tssCalls.EkPublicSound longNonce := by
  have hnonce : tssCalls.Reads longNonce ekNonceIndex (List.replicate 513 0xAA) :=
    ⟨rfl, _, Function.update_self _ _ _, rfl, .inl rfl⟩
  have harea : tssCalls.Provides longNonce specArea :=
    .inr ⟨⟨rfl, Function.update_of_ne (by decide) _ _⟩, rfl⟩
  have hlong : ¬(List.replicate 513 (0xAA : UInt8)).length ≤ 512 := by
    rw [List.length_replicate]
    decide
  have hrun : tssCalls.populateEkPublicInput longNonce = .outside := by
    rw [TssCalls.populateEkPublicInput_reads harea hnonce, specArea.memcpy_long hlong, Option.elim_none]
  exact ⟨hrun, fun h => h.inside hrun⟩

end CvmAttestation.Tpm
