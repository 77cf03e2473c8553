import CvmAttestation.TpmPcr
import Mathlib.Data.List.TakeWhile

/-! The number of registers that a TPM reports, and the selections that are built for it. `GetPcrCount` keeps its lowest
eight bits, and `GetTssPcrSelection` takes every index below that number. Its mask has 32 bits and its selection four
octets, of which the TPM looks at one for every eight registers, rounded down. -/

namespace CvmAttestation.Tpm

open Base Base.Mask

/-- `TPMS_TAGGED_PROPERTY`. -/
structure TaggedProperty where
  property : BitVec 32
  value : BitVec 32
  deriving DecidableEq, Repr

/-- `TPM2_PT_PCR_COUNT`. -/
def ptPcrCount : BitVec 32 := 0x112

inductive SelectionError
  | capability (rc : ℕ)
  | countNotFound
  | pcr (e : PcrError)
  deriving DecidableEq, Repr

/-- The loop of `Tss2Util::GetPcrCount`. Every round looks at the first property. -/
def findPcrCount (first : TaggedProperty) : List TaggedProperty → Option (BitVec 8)
  | [] => none
  | _ :: rest => if first.property = ptPcrCount then some (first.value.setWidth 8) else findPcrCount first rest

/-- `Tss2Util::GetPcrCount`, from the answer to `GetCapability` on. -/
def getPcrCount (caps : Except ℕ (List TaggedProperty)) : Except SelectionError (BitVec 8) :=
  match caps with
  | .error rc => .error (.capability rc)
  | .ok tpmProperty =>
    match findPcrCount (tpmProperty.headD ⟨0, 0⟩) tpmProperty with
    | none => .error .countNotFound
    | some pcrCount => .ok pcrCount

/-- The loop of `GetTssPcrSelection` over the registers of a set; `none` is a shift by the width of an `int` or more. -/
def shiftedMask (pcrCount : ℕ) : List PcrValue → BitVec 32 → Option (Except PcrError (BitVec 32))
  | [], mask => some (.ok mask)
  | pcr :: pcrs, mask =>
    if pcrCount ≤ pcr.index then some (.error .indexOutOfRange)
    else if 32 ≤ pcr.index then none
    else shiftedMask pcrCount pcrs (mask ||| 1#32 <<< pcr.index)

/-- What `GetTssPcrSelection` does with a list is defined: no index is shifted by the width of an `int` or more, and the
selection has no more octets than its structure. -/
structure Selectable (pcrCount : ℕ) (pcrs : List ℕ) : Prop where
  shifts : shiftedMask pcrCount (pcrs.map blank) 0 ≠ none
  fits : ∀ hashAlg sel, getTssPcrSelection pcrCount ⟨hashAlg, pcrs.map blank⟩ hashAlg = .ok sel → sel.sizeofSelect ≤ 4

/-- `Tss2Util::GetTssPcrSelection`, from the answer to `GetCapability` on. -/
def selectPcrs (caps : Except ℕ (List TaggedProperty)) (pcrSet : PcrSet) (hashAlg : HashAlg) :
    Option (Except SelectionError PcrSelection) :=
  match getPcrCount caps with
  | .error e => some (.error e)
  | .ok pcrCount =>
    (shiftedMask pcrCount.toNat pcrSet.pcrs 0).map fun result =>
      (result.mapError .pcr).map fun mask => ⟨hashAlg, pcrCount.toNat / 8, octets mask⟩

/-- No index is shifted out of the mask, and a selection that is returned has the registers of the set in the octets that
there are. -/
structure SelectionSound (caps : Except ℕ (List TaggedProperty)) (pcrSet : PcrSet) (hashAlg : HashAlg) : Prop where
  shifts : selectPcrs caps pcrSet hashAlg ≠ none
  fits : ∀ sel, selectPcrs caps pcrSet hashAlg = some (.ok sel) → sel.sizeofSelect ≤ 4
  covers : ∀ sel, selectPcrs caps pcrSet hashAlg = some (.ok sel) →
    ∀ i, i ∈ sel.selected ↔ i ∈ pcrSet.pcrs.map PcrValue.index

/-- The sets that the code treats well for a number of registers: the indices in front of the first one out of range are
narrow enough for the mask, and if none is out of range, then all lie in whole octets, of which there are at most four. -/
structure Representable (pcrCount : ℕ) (pcrs : List PcrValue) : Prop where
  shifts : ∀ pcr ∈ pcrs.takeWhile fun pcr => pcr.index < pcrCount, pcr.index < 32
  covers : (∀ pcr ∈ pcrs, pcr.index < pcrCount) →
    pcrCount / 8 ≤ 4 ∧ ∀ pcr ∈ pcrs, pcr.index < 8 * (pcrCount / 8)

/-! ### The number of registers -/

theorem findPcrCount_of_ne {first : TaggedProperty} (h : first.property ≠ ptPcrCount) (tpmProperty : List TaggedProperty) :
    findPcrCount first tpmProperty = none := by
  induction tpmProperty with
  | nil => rfl
  | cons cap rest ih => rw [findPcrCount, if_neg h, ih]

theorem getPcrCount_cons (first : TaggedProperty) (rest : List TaggedProperty) :
    getPcrCount (.ok (first :: rest)) =
      if first.property = ptPcrCount then .ok (first.value.setWidth 8) else .error .countNotFound := by
  rw [getPcrCount, List.headD_cons]
  split_ifs with hfirst
  · rw [findPcrCount, if_pos hfirst]
  · rw [findPcrCount_of_ne hfirst]

theorem getPcrCount_ok_iff {caps : Except ℕ (List TaggedProperty)} {pcrCount : BitVec 8} :
    getPcrCount caps = .ok pcrCount ↔
      ∃ first rest, caps = .ok (first :: rest) ∧ first.property = ptPcrCount ∧ first.value.setWidth 8 = pcrCount := by
  constructor
  · intro h
    cases caps with
    | error rc => cases h
    | ok tpmProperty =>
        cases tpmProperty with
        | nil => cases h
        | cons first rest =>
            rw [getPcrCount_cons] at h
            split_ifs at h with hfirst
            exact ⟨first, rest, rfl, hfirst, Except.ok.inj h⟩
  · rintro ⟨first, rest, rfl, hfirst, hcount⟩
    rw [getPcrCount_cons, if_pos hfirst, hcount]

/-! ### The mask -/

/-- An index is shifted too far when it stands in front of the first one out of range. -/
theorem shiftedMask_eq_none_iff {pcrCount : ℕ} {pcrs : List PcrValue} {mask : BitVec 32} :
    shiftedMask pcrCount pcrs mask = none ↔ ∃ pcr ∈ pcrs.takeWhile fun pcr => pcr.index < pcrCount, 32 ≤ pcr.index := by
  induction pcrs generalizing mask with
  | nil => simp [shiftedMask]
  | cons pcr pcrs ih =>
      rw [shiftedMask, List.takeWhile_cons]
      by_cases hrange : pcr.index < pcrCount
      · rw [if_neg (by omega), if_pos (decide_eq_true hrange)]
        by_cases hwide : 32 ≤ pcr.index
        · rw [if_pos hwide]
          exact iff_of_true rfl ⟨pcr, List.mem_cons_self, hwide⟩
        · rw [if_neg hwide, ih]
          simp [hwide]
      · rw [if_pos (by omega), if_neg (by simpa using hrange)]
        simp

/-- Where no index is shifted too far, the mask is the one of `getTssPcrSelection`. -/
theorem shiftedMask_eq {pcrCount : ℕ} {pcrs : List PcrValue} {mask : BitVec 32}
    (h : shiftedMask pcrCount pcrs mask ≠ none) : shiftedMask pcrCount pcrs mask = some (pcrMask pcrCount pcrs mask) := by
  induction pcrs generalizing mask with
  | nil => rfl
  | cons pcr pcrs ih =>
      rw [shiftedMask] at h ⊢
      rw [pcrMask]
      split_ifs at h ⊢ with hrange hwide
      · rfl
      · exact absurd rfl h
      · exact ih h

/-- A set with an index out of range is refused. -/
theorem index_lt_of_ok {pcrCount : ℕ} {pcrSet : PcrSet} {hashAlg : HashAlg} {sel : PcrSelection}
    (h : getTssPcrSelection pcrCount pcrSet hashAlg = .ok sel) : ∀ pcr ∈ pcrSet.pcrs, pcr.index < pcrCount := by
  intro pcr hpcr
  by_contra hrange
  rw [getTssPcrSelection, pcrMask_error _ ⟨pcr, hpcr, not_lt.1 hrange⟩] at h
  cases h

theorem sizeofSelect_of_ok {pcrCount : ℕ} {pcrSet : PcrSet} {hashAlg : HashAlg} {sel : PcrSelection}
    (h : getTssPcrSelection pcrCount pcrSet hashAlg = .ok sel) : sel.sizeofSelect = pcrCount / 8 := by
  obtain ⟨sel', hsel', -, hsizeof, -⟩ := getTssPcrSelection_bits (index_lt_of_ok h) hashAlg
  rw [← Except.ok.inj (hsel'.symm.trans h), hsizeof]

/-! ### Lists -/

section

variable {pcrCount : ℕ} {pcrs : List ℕ}

theorem forall_blank_iff {n : ℕ} : (∀ pcr ∈ pcrs.map blank, pcr.index < n) ↔ ∀ i ∈ pcrs, i < n := by
  simp [blank]

theorem takeWhile_lt (hlt : ∀ i ∈ pcrs, i < pcrCount) :
    ((pcrs.map blank).takeWhile fun pcr => pcr.index < pcrCount) = pcrs.map blank := by
  rw [List.takeWhile_eq_self_iff]
  exact fun pcr hpcr => decide_eq_true (forall_blank_iff.2 hlt pcr hpcr)

/-- For a list that is accepted. -/
theorem selectable_iff (hlt : ∀ i ∈ pcrs, i < pcrCount) :
    Selectable pcrCount pcrs ↔ (∀ i ∈ pcrs, i < 32) ∧ pcrCount / 8 ≤ 4 := by
  have hshifts : shiftedMask pcrCount (pcrs.map blank) 0 ≠ none ↔ ∀ i ∈ pcrs, i < 32 := by
    rw [Ne, shiftedMask_eq_none_iff, takeWhile_lt hlt, ← forall_blank_iff]
    push Not
    rfl
  constructor
  · rintro ⟨hshift, hfits⟩
    obtain ⟨sel, hsel, -⟩ := @getTssPcrSelection_bits pcrCount ⟨.sha256, pcrs.map blank⟩ (forall_blank_iff.2 hlt) .sha256
    exact ⟨hshifts.1 hshift, (sizeofSelect_of_ok hsel).symm.trans_le (hfits .sha256 sel hsel)⟩
  · rintro ⟨hshift, hle⟩
    exact ⟨hshifts.2 hshift, fun hashAlg sel hsel => (sizeofSelect_of_ok hsel).trans_le hle⟩

/-- The registers of a list that is treated well are in the octets of its selection. -/
theorem representable_iff :
    Representable pcrCount (pcrs.map blank) ↔
      Selectable pcrCount pcrs ∧ ((∀ i ∈ pcrs, i < pcrCount) → ∀ i ∈ pcrs, i < 8 * (pcrCount / 8)) := by
  constructor
  · rintro ⟨hshifts, hcovers⟩
    rw [forall_blank_iff, forall_blank_iff] at hcovers
    refine ⟨⟨?_, fun hashAlg sel hsel => ?_⟩, fun hlt => (hcovers hlt).2⟩
    · rw [Ne, shiftedMask_eq_none_iff]
      rintro ⟨pcr, hpcr, hwide⟩
      exact absurd (hshifts pcr hpcr) (not_lt.2 hwide)
    · rw [sizeofSelect_of_ok hsel]
      exact (hcovers (forall_blank_iff.1 (index_lt_of_ok hsel))).1
  · rintro ⟨hselectable, hcovers⟩
    refine ⟨fun pcr hpcr => ?_, ?_⟩
    · by_contra hwide
      exact hselectable.shifts (shiftedMask_eq_none_iff.2 ⟨pcr, hpcr, not_lt.1 hwide⟩)
    · rw [forall_blank_iff, forall_blank_iff]
      exact fun hlt => ⟨((selectable_iff hlt).1 hselectable).2, hcovers hlt⟩

end

section

variable {caps : Except ℕ (List TaggedProperty)} {pcrSet : PcrSet} {hashAlg : HashAlg} {pcrCount : BitVec 8}

theorem selectPcrs_eq_none_iff (h : getPcrCount caps = .ok pcrCount) :
    selectPcrs caps pcrSet hashAlg = none ↔ shiftedMask pcrCount.toNat pcrSet.pcrs 0 = none := by
  rw [selectPcrs, h]
  exact Option.map_eq_none_iff

theorem selectPcrs_eq (h : getPcrCount caps = .ok pcrCount) (hshifts : selectPcrs caps pcrSet hashAlg ≠ none) :
    selectPcrs caps pcrSet hashAlg = some ((getTssPcrSelection pcrCount.toNat pcrSet hashAlg).mapError .pcr) := by
  have hmask := shiftedMask_eq (mt (selectPcrs_eq_none_iff h).2 hshifts)
  rw [selectPcrs, h, getTssPcrSelection]
  simp only [hmask, Option.map_some]
  cases pcrMask pcrCount.toNat pcrSet.pcrs 0 with
  | ok mask => rfl
  | error e => rfl

theorem selectPcrs_ok_iff (h : getPcrCount caps = .ok pcrCount) (hshifts : selectPcrs caps pcrSet hashAlg ≠ none)
    {sel : PcrSelection} :
    selectPcrs caps pcrSet hashAlg = some (.ok sel) ↔ getTssPcrSelection pcrCount.toNat pcrSet hashAlg = .ok sel := by
  rw [selectPcrs_eq h hshifts, Option.some.injEq]
  exact mapError_ok_iff

theorem Representable.selectionSound (h : getPcrCount caps = .ok pcrCount)
    (hrep : Representable pcrCount.toNat pcrSet.pcrs) : SelectionSound caps pcrSet hashAlg := by
  have hshifts : selectPcrs caps pcrSet hashAlg ≠ none := by
    rw [Ne, selectPcrs_eq_none_iff h, shiftedMask_eq_none_iff]
    rintro ⟨pcr, hpcr, hwide⟩
    exact absurd (hrep.shifts pcr hpcr) (by omega)
  have hselection : ∀ sel, selectPcrs caps pcrSet hashAlg = some (.ok sel) →
      sel.sizeofSelect ≤ 4 ∧ ∀ i, i ∈ sel.selected ↔ i ∈ pcrSet.pcrs.map PcrValue.index := by
    intro sel hsel
    rw [selectPcrs_ok_iff h hshifts] at hsel
    have hlt := index_lt_of_ok hsel
    obtain ⟨hsize, hwhole⟩ := hrep.covers hlt
    obtain ⟨sel', hsel', -, hsizeof, -, hbits⟩ := getTssPcrSelection_bits hlt hashAlg
    obtain rfl : sel' = sel := Except.ok.inj (hsel'.symm.trans hsel)
    refine ⟨hsizeof.trans_le hsize, fun i => ?_⟩
    rw [PcrSelection.selected, mem_indices, hsizeof]
    constructor
    · rintro ⟨hi, hbit⟩
      rw [hbits i (by omega)] at hbit
      exact of_decide_eq_true hbit
    · intro hi
      obtain ⟨pcr, hpcr, rfl⟩ := List.mem_map.1 hi
      have hinside := hwhole pcr hpcr
      refine ⟨hinside, ?_⟩
      rw [hbits _ (by omega)]
      exact decide_eq_true hi
  exact ⟨hshifts, fun sel hsel => (hselection sel hsel).1, fun sel hsel => (hselection sel hsel).2⟩

theorem SelectionSound.representable (h : getPcrCount caps = .ok pcrCount) (hsound : SelectionSound caps pcrSet hashAlg) :
    Representable pcrCount.toNat pcrSet.pcrs where
  shifts pcr hpcr := by
    by_contra hwide
    exact hsound.shifts ((selectPcrs_eq_none_iff h).2 (shiftedMask_eq_none_iff.2 ⟨pcr, hpcr, by omega⟩))
  covers hlt := by
    obtain ⟨sel, hsel, -, hsizeof, -⟩ := getTssPcrSelection_bits hlt hashAlg
    have hselected := (selectPcrs_ok_iff h hsound.shifts).2 hsel
    rw [← hsizeof]
    refine ⟨hsound.fits sel hselected, fun pcr hpcr => ?_⟩
    exact (mem_indices.1 ((hsound.covers sel hselected pcr.index).2 (List.mem_map_of_mem hpcr))).1

end

/-- **A selection is sound exactly when** the set is representable for the lowest eight bits of the number of registers
that the TPM reports. -/
theorem selectionSound_iff (caps : Except ℕ (List TaggedProperty)) (pcrSet : PcrSet) (hashAlg : HashAlg) :
    SelectionSound caps pcrSet hashAlg ↔
      ∀ first rest, caps = .ok (first :: rest) → first.property = ptPcrCount →
        Representable (first.value.toNat % 256) pcrSet.pcrs := by
  constructor
  · intro h first rest hcaps hfirst
    have hcount := h.representable (getPcrCount_ok_iff.2 ⟨first, rest, hcaps, hfirst, rfl⟩)
    rwa [BitVec.toNat_setWidth] at hcount
  · intro h
    cases hcount : getPcrCount caps with
    | ok pcrCount =>
        obtain ⟨first, rest, hcaps, hfirst, rfl⟩ := getPcrCount_ok_iff.1 hcount
        have hrep := h first rest hcaps hfirst
        rw [← BitVec.toNat_setWidth 8] at hrep
        exact hrep.selectionSound hcount
    | error e =>
        have hraises : selectPcrs caps pcrSet hashAlg = some (.error e) := by rw [selectPcrs, hcount]
        refine ⟨?_, ?_, ?_⟩
        all_goals
          rw [hraises]
          nofun

/-- For 27 registers there are three octets, and the register 25 is in none of them. -/
theorem selectionSound_lost_register :
    selectPcrs (.ok [⟨ptPcrCount, 27⟩]) ⟨.sha256, [blank 25]⟩ .sha256 = some (.ok ⟨.sha256, 3, [0, 0, 0, 2]⟩) ∧
      ¬SelectionSound (.ok [⟨ptPcrCount, 27⟩]) ⟨.sha256, [blank 25]⟩ .sha256 := by
  have hsel : selectPcrs (.ok [⟨ptPcrCount, 27⟩]) ⟨.sha256, [blank 25]⟩ .sha256 =
      some (.ok ⟨.sha256, 3, [0, 0, 0, 2]⟩) := by decide
  refine ⟨hsel, fun h => ?_⟩
  have hcovered := (h.covers _ hsel 25).2 (by decide)
  exact absurd hcovered (by decide)

end CvmAttestation.Tpm
