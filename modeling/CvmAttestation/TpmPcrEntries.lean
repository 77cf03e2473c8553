import CvmAttestation.TpmEphemeral

/-! Which value stands in which entry. `GetPCRValues` makes one entry for each number of the list it is given, but reads
through a mask, and the digests come back in ascending order, each register once. They are written to the entries by
position. An entry that the mask has no register for stays empty, and a register that is not allocated in the bank has
no value at all: a read skips it, and its bit is never taken out of the selection. -/

namespace CvmAttestation.Tpm

open Base Base.Mask

/-- The registers of a TPM, how many it reports, and which are allocated in each bank. -/
structure PcrTpm where
  pcrCount : Nat
  allocated : HashAlg → Nat → Bool
  registers : PcrState

/-- How many values each read returns at most. -/
structure Split where
  batch : Nat → Nat
  pos : ∀ k, 1 ≤ batch k

/-- The value of a register, when the bank has it. -/
def PcrTpm.value? (tpm : PcrTpm) (hashAlg : HashAlg) (i : Nat) : Option Bytes :=
  if tpm.allocated hashAlg i then some (tpm.registers.value hashAlg i) else none

/-- The registers of a selection that the bank has. -/
def PcrTpm.present (tpm : PcrTpm) (sel : PcrSelection) : List Nat := sel.selected.filter (tpm.allocated sel.hash)

/-- `PCR_Read` of such a TPM: registers that are not allocated are left out. -/
def PcrTpm.pcrRead (tpm : PcrTpm) (n : Nat) (sel : PcrSelection) : List Bytes × PcrSelection :=
  (((tpm.present sel).take n).map (tpm.registers.value sel.hash),
    { sel with pcrSelect := ofIndices 4 ((tpm.present sel).take n) })

def PcrTpm.getPCRValues (tpm : PcrTpm) (split : Split) (pcrs : List Nat) (hashAlg : HashAlg) (fuel : Nat) :
    Option (Except PcrError PcrSet) :=
  let pcrSet : PcrSet := ⟨hashAlg, pcrs.map blank⟩
  match getTssPcrSelection tpm.pcrCount pcrSet hashAlg with
  | .error e => some (.error e)
  | .ok selection =>
    (populateLoopWith (fun k => tpm.pcrRead (split.batch k)) fuel 0 selection 0 0 pcrSet.pcrs).map
      fun pcrs => .ok ⟨hashAlg, pcrs⟩

/-- The selection is defined, and whenever the call returns, each entry holds the value of the register it names. -/
structure EntriesCorrect (tpm : PcrTpm) (split : Split) (pcrs : List Nat) (hashAlg : HashAlg) : Prop where
  selectable : Selectable tpm.pcrCount pcrs
  values : ∀ fuel set, tpm.getPCRValues split pcrs hashAlg fuel = some (.ok set) →
    ∀ pcr ∈ set.pcrs, tpm.value? hashAlg pcr.index = some pcr.digest

/-! ### Registers that are allocated -/

/-- More fuel does not change a run that has come to its end. -/
theorem populateReads_mono {read : Nat → PcrSelection → List Bytes × PcrSelection} {fuel fuel' reads : Nat}
    {sel : PcrSelection} {pcrCount maskSum : Nat} {pcrs : List PcrValue} {result : List PcrValue × Nat}
    (hle : fuel ≤ fuel') (h : populateReads read fuel reads sel pcrCount maskSum pcrs = some result) :
    populateReads read fuel' reads sel pcrCount maskSum pcrs = some result := by
  induction fuel generalizing fuel' reads sel pcrCount maskSum pcrs with
  | zero => cases h
  | succ fuel ih =>
      obtain ⟨fuel', rfl⟩ : ∃ m, fuel' = m + 1 := ⟨fuel' - 1, by omega⟩
      have hle' : fuel ≤ fuel' := by omega
      simp only [populateReads] at h ⊢
      split_ifs at h ⊢
      · exact ih hle' h
      · exact h
      · exact ih hle' h
      · exact h

theorem populateLoopWith_mono {read : Nat → PcrSelection → List Bytes × PcrSelection} {fuel fuel' reads : Nat}
    {sel : PcrSelection} {pcrCount maskSum : Nat} {pcrs result : List PcrValue} (hle : fuel ≤ fuel')
    (h : populateLoopWith read fuel reads sel pcrCount maskSum pcrs = some result) :
    populateLoopWith read fuel' reads sel pcrCount maskSum pcrs = some result := by
  obtain ⟨rounds, hrounds, rfl⟩ := Option.map_eq_some_iff.1 h
  rw [populateLoopWith, populateReads_mono hle hrounds, Option.map_some]

section Loop

variable (tpm : PcrTpm) (batch : Nat → Nat) {hashAlg : HashAlg}

theorem PcrTpm.pcrRead_eq {sel : PcrSelection} {asc : List Nat} (h : sel.Holds hashAlg asc)
    (hall : ∀ i ∈ asc, tpm.allocated hashAlg i = true) (n : Nat) :
    tpm.pcrRead n sel = Tpm.pcrRead tpm.registers n sel := by
  have hpresent : tpm.present sel = sel.selected := by
    rw [PcrTpm.present, h.hash, h.selected]
    exact List.filter_eq_self.2 hall
  rw [PcrTpm.pcrRead, hpresent, Tpm.pcrRead]

/-- Where all selected registers are allocated, the loop is the one over the registers alone. -/
theorem populateReads_allocated (fuel reads : Nat) {sel : PcrSelection} {asc : List Nat} (h : sel.Holds hashAlg asc)
    (hall : ∀ i ∈ asc, tpm.allocated hashAlg i = true) (pcrCount maskSum : Nat) (pcrs : List PcrValue) :
    populateReads (fun k => tpm.pcrRead (batch k)) fuel reads sel pcrCount maskSum pcrs =
      populateReads (fun k => Tpm.pcrRead tpm.registers (batch k)) fuel reads sel pcrCount maskSum pcrs := by
  induction fuel generalizing reads sel asc pcrCount maskSum pcrs with
  | zero => rfl
  | succ fuel ih =>
      have hread : Tpm.pcrRead tpm.registers (batch reads) sel =
          ((sel.selected.take (batch reads)).map (tpm.registers.value sel.hash),
            { sel with pcrSelect := ofIndices 4 (sel.selected.take (batch reads)) }) := rfl
      have hleft := ih (reads + 1) (h.left (batch reads)) (fun i hi => hall i (List.mem_of_mem_drop hi))
      rw [PcrSelection.left] at hleft
      simp only [populateReads, tpm.pcrRead_eq h hall, hread, hleft, ih (reads + 1) h hall]

theorem populateLoopWith_eq (split : Split) {sel : PcrSelection} {asc pcrs : List Nat} (h : sel.Holds hashAlg asc)
    (hroom : asc.length ≤ pcrs.length) (hall : ∀ i ∈ asc, tpm.allocated hashAlg i = true) {fuel : Nat}
    (hfuel : pcrs.length < fuel) :
    populateLoopWith (fun k => tpm.pcrRead (split.batch k)) fuel 0 sel 0 0 (pcrs.map blank) =
      some (fill (pcrs.map blank) (asc.map (tpm.registers.value hashAlg))) := by
  have hloop := populateLoop_fill tpm.registers hashAlg split.pos h hroom hfuel
  rw [populateLoopWith, populateReads_allocated tpm split.batch fuel 0 h hall]
  exact hloop

/-- Registers that a read does not return stay in the selection. -/
theorem mem_indices_clear {sel : PcrSelection} {asc taken : List Nat} (h : sel.Holds hashAlg asc) {i : Nat}
    (hi : i ∈ asc) (htaken : i ∉ taken) :
    i ∈ indices sel.sizeofSelect (clear sel.sizeofSelect sel.pcrSelect (ofIndices 4 taken)) := by
  rw [← h.selected, PcrSelection.selected, mem_indices] at hi
  have hsize := h.size
  rw [mem_indices, bit_clear hi.1, bit_ofIndices (by omega), hi.2]
  exact ⟨hi.1, by simpa using htaken⟩

/-- A selected register that is not allocated is never taken out of the selection: a loop that has read anything goes on
for ever. -/
theorem populateReads_none {i : Nat} (hi : tpm.allocated hashAlg i = false) (fuel reads : Nat) {sel : PcrSelection}
    {asc : List Nat} (h : sel.Holds hashAlg asc) (hmem : i ∈ asc) (pcrCount : Nat) {maskSum : Nat}
    (hread : maskSum ≠ 0 ∨ ((tpm.present sel).take (batch reads)).length ≠ 0) (pcrs : List PcrValue) :
    populateReads (fun k => tpm.pcrRead (batch k)) fuel reads sel pcrCount maskSum pcrs = none := by
  induction fuel generalizing reads sel asc pcrCount maskSum pcrs with
  | zero => rfl
  | succ fuel ih =>
      generalize htaken : (tpm.present sel).take (batch reads) = taken at hread
      have hout : tpm.pcrRead (batch reads) sel =
          (taken.map (tpm.registers.value sel.hash), { sel with pcrSelect := ofIndices 4 taken }) := by
        rw [PcrTpm.pcrRead, htaken]
      have hnot : i ∉ taken := by
        intro hi'
        rw [← htaken] at hi'
        have hallocated := (List.mem_filter.1 (List.mem_of_mem_take hi')).2
        rw [h.hash, hi] at hallocated
        exact Bool.false_ne_true hallocated
      have hstay := mem_indices_clear h hmem hnot
      have hholds : PcrSelection.Holds { sel with pcrSelect := clear sel.sizeofSelect sel.pcrSelect (ofIndices 4 taken) }
          hashAlg (indices sel.sizeofSelect (clear sel.sizeofSelect sel.pcrSelect (ofIndices 4 taken))) :=
        ⟨h.hash, by rw [length_clear, h.length], h.size, rfl⟩
      have hsum := hholds.sum_eq_zero_iff.not.2 (List.ne_nil_of_mem hstay)
      have hnext := fun pcrs pcrCount => ih (reads + 1) hholds hstay pcrCount (.inl hsum) pcrs
      simp only [populateReads, hout, List.length_map]
      by_cases hlen : taken.length ≠ 0
      · rw [if_pos hlen, if_pos hsum, hnext]
      · have hmask : maskSum ≠ 0 := hread.resolve_right hlen
        rw [if_neg hlen, if_pos hmask]
        exact ih (reads + 1) h hmem pcrCount (.inl hmask) pcrs

/-- A loop whose first read returns nothing leaves the entries as they are. -/
theorem populateLoopWith_empty {sel : PcrSelection} (hpresent : tpm.present sel = []) (fuel : Nat)
    (pcrs : List PcrValue) :
    populateLoopWith (fun k => tpm.pcrRead (batch k)) (fuel + 1) 0 sel 0 0 pcrs = some pcrs := by
  simp [populateLoopWith, populateReads, PcrTpm.pcrRead, hpresent]

end Loop

/-! ### Entries -/

/-- Entries and digests side by side. -/
theorem fill_blank_eq_iff (v : Nat → Bytes) (hv : ∀ i, v i ≠ []) (l : List Nat) (digests : List Bytes)
    (hlen : digests.length ≤ l.length) :
    (∀ pcr ∈ fill (l.map blank) digests, v pcr.index = pcr.digest) ↔ l.map v = digests := by
  induction l generalizing digests with
  | nil =>
      rw [List.length_nil, Nat.le_zero, List.length_eq_zero_iff] at hlen
      simp [hlen]
  | cons i l ih =>
      cases digests with
      | nil => simp [blank, hv]
      | cons digest digests =>
          rw [List.length_cons, List.length_cons, Nat.add_le_add_iff_right] at hlen
          rw [List.map_cons, fill, List.forall_mem_cons, ih digests hlen]
          simp [blank]

section Entries

variable (tpm : PcrTpm) (split : Split) {pcrs : List Nat} (hashAlg : HashAlg) (hlt : ∀ i ∈ pcrs, i < tpm.pcrCount)
  (hle : tpm.pcrCount / 8 ≤ 4)

include hlt hle

theorem PcrTpm.getPCRValues_eq :
    ∃ sel, sel.Holds hashAlg (ascending tpm.pcrCount pcrs) ∧ ∀ fuel,
      tpm.getPCRValues split pcrs hashAlg fuel =
        (populateLoopWith (fun k => tpm.pcrRead (split.batch k)) fuel 0 sel 0 0 (pcrs.map blank)).map
          fun pcrs => .ok ⟨hashAlg, pcrs⟩ := by
  obtain ⟨sel, hsel, hholds⟩ := getTssPcrSelection_blank hlt hle hashAlg
  refine ⟨sel, hholds, fun fuel => ?_⟩
  rw [PcrTpm.getPCRValues, hsel]

/-- **The values, by position**: enough fuel gives the digests of the mask, in ascending order. -/
theorem PcrTpm.getPCRValues_ok (hall : ∀ i ∈ ascending tpm.pcrCount pcrs, tpm.allocated hashAlg i = true) {fuel : Nat}
    (hfuel : pcrs.length < fuel) :
    tpm.getPCRValues split pcrs hashAlg fuel =
      some (.ok ⟨hashAlg, fill (pcrs.map blank)
        ((ascending tpm.pcrCount pcrs).map (tpm.registers.value hashAlg))⟩) := by
  obtain ⟨sel, hholds, hrun⟩ := tpm.getPCRValues_eq split hashAlg hlt hle
  rw [hrun, populateLoopWith_eq tpm split hholds (length_ascending_le _ _) hall hfuel, Option.map_some]

theorem PcrTpm.getPCRValues_unique (hall : ∀ i ∈ ascending tpm.pcrCount pcrs, tpm.allocated hashAlg i = true)
    {fuel : Nat} {set : PcrSet} (hset : tpm.getPCRValues split pcrs hashAlg fuel = some (.ok set)) :
    set = ⟨hashAlg, fill (pcrs.map blank) ((ascending tpm.pcrCount pcrs).map (tpm.registers.value hashAlg))⟩ := by
  obtain ⟨sel, hholds, hrun⟩ := tpm.getPCRValues_eq split hashAlg hlt hle
  rw [hrun, Option.map_eq_some_iff] at hset
  obtain ⟨result, hresult, heq⟩ := hset
  have hlonger := populateLoopWith_mono (Nat.le_max_left fuel (pcrs.length + 1)) hresult
  rw [populateLoopWith_eq tpm split hholds (length_ascending_le _ _) hall (by omega)] at hlonger
  rw [← Except.ok.inj heq, Option.some.inj hlonger]

/-- Where all selected registers are allocated, the entries are right when the order of the list makes no difference and
the selection has all of it. -/
theorem values_allocated (hall : ∀ i ∈ ascending tpm.pcrCount pcrs, tpm.allocated hashAlg i = true) :
    (∀ fuel set, tpm.getPCRValues split pcrs hashAlg fuel = some (.ok set) →
      ∀ pcr ∈ set.pcrs, tpm.value? hashAlg pcr.index = some pcr.digest) ↔
      pcrs.map (tpm.registers.value hashAlg) =
        (ascending tpm.pcrCount pcrs).map (tpm.registers.value hashAlg) := by
  have hsize : ∀ i, tpm.registers.value hashAlg i ≠ [] := by
    intro i hnil
    have hlength := tpm.registers.size_eq hashAlg i
    rw [hnil] at hlength
    cases hashAlg <;> cases hlength
  have hroom : ((ascending tpm.pcrCount pcrs).map (tpm.registers.value hashAlg)).length ≤ pcrs.length := by
    rw [List.length_map]
    exact length_ascending_le _ _
  constructor
  · intro h
    rw [← fill_blank_eq_iff _ hsize _ _ hroom]
    intro pcr hpcr
    have hget := h _ _ (tpm.getPCRValues_ok split hashAlg hlt hle hall (Nat.lt_succ_self _)) pcr hpcr
    rw [PcrTpm.value?] at hget
    split_ifs at hget
    exact Option.some.inj hget
  · intro h fuel set hset pcr hpcr
    obtain rfl := tpm.getPCRValues_unique split hashAlg hlt hle hall hset
    have hindex : pcr.index ∈ pcrs := by
      have hmem : pcr.index ∈ (fill (pcrs.map blank)
          ((ascending tpm.pcrCount pcrs).map (tpm.registers.value hashAlg))).map PcrValue.index :=
        List.mem_map_of_mem hpcr
      rwa [map_index_fill] at hmem
    have hsame : (ascending tpm.pcrCount pcrs).length = pcrs.length := by
      simpa using (congrArg List.length h).symm
    have hvalue := (fill_blank_eq_iff _ hsize _ _ hroom).2 h pcr hpcr
    rw [PcrTpm.value?, if_pos (hall _ (mem_ascending_of_length hsame hindex)), hvalue]

/-- Where some selected registers are allocated and others are not, the call does not return. -/
theorem PcrTpm.getPCRValues_none {i j : Nat} (hi : i ∈ ascending tpm.pcrCount pcrs)
    (halloc : tpm.allocated hashAlg i = true) (hj : j ∈ ascending tpm.pcrCount pcrs)
    (hfree : tpm.allocated hashAlg j = false) (fuel : Nat) :
    tpm.getPCRValues split pcrs hashAlg fuel = none := by
  obtain ⟨sel, hholds, hrun⟩ := tpm.getPCRValues_eq split hashAlg hlt hle
  have hpresent : i ∈ tpm.present sel := by
    rw [PcrTpm.present, List.mem_filter, hholds.selected, hholds.hash]
    exact ⟨hi, halloc⟩
  have hlen : ((tpm.present sel).take (split.batch 0)).length ≠ 0 := by
    have hpos := List.length_pos_of_mem hpresent
    have hbatch := split.pos 0
    rw [List.length_take]
    omega
  rw [hrun, populateLoopWith, populateReads_none tpm split.batch hfree fuel 0 hholds hj 0 (.inr hlen)]
  rfl

/-- Where no selected register is allocated, nothing is read and the entries stay empty. -/
theorem values_unallocated (hfree : ∀ i ∈ ascending tpm.pcrCount pcrs, tpm.allocated hashAlg i = false) :
    (∀ fuel set, tpm.getPCRValues split pcrs hashAlg fuel = some (.ok set) →
      ∀ pcr ∈ set.pcrs, tpm.value? hashAlg pcr.index = some pcr.digest) ↔ pcrs = [] := by
  obtain ⟨sel, hholds, hrun⟩ := tpm.getPCRValues_eq split hashAlg hlt hle
  have hpresent : tpm.present sel = [] := by
    rw [PcrTpm.present, hholds.selected, hholds.hash, List.filter_eq_nil_iff]
    intro i hi
    rw [hfree i hi]
    exact Bool.false_ne_true
  have hloop : ∀ fuel, tpm.getPCRValues split pcrs hashAlg (fuel + 1) = some (.ok ⟨hashAlg, pcrs.map blank⟩) := by
    intro fuel
    rw [hrun, populateLoopWith_empty tpm split.batch hpresent, Option.map_some]
  constructor
  · intro h
    rw [List.eq_nil_iff_forall_not_mem]
    intro i hi
    have hget := h _ _ (hloop 0) (blank i) (List.mem_map_of_mem hi)
    have hsize := tpm.registers.size_eq hashAlg i
    rw [PcrTpm.value?, blank] at hget
    split_ifs at hget
    rw [Option.some.inj hget] at hsize
    cases hashAlg <;> cases hsize
  · rintro rfl fuel set hset pcr hpcr
    cases fuel with
    | zero =>
        rw [hrun] at hset
        cases hset
    | succ fuel =>
        rw [hloop] at hset
        cases hset
        cases hpcr

theorem values_iff :
    (∀ fuel set, tpm.getPCRValues split pcrs hashAlg fuel = some (.ok set) →
      ∀ pcr ∈ set.pcrs, tpm.value? hashAlg pcr.index = some pcr.digest) ↔
      ((∀ i ∈ ascending tpm.pcrCount pcrs, tpm.allocated hashAlg i = true) →
        pcrs.map (tpm.registers.value hashAlg) =
          (ascending tpm.pcrCount pcrs).map (tpm.registers.value hashAlg)) ∧
      ((∀ i ∈ ascending tpm.pcrCount pcrs, tpm.allocated hashAlg i = false) → pcrs = []) := by
  by_cases hall : ∀ i ∈ ascending tpm.pcrCount pcrs, tpm.allocated hashAlg i = true
  · rw [values_allocated tpm split hashAlg hlt hle hall]
    refine ⟨fun h => ⟨fun _ => h, fun hfree => ?_⟩, fun h => h.1 hall⟩
    rw [← values_unallocated tpm split hashAlg hlt hle hfree, values_allocated tpm split hashAlg hlt hle hall]
    exact h
  · by_cases hfree : ∀ i ∈ ascending tpm.pcrCount pcrs, tpm.allocated hashAlg i = false
    · rw [values_unallocated tpm split hashAlg hlt hle hfree]
      exact ⟨fun h => ⟨fun hall' => absurd hall' hall, fun _ => h⟩, fun h => h.2 hfree⟩
    · refine ⟨fun _ => ⟨fun hall' => absurd hall' hall, fun hfree' => absurd hfree' hfree⟩, fun _ fuel set hset => ?_⟩
      push Not at hall hfree
      obtain ⟨j, hj, hmissing⟩ := hall
      obtain ⟨i, hi, halloc⟩ := hfree
      rw [tpm.getPCRValues_none split hashAlg hlt hle hi (Bool.eq_true_of_not_eq_false halloc) hj
        (Bool.eq_false_of_not_eq_true hmissing)] at hset
      cases hset

omit hle in
/-- The entries of one state. -/
theorem entriesCorrect_iff :
    EntriesCorrect tpm split pcrs hashAlg ↔
      ((∀ i ∈ pcrs, i < 32) ∧ tpm.pcrCount / 8 ≤ 4) ∧
      ((∀ i ∈ ascending tpm.pcrCount pcrs, tpm.allocated hashAlg i = true) →
        pcrs.map (tpm.registers.value hashAlg) =
          (ascending tpm.pcrCount pcrs).map (tpm.registers.value hashAlg)) ∧
      ((∀ i ∈ ascending tpm.pcrCount pcrs, tpm.allocated hashAlg i = false) → pcrs = []) := by
  rw [← selectable_iff hlt]
  constructor
  · rintro ⟨hselectable, hvalues⟩
    have hle := ((selectable_iff hlt).1 hselectable).2
    exact ⟨hselectable, (values_iff tpm split hashAlg hlt hle).1 hvalues⟩
  · rintro ⟨hselectable, hvalues⟩
    have hle := ((selectable_iff hlt).1 hselectable).2
    exact ⟨hselectable, (values_iff tpm split hashAlg hlt hle).2 hvalues⟩

end Entries

section Numbered

variable {pcrs : List Nat} (hashAlg : HashAlg)

/-- Registers that all hold different values. -/
def numbered : PcrState where
  value hashAlg i := List.replicate hashAlg.size (UInt8.ofNat i)
  size_eq _ _ := List.length_replicate

theorem numbered_head (hashAlg : HashAlg) {i : Nat} (hi : i < 32) :
    ((numbered.value hashAlg i).headD 0).toNat = i := by
  have hbyte : (UInt8.ofNat i).toNat = i := by
    rw [UInt8.toNat_ofNat']
    omega
  cases hashAlg <;> exact hbyte

theorem map_numbered_head (hlt : ∀ i ∈ pcrs, i < 32) :
    (pcrs.map (numbered.value hashAlg)).map (fun digest => (digest.headD 0).toNat) = pcrs := by
  rw [List.map_map]
  refine (List.map_congr_left fun i hi => ?_).trans (List.map_id pcrs)
  exact numbered_head hashAlg (hlt i hi)

/-- A list of which the values in its own order are always those in ascending order. -/
theorem map_value_eq_iff {pcrCount : Nat} (hlt : ∀ i ∈ pcrs, i < 32) :
    (∀ s : PcrState, pcrs.map (s.value hashAlg) = (ascending pcrCount pcrs).map (s.value hashAlg)) ↔
      ascending pcrCount pcrs = pcrs := by
  constructor
  · intro h
    calc
      ascending pcrCount pcrs
        = ((ascending pcrCount pcrs).map (numbered.value hashAlg)).map fun digest => (digest.headD 0).toNat :=
          (map_numbered_head hashAlg fun i hi => hlt i (mem_of_mem_ascending hi)).symm
      _ = (pcrs.map (numbered.value hashAlg)).map fun digest => (digest.headD 0).toNat := by rw [h numbered]
      _ = pcrs := map_numbered_head hashAlg hlt
  · intro h s
    rw [h]

end Numbered

/-- **When each entry holds the value of the register it names.** The selection has to be defined. For one state of the
registers the entries are right unless the call returns, which it does where the bank has all selected registers or none
of them, and the values in the order of the list are not those of the selected registers in ascending order; with none of
them only the empty list is right. A list is right in all states when it is strictly ascending and there are octets for
all of it. -/
theorem getPCRValues_entries_iff (tpm : PcrTpm) {pcrs : List Nat} (hashAlg : HashAlg)
    (hlt : ∀ i ∈ pcrs, i < tpm.pcrCount) :
    (∀ split, EntriesCorrect tpm split pcrs hashAlg ↔
      ((∀ i ∈ pcrs, i < 32) ∧ tpm.pcrCount / 8 ≤ 4) ∧
      ((∀ i ∈ ascending tpm.pcrCount pcrs, tpm.allocated hashAlg i = true) →
        pcrs.map (tpm.registers.value hashAlg) =
          (ascending tpm.pcrCount pcrs).map (tpm.registers.value hashAlg)) ∧
      ((∀ i ∈ ascending tpm.pcrCount pcrs, tpm.allocated hashAlg i = false) → pcrs = [])) ∧
    ((∀ registers split, EntriesCorrect { tpm with registers := registers } split pcrs hashAlg) ↔
      ((∀ i ∈ pcrs, i < 32) ∧ tpm.pcrCount / 8 ≤ 4) ∧
      ((∀ i ∈ ascending tpm.pcrCount pcrs, tpm.allocated hashAlg i = true) →
        pcrs.Pairwise (· < ·) ∧ ∀ i ∈ pcrs, i < 8 * (tpm.pcrCount / 8)) ∧
      ((∀ i ∈ ascending tpm.pcrCount pcrs, tpm.allocated hashAlg i = false) → pcrs = [])) := by
  refine ⟨fun split => entriesCorrect_iff tpm split hashAlg hlt, ?_⟩
  have hiff := fun registers split =>
    @entriesCorrect_iff { tpm with registers := registers } split pcrs hashAlg hlt
  constructor
  · intro h
    have hone := (hiff tpm.registers ⟨fun _ => 1, fun _ => le_refl 1⟩).1 (h _ _)
    refine ⟨hone.1, fun hall => ?_, hone.2.2⟩
    rw [← ascending_eq_iff, ← map_value_eq_iff hashAlg hone.1.1]
    exact fun s => ((hiff s ⟨fun _ => 1, fun _ => le_refl 1⟩).1 (h _ _)).2.1 hall
  · rintro ⟨hdefined, hordered, hnil⟩ registers split
    rw [hiff]
    exact ⟨hdefined, fun hall => (map_value_eq_iff hashAlg hdefined.1).2 (ascending_eq_iff.2 (hordered hall)) registers,
      hnil⟩

namespace Sample

/-- A TPM with 24 registers, of which the SHA-256 bank has all, and the SHA-1 bank none. -/
def pcrTpm : PcrTpm where
  pcrCount := 24
  allocated hashAlg _ := decide (hashAlg = .sha256)
  registers := numbered

end Sample

/-- Registers 1 and 0, in this order: each entry holds the value of the other register. -/
theorem getPCRValues_swapped : ¬EntriesCorrect Sample.pcrTpm ⟨fun _ => 8, fun _ => by decide⟩ [1, 0] .sha256 := by
  intro h
  have hentry := h.values 1 ⟨.sha256, [⟨1, List.replicate 32 0⟩, ⟨0, List.replicate 32 1⟩]⟩ (by decide +kernel)
    ⟨1, List.replicate 32 0⟩ (by decide)
  exact absurd hentry (by decide)

/-- The eight registers of a Linux guest are listed in ascending order. -/
theorem getPCRValues_entries_linux :
    (∀ i ∈ [0, 1, 2, 3, 4, 5, 6, 7], i < Sample.pcrTpm.pcrCount) ∧
      EntriesCorrect Sample.pcrTpm ⟨fun _ => 8, fun _ => by decide⟩ [0, 1, 2, 3, 4, 5, 6, 7] .sha256 := by
  refine ⟨by decide, ((getPCRValues_entries_iff Sample.pcrTpm .sha256 (by decide)).2.2
    ⟨by decide, fun _ => by decide, fun hfree => ?_⟩) Sample.pcrTpm.registers _⟩
  exact absurd (hfree 0 (by decide)) (by decide)

/-! ### The digest of the entries -/

section Digest

variable {Key : Type} (dev : Device Key) (s : PcrState) {batch : Nat → Nat} {pcrs : List Nat}

/-- **The digest of the values that were read is that of the selected registers**, in ascending order and each once,
whatever the order of the list and its repetitions, and the TPM finds the same one: a policy session accepts it for the
selection that is made from the list. -/
theorem generatePcrDigest_getPCRValues (hbatch : ∀ k, 1 ≤ batch k) (hlt : ∀ i ∈ pcrs, i < 24) :
    ∃ set sel, (∀ fuel, pcrs.length < fuel → getPCRValues s batch 24 pcrs .sha256 fuel = some (.ok set)) ∧
      getTssPcrSelection 24 ⟨.sha256, pcrs.map blank⟩ .sha256 = .ok sel ∧
      getTssPcrSelection 24 set .sha256 = .ok sel ∧
      generatePcrDigest dev set .sha256 = dev.sha256 ((ascending 24 pcrs).map (s.value .sha256)).flatten ∧
      generatePcrDigest dev set .sha256 = dev.sha256 (s.concat sel) ∧
      ∃ session, (Session.start .policy).policyPcr dev s (generatePcrDigest dev set .sha256) sel = .ok session := by
  obtain ⟨sel, hsel, hholds⟩ := getTssPcrSelection_blank hlt (by decide : 24 / 8 ≤ 4) .sha256
  generalize hset : fill (pcrs.map blank) ((ascending 24 pcrs).map (s.value .sha256)) = entries
  have hlen : ((ascending 24 pcrs).map (s.value .sha256)).length ≤ pcrs.length := by
    rw [List.length_map]
    exact length_ascending_le 24 pcrs
  have hsame : getTssPcrSelection 24 ⟨.sha256, entries⟩ .sha256 = .ok sel := by
    rw [← hsel]
    apply getTssPcrSelection_congr
    rw [← hset, map_index_fill, map_index_blank]
  have hdigest : generatePcrDigest dev ⟨.sha256, entries⟩ .sha256 =
      dev.sha256 ((ascending 24 pcrs).map (s.value .sha256)).flatten := by
    simp only [generatePcrDigest, getOpenSslAlg, ← hset, flatten_fill_blank _ _ hlen]
  have hconcat : ((ascending 24 pcrs).map (s.value .sha256)).flatten = s.concat sel := by
    rw [PcrState.concat, hholds.selected, hholds.hash]
  have htpm : generatePcrDigest dev ⟨.sha256, entries⟩ .sha256 = dev.sha256 (s.concat sel) := by rw [hdigest, hconcat]
  have hsession : ∃ session, (Session.start .policy).policyPcr dev s
      (generatePcrDigest dev ⟨.sha256, entries⟩ .sha256) sel = .ok session := ⟨_, if_neg fun h => h.2 htpm⟩
  refine ⟨⟨.sha256, entries⟩, sel, fun fuel hfuel => ?_, hsel, hsame, hdigest, htpm, hsession⟩
  simp only [getPCRValues, hsel, populateLoop_fill s .sha256 hbatch hholds (length_ascending_le 24 pcrs) hfuel, Option.map_some, hset]

end Digest

/-- A list in no order and with a repetition. The entries of registers 7 and 4 hold each other's values, and the last one
is empty; the digest is right all the same. -/
theorem generatePcrDigest_unordered :
    ∃ set sel, getPCRValues numbered (fun _ => 1) 24 [7, 4, 7] .sha256 4 = some (.ok set) ∧
      getTssPcrSelection 24 ⟨.sha256, [7, 4, 7].map blank⟩ .sha256 = .ok sel ∧
      generatePcrDigest Sample.device set .sha256 = Sample.device.sha256 (numbered.concat sel) ∧
      numbered.concat sel = List.replicate 32 4 ++ List.replicate 32 7 := by
  obtain ⟨set, sel, hset, hsel, -, -, hdigest, -⟩ := @generatePcrDigest_getPCRValues _ Sample.device numbered (fun _ => 1)
    [7, 4, 7] (fun _ => le_refl 1) (by decide)
  refine ⟨set, sel, hset 4 (by decide), hsel, hdigest, ?_⟩
  have hconcrete : getTssPcrSelection 24 ⟨.sha256, [7, 4, 7].map blank⟩ .sha256 =
      .ok ⟨.sha256, 3, octets 0x90#32⟩ := by decide
  rw [hconcrete] at hsel
  rw [← Except.ok.inj hsel]
  decide

end CvmAttestation.Tpm
