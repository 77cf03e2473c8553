import CvmAttestation.SecretsErrors
import CvmAttestation.TpmNv

/-! The two readers of an NV index. `Tss2Util::NvRead` appends chunks of at most 512 bytes, the secrets library's
`Tss2NvRead` asks for 1024 bytes at a time and writes them into a vector that has its size from the start. A read
command may return less than it was asked for, so the two take different steps; what they return is the content of the
index in both cases. -/

namespace CvmAttestation.Tpm

open Base

/-- `TPM_PT_NV_INDEX_MAX` of the secrets library. -/
def nvIndexMax : Nat := 1024

/-- `std::copy` of a chunk to a position of a vector. -/
def overwrite (data chunk : Bytes) (offset : Nat) : Bytes :=
  data.take offset ++ (chunk ++ data.drop (offset + chunk.length))

/-- The loop of `Tss2NvRead`: `size` bytes are left from `offset` on. The offset reaches the TPM as a `UINT16`. -/
def tss2NvReadLoop (reads : ShortReads) (i : NvIndex) (size offset k : Nat) (data : Bytes) :
    Except Secrets.Exc Bytes :=
  if size = 0 then .ok data
  else
    let bytesToRead := min size nvIndexMax
    if !i.written then .error (.tpmError ⟨.tpmErrorHandlesEsysNvReadError, by decide⟩)
    else
      let n := reads.length k bytesToRead
      let chunk := (i.data.drop (offset % 2 ^ 16)).take n
      tss2NvReadLoop reads i (size - n) (offset + n) (k + 1) (overwrite data chunk offset)
termination_by size
decreasing_by
  have hmin : 0 < min size nvIndexMax := by
    rw [nvIndexMax]
    omega
  have hpos := reads.pos k (min size nvIndexMax) hmin
  omega

/-- `Tss2Wrapper::Tss2NvRead`, where only an absent or unwritten index fails. -/
def tss2NvRead (index : Handle) (reads : ShortReads) : Proc Secrets.Exc NvStore Bytes :=
  Proc.attempt fun s =>
    match s index with
    | none => .error (.tpmError ⟨.tpmErrorHandlesHandlePresentError, by decide⟩)
    | some i => do
      let data ← tss2NvReadLoop reads i i.data.length 0 0 (List.replicate i.data.length 0)
      return (data.take i.data.length ++ List.replicate (i.data.length - data.length) 0, s)

/-! ### Writing into a vector -/

theorem overwrite_next {content : Bytes} {offset n rest : Nat} (hrest : offset + n + rest = content.length) :
    overwrite (content.take offset ++ List.replicate (n + rest) 0) ((content.drop offset).take n) offset =
      content.take (offset + n) ++ List.replicate rest 0 := by
  have htake : (content.take offset).length = offset := by
    rw [List.length_take]
    omega
  have hchunk : ((content.drop offset).take n).length = n := by
    rw [List.length_take, List.length_drop]
    omega
  rw [overwrite, hchunk, List.take_left' htake, ← List.drop_drop, List.drop_left' htake, List.drop_replicate,
    Nat.add_sub_cancel_left, List.take_add, List.append_assoc]

/-- The loop fills the vector from the offset on, whatever the read commands return at a time. -/
theorem tss2NvReadLoop_written (reads : ShortReads) (i : NvIndex) (hw : i.written = true) (size offset k : Nat)
    (hsize : offset + size = i.data.length) :
    tss2NvReadLoop reads i size offset k (i.data.take offset ++ List.replicate size 0) = .ok i.data := by
  induction size using Nat.strong_induction_on generalizing offset k with
  | _ size ih =>
      rw [tss2NvReadLoop]
      by_cases hzero : size = 0
      · have hoffset : offset = i.data.length := by omega
        rw [if_pos hzero, hzero, hoffset, List.take_length, List.replicate_zero, List.append_nil]
      · have hmin : 0 < min size nvIndexMax := by
          rw [nvIndexMax]
          omega
        have hpos := reads.pos k _ hmin
        have hle := reads.le k (min size nvIndexMax)
        have hfits := i.fits
        have hmod : offset % 2 ^ 16 = offset := Nat.mod_eq_of_lt (by omega)
        simp only [if_neg hzero, hw, Bool.not_true, Bool.false_eq_true, if_false, hmod]
        generalize reads.length k (min size nvIndexMax) = n at hpos hle
        have hsplit : size = n + (size - n) := by omega
        nth_rewrite 2 [hsplit]
        rw [overwrite_next (by omega)]
        exact ih _ (by omega) _ _ (by omega)

theorem tss2NvRead_stored (reads : ShortReads) (index : Handle) (s : NvStore) (i : NvIndex) (hi : s index = some i)
    (hw : i.written = true ∨ i.data = []) : (tss2NvRead index reads).exec s = (.ok i.data, s) := by
  have hloop : tss2NvReadLoop reads i i.data.length 0 0 (List.replicate i.data.length 0) = .ok i.data := by
    rcases hw with hw | hw
    · exact tss2NvReadLoop_written reads i hw _ 0 0 (by omega)
    · rw [hw, tss2NvReadLoop]
      rfl
  apply Proc.exec_attempt_ok
  simp only [hi, hloop]
  change Except.ok (_, s) = _
  rw [List.take_length, Nat.sub_self, List.replicate_zero, List.append_nil]

/-! ### Agreement -/

section

variable {index : Handle} {s s₁ s₂ : NvStore} {data : Bytes}

/-- A definition and a write that both succeed leave the whole vector in the index. -/
theorem stored_of_define_write (hfits : data.length < 2 ^ 16) {defineFails openFails : Bool} {writeFails : Nat → Bool}
    {erased : UInt8} (hdefine : (nvDefineSpace index defineFails erased (intOfSize data.length)).exec s = (.ok (), s₁))
    (hwrite : (nvWrite index openFails writeFails data).exec s₁ = (.ok (), s₂)) :
    ∃ i, s₂ index = some i ∧ i.data = data ∧ (i.written = true ∨ i.data = []) := by
  cases hs : s index with
  | some i =>
      have hrefused : (nvDefineSpace index defineFails erased (intOfSize data.length)).exec s = (.error .defineSpace, s) :=
        Proc.exec_attempt_error (by simp [hs])
      cases hrefused.symm.trans hdefine
  | none =>
      rw [nvDefineSpace_exec erased hs hfits] at hdefine
      split_ifs at hdefine with hfails
      · cases hdefine
      · obtain rfl : Function.update s index (some (NvIndex.progress erased data hfits 0)) = s₁ :=
          (Prod.ext_iff.1 hdefine).2
        rcases nvWrite_exec hfits (Function.update_self index _ s) openFails writeFails with
          ⟨-, -, hrun⟩ | ⟨e, k, -, -, hrun⟩
        · cases hrun.symm.trans hwrite
          refine ⟨_, Function.update_self _ _ _, progress_length erased data hfits, ?_⟩
          cases data with
          | nil => exact .inr rfl
          | cons b data => exact .inl (by simp [NvIndex.progress])
        · cases hrun.symm.trans hwrite

end

/-- **The two readers agree.** Each returns the content of an index, of whatever length and whatever the read commands
return at a time; and a vector that was written to an index defined for it is what both of them return. -/
theorem nvReaders_agree (index : Handle) (reads reads' : ShortReads) :
    (∀ (s : NvStore) (i : NvIndex), s index = some i → i.written = true ∨ i.data = [] →
      (nvRead index reads).exec s = (.ok i.data, s) ∧ (tss2NvRead index reads').exec s = (.ok i.data, s)) ∧
    ∀ (s s₁ s₂ : NvStore) (data : Bytes) (defineFails openFails : Bool) (writeFails : Nat → Bool) (erased : UInt8),
      data.length ≤ 65535 →
      (nvDefineSpace index defineFails erased (intOfSize data.length)).exec s = (.ok (), s₁) →
      (nvWrite index openFails writeFails data).exec s₁ = (.ok (), s₂) →
      (nvRead index reads).exec s₂ = (.ok data, s₂) ∧ (tss2NvRead index reads').exec s₂ = (.ok data, s₂) := by
  constructor
  · intro s i hi hw
    exact ⟨nvRead_stored reads index s i hi hw, tss2NvRead_stored reads' index s i hi hw⟩
  · intro s s₁ s₂ data defineFails openFails writeFails erased hle hdefine hwrite
    obtain ⟨i, hi, rfl, hw⟩ := stored_of_define_write (by omega) hdefine hwrite
    exact ⟨nvRead_stored reads index s₂ i hi hw, tss2NvRead_stored reads' index s₂ i hi hw⟩

/-- Read commands that return one byte at a time. -/
def ShortReads.single : ShortReads where
  length _ n := min n 1
  pos _ _ h := by omega
  le _ _ := by omega

def sampleContent : Bytes := (List.range 2500).map UInt8.ofNat

/-- A vector of 2500 bytes, defined, written and read by both readers, in commands that return one byte. -/
theorem nvReaders_agree_sample :
    sampleContent.length = 2500 ∧
      ∃ s₂ : NvStore, (nvRead aikCertIndex .single).exec s₂ = (.ok sampleContent, s₂) ∧
        (tss2NvRead aikCertIndex .single).exec s₂ = (.ok sampleContent, s₂) := by
  have hlength : sampleContent.length = 2500 := by rw [sampleContent, List.length_map, List.length_range]
  have hfits : sampleContent.length < 2 ^ 16 := by omega
  have hdefine := @nvDefineSpace_exec aikCertIndex (fun _ => none) sampleContent 255 rfl hfits false
  rw [if_neg (by decide)] at hdefine
  rcases nvWrite_exec hfits (Function.update_self aikCertIndex _ _) false (fun _ => false) with
    ⟨-, -, hwrite⟩ | ⟨e, k, hfail, -, -⟩
  · exact ⟨hlength, _, (nvReaders_agree aikCertIndex .single .single).2 _ _ _ sampleContent false false
      (fun _ => false) 255 (by omega) hdefine hwrite⟩
  · simp at hfail

end CvmAttestation.Tpm
