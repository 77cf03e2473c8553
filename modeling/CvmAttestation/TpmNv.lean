import CvmAttestation.BaseBytes
import CvmAttestation.BaseControl
import Mathlib.Logic.Function.Basic
import Mathlib.Tactic

/-! NV indices of the TPM and the functions of `Tss2Util` on them. An index is absent, or it is a byte
array of the size it was defined with, which cannot be read before its first write. Every call to the TPM
may fail, and the store a failing procedure leaves is the one its last successful call left. -/

namespace CvmAttestation.Tpm

open Base

abbrev Handle := BitVec 32

def aikCertIndex : Handle := 0x01C101D0

/-- A defined index. Its `dataSize` is a `UINT16`. -/
@[ext]
structure NvIndex where
  data : Bytes
  written : Bool
  fits : data.length < 2 ^ 16

abbrev NvStore := Handle → Option NvIndex

/-- The exceptions of the functions below, by the text they are thrown with. -/
inductive Tss2Error
  | openTr
  | nvRead
  | undefineSpace
  | defineSpace
  | nvWrite
  deriving DecidableEq, Repr

def Tss2Error.what : Tss2Error → String
  | openTr => "Failed to open ESYS_TR"
  | nvRead => "Failed to read from TPM NV RAM"
  | undefineSpace => "Failed to undefine NV space"
  | defineSpace => "Failed to define NV space"
  | nvWrite => "Failed to perform NV write"

abbrev NvProc (α : Type) := Proc Tss2Error NvStore α

def maxNvBufferSize : Nat := 512

def intOfSize (n : Nat) : Int :=
  if n % 2 ^ 32 < 2 ^ 31 then (n % 2 ^ 32 : Nat) else (n % 2 ^ 32 : Nat) - 2 ^ 32

def uint16OfInt (n : Int) : Nat := (n % 2 ^ 16).toNat

theorem uint16OfInt_lt (n : Int) : uint16OfInt n < 2 ^ 16 := by
  rw [uint16OfInt]
  omega

section

variable (index : Handle)

def handleToEsys (fails : Bool) : NvProc Unit :=
  Proc.attempt fun s => if fails || (s index).isNone then .error .openTr else .ok ((), s)

def nvUndefineSpace (openFails undefineFails : Bool) : NvProc Unit := do
  handleToEsys index openFails
  Proc.attempt fun s =>
    if undefineFails then .error .undefineSpace else .ok ((), Function.update s index none)

def NvIndex.fresh (erased : UInt8) (dataSize : Nat) (h : dataSize < 2 ^ 16) : NvIndex :=
  ⟨List.replicate dataSize erased, false, by rwa [List.length_replicate]⟩

def nvDefineSpace (fails : Bool) (erased : UInt8) (size : Int) : NvProc Unit :=
  Proc.attempt fun s =>
    if fails || (s index).isSome then .error .defineSpace
    else .ok ((), Function.update s index (some (.fresh erased (uint16OfInt size) (uint16OfInt_lt size))))

/-- `Esys_NV_Write` of a chunk at an offset; a write past the end is refused. -/
def NvIndex.write (i : NvIndex) (chunk : Bytes) (offset : Nat) : Option NvIndex :=
  if h : offset + chunk.length ≤ i.data.length then
    some ⟨i.data.take offset ++ (chunk ++ i.data.drop (offset + chunk.length)), true, by
      have := i.fits
      simp only [List.length_append, List.length_take, List.length_drop]
      omega⟩
  else none

/-- One write command. The offset reaches the TPM as a `UINT16`. -/
def nvWriteChunk (fails : Bool) (chunk : Bytes) (offset : Nat) : NvProc Unit :=
  Proc.attempt fun s =>
    match (s index).bind fun i => i.write chunk (offset % 2 ^ 16) with
    | none => .error .nvWrite
    | some i => if fails then .error .nvWrite else .ok ((), Function.update s index (some i))

/-- The loop of `NvWrite`: `size` bytes of `data` are left from `offset` on, and the next command is the
`k`-th. -/
def nvWriteLoop (fails : Nat → Bool) (data : Bytes) (size offset k : Nat) : NvProc Unit :=
  if size = 0 then pure ()
  else do
    let bytesToWrite := min size maxNvBufferSize
    nvWriteChunk index (fails k) ((data.drop offset).take bytesToWrite) offset
    nvWriteLoop fails data (size - bytesToWrite) (offset + bytesToWrite) (k + 1)
termination_by size
decreasing_by
  rw [maxNvBufferSize]
  omega

def nvWrite (openFails : Bool) (fails : Nat → Bool) (data : Bytes) : NvProc Unit := do
  handleToEsys index openFails
  nvWriteLoop index fails data (intOfSize data.length).toNat 0 0

/-- How many bytes the `k`-th read command returns when `n` are requested: at least one, at most `n`. -/
structure ShortReads where
  length : Nat → Nat → Nat
  pos : ∀ k n, 0 < n → 0 < length k n
  le : ∀ k n, length k n ≤ n

/-- The loop of `NvRead`: `size` bytes are left from `offset` on. The offset reaches the TPM as a `UINT16`. -/
def nvReadLoop (reads : ShortReads) (i : NvIndex) (size offset k : Nat) : Except Tss2Error Bytes :=
  if size = 0 then .ok []
  else
    let bytesToRead := min size maxNvBufferSize
    if !i.written then .error .nvRead
    else do
      let n := reads.length k bytesToRead
      let rest ← nvReadLoop reads i (size - n) (offset + n) (k + 1)
      return (i.data.drop (offset % 2 ^ 16)).take n ++ rest
termination_by size
decreasing_by
  have hmin : 0 < min size maxNvBufferSize := by
    rw [maxNvBufferSize]
    omega
  have hpos := reads.pos k (min size maxNvBufferSize) hmin
  omega

/-- `Tss2Util::NvRead`, where only an absent or unwritten index fails. The last `resize` of the source changes nothing,
for the loop has appended as many bytes as the index has. -/
def nvRead (reads : ShortReads) : NvProc Bytes := do
  handleToEsys index false
  Proc.attempt fun s =>
    match s index with
    | none => .error .openTr
    | some i => do
      let data ← nvReadLoop reads i i.data.length 0 0
      return (data, s)

end

inductive NvCall
  | openUndefine
  | undefine
  | define
  | openWrite
  | write (k : Nat)
  deriving DecidableEq, Repr

/-- `Tss2Wrapper::WriteAikCert`, with the calls that fail. -/
def writeAikCert (fails : NvCall → Bool) (erased : UInt8) (aikCert : Bytes) : NvProc Unit := do
  nvUndefineSpace aikCertIndex (fails .openUndefine) (fails .undefine)
  nvDefineSpace aikCertIndex (fails .define) erased (intOfSize aikCert.length)
  nvWrite aikCertIndex (fails .openWrite) (fun k => fails (.write k)) aikCert

def getAIKCert (reads : ShortReads) : NvProc Bytes := nvRead aikCertIndex reads

/-! ### Reading -/

/-- The read loop returns the rest of a written index, whatever the read commands return at a time. -/
theorem nvReadLoop_written (reads : ShortReads) (i : NvIndex) (hw : i.written = true) (size offset k : Nat)
    (hsize : offset + size = i.data.length) :
    nvReadLoop reads i size offset k = .ok (i.data.drop offset) := by
  induction size using Nat.strong_induction_on generalizing offset k with
  | _ size ih =>
      rw [nvReadLoop]
      by_cases hzero : size = 0
      · have hoffset : offset = i.data.length := by omega
        rw [if_pos hzero, hoffset, List.drop_length]
      · have hmin : 0 < min size maxNvBufferSize := by
          rw [maxNvBufferSize]
          omega
        have hpos := reads.pos k _ hmin
        have hle := reads.le k (min size maxNvBufferSize)
        have hfits := i.fits
        have hmod : offset % 2 ^ 16 = offset := Nat.mod_eq_of_lt (by omega)
        simp only [if_neg hzero, hw, Bool.not_true, Bool.false_eq_true, if_false, hmod]
        rw [ih _ (by omega) _ _ (by omega)]
        change Except.ok (_ ++ _) = _
        rw [← List.drop_drop, List.take_append_drop]

theorem handleToEsys_some {index : Handle} {s : NvStore} {i : NvIndex} (hi : s index = some i) :
    (handleToEsys index false).exec s = (.ok (), s) := by
  apply Proc.exec_attempt_ok
  rw [hi]
  rfl

/-- **What is stored is read**: the content of an index that was written, or that has no content. -/
theorem nvRead_stored (reads : ShortReads) (index : Handle) (s : NvStore) (i : NvIndex) (hi : s index = some i)
    (hw : i.written = true ∨ i.data = []) : (nvRead index reads).exec s = (.ok i.data, s) := by
  rw [nvRead, Proc.exec_bind_ok (handleToEsys_some hi)]
  apply Proc.exec_attempt_ok
  have hloop : nvReadLoop reads i i.data.length 0 0 = .ok i.data := by
    rcases hw with hw | hw
    · exact nvReadLoop_written reads i hw _ 0 0 (by omega)
    · rw [hw, nvReadLoop]
      rfl
  simp only [hi, hloop]
  rfl

theorem nvRead_absent (reads : ShortReads) {index : Handle} {s : NvStore} (hi : s index = none) :
    (nvRead index reads).exec s = (.error .openTr, s) := by
  have hopen : (handleToEsys index false).exec s = (.error .openTr, s) := by
    apply Proc.exec_attempt_error
    rw [hi]
    rfl
  exact Proc.exec_bind_error hopen _

/-- An index with content cannot be read before it is written. -/
theorem nvRead_unwritten (reads : ShortReads) {index : Handle} {s : NvStore} {i : NvIndex} (hi : s index = some i)
    (hw : i.written = false) (hdata : i.data ≠ []) : (nvRead index reads).exec s = (.error .nvRead, s) := by
  have hloop : nvReadLoop reads i i.data.length 0 0 = .error .nvRead := by
    rw [nvReadLoop, if_neg (mt List.eq_nil_of_length_eq_zero hdata)]
    simp only [hw, Bool.not_false, if_true]
  rw [nvRead, Proc.exec_bind_ok (handleToEsys_some hi)]
  apply Proc.exec_attempt_error
  simp only [hi, hloop]
  rfl

/-! ### Writing -/

section

variable (erased : UInt8) (data : Bytes) (hfits : data.length < 2 ^ 16)

/-- An index defined for `data` after its first `n` bytes have been written. -/
def NvIndex.progress (n : Nat) : NvIndex where
  data := data.take n ++ List.replicate (data.length - n) erased
  written := 0 < n
  fits := by
    simp only [List.length_append, List.length_take, List.length_replicate]
    omega

theorem progress_zero : NvIndex.progress erased data hfits 0 = .fresh erased data.length hfits := by
  simp [NvIndex.progress, NvIndex.fresh]

theorem progress_length :
    (NvIndex.progress erased data hfits data.length).data = data := by
  simp [NvIndex.progress]

/-- One write command moves the progress on by its chunk. -/
theorem progress_write (n m : Nat) (hm : 0 < m) (hnm : n + m ≤ data.length) :
    (NvIndex.progress erased data hfits n).write ((data.drop n).take m) n =
      some (NvIndex.progress erased data hfits (n + m)) := by
  have hchunk : ((data.drop n).take m).length = m := by
    rw [List.length_take, List.length_drop]
    omega
  have htake : (data.take n).length = n := by
    rw [List.length_take]
    omega
  have hlen : (NvIndex.progress erased data hfits n).data.length = data.length := by
    simp only [NvIndex.progress, List.length_append, List.length_take, List.length_replicate]
    omega
  have htail : (data.take n).drop (n + m) = [] := List.drop_eq_nil_of_le (by omega)
  have hfill : (List.replicate (data.length - n) erased).drop (n + m - n) =
      List.replicate (data.length - (n + m)) erased := by
    rw [List.drop_replicate]
    congr 1
    omega
  rw [NvIndex.write, dif_pos (by rw [hchunk, hlen]; exact hnm)]
  congr 1
  ext1
  · simp only [NvIndex.progress]
    rw [List.take_append_of_le_length (by omega), List.take_take, Nat.min_self, hchunk, List.drop_append, htake,
      htail, hfill, List.nil_append, ← List.append_assoc, List.take_add]
  · have hpos : 0 < n + m := by omega
    simp [NvIndex.progress, hpos]

def chunks (n : Nat) : Nat := (n + 511) / 512

theorem chunks_next {size m : Nat} (hsize : size ≠ 0) (hm : m = min size 512) :
    chunks size = chunks (size - m) + 1 := by
  rw [chunks, chunks]
  omega

theorem nvWriteChunk_exec (index : Handle) (fails : Bool) (n m : Nat) (s : NvStore)
    (hs : s index = some (NvIndex.progress erased data hfits n)) (hm : 0 < m) (hnm : n + m ≤ data.length) :
    (nvWriteChunk index fails ((data.drop n).take m) n).exec s =
      if fails then (.error .nvWrite, s)
      else (.ok (), Function.update s index (some (NvIndex.progress erased data hfits (n + m)))) := by
  have hoffset : n % 2 ^ 16 = n := Nat.mod_eq_of_lt (by omega)
  have hwrite := progress_write erased data hfits n m hm hnm
  cases fails with
  | true =>
      apply Proc.exec_attempt_error
      simp only [hs, Option.bind_some, hoffset, hwrite, if_true]
  | false =>
      apply Proc.exec_attempt_ok
      simp only [hs, Option.bind_some, hoffset, hwrite, Bool.false_eq_true, if_false]

/-- **The write loop** writes everything, or stops at the first command that fails. -/
theorem nvWriteLoop_exec (index : Handle) (fails : Nat → Bool) (size n k : Nat) (s : NvStore)
    (hs : s index = some (NvIndex.progress erased data hfits n)) (hsize : n + size = data.length) :
    ((∀ j < chunks size, fails (k + j) = false) ∧
      (nvWriteLoop index fails data size n k).exec s =
        (.ok (), Function.update s index (some (NvIndex.progress erased data hfits data.length)))) ∨
    (∃ j < chunks size, fails (k + j) = true ∧
      (nvWriteLoop index fails data size n k).exec s =
        (.error .nvWrite, Function.update s index (some (NvIndex.progress erased data hfits (n + 512 * j))))) := by
  induction size using Nat.strong_induction_on generalizing n k s with
  | _ size ih =>
      rw [nvWriteLoop]
      by_cases hzero : size = 0
      · have hn : n = data.length := by omega
        left
        refine ⟨?_, ?_⟩
        · intro j hj
          rw [chunks] at hj
          omega
        · rw [if_pos hzero, ← hn, ← hs, Function.update_eq_self]
          rfl
      · rw [if_neg hzero]
        have hm : min size maxNvBufferSize = min size 512 := rfl
        generalize min size maxNvBufferSize = m at hm
        have hstep := nvWriteChunk_exec erased data hfits index (fails k) n m s hs (by omega) (by omega)
        rw [chunks_next hzero hm]
        cases hfail : fails k with
        | true =>
            right
            refine ⟨0, Nat.succ_pos _, hfail, ?_⟩
            rw [hfail, if_pos rfl] at hstep
            have hn : n + 512 * 0 = n := rfl
            rw [hn, ← hs, Function.update_eq_self]
            exact Proc.exec_bind_error hstep _
        | false =>
            rw [hfail, if_neg (by decide)] at hstep
            simp only [Proc.exec_bind_ok hstep]
            have hshift : ∀ j, k + 1 + j = k + (j + 1) := fun j => by omega
            rcases ih (size - m) (by omega) (n + m) (k + 1) _ (Function.update_self _ _ _) (by omega) with
              ⟨hall, hrun⟩ | ⟨j, hj, hfailj, hrun⟩
            · left
              simp only [hshift] at hall
              exact ⟨Nat.forall_lt_succ_left.2 ⟨hfail, hall⟩, by rw [hrun, Function.update_idem]⟩
            · right
              rw [hshift] at hfailj
              -- a command of the rest fails only if the rest is not empty, so this chunk was a whole one
              have hnext : n + m + 512 * j = n + 512 * (j + 1) := by
                rw [chunks] at hj
                omega
              exact ⟨j + 1, Nat.succ_lt_succ hj, hfailj, by rw [hrun, Function.update_idem, hnext]⟩

end

/-! ### Whole calls -/

section

variable {index : Handle} {erased : UInt8} {s : NvStore} {new : Bytes}

theorem intOfSize_of_lt {n : Nat} (h : n < 2 ^ 16) : intOfSize n = n := by
  have hmod : n % 2 ^ 32 = n := Nat.mod_eq_of_lt (by omega)
  have hlt : n < 2 ^ 31 := by omega
  simp only [intOfSize, hmod, if_pos hlt]

theorem uint16OfInt_of_lt {n : Nat} (h : n < 2 ^ 16) : uint16OfInt n = n := by
  rw [uint16OfInt]
  omega

theorem nvUndefineSpace_exec {i : NvIndex} (hi : s index = some i) (openFails undefineFails : Bool) :
    (nvUndefineSpace index openFails undefineFails).exec s =
      if openFails then (.error .openTr, s)
      else if undefineFails then (.error .undefineSpace, s)
      else (.ok (), Function.update s index none) := by
  rw [nvUndefineSpace]
  cases openFails with
  | true => exact Proc.exec_bind_error (Proc.exec_attempt_error (by simp)) _
  | false =>
      have hopen : (handleToEsys index false).exec s = (.ok (), s) :=
        Proc.exec_attempt_ok (by simp [hi])
      rw [Proc.exec_bind_ok hopen]
      cases undefineFails with
      | true => exact Proc.exec_attempt_error rfl
      | false => exact Proc.exec_attempt_ok rfl

theorem nvDefineSpace_exec (erased : UInt8) (hs : s index = none) (hnew : new.length < 2 ^ 16)
    (defineFails : Bool) :
    (nvDefineSpace index defineFails erased (intOfSize new.length)).exec s =
      if defineFails then (.error .defineSpace, s)
      else (.ok (), Function.update s index (some (NvIndex.progress erased new hnew 0))) := by
  cases defineFails with
  | true => exact Proc.exec_attempt_error (by simp)
  | false =>
      have hsize : uint16OfInt (intOfSize new.length) = new.length := by
        rw [intOfSize_of_lt hnew, uint16OfInt_of_lt hnew]
      apply Proc.exec_attempt_ok
      rw [progress_zero]
      simp only [hs, Option.isSome_none, Bool.or_self, Bool.false_eq_true, if_false, hsize]

theorem nvWrite_exec (hnew : new.length < 2 ^ 16) (hs : s index = some (NvIndex.progress erased new hnew 0))
    (openFails : Bool) (writeFails : Nat → Bool) :
    (openFails = false ∧ (∀ k < chunks new.length, writeFails k = false) ∧
      (nvWrite index openFails writeFails new).exec s =
        (.ok (), Function.update s index (some (NvIndex.progress erased new hnew new.length)))) ∨
    (∃ e k, (openFails = true ∨ ∃ j < chunks new.length, writeFails j = true) ∧ (k = 0 ∨ 512 * k < new.length) ∧
      (nvWrite index openFails writeFails new).exec s =
        (.error e, Function.update s index (some (NvIndex.progress erased new hnew (512 * k))))) := by
  rw [nvWrite]
  cases openFails with
  | true =>
      right
      refine ⟨.openTr, 0, .inl rfl, .inl rfl, ?_⟩
      have hzero : 512 * 0 = 0 := rfl
      rw [hzero, ← hs, Function.update_eq_self]
      exact Proc.exec_bind_error (Proc.exec_attempt_error (by simp)) _
  | false =>
      have hopen : (handleToEsys index false).exec s = (.ok (), s) :=
        Proc.exec_attempt_ok (by simp [hs])
      have hsize : (intOfSize new.length).toNat = new.length := by rw [intOfSize_of_lt hnew, Int.toNat_natCast]
      rw [Proc.exec_bind_ok hopen, hsize]
      rcases nvWriteLoop_exec erased new hnew index writeFails new.length 0 0 s hs (by omega) with
        ⟨hall, hrun⟩ | ⟨j, hj, hfail, hrun⟩
      · left
        refine ⟨rfl, ?_, hrun⟩
        intro k hk
        have h := hall k hk
        rwa [Nat.zero_add] at h
      · right
        rw [Nat.zero_add] at hfail hrun
        refine ⟨.nvWrite, j, .inr ⟨j, hj, hfail⟩, .inr ?_, hrun⟩
        rw [chunks] at hj
        omega

end

end CvmAttestation.Tpm
