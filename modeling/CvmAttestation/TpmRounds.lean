import CvmAttestation.BaseRounds
import CvmAttestation.TpmNvReaders
import CvmAttestation.TpmPcr
import Mathlib.Algebra.BigOperators.Group.Finset.Basic

/-! The three loops over a device, for a device that may answer anything: a command fails, or succeeds with any content
that fits its structure. Each round sends one command. `NvRead` counts what is left in an `int` and appends, `Tss2NvRead`
counts in a `size_t` and stores into a vector of the final size, and `PopulateCurrentPcrs` goes on while the octets it
has looked at last are not empty. -/

namespace CvmAttestation.Tpm

open Base Base.Mask

abbrev Rc := BitVec 32

/-- `Tss2Exception`: a text and the code of the command that failed. -/
structure Tss2Exception where
  what : String
  rc : Rc
  deriving DecidableEq, Repr

/-- A `TPM2B_MAX_NV_BUFFER`. -/
structure NvBuffer where
  buffer : Bytes
  fits : buffer.length ≤ 2048

def resize (n : Nat) (data : Bytes) : Bytes := data.take n ++ List.replicate (n - data.length) 0

/-! ### `Tss2Util::NvRead` -/

structure NvReadState where
  size : Int
  offset : Int
  data : Bytes

section

variable (dataSize : UInt16)

/-- The condition of the loop, and the `resize` after it. -/
def nvReadNext (s : NvReadState) : Round NvReadState Tss2Exception Bytes :=
  if 0 < s.size then .next s else .ended (.returned (resize dataSize.toNat s.data))

def nvReadRound (s : NvReadState) : Except Rc NvBuffer → Round NvReadState Tss2Exception Bytes
  | .error rc => .ended (.raised ⟨"Failed to read from TPM NV RAM", rc⟩)
  | .ok nvData =>
    nvReadNext dataSize ⟨s.size - nvData.buffer.length, s.offset + nvData.buffer.length, s.data ++ nvData.buffer⟩

def nvReadRounds : Rounds (Except Rc NvBuffer) NvReadState Tss2Exception Bytes where
  start := nvReadNext dataSize ⟨dataSize.toNat, 0, []⟩
  round := nvReadRound dataSize
  remaining s := s.size

end

/-! ### `Tss2Wrapper::Tss2NvRead` -/

structure Tss2NvReadState where
  size : Nat
  offset : Nat
  data : Bytes

section

variable (dataSize : UInt16)

def tss2NvReadNext (s : Tss2NvReadState) : Round Tss2NvReadState (Secrets.Exc × Rc) Bytes :=
  if 0 < s.size then .next s else .ended (.returned (resize dataSize.toNat s.data))

theorem esysNvReadError_ne : Secrets.ErrorCode.tpmErrorHandlesEsysNvReadError ≠ .success := by
  intro h
  cases h

def tss2NvReadRound (s : Tss2NvReadState) : Except Rc NvBuffer → Round Tss2NvReadState (Secrets.Exc × Rc) Bytes
  | .error rc => .ended (.raised (.tpmError ⟨.tpmErrorHandlesEsysNvReadError, esysNvReadError_ne⟩, rc))
  | .ok nvData =>
    -- `std::copy` to `data.begin() + offset`
    if s.data.length < s.offset + nvData.buffer.length then .ended .outside
    else
      tss2NvReadNext dataSize ⟨(s.size + 2 ^ 64 - nvData.buffer.length) % 2 ^ 64, s.offset + nvData.buffer.length,
        overwrite s.data nvData.buffer s.offset⟩

def tss2NvReadRounds : Rounds (Except Rc NvBuffer) Tss2NvReadState (Secrets.Exc × Rc) Bytes where
  start := tss2NvReadNext dataSize ⟨dataSize.toNat, 0, List.replicate dataSize.toNat 0⟩
  round := tss2NvReadRound dataSize
  remaining s := s.size

end

/-! ### `Tss2Util::PopulateCurrentPcrs` -/

/-- The first `TPMS_PCR_SELECTION` that a read returns. -/
structure PcrSelOut where
  sizeofSelect : Nat
  pcrSelect : Octets
  le : sizeofSelect ≤ 4

/-- What `Esys_PCR_Read` sets its two pointers to. -/
structure PcrReadOut where
  pcrValues : Option (List Bytes)
  pcrSelOut : Option PcrSelOut

structure PopulateState where
  selection : PcrSelection
  pcrCount : Nat
  maskSum : Nat
  pcrs : List PcrValue

def populateNext (s : PopulateState) : Round PopulateState Tss2Exception (List PcrValue) :=
  if s.maskSum ≠ 0 then .next s else .ended (.returned s.pcrs)

/-- The digests and the selection of an answer that the loop looks at. -/
def PcrReadOut.used : PcrReadOut → Option (List Bytes × PcrSelOut)
  | ⟨some pcrVals, some pcrSel⟩ => if pcrVals.length ≠ 0 then some (pcrVals, pcrSel) else none
  | _ => none

def populateRound (s : PopulateState) : Except Rc PcrReadOut → Round PopulateState Tss2Exception (List PcrValue)
  | .error rc => .ended (.raised ⟨"Unable to read PCRs", rc⟩)
  | .ok out =>
    match out.used with
    | none => populateNext s
    | some (pcrVals, pcrSel) =>
      -- `pcrSet.pcrs[pcrCount + i]` past the end of the vector
      if s.pcrs.length < s.pcrCount + pcrVals.length then .ended .outside
      else
        let pcrSelect := clear pcrSel.sizeofSelect s.selection.pcrSelect pcrSel.pcrSelect
        populateNext
          { selection := { s.selection with pcrSelect }
            pcrCount := s.pcrCount + pcrVals.length
            maskSum := sum pcrSel.sizeofSelect pcrSelect
            pcrs := appendDigests s.pcrs s.pcrCount pcrVals }

/-- What remains is the number of registers still selected. The loop is a `do`: its first command is always sent. -/
def populateRounds (selection : PcrSelection) (pcrs : List PcrValue) :
    Rounds (Except Rc PcrReadOut) PopulateState Tss2Exception (List PcrValue) where
  start := .next ⟨selection, 0, 0, pcrs⟩
  round := populateRound
  remaining s := (indices s.selection.pcrSelect.length s.selection.pcrSelect).length

/-! ### What the answers add up to -/

/-- How many bytes the first `k` answers carry. -/
def received (answers : Nat → NvBuffer) (k : Nat) : Nat := ∑ j ∈ Finset.range k, (answers j).buffer.length

theorem received_succ (answers : Nat → NvBuffer) (k : Nat) :
    received answers (k + 1) = received answers k + (answers k).buffer.length := Finset.sum_range_succ _ k

section Nv

variable (dataSize : UInt16) (answers : Nat → NvBuffer)

theorem nvReadNext_eq_next {s t : NvReadState} (h : nvReadNext dataSize s = .next t) : s = t ∧ 0 < s.size := by
  rw [nvReadNext] at h
  split_ifs at h with hsize
  exact ⟨Round.next.inj h, hsize⟩

theorem nvReadNext_ne_outside (s : NvReadState) : nvReadNext dataSize s ≠ .ended .outside := by
  rw [nvReadNext]
  split_ifs <;> intro h <;> cases h

theorem nvRead_size {k : Nat} {s : NvReadState}
    (hs : (nvReadRounds dataSize).after (fun k => .ok (answers k)) k = .next s) :
    s.size = (dataSize.toNat : Int) - received answers k := by
  induction k generalizing s with
  | zero =>
      obtain ⟨rfl, -⟩ := nvReadNext_eq_next dataSize hs
      simp [received]
  | succ k ih =>
      obtain ⟨s, hprev, hround⟩ := Rounds.next_of_next_succ hs
      obtain ⟨rfl, -⟩ := nvReadNext_eq_next dataSize hround
      have hsize := ih hprev
      rw [received_succ]
      push_cast
      omega

/-- `NvRead` asks again exactly while fewer bytes have come than the index has. -/
theorem nvRead_after (k : Nat) :
    (∃ s, (nvReadRounds dataSize).after (fun k => .ok (answers k)) k = .next s) ↔
      received answers k < dataSize.toNat := by
  constructor
  · intro ⟨s, hs⟩
    have hsize := nvRead_size dataSize answers hs
    have hpos : 0 < s.size := by
      cases k with
      | zero =>
          obtain ⟨rfl, hpos⟩ := nvReadNext_eq_next dataSize hs
          exact hpos
      | succ k =>
          obtain ⟨_, -, hround⟩ := Rounds.next_of_next_succ hs
          obtain ⟨rfl, hpos⟩ := nvReadNext_eq_next dataSize hround
          exact hpos
    omega
  · induction k with
    | zero =>
        intro hlt
        exact ⟨_, if_pos (by simpa [received] using hlt)⟩
    | succ k ih =>
        intro hlt
        rw [received_succ] at hlt
        obtain ⟨s, hs⟩ := ih (by omega)
        have hsize := nvRead_size dataSize answers hs
        have hleft : 0 < s.size - ((answers k).buffer.length : Int) := by omega
        exact ⟨_, by rw [Rounds.after_succ hs]; exact if_pos hleft⟩

/-- `NvRead` is well behaved when no answer is empty that comes while bytes are missing. -/
theorem nvRead_wellBehaved_iff :
    (nvReadRounds dataSize).WellBehaved (fun k => .ok (answers k)) ↔
      ∀ k, received answers k < dataSize.toNat → (answers k).buffer ≠ [] := by
  rw [Rounds.wellBehaved_iff]
  constructor
  · intro ⟨_, hproper⟩ k hlt hnil
    obtain ⟨s, hs⟩ := (nvRead_after dataSize answers k).2 hlt
    have hsize := nvRead_size dataSize answers hs
    have hleft : 0 < s.size - ((answers k).buffer.length : Int) := by
      rw [hnil, List.length_nil]
      omega
    have hshrink := ((hproper k s hs).2 _ (if_pos hleft)).2
    change s.size - ((answers k).buffer.length : Int) < s.size at hshrink
    rw [hnil, List.length_nil] at hshrink
    omega
  · intro hanswers
    refine ⟨nvReadNext_ne_outside dataSize _, fun k s hs => ⟨nvReadNext_ne_outside dataSize _, fun t ht => ?_⟩⟩
    have hne := hanswers k ((nvRead_after dataSize answers k).1 ⟨s, hs⟩)
    have hpos := List.length_pos_iff.2 hne
    obtain ⟨rfl, hleft⟩ := nvReadNext_eq_next dataSize ht
    refine ⟨hleft.le, ?_⟩
    change s.size - ((answers k).buffer.length : Int) < s.size
    omega

theorem tss2NvReadNext_eq_next {s t : Tss2NvReadState} (h : tss2NvReadNext dataSize s = .next t) :
    s = t ∧ 0 < s.size := by
  rw [tss2NvReadNext] at h
  split_ifs at h with hsize
  exact ⟨Round.next.inj h, hsize⟩

theorem tss2NvReadNext_ne_outside (s : Tss2NvReadState) : tss2NvReadNext dataSize s ≠ .ended .outside := by
  rw [tss2NvReadNext]
  split_ifs <;> intro h <;> cases h

theorem length_overwrite {data chunk : Bytes} {offset : Nat} (h : offset + chunk.length ≤ data.length) :
    (overwrite data chunk offset).length = data.length := by
  simp only [overwrite, List.length_append, List.length_take, List.length_drop]
  omega

/-- The vector has the size of the index throughout, and the loop is at the byte up to which it has received. -/
structure Tss2NvReadState.At (dataSize : UInt16) (n : Nat) (s : Tss2NvReadState) : Prop where
  offset : s.offset = n
  size : s.size + n = dataSize.toNat
  length : s.data.length = dataSize.toNat
  pos : 0 < s.size

/-- One round on an answer that fits. -/
theorem tss2NvReadRound_fits {n : Nat} {s : Tss2NvReadState} (h : s.At dataSize n) {nvData : NvBuffer}
    (hfits : n + nvData.buffer.length ≤ dataSize.toNat) :
    tss2NvReadRound dataSize s (.ok nvData) =
      tss2NvReadNext dataSize ⟨s.size - nvData.buffer.length, s.offset + nvData.buffer.length,
        overwrite s.data nvData.buffer s.offset⟩ := by
  have hoffset := h.offset
  have hsize := h.size
  have hlength := h.length
  have hlt := dataSize.toNat_lt
  have hwrap : (s.size + 2 ^ 64 - nvData.buffer.length) % 2 ^ 64 = s.size - nvData.buffer.length := by omega
  simp only [tss2NvReadRound, hwrap]
  exact if_neg (by omega)

theorem tss2NvReadRound_outside {n : Nat} {s : Tss2NvReadState} (h : s.At dataSize n) {nvData : NvBuffer}
    (hover : dataSize.toNat < n + nvData.buffer.length) :
    tss2NvReadRound dataSize s (.ok nvData) = .ended .outside := by
  have hoffset := h.offset
  have hlength := h.length
  exact if_pos (by omega)

theorem tss2NvRead_at {k : Nat} {s : Tss2NvReadState}
    (hs : (tss2NvReadRounds dataSize).after (fun k => .ok (answers k)) k = .next s) :
    s.At dataSize (received answers k) := by
  induction k generalizing s with
  | zero =>
      obtain ⟨rfl, hpos⟩ := tss2NvReadNext_eq_next dataSize hs
      exact ⟨rfl, rfl, List.length_replicate, hpos⟩
  | succ k ih =>
      obtain ⟨s, hprev, hround⟩ := Rounds.next_of_next_succ hs
      have hat := ih hprev
      by_cases hfits : received answers k + (answers k).buffer.length ≤ dataSize.toNat
      · have hnext := (tss2NvReadRound_fits dataSize hat hfits).symm.trans hround
        obtain ⟨rfl, hpos⟩ := tss2NvReadNext_eq_next dataSize hnext
        have hoffset := hat.offset
        have hsize := hat.size
        have hlength := hat.length
        rw [received_succ]
        refine ⟨by simp [hoffset], ?_, ?_, hpos⟩
        · change s.size - (answers k).buffer.length + (received answers k + (answers k).buffer.length) = _
          have hleft : 0 < s.size - (answers k).buffer.length := hpos
          omega
        · change (overwrite s.data (answers k).buffer s.offset).length = _
          rw [length_overwrite (by omega), hlength]
      · cases (tss2NvReadRound_outside dataSize hat (by omega)).symm.trans hround

/-- `Tss2NvRead` asks again exactly while fewer bytes have come than the index has. -/
theorem tss2NvRead_after (k : Nat) :
    (∃ s, (tss2NvReadRounds dataSize).after (fun k => .ok (answers k)) k = .next s) ↔
      received answers k < dataSize.toNat := by
  constructor
  · intro ⟨s, hs⟩
    have hat := tss2NvRead_at dataSize answers hs
    have hsize := hat.size
    have hpos := hat.pos
    omega
  · induction k with
    | zero =>
        intro hlt
        exact ⟨_, if_pos (by simpa [received] using hlt)⟩
    | succ k ih =>
        intro hlt
        rw [received_succ] at hlt
        obtain ⟨s, hs⟩ := ih (by omega)
        have hat := tss2NvRead_at dataSize answers hs
        have hsize := hat.size
        have hleft : 0 < s.size - (answers k).buffer.length := by omega
        have hround := (tss2NvReadRound_fits dataSize hat (by omega)).trans (if_pos hleft)
        exact ⟨_, (Rounds.after_succ hs).trans hround⟩

/-- `Tss2NvRead` is well behaved when each answer that comes while bytes are missing has some, and no more than that. -/
theorem tss2NvRead_wellBehaved_iff :
    (tss2NvReadRounds dataSize).WellBehaved (fun k => .ok (answers k)) ↔
      ∀ k, received answers k < dataSize.toNat →
        (answers k).buffer ≠ [] ∧ received answers (k + 1) ≤ dataSize.toNat := by
  rw [Rounds.wellBehaved_iff]
  constructor
  · intro ⟨_, hproper⟩ k hlt
    obtain ⟨s, hs⟩ := (tss2NvRead_after dataSize answers k).2 hlt
    have hat := tss2NvRead_at dataSize answers hs
    obtain ⟨hinside, hshrink⟩ := hproper k s hs
    have hfits : received answers k + (answers k).buffer.length ≤ dataSize.toNat := by
      by_contra hover
      exact hinside (tss2NvReadRound_outside dataSize hat (by omega))
    refine ⟨fun hnil => ?_, by rwa [received_succ]⟩
    have hleft : 0 < s.size - (answers k).buffer.length := by
      rw [hnil]
      exact hat.pos
    have hround := (tss2NvReadRound_fits dataSize hat hfits).trans (if_pos hleft)
    have hless := (hshrink _ hround).2
    change ((s.size - (answers k).buffer.length : Nat) : Int) < s.size at hless
    rw [hnil, List.length_nil] at hless
    omega
  · intro hanswers
    refine ⟨tss2NvReadNext_ne_outside dataSize _, fun k s hs => ?_⟩
    have hat := tss2NvRead_at dataSize answers hs
    obtain ⟨hne, hfits⟩ := hanswers k ((tss2NvRead_after dataSize answers k).1 ⟨s, hs⟩)
    rw [received_succ] at hfits
    have hround : (tss2NvReadRounds dataSize).round s (.ok (answers k)) = _ := tss2NvReadRound_fits dataSize hat hfits
    have hpos := List.length_pos_iff.2 hne
    rw [Rounds.Proper, hround]
    refine ⟨tss2NvReadNext_ne_outside dataSize _, fun t ht => ?_⟩
    obtain ⟨rfl, hleft⟩ := tss2NvReadNext_eq_next dataSize ht
    have hsize := hat.pos
    change 0 ≤ ((s.size - (answers k).buffer.length : Nat) : Int) ∧
      ((s.size - (answers k).buffer.length : Nat) : Int) < s.size
    omega

end Nv

section Pcr

/-- The digests that the loop takes from an answer. -/
def PcrReadOut.digests (out : PcrReadOut) : List Bytes :=
  match out.used with
  | none => []
  | some (pcrVals, _) => pcrVals

/-- The registers of an answer taken out of a selection. -/
def PcrReadOut.clears (out : PcrReadOut) (pcrSelect : Octets) : Octets :=
  match out.used with
  | none => pcrSelect
  | some (_, pcrSel) => clear pcrSel.sizeofSelect pcrSelect pcrSel.pcrSelect

/-- What a selection holds in the octets that an answer names. -/
def PcrReadOut.leaves (out : PcrReadOut) (pcrSelect : Octets) : Nat :=
  match out.used with
  | none => 0
  | some (_, pcrSel) => sum pcrSel.sizeofSelect pcrSelect

variable (selection : PcrSelection) (pcrs : List PcrValue) (answers : Nat → PcrReadOut)

/-- The selection without the registers of the first `k` answers. -/
def selectedAfter : Nat → Octets
  | 0 => selection.pcrSelect
  | k + 1 => (answers k).clears (selectedAfter k)

/-- How many digests the first `k` answers carry. -/
def digestsReceived (k : Nat) : Nat := ∑ j ∈ Finset.range k, (answers j).digests.length

theorem digestsReceived_succ (k : Nat) :
    digestsReceived answers (k + 1) = digestsReceived answers k + (answers k).digests.length :=
  Finset.sum_range_succ _ k

/-- After each of the first `k` answers some register was left in the octets it named. -/
def Pending (k : Nat) : Prop := ∀ j < k, (answers j).leaves (selectedAfter selection answers (j + 1)) ≠ 0

/-- An answer with digests, unless it is the first; there is an entry for each of its digests; and it names a register
that is still selected, unless none is left. -/
structure Fitting (k : Nat) : Prop where
  used : (answers k).used = none → k = 0
  room : digestsReceived answers (k + 1) ≤ pcrs.length
  fewer : (answers k).leaves (selectedAfter selection answers (k + 1)) ≠ 0 →
    selectedAfter selection answers (k + 1) ≠ selectedAfter selection answers k

/-- The state of the loop before command `k`. -/
structure PopulateState.At (k : Nat) (s : PopulateState) : Prop where
  pcrSelect : s.selection.pcrSelect = selectedAfter selection answers k
  pcrCount : s.pcrCount = digestsReceived answers k
  maskSum : s.maskSum = 0 ↔ k = 0
  length : s.pcrs.length = pcrs.length

theorem populateNext_eq_next {s t : PopulateState} (h : populateNext s = .next t) : s = t ∧ s.maskSum ≠ 0 := by
  rw [populateNext] at h
  split_ifs at h with hsum
  exact ⟨Round.next.inj h, hsum⟩

theorem populateNext_ne_outside (s : PopulateState) : populateNext s ≠ .ended .outside := by
  rw [populateNext]
  split_ifs <;> intro h <;> cases h

@[simp] theorem length_appendDigests (pcrs : List PcrValue) (n : Nat) (digests : List Bytes) :
    (appendDigests pcrs n digests).length = pcrs.length := by
  induction digests generalizing pcrs n with
  | nil => rfl
  | cons digest digests ih => rw [appendDigests, ih, List.length_modify]

variable {selection pcrs answers}

theorem Pending.mono {j k : Nat} (h : Pending selection answers k) (hle : j ≤ k) : Pending selection answers j :=
  fun i hi => h i (hi.trans_le hle)

theorem Pending.succ {k : Nat} (h : Pending selection answers k)
    (hk : (answers k).leaves (selectedAfter selection answers (k + 1)) ≠ 0) : Pending selection answers (k + 1) := by
  intro j hj
  rcases Nat.lt_succ_iff_lt_or_eq.1 hj with hlt | rfl
  · exact h j hlt
  · exact hk

variable {k : Nat} {s : PopulateState}

theorem populateRound_unused (hused : (answers k).used = none) : populateRound s (.ok (answers k)) = populateNext s := by
  simp only [populateRound, hused]

theorem populateRound_outside (h : s.At selection pcrs answers k) (hused : (answers k).used ≠ none)
    (hover : pcrs.length < digestsReceived answers (k + 1)) :
    populateRound s (.ok (answers k)) = .ended .outside := by
  obtain ⟨⟨pcrVals, pcrSel⟩, hused⟩ := Option.ne_none_iff_exists'.1 hused
  have hdigests : (answers k).digests = pcrVals := by rw [PcrReadOut.digests, hused]
  rw [digestsReceived_succ, hdigests, ← h.pcrCount, ← h.length] at hover
  simp only [populateRound, hused]
  exact if_pos hover

/-- One round on an answer that has an entry for each of its digests. -/
theorem populateRound_used (h : s.At selection pcrs answers k) (hused : (answers k).used ≠ none)
    (hroom : digestsReceived answers (k + 1) ≤ pcrs.length) :
    ∃ t, populateRound s (.ok (answers k)) = populateNext t ∧
      t.maskSum = (answers k).leaves (selectedAfter selection answers (k + 1)) ∧
      (t.maskSum ≠ 0 → t.At selection pcrs answers (k + 1)) := by
  obtain ⟨⟨pcrVals, pcrSel⟩, hused⟩ := Option.ne_none_iff_exists'.1 hused
  have hdigests : (answers k).digests = pcrVals := by rw [PcrReadOut.digests, hused]
  have hclears : selectedAfter selection answers (k + 1) =
      clear pcrSel.sizeofSelect s.selection.pcrSelect pcrSel.pcrSelect := by
    rw [selectedAfter, PcrReadOut.clears, hused, h.pcrSelect]
  have hcount := digestsReceived_succ answers k
  rw [hdigests, ← h.pcrCount] at hcount
  rw [hcount, ← h.length] at hroom
  simp only [populateRound, hused, if_neg (Nat.not_lt.2 hroom)]
  refine ⟨_, rfl, ?_, fun hsum => ⟨hclears.symm, hcount.symm, ?_, ?_⟩⟩
  · rw [PcrReadOut.leaves, hused, hclears]
  · exact iff_of_false hsum (Nat.succ_ne_zero k)
  · rw [length_appendDigests, h.length]

theorem populate_start : PopulateState.At selection pcrs answers 0 ⟨selection, 0, 0, pcrs⟩ :=
  ⟨rfl, rfl, iff_of_true rfl rfl, rfl⟩

/-- A well-behaved loop sends a command as long as registers are left. -/
theorem room_of_wellBehaved (h : (populateRounds selection pcrs).WellBehaved fun k => .ok (answers k))
    (hs : (populateRounds selection pcrs).after (fun k => .ok (answers k)) k = .next s)
    (hat : s.At selection pcrs answers k) (hused : (answers k).used ≠ none) :
    digestsReceived answers (k + 1) ≤ pcrs.length := by
  by_contra hover
  have hout := populateRound_outside hat hused (by omega)
  exact h.inside (k + 1) ((Rounds.after_succ hs).trans hout)

theorem populate_next_of_pending
    (h : (populateRounds selection pcrs).WellBehaved fun k => .ok (answers k)) (hpending : Pending selection answers k) :
    ∃ s, (populateRounds selection pcrs).after (fun k => .ok (answers k)) k = .next s ∧
      s.At selection pcrs answers k := by
  induction k with
  | zero => exact ⟨_, rfl, populate_start⟩
  | succ k ih =>
      obtain ⟨s, hs, hat⟩ := ih (hpending.mono (Nat.le_succ k))
      have hleaves := hpending k (Nat.lt_succ_self k)
      have hused : (answers k).used ≠ none := by
        intro hused
        rw [PcrReadOut.leaves, hused] at hleaves
        exact hleaves rfl
      obtain ⟨t, hround, hsum, ht⟩ := populateRound_used hat hused (room_of_wellBehaved h hs hat hused)
      rw [← hsum] at hleaves
      exact ⟨t, (Rounds.after_succ hs).trans (hround.trans (if_pos hleaves)), ht hleaves⟩

/-- While answers are fitting, a command is sent only as long as registers are left. -/
theorem populate_pending_of_next (h : ∀ k, Pending selection answers k → Fitting selection pcrs answers k)
    (hs : (populateRounds selection pcrs).after (fun k => .ok (answers k)) k = .next s) :
    Pending selection answers k ∧ s.At selection pcrs answers k := by
  induction k generalizing s with
  | zero =>
      cases hs
      exact ⟨fun j hj => absurd hj (Nat.not_lt_zero j), populate_start⟩
  | succ k ih =>
      obtain ⟨u, hu, hround⟩ := Rounds.next_of_next_succ hs
      obtain ⟨hpending, hat⟩ := ih hu
      have hfitting := h k hpending
      have hused : (answers k).used ≠ none := by
        intro hused
        have hnext := (populateRound_unused hused).symm.trans hround
        exact (populateNext_eq_next hnext).2 (hat.maskSum.2 (hfitting.used hused))
      obtain ⟨t, hout, hsum, ht⟩ := populateRound_used hat hused hfitting.room
      obtain ⟨rfl, hne⟩ := populateNext_eq_next (hout.symm.trans hround)
      rw [hsum] at hne
      exact ⟨hpending.succ hne, ht (by rwa [hsum])⟩

theorem selectedAfter_length (k : Nat) : (selectedAfter selection answers k).length = selection.pcrSelect.length := by
  induction k with
  | zero => rfl
  | succ k ih =>
      rw [selectedAfter, PcrReadOut.clears]
      cases (answers k).used with
      | none => exact ih
      | some used => rw [length_clear, ih]

theorem remaining_lt_iff {t : PopulateState} (hs : s.At selection pcrs answers k)
    (ht : t.At selection pcrs answers (k + 1)) :
    (populateRounds selection pcrs).remaining t < (populateRounds selection pcrs).remaining s ↔
      selectedAfter selection answers (k + 1) ≠ selectedAfter selection answers k := by
  change (((indices t.selection.pcrSelect.length t.selection.pcrSelect).length : Nat) : Int) <
    ((indices s.selection.pcrSelect.length s.selection.pcrSelect).length : Nat) ↔ _
  rw [Nat.cast_lt, hs.pcrSelect, ht.pcrSelect, selectedAfter_length, ← @selectedAfter_length selection answers k,
    selectedAfter, PcrReadOut.clears]
  cases (answers k).used with
  | none => exact iff_of_false (lt_irrefl _) (fun hne => hne rfl)
  | some used => exact indices_clear_lt_iff

/-- In a loop that is well behaved, an answer that comes while registers are left is fitting. -/
theorem fitting_of_wellBehaved (h : (populateRounds selection pcrs).WellBehaved fun k => .ok (answers k))
    (hpending : Pending selection answers k) : Fitting selection pcrs answers k := by
  obtain ⟨s, hs, hat⟩ := populate_next_of_pending h hpending
  by_cases hused : (answers k).used = none
  · have hround := (Rounds.after_succ hs).trans (populateRound_unused hused)
    have hstuck : k = 0 := by
      by_contra hk
      have hnext := hround.trans (if_pos (mt hat.maskSum.1 hk))
      exact lt_irrefl _ (h.shrinks k s s hs hnext).2
    have hdigests : (answers k).digests = [] := by rw [PcrReadOut.digests, hused]
    have hleaves : ∀ octets, (answers k).leaves octets = 0 := fun octets => by rw [PcrReadOut.leaves, hused]
    refine ⟨fun _ => hstuck, ?_, fun hne => absurd (hleaves _) hne⟩
    rw [digestsReceived_succ, hdigests, hstuck]
    exact Nat.zero_le _
  · have hroom := room_of_wellBehaved h hs hat hused
    obtain ⟨t, hround, hsum, ht⟩ := populateRound_used hat hused hroom
    refine ⟨fun hnone => absurd hnone hused, hroom, fun hleaves => ?_⟩
    rw [← hsum] at hleaves
    have hnext := (Rounds.after_succ hs).trans (hround.trans (if_pos hleaves))
    exact (remaining_lt_iff hat (ht hleaves)).1 (h.shrinks k s t hs hnext).2

/-- A round on a fitting answer stays inside and leaves less. -/
theorem proper_of_fitting (hat : s.At selection pcrs answers k) (h : Fitting selection pcrs answers k) :
    (populateRounds selection pcrs).Proper s (.ok (answers k)) := by
  rw [Rounds.Proper]
  change populateRound s (.ok (answers k)) ≠ _ ∧ ∀ t, populateRound s (.ok (answers k)) = _ → _
  by_cases hused : (answers k).used = none
  · rw [populateRound_unused hused]
    refine ⟨populateNext_ne_outside s, fun t ht => ?_⟩
    exact absurd (hat.maskSum.2 (h.used hused)) (populateNext_eq_next ht).2
  · obtain ⟨t, hround, hsum, ht⟩ := populateRound_used hat hused h.room
    rw [hround]
    refine ⟨populateNext_ne_outside t, fun u hu => ?_⟩
    obtain ⟨rfl, hne⟩ := populateNext_eq_next hu
    refine ⟨Int.natCast_nonneg _, (remaining_lt_iff hat (ht hne)).2 (h.fewer ?_)⟩
    rwa [← hsum]

variable (selection pcrs answers)

/-- `PopulateCurrentPcrs` is well behaved when each answer that comes while registers are left is fitting. -/
theorem populate_wellBehaved_iff :
    ((populateRounds selection pcrs).WellBehaved fun k => .ok (answers k)) ↔
      ∀ k, Pending selection answers k → Fitting selection pcrs answers k := by
  constructor
  · exact fun h k => fitting_of_wellBehaved h
  · intro h
    rw [Rounds.wellBehaved_iff]
    refine ⟨(fun hstart => by cases hstart), fun k s hs => ?_⟩
    obtain ⟨hpending, hat⟩ := populate_pending_of_next h hs
    exact proper_of_fitting hat (h k hpending)

end Pcr

/-! ### The three loops -/

/-- **The device loops**: for every sequence of answers of commands that succeed, each of the three loops comes to its
end, stays inside its vector and leaves less in every round exactly when the answers that come while something is left
are neither empty nor, for a vector of fixed size, too long. -/
theorem deviceLoops_wellBehaved_iff (selection : PcrSelection) (pcrs : List PcrValue) (digests : Nat → PcrReadOut)
    (dataSize : UInt16) (buffers : Nat → NvBuffer) :
    ((populateRounds selection pcrs).WellBehaved (fun k => .ok (digests k)) ↔
      ∀ k, Pending selection digests k → Fitting selection pcrs digests k) ∧
    ((nvReadRounds dataSize).WellBehaved (fun k => .ok (buffers k)) ↔
      ∀ k, received buffers k < dataSize.toNat → (buffers k).buffer ≠ []) ∧
    ((tss2NvReadRounds dataSize).WellBehaved (fun k => .ok (buffers k)) ↔
      ∀ k, received buffers k < dataSize.toNat →
        (buffers k).buffer ≠ [] ∧ received buffers (k + 1) ≤ dataSize.toNat) :=
  ⟨populate_wellBehaved_iff selection pcrs digests, nvRead_wellBehaved_iff dataSize buffers,
    tss2NvRead_wellBehaved_iff dataSize buffers⟩

def noBytes : NvBuffer := ⟨[], Nat.zero_le _⟩

def twoBytes : NvBuffer := ⟨[1, 2], by decide⟩

/-- Registers 0 and 1 of the SHA-256 bank. -/
def twoRegisters : PcrSelection := ⟨.sha256, 3, octets 3⟩

/-- The value of register 0, and nothing after that. -/
def oneDigest : Nat → PcrReadOut
  | 0 => ⟨some [List.replicate 32 0], some ⟨3, octets 1, by decide⟩⟩
  | _ => ⟨some [], some ⟨3, octets 0, by decide⟩⟩

/-- A TPM that returns no bytes, or no digests after the first, keeps the loops busy for ever; and one that returns two
bytes of an index of one byte makes `Tss2NvRead` write outside its vector. -/
theorem deviceLoops_not_wellBehaved :
    (¬ (populateRounds twoRegisters [blank 0, blank 1]).WellBehaved (fun k => .ok (oneDigest k)) ∧
      ∀ n, ∃ s, (populateRounds twoRegisters [blank 0, blank 1]).after (fun k => .ok (oneDigest k)) (1 + n) = .next s) ∧
    (¬ (nvReadRounds 1).WellBehaved (fun _ => .ok noBytes) ∧
      ∀ n, ∃ s, (nvReadRounds 1).after (fun _ => .ok noBytes) (0 + n) = .next s) ∧
    ¬ (tss2NvReadRounds 1).WellBehaved (fun _ => .ok twoBytes) ∧
      (tss2NvReadRounds 1).after (fun _ => .ok twoBytes) 1 = .ended .outside := by
  have hpcr : ∀ n, ∃ s,
      (populateRounds twoRegisters [blank 0, blank 1]).after (fun k => .ok (oneDigest k)) (1 + n) = .next s := by
    intro n
    obtain ⟨s, hs, -⟩ := @Rounds.after_of_stays _ _ _ _ (populateRounds twoRegisters [blank 0, blank 1])
      (fun k => .ok (oneDigest k)) (fun s => s.maskSum ≠ 0) 1 _ rfl (by decide)
      (fun n t ht => ⟨t, by rw [Nat.add_comm]; exact if_pos ht, ht⟩) n
    exact ⟨s, hs⟩
  have hnv : ∀ n, ∃ s, (nvReadRounds 1).after (fun _ => .ok noBytes) (0 + n) = .next s := by
    intro n
    refine (nvRead_after 1 (fun _ => noBytes) (0 + n)).2 ?_
    have hnone : received (fun _ => noBytes) (0 + n) = 0 := Finset.sum_eq_zero fun _ _ => rfl
    rw [hnone]
    decide
  have hout : (tss2NvReadRounds 1).after (fun _ => .ok twoBytes) 1 = .ended .outside := rfl
  exact ⟨⟨Rounds.not_wellBehaved_of_never hpcr, hpcr⟩, ⟨Rounds.not_wellBehaved_of_never hnv, hnv⟩,
    fun h => h.inside 1 hout, hout⟩

end CvmAttestation.Tpm
