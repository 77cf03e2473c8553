import CvmAttestation.BaseBytes
import CvmAttestation.BaseControl
import CvmAttestation.BaseMask

/-! Selecting and reading platform configuration registers. A selection is a bit mask in four octets, of which the
TPM looks at the first `sizeofSelect`. One `PCR_Read` returns the values of some of the lowest selected registers,
and the loop of `PopulateCurrentPcrs` takes these out of its selection until nothing is left. -/

namespace CvmAttestation.Tpm

open Base Base.Mask

inductive HashAlg
  | sha1
  | sha256
  | sha384
  | sha512
  | sm3_256
  deriving DecidableEq, Repr

def HashAlg.size : HashAlg → Nat
  | sha1 => 20
  | sha256 => 32
  | sha384 => 48
  | sha512 => 64
  | sm3_256 => 32

structure PcrValue where
  index : Nat
  digest : Bytes
  deriving DecidableEq, Repr

structure PcrSet where
  hashAlg : HashAlg
  pcrs : List PcrValue
  deriving DecidableEq, Repr

/-- What the registers of all banks hold. -/
structure PcrState where
  value : HashAlg → Nat → Bytes
  size_eq : ∀ hashAlg i, (value hashAlg i).length = hashAlg.size

inductive PcrError
  | indexOutOfRange
  | policyPcr
  | policyCheck
  | blobTooLarge
  | decrypt
  deriving DecidableEq, Repr

/-! ### Selections -/

structure PcrSelection where
  hash : HashAlg
  sizeofSelect : Nat
  pcrSelect : Octets
  deriving DecidableEq, Repr

def pcrMask (pcrCount : Nat) : List PcrValue → BitVec 32 → Except PcrError (BitVec 32)
  | [], mask => .ok mask
  | pcr :: pcrs, mask =>
    if pcrCount ≤ pcr.index then .error .indexOutOfRange
    else pcrMask pcrCount pcrs (mask ||| 1#32 <<< pcr.index)

def octets (mask : BitVec 32) : Octets :=
  [(mask &&& 0xff#32).setWidth 8, ((mask &&& 0xff00#32) >>> 8).setWidth 8, ((mask &&& 0xff0000#32) >>> 16).setWidth 8,
    ((mask &&& 0xff000000#32) >>> 24).setWidth 8]

/-- `Tss2Util::GetTssPcrSelection`, for the number of registers that `GetPcrCount` returns. -/
def getTssPcrSelection (pcrCount : Nat) (pcrSet : PcrSet) (hashAlg : HashAlg) : Except PcrError PcrSelection := do
  let mask ← pcrMask pcrCount pcrSet.pcrs 0
  return ⟨hashAlg, pcrCount / 8, octets mask⟩

/-- The registers the TPM takes from a selection, in ascending order. -/
def PcrSelection.selected (sel : PcrSelection) : List Nat := indices sel.sizeofSelect sel.pcrSelect

/-! ### Reading -/

/-- `PCR_Read`: the values of the first `n` selected registers, and which they are. -/
def pcrRead (s : PcrState) (n : Nat) (sel : PcrSelection) : List Bytes × PcrSelection :=
  ((sel.selected.take n).map (s.value sel.hash), { sel with pcrSelect := ofIndices 4 (sel.selected.take n) })

def appendDigests (pcrs : List PcrValue) (pcrCount : Nat) : List Bytes → List PcrValue
  | [] => pcrs
  | digest :: digests =>
    appendDigests (pcrs.modify pcrCount fun pcr => { pcr with digest := pcr.digest ++ digest }) (pcrCount + 1) digests

/-- The loop of `Tss2Util::PopulateCurrentPcrs` over what each read answers, with the number of the read that would come
next. It runs until the mask is empty; `none` is a run that has not come to its end with the fuel given. -/
def populateReads (read : Nat → PcrSelection → List Bytes × PcrSelection) :
    (fuel reads : Nat) → PcrSelection → (pcrCount maskSum : Nat) → List PcrValue → Option (List PcrValue × Nat)
  | 0, _, _, _, _, _ => none
  | fuel + 1, reads, sel, pcrCount, maskSum, pcrs =>
    let (digests, out) := read reads sel
    if digests.length ≠ 0 then
      let pcrs := appendDigests pcrs pcrCount digests
      let pcrCount := pcrCount + digests.length
      let sel := { sel with pcrSelect := clear out.sizeofSelect sel.pcrSelect out.pcrSelect }
      let maskSum := sum out.sizeofSelect sel.pcrSelect
      if maskSum ≠ 0 then populateReads read fuel (reads + 1) sel pcrCount maskSum pcrs
      else some (pcrs, reads + 1)
    else if maskSum ≠ 0 then populateReads read fuel (reads + 1) sel pcrCount maskSum pcrs
    else some (pcrs, reads + 1)

/-- The entries that the loop leaves. -/
def populateLoopWith (read : Nat → PcrSelection → List Bytes × PcrSelection) (fuel reads : Nat) (sel : PcrSelection)
    (pcrCount maskSum : Nat) (pcrs : List PcrValue) : Option (List PcrValue) :=
  (populateReads read fuel reads sel pcrCount maskSum pcrs).map Prod.fst

/-- The loop while other software extends registers: read `k` finds the registers as they are at that moment, and returns
up to `batch k` values. -/
def populateLoopOver (states : Nat → PcrState) (batch : Nat → Nat) :
    (fuel reads : Nat) → PcrSelection → (pcrCount maskSum : Nat) → List PcrValue → Option (List PcrValue) :=
  populateLoopWith fun k => pcrRead (states k) (batch k)

/-- The loop over registers that nobody extends. -/
def populateLoop (s : PcrState) (batch : Nat → Nat) :
    (fuel reads : Nat) → PcrSelection → (pcrCount maskSum : Nat) → List PcrValue → Option (List PcrValue) :=
  populateLoopOver (fun _ => s) batch

def blank (i : Nat) : PcrValue := ⟨i, []⟩

def getPCRValues (s : PcrState) (batch : Nat → Nat) (pcrCount : Nat) (pcrs : List Nat) (hashAlg : HashAlg)
    (fuel : Nat) : Option (Except PcrError PcrSet) :=
  let pcrSet : PcrSet := ⟨hashAlg, pcrs.map blank⟩
  match getTssPcrSelection pcrCount pcrSet hashAlg with
  | .error e => some (.error e)
  | .ok selection => (populateLoop s batch fuel 0 selection 0 0 pcrSet.pcrs).map fun pcrs => .ok ⟨hashAlg, pcrs⟩

/-! ### The selection of a list -/

theorem map_index_blank (l : List Nat) : (l.map blank).map PcrValue.index = l := by
  simp [blank, Function.comp_def]

theorem length_octets (mask : BitVec 32) : (octets mask).length = 4 := rfl

theorem bit_octets (mask : BitVec 32) {i : Nat} (hi : i < 32) : bit (octets mask) i = mask.getLsbD i := by
  interval_cases i <;> simp [bit, octets]

theorem pcrMask_ok {pcrCount : Nat} (pcrs : List PcrValue)
    (hlt : ∀ pcr ∈ pcrs, pcr.index < pcrCount) (mask : BitVec 32) :
    ∃ mask', pcrMask pcrCount pcrs mask = .ok mask' ∧
      ∀ i < 32, mask'.getLsbD i = (mask.getLsbD i || decide (i ∈ pcrs.map PcrValue.index)) := by
  induction pcrs generalizing mask with
  | nil => exact ⟨mask, rfl, by simp⟩
  | cons pcr pcrs ih =>
      rw [List.forall_mem_cons] at hlt
      obtain ⟨mask', hmask, hbits⟩ := ih hlt.2 (mask ||| 1#32 <<< pcr.index)
      refine ⟨mask', by rw [pcrMask, if_neg (by omega), hmask], fun i hi => ?_⟩
      have hbit : (1#32 <<< pcr.index).getLsbD i = decide (i = pcr.index) := by
        rw [BitVec.getLsbD_shiftLeft, BitVec.getLsbD_one, Bool.eq_iff_iff]
        simp only [Bool.and_eq_true, decide_eq_true_eq, Bool.not_eq_true', decide_eq_false_iff_not]
        omega
      rw [hbits i hi, BitVec.getLsbD_or, hbit]
      simp only [List.map_cons, List.mem_cons, Bool.decide_or, Bool.or_assoc]

theorem pcrMask_error {pcrCount : Nat} (pcrs : List PcrValue) (hge : ∃ pcr ∈ pcrs, pcrCount ≤ pcr.index)
    (mask : BitVec 32) : pcrMask pcrCount pcrs mask = .error .indexOutOfRange := by
  induction pcrs generalizing mask with
  | nil => simp at hge
  | cons pcr pcrs ih =>
      rw [pcrMask]
      split_ifs with h
      · rfl
      · refine ih ?_ _
        obtain ⟨pcr', hmem, hle⟩ := hge
        rcases List.mem_cons.1 hmem with rfl | hmem
        · exact absurd hle h
        · exact ⟨pcr', hmem, hle⟩

/-- An ascending list of registers that a selection has octets for: one for every eight registers of the TPM, rounded
down, and four at most. -/
structure Listed (pcrCount : Nat) (pcrs : List Nat) : Prop where
  ascending : pcrs.Pairwise (· < ·)
  lt : ∀ i ∈ pcrs, i < 8 * (pcrCount / 8)
  le : pcrCount / 8 ≤ 4

/-- A selection that is built from a list, before or after registers were taken out. -/
structure PcrSelection.Holds (sel : PcrSelection) (hashAlg : HashAlg) (pcrs : List Nat) : Prop where
  hash : sel.hash = hashAlg
  length : sel.pcrSelect.length = 4
  size : sel.sizeofSelect ≤ 4
  selected : sel.selected = pcrs

/-- The registers of a list that a selection has octets for, each once and in ascending order. -/
def ascending (pcrCount : Nat) (pcrs : List Nat) : List Nat :=
  (List.range (8 * (pcrCount / 8))).filter fun i => decide (i ∈ pcrs)

theorem mem_ascending {pcrCount i : Nat} {pcrs : List Nat} :
    i ∈ ascending pcrCount pcrs ↔ i < 8 * (pcrCount / 8) ∧ i ∈ pcrs := by
  rw [ascending, List.mem_filter, List.mem_range, decide_eq_true_eq]

theorem ascending_eq_iff {pcrCount : Nat} {pcrs : List Nat} :
    ascending pcrCount pcrs = pcrs ↔ pcrs.Pairwise (· < ·) ∧ ∀ i ∈ pcrs, i < 8 * (pcrCount / 8) := by
  have hpairwise : (ascending pcrCount pcrs).Pairwise (· < ·) := List.pairwise_lt_range.filter _
  constructor
  · intro h
    rw [← h]
    exact ⟨hpairwise, fun i hi => (mem_ascending.1 hi).1⟩
  · rintro ⟨hascending, hlt⟩
    refine hpairwise.eq_of_mem_iff hascending fun i => ?_
    rw [mem_ascending]
    exact ⟨fun hi => hi.2, fun hi => ⟨hlt i hi, hi⟩⟩

theorem ascending_eq {pcrCount : Nat} {pcrs : List Nat} (h : Listed pcrCount pcrs) : ascending pcrCount pcrs = pcrs :=
  ascending_eq_iff.2 ⟨h.ascending, h.lt⟩

theorem mem_of_mem_ascending {pcrCount i : Nat} {pcrs : List Nat} (h : i ∈ ascending pcrCount pcrs) : i ∈ pcrs :=
  (mem_ascending.1 h).2

theorem length_ascending_le (pcrCount : Nat) (pcrs : List Nat) : (ascending pcrCount pcrs).length ≤ pcrs.length := by
  have hnodup : (ascending pcrCount pcrs).Nodup := List.nodup_range.filter _
  apply List.Subperm.length_le
  exact hnodup.subperm fun _ => mem_of_mem_ascending

/-- A list that is as long as what is selected of it is selected whole. -/
theorem mem_ascending_of_length {pcrCount i : Nat} {pcrs : List Nat}
    (hlength : (ascending pcrCount pcrs).length = pcrs.length) (hi : i ∈ pcrs) : i ∈ ascending pcrCount pcrs := by
  have hnodup : (ascending pcrCount pcrs).Nodup := List.nodup_range.filter _
  have hperm := (hnodup.subperm fun _ => mem_of_mem_ascending).perm_of_length_le hlength.ge
  exact hperm.mem_iff.2 hi

/-- The bit of each register of a set within the mask. -/
theorem getTssPcrSelection_bits {pcrCount : Nat} {pcrSet : PcrSet} (hlt : ∀ pcr ∈ pcrSet.pcrs, pcr.index < pcrCount)
    (hashAlg : HashAlg) :
    ∃ sel, getTssPcrSelection pcrCount pcrSet hashAlg = .ok sel ∧ sel.hash = hashAlg ∧ sel.sizeofSelect = pcrCount / 8 ∧
      sel.pcrSelect.length = 4 ∧ ∀ i < 32, bit sel.pcrSelect i = decide (i ∈ pcrSet.pcrs.map PcrValue.index) := by
  obtain ⟨mask, hmask, hbits⟩ := pcrMask_ok pcrSet.pcrs hlt 0
  refine ⟨⟨hashAlg, pcrCount / 8, octets mask⟩, ?_, rfl, rfl, length_octets mask, fun i hi => ?_⟩
  · rw [getTssPcrSelection, hmask]
    rfl
  · rw [bit_octets mask hi, hbits i hi]
    simp

/-- What is selected of a set that is accepted: the registers that there are octets for. -/
theorem getTssPcrSelection_holds {pcrCount : Nat} {pcrSet : PcrSet} (hlt : ∀ pcr ∈ pcrSet.pcrs, pcr.index < pcrCount)
    (hle : pcrCount / 8 ≤ 4) (hashAlg : HashAlg) :
    ∃ sel, getTssPcrSelection pcrCount pcrSet hashAlg = .ok sel ∧
      sel.Holds hashAlg (ascending pcrCount (pcrSet.pcrs.map PcrValue.index)) := by
  obtain ⟨sel, hsel, hhash, hsizeof, hlength, hbits⟩ := getTssPcrSelection_bits hlt hashAlg
  have hselected : sel.selected = ascending pcrCount (pcrSet.pcrs.map PcrValue.index) := by
    rw [PcrSelection.selected, indices, hsizeof, ascending]
    apply List.filter_congr
    intro i hi
    rw [List.mem_range] at hi
    exact hbits i (by omega)
  exact ⟨sel, hsel, hhash, hlength, by omega, hselected⟩

/-- What is selected of a list that is accepted. -/
theorem getTssPcrSelection_blank {pcrCount : Nat} {pcrs : List Nat} (hlt : ∀ i ∈ pcrs, i < pcrCount)
    (hle : pcrCount / 8 ≤ 4) (hashAlg : HashAlg) :
    ∃ sel, getTssPcrSelection pcrCount ⟨hashAlg, pcrs.map blank⟩ hashAlg = .ok sel ∧
      sel.Holds hashAlg (ascending pcrCount pcrs) := by
  have hlt' : ∀ pcr ∈ pcrs.map blank, pcr.index < pcrCount := by simpa [blank] using hlt
  have hholds := @getTssPcrSelection_holds pcrCount ⟨hashAlg, pcrs.map blank⟩ hlt' hle hashAlg
  rwa [map_index_blank] at hholds

theorem getTssPcrSelection_listed {pcrCount : Nat} {pcrs : List Nat} (h : Listed pcrCount pcrs) (hashAlg : HashAlg) :
    ∃ sel, getTssPcrSelection pcrCount ⟨hashAlg, pcrs.map blank⟩ hashAlg = .ok sel ∧ sel.Holds hashAlg pcrs := by
  have hlt : ∀ i ∈ pcrs, i < pcrCount := fun i hi => (h.lt i hi).trans_le (Nat.mul_div_le pcrCount 8)
  have hholds := getTssPcrSelection_blank hlt h.le hashAlg
  rwa [ascending_eq h] at hholds

theorem getTssPcrSelection_ok {pcrCount : Nat} {pcrSet : PcrSet} (h : Listed pcrCount (pcrSet.pcrs.map PcrValue.index))
    (hashAlg : HashAlg) :
    ∃ sel, getTssPcrSelection pcrCount pcrSet hashAlg = .ok sel ∧
      sel.Holds hashAlg (pcrSet.pcrs.map PcrValue.index) := by
  have hlt : ∀ pcr ∈ pcrSet.pcrs, pcr.index < pcrCount :=
    fun pcr hpcr => (h.lt _ (List.mem_map_of_mem hpcr)).trans_le (Nat.mul_div_le pcrCount 8)
  have hholds := getTssPcrSelection_holds hlt h.le hashAlg
  rwa [ascending_eq h] at hholds

theorem pcrMask_congr {pcrCount : Nat} {pcrs₁ pcrs₂ : List PcrValue}
    (h : pcrs₁.map PcrValue.index = pcrs₂.map PcrValue.index) (mask : BitVec 32) :
    pcrMask pcrCount pcrs₁ mask = pcrMask pcrCount pcrs₂ mask := by
  induction pcrs₁ generalizing pcrs₂ mask with
  | nil =>
      rw [List.map_nil, eq_comm, List.map_eq_nil_iff] at h
      rw [h]
  | cons pcr pcrs₁ ih =>
      cases pcrs₂ with
      | nil => simp at h
      | cons pcr' pcrs₂ =>
          obtain ⟨hindex, h⟩ := List.cons.inj h
          rw [pcrMask, pcrMask, hindex, ih h]

/-- A selection depends on the registers of a set only, not on their values. -/
theorem getTssPcrSelection_congr {pcrCount : Nat} {set₁ set₂ : PcrSet}
    (h : set₁.pcrs.map PcrValue.index = set₂.pcrs.map PcrValue.index) (hashAlg : HashAlg) :
    getTssPcrSelection pcrCount set₁ hashAlg = getTssPcrSelection pcrCount set₂ hashAlg := by
  rw [getTssPcrSelection, getTssPcrSelection, pcrMask_congr h]

/-! ### The values of a list -/

def current (s : PcrState) (hashAlg : HashAlg) (i : Nat) : PcrValue := ⟨i, s.value hashAlg i⟩

/-- The entries with digests appended, one after the other. -/
def fill : List PcrValue → List Bytes → List PcrValue
  | pcr :: pcrs, digest :: digests => { pcr with digest := pcr.digest ++ digest } :: fill pcrs digests
  | pcrs, _ => pcrs

@[simp] theorem fill_nil (pcrs : List PcrValue) : fill pcrs [] = pcrs := by
  cases pcrs <;> rfl

@[simp] theorem length_fill (pcrs : List PcrValue) (digests : List Bytes) : (fill pcrs digests).length = pcrs.length := by
  induction pcrs generalizing digests with
  | nil => rfl
  | cons pcr pcrs ih =>
      cases digests with
      | nil => rfl
      | cons digest digests => rw [fill, List.length_cons, List.length_cons, ih]

theorem length_take_fill {pcrs : List PcrValue} {digests : List Bytes} (h : digests.length ≤ pcrs.length) :
    ((fill pcrs digests).take digests.length).length = digests.length := by
  rw [List.length_take, length_fill]
  omega

theorem length_drop_fill (pcrs : List PcrValue) (digests : List Bytes) :
    ((fill pcrs digests).drop digests.length).length = pcrs.length - digests.length := by
  rw [List.length_drop, length_fill]

theorem fill_append (pcrs : List PcrValue) (digests digests' : List Bytes) :
    fill pcrs (digests ++ digests') =
      (fill pcrs digests).take digests.length ++ fill ((fill pcrs digests).drop digests.length) digests' := by
  induction pcrs generalizing digests with
  | nil => simp [fill]
  | cons pcr pcrs ih =>
      cases digests with
      | nil => simp
      | cons digest digests => simp [fill, ih]

theorem fill_blank (v : Nat → Bytes) (l : List Nat) : fill (l.map blank) (l.map v) = l.map fun i => ⟨i, v i⟩ := by
  induction l with
  | nil => rfl
  | cons i l ih => simp [fill, blank, ih]

theorem map_index_fill (l : List Nat) (digests : List Bytes) :
    (fill (l.map blank) digests).map PcrValue.index = l := by
  induction l generalizing digests with
  | nil => rfl
  | cons i l ih =>
      cases digests with
      | nil => exact map_index_blank (i :: l)
      | cons digest digests => rw [List.map_cons, fill, List.map_cons, ih, blank]

/-- The empty entries of a list with more registers than there are digests add nothing to these. -/
theorem flatten_fill_blank (l : List Nat) (digests : List Bytes) (hlen : digests.length ≤ l.length) :
    ((fill (l.map blank) digests).map PcrValue.digest).flatten = digests.flatten := by
  induction l generalizing digests with
  | nil =>
      rw [List.length_nil, Nat.le_zero, List.length_eq_zero_iff] at hlen
      simp [hlen]
  | cons i l ih =>
      cases digests with
      | nil => simp [blank]
      | cons digest digests =>
          rw [List.length_cons, List.length_cons, Nat.add_le_add_iff_right] at hlen
          rw [List.map_cons, fill, List.map_cons, List.flatten_cons, List.flatten_cons, ih digests hlen]
          rfl

theorem appendDigests_of_le {done : List PcrValue} {n : Nat} (hn : done.length ≤ n) (digests : List Bytes) :
    appendDigests done n digests = done := by
  induction digests generalizing n with
  | nil => rfl
  | cons digest digests ih => rw [appendDigests, List.modify_eq_self hn, ih (by omega)]

theorem appendDigests_eq (done pcrs : List PcrValue) (digests : List Bytes) :
    appendDigests (done ++ pcrs) done.length digests = done ++ fill pcrs digests := by
  induction digests generalizing done pcrs with
  | nil => simp [appendDigests]
  | cons digest digests ih =>
      cases pcrs with
      | nil =>
          rw [List.append_nil, appendDigests_of_le (le_refl _)]
          exact (List.append_nil done).symm
      | cons pcr pcrs =>
          have hlen : done.length + 1 = (done ++ [{ pcr with digest := pcr.digest ++ digest }]).length := by simp
          have hmodify : (done ++ pcr :: pcrs).modify done.length
              (fun pcr => { pcr with digest := pcr.digest ++ digest }) =
              done ++ [{ pcr with digest := pcr.digest ++ digest }] ++ pcrs := by
            simp [List.modify_eq_take_drop, List.modifyHead]
          rw [appendDigests, hmodify, hlen, ih, fill]
          simp

def PcrSelection.left (sel : PcrSelection) (n : Nat) : PcrSelection :=
  { sel with pcrSelect := clear sel.sizeofSelect sel.pcrSelect (ofIndices 4 (sel.selected.take n)) }

theorem PcrSelection.Holds.left {sel : PcrSelection} {hashAlg : HashAlg} {pcrs : List Nat}
    (h : sel.Holds hashAlg pcrs) (n : Nat) : (sel.left n).Holds hashAlg (pcrs.drop n) where
  hash := h.hash
  length := by rw [PcrSelection.left, length_clear, h.length]
  size := h.size
  selected := by
    rw [← h.selected]
    exact indices_clear_take h.size n

theorem PcrSelection.Holds.sum_eq_zero_iff {sel : PcrSelection} {hashAlg : HashAlg} {pcrs : List Nat}
    (h : sel.Holds hashAlg pcrs) : sum sel.sizeofSelect sel.pcrSelect = 0 ↔ pcrs = [] := by
  rw [Mask.sum_eq_zero_iff (h.size.trans h.length.ge), ← h.selected, PcrSelection.selected]

/-- Which read returns the value at each position, when the first one is read `reads`. -/
structure Schedule (batch : Nat → Nat) (reads : Nat) (read : Nat → Nat) : Prop where
  first : ∀ j < batch reads, read j = reads
  ge : ∀ j, reads ≤ read j
  mono : Monotone read

/-- Some positions belong to this read, the others to those that follow. -/
theorem Schedule.next {batch : Nat → Nat} {reads : Nat} {read : Nat → Nat} (h : Schedule batch (reads + 1) read) :
    Schedule batch reads fun j => if j < batch reads then reads else read (j - batch reads) where
  first j hj := if_pos hj
  ge j := by
    have := h.ge (j - batch reads)
    split_ifs <;> omega
  mono j j' hjj' := by
    have hge := h.ge (j' - batch reads)
    have hmono := h.mono (Nat.sub_le_sub_right hjj' (batch reads))
    simp only
    split_ifs <;> omega

theorem Schedule.const (batch : Nat → Nat) (reads : Nat) : Schedule batch reads fun _ => reads where
  first _ _ := rfl
  ge _ := le_refl reads
  mono _ _ _ := le_refl reads

theorem mapIdx_take_drop {α : Type} (g : Nat → Nat → α) (read : Nat → Nat) (reads n : Nat) (l : List Nat) :
    l.mapIdx (fun j i => g (if j < n then reads else read (j - n)) i) =
      (l.take n).map (g reads) ++ (l.drop n).mapIdx fun j i => g (read j) i := by
  induction l generalizing n with
  | nil => simp
  | cons i l ih =>
      cases n with
      | zero => simp
      | succ n =>
          have ih := ih n
          simp only [List.mapIdx_cons, List.take_succ_cons, List.drop_succ_cons, List.map_cons, List.cons_append,
            Nat.add_lt_add_iff_right, Nat.add_sub_add_right, Nat.zero_lt_succ, if_true, ih]

section Loop

variable (states : Nat → PcrState) {batch : Nat → Nat} (hashAlg : HashAlg)

/-- One read fills the entries of the registers it returns and takes them out of the selection. -/
theorem populateLoopOver_read (fuel reads : Nat) {sel : PcrSelection} {asc : List Nat} (h : sel.Holds hashAlg asc)
    (hlen : (asc.take (batch reads)).length ≠ 0) (done pcrs : List PcrValue) {filled : List PcrValue}
    (hfilled : filled = fill pcrs ((asc.take (batch reads)).map ((states reads).value hashAlg))) (maskSum : Nat) :
    populateLoopOver states batch (fuel + 1) reads sel done.length maskSum (done ++ pcrs) =
      if sum (sel.left (batch reads)).sizeofSelect (sel.left (batch reads)).pcrSelect ≠ 0 then
        populateLoopOver states batch fuel (reads + 1) (sel.left (batch reads))
          (done.length + (asc.take (batch reads)).length)
          (sum (sel.left (batch reads)).sizeofSelect (sel.left (batch reads)).pcrSelect) (done ++ filled)
      else some (done ++ filled) := by
  rw [populateLoopOver, populateLoopWith, populateReads]
  simp only [pcrRead, h.selected, h.hash, List.length_map, if_pos hlen, appendDigests_eq, ← hfilled,
    PcrSelection.left]
  split_ifs <;> rfl

/-- **The loop fills the entries in the order of the registers**, with the value each register has at the moment of the
read that returns it. -/
theorem populateLoopOver_eq (hbatch : ∀ k, 1 ≤ batch k) {fuel : Nat} (reads : Nat) {sel : PcrSelection}
    {asc : List Nat} (h : sel.Holds hashAlg asc) (hfuel : asc.length < fuel) (done pcrs : List PcrValue)
    (hroom : asc.length ≤ pcrs.length) {maskSum : Nat} (hsum : asc = [] → maskSum = 0) :
    ∃ read, Schedule batch reads read ∧
      populateLoopOver states batch fuel reads sel done.length maskSum (done ++ pcrs) =
        some (done ++ fill pcrs (asc.mapIdx fun j i => (states (read j)).value hashAlg i)) := by
  induction fuel generalizing reads sel asc done pcrs maskSum with
  | zero => omega
  | succ fuel ih =>
      by_cases hnil : asc = []
      · refine ⟨_, .const batch reads, ?_⟩
        simp [populateLoopOver, populateLoopWith, populateReads, pcrRead, h.selected, hsum hnil, hnil]
      · have hpos := List.length_pos_iff.2 hnil
        have hbatchk := hbatch reads
        have hlen : (asc.take (batch reads)).length ≠ 0 := by
          rw [List.length_take]
          omega
        rw [populateLoopOver_read states hashAlg fuel reads h hlen done pcrs rfl]
        have hleft := h.left (batch reads)
        split_ifs with hmask
        · rw [ne_eq, hleft.sum_eq_zero_iff] at hmask
          generalize hdigests : (asc.take (batch reads)).map ((states reads).value hashAlg) = digests
          have hcount : (asc.take (batch reads)).length = digests.length := by rw [← hdigests, List.length_map]
          have hdrop : (asc.drop (batch reads)).length + digests.length = asc.length := by
            rw [← hcount, List.length_drop, List.length_take]
            have := List.drop_eq_nil_iff.not.1 hmask
            omega
          have hdone : done.length + (asc.take (batch reads)).length =
              (done ++ (fill pcrs digests).take digests.length).length := by
            rw [hcount, List.length_append, length_take_fill (by omega)]
          have hroom' : (asc.drop (batch reads)).length ≤ ((fill pcrs digests).drop digests.length).length := by
            rw [length_drop_fill]
            omega
          have hsplit : done ++ fill pcrs digests =
              done ++ (fill pcrs digests).take digests.length ++ (fill pcrs digests).drop digests.length := by
            rw [List.append_assoc, List.take_append_drop]
          obtain ⟨read, hread, hrun⟩ := ih (reads + 1) hleft (by omega)
            (done ++ (fill pcrs digests).take digests.length) ((fill pcrs digests).drop digests.length)
            hroom' (fun hnil => absurd hnil hmask)
          refine ⟨_, hread.next, ?_⟩
          rw [hdone, hsplit, hrun, mapIdx_take_drop (fun r i => (states r).value hashAlg i), hdigests, fill_append,
            List.append_assoc]
        · rw [ne_eq, not_not, hleft.sum_eq_zero_iff] at hmask
          refine ⟨_, (Schedule.const batch (reads + 1)).next, ?_⟩
          rw [mapIdx_take_drop (fun r i => (states r).value hashAlg i) (fun _ => reads + 1), hmask, List.mapIdx_nil,
            List.append_nil]

end Loop

section Still

variable (s : PcrState) {batch : Nat → Nat} (hashAlg : HashAlg)

/-- Registers that nobody extends: the values that are read, by position. -/
theorem populateLoop_fill (hbatch : ∀ k, 1 ≤ batch k) {sel : PcrSelection} {asc pcrs : List Nat}
    (h : sel.Holds hashAlg asc) (hroom : asc.length ≤ pcrs.length) {fuel : Nat} (hfuel : pcrs.length < fuel) :
    populateLoop s batch fuel 0 sel 0 0 (pcrs.map blank) = some (fill (pcrs.map blank) (asc.map (s.value hashAlg))) := by
  obtain ⟨read, -, hrun⟩ := populateLoopOver_eq (fun _ => s) hashAlg hbatch 0 h (hroom.trans_lt hfuel) []
    (pcrs.map blank) (by rwa [List.length_map]) (fun _ => rfl)
  have hvalues : (asc.mapIdx fun _ i => s.value hashAlg i) = asc.map (s.value hashAlg) := by
    apply List.ext_getElem?
    simp
  rw [List.nil_append, List.nil_append, List.length_nil, hvalues] at hrun
  exact hrun

theorem populateLoop_eq (hbatch : ∀ k, 1 ≤ batch k) {fuel : Nat} {sel : PcrSelection} {pcrs : List Nat}
    (h : sel.Holds hashAlg pcrs) (hfuel : pcrs.length < fuel) :
    populateLoop s batch fuel 0 sel 0 0 (pcrs.map blank) = some (pcrs.map (current s hashAlg)) := by
  rw [populateLoop_fill s hashAlg hbatch h (le_refl _) hfuel, fill_blank]
  rfl

variable {pcrCount : Nat} {pcrs : List Nat}

/-- **`GetPCRValues` returns the values of the registers that are selected**, by position. -/
theorem getPCRValues_ok (hbatch : ∀ k, 1 ≤ batch k) (hlt : ∀ i ∈ pcrs, i < pcrCount) (hle : pcrCount / 8 ≤ 4)
    {fuel : Nat} (hfuel : pcrs.length < fuel) :
    getPCRValues s batch pcrCount pcrs hashAlg fuel =
      some (.ok ⟨hashAlg, fill (pcrs.map blank) ((ascending pcrCount pcrs).map (s.value hashAlg))⟩) := by
  obtain ⟨sel, hsel, hholds⟩ := getTssPcrSelection_blank hlt hle hashAlg
  have hloop := populateLoop_fill s hashAlg hbatch hholds (length_ascending_le pcrCount pcrs) hfuel
  simp only [getPCRValues, hsel, hloop, Option.map_some]

theorem getPCRValues_error (hge : ∃ i ∈ pcrs, pcrCount ≤ i) (fuel : Nat) :
    getPCRValues s batch pcrCount pcrs hashAlg fuel = some (.error .indexOutOfRange) := by
  obtain ⟨i, hi, hle⟩ := hge
  have hmask : pcrMask pcrCount (pcrs.map blank) 0 = .error .indexOutOfRange :=
    pcrMask_error _ ⟨blank i, List.mem_map_of_mem hi, hle⟩ 0
  simp only [getPCRValues, getTssPcrSelection, hmask]
  rfl

end Still

end CvmAttestation.Tpm
