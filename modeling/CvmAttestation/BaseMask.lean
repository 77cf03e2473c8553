import Mathlib.Data.List.Sort
import Mathlib.Tactic

/-! Sets of small numbers as bit masks in octets: bit `i % 8` of octet `i / 8` stands for the number `i`. The numbers
of a mask are listed in ascending order, and clearing the first `n` of them leaves the rest of the list. -/

namespace CvmAttestation.Base.Mask

abbrev Octets := List (BitVec 8)

def bit (octets : Octets) (i : Nat) : Bool := (octets.getD (i / 8) 0).getLsbD (i % 8)

/-- The numbers in the first `size` octets, in ascending order. -/
def indices (size : Nat) (octets : Octets) : List Nat := (List.range (8 * size)).filter (bit octets)

/-- The octets with the bits of some numbers. -/
def ofIndices (size : Nat) (l : List Nat) : Octets :=
  (List.range size).map fun j => l.foldl (fun octet i => if i / 8 = j then octet ||| 1#8 <<< (i % 8) else octet) 0

/-- Clearing, in the first `size` octets, the bits of another mask. -/
def clear (size : Nat) (octets out : Octets) : Octets :=
  octets.zipIdx.map fun (octet, j) => if j < size then octet &&& ~~~(out.getD j 0) else octet

def sum (size : Nat) (octets : Octets) : Nat := ((octets.take size).map BitVec.toNat).sum

/-! ### Bits -/

theorem mem_indices {size : Nat} {octets : Octets} {i : Nat} :
    i ∈ indices size octets ↔ i < 8 * size ∧ bit octets i = true := by
  rw [indices, List.mem_filter, List.mem_range]

theorem getLsbD_foldl (l : List Nat) (j k : Nat) (hk : k < 8) (octet : BitVec 8) :
    (l.foldl (fun octet i => if i / 8 = j then octet ||| 1#8 <<< (i % 8) else octet) octet).getLsbD k =
      (octet.getLsbD k || decide (8 * j + k ∈ l)) := by
  induction l generalizing octet with
  | nil => simp
  | cons i l ih =>
      rw [List.foldl_cons, ih]
      by_cases hj : i / 8 = j
      · rw [if_pos hj, BitVec.getLsbD_or]
        have hbit : (1#8 <<< (i % 8)).getLsbD k = decide (8 * j + k = i) := by
          rw [BitVec.getLsbD_shiftLeft, BitVec.getLsbD_one, Bool.eq_iff_iff]
          simp only [Bool.and_eq_true, decide_eq_true_eq, Bool.not_eq_true', decide_eq_false_iff_not]
          omega
        simp only [hbit, List.mem_cons, Bool.decide_or, Bool.or_assoc]
      · rw [if_neg hj]
        have hne : 8 * j + k ≠ i := by omega
        simp [hne]

theorem bit_ofIndices {size : Nat} {l : List Nat} {i : Nat} (hi : i < 8 * size) :
    bit (ofIndices size l) i = decide (i ∈ l) := by
  have hj : i / 8 < size := by omega
  have hget : (ofIndices size l).getD (i / 8) 0 =
      l.foldl (fun octet m => if m / 8 = i / 8 then octet ||| 1#8 <<< (m % 8) else octet) 0 := by
    simp [ofIndices, List.getD_eq_getElem?_getD, hj]
  rw [bit, hget, getLsbD_foldl l (i / 8) (i % 8) (by omega)]
  simp [Nat.div_add_mod]

theorem bit_clear {size : Nat} {octets out : Octets} {i : Nat} (hi : i < 8 * size) :
    bit (clear size octets out) i = (bit octets i && !bit out i) := by
  have hj : i / 8 < size := by omega
  have hk : i % 8 < 8 := by omega
  by_cases hlen : i / 8 < octets.length
  · simp [bit, clear, List.getD_eq_getElem?_getD, hj, hk, hlen]
  · have hle : octets.length ≤ i / 8 := by omega
    simp [bit, clear, List.getD_eq_getElem?_getD, hle]

@[simp] theorem length_clear (size : Nat) (octets out : Octets) : (clear size octets out).length = octets.length := by
  simp [clear]

/-! ### The list of a mask -/

theorem pairwise_indices (size : Nat) (octets : Octets) : (indices size octets).Pairwise (· < ·) :=
  List.Pairwise.filter _ List.pairwise_lt_range

theorem indices_eq {size : Nat} {octets : Octets} {l : List Nat} (hl : l.Pairwise (· < ·))
    (hlt : ∀ i ∈ l, i < 8 * size) (hbit : ∀ i < 8 * size, bit octets i = decide (i ∈ l)) :
    indices size octets = l := by
  refine (pairwise_indices size octets).eq_of_mem_iff hl ?_
  intro i
  rw [mem_indices]
  constructor
  · rintro ⟨hi, hset⟩
    rw [hbit i hi] at hset
    exact of_decide_eq_true hset
  · intro hi
    exact ⟨hlt i hi, by rw [hbit i (hlt i hi)]; exact decide_eq_true hi⟩

/-- Without its first `n` numbers, a mask lists the rest. -/
theorem indices_clear_take {size width : Nat} {octets : Octets} (hsize : size ≤ width) (n : Nat) :
    indices size (clear size octets (ofIndices width ((indices size octets).take n))) =
      (indices size octets).drop n := by
  have hpair := pairwise_indices size octets
  refine indices_eq (hpair.sublist (List.drop_sublist n _)) ?_ ?_
  · intro i hi
    exact (mem_indices.1 (List.mem_of_mem_drop hi)).1
  · intro i hi
    rw [bit_clear hi, bit_ofIndices (by omega), Bool.eq_iff_iff]
    have hmem : bit octets i = true ↔ i ∈ (indices size octets).take n ∨ i ∈ (indices size octets).drop n := by
      rw [← List.mem_append, List.take_append_drop, mem_indices]
      exact ⟨fun h => ⟨hi, h⟩, fun h => h.2⟩
    have hdisj : i ∈ (indices size octets).take n → i ∉ (indices size octets).drop n := by
      intro htake hdrop
      rw [← List.take_append_drop n (indices size octets), List.pairwise_append] at hpair
      exact lt_irrefl i (hpair.2.2 i htake i hdrop)
    simp only [Bool.and_eq_true, Bool.not_eq_true', decide_eq_false_iff_not, decide_eq_true_eq, hmem]
    tauto

theorem sum_eq_zero_iff {size : Nat} {octets : Octets} (hlen : size ≤ octets.length) :
    sum size octets = 0 ↔ indices size octets = [] := by
  rw [sum, List.sum_eq_zero_iff_forall_eq_nat, List.eq_nil_iff_forall_not_mem]
  constructor
  · intro h i hi
    obtain ⟨hi, hset⟩ := mem_indices.1 hi
    have hj : i / 8 < octets.length := by omega
    have hmem : octets[i / 8] ∈ octets.take size := by
      rw [List.mem_take_iff_getElem]
      exact ⟨i / 8, by omega, rfl⟩
    have hzero := h _ (List.mem_map_of_mem hmem)
    have heq : octets[i / 8] = 0#8 := BitVec.eq_of_toNat_eq hzero
    simp [bit, List.getD_eq_getElem?_getD, hj, heq] at hset
  · intro h n hn
    obtain ⟨octet, hoctet, rfl⟩ := List.mem_map.1 hn
    obtain ⟨j, hj, rfl⟩ := List.mem_take_iff_getElem.1 hoctet
    have heq : octets[j] = 0#8 := by
      refine BitVec.eq_of_getLsbD_eq fun k hk => ?_
      have hdiv : (8 * j + k) / 8 = j := by omega
      have hmod : (8 * j + k) % 8 = k := by omega
      have hnot := mt mem_indices.2 (h (8 * j + k))
      have hj' : j < octets.length := by omega
      simp only [bit, hdiv, hmod, List.getD_eq_getElem?_getD, List.getElem?_eq_getElem hj', Option.getD_some,
        not_and, Bool.not_eq_true] at hnot
      rw [hnot (by omega), BitVec.getLsbD_zero]
    rw [heq]
    rfl

/-! ### Clearing -/

theorem ext_of_bit {octets octets' : Octets} (hlen : octets.length = octets'.length)
    (h : ∀ i < 8 * octets.length, bit octets i = bit octets' i) : octets = octets' := by
  refine List.ext_getElem hlen fun j hj hj' => BitVec.eq_of_getLsbD_eq fun k hk => ?_
  have hdiv : (8 * j + k) / 8 = j := by omega
  have hmod : (8 * j + k) % 8 = k := by omega
  have hbit := h (8 * j + k) (by omega)
  simpa [bit, hdiv, hmod, List.getD_eq_getElem?_getD, hj, hj'] using hbit

theorem bit_of_bit_clear {size : Nat} {octets out : Octets} {i : Nat} (h : bit (clear size octets out) i = true) :
    bit octets i = true := by
  by_cases hi : i < 8 * size
  · rw [bit_clear hi, Bool.and_eq_true] at h
    exact h.1
  · have hj : ¬ i / 8 < size := by omega
    by_cases hlen : i / 8 < octets.length
    · simpa [bit, clear, List.getD_eq_getElem?_getD, hj, hlen] using h
    · have hle : octets.length ≤ i / 8 := by omega
      simp [bit, clear, List.getD_eq_getElem?_getD, hle] at h

/-- Clearing leaves fewer numbers unless it changes nothing. -/
theorem indices_clear_lt_iff {size : Nat} {octets out : Octets} :
    (indices octets.length (clear size octets out)).length < (indices octets.length octets).length ↔
      clear size octets out ≠ octets := by
  have hsub : (indices octets.length (clear size octets out)).Sublist (indices octets.length octets) :=
    List.monotone_filter_right _ fun _ => bit_of_bit_clear
  constructor
  · intro hlt heq
    rw [heq] at hlt
    exact lt_irrefl _ hlt
  · intro hne
    refine lt_of_le_of_ne hsub.length_le fun hlen => hne ?_
    have heq := hsub.eq_of_length hlen
    refine ext_of_bit (length_clear size octets out) fun i hi => ?_
    rw [length_clear] at hi
    have hmem := @mem_indices octets.length (clear size octets out) i
    rw [heq, mem_indices, and_iff_right hi, and_iff_right hi] at hmem
    exact Bool.eq_iff_iff.2 hmem.symm

end CvmAttestation.Base.Mask
