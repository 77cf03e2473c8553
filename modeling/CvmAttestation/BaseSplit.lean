import Mathlib.Tactic

/-! Splitting a list at a delimiter. `List.splitOn` has one piece more than there are delimiters, and it is the only way
to cut a list into pieces that the delimiter joins again. Reading piece by piece up to the end of the input gives the
same pieces, but for an empty one at the end. -/

namespace CvmAttestation.Base

theorem intercalate_concat {α : Type} {pieces : List (List α)} (h : pieces ≠ []) (d : α) (piece : List α) :
    [d].intercalate (pieces ++ [piece]) = [d].intercalate pieces ++ d :: piece := by
  induction pieces with
  | nil => exact absurd rfl h
  | cons first pieces ih =>
      by_cases hnil : pieces = []
      · rw [hnil]
        simp
      · have hne : pieces ++ [piece] ≠ [] := List.append_ne_nil_of_left_ne_nil hnil _
        rw [List.cons_append, List.intercalate_cons_of_ne_nil hne, ih hnil, List.intercalate_cons_of_ne_nil hnil,
          ← List.append_assoc]

section

variable {α : Type} [DecidableEq α] {d : α} {s piece : List α}

/-- Pieces without the delimiter, one more than it occurs, that it joins to the list. -/
structure Splits (d : α) (s : List α) (pieces : List (List α)) : Prop where
  length : pieces.length = s.count d + 1
  free : ∀ piece ∈ pieces, d ∉ piece
  join : [d].intercalate pieces = s

theorem splitOn_cons_of_ne {c : α} (hc : c ≠ d) :
    ∃ piece pieces, s.splitOn d = piece :: pieces ∧ (c :: s).splitOn d = (c :: piece) :: pieces := by
  obtain ⟨piece, pieces, hs⟩ := List.exists_cons_of_ne_nil (List.splitOn_ne_nil d s)
  refine ⟨piece, pieces, hs, ?_⟩
  rw [List.splitOn_cons_eq_if_modifyHead, if_neg (by simpa using hc), hs, List.modifyHead_cons]

theorem splitOn_cons_self (d : α) (s : List α) : (d :: s).splitOn d = [] :: s.splitOn d := by
  rw [List.splitOn_cons_eq_if_modifyHead, if_pos (beq_self_eq_true d)]

theorem length_splitOn (d : α) (s : List α) : (s.splitOn d).length = s.count d + 1 := by
  induction s with
  | nil => rfl
  | cons c s ih =>
      by_cases hc : c = d
      · rw [hc, splitOn_cons_self, List.length_cons, ih, List.count_cons_self]
      · obtain ⟨piece, pieces, hs, hcons⟩ := @splitOn_cons_of_ne α _ d s c hc
        rw [hs, List.length_cons] at ih
        rw [hcons, List.length_cons, ih, List.count_cons_of_ne (by simpa using hc)]

theorem notMem_of_mem_splitOn (h : piece ∈ s.splitOn d) : d ∉ piece := by
  induction s generalizing piece with
  | nil =>
      rw [List.splitOn_nil, List.mem_singleton] at h
      rw [h]
      exact List.not_mem_nil
  | cons c s ih =>
      by_cases hc : c = d
      · rw [hc, splitOn_cons_self, List.mem_cons] at h
        rcases h with rfl | h
        · exact List.not_mem_nil
        · exact ih h
      · obtain ⟨first, pieces, hs, hcons⟩ := @splitOn_cons_of_ne α _ d s c hc
        rw [hs, List.forall_mem_cons] at ih
        rw [hcons, List.mem_cons] at h
        rcases h with rfl | h
        · rw [List.mem_cons, not_or]
          exact ⟨Ne.symm hc, ih.1⟩
        · exact ih.2 _ h

/-- **There is one way to split a list.** -/
theorem splits_iff {pieces : List (List α)} : Splits d s pieces ↔ pieces = s.splitOn d := by
  constructor
  · intro h
    have hne : pieces ≠ [] := by
      rintro rfl
      cases h.length
    calc pieces = ([d].intercalate pieces).splitOn d := (List.splitOn_intercalate d h.free hne).symm
      _ = s.splitOn d := by rw [h.join]
  · rintro rfl
    exact ⟨length_splitOn d s, fun _ => notMem_of_mem_splitOn, List.intercalate_splitOn d⟩

/-- The last piece is empty exactly when the list is empty or ends with the delimiter. -/
theorem getLast?_splitOn_iff : (s.splitOn d).getLast? = some [] ↔ s = [] ∨ s.getLast? = some d := by
  constructor
  · intro hlast
    obtain ⟨pieces, hpieces⟩ := List.getLast?_eq_some_iff.1 hlast
    have hjoin : [d].intercalate (pieces ++ [[]]) = s := by rw [← hpieces, List.intercalate_splitOn]
    by_cases hnil : pieces = []
    · rw [hnil] at hjoin
      exact .inl hjoin.symm
    · rw [intercalate_concat hnil] at hjoin
      right
      rw [← hjoin]
      exact List.getLast?_concat
  · rintro (rfl | hend)
    · rfl
    · obtain ⟨t, rfl⟩ := List.getLast?_eq_some_iff.1 hend
      rw [List.splitOn_append_cons_self, List.splitOn_nil]
      exact List.getLast?_concat

/-- What is read piece by piece: nothing is left to be read after a delimiter at the end. -/
def dropEmptyEnd (pieces : List (List α)) : List (List α) :=
  if pieces.getLast? = some [] then pieces.dropLast else pieces

theorem dropEmptyEnd_cons {pieces : List (List α)} (h : pieces ≠ []) (piece : List α) :
    dropEmptyEnd (piece :: pieces) = piece :: dropEmptyEnd pieces := by
  unfold dropEmptyEnd
  obtain ⟨second, rest, rfl⟩ := List.exists_cons_of_ne_nil h
  rw [List.getLast?_cons_cons, List.dropLast_cons_of_ne_nil h]
  split_ifs <;> rfl

/-- **Reading piece by piece splits the list exactly when** it is not empty and does not end with the delimiter. -/
theorem dropEmptyEnd_splitOn_iff : Splits d s (dropEmptyEnd (s.splitOn d)) ↔ s ≠ [] ∧ s.getLast? ≠ some d := by
  rw [splits_iff, ← not_or, ← getLast?_splitOn_iff, dropEmptyEnd]
  split_ifs with hend
  · refine iff_of_false (fun hsame => ?_) (not_not.2 hend)
    have hlength := congrArg List.length hsame
    have hpos := List.length_pos_iff.2 (List.splitOn_ne_nil d s)
    rw [List.length_dropLast] at hlength
    omega
  · exact iff_of_true rfl hend

theorem length_dropEmptyEnd_splitOn (d : α) (s : List α) :
    (dropEmptyEnd (s.splitOn d)).length = if s = [] ∨ s.getLast? = some d then s.count d else s.count d + 1 := by
  unfold dropEmptyEnd
  by_cases hend : (s.splitOn d).getLast? = some []
  · rw [if_pos hend, if_pos (getLast?_splitOn_iff.1 hend), List.length_dropLast, length_splitOn, Nat.add_sub_cancel]
  · rw [if_neg hend, if_neg (mt getLast?_splitOn_iff.2 hend), length_splitOn]

end

end CvmAttestation.Base
