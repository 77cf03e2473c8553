import Mathlib.Data.List.Basic
import Mathlib.Data.List.Count
import Mathlib.Tactic

/-! Byte strings and searching them. A string of the sources is the list of its bytes; the positions
`find` and `rfind` return are those of `std::string`, and a string that holds a separator exactly
twice is cut into its three segments in one way only. -/

namespace CvmAttestation.Base

abbrev Bytes := List UInt8

def ascii (s : String) : Bytes := s.toList.map fun c => UInt8.ofNat c.toNat

section Search

variable {α : Type*} [DecidableEq α]

/-- `std::string::find`: the position of the first occurrence. -/
def find (c : α) : List α → Option Nat
  | [] => none
  | x :: xs => if x = c then some 0 else (find c xs).map (· + 1)

/-- `std::string::rfind`: the position of the last occurrence. -/
def rfind (c : α) : List α → Option Nat
  | [] => none
  | x :: xs =>
    match rfind c xs with
    | some i => some (i + 1)
    | none => if x = c then some 0 else none

theorem rfind_eq_none {c : α} {xs : List α} (h : c ∉ xs) : rfind c xs = none := by
  induction xs with
  | nil => rfl
  | cons x xs ih =>
      rw [List.mem_cons, not_or] at h
      simp only [rfind, ih h.2, if_neg (Ne.symm h.1)]

theorem find_append_cons {c : α} {a : List α} (b : List α) (h : c ∉ a) :
    find c (a ++ c :: b) = some a.length := by
  induction a with
  | nil => simp [find]
  | cons x a ih =>
      rw [List.mem_cons, not_or] at h
      simp only [List.cons_append, find, if_neg (Ne.symm h.1), ih h.2, Option.map_some, List.length_cons]

theorem rfind_append_cons {c : α} (a : List α) {b : List α} (h : c ∉ b) :
    rfind c (a ++ c :: b) = some a.length := by
  induction a with
  | nil => simp [rfind, rfind_eq_none h]
  | cons x a ih => simp only [List.cons_append, rfind, ih, List.length_cons]

theorem rfind_eq_some {c : α} {xs : List α} {j : Nat} (h : rfind c xs = some j) :
    ∃ a d, xs = a ++ c :: d ∧ a.length = j := by
  induction xs generalizing j with
  | nil => cases h
  | cons x xs ih =>
      rw [rfind] at h
      split at h
      · rename_i i hi
        cases h
        obtain ⟨a, d, rfl, rfl⟩ := ih hi
        exact ⟨x :: a, d, rfl, rfl⟩
      · split_ifs at h with hx
        cases h
        exact ⟨[], xs, by rw [hx]; rfl, rfl⟩

omit [DecidableEq α] in
theorem take_second (c : α) (a b d : List α) :
    (a ++ c :: (b ++ c :: d)).take (a.length + 1 + b.length) = a ++ c :: b := by
  have hs : a ++ c :: (b ++ c :: d) = (a ++ c :: b) ++ c :: d := by rw [List.append_assoc, List.cons_append]
  have hlen : a.length + 1 + b.length = (a ++ c :: b).length := by
    rw [List.length_append, List.length_cons]
    omega
  rw [hlen, hs, List.take_left]

/-- The first and the last of at least two separators. -/
theorem exists_outer {c : α} {s : List α} {i j : Nat} (hi : find c s = some i) (hj : rfind c s = some j)
    (hne : i ≠ j) : ∃ a b d, s = a ++ c :: (b ++ c :: d) ∧ a.length = i ∧ a.length + 1 + b.length = j := by
  obtain ⟨p, d, rfl, rfl⟩ := rfind_eq_some hj
  have hmem : c ∈ p := by
    by_contra hc
    rw [find_append_cons d hc] at hi
    cases hi
    exact hne rfl
  obtain ⟨a, b, rfl, ha⟩ := List.eq_append_cons_of_mem hmem
  rw [List.append_assoc, List.cons_append, find_append_cons _ ha] at hi
  cases hi
  refine ⟨a, b, d, by rw [List.append_assoc, List.cons_append], rfl, ?_⟩
  rw [List.length_append, List.length_cons]
  omega

/-- The string `s` is three segments free of `c`, joined by `c`. -/
structure Segments (c : α) (s a b d : List α) : Prop where
  eq : s = a ++ c :: (b ++ c :: d)
  first : c ∉ a
  second : c ∉ b
  third : c ∉ d

/-- A string that holds the separator exactly twice has three segments. -/
theorem exists_segments {c : α} {s : List α} (h : s.count c = 2) : ∃ a b d, Segments c s a b d := by
  have hmem : c ∈ s := List.count_pos_iff.1 (by omega)
  obtain ⟨a, r, rfl, ha⟩ := List.eq_append_cons_of_mem hmem
  rw [List.count_append, List.count_eq_zero_of_not_mem ha, List.count_cons_self] at h
  have hmem' : c ∈ r := List.count_pos_iff.1 (by omega)
  obtain ⟨b, d, rfl, hb⟩ := List.eq_append_cons_of_mem hmem'
  rw [List.count_append, List.count_eq_zero_of_not_mem hb, List.count_cons_self] at h
  have hd : c ∉ d := fun hd => by
    have := List.count_pos_iff.2 hd
    omega
  exact ⟨a, b, d, rfl, ha, hb, hd⟩

namespace Segments

variable {c : α} {s a b d : List α}

theorem count (h : Segments c s a b d) : s.count c = 2 := by
  rw [h.eq]
  simp only [List.count_append, List.count_cons_self, List.count_eq_zero_of_not_mem h.first,
    List.count_eq_zero_of_not_mem h.second, List.count_eq_zero_of_not_mem h.third]

theorem find (h : Segments c s a b d) : find c s = some a.length := by
  rw [h.eq]
  exact find_append_cons _ h.first

theorem rfind (h : Segments c s a b d) : rfind c s = some (a.length + 1 + b.length) := by
  have hs : s = (a ++ c :: b) ++ c :: d := by rw [h.eq, List.append_assoc, List.cons_append]
  rw [hs, rfind_append_cons _ h.third, List.length_append, List.length_cons]
  congr 1
  omega

omit [DecidableEq α] in
theorem take_first (h : Segments c s a b d) : s.take a.length = a := by
  rw [h.eq, List.take_left]

omit [DecidableEq α] in
theorem take_last (h : Segments c s a b d) : s.take (a.length + 1 + b.length) = a ++ c :: b := by
  rw [h.eq, take_second]

omit [DecidableEq α] in
theorem middle (h : Segments c s a b d) :
    (s.drop (a.length + 1)).take (a.length + 1 + b.length - (a.length + 1)) = b := by
  have hs : s = (a ++ [c]) ++ (b ++ c :: d) := by rw [h.eq]; simp
  have hlen : a.length + 1 = (a ++ [c]).length := by simp
  rw [Nat.add_sub_cancel_left, hlen, hs, List.drop_left, List.take_left]

omit [DecidableEq α] in
theorem drop_last (h : Segments c s a b d) : s.drop (a.length + 1 + b.length + 1) = d := by
  have hs : s = (a ++ c :: b ++ [c]) ++ d := by rw [h.eq]; simp
  have hlen : a.length + 1 + b.length + 1 = (a ++ c :: b ++ [c]).length := by
    simp only [List.length_append, List.length_cons, List.length_nil]
    omega
  rw [hlen, hs, List.drop_left]

end Segments

end Search

end CvmAttestation.Base
