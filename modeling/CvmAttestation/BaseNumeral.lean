import CvmAttestation.BaseBytes
import Mathlib.Data.List.TakeWhile

/-! Numbers in texts. A numeral is a string of digits. The functions of the C library read more than numerals: they pass
over blanks, take a sign, stop at the first byte that is no digit, and say nothing about what follows. -/

namespace CvmAttestation.Base.Numeral

def isDigit (c : UInt8) : Bool := 48 ≤ c && c ≤ 57

def isBlank (c : UInt8) : Bool := c = 32 || (9 ≤ c && c ≤ 13)

def value (ds : Bytes) : ℕ := ds.foldl (fun n c => 10 * n + (c.toNat - 48)) 0

/-- One digit or more, and nothing else. -/
def Decimal (s : Bytes) : Prop := s ≠ [] ∧ s.all isDigit = true

instance : DecidablePred Decimal := fun _ => inferInstanceAs (Decidable (_ ∧ _))

/-- The number that the digits at the beginning of a text stand for. -/
def digits (s : Bytes) : Option ℕ := if s.takeWhile isDigit = [] then none else some (value (s.takeWhile isDigit))

/-- Whether a text begins with a minus sign, and its number after blanks and a sign. -/
def leading (s : Bytes) : Option (Bool × ℕ) :=
  match s.dropWhile isBlank with
  | 45 :: t => (digits t).map (true, ·)
  | 43 :: t => (digits t).map (false, ·)
  | t => (digits t).map (false, ·)

def signed (v : Bool × ℕ) : ℤ := if v.1 then -v.2 else v.2

/-- `std::strtoul` with base ten: zero if there is no number, the largest value if the number is too large, and the
negative of the number, within the type, after a minus sign. -/
def strtoul (bits : ℕ) (s : Bytes) : ℕ :=
  match leading s with
  | none => 0
  | some (negative, n) => if 2 ^ bits ≤ n then 2 ^ bits - 1 else if negative then (2 ^ bits - n) % 2 ^ bits else n

/-- `std::stoi`, `none` where it throws: if there is no number, and if the number is no `int`. -/
def stoi (s : Bytes) : Option ℤ := (leading s).bind fun v => if -2 ^ 31 ≤ signed v ∧ signed v < 2 ^ 31 then some (signed v) else none

theorem isBlank_eq_false {c : UInt8} (h : isDigit c = true) : isBlank c = false := by
  simp only [isDigit, isBlank, Bool.and_eq_true, decide_eq_true_eq, Bool.or_eq_false_iff, decide_eq_false_iff_not,
    Bool.and_eq_false_iff, UInt8.le_iff_toNat_le, ← UInt8.toNat_inj, UInt8.toNat_ofNat] at h ⊢
  omega

theorem Decimal.takeWhile {s : Bytes} (h : Decimal s) : s.takeWhile isDigit = s :=
  List.takeWhile_eq_self_iff.2 fun c hc => List.all_eq_true.1 h.2 c hc

theorem digits_decimal {s : Bytes} (h : Decimal s) : digits s = some (value s) := by
  rw [digits, h.takeWhile, if_neg h.1]

/-- A numeral is read as it is meant. -/
theorem leading_decimal {s : Bytes} (h : Decimal s) : leading s = some (false, value s) := by
  obtain ⟨c, t, rfl⟩ := List.exists_cons_of_ne_nil h.1
  have hc : isDigit c = true := List.all_eq_true.1 h.2 c List.mem_cons_self
  have hdrop : (c :: t).dropWhile isBlank = c :: t := by
    rw [List.dropWhile_cons, isBlank_eq_false hc]
    rfl
  rw [leading, hdrop]
  split
  · rename_i heq
    cases heq
    cases hc
  · rename_i heq
    cases heq
    cases hc
  · rw [digits_decimal h]
    rfl

theorem stoi_decimal {s : Bytes} (h : Decimal s) (hlt : value s < 2 ^ 31) : stoi s = some (value s : ℤ) := by
  have hsigned : signed (false, value s) = value s := rfl
  have hrange : -2 ^ 31 ≤ (value s : ℤ) ∧ (value s : ℤ) < 2 ^ 31 := by
    constructor
    · omega
    · omega
  rw [stoi, leading_decimal h, Option.bind_some, hsigned, if_pos hrange]

end CvmAttestation.Base.Numeral
