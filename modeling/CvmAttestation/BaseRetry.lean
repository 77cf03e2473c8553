import Mathlib.Tactic

/-! Bounded retries. Rounds are numbered, `again k` says whether round `k` asks for another one, and only
`limit` further rounds are granted. How many rounds are run, and why each of them but the last was followed by
another one, depends on nothing else. -/

namespace CvmAttestation.Base

/-- The number of rounds that are run from round `k` on, when `limit` further rounds are granted. -/
def attempts (again : Nat → Bool) : Nat → Nat → Nat
  | 0, _ => 1
  | limit + 1, k => if again k then attempts again limit (k + 1) + 1 else 1

variable {again : Nat → Bool}

theorem attempts_stop {k : Nat} (h : again k = false) (limit : Nat) : attempts again limit k = 1 := by
  cases limit with
  | zero => rfl
  | succ limit => rw [attempts, h, if_neg Bool.false_ne_true]

theorem attempts_again {k : Nat} (h : again k = true) (limit : Nat) :
    attempts again (limit + 1) k = attempts again limit (k + 1) + 1 := by
  rw [attempts, if_pos h]

theorem attempts_pos (again : Nat → Bool) (limit k : Nat) : 1 ≤ attempts again limit k := by
  cases limit with
  | zero => exact le_refl 1
  | succ limit =>
      rw [attempts]
      split
      · exact Nat.le_add_left 1 _
      · exact le_refl 1

theorem attempts_le (again : Nat → Bool) (limit k : Nat) : attempts again limit k ≤ limit + 1 := by
  induction limit generalizing k with
  | zero => exact le_refl 1
  | succ limit ih =>
      rw [attempts]
      split
      · exact Nat.add_le_add_right (ih (k + 1)) 1
      · exact Nat.le_add_left 1 _

/-- **A round is followed by another one** exactly when it asks for it and is one of the first `limit`. -/
theorem attempts_next_iff {limit k j : Nat} (hj : j < attempts again limit k) :
    j + 1 < attempts again limit k ↔ again (k + j) = true ∧ j < limit := by
  induction limit generalizing k j with
  | zero =>
      rw [attempts] at hj ⊢
      omega
  | succ limit ih =>
      by_cases h : again k = true
      · rw [attempts_again h] at hj ⊢
        cases j with
        | zero =>
            have hpos := attempts_pos again limit (k + 1)
            rw [Nat.add_zero]
            constructor
            · exact fun _ => ⟨h, Nat.succ_pos limit⟩
            · exact fun _ => by omega
        | succ j =>
            have hstep := @ih (k + 1) j (by omega)
            rw [show k + (j + 1) = k + 1 + j by omega]
            constructor
            · intro hlt
              obtain ⟨hagain, hlimit⟩ := hstep.1 (by omega)
              exact ⟨hagain, by omega⟩
            · rintro ⟨hagain, hlimit⟩
              have hlt := hstep.2 ⟨hagain, by omega⟩
              omega
      · rw [Bool.not_eq_true] at h
        rw [attempts_stop h] at hj ⊢
        have hj0 : j = 0 := by omega
        subst hj0
        simp [h]

/-- **A loop with a counter of eight bits** that starts over after each round but the last one: what it returns is what
the last round returns. -/
theorem retryLoop_eq {α : Type*} {loop : UInt8 → Nat → α} {last : Nat → α} {top : Nat} (htop : top < 256)
    (hlast : ∀ retries k, again k = false ∨ retries = UInt8.ofNat top → loop retries k = last k)
    (hagain : ∀ retries k, again k = true → retries ≠ UInt8.ofNat top → loop retries k = loop (retries + 1) (k + 1))
    {limit : Nat} (hlimit : limit ≤ top) (k : Nat) :
    loop (UInt8.ofNat (top - limit)) k = last (k + attempts again limit k - 1) := by
  induction limit generalizing k with
  | zero => exact hlast _ k (.inr rfl)
  | succ limit ih =>
      by_cases h : again k = true
      · have hne : UInt8.ofNat (top - (limit + 1)) ≠ UInt8.ofNat top := by
          intro heq
          have hnat := congrArg UInt8.toNat heq
          rw [UInt8.toNat_ofNat', UInt8.toNat_ofNat'] at hnat
          omega
        have hnext : UInt8.ofNat (top - (limit + 1)) + 1 = UInt8.ofNat (top - limit) := by
          apply UInt8.toNat_inj.1
          have hone : (1 : UInt8).toNat = 1 := rfl
          rw [UInt8.toNat_add, UInt8.toNat_ofNat', UInt8.toNat_ofNat', hone]
          omega
        have hcount : k + attempts again (limit + 1) k - 1 = k + 1 + attempts again limit (k + 1) - 1 := by
          rw [attempts_again h]
          omega
        rw [hagain _ k h hne, hnext, ih (by omega), hcount]
      · rw [Bool.not_eq_true] at h
        rw [hlast _ k (.inl h), attempts_stop h, Nat.add_sub_cancel]

/-- Among rounds that are each reached when the rounds before ask for another one, the first one is always reached,
and the others when it asks for another one. -/
theorem forall_reached_succ {asks holds : Nat → Prop} (limit k : Nat) :
    (∀ j, j ≤ limit + 1 → (∀ i, i < j → asks (k + i)) → holds (k + j)) ↔
      holds k ∧ (asks k → ∀ j, j ≤ limit → (∀ i, i < j → asks (k + 1 + i)) → holds (k + 1 + j)) := by
  constructor
  · intro h
    refine ⟨h 0 (Nat.zero_le _) nofun, fun hk j hj hasks => ?_⟩
    rw [Nat.add_right_comm]
    apply h (j + 1) (by omega)
    intro i hi
    cases i with
    | zero => exact hk
    | succ i =>
        rw [← Nat.add_assoc, Nat.add_right_comm]
        exact hasks i (by omega)
  · rintro ⟨hk, h⟩ j hj hasks
    cases j with
    | zero => exact hk
    | succ j =>
        rw [← Nat.add_assoc, Nat.add_right_comm]
        apply h (hasks 0 (Nat.succ_pos j)) j (by omega)
        intro i hi
        rw [Nat.add_right_comm]
        exact hasks (i + 1) (by omega)

end CvmAttestation.Base
