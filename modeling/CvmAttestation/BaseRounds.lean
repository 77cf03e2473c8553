import Mathlib.Tactic

/-! Loops that ask a device once in each round and whose progress is left to the answer. A round goes on in a new state,
or ends the loop: it returns, raises, or leaves the memory the loop may use. `after k` is the loop after `k` answers, and
a measure of what remains decides whether every round that goes on has come closer to the end. -/

namespace CvmAttestation.Base

inductive Ending (ε α : Type)
  | returned (a : α)
  | raised (e : ε)
  /-- A store outside the destination. What follows is undefined. -/
  | outside
  deriving DecidableEq, Repr

inductive Round (σ ε α : Type)
  | next (s : σ)
  | ended (e : Ending ε α)

/-- A loop over the answers `ι` of a device. -/
structure Rounds (ι σ ε α : Type) where
  start : Round σ ε α
  round : σ → ι → Round σ ε α
  /-- What is left to be asked for. -/
  remaining : σ → ℤ

namespace Rounds

variable {ι σ ε α : Type} (l : Rounds ι σ ε α) (answers : Nat → ι)

/-- The loop after `k` answers. -/
def after : Nat → Round σ ε α
  | 0 => l.start
  | k + 1 =>
    match after k with
    | .next s => l.round s (answers k)
    | .ended e => .ended e

/-- The loop ends after finitely many answers, never leaves its memory, and each round that goes on leaves less to be
asked for. -/
structure WellBehaved : Prop where
  ends : ∃ k e, l.after answers k = .ended e
  inside : ∀ k, l.after answers k ≠ .ended .outside
  shrinks : ∀ k s t, l.after answers k = .next s → l.after answers (k + 1) = .next t →
    0 ≤ l.remaining t ∧ l.remaining t < l.remaining s

/-- What a single round has to do. -/
def Proper (s : σ) (answer : ι) : Prop :=
  l.round s answer ≠ .ended .outside ∧
    ∀ t, l.round s answer = .next t → 0 ≤ l.remaining t ∧ l.remaining t < l.remaining s

variable {l answers}

theorem after_succ {k : Nat} {s : σ} (h : l.after answers k = .next s) :
    l.after answers (k + 1) = l.round s (answers k) := by
  rw [after, h]

theorem after_ended {k : Nat} {e : Ending ε α} (h : l.after answers k = .ended e) :
    l.after answers (k + 1) = .ended e := by
  rw [after, h]

theorem after_add {k : Nat} {e : Ending ε α} (h : l.after answers k = .ended e) (n : Nat) :
    l.after answers (k + n) = .ended e := by
  induction n with
  | zero => exact h
  | succ n ih => exact after_ended ih

/-- A loop ends in one way. -/
theorem ended_unique {k k' : Nat} {e e' : Ending ε α} (h : l.after answers k = .ended e)
    (h' : l.after answers k' = .ended e') : e = e' := by
  have hk := after_add h k'
  have hk' := after_add h' k
  rw [Nat.add_comm, hk] at hk'
  exact (Round.ended.inj hk')

theorem next_of_next_succ {k : Nat} {t : σ} (h : l.after answers (k + 1) = .next t) :
    ∃ s, l.after answers k = .next s ∧ l.round s (answers k) = .next t := by
  cases hk : l.after answers k with
  | next s => exact ⟨s, rfl, by rw [← after_succ hk, h]⟩
  | ended e => cases (after_ended hk).symm.trans h

/-- A measure that shrinks in every round cannot last for more rounds than it starts with. -/
theorem remaining_le (hshrinks : ∀ k s t, l.after answers k = .next s → l.after answers (k + 1) = .next t →
      0 ≤ l.remaining t ∧ l.remaining t < l.remaining s)
    {k : Nat} {s t : σ} (hs : l.start = .next s) (ht : l.after answers k = .next t) :
    l.remaining t + k ≤ l.remaining s := by
  induction k generalizing t with
  | zero =>
      cases hs.symm.trans ht
      exact le_of_eq (by simp)
  | succ k ih =>
      obtain ⟨u, hu, -⟩ := next_of_next_succ ht
      have hlt := (hshrinks k u t hu ht).2
      have hle := ih hu
      push_cast
      omega

theorem ends_of_shrinks (hshrinks : ∀ k s t, l.after answers k = .next s → l.after answers (k + 1) = .next t →
      0 ≤ l.remaining t ∧ l.remaining t < l.remaining s) :
    ∃ k e, l.after answers k = .ended e := by
  by_contra hnever
  have hnext : ∀ k, ∃ s, l.after answers k = .next s := by
    intro k
    cases hk : l.after answers k with
    | next s => exact ⟨s, rfl⟩
    | ended e => exact absurd ⟨k, e, hk⟩ hnever
  obtain ⟨s, hs⟩ := hnext 0
  have hk : ∀ k t, l.after answers k = .next t → l.remaining t + k ≤ l.remaining s :=
    fun k t => remaining_le hshrinks hs
  obtain ⟨t, ht⟩ := hnext ((l.remaining s).toNat + 1)
  obtain ⟨u, hu, -⟩ := next_of_next_succ ht
  have hlt := hshrinks _ u t hu ht
  have hle := hk _ t ht
  push_cast at hle
  omega

/-- A loop is well behaved when each round that is reached is. -/
theorem wellBehaved_iff : l.WellBehaved answers ↔
    l.start ≠ .ended .outside ∧ ∀ k s, l.after answers k = .next s → l.Proper s (answers k) := by
  constructor
  · intro h
    refine ⟨h.inside 0, fun k s hs => ⟨?_, fun t ht => ?_⟩⟩
    · rw [← after_succ hs]
      exact h.inside (k + 1)
    · exact h.shrinks k s t hs (by rw [after_succ hs, ht])
  · intro ⟨hstart, hproper⟩
    have hshrinks : ∀ k s t, l.after answers k = .next s → l.after answers (k + 1) = .next t →
        0 ≤ l.remaining t ∧ l.remaining t < l.remaining s := by
      intro k s t hs ht
      rw [after_succ hs] at ht
      exact (hproper k s hs).2 t ht
    refine ⟨ends_of_shrinks hshrinks, fun k => ?_, hshrinks⟩
    induction k with
    | zero => exact hstart
    | succ k ih =>
        cases hk : l.after answers k with
        | next s =>
            rw [after_succ hk]
            exact (hproper k s hk).1
        | ended e =>
            rw [after_ended hk, ← hk]
            exact ih

/-- States that are never left, whatever comes after them. -/
theorem after_of_stays {P : σ → Prop} {k : Nat} {s : σ} (hs : l.after answers k = .next s) (hP : P s)
    (hstays : ∀ n t, P t → ∃ u, l.round t (answers (k + n)) = .next u ∧ P u) (n : Nat) :
    ∃ t, l.after answers (k + n) = .next t ∧ P t := by
  induction n with
  | zero => exact ⟨s, hs, hP⟩
  | succ n ih =>
      obtain ⟨t, ht, hPt⟩ := ih
      obtain ⟨u, hu, hPu⟩ := hstays n t hPt
      exact ⟨u, (after_succ ht).trans hu, hPu⟩

theorem not_wellBehaved_of_never {k : Nat} (h : ∀ n, ∃ s, l.after answers (k + n) = .next s) :
    ¬ l.WellBehaved answers := by
  intro hwell
  obtain ⟨j, e, hj⟩ := hwell.ends
  have hlater : ∀ n, l.after answers (j + n) = .ended e := by
    intro n
    induction n with
    | zero => exact hj
    | succ n ih => exact after_ended ih
  obtain ⟨s, hs⟩ := h j
  rw [Nat.add_comm] at hs
  cases (hlater k).symm.trans hs

end Rounds

end CvmAttestation.Base
