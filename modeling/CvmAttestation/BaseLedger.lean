import Mathlib.Logic.Function.Basic
import Mathlib.Tactic

/-! A ledger of resources that are handed out as tokens: handles, keys, descriptors. Every token is given out once. A
resource is held from its acquisition to its release, and the release of a token that is not held is a misuse, so a
piece of work has been tidy when it leaves a ledger that is settled with the one it found. -/

namespace CvmAttestation.Base

/-- The resources that are held, by token; the tokens from `next` on have not been given out. -/
structure Ledger (α : Type) where
  held : ℕ → Option α
  next : ℕ
  misused : Bool
  fresh : ∀ t, next ≤ t → held t = none

namespace Ledger

variable {α : Type} (L : Ledger α)

def acquire (a : α) : Ledger α where
  held := Function.update L.held L.next (some a)
  next := L.next + 1
  misused := L.misused
  fresh t ht := by
    have hne : t ≠ L.next := by omega
    rw [Function.update_of_ne hne]
    exact L.fresh t (by omega)

def release (t : ℕ) : Ledger α where
  held := Function.update L.held t none
  next := L.next
  misused := L.misused || (L.held t).isNone
  fresh t' ht := by
    by_cases heq : t' = t
    · rw [heq, Function.update_self]
    · rw [Function.update_of_ne heq]
      exact L.fresh t' ht

/-- Nothing has been acquired. -/
def empty : Ledger α := ⟨fun _ => none, 0, false, fun _ _ => rfl⟩

/-- One release after the other. -/
def releaseAll (ts : List ℕ) : Ledger α := ts.foldl release L

/-- What is held are the tokens of a list that names none of them twice, and nothing was released that was not held. -/
structure Holds (ts : List ℕ) : Prop where
  nodup : ts.Nodup
  held_iff : ∀ t, (L.held t).isSome = true ↔ t ∈ ts
  unspoilt : L.misused = false

/-- The same resources are held, and nothing was released that was not held. -/
def Settled (L' : Ledger α) : Prop := L'.held = L.held ∧ L'.misused = L.misused

variable {L}

@[simp] theorem held_acquire (a : α) : (L.acquire a).held L.next = some a := Function.update_self _ _ _

theorem Settled.refl : L.Settled L := ⟨rfl, rfl⟩

theorem settled_release_acquire (a : α) : L.Settled ((L.acquire a).release L.next) := by
  refine ⟨?_, ?_⟩
  · show Function.update (Function.update L.held L.next (some a)) L.next none = L.held
    rw [Function.update_idem, ← L.fresh L.next le_rfl, Function.update_eq_self]
  · show (L.misused || ((L.acquire a).held L.next).isNone) = L.misused
    rw [held_acquire, Option.isNone_some, Bool.or_false]

/-- A ledger that holds a token from the time before it was given out is not settled. -/
theorem not_settled_of_held {L' : Ledger α} {t : ℕ} (ht : L.next ≤ t) (h : (L'.held t).isSome = true) :
    ¬L.Settled L' := by
  rintro ⟨hheld, -⟩
  rw [hheld, L.fresh t ht] at h
  cases h

/-! ### Tokens that a list accounts for -/

variable {t : ℕ} {ts : List ℕ}

theorem holds_empty : (empty : Ledger α).Holds [] := ⟨List.nodup_nil, fun _ => by simp [empty], rfl⟩

theorem Holds.perm {ts' : List ℕ} (h : L.Holds ts) (hperm : ts.Perm ts') : L.Holds ts' :=
  ⟨hperm.nodup h.nodup, fun t => (h.held_iff t).trans hperm.mem_iff, h.unspoilt⟩

theorem Holds.acquire (h : L.Holds ts) (a : α) : (L.acquire a).Holds (L.next :: ts) := by
  have hnew : L.next ∉ ts := by
    rw [← h.held_iff, L.fresh L.next le_rfl]
    simp
  refine ⟨List.nodup_cons.2 ⟨hnew, h.nodup⟩, fun t => ?_, h.unspoilt⟩
  show (Function.update L.held L.next (some a) t).isSome = true ↔ t ∈ L.next :: ts
  by_cases heq : t = L.next
  · simp [heq]
  · rw [Function.update_of_ne heq, h.held_iff, List.mem_cons]
    simp [heq]

theorem Holds.release (h : L.Holds (t :: ts)) : (L.release t).Holds ts := by
  obtain ⟨hnew, hnodup⟩ := List.nodup_cons.1 h.nodup
  refine ⟨hnodup, fun t' => ?_, ?_⟩
  · show (Function.update L.held t none t').isSome = true ↔ t' ∈ ts
    by_cases heq : t' = t
    · simp [heq, hnew]
    · rw [Function.update_of_ne heq, h.held_iff, List.mem_cons]
      simp [heq]
  · show (L.misused || (L.held t).isNone) = false
    have hheld := (h.held_iff t).2 List.mem_cons_self
    rw [h.unspoilt, Option.isNone_eq_false_iff.2 hheld, Bool.or_false]

/-- Released once each, the tokens leave nothing behind. -/
theorem Holds.releaseAll (h : L.Holds ts) : empty.Settled (L.releaseAll ts) := by
  induction ts generalizing L with
  | nil =>
      refine ⟨funext fun t => ?_, h.unspoilt⟩
      show L.held t = none
      simpa using h.held_iff t
  | cons t ts ih => exact ih h.release

theorem releaseAll_misused (h : L.misused = true) : (L.releaseAll ts).misused = true := by
  induction ts generalizing L with
  | nil => exact h
  | cons t ts ih =>
      apply ih
      show (L.misused || (L.held t).isNone) = true
      rw [h, Bool.true_or]

/-- Nothing is acquired between two releases, so a token that is not held stays so. -/
theorem releaseAll_misused_of_mem (hheld : L.held t = none) (h : t ∈ ts) : (L.releaseAll ts).misused = true := by
  induction ts generalizing L with
  | nil => cases h
  | cons t' ts ih =>
      show ((L.release t').releaseAll ts).misused = true
      by_cases heq : t' = t
      · apply releaseAll_misused
        show (L.misused || (L.held t').isNone) = true
        rw [heq, hheld, Option.isNone_none, Bool.or_true]
      · apply ih
        · exact (Function.update_of_ne (Ne.symm heq) _ _).trans hheld
        · exact (List.mem_cons.1 h).resolve_left (Ne.symm heq)

theorem releaseAll_misused_of_not_nodup (h : ¬ts.Nodup) : (L.releaseAll ts).misused = true := by
  induction ts generalizing L with
  | nil => exact absurd List.nodup_nil h
  | cons t ts ih =>
      show ((L.release t).releaseAll ts).misused = true
      by_cases hmem : t ∈ ts
      · exact releaseAll_misused_of_mem (Function.update_self _ _ _) hmem
      · apply ih
        intro hnodup
        exact h (List.nodup_cons.2 ⟨hmem, hnodup⟩)

end Ledger

end CvmAttestation.Base
