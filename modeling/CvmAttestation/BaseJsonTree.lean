import CvmAttestation.BaseJsonText

/-! JSON values as trees: how deep they are, and properties that hold at every node of them. -/

namespace CvmAttestation.Base.Json

mutual

/-- How many values are nested, the outermost and the innermost one included. -/
def depth : Json → ℕ
  | array xs => depthAll xs + 1
  | object ms => depthMembers ms + 1
  | _ => 1

def depthAll : List Json → ℕ
  | [] => 0
  | x :: xs => max x.depth (depthAll xs)

def depthMembers : List (Bytes × Json) → ℕ
  | [] => 0
  | (_, v) :: ms => max v.depth (depthMembers ms)

end

mutual

/-- A property of a value and of all values in it. -/
def Everywhere (p : Json → Prop) : Json → Prop
  | array xs => p (array xs) ∧ EverywhereAll p xs
  | object ms => p (object ms) ∧ EverywhereMembers p ms
  | j => p j

def EverywhereAll (p : Json → Prop) : List Json → Prop
  | [] => True
  | x :: xs => x.Everywhere p ∧ EverywhereAll p xs

def EverywhereMembers (p : Json → Prop) : List (Bytes × Json) → Prop
  | [] => True
  | (_, v) :: ms => v.Everywhere p ∧ EverywhereMembers p ms

end

theorem depthAll_le_iff {xs : List Json} {n : ℕ} : depthAll xs ≤ n ↔ ∀ x ∈ xs, x.depth ≤ n := by
  induction xs with
  | nil => simp [depthAll]
  | cons x xs ih => simp [depthAll, ih]

theorem depthMembers_le_iff {ms : List (Bytes × Json)} {n : ℕ} : depthMembers ms ≤ n ↔ ∀ m ∈ ms, m.2.depth ≤ n := by
  induction ms with
  | nil => simp [depthMembers]
  | cons m ms ih =>
      obtain ⟨k, v⟩ := m
      simp [depthMembers, ih]

theorem depth_array_le_iff {xs : List Json} {n : ℕ} : (array xs).depth ≤ n + 1 ↔ ∀ x ∈ xs, x.depth ≤ n := by
  rw [depth, Nat.add_le_add_iff_right, depthAll_le_iff]

theorem depth_object_le_iff {ms : List (Bytes × Json)} {n : ℕ} :
    (object ms).depth ≤ n + 1 ↔ ∀ m ∈ ms, m.2.depth ≤ n := by
  rw [depth, Nat.add_le_add_iff_right, depthMembers_le_iff]

theorem depth_pos (j : Json) : 0 < j.depth := by
  cases j <;> simp [depth]

section

variable {p : Json → Prop}

theorem everywhereAll_iff {xs : List Json} : EverywhereAll p xs ↔ ∀ x ∈ xs, x.Everywhere p := by
  induction xs with
  | nil => simp [EverywhereAll]
  | cons x xs ih => simp [EverywhereAll, ih]

theorem everywhereMembers_iff {ms : List (Bytes × Json)} : EverywhereMembers p ms ↔ ∀ m ∈ ms, m.2.Everywhere p := by
  induction ms with
  | nil => simp [EverywhereMembers]
  | cons m ms ih =>
      obtain ⟨k, v⟩ := m
      simp [EverywhereMembers, ih]

theorem everywhere_array {xs : List Json} : (array xs).Everywhere p ↔ p (array xs) ∧ ∀ x ∈ xs, x.Everywhere p := by
  rw [Everywhere, everywhereAll_iff]

theorem everywhere_object {ms : List (Bytes × Json)} :
    (object ms).Everywhere p ↔ p (object ms) ∧ ∀ m ∈ ms, m.2.Everywhere p := by
  rw [Everywhere, everywhereMembers_iff]

end

/-! ### What a library holds -/

/-- An integer fits into a machine word, and the members of an object are in the order of their keys. -/
def WellFormed : Json → Prop :=
  Everywhere fun
    | int n => -2 ^ 63 ≤ n ∧ n < 2 ^ 64
    | object ms => ascending ms = true
    | _ => True

/-- There is no number with a fraction. -/
def Integral : Json → Prop :=
  Everywhere fun
    | real _ => False
    | _ => True

theorem wellFormed_array {xs : List Json} : (array xs).WellFormed ↔ ∀ x ∈ xs, x.WellFormed := by
  rw [WellFormed, everywhere_array, true_and]

theorem wellFormed_object {ms : List (Bytes × Json)} :
    (object ms).WellFormed ↔ ascending ms = true ∧ ∀ m ∈ ms, m.2.WellFormed := by
  rw [WellFormed, everywhere_object]

theorem integral_array {xs : List Json} : (array xs).Integral ↔ ∀ x ∈ xs, x.Integral := by
  rw [Integral, everywhere_array, true_and]

theorem integral_object {ms : List (Bytes × Json)} : (object ms).Integral ↔ ∀ m ∈ ms, m.2.Integral := by
  rw [Integral, everywhere_object, true_and]

/-- A portable value is one that a library holds, and not deeper than it may be. -/
theorem wellFormed_of_portable {n : ℕ} {j : Json} (h : portable n j = true) :
    j.WellFormed ∧ j.Integral ∧ j.depth ≤ n + 1 := by
  induction n generalizing j with
  | zero =>
      cases j with
      | int m =>
          rw [portable, Bool.and_eq_true, decide_eq_true_eq, decide_eq_true_eq] at h
          exact ⟨h, trivial, le_rfl⟩
      | real x => cases h
      | array xs => cases h
      | object ms => cases h
      | _ => exact ⟨trivial, trivial, le_rfl⟩
  | succ n ih =>
      cases j with
      | int m =>
          rw [portable, Bool.and_eq_true, decide_eq_true_eq, decide_eq_true_eq] at h
          exact ⟨h, trivial, Nat.succ_le_succ (Nat.zero_le _)⟩
      | real x => cases h
      | array xs =>
          rw [portable, List.all_eq_true] at h
          rw [wellFormed_array, integral_array, depth_array_le_iff]
          exact ⟨fun x hx => (ih (h x hx)).1, fun x hx => (ih (h x hx)).2.1, fun x hx => (ih (h x hx)).2.2⟩
      | object ms =>
          rw [portable, Bool.and_eq_true, List.all_eq_true] at h
          have hvalue : ∀ m ∈ ms, portable n m.2 = true := fun m hm => (Bool.and_eq_true_iff.1 (h.2 m hm)).2
          rw [wellFormed_object, integral_object, depth_object_le_iff]
          exact ⟨⟨h.1, fun m hm => (ih (hvalue m hm)).1⟩, fun m hm => (ih (hvalue m hm)).2.1,
            fun m hm => (ih (hvalue m hm)).2.2⟩
      | _ => exact ⟨trivial, trivial, Nat.succ_le_succ (Nat.zero_le _)⟩

end CvmAttestation.Base.Json
