import CvmAttestation.BaseBytes
import Mathlib.Data.List.Infix

/-! The first place where a pattern occurs in a text, and what follows it there. A pattern without some character occurs
on one side of every such character, so that a text with separators is searched piece by piece. -/

namespace CvmAttestation.Base

/-- What follows the first occurrence of the pattern. -/
def After (pattern s rest : Bytes) : Prop :=
  ∃ before, s = before ++ (pattern ++ rest) ∧ ∀ p r, s = p ++ (pattern ++ r) → before.length ≤ p.length

section

variable {pattern s : Bytes}

theorem dropInfix_eq_some_iff {before rest : Bytes} :
    s.dropInfix? pattern = some (before, rest) ↔
      s = before ++ (pattern ++ rest) ∧ ∀ p r, s = p ++ (pattern ++ r) → before.length ≤ p.length := by
  rw [List.dropInfix?_eq_some_iff]
  constructor
  · rintro ⟨⟨i, hs, hi⟩, hfirst⟩
    obtain rfl := eq_of_beq hi
    refine ⟨by rw [hs, List.append_assoc], fun p r hr => hfirst p i r ?_ (beq_self_eq_true i)⟩
    rw [hr, List.append_assoc]
  · rintro ⟨hs, hfirst⟩
    refine ⟨⟨pattern, by rw [hs, List.append_assoc], beq_self_eq_true pattern⟩, fun p i r hr hi => ?_⟩
    obtain rfl := eq_of_beq hi
    exact hfirst p r (by rw [hr, List.append_assoc])

theorem dropInfix_eq_none (h : ¬pattern <:+: s) : s.dropInfix? pattern = none := by
  cases hfound : s.dropInfix? pattern with
  | none => rfl
  | some r =>
      obtain ⟨before, rest⟩ := r
      obtain ⟨rfl, -⟩ := dropInfix_eq_some_iff.1 hfound
      exact absurd ⟨before, rest, List.append_assoc _ _ _⟩ h

/-- A text in which the pattern occurs has a first occurrence. -/
theorem exists_after (h : pattern <:+: s) : ∃ rest, After pattern s rest := by
  classical
  have hlength : ∃ n, ∃ p r, s = p ++ (pattern ++ r) ∧ p.length = n := by
    obtain ⟨p, r, rfl⟩ := h
    exact ⟨p.length, p, r, List.append_assoc _ _ _, rfl⟩
  obtain ⟨before, rest, hs, hbefore⟩ := Nat.find_spec hlength
  refine ⟨rest, before, hs, fun p r hr => ?_⟩
  rw [hbefore]
  exact Nat.find_min' hlength ⟨p, r, hr, rfl⟩

theorem After.unique {rest rest' : Bytes} (h : After pattern s rest) (h' : After pattern s rest') : rest = rest' := by
  obtain ⟨before, hs, hfirst⟩ := h
  obtain ⟨before', hs', hfirst'⟩ := h'
  have hlength : before.length = before'.length := le_antisymm (hfirst _ _ hs') (hfirst' _ _ hs)
  have heq : before ++ (pattern ++ rest) = before' ++ (pattern ++ rest') := hs.symm.trans hs'
  obtain ⟨-, htail⟩ := List.append_inj heq hlength
  exact List.append_cancel_left htail

theorem after_start (rest : Bytes) : After pattern (pattern ++ rest) rest :=
  ⟨[], rfl, fun p _ _ => Nat.zero_le p.length⟩

/-- What is appended to a text does not change where the pattern occurs first. -/
theorem After.append {rest : Bytes} (h : After pattern s rest) (t : Bytes) : After pattern (s ++ t) (rest ++ t) := by
  obtain ⟨before, hs, hfirst⟩ := h
  refine ⟨before, by rw [hs, List.append_assoc, List.append_assoc], fun p r hr => ?_⟩
  by_contra hlt
  have hinside : p ++ pattern <+: s := by
    apply List.prefix_of_prefix_length_le ⟨r, ?_⟩ (List.prefix_append s t)
    · rw [hs]
      simp only [List.length_append]
      omega
    · rw [hr, List.append_assoc]
  obtain ⟨r', hr'⟩ := hinside
  exact hlt (hfirst p r' (by rw [← hr', List.append_assoc]))

section

variable {c : UInt8} (hc : c ∉ pattern)

include hc in
/-- An occurrence of the pattern lies on one side of a character that the pattern does not have. -/
theorem occurs_cases {t p r : Bytes} (h : s ++ c :: t = p ++ (pattern ++ r)) :
    (∃ r', s = p ++ (pattern ++ r')) ∨ ∃ q, p = s ++ c :: q ∧ t = q ++ (pattern ++ r) := by
  obtain ⟨a, hp, hrest⟩ | ⟨a, hs, hrest⟩ := List.append_eq_append_iff.1 h
  · cases a with
    | nil =>
        cases pattern with
        | nil => exact .inl ⟨[], by rw [hp]; simp⟩
        | cons d pattern => exact absurd (List.mem_cons.2 (.inl (List.cons.inj hrest).1)) hc
    | cons d a =>
        obtain ⟨rfl, htail⟩ := List.cons.inj hrest
        exact .inr ⟨a, hp, htail⟩
  · obtain ⟨b, ha, -⟩ | ⟨b, hpattern, hb⟩ := List.append_eq_append_iff.1 hrest
    · exact .inl ⟨b, by rw [hs, ha]⟩
    · cases b with
      | nil => exact .inl ⟨[], by rw [hs, hpattern, List.append_nil, List.append_nil]⟩
      | cons d b =>
          obtain rfl : c = d := (List.cons.inj hb).1
          exact absurd (by rw [hpattern]; exact List.mem_append_right _ List.mem_cons_self) hc

include hc in
theorem infix_append_cons_iff {t : Bytes} : pattern <:+: s ++ c :: t ↔ pattern <:+: s ∨ pattern <:+: t := by
  constructor
  · rintro ⟨p, r, h⟩
    rw [List.append_assoc] at h
    obtain ⟨r', hs⟩ | ⟨q, -, ht⟩ := occurs_cases hc h.symm
    · exact .inl ⟨p, r', by rw [hs, List.append_assoc]⟩
    · exact .inr ⟨q, r, by rw [ht, List.append_assoc]⟩
  · rintro (h | h)
    · exact h.trans (List.prefix_append s (c :: t)).isInfix
    · exact h.trans ((List.suffix_cons c t).trans (List.suffix_append s (c :: t))).isInfix

include hc in
/-- A piece without the pattern is passed over. -/
theorem After.skip {t rest : Bytes} (hs : ¬pattern <:+: s) (h : After pattern t rest) : After pattern (s ++ c :: t) rest := by
  obtain ⟨before, ht, hfirst⟩ := h
  refine ⟨s ++ c :: before, by rw [ht, List.append_assoc, List.cons_append], fun p r hr => ?_⟩
  obtain ⟨r', hs'⟩ | ⟨q, hp, hq⟩ := occurs_cases hc hr
  · exact absurd ⟨p, r', by rw [hs', List.append_assoc]⟩ hs
  · have hle := hfirst q r hq
    rw [hp]
    simp only [List.length_append, List.length_cons]
    omega

end

end

end CvmAttestation.Base
