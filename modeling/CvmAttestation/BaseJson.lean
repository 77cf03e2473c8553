import CvmAttestation.BaseUtf8
import Mathlib.Tactic

/-! JSON values and the accessors of `nlohmann::json` that the sources call, with the exceptions the
accessors raise. The parser and the writer are not modelled here: they are given functions wherever
they occur. -/

namespace CvmAttestation.Base

/-- A JSON value. The members of an object are listed; the first one with a key counts. -/
inductive Json
  | null
  | bool (b : Bool)
  | int (n : Int)
  | real (x : Rat)
  | string (s : Bytes)
  | array (xs : List Json)
  | object (members : List (Bytes × Json))

/-- The exceptions of the JSON library, all of them derived from `std::exception`. -/
inductive JsonError
  | parseError
  | typeError
  | outOfRange
  | otherError
  deriving DecidableEq, Repr

namespace Json

/-- The member of an object with key `k`. -/
def member? (j : Json) (k : Bytes) : Option Json :=
  match j with
  | object ms => ms.lookup k
  | _ => none

/-- `contains`: false for a value that is not an object. -/
def contains (j : Json) (k : Bytes) : Bool := (j.member? k).isSome

def isString : Json → Bool
  | string _ => true
  | _ => false

def isObject : Json → Bool
  | object _ => true
  | _ => false

def equalsString (j : Json) (s : Bytes) : Bool :=
  match j with
  | string t => t == s
  | _ => false

def getString : Json → Except JsonError Bytes
  | string s => .ok s
  | _ => .error .typeError

def at? (j : Json) (k : Bytes) : Except JsonError Json :=
  match j with
  | object ms =>
    match ms.lookup k with
    | some v => .ok v
    | none => .error .outOfRange
  | _ => .error .typeError

/-- `operator[](key)` on a value that may be modified: a null value becomes an object, a missing member
becomes a null one, and what is read in both cases is null. -/
def index (j : Json) (k : Bytes) : Except JsonError Json :=
  match j with
  | null => .ok null
  | object ms => .ok ((ms.lookup k).getD null)
  | _ => .error .typeError

/-- `value(key, defaultValue)` with a string as the default. -/
def value (j : Json) (k defaultValue : Bytes) : Except JsonError Bytes :=
  match j with
  | object ms =>
    match ms.lookup k with
    | some v => v.getString
    | none => .ok defaultValue
  | _ => .error .typeError

/-- Assigning to a key of an object, whose members are kept in the order of their keys. -/
def setMember (k : Bytes) (v : Json) : List (Bytes × Json) → List (Bytes × Json)
  | [] => [(k, v)]
  | (k', v') :: ms =>
    if k' = k then (k, v) :: ms
    else if k < k' then (k, v) :: (k', v') :: ms
    else (k', v') :: setMember k v ms

/-- `j[k] = v`: a null value becomes an object. -/
def set (j : Json) (k : Bytes) (v : Json) : Except JsonError Json :=
  match j with
  | null => .ok (object (setMember k v []))
  | object ms => .ok (object (setMember k v ms))
  | _ => .error .typeError

theorem at?_eq_ok {j v : Json} {k : Bytes} (h : j.at? k = .ok v) : j.member? k = some v := by
  cases j with
  | object ms =>
      simp only [at?, member?] at h ⊢
      split at h
      · rename_i w hw
        cases h
        exact hw
      · cases h
  | _ => cases h

theorem index_eq_array {j : Json} {k : Bytes} {xs : List Json} (h : j.index k = .ok (array xs)) :
    j.member? k = some (array xs) := by
  cases j with
  | object ms =>
      simp only [index, member?, Except.ok.injEq] at h ⊢
      cases hl : ms.lookup k with
      | none =>
          rw [hl] at h
          cases h
      | some w =>
          rw [hl] at h
          rw [← h]
          rfl
  | _ => cases h

theorem equalsString_iff {j : Json} {s : Bytes} : j.equalsString s = true ↔ j = string s := by
  cases j with
  | string t => simp [equalsString]
  | _ => simp [equalsString]

theorem isString_iff {j : Json} : j.isString = true ↔ ∃ s, j = string s := by
  cases j <;> simp [isString]

/-! ### Text -/

mutual

/-- All strings of a value are well-formed UTF-8: what the parser accepts and what `dump` demands. -/
def utf8Ok : Json → Bool
  | string s => Utf8.valid s
  | array xs => utf8OkAll xs
  | object ms => utf8OkMembers ms
  | _ => true

def utf8OkAll : List Json → Bool
  | [] => true
  | x :: xs => x.utf8Ok && utf8OkAll xs

def utf8OkMembers : List (Bytes × Json) → Bool
  | [] => true
  | (k, v) :: ms => Utf8.valid k && v.utf8Ok && utf8OkMembers ms

end

theorem utf8Ok_lookup {ms : List (Bytes × Json)} (h : utf8OkMembers ms = true) {k : Bytes} {v : Json}
    (hv : ms.lookup k = some v) : v.utf8Ok = true := by
  induction ms with
  | nil => cases hv
  | cons m ms ih =>
      obtain ⟨k', w⟩ := m
      simp only [utf8OkMembers, Bool.and_eq_true] at h
      rw [List.lookup_cons] at hv
      split at hv
      · cases hv
        exact h.1.2
      · exact ih h.2 hv

theorem utf8OkMembers_setMember {ms : List (Bytes × Json)} {k : Bytes} {v : Json} (h : utf8OkMembers ms = true)
    (hk : Utf8.valid k = true) (hv : v.utf8Ok = true) : utf8OkMembers (setMember k v ms) = true := by
  induction ms with
  | nil => simp [setMember, utf8OkMembers, hk, hv]
  | cons m ms ih =>
      obtain ⟨k', v'⟩ := m
      simp only [utf8OkMembers, Bool.and_eq_true] at h
      rw [setMember]
      split_ifs
      · simp [utf8OkMembers, hk, hv, h.2]
      · simp [utf8OkMembers, hk, hv, h.1, h.2]
      · simp [utf8OkMembers, h.1, ih h.2]

theorem lookup_cons_ite {α : Type} (ms : List (Bytes × α)) (k k' : Bytes) (v : α) :
    ((k, v) :: ms).lookup k' = if k' = k then some v else ms.lookup k' := by
  rw [List.lookup_cons]
  by_cases h : k' = k
  · simp [h]
  · rw [if_neg h, beq_false_of_ne h]

theorem lookup_setMember (ms : List (Bytes × Json)) (k k' : Bytes) (v : Json) :
    (setMember k v ms).lookup k' = if k' = k then some v else ms.lookup k' := by
  induction ms with
  | nil => exact lookup_cons_ite [] k k' v
  | cons m ms ih =>
      obtain ⟨k'', v''⟩ := m
      rw [setMember, lookup_cons_ite]
      by_cases hsame : k'' = k
      · rw [if_pos hsame, lookup_cons_ite, hsame]
        split_ifs
        · rfl
        · rfl
      · rw [if_neg hsame]
        by_cases hless : k < k''
        · rw [if_pos hless, lookup_cons_ite, lookup_cons_ite]
        · rw [if_neg hless, lookup_cons_ite, ih]
          by_cases hk : k' = k
          · rw [if_pos hk, if_pos hk, if_neg (fun h => hsame (h.symm.trans hk))]
          · rw [if_neg hk, if_neg hk]

end Json

end CvmAttestation.Base
