import CvmAttestation.BaseJson
import Std.Data.String.ToInt

/-! JSON values as texts. A value is portable when a writer can be expected to keep it: its strings are UTF-8, its
numbers are integers of a machine, the keys of its objects are in ascending order and it is not nested too deep. The
writer here puts nothing between the tokens, and the reader reads back every portable value. -/

namespace CvmAttestation.Base.Json

def ascending (ms : List (Bytes × Json)) : Bool := decide ((ms.map Prod.fst).Pairwise (· < ·))

/-- Whether a value is portable, for a given depth of nesting. -/
def portable : ℕ → Json → Bool
  | _, null => true
  | _, bool _ => true
  | _, int n => -2 ^ 63 ≤ n && n < 2 ^ 64
  | _, real _ => false
  | _, string s => Utf8.valid s
  | n + 1, array xs => xs.all (portable n)
  | n + 1, object ms => ascending ms && ms.all fun m => Utf8.valid m.1 && portable n m.2
  | 0, _ => false

/-! ### The writer -/

def special (c : UInt8) : Bool := c = 34 || c = 92 || c < 32

def hexDigit (n : UInt8) : UInt8 := if n < 10 then 48 + n else 87 + n

def escape (c : UInt8) : Bytes :=
  if special c then [92, 117, 48, 48, hexDigit (c / 16), hexDigit (c % 16)] else [c]

def quote (s : Bytes) : Bytes := 34 :: (s.flatMap escape ++ [34])

def numeral (n : ℤ) : Bytes := ascii (toString n)

def separated : List Bytes → Bytes
  | [] => []
  | x :: xs => x ++ xs.flatMap (44 :: ·)

def render : ℕ → Json → Bytes
  | _, null => ascii "null"
  | _, bool b => if b then ascii "true" else ascii "false"
  | _, int n => numeral n
  | _, real _ => []
  | _, string s => quote s
  | n + 1, array xs => 91 :: (separated (xs.map (render n)) ++ [93])
  | n + 1, object ms => 123 :: (separated (ms.map fun m => quote m.1 ++ (58 :: render n m.2)) ++ [125])
  | 0, _ => []

/-! ### The reader -/

def unhex (c : UInt8) : UInt8 := if c < 58 then c - 48 else c - 87

/-- A string up to its closing quotation mark, and what follows. -/
def readChars : Bytes → Option (Bytes × Bytes)
  | [] => none
  | 34 :: s => some ([], s)
  | 92 :: 117 :: 48 :: 48 :: a :: b :: s => (readChars s).map fun t => ((16 * unhex a + unhex b) :: t.1, t.2)
  | c :: s => (readChars s).map fun t => (c :: t.1, t.2)

def isNumeral (c : UInt8) : Bool := c = 45 || (48 ≤ c && c ≤ 57)

def readNumeral (s : Bytes) : Option (ℤ × Bytes) :=
  (String.ofList ((s.takeWhile isNumeral).map fun c => Char.ofNat c.toNat)).toInt?.map (·, s.dropWhile isNumeral)

/-- The items after the first one, up to the closing character. -/
def readRest {α : Type} (read : Bytes → Option (α × Bytes)) (close : UInt8) : ℕ → Bytes → Option (List α × Bytes)
  | 0, _ => none
  | _ + 1, [] => none
  | k + 1, c :: s =>
    if c = close then some ([], s)
    else if c = 44 then do
      let (x, s) ← read s
      let (xs, s) ← readRest read close k s
      return (x :: xs, s)
    else none

def readItems {α : Type} (read : Bytes → Option (α × Bytes)) (close : UInt8) (s : Bytes) : Option (List α × Bytes) :=
  if s.head? = some close then some ([], s.tail)
  else do
    let (x, s) ← read s
    let (xs, s) ← readRest read close s.length s
    return (x :: xs, s)

def readMember (read : Bytes → Option (Json × Bytes)) : Bytes → Option ((Bytes × Json) × Bytes)
  | 34 :: s => do
    let (k, s) ← readChars s
    if s.head? = some 58 then
      let (v, s) ← read s.tail
      return ((k, v), s)
    else none
  | _ => none

def readScalar : Bytes → Option (Json × Bytes)
  | 110 :: 117 :: 108 :: 108 :: s => some (null, s)
  | 116 :: 114 :: 117 :: 101 :: s => some (bool true, s)
  | 102 :: 97 :: 108 :: 115 :: 101 :: s => some (bool false, s)
  | 34 :: s => (readChars s).map fun t => (string t.1, t.2)
  | s => (readNumeral s).map fun t => (int t.1, t.2)

def readValue : ℕ → Bytes → Option (Json × Bytes)
  | n + 1, 91 :: s => (readItems (readValue n) 93 s).map fun t => (array t.1, t.2)
  | n + 1, 123 :: s => (readItems (readMember (readValue n)) 125 s).map fun t => (object t.1, t.2)
  | _, s => readScalar s

/-- A text that is one value and nothing else. -/
def parse (n : ℕ) (s : Bytes) : Option Json :=
  match readValue n s with
  | some (j, []) => some j
  | _ => none

/-! ### What is written is read back -/

theorem unhex_hexDigit (c : UInt8) : 16 * unhex (hexDigit (c / 16)) + unhex (hexDigit (c % 16)) = c := by
  have h : ∀ i : Fin 256, 16 * unhex (hexDigit (UInt8.ofFin i / 16)) + unhex (hexDigit (UInt8.ofFin i % 16)) =
      UInt8.ofFin i := by decide +kernel
  exact h c.toFin

theorem readChars_escape (c : UInt8) (s : Bytes) :
    readChars (escape c ++ s) = (readChars s).map fun t => (c :: t.1, t.2) := by
  rw [escape]
  split
  · show readChars (92 :: 117 :: 48 :: 48 :: hexDigit (c / 16) :: hexDigit (c % 16) :: s) = _
    rw [readChars, unhex_hexDigit]
  · rename_i h
    have h34 : c ≠ 34 := by
      rintro rfl
      exact h (by decide)
    have h92 : c ≠ 92 := by
      rintro rfl
      exact h (by decide)
    rw [List.singleton_append, readChars]
    · exact h34
    · exact fun _ _ _ hc => absurd hc h92

theorem readChars_quote (s rest : Bytes) : readChars (s.flatMap escape ++ 34 :: rest) = some (s, rest) := by
  induction s with
  | nil => simp [readChars]
  | cons c s ih =>
      rw [List.flatMap_cons, List.append_assoc, readChars_escape, ih]
      rfl

/-- Where a number ends. -/
def Stops (rest : Bytes) : Prop := ∀ c ∈ rest.head?, isNumeral c = false

theorem toNat_of_mem_numeral {n : ℤ} {c : Char} (h : c ∈ (toString n).toList) :
    c.toNat = 45 ∨ 48 ≤ c.toNat ∧ c.toNat ≤ 57 := by
  have hdigits : ∀ m : ℕ, ∀ c ∈ m.repr.toList, 48 ≤ c.toNat ∧ c.toNat ≤ 57 := by
    intro m c hc
    rw [Nat.toList_repr] at hc
    have hdigit := Nat.isDigit_of_mem_toDigits (by decide) (by decide) hc
    rw [Char.isDigit, Bool.and_eq_true, decide_eq_true_eq, decide_eq_true_eq] at hdigit
    exact hdigit
  rw [Int.toString_eq_repr, Int.repr_eq_if] at h
  split at h
  · exact Or.inr (hdigits _ c h)
  · rw [String.toList_append, List.mem_append] at h
    rcases h with h | h
    · left
      simp at h
      rw [h]
      rfl
    · exact Or.inr (hdigits _ c h)

theorem isNumeral_of_mem {n : ℤ} {c : UInt8} (h : c ∈ numeral n) : isNumeral c = true := by
  rw [numeral, ascii, List.mem_map] at h
  obtain ⟨d, hd, rfl⟩ := h
  rcases toNat_of_mem_numeral hd with hminus | ⟨hlow, hhigh⟩
  · rw [hminus]
    rfl
  · have hlt : d.toNat % 256 = d.toNat := Nat.mod_eq_of_lt (by omega)
    simp [isNumeral, UInt8.le_iff_toNat_le, hlt, hlow, hhigh]

theorem ofList_numeral (n : ℤ) : String.ofList ((numeral n).map fun c => Char.ofNat c.toNat) = toString n := by
  rw [numeral, ascii, List.map_map, List.map_congr_left (g := id), List.map_id, String.ofList_toList]
  intro d hd
  have hd := toNat_of_mem_numeral hd
  have hlt : d.toNat < 256 := by omega
  simp [Nat.mod_eq_of_lt hlt]

theorem readNumeral_numeral (n : ℤ) {rest : Bytes} (h : Stops rest) :
    readNumeral (numeral n ++ rest) = some (n, rest) := by
  have hstop : rest.takeWhile isNumeral = [] ∧ rest.dropWhile isNumeral = rest := by
    cases rest with
    | nil => exact ⟨rfl, rfl⟩
    | cons c rest =>
        have hc : isNumeral c = false := h c (by simp)
        simp [hc]
  have hall : ∀ c ∈ numeral n, isNumeral c = true := fun c hc => isNumeral_of_mem hc
  rw [readNumeral, List.takeWhile_append_of_pos hall, List.dropWhile_append_of_pos hall, hstop.1, hstop.2,
    List.append_nil, ofList_numeral]
  simp

/-! ### Lists of items -/

section

variable {α : Type} {read : Bytes → Option (α × Bytes)} {write : α → Bytes} {close : UInt8}

/-- Every item is read back where a list goes on or ends, and does not look like the end of the list. -/
structure ReadsItems (read : Bytes → Option (α × Bytes)) (write : α → Bytes) (close : UInt8) (xs : List α) : Prop where
  closing : close ≠ 44 ∧ isNumeral close = false
  item : ∀ x ∈ xs, ∀ rest, Stops rest → read (write x ++ rest) = some (x, rest)
  start : ∀ x ∈ xs, ∀ rest, (write x ++ rest).head? ≠ some close

theorem ReadsItems.tail {x : α} {xs : List α} (h : ReadsItems read write close (x :: xs)) :
    ReadsItems read write close xs :=
  ⟨h.closing, fun y hy => h.item y (List.mem_cons_of_mem x hy), fun y hy => h.start y (List.mem_cons_of_mem x hy)⟩

theorem stops_rest (xs : List α) (rest : Bytes) (hclose : isNumeral close = false) :
    Stops (xs.flatMap (fun x => 44 :: write x) ++ close :: rest) := by
  cases xs with
  | nil => simpa [Stops] using hclose
  | cons x xs =>
      simp [Stops]
      decide

theorem readRest_flatMap {xs : List α} (h : ReadsItems read write close xs) (rest : Bytes) {k : ℕ}
    (hk : xs.length < k) :
    readRest read close k (xs.flatMap (fun x => 44 :: write x) ++ close :: rest) = some (xs, rest) := by
  induction xs generalizing k with
  | nil =>
      obtain ⟨k, rfl⟩ := Nat.exists_eq_add_of_lt hk
      simp [readRest]
  | cons x xs ih =>
      obtain ⟨k, rfl⟩ : ∃ m, k = m + 1 := ⟨k - 1, by simp at hk; omega⟩
      have hitem := h.item x (by simp) _ (@stops_rest α write close xs rest h.closing.2)
      have hrest := ih h.tail (k := k) (by simpa using hk)
      rw [List.flatMap_cons, List.cons_append, List.cons_append, List.append_assoc, readRest,
        if_neg (Ne.symm h.closing.1), if_pos rfl, hitem]
      simp only [Option.bind_eq_bind, Option.bind_some, hrest]
      rfl

theorem readItems_separated {xs : List α} (h : ReadsItems read write close xs) (rest : Bytes) :
    readItems read close (separated (xs.map write) ++ close :: rest) = some (xs, rest) := by
  cases xs with
  | nil => simp [readItems, separated]
  | cons x xs =>
      have hlen : xs.length < (xs.flatMap (fun x => 44 :: write x) ++ close :: rest).length := by
        have hone : ∀ l : List α, l.length ≤ (l.flatMap fun x => 44 :: write x).length := by
          intro l
          induction l with
          | nil => exact le_rfl
          | cons y l ih =>
              rw [List.flatMap_cons, List.length_append, List.length_cons, List.length_cons]
              omega
        have hxs := hone xs
        rw [List.length_append, List.length_cons]
        omega
      have hitem := h.item x (by simp) _ (@stops_rest α write close xs rest h.closing.2)
      have hrest := readRest_flatMap h.tail rest hlen
      rw [List.map_cons, separated, List.flatMap_map, List.append_assoc, readItems, if_neg (h.start x (by simp) _), hitem]
      simp only [Option.bind_eq_bind, Option.bind_some, hrest]
      rfl

end

/-! ### Values -/

theorem numeral_cons (n : ℤ) : ∃ c s, numeral n = c :: s ∧ isNumeral c = true := by
  cases h : numeral n with
  | nil =>
      rw [numeral, ascii, List.map_eq_nil_iff, Int.toString_eq_repr, Int.repr_eq_if] at h
      split at h
      · rw [Nat.toList_repr] at h
        exact absurd h Nat.toDigits_ne_nil
      · simp at h
  | cons c s =>
      refine ⟨c, s, rfl, isNumeral_of_mem (n := n) ?_⟩
      rw [h]
      exact List.mem_cons_self

theorem readScalar_numeral (n : ℤ) {rest : Bytes} (h : Stops rest) :
    readScalar (numeral n ++ rest) = some (int n, rest) := by
  have hread := readNumeral_numeral n h
  obtain ⟨c, s, hnumeral, hc⟩ := numeral_cons n
  have hne : ∀ (b : UInt8) (t : Bytes), isNumeral b = false → numeral n ++ rest ≠ b :: t := by
    intro b t hb heq
    rw [hnumeral] at heq
    cases heq
    rw [hc] at hb
    cases hb
  rw [readScalar, hread]
  · rfl
  · exact fun t ht => hne _ _ (by decide) ht
  · exact fun t ht => hne _ _ (by decide) ht
  · exact fun t ht => hne _ _ (by decide) ht
  · exact fun t ht => hne _ _ (by decide) ht

/-- How a value starts: never as a list ends. -/
theorem head_render {n : ℕ} {j : Json} (h : portable n j = true) (rest : Bytes) :
    ∃ c s, render n j ++ rest = c :: s ∧ c ≠ 93 ∧ c ≠ 125 := by
  cases j with
  | null => exact ⟨110, [117, 108, 108] ++ rest, by cases n <;> rfl, by decide, by decide⟩
  | bool b =>
      cases b with
      | true => exact ⟨116, [114, 117, 101] ++ rest, by cases n <;> rfl, by decide, by decide⟩
      | false => exact ⟨102, [97, 108, 115, 101] ++ rest, by cases n <;> rfl, by decide, by decide⟩
  | int m =>
      obtain ⟨c, s, hnumeral, hc⟩ := numeral_cons m
      refine ⟨c, s ++ rest, by simp [render, hnumeral], ?_, ?_⟩
      · rintro rfl
        exact absurd hc (by decide)
      · rintro rfl
        exact absurd hc (by decide)
  | real x => simp [portable] at h
  | string s => exact ⟨34, _, by rw [render, quote, List.cons_append], by decide, by decide⟩
  | array xs =>
      cases n with
      | zero => cases h
      | succ n => exact ⟨91, _, by rw [render, List.cons_append], by decide, by decide⟩
  | object ms =>
      cases n with
      | zero => cases h
      | succ n => exact ⟨123, _, by rw [render, List.cons_append], by decide, by decide⟩

theorem readValue_eq_readScalar {n : ℕ} {c : UInt8} {s : Bytes} (harray : c ≠ 91) (hobject : c ≠ 123) :
    readValue n (c :: s) = readScalar (c :: s) := by
  cases n with
  | zero => rfl
  | succ n =>
      rw [readValue]
      · exact fun m t _ ht => harray (List.cons.inj ht).1
      · exact fun m t _ ht => hobject (List.cons.inj ht).1

theorem readMember_quote {n : ℕ} {v : Json} {k rest : Bytes}
    (h : readValue n (render n v ++ rest) = some (v, rest)) :
    readMember (readValue n) (quote k ++ (58 :: render n v) ++ rest) = some ((k, v), rest) := by
  have hchars := readChars_quote k (58 :: (render n v ++ rest))
  have htext : quote k ++ (58 :: render n v) ++ rest = 34 :: (k.flatMap escape ++ 34 :: 58 :: (render n v ++ rest)) := by
    simp [quote]
  rw [htext, readMember, hchars]
  simp only [Option.bind_eq_bind, Option.bind_some, List.head?_cons, if_true, List.tail_cons, h]
  rfl

theorem readItems_array {n : ℕ} {xs : List Json} (h : ∀ x ∈ xs, portable n x = true)
    (ih : ∀ {j}, portable n j = true → ∀ {rest}, Stops rest → readValue n (render n j ++ rest) = some (j, rest)) :
    ReadsItems (readValue n) (render n) 93 xs := by
  refine ⟨by decide, fun x hx rest hrest => ih (h x hx) hrest, fun x hx rest => ?_⟩
  obtain ⟨c, s, heq, hc, -⟩ := head_render (h x hx) rest
  rw [heq]
  simpa using hc

theorem readItems_object {n : ℕ} {ms : List (Bytes × Json)} (h : ∀ m ∈ ms, portable n m.2 = true)
    (ih : ∀ {j}, portable n j = true → ∀ {rest}, Stops rest → readValue n (render n j ++ rest) = some (j, rest)) :
    ReadsItems (readMember (readValue n)) (fun m => quote m.1 ++ (58 :: render n m.2)) 125 ms := by
  refine ⟨by decide, fun m hm rest hrest => readMember_quote (ih (h m hm) hrest), fun m _ rest => ?_⟩
  rw [quote, List.cons_append, List.cons_append, List.head?_cons]
  decide

theorem readValue_numeral (n : ℕ) (m : ℤ) {rest : Bytes} (h : Stops rest) :
    readValue n (numeral m ++ rest) = some (int m, rest) := by
  have hread := readScalar_numeral m h
  obtain ⟨c, s, hnumeral, hc⟩ := numeral_cons m
  rw [hnumeral, List.cons_append] at hread ⊢
  rw [readValue_eq_readScalar, hread]
  · rintro rfl
    exact absurd hc (by decide)
  · rintro rfl
    exact absurd hc (by decide)

theorem readValue_quote (n : ℕ) (s rest : Bytes) : readValue n (quote s ++ rest) = some (string s, rest) := by
  have htext : quote s ++ rest = 34 :: (s.flatMap escape ++ 34 :: rest) := by simp [quote]
  rw [htext, readValue_eq_readScalar (by decide) (by decide), readScalar, readChars_quote]
  rfl

/-- **A portable value is read back** wherever its text ends. -/
theorem readValue_render {n : ℕ} {j : Json} (h : portable n j = true) {rest : Bytes} (hrest : Stops rest) :
    readValue n (render n j ++ rest) = some (j, rest) := by
  induction n generalizing j rest with
  | zero =>
      cases j with
      | null => rfl
      | bool b => cases b <;> rfl
      | int m => exact readValue_numeral 0 m hrest
      | real x => cases h
      | string s => exact readValue_quote 0 s rest
      | array xs => cases h
      | object ms => cases h
  | succ n ih =>
      cases j with
      | null => rfl
      | bool b => cases b <;> rfl
      | int m => exact readValue_numeral (n + 1) m hrest
      | real x => cases h
      | string s => exact readValue_quote (n + 1) s rest
      | array xs =>
          rw [portable, List.all_eq_true] at h
          have hitems := readItems_separated (readItems_array h ih) rest
          rw [render, List.cons_append, List.append_assoc, readValue, List.singleton_append, hitems]
          rfl
      | object ms =>
          rw [portable, Bool.and_eq_true, List.all_eq_true] at h
          have hmembers : ∀ m ∈ ms, portable n m.2 = true := fun m hm => (Bool.and_eq_true_iff.1 (h.2 m hm)).2
          have hitems := readItems_separated (readItems_object hmembers ih) rest
          rw [render, List.cons_append, List.append_assoc, readValue, List.singleton_append, hitems]
          rfl

theorem parse_render {n : ℕ} {j : Json} (h : portable n j = true) : parse n (render n j) = some j := by
  have hread := @readValue_render n j h [] (by simp [Stops])
  rw [List.append_nil] at hread
  rw [parse, hread]

/-! ### Objects by assignment -/

/-- Assigning to a key of a value that is null or an object; it is an object afterwards. -/
def assign (j : Json) (k : Bytes) (v : Json) : Json :=
  match j with
  | object ms => object (setMember k v ms)
  | _ => object (setMember k v [])

/-- A value that starts as null, after some assignments. -/
def assignAll (ms : List (Bytes × Json)) : Json := ms.foldl (fun j m => assign j m.1 m.2) null

def setMembers (ms acc : List (Bytes × Json)) : List (Bytes × Json) :=
  ms.foldl (fun acc m => setMember m.1 m.2 acc) acc

theorem foldl_assign_object (ms acc : List (Bytes × Json)) :
    ms.foldl (fun j m => assign j m.1 m.2) (object acc) = object (setMembers ms acc) := by
  induction ms generalizing acc with
  | nil => rfl
  | cons m ms ih => exact ih (setMember m.1 m.2 acc)

theorem assignAll_cons (m : Bytes × Json) (ms : List (Bytes × Json)) :
    assignAll (m :: ms) = object (setMembers (m :: ms) []) := foldl_assign_object ms _

theorem mem_setMember {ms : List (Bytes × Json)} {k : Bytes} {v : Json} {m : Bytes × Json}
    (h : m ∈ setMember k v ms) : m = (k, v) ∨ m ∈ ms := by
  induction ms with
  | nil => simpa [setMember] using h
  | cons m' ms ih =>
      rw [setMember] at h
      split_ifs at h
      · rcases List.mem_cons.1 h with h | h
        · exact Or.inl h
        · exact Or.inr (List.mem_cons_of_mem _ h)
      · exact List.mem_cons.1 h
      · rcases List.mem_cons.1 h with h | h
        · exact Or.inr (h ▸ List.mem_cons_self)
        · exact (ih h).imp_right (List.mem_cons_of_mem _)

theorem mem_setMembers {ms acc : List (Bytes × Json)} {m : Bytes × Json} (h : m ∈ setMembers ms acc) :
    m ∈ ms ∨ m ∈ acc := by
  induction ms generalizing acc with
  | nil => exact Or.inr h
  | cons m' ms ih =>
      rcases ih h with h | h
      · exact Or.inl (List.mem_cons_of_mem _ h)
      · rcases mem_setMember h with rfl | h
        · exact Or.inl List.mem_cons_self
        · exact Or.inr h

theorem ascending_iff {ms : List (Bytes × Json)} : ascending ms = true ↔ (ms.map Prod.fst).Pairwise (· < ·) := by
  rw [ascending, decide_eq_true_eq]

theorem ascending_setMember {ms : List (Bytes × Json)} (h : ascending ms = true) (k : Bytes) (v : Json) :
    ascending (setMember k v ms) = true := by
  rw [ascending_iff] at h ⊢
  induction ms with
  | nil => simp [setMember]
  | cons m ms ih =>
      obtain ⟨k', v'⟩ := m
      rw [List.map_cons, List.pairwise_cons] at h
      rw [setMember]
      split_ifs with hsame hless
      · rw [List.map_cons, List.pairwise_cons, ← hsame]
        exact h
      · rw [List.map_cons, List.map_cons, List.pairwise_cons, List.pairwise_cons]
        refine ⟨fun l hl => ?_, h⟩
        rcases List.mem_cons.1 hl with rfl | hl
        · exact hless
        · exact List.lt_trans hless (h.1 l hl)
      · rw [List.map_cons, List.pairwise_cons]
        refine ⟨fun l hl => ?_, ih h.2⟩
        obtain ⟨m, hm, rfl⟩ := List.mem_map.1 hl
        rcases mem_setMember hm with rfl | hm
        · exact Std.lt_of_le_of_ne hless hsame
        · exact h.1 _ (List.mem_map_of_mem hm)

theorem ascending_setMembers (ms : List (Bytes × Json)) {acc : List (Bytes × Json)} (h : ascending acc = true) :
    ascending (setMembers ms acc) = true := by
  induction ms generalizing acc with
  | nil => exact h
  | cons m ms ih => exact ih (ascending_setMember h m.1 m.2)

theorem lookup_setMembers {ms acc : List (Bytes × Json)} (h : (ms.map Prod.fst).Nodup) (k : Bytes) :
    (setMembers ms acc).lookup k = (ms.lookup k).or (acc.lookup k) := by
  induction ms generalizing acc with
  | nil => rfl
  | cons m ms ih =>
      rw [List.map_cons, List.nodup_cons] at h
      have hstep : (setMembers (m :: ms) acc).lookup k = (ms.lookup k).or ((setMember m.1 m.2 acc).lookup k) := ih h.2
      rw [hstep, lookup_setMember, lookup_cons_ite]
      by_cases hk : k = m.1
      · have hnone : ms.lookup k = none := by
          rw [List.lookup_eq_none_iff]
          intro m' hm'
          rw [bne_iff_ne]
          rintro rfl
          exact h.1 (hk ▸ List.mem_map_of_mem hm')
        rw [if_pos hk, if_pos hk, hnone]
        rfl
      · rw [if_neg hk, if_neg hk]

/-- **What assignments to different keys leave**: each of the keys has its value, and there is no other. -/
theorem lookup_assignAll {ms : List (Bytes × Json)} (h : (ms.map Prod.fst).Nodup) (k : Bytes) :
    (assignAll ms).member? k = ms.lookup k := by
  cases ms with
  | nil => rfl
  | cons m ms =>
      have hlookup := @lookup_setMembers (m :: ms) [] h k
      rw [List.lookup_nil, Option.or_none] at hlookup
      rw [assignAll_cons, member?, hlookup]

theorem lookup_of_mem {ms : List (Bytes × Json)} (h : (ms.map Prod.fst).Nodup) {k : Bytes} {v : Json}
    (hm : (k, v) ∈ ms) : ms.lookup k = some v := by
  induction ms with
  | nil => cases hm
  | cons m ms ih =>
      rw [List.map_cons, List.nodup_cons] at h
      rw [lookup_cons_ite]
      rcases List.mem_cons.1 hm with rfl | hm
      · rw [if_pos rfl]
      · have hne : k ≠ m.1 := fun heq => h.1 (List.mem_map.2 ⟨(k, v), hm, heq⟩)
        rw [if_neg hne, ih h.2 hm]

theorem portable_assignAll {n : ℕ} {ms : List (Bytes × Json)}
    (h : ∀ m ∈ ms, Utf8.valid m.1 = true ∧ portable n m.2 = true) : portable (n + 1) (assignAll ms) = true := by
  cases ms with
  | nil => rfl
  | cons m ms =>
      rw [assignAll_cons, portable, Bool.and_eq_true, List.all_eq_true]
      refine ⟨ascending_setMembers _ rfl, fun m' hm' => ?_⟩
      rcases mem_setMembers hm' with hm' | hm'
      · rw [Bool.and_eq_true]
        exact h m' hm'
      · cases hm'

end CvmAttestation.Base.Json
