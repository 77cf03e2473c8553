import CvmAttestation.BaseJsonText
import CvmAttestation.BaseNumeral

/-! JSON texts as the standard defines them: UTF-8, white space between the tokens, every form of number and every escape
in a string. A pair of surrogates is one character, and a surrogate without the other one is refused, as it has no UTF-8.
The members of an object are listed as the text has them. -/

namespace CvmAttestation.Base.JsonDoc

def isWs (c : UInt8) : Bool := c = 32 || c = 9 || c = 10 || c = 13

def skip (s : Bytes) : Bytes := s.dropWhile isWs

/-! ### Strings -/

def hexValue (c : UInt8) : Option ℕ :=
  if 48 ≤ c ∧ c ≤ 57 then some (c.toNat - 48)
  else if 65 ≤ c ∧ c ≤ 70 then some (c.toNat - 55)
  else if 97 ≤ c ∧ c ≤ 102 then some (c.toNat - 87)
  else none

def hex4 (a b c d : UInt8) : Option ℕ :=
  match hexValue a, hexValue b, hexValue c, hexValue d with
  | some w, some x, some y, some z => some (((w * 16 + x) * 16 + y) * 16 + z)
  | _, _, _, _ => none

/-- The characters with an escape of one letter. -/
def shortEscape (c : UInt8) : Option UInt8 :=
  if c = 34 ∨ c = 92 ∨ c = 47 then some c
  else if c = 98 then some 8
  else if c = 102 then some 12
  else if c = 110 then some 10
  else if c = 114 then some 13
  else if c = 116 then some 9
  else none

def character (n : ℕ) : Option Bytes := Utf8.encodeScalar (UInt32.ofNat n)

/-- The character of a pair of surrogates. -/
def pairCharacter (n m : ℕ) : Option Bytes :=
  if 0xD800 ≤ n ∧ n < 0xDC00 ∧ 0xDC00 ≤ m ∧ m < 0xE000 then
    character (0x10000 + (n - 0xD800) * 0x400 + (m - 0xDC00))
  else none

/-- What stands after a reverse solidus, and what follows. -/
def readEscape : Bytes → Option (Bytes × Bytes)
  | 117 :: a :: b :: c :: d :: s =>
    match hex4 a b c d with
    | none => none
    | some n =>
      match character n with
      | some x => some (x, s)
      | none =>
        match s with
        | 92 :: 117 :: e :: f :: g :: h :: s => ((hex4 e f g h).bind (pairCharacter n)).map (·, s)
        | _ => none
  | c :: s => (shortEscape c).map fun x => ([x], s)
  | [] => none

/-- A string up to its closing quotation mark, and what follows. -/
def readChars : ℕ → Bytes → Option (Bytes × Bytes)
  | 0, _ => none
  | _ + 1, [] => none
  | n + 1, c :: s =>
    if c = 34 then some ([], s)
    else if c = 92 then do
      let (x, s) ← readEscape s
      let (v, s) ← readChars n s
      return (x ++ v, s)
    else if c < 32 then none
    else do
      let (v, s) ← readChars n s
      return (c :: v, s)

def readString (s : Bytes) : Option (Bytes × Bytes) := readChars s.length s

/-! ### Numbers -/

def readDigits (s : Bytes) : Option (Bytes × Bytes) :=
  if s.takeWhile Numeral.isDigit = [] then none else some (s.takeWhile Numeral.isDigit, s.dropWhile Numeral.isDigit)

/-- The digits before the point; only zero begins with a zero. -/
def readWhole (s : Bytes) : Option (Bytes × Bytes) := do
  let (ds, s) ← readDigits s
  if ds.head? = some 48 ∧ ds ≠ [48] then none else return (ds, s)

def readFraction : Bytes → Option (Bytes × Bytes)
  | 46 :: s => readDigits s
  | s => some ([], s)

def readExponent : Bytes → Option (Option ℤ × Bytes)
  | c :: s =>
    if c = 69 ∨ c = 101 then do
      let (ds, t) ← readDigits (if s.head? = some 43 ∨ s.head? = some 45 then s.tail else s)
      return (some (if s.head? = some 45 then -Numeral.value ds else Numeral.value ds), t)
    else some (none, c :: s)
  | [] => some (none, [])

def readNumber (s : Bytes) : Option (Json × Bytes) := do
  let negative := s.head? = some 45
  let (whole, s) ← readWhole (if negative then s.tail else s)
  let (fraction, s) ← readFraction s
  let (exponent, s) ← readExponent s
  let n := Numeral.value (whole ++ fraction)
  let v : ℤ := if negative then -n else n
  match fraction, exponent with
  | [], none => return (.int v, s)
  | _, _ => return (.real (v * (10 : ℚ) ^ (exponent.getD 0 - fraction.length)), s)

/-! ### Values -/

section

variable {α : Type} (item : Bytes → Option (α × Bytes)) (close : UInt8)

/-- The items after the first one, up to the closing character. -/
def readRest : ℕ → Bytes → Option (List α × Bytes)
  | 0, _ => none
  | n + 1, s =>
    match skip s with
    | [] => none
    | c :: s =>
      if c = close then some ([], s)
      else if c = 44 then do
        let (x, s) ← item (skip s)
        let (xs, s) ← readRest n s
        return (x :: xs, s)
      else none

def readItems (s : Bytes) : Option (List α × Bytes) :=
  match skip s with
  | [] => none
  | c :: t =>
    if c = close then some ([], t)
    else do
      let (x, t) ← item (c :: t)
      let (xs, t) ← readRest item close t.length t
      return (x :: xs, t)

end

def readMember (value : Bytes → Option (Json × Bytes)) (s : Bytes) : Option ((Bytes × Json) × Bytes) :=
  if s.head? = some 34 then do
    let (k, s) ← readString s.tail
    if (skip s).head? = some 58 then do
      let (v, s) ← value (skip (skip s).tail)
      return ((k, v), s)
    else none
  else none

/-- A value nested less than `n` deep. -/
def readValue : ℕ → Bytes → Option (Json × Bytes)
  | 0, _ => none
  | _ + 1, [] => none
  | n + 1, c :: s =>
    if c = 34 then (readString s).map fun t => (.string t.1, t.2)
    else if c = 91 then (readItems (readValue n) 93 s).map fun t => (.array t.1, t.2)
    else if c = 123 then (readItems (readMember (readValue n)) 125 s).map fun t => (.object t.1, t.2)
    else if ascii "null" <+: c :: s then some (.null, s.drop 3)
    else if ascii "true" <+: c :: s then some (.bool true, s.drop 3)
    else if ascii "false" <+: c :: s then some (.bool false, s.drop 4)
    else readNumber (c :: s)

/-- A text that is one value, with white space around it. -/
def read (s : Bytes) : Option Json :=
  if Utf8.valid s then
    match readValue s.length (skip s) with
    | some (j, t) => if skip t = [] then some j else none
    | none => none
  else none

/-! ### What may stand in a string -/

/-- An escape without its reverse solidus, and the character it stands for. -/
inductive Escape : Bytes → Bytes → Prop
  | short {c x : UInt8} (h : shortEscape c = some x) : Escape [c] [x]
  | unit {a b c d : UInt8} {n : ℕ} {x : Bytes} (h : hex4 a b c d = some n) (hx : character n = some x) :
    Escape [117, a, b, c, d] x
  | pair {a b c d e f g h : UInt8} {n m : ℕ} {x : Bytes} (hn : hex4 a b c d = some n) (hm : hex4 e f g h = some m)
    (hx : pairCharacter n m = some x) : Escape [117, a, b, c, d, 92, 117, e, f, g, h] x

/-- The bytes between two quotation marks, and the string they stand for. -/
inductive Chars : Bytes → Bytes → Prop
  | nil : Chars [] []
  | plain {c : UInt8} {l v : Bytes} (h : Json.special c = false) (hl : Chars l v) : Chars (c :: l) (c :: v)
  | escape {e x l v : Bytes} (h : Escape e x) (hl : Chars l v) : Chars (92 :: (e ++ l)) (x ++ v)

/-- A string that stands for itself. -/
def Plain (s : Bytes) : Prop := ∀ c ∈ s, Json.special c = false

/-- Printable ASCII without quotation marks and reverse solidi. -/
def isText (s : Bytes) : Bool := s.all fun c => 32 ≤ c && c < 128 && c != 34 && c != 92

theorem plain_of_isText {s : Bytes} (h : isText s = true) : Plain s := fun c hc => by
  have hc := List.all_eq_true.1 h c hc
  simp only [Bool.and_eq_true, decide_eq_true_eq, bne_iff_ne] at hc
  simp [Json.special, hc, UInt8.not_lt.2 hc.1.1.1]

theorem valid_of_isText {s : Bytes} (h : isText s = true) : Utf8.valid s = true :=
  Utf8.valid_of_ascii fun c hc => by
    have hc := List.all_eq_true.1 h c hc
    simp only [Bool.and_eq_true, decide_eq_true_eq] at hc
    exact UInt8.lt_iff_toNat_lt.1 hc.1.1.2

theorem Chars.of_plain {s : Bytes} (h : Plain s) : Chars s s := by
  induction s with
  | nil => exact .nil
  | cons c s ih =>
      rw [Plain, List.forall_mem_cons] at h
      exact .plain h.1 (ih h.2)

theorem length_character_le {n : ℕ} {x : Bytes} (h : character n = some x) : x.length ≤ 4 := by
  simp only [character, Utf8.encodeScalar] at h
  split_ifs at h <;> cases h <;> simp

theorem pairCharacter_eq {n m : ℕ} {x : Bytes} (h : pairCharacter n m = some x) :
    character n = none ∧ x.length ≤ 4 := by
  rw [pairCharacter] at h
  split_ifs at h with hpair
  refine ⟨?_, length_character_le h⟩
  have hn : (UInt32.ofNat n).toNat = n := Utf8.toNat_code (by omega)
  simp only [character, Utf8.encodeScalar, hn]
  rw [if_neg (by omega), if_neg (by omega), if_pos (by omega), if_pos (by omega)]

theorem Escape.length_le {e x : Bytes} (h : Escape e x) : x.length ≤ e.length := by
  cases h with
  | short h => simp
  | unit h hx =>
      have := length_character_le hx
      simp only [List.length_cons]
      omega
  | pair hn hm hx =>
      have := (pairCharacter_eq hx).2
      simp only [List.length_cons]
      omega

theorem hex4_ne_quote {a b c d : UInt8} {n : ℕ} (h : hex4 a b c d = some n) : a ≠ 34 ∧ b ≠ 34 ∧ c ≠ 34 ∧ d ≠ 34 := by
  rw [hex4] at h
  split at h
  · rename_i w x y z ha hb hc hd
    refine ⟨?_, ?_, ?_, ?_⟩
    · rintro rfl
      cases ha
    · rintro rfl
      cases hb
    · rintro rfl
      cases hc
    · rintro rfl
      cases hd
  · cases h

/-- A quotation mark in an escape is all of the escape. -/
theorem Escape.quote {e x : Bytes} (h : Escape e x) (hq : (34 : UInt8) ∈ e) : e = [34] := by
  cases h with
  | short h =>
      rw [List.mem_singleton] at hq
      rw [hq]
  | unit h hx =>
      obtain ⟨ha, hb, hc, hd⟩ := hex4_ne_quote h
      simp [Ne.symm ha, Ne.symm hb, Ne.symm hc, Ne.symm hd] at hq
  | pair hn hm hx =>
      obtain ⟨ha, hb, hc, hd⟩ := hex4_ne_quote hn
      obtain ⟨he, hf, hg, hh⟩ := hex4_ne_quote hm
      simp [Ne.symm ha, Ne.symm hb, Ne.symm hc, Ne.symm hd, Ne.symm he, Ne.symm hf, Ne.symm hg, Ne.symm hh] at hq

/-- A text is not shorter than its string, and longer if it has an escape. -/
theorem Chars.length {l v : Bytes} (h : Chars l v) : v = l ∧ Plain l ∨ v.length < l.length := by
  induction h with
  | nil => exact Or.inl ⟨rfl, nofun⟩
  | plain hc hl ih =>
      rcases ih with ⟨rfl, hplain⟩ | hlt
      · exact Or.inl ⟨rfl, List.forall_mem_cons.2 ⟨hc, hplain⟩⟩
      · right
        rw [List.length_cons, List.length_cons]
        omega
  | @escape e x l v he hl ih =>
      right
      have hlen := he.length_le
      have hle : v.length ≤ l.length := by
        rcases ih with ⟨rfl, -⟩ | hlt
        · exact le_rfl
        · exact hlt.le
      rw [List.length_append, List.length_cons, List.length_append]
      omega

/-- After a quotation mark that does not close the string, the string goes on. -/
theorem Chars.after_quote {l v : Bytes} (h : Chars l v) :
    ∀ {a b : Bytes}, l = a ++ 34 :: b → ∃ w, Chars b w := by
  induction h with
  | nil =>
      intro a b heq
      simp at heq
  | @plain c l v hc hl ih =>
      intro a b heq
      cases a with
      | nil =>
          cases heq
          cases hc
      | cons d a => exact ih (List.cons.inj heq).2
  | @escape e x l v he hl ih =>
      intro a b heq
      cases a with
      | nil => cases heq
      | cons d a =>
          rcases List.append_eq_append_iff.1 (List.cons.inj heq).2 with ⟨t, -, ht⟩ | ⟨t, ht, hrest⟩
          · exact ih ht
          · cases t with
            | nil => exact ih (a := []) (by simpa using hrest.symm)
            | cons q t =>
                obtain ⟨rfl, rfl⟩ := List.cons.inj hrest
                have hquote := he.quote (by simp [ht])
                rw [hquote] at ht
                have hlen := congrArg List.length ht
                simp only [List.length_append, List.length_cons, List.length_nil] at hlen
                have ht : t = [] := List.eq_nil_of_length_eq_zero (by omega)
                exact ⟨v, by simpa [ht] using hl⟩

theorem readEscape_sound {s x rest : Bytes} (h : readEscape s = some (x, rest)) :
    ∃ e, s = e ++ rest ∧ Escape e x := by
  revert h
  fun_cases readEscape s with
  | case1 | case4 => nofun
  | case2 a b c d s n hn x' hx =>
      intro h
      cases h
      exact ⟨[117, a, b, c, d], rfl, .unit hn hx⟩
  | case3 a b c d n hn hnone e f g h s =>
      intro hread
      obtain ⟨x', hpair, heq⟩ := Option.map_eq_some_iff.1 hread
      obtain ⟨m, hm, hx⟩ := Option.bind_eq_some_iff.1 hpair
      cases heq
      exact ⟨[117, a, b, c, d, 92, 117, e, f, g, h], rfl, .pair hn hm hx⟩
  | case5 c s hne =>
      intro h
      obtain ⟨x', hx, heq⟩ := Option.map_eq_some_iff.1 h
      cases heq
      exact ⟨[c], rfl, .short hx⟩
  | case6 => nofun

theorem Escape.read {e x : Bytes} (h : Escape e x) (rest : Bytes) : readEscape (e ++ rest) = some (x, rest) := by
  cases h with
  | @short c x h =>
      have hne : c ≠ 117 := by
        rintro rfl
        cases h
      rw [List.singleton_append, readEscape, h]
      · rfl
      · exact fun _ _ _ _ _ heq => absurd heq hne
  | unit h hx => simp [readEscape, h, hx]
  | pair hn hm hx => simp [readEscape, hn, hm, hx, (pairCharacter_eq hx).1]

theorem readChars_sound {n : ℕ} {s v rest : Bytes} (h : readChars n s = some (v, rest)) :
    ∃ l, s = l ++ 34 :: rest ∧ Chars l v := by
  induction n generalizing s v with
  | zero => cases h
  | succ n ih =>
      cases s with
      | nil => cases h
      | cons c s =>
          rw [readChars] at h
          split_ifs at h with hquote hescape hcontrol
          · cases h
            exact ⟨[], by rw [hquote]; rfl, .nil⟩
          · obtain ⟨⟨x, t⟩, hx, h⟩ := Option.bind_eq_some_iff.1 h
            obtain ⟨⟨w, t'⟩, hw, h⟩ := Option.bind_eq_some_iff.1 h
            cases h
            obtain ⟨e, rfl, he⟩ := readEscape_sound hx
            obtain ⟨l, rfl, hl⟩ := ih hw
            exact ⟨92 :: (e ++ l), by rw [hescape]; simp, .escape he hl⟩
          · obtain ⟨⟨w, t⟩, hw, h⟩ := Option.bind_eq_some_iff.1 h
            cases h
            obtain ⟨l, rfl, hl⟩ := ih hw
            exact ⟨c :: l, rfl, .plain (by simp [Json.special, hquote, hescape, hcontrol]) hl⟩

theorem Chars.read {l v : Bytes} (h : Chars l v) (rest : Bytes) :
    ∀ {n : ℕ}, l.length < n → readChars n (l ++ 34 :: rest) = some (v, rest) := by
  induction h with
  | nil =>
      intro n hn
      obtain ⟨n, rfl⟩ := Nat.exists_eq_add_of_lt hn
      simp [readChars]
  | @plain c l v hc hl ih =>
      intro n hn
      obtain ⟨n, rfl⟩ : ∃ m, n = m + 1 := ⟨n - 1, by omega⟩
      simp only [Json.special, Bool.or_eq_false_iff, decide_eq_false_iff_not] at hc
      rw [List.length_cons] at hn
      rw [List.cons_append, readChars, if_neg hc.1.1, if_neg hc.1.2, if_neg hc.2, ih (by omega)]
      rfl
  | @escape e x l v he hl ih =>
      intro n hn
      obtain ⟨n, rfl⟩ : ∃ m, n = m + 1 := ⟨n - 1, by omega⟩
      rw [List.length_cons, List.length_append] at hn
      rw [List.cons_append, List.append_assoc, readChars, if_neg (by decide), if_pos rfl, he.read]
      simp only [Option.bind_eq_bind, Option.bind_some, ih (by omega : l.length < n)]
      rfl

theorem Chars.readString {l v : Bytes} (h : Chars l v) (rest : Bytes) :
    readString (l ++ 34 :: rest) = some (v, rest) := by
  refine h.read rest ?_
  rw [List.length_append, List.length_cons]
  omega

/-! ### Objects of strings that are put together by hand -/

/-- A member with the white space before its value, from the bytes between the quotation marks. -/
def memberText (gap : Bytes) (m : Bytes × Bytes) : Bytes := 34 :: (m.1 ++ 34 :: 58 :: (gap ++ 34 :: (m.2 ++ [34])))

def objectText (gap : Bytes) (ms : List (Bytes × Bytes)) : Bytes :=
  123 :: (Json.separated (ms.map (memberText gap)) ++ [125])

/-- What the bytes of a member stand for. -/
def Writes (m : Bytes × Bytes) (x : Bytes × Json) : Prop := Plain m.1 ∧ ∃ v, Chars m.2 v ∧ x = (m.1, .string v)

/-- A member whose value stands for itself. -/
def asGiven (m : Bytes × Bytes) : Bytes × Json := (m.1, .string m.2)

/-- A key that stands for itself and does not look like the end of a member. -/
structure Key (k : Bytes) : Prop where
  plain : Plain k
  head : ∃ c t, k = c :: t ∧ isWs c = false ∧ c ≠ 44 ∧ c ≠ 125

theorem skip_cons {c : UInt8} (h : isWs c = false) (s : Bytes) : skip (c :: s) = c :: s := by
  rw [skip, List.dropWhile_cons, h]
  rfl

theorem objectText_cons (gap : Bytes) (m : Bytes × Bytes) (ms : List (Bytes × Bytes)) :
    objectText gap (m :: ms) = 123 :: 34 :: (m.1 ++ 34 :: 58 :: (gap ++ 34 :: (m.2 ++ 34 ::
      (ms.flatMap (44 :: memberText gap ·) ++ [125])))) := by
  simp [objectText, memberText, Json.separated, List.flatMap_map]

theorem rest_cons (gap rest : Bytes) (m : Bytes × Bytes) (ms : List (Bytes × Bytes)) :
    (m :: ms).flatMap (44 :: memberText gap ·) ++ 125 :: rest =
      44 :: 34 :: (m.1 ++ 34 :: 58 :: (gap ++ 34 :: (m.2 ++ 34 ::
        (ms.flatMap (44 :: memberText gap ·) ++ 125 :: rest)))) := by
  simp [memberText]

theorem length_le_rest (gap rest : Bytes) (ms : List (Bytes × Bytes)) :
    ms.length < (ms.flatMap (44 :: memberText gap ·) ++ 125 :: rest).length := by
  induction ms with
  | nil => simp
  | cons m ms ih =>
      rw [rest_cons, List.length_cons, List.length_cons, List.length_cons, List.length_append, List.length_cons,
        List.length_cons, List.length_append, List.length_cons, List.length_append, List.length_cons]
      omega

theorem valid_rest {gap : Bytes} (hgap : Utf8.valid gap = true) (ms : List (Bytes × Bytes)) :
    Utf8.valid (ms.flatMap (44 :: memberText gap ·) ++ [125]) = true ↔
      ∀ m ∈ ms, Utf8.valid m.1 = true ∧ Utf8.valid m.2 = true := by
  have hquote : (34 : UInt8).toNat < 0x80 := by decide
  induction ms with
  | nil => simp [Utf8.valid_of_ascii]
  | cons m ms ih =>
      rw [rest_cons, Utf8.valid_ascii_cons (by decide), Utf8.valid_ascii_cons hquote, Utf8.valid_append_cons hquote,
        Utf8.valid_ascii_cons (by decide), Utf8.valid_append_cons hquote, and_iff_right hgap,
        Utf8.valid_append_cons hquote]
      rw [List.forall_mem_cons, and_assoc]
      exact and_congr_right fun _ => and_congr_right fun _ => ih

/-- An object is a text of characters exactly when its keys and values are. -/
theorem valid_objectText {gap : Bytes} (hgap : Utf8.valid gap = true) (ms : List (Bytes × Bytes)) :
    Utf8.valid (objectText gap ms) = true ↔ ∀ m ∈ ms, Utf8.valid m.1 = true ∧ Utf8.valid m.2 = true := by
  cases ms with
  | nil => exact ⟨fun _ => nofun, fun _ => rfl⟩
  | cons m ms =>
      have hcons : Utf8.valid (objectText gap (m :: ms)) = true ↔
          Utf8.valid ((m :: ms).flatMap (44 :: memberText gap ·) ++ [125]) = true := by
        rw [objectText_cons, rest_cons, Utf8.valid_ascii_cons (by decide), Utf8.valid_ascii_cons (c := 44) (by decide)]
      rw [hcons, valid_rest hgap]

/-- The value of an object is its list of members. -/
theorem read_brace (s : Bytes) :
    read (123 :: s) =
      if Utf8.valid (123 :: s) then
        match readItems (readMember (readValue s.length)) 125 s with
        | some (xs, t) => if skip t = [] then some (.object xs) else none
        | none => none
      else none := by
  have hvalue : readValue (123 :: s).length (123 :: s) =
      (readItems (readMember (readValue s.length)) 125 s).map fun t => (.object t.1, t.2) := rfl
  rw [read, skip_cons rfl, hvalue]
  cases readItems (readMember (readValue s.length)) 125 s with
  | none => rfl
  | some t => rfl

/-- In front of a quotation mark in the members that follow, there is the comma alone, or the comma and the quotation
mark of a key. -/
theorem before_quote {gap : Bytes} {ms : List (Bytes × Bytes)} {q r : Bytes}
    (h : ms.flatMap (44 :: memberText gap ·) ++ [125] = q ++ 34 :: r) :
    (q = [44] ∧ ∃ m ∈ ms, ∃ rest, r = m.1 ++ 34 :: rest) ∨ ∃ q', q = 44 :: 34 :: q' := by
  cases ms with
  | nil =>
      cases q with
      | nil => cases h
      | cons c q => simp at h
  | cons m ms =>
      rw [rest_cons] at h
      cases q with
      | nil => cases h
      | cons c q =>
          obtain ⟨rfl, hquote⟩ := List.cons.inj h
          cases q with
          | nil => exact .inl ⟨rfl, m, List.mem_cons_self, _, (List.cons.inj hquote).2.symm⟩
          | cons d q =>
              obtain ⟨rfl, -⟩ := List.cons.inj hquote
              exact .inr ⟨q, rfl⟩

/-- No more members can be read from the characters of a key on. -/
theorem readRest_key {α : Type} {f : Bytes → Option (α × Bytes)} {k : ℕ} {key : Bytes} (h : Key key) (rest : Bytes) :
    readRest f 125 k (key ++ rest) = none := by
  obtain ⟨c, u, hk, hws, hcomma, hbrace⟩ := h.head
  rw [hk, List.cons_append]
  cases k with
  | zero => rfl
  | succ k =>
      rw [readRest, skip_cons hws]
      simp [if_neg hcomma, if_neg hbrace]

/-- A value that is found as it was given, in front of members that can be read: it stands for itself. -/
theorem plain_of_found {gap : Bytes} {n k : ℕ} {ms : List (Bytes × Bytes)} (hkeys : ∀ m ∈ ms, Key m.1) {l r t : Bytes}
    {xs : List (Bytes × Json)}
    (hfound : readString (l ++ 34 :: (ms.flatMap (44 :: memberText gap ·) ++ [125])) = some (l, r))
    (hrest : readRest (readMember (readValue (n + 1))) 125 k r = some (xs, t)) :
    Plain l ∧ r = ms.flatMap (44 :: memberText gap ·) ++ [125] := by
  obtain ⟨l', heq, hchars⟩ := readChars_sound hfound
  rcases hchars.length with ⟨rfl, hplain⟩ | hlt
  · exact ⟨hplain, (List.cons.inj (List.append_cancel_left heq)).2.symm⟩
  exfalso
  obtain ⟨q, rfl, htail⟩ : ∃ q, l' = l ++ 34 :: q ∧ ms.flatMap (44 :: memberText gap ·) ++ [125] = q ++ 34 :: r := by
    rcases List.append_eq_append_iff.1 heq with ⟨q, rfl, hq⟩ | ⟨q, rfl, -⟩
    · cases q with
      | nil => simp at hlt
      | cons c q =>
          obtain ⟨rfl, htail⟩ := List.cons.inj hq
          exact ⟨q, rfl, htail⟩
    · rw [List.length_append] at hlt
      omega
  -- the quotation mark after the value is escaped, so the string ends at the next one
  obtain ⟨w, hw⟩ := hchars.after_quote rfl
  rcases before_quote htail with ⟨rfl, m, hm, rest, rfl⟩ | ⟨q, rfl⟩
  · rw [readRest_key (hkeys m hm)] at hrest
    cases hrest
  · cases hw with
    | plain _ hw =>
        cases hw with
        | plain hspecial _ => cases hspecial

theorem head_of_perm {m : Bytes × Bytes} {ms : List (Bytes × Bytes)} (hnodup : ((m :: ms).map Prod.fst).Nodup)
    {v : Bytes} {xs : List (Bytes × Json)} (h : ((m.1, Json.string v) :: xs).Perm ((m :: ms).map asGiven)) :
    v = m.2 ∧ xs.Perm (ms.map asGiven) := by
  have hmem : (m.1, Json.string v) ∈ (m :: ms).map asGiven := h.mem_iff.1 List.mem_cons_self
  rw [List.map_cons, List.nodup_cons] at hnodup
  rw [List.map_cons, List.mem_cons] at hmem
  rcases hmem with heq | hmem
  · cases heq
    exact ⟨rfl, (List.perm_cons _).1 h⟩
  · obtain ⟨m', hm', heq⟩ := List.mem_map.1 hmem
    exact absurd (List.mem_map.2 ⟨m', hm', (Prod.mk.inj heq).1⟩) hnodup.1

/-- The first of the members that are read, when all of them are found as they were given. -/
theorem first_found {gap : Bytes} {n : ℕ} {m : Bytes × Bytes} {ms : List (Bytes × Bytes)}
    (hkeys : ∀ m' ∈ m :: ms, Key m'.1) (hnodup : ((m :: ms).map Prod.fst).Nodup) {xs : List (Bytes × Json)}
    (hperm : xs.Perm ((m :: ms).map asGiven)) {f : Bytes → ℕ} {t : Bytes}
    (h : (do
      let (x, s) ← (readString (m.2 ++ 34 :: (ms.flatMap (44 :: memberText gap ·) ++ [125]))).map
        fun t => ((m.1, Json.string t.1), t.2)
      let (ys, s) ← readRest (readMember (readValue (n + 1))) 125 (f s) s
      return (x :: ys, s)) = some (xs, t)) :
    Plain m.2 ∧ ∃ k ys, ys.Perm (ms.map asGiven) ∧
      readRest (readMember (readValue (n + 1))) 125 k (ms.flatMap (44 :: memberText gap ·) ++ [125]) = some (ys, t) := by
  obtain ⟨⟨x, r⟩, hx, h⟩ := Option.bind_eq_some_iff.1 h
  obtain ⟨⟨v, r'⟩, hv, heq⟩ := Option.map_eq_some_iff.1 hx
  cases heq
  obtain ⟨⟨ys, t'⟩, hys, heq⟩ := Option.bind_eq_some_iff.1 h
  cases heq
  obtain ⟨rfl, hperm'⟩ := head_of_perm hnodup hperm
  obtain ⟨hplain, rfl⟩ := plain_of_found (fun m' hm' => hkeys m' (List.mem_cons_of_mem m hm')) hv hys
  exact ⟨hplain, _, ys, hperm', hys⟩

section

variable {gap : Bytes} (hgap : ∀ c ∈ gap, isWs c = true)
include hgap

theorem readMember_text (n : ℕ) {k : Bytes} (hk : Plain k) (s : Bytes) :
    readMember (readValue (n + 1)) (34 :: (k ++ 34 :: 58 :: (gap ++ 34 :: s))) =
      (readString s).map fun t => ((k, .string t.1), t.2) := by
  have hskip : skip (gap ++ 34 :: s) = 34 :: s := by
    rw [skip, List.dropWhile_append_of_pos hgap]
    exact skip_cons rfl s
  rw [readMember, List.head?_cons, if_pos rfl, List.tail_cons, (Chars.of_plain hk).readString]
  simp only [Option.bind_eq_bind, Option.bind_some, skip_cons (rfl : isWs 58 = false), List.head?_cons, if_true,
    List.tail_cons, hskip, readValue]
  cases readString s with
  | none => rfl
  | some t => rfl

theorem readRest_text (n : ℕ) {ms : List (Bytes × Bytes)} {xs : List (Bytes × Json)} (h : List.Forall₂ Writes ms xs)
    (rest : Bytes) :
    ∀ {k : ℕ}, ms.length < k →
      readRest (readMember (readValue (n + 1))) 125 k (ms.flatMap (44 :: memberText gap ·) ++ 125 :: rest) =
        some (xs, rest) := by
  induction h with
  | nil =>
      intro k hk
      obtain ⟨k, rfl⟩ := Nat.exists_eq_add_of_lt hk
      simp [readRest, skip_cons (rfl : isWs 125 = false)]
  | @cons m x ms xs hm hms ih =>
      intro k hk
      obtain ⟨hkey, v, hv, rfl⟩ := hm
      obtain ⟨k, rfl⟩ : ∃ i, k = i + 1 := ⟨k - 1, by rw [List.length_cons] at hk; omega⟩
      have htext : (m :: ms).flatMap (44 :: memberText gap ·) ++ 125 :: rest =
          44 :: 34 :: (m.1 ++ 34 :: 58 :: (gap ++ 34 :: (m.2 ++ 34 :: (ms.flatMap (44 :: memberText gap ·) ++ 125 :: rest)))) := by
        simp [memberText]
      rw [htext, readRest, skip_cons rfl]
      simp only [if_neg (by decide : ¬(44 : UInt8) = 125), if_true, skip_cons (rfl : isWs 34 = false),
        readMember_text hgap n hkey, hv.readString, Option.map_some, Option.bind_eq_bind, Option.bind_some,
        ih (by simpa using hk : ms.length < k)]
      rfl

/-- An object is read as the members that its bytes stand for. -/
theorem read_objectText {ms : List (Bytes × Bytes)} {xs : List (Bytes × Json)} (h : List.Forall₂ Writes ms xs)
    (hvalid : Utf8.valid (objectText gap ms) = true) : read (objectText gap ms) = some (.object xs) := by
  cases h with
  | nil => rfl
  | @cons m x ms xs hm hms =>
      obtain ⟨hkey, v, hv, rfl⟩ := hm
      rw [objectText_cons] at hvalid ⊢
      rw [read_brace, if_pos hvalid, readItems, skip_cons rfl]
      simp only [if_neg (by decide : ¬(34 : UInt8) = 125), List.length_cons, readMember_text hgap _ hkey, hv.readString,
        Option.map_some, Option.bind_eq_bind, Option.bind_some, readRest_text hgap _ hms [] (length_le_rest gap [] ms)]
      rfl

/-- Members read from a text into which the values were put as they are, and in which every value is found as it was
given: then every value stands for itself. -/
theorem plain_of_readRest (n : ℕ) {ms : List (Bytes × Bytes)} (hkeys : ∀ m ∈ ms, Key m.1)
    (hnodup : (ms.map Prod.fst).Nodup) {xs : List (Bytes × Json)} (hperm : xs.Perm (ms.map asGiven)) {k : ℕ} {t : Bytes}
    (h : readRest (readMember (readValue (n + 1))) 125 k (ms.flatMap (44 :: memberText gap ·) ++ [125]) = some (xs, t)) :
    ∀ m ∈ ms, Plain m.2 := by
  induction ms generalizing xs k t with
  | nil => exact nofun
  | cons m ms ih =>
      cases k with
      | zero => cases h
      | succ k =>
          rw [rest_cons, readRest, skip_cons rfl] at h
          simp only [if_neg (by decide : ¬(44 : UInt8) = 125), if_true, skip_cons (rfl : isWs 34 = false),
            readMember_text hgap n (hkeys m List.mem_cons_self).plain] at h
          obtain ⟨hplain, k', ys, hys, hrest⟩ := first_found hkeys hnodup hperm (f := fun _ => k) h
          rw [List.map_cons, List.nodup_cons] at hnodup
          exact List.forall_mem_cons.2 ⟨hplain, ih (fun m' hm' => hkeys m' (List.mem_cons_of_mem m hm')) hnodup.2 hys hrest⟩

/-- **Values put into an object as they are** are found there as they were given exactly when every one of them stands
for itself. -/
theorem read_objectText_iff {ms : List (Bytes × Bytes)} (hkeys : ∀ m ∈ ms, Key m.1) (hnodup : (ms.map Prod.fst).Nodup) :
    (∃ xs, read (objectText gap ms) = some (.object xs) ∧ xs.Perm (ms.map asGiven)) ↔
      Utf8.valid (objectText gap ms) = true ∧ ∀ m ∈ ms, Plain m.2 := by
  constructor
  · rintro ⟨xs, hread, hperm⟩
    have hvalid : Utf8.valid (objectText gap ms) = true := by
      by_contra hinvalid
      rw [read, if_neg hinvalid] at hread
      cases hread
    refine ⟨hvalid, ?_⟩
    cases ms with
    | nil => exact nofun
    | cons m ms =>
        rw [objectText_cons] at hread hvalid
        rw [read_brace, if_pos hvalid, readItems, skip_cons rfl] at hread
        simp only [if_neg (by decide : ¬(34 : UInt8) = 125), List.length_cons,
          readMember_text hgap _ (hkeys m List.mem_cons_self).plain] at hread
        split at hread
        · rename_i xs' t hitems
          split_ifs at hread
          cases hread
          obtain ⟨hplain, k, ys, hys, hrest⟩ := first_found hkeys hnodup hperm (f := List.length) hitems
          rw [List.map_cons, List.nodup_cons] at hnodup
          exact List.forall_mem_cons.2 ⟨hplain,
            plain_of_readRest hgap _ (fun m' hm' => hkeys m' (List.mem_cons_of_mem m hm')) hnodup.2 hys hrest⟩
        · cases hread
  · rintro ⟨hvalid, hplain⟩
    refine ⟨ms.map asGiven, read_objectText hgap ?_ hvalid, .refl _⟩
    rw [List.forall₂_map_right_iff, List.forall₂_same]
    exact fun m hm => ⟨(hkeys m hm).plain, m.2, .of_plain (hplain m hm), rfl⟩

end

end CvmAttestation.Base.JsonDoc
