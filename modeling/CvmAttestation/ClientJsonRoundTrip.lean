import CvmAttestation.ClientJsonWriter
import Std.Data.String.ToInt

/-! What the JSON library writes, it reads back: every value without fractions that is nested no deeper than the parser
goes, whatever bytes are in its strings. On a deeper one the parser throws. -/

namespace CvmAttestation.Client.JsonRoundTrip

open Base JsonReader JsonWriter
open Base.Json hiding readValue parse

/-! ### Tokens -/

section

variable {s t : Bytes} {c : UInt8} {type : TokenType}

theorem skipSpaces_append {spaces : Bytes} (h : ∀ c ∈ spaces, isSpace c = true) (s : Bytes) :
    skipSpaces (spaces ++ s) = skipSpaces s := List.dropWhile_append_of_pos h

theorem readToken_spaces {spaces : Bytes} (h : ∀ c ∈ spaces, isSpace c = true) (s : Bytes) :
    readToken (spaces ++ s) = readToken s := by
  rw [readToken, skipSpaces_append h, readToken]

theorem skipCommentTokens_spaces {spaces : Bytes} (h : ∀ c ∈ spaces, isSpace c = true) (s : Bytes) :
    skipCommentTokens (spaces ++ s) = skipCommentTokens s := by
  rw [skipCommentTokens, readToken_spaces h, skipCommentTokens.eq_def s]

theorem readToken_of_lexeme (hc : isSpace c = false) (h : lexeme c (t ++ s) = (type, s)) :
    readToken (c :: (t ++ s)) = (⟨type, c :: t⟩, s) := by
  have hstart : skipSpaces (c :: (t ++ s)) = c :: (t ++ s) := by
    rw [skipSpaces, List.dropWhile_cons, hc]
    rfl
  have hlen : (c :: (t ++ s)).length - s.length = (c :: t).length := by
    simp only [List.length_cons, List.length_append]
    omega
  rw [readToken, hstart, getNextChar]
  dsimp only
  rw [h, hlen, ← List.cons_append, List.take_left]

theorem skipCommentTokens_of_lexeme (hc : isSpace c = false) (h : lexeme c (t ++ s) = (type, s)) (htype : type ≠ .comment) :
    skipCommentTokens (c :: (t ++ s)) = (⟨type, c :: t⟩, s) := by
  have htoken := readToken_of_lexeme hc h
  rw [skipCommentTokens_of_ne, htoken]
  rw [htoken]
  exact htype

/-- A token of one character. -/
theorem readToken_single (hc : isSpace c = false) (h : lexeme c s = (type, s)) : readToken (c :: s) = (⟨type, [c]⟩, s) :=
  @readToken_of_lexeme s [] c type hc h

theorem skipCommentTokens_single (hc : isSpace c = false) (h : lexeme c s = (type, s)) (htype : type ≠ .comment) :
    skipCommentTokens (c :: s) = (⟨type, [c]⟩, s) :=
  @skipCommentTokens_of_lexeme s [] c type hc h htype

end

/-! ### Strings -/

theorem shortEscape_eq_some {c e : UInt8} (h : shortEscape c = some e) : e ≠ 117 ∧ simpleEscape e = some c := by
  rw [shortEscape] at h
  split_ifs at h with hself h8 h12 h10 h13 h9
  · cases h
    rcases hself with rfl | rfl
    · decide
    · decide
  · cases h
    rw [h8]
    decide
  · cases h
    rw [h12]
    decide
  · cases h
    rw [h10]
    decide
  · cases h
    rw [h13]
    decide
  · cases h
    rw [h9]
    decide

theorem shortEscape_eq_none {c : UInt8} (h : shortEscape c = none) : c ≠ 34 ∧ c ≠ 92 := by
  constructor
  · rintro rfl
    cases h
  · rintro rfl
    cases h

/-- A character is escaped by a letter, escaped by its code, or stands for itself. -/
theorem escape_cases (c : UInt8) :
    (∃ e, escapeChar c = [92, e] ∧ e ≠ 117 ∧ simpleEscape e = some c) ∨
      (c < 32 ∧ escapeChar c = [92, 117, 48, 48, hexUpper (c / 16), hexUpper (c % 16)]) ∨
        (c ≠ 34 ∧ c ≠ 92 ∧ escapeChar c = [c]) := by
  rw [escapeChar]
  cases h : shortEscape c with
  | some e =>
      obtain ⟨hletter, hsimple⟩ := shortEscape_eq_some h
      exact .inl ⟨e, rfl, hletter, hsimple⟩
  | none =>
      obtain ⟨hquote, hbackslash⟩ := shortEscape_eq_none h
      dsimp only
      split
      · rename_i hlt
        exact .inr (.inl ⟨hlt, rfl⟩)
      · exact .inr (.inr ⟨hquote, hbackslash, rfl⟩)

theorem valueToQuotedStringN_eq (s : Bytes) : valueToQuotedStringN s = 34 :: (s.flatMap escapeChar ++ [34]) := by
  rw [valueToQuotedStringN]
  split
  · rename_i h
    have hplain : s.flatMap escapeChar = s := by
      have hsingle : ∀ c ∈ s, escapeChar c = [c] := by
        intro c hc
        obtain ⟨hshort, hprintable⟩ := Bool.and_eq_true_iff.1 (List.all_eq_true.1 h c hc)
        rw [Option.isNone_iff_eq_none] at hshort
        rw [decide_eq_true_eq] at hprintable
        rw [escapeChar, hshort]
        dsimp only
        rw [if_neg (by rw [UInt8.not_lt]; exact hprintable)]
      rw [List.flatMap_congr hsingle, List.flatMap_singleton']
    rw [hplain]
  · rfl

theorem hexUpper_apart (c : UInt8) : hexUpper (c / 16) ≠ 34 ∧ hexUpper (c / 16) ≠ 92 ∧ hexUpper (c % 16) ≠ 34 ∧
    hexUpper (c % 16) ≠ 92 ∧ hexValue (hexUpper (c / 16)) = some (c.toNat / 16) ∧
      hexValue (hexUpper (c % 16)) = some (c.toNat % 16) := by
  have h : ∀ i : Fin 256, hexUpper (UInt8.ofFin i / 16) ≠ 34 ∧ hexUpper (UInt8.ofFin i / 16) ≠ 92 ∧
      hexUpper (UInt8.ofFin i % 16) ≠ 34 ∧ hexUpper (UInt8.ofFin i % 16) ≠ 92 ∧
        hexValue (hexUpper (UInt8.ofFin i / 16)) = some (i.val / 16) ∧
          hexValue (hexUpper (UInt8.ofFin i % 16)) = some (i.val % 16) := by decide +kernel
  exact h c.toFin

theorem readString_plain {c : UInt8} {t : Bytes} (hquote : c ≠ 34) (hbackslash : c ≠ 92) (ht : t ≠ []) :
    readString (c :: t) = readString t := by
  cases t with
  | nil => exact absurd rfl ht
  | cons d t => rw [readString, if_neg hquote, if_neg hbackslash]

theorem readString_escaped (e : UInt8) (t : Bytes) : readString (92 :: e :: t) = readString t := by
  rw [readString, if_neg (by decide), if_pos rfl]

theorem readString_escape (c : UInt8) {t : Bytes} (ht : t ≠ []) : readString (escapeChar c ++ t) = readString t := by
  rcases escape_cases c with ⟨e, hescape, -⟩ | ⟨-, hescape⟩ | ⟨hquote, hbackslash, hescape⟩
  · rw [hescape]
    exact readString_escaped e t
  · obtain ⟨hq, hb, hq', hb', -⟩ := hexUpper_apart c
    have hcons : ∀ d : UInt8, d :: t ≠ [] := fun d => List.cons_ne_nil d t
    rw [hescape]
    show readString (92 :: 117 :: 48 :: 48 :: hexUpper (c / 16) :: hexUpper (c % 16) :: t) = _
    rw [readString_escaped, readString_plain (by decide) (by decide) (List.cons_ne_nil _ _),
      readString_plain (by decide) (by decide) (List.cons_ne_nil _ _), readString_plain hq hb (hcons _),
      readString_plain hq' hb' ht]
  · rw [hescape]
    exact readString_plain hquote hbackslash ht

theorem readString_flatMap (s rest : Bytes) : readString (s.flatMap escapeChar ++ 34 :: rest) = (true, rest) := by
  induction s with
  | nil => cases rest <;> rfl
  | cons c s ih =>
      rw [List.flatMap_cons, List.append_assoc, readString_escape c (by simp), ih]

theorem decodeUnicodeCodePoint_hexUpper {c : UInt8} (hc : c < 32) (t : Bytes) :
    decodeUnicodeCodePoint (48 :: 48 :: hexUpper (c / 16) :: hexUpper (c % 16) :: t) = some (c.toNat, t) := by
  obtain ⟨-, -, -, -, hhigh, hlow⟩ := hexUpper_apart c
  have hzero : hexValue 48 = some 0 := rfl
  have hlt : c.toNat < 32 := UInt8.lt_iff_toNat_lt.1 hc
  have hsequence : decodeUnicodeEscapeSequence (48 :: 48 :: hexUpper (c / 16) :: hexUpper (c % 16) :: t) =
      some (c.toNat, t) := by
    have hvalue : ((0 * 16 + 0) * 16 + c.toNat / 16) * 16 + c.toNat % 16 = c.toNat := by omega
    rw [decodeUnicodeEscapeSequence, hzero, hhigh, hlow]
    simp only [Option.bind_eq_bind, Option.bind_some, hvalue]
    rfl
  rw [decodeUnicodeCodePoint, hsequence]
  simp only [Option.bind_eq_bind, Option.bind_some]
  rw [if_neg (by omega)]
  rfl

theorem decodeChars_escape (c : UInt8) (t : Bytes) : decodeChars (escapeChar c ++ t) = (decodeChars t).map (c :: ·) := by
  rcases escape_cases c with ⟨e, hescape, hletter, hsimple⟩ | ⟨hc, hescape⟩ | ⟨hquote, hbackslash, hescape⟩
  · rw [hescape]
    show decodeChars (92 :: e :: t) = _
    rw [decodeChars, if_neg (by decide), if_pos rfl]
    rw [if_neg hletter, hsimple, Option.bind_some]
  · have hcode := decodeUnicodeCodePoint_hexUpper hc t
    have hlt : c.toNat < 32 := UInt8.lt_iff_toNat_lt.1 hc
    have hbyte : codePointToUTF8 c.toNat = [c] := by
      rw [codePointToUTF8, if_pos (by omega), UInt8.ofNat_toNat]
    rw [hescape]
    show decodeChars (92 :: 117 :: 48 :: 48 :: hexUpper (c / 16) :: hexUpper (c % 16) :: t) = _
    rw [decodeChars, if_neg (by decide), if_pos rfl]
    rw [if_pos rfl]
    split
    · rename_i hnone
      rw [hcode] at hnone
      cases hnone
    · rename_i unicode hsome
      rw [hcode] at hsome
      cases hsome
      rw [hbyte]
      rfl
  · rw [hescape]
    show decodeChars (c :: t) = _
    rw [decodeChars.eq_def]
    dsimp only
    rw [if_neg hquote, if_neg hbackslash]

theorem decodeString_valueToQuotedStringN (s : Bytes) : decodeString (valueToQuotedStringN s) = some s := by
  have hchars : decodeChars (s.flatMap escapeChar) = some s := by
    induction s with
    | nil => rw [List.flatMap_nil, decodeChars]
    | cons c s ih =>
        rw [List.flatMap_cons, decodeChars_escape, ih]
        rfl
  rw [decodeString, valueToQuotedStringN_eq, List.tail_cons, List.dropLast_concat, hchars]

theorem lexeme_quoted (s rest : Bytes) : lexeme 34 (s.flatMap escapeChar ++ [34] ++ rest) = (.string, rest) := by
  have hread := readString_flatMap s rest
  show orError .string (readString (s.flatMap escapeChar ++ [34] ++ rest)) = _
  rw [List.append_assoc, List.singleton_append, hread]
  rfl

/-- A string that was written is one token. -/
theorem skipCommentTokens_quoted (s rest : Bytes) :
    skipCommentTokens (valueToQuotedStringN s ++ rest) = (⟨.string, valueToQuotedStringN s⟩, rest) := by
  rw [valueToQuotedStringN_eq, List.cons_append]
  exact skipCommentTokens_of_lexeme (by decide) (lexeme_quoted s rest) TokenType.noConfusion

/-! ### Numbers -/

def decimal (n : ℕ) : Bytes := (Nat.toDigits 10 n).map fun c => UInt8.ofNat c.toNat

theorem toNat_of_mem_toDigits {n : ℕ} {c : Char} (h : c ∈ Nat.toDigits 10 n) : 48 ≤ c.toNat ∧ c.toNat ≤ 57 := by
  have hdigit := Nat.isDigit_of_mem_toDigits (by decide) (by decide) h
  rw [Char.isDigit, Bool.and_eq_true, decide_eq_true_eq, decide_eq_true_eq] at hdigit
  exact hdigit

theorem isDigit_of_mem_decimal {n : ℕ} {c : UInt8} (h : c ∈ decimal n) : Numeral.isDigit c = true := by
  obtain ⟨d, hd, rfl⟩ := List.mem_map.1 h
  obtain ⟨hlow, hhigh⟩ := toNat_of_mem_toDigits hd
  have hlt : d.toNat % 256 = d.toNat := Nat.mod_eq_of_lt (by omega)
  simp [Numeral.isDigit, UInt8.le_iff_toNat_le, hlt, hlow, hhigh]

theorem decimal_ne_nil (n : ℕ) : decimal n ≠ [] := by
  rw [decimal, Ne, List.map_eq_nil_iff]
  exact Nat.toDigits_ne_nil

/-- The value that a loop over digits reaches from another one. -/
def digitsValue (value : ℕ) (ds : Bytes) : ℕ := ds.foldl (fun value c => value * 10 + (c.toNat - 48)) value

theorem digitsValue_decimal (n : ℕ) : digitsValue 0 (decimal n) = n := by
  have hfold : ∀ (ds : List Char) (value : ℕ), (∀ c ∈ ds, 48 ≤ c.toNat ∧ c.toNat ≤ 57) →
      digitsValue value (ds.map fun c => UInt8.ofNat c.toNat) = Nat.ofDigitChars 10 ds value := by
    intro ds
    induction ds with
    | nil => exact fun _ _ => rfl
    | cons d ds ih =>
        intro value hds
        have hd := hds d List.mem_cons_self
        have hlt : d.toNat % 256 = d.toNat := Nat.mod_eq_of_lt (by omega)
        have hnext : digitsValue value ((d :: ds).map fun c => UInt8.ofNat c.toNat) =
            digitsValue (value * 10 + (d.toNat - 48)) (ds.map fun c => UInt8.ofNat c.toNat) := by
          simp [digitsValue, hlt]
        rw [hnext, ih _ fun c hc => hds c (List.mem_cons_of_mem d hc), Nat.ofDigitChars_cons, Nat.mul_comm]
        rfl
  rw [decimal, hfold _ 0 fun c hc => toNat_of_mem_toDigits hc, Nat.ofDigitChars_ten_toDigits]

theorem le_digitsValue (value : ℕ) (ds : Bytes) : value ≤ digitsValue value ds := by
  induction ds generalizing value with
  | nil => exact le_rfl
  | cons c ds ih =>
      have hnext := ih (value * 10 + (c.toNat - 48))
      show value ≤ digitsValue (value * 10 + (c.toNat - 48)) ds
      omega

/-- The check before every digit lets pass what stays within the bound. -/
theorem decodeDigits_eq {maxIntegerValue value : ℕ} {ds : Bytes} (hds : ∀ c ∈ ds, Numeral.isDigit c = true)
    (hmax : 100 ≤ maxIntegerValue) (hvalue : digitsValue value ds ≤ maxIntegerValue) :
    decodeDigits maxIntegerValue value ds = some (digitsValue value ds) := by
  induction ds generalizing value with
  | nil => rfl
  | cons c ds ih =>
      have hstep : digitsValue value (c :: ds) = digitsValue (value * 10 + (c.toNat - 48)) ds := rfl
      rw [hstep] at hvalue ⊢
      have hle := le_digitsValue (value * 10 + (c.toNat - 48)) ds
      have hpasses : ¬(maxIntegerValue / 10 ≤ value ∧
          (maxIntegerValue / 10 < value ∨ ds ≠ [] ∨ maxIntegerValue % 10 < c.toNat - 48)) := by
        rintro ⟨hthreshold, habove | hmore | hdigit⟩
        · omega
        · obtain ⟨d, ds', rfl⟩ := List.exists_cons_of_ne_nil hmore
          have hlater := le_digitsValue ((value * 10 + (c.toNat - 48)) * 10 + (d.toNat - 48)) ds'
          have hnext : digitsValue (value * 10 + (c.toNat - 48)) (d :: ds') =
              digitsValue ((value * 10 + (c.toNat - 48)) * 10 + (d.toNat - 48)) ds' := rfl
          omega
        · omega
      rw [decodeDigits, if_pos (hds c List.mem_cons_self)]
      dsimp only
      rw [if_neg hpasses, ih (fun d hd => hds d (List.mem_cons_of_mem c hd)) hvalue]

theorem intText_natCast (n : ℕ) : intText n = decimal n := by
  rw [intText, ascii, Int.toString_eq_repr, Int.repr_eq_if, if_pos (Int.natCast_nonneg n), Int.toNat_natCast,
    Nat.toList_repr]
  rfl

theorem intText_neg {n : ℕ} (h : 0 < n) : intText (-n) = 45 :: decimal n := by
  rw [intText, ascii, Int.toString_eq_repr, Int.repr_eq_if, if_neg (by omega), neg_neg, Int.toNat_natCast,
    String.toList_append, List.map_append, Nat.toList_repr]
  rfl

/-- Where a number ends. -/
def Ends (rest : Bytes) : Prop := ∀ c ∈ rest.head?, Numeral.isDigit c = false ∧ c ≠ 46 ∧ c ≠ 101 ∧ c ≠ 69

theorem ends_cons {c : UInt8} (rest : Bytes) (h : Numeral.isDigit c = false ∧ c ≠ 46 ∧ c ≠ 101 ∧ c ≠ 69) :
    Ends (c :: rest) := by
  intro d hd
  cases hd
  exact h

theorem readNumber_digits {ds rest : Bytes} (hds : ∀ c ∈ ds, Numeral.isDigit c = true) (h : Ends rest) :
    readNumber (ds ++ rest) = rest := by
  cases rest with
  | nil =>
      have hall : skipDigits (ds ++ []) = [] := by
        rw [List.append_nil]
        exact List.dropWhile_eq_nil_iff.2 hds
      rw [readNumber, hall]
      rfl
  | cons c rest =>
      obtain ⟨hdigit, hpoint, he, hE⟩ := h c rfl
      have hstop : skipDigits (ds ++ c :: rest) = c :: rest := by
        rw [skipDigits, List.dropWhile_append_of_pos hds, List.dropWhile_cons, hdigit]
        rfl
      rw [readNumber, hstop, skipFraction, if_neg hpoint, skipExponent, if_neg (by simp [he, hE])]

theorem lexeme_number {c : UInt8} (hc : isNumeral c = true) (s : Bytes) : lexeme c s = (.number, readNumber s) := by
  have hother : ∀ d, isNumeral d = false → c ≠ d := by
    rintro d hd rfl
    rw [hd] at hc
    cases hc
  rw [lexeme, if_neg (hother 123 rfl), if_neg (hother 125 rfl), if_neg (hother 91 rfl), if_neg (hother 93 rfl),
    if_neg (hother 34 rfl), if_neg (hother 47 rfl), if_pos hc]

theorem isNumeral_of_isDigit {c : UInt8} (h : Numeral.isDigit c = true) : isNumeral c = true := by
  rw [isNumeral, Bool.or_eq_true]
  exact .inr h

theorem isSpace_of_isNumeral {c : UInt8} (h : isNumeral c = true) : isSpace c = false := by
  have hall : ∀ i : Fin 256, isNumeral (UInt8.ofFin i) = true → isSpace (UInt8.ofFin i) = false := by decide +kernel
  exact hall c.toFin h

/-- An integer is written as digits, after a minus sign or not. -/
theorem intText_cases (n : ℤ) :
    ∃ c ds, intText n = c :: ds ∧ isNumeral c = true ∧ ∀ d ∈ ds, Numeral.isDigit d = true := by
  rcases Int.eq_nat_or_neg n with ⟨m, rfl | rfl⟩
  · obtain ⟨c, ds, hdecimal⟩ := List.exists_cons_of_ne_nil (decimal_ne_nil m)
    have hdigits : ∀ d ∈ c :: ds, Numeral.isDigit d = true := fun d hd => isDigit_of_mem_decimal (n := m) (by rwa [hdecimal])
    rw [intText_natCast, hdecimal]
    exact ⟨c, ds, rfl, isNumeral_of_isDigit (hdigits c List.mem_cons_self),
      fun d hd => hdigits d (List.mem_cons_of_mem c hd)⟩
  · cases m with
    | zero => exact ⟨48, [], rfl, rfl, nofun⟩
    | succ m =>
        rw [intText_neg (Nat.succ_pos m)]
        exact ⟨45, _, rfl, rfl, fun d hd => isDigit_of_mem_decimal hd⟩

theorem skipCommentTokens_intText (n : ℤ) {rest : Bytes} (h : Ends rest) :
    skipCommentTokens (intText n ++ rest) = (⟨.number, intText n⟩, rest) := by
  obtain ⟨c, ds, htext, hc, hds⟩ := intText_cases n
  rw [htext, List.cons_append]
  refine skipCommentTokens_of_lexeme (isSpace_of_isNumeral hc) ?_ TokenType.noConfusion
  rw [lexeme_number hc, readNumber_digits hds h]

theorem decodeNumber_intText (F : FloatText) {n : ℤ} (h : -2 ^ 63 ≤ n ∧ n < 2 ^ 64) :
    decodeNumber F (intText n) = some (.int n) := by
  have hdecode : ∀ {maxIntegerValue m : ℕ}, 100 ≤ maxIntegerValue → m ≤ maxIntegerValue →
      decodeDigits maxIntegerValue 0 (decimal m) = some m := by
    intro maxIntegerValue m hmax hm
    have hvalue := digitsValue_decimal m
    have heq := @decodeDigits_eq maxIntegerValue 0 (decimal m) (fun c hc => isDigit_of_mem_decimal hc) hmax (by rwa [hvalue])
    rw [heq, hvalue]
  have hplain : ∀ m : ℕ, m < 2 ^ 64 → decodeNumber F (decimal m) = some (.int m) := by
    intro m hm
    have hhead : (decimal m).head? ≠ some 45 := by
      intro hminus
      have hdigit := isDigit_of_mem_decimal (List.mem_of_head? hminus)
      cases hdigit
    rw [decodeNumber]
    simp only [hhead, if_false]
    rw [hdecode (by norm_num) (by omega)]
  rcases Int.eq_nat_or_neg n with ⟨m, rfl | rfl⟩
  · rw [intText_natCast]
    exact hplain m (by omega)
  · cases m with
    | zero => exact hplain 0 (by norm_num)
    | succ m =>
        rw [intText_neg (Nat.succ_pos m), decodeNumber]
        simp only [List.head?_cons, if_true, List.tail_cons]
        rw [hdecode (by norm_num) (by omega)]

/-! ### Values -/

theorem readValue_spaces (F : FloatText) (n : ℕ) {spaces : Bytes} (h : ∀ c ∈ spaces, isSpace c = true) (s : Bytes) :
    readValue F n (spaces ++ s) = readValue F n s := by
  cases n with
  | zero => rfl
  | succ n => rw [readValue, skipCommentTokens_spaces h, readValue]

theorem readElements_spaces (F : FloatText) (n k : ℕ) (s : Bytes) :
    readElements (readValue F n) k (skipSpaces s) = readElements (readValue F n) k s := by
  have hspaces : ∀ c ∈ s.takeWhile isSpace, isSpace c = true := fun c hc => List.mem_takeWhile_imp hc
  have hread := readValue_spaces F n hspaces (s.dropWhile isSpace)
  rw [List.takeWhile_append_dropWhile] at hread
  cases k with
  | zero => rfl
  | succ k => rw [readElements, readElements, skipSpaces, hread]

theorem spaces_line {ind : Bytes} (h : ∀ c ∈ ind, isSpace c = true) : ∀ c ∈ 10 :: ind, isSpace c = true :=
  List.forall_mem_cons.2 ⟨rfl, h⟩

theorem spaces_blank : ∀ c ∈ [(32 : UInt8)], isSpace c = true := by
  intro c hc
  rw [List.mem_singleton.1 hc]
  rfl

theorem spaces_indent {ind : Bytes} (h : ∀ c ∈ ind, isSpace c = true) : ∀ c ∈ ind ++ [9], isSpace c = true := by
  intro c hc
  rcases List.mem_append.1 hc with hc | hc
  · exact h c hc
  · rw [List.mem_singleton.1 hc]
    rfl

theorem spaces_if {ind : Bytes} (h : ∀ c ∈ ind, isSpace c = true) (b : Bool) : ∀ c ∈ line b ind, isSpace c = true := by
  cases b with
  | true => exact nofun
  | false => exact spaces_line h

/-- A value on the current line starts at once, and not like the end of an array. -/
theorem head_valueText (F : FloatText) (ind : Bytes) {j : Json} (h : j.Integral) :
    ∃ c t, valueText F true ind j = c :: t ∧ isSpace c = false ∧ c ≠ 93 := by
  cases j with
  | null => exact ⟨110, _, rfl, rfl, by decide⟩
  | bool b =>
      cases b with
      | true => exact ⟨116, _, rfl, rfl, by decide⟩
      | false => exact ⟨102, _, rfl, rfl, by decide⟩
  | int n =>
      obtain ⟨c, ds, htext, hc, -⟩ := intText_cases n
      refine ⟨c, ds, htext, isSpace_of_isNumeral hc, ?_⟩
      rintro rfl
      cases hc
  | real x => exact h.elim
  | string s =>
      refine ⟨34, s.flatMap escapeChar ++ [34], ?_, rfl, by decide⟩
      rw [valueText, valueToQuotedStringN_eq]
  | array xs =>
      rw [valueText]
      split
      · exact ⟨91, _, rfl, rfl, by decide⟩
      · exact ⟨91, _, rfl, rfl, by decide⟩
  | object ms =>
      rw [valueText]
      split
      · exact ⟨123, _, rfl, rfl, by decide⟩
      · exact ⟨123, _, rfl, rfl, by decide⟩

/-- What a reading at this depth makes of a text that was written. -/
def ReadsAt (F : FloatText) (n : ℕ) : Prop :=
  ∀ {j : Json}, j.WellFormed → j.Integral → ∀ (b : Bool) {ind : Bytes}, (∀ c ∈ ind, isSpace c = true) →
    ∀ {rest : Bytes}, Ends rest →
      readValue F n (valueText F b ind j ++ rest) = if j.depth ≤ n then .ok (j, rest) else .error .raises

theorem ends_close {c : UInt8} {ind rest : Bytes} : Ends (10 :: (ind ++ c :: rest)) := ends_cons _ (by decide)

section

variable {F : FloatText} {n : ℕ} {ind ind' rest : Bytes}

theorem readElements_elementsText (hn : ReadsAt F n) (hind : ∀ c ∈ ind, isSpace c = true)
    (hind' : ∀ c ∈ ind', isSpace c = true) {xs : List Json} (hne : xs ≠ [])
    (hxs : ∀ x ∈ xs, x.WellFormed ∧ x.Integral) {k : ℕ} (hk : xs.length ≤ k) :
    readElements (readValue F n) k (elementsText F ind xs ++ 10 :: (ind' ++ 93 :: rest)) =
      if ∀ x ∈ xs, x.depth ≤ n then .ok (xs, rest) else .error .raises := by
  induction xs generalizing k with
  | nil => exact absurd rfl hne
  | cons x xs ih =>
      obtain ⟨k, rfl⟩ : ∃ m, k = m + 1 := ⟨k - 1, by simp at hk; omega⟩
      obtain ⟨hwellFormed, hintegral⟩ := hxs x List.mem_cons_self
      have hread : ∀ {rest : Bytes}, Ends rest → readValue F n (10 :: (ind ++ (valueText F true ind x ++ rest))) =
          if x.depth ≤ n then .ok (x, rest) else .error .raises := by
        intro rest hrest
        rw [← List.cons_append, readValue_spaces F n (spaces_line hind), hn hwellFormed hintegral true hind hrest]
      rw [elementsText, readElements]
      cases xs with
      | nil =>
          have hend : skipCommentTokens (10 :: (ind' ++ 93 :: rest)) = (⟨.arrayEnd, [93]⟩, rest) := by
            rw [← List.cons_append, skipCommentTokens_spaces (spaces_line hind')]
            exact skipCommentTokens_single rfl rfl TokenType.noConfusion
          simp only [List.isEmpty_nil, if_true, List.append_nil, List.cons_append, List.append_assoc,
            hread ends_close, List.forall_mem_singleton]
          split
          · rw [ok_bind]
            dsimp only
            rw [hend]
            rfl
          · rfl
      | cons y ys =>
          have hmore := ih (List.cons_ne_nil y ys) (fun z hz => hxs z (List.mem_cons_of_mem x hz)) (k := k) (by simpa using hk)
          have hcomma : ∀ s, skipCommentTokens (44 :: s) = (⟨.arraySeparator, [44]⟩, s) :=
            fun s => skipCommentTokens_single rfl rfl TokenType.noConfusion
          have hgoes : ∀ s, Ends (44 :: s) := fun s => ends_cons s (by decide)
          simp only [List.isEmpty_cons, Bool.false_eq_true, if_false, List.cons_append, List.append_assoc,
            hread (hgoes _), List.forall_mem_cons (a := x)]
          by_cases hx : x.depth ≤ n
          · rw [if_pos hx, ok_bind]
            dsimp only
            rw [hcomma]
            dsimp only
            rw [hmore]
            by_cases hys : ∀ z ∈ y :: ys, z.depth ≤ n
            · rw [if_pos hys, if_pos ⟨hx, hys⟩]
              rfl
            · rw [if_neg hys, if_neg fun h => hys h.2]
              rfl
          · rw [if_neg hx, if_neg fun h => hx h.1]
            rfl

theorem readArray_elementsText (hn : ReadsAt F n) (hind : ∀ c ∈ ind, isSpace c = true)
    (hind' : ∀ c ∈ ind', isSpace c = true) {xs : List Json} (hne : xs ≠ [])
    (hxs : ∀ x ∈ xs, x.WellFormed ∧ x.Integral) :
    readArray (readValue F n) (elementsText F ind xs ++ 10 :: (ind' ++ 93 :: rest)) =
      if ∀ x ∈ xs, x.depth ≤ n then .ok (xs, rest) else .error .raises := by
  have hread := fun {k} hk => @readElements_elementsText F n ind ind' rest hn hind hind' xs hne hxs k hk
  obtain ⟨x, xs', rfl⟩ := List.exists_cons_of_ne_nil hne
  obtain ⟨c, t, htext, hspace, hbracket⟩ := head_valueText F ind (hxs x List.mem_cons_self).2
  generalize hs : elementsText F ind (x :: xs') ++ 10 :: (ind' ++ 93 :: rest) = s at hread ⊢
  have hhead : (skipSpaces s).head? ≠ some 93 := by
    rw [← hs, elementsText, htext, List.append_assoc, ← List.cons_append, List.append_assoc,
      skipSpaces_append (spaces_line hind), List.cons_append, skipSpaces, List.dropWhile_cons, hspace]
    simpa using hbracket
  have hbound := readElements_of_lt (readValue_advances F n) (Nat.lt_succ_self (skipSpaces s).length)
    (show (skipSpaces s).length < (skipSpaces s).length + (x :: xs').length by simp)
  rw [readArray, if_neg hhead, hbound, readElements_spaces, hread (Nat.le_add_left _ _)]

/-- Assigning to a key after all others appends. -/
theorem setMember_append {acc ms : List (Bytes × Json)} {name : Bytes} {v : Json}
    (h : ascending (acc ++ (name, v) :: ms) = true) : setMember name v acc = acc ++ [(name, v)] := by
  induction acc with
  | nil => rfl
  | cons m acc ih =>
      obtain ⟨name', v'⟩ := m
      rw [ascending_iff, List.cons_append, List.map_cons, List.pairwise_cons] at h
      have hless : name' < name := h.1 name (by simp)
      have hmore := ih (ascending_iff.2 h.2)
      have hne : name' ≠ name := fun heq => List.lt_irrefl name (heq ▸ hless)
      rw [setMember, if_neg hne, if_neg (List.lt_asymm hless), hmore]
      rfl

theorem readMembers_membersText (hn : ReadsAt F n) (hind : ∀ c ∈ ind, isSpace c = true)
    (hind' : ∀ c ∈ ind', isSpace c = true) {ms acc : List (Bytes × Json)} {name : Bytes} (hne : ms ≠ [])
    (hascending : ascending (acc ++ ms) = true) (hms : ∀ m ∈ ms, m.2.WellFormed ∧ m.2.Integral) {k : ℕ}
    (hk : ms.length ≤ k) :
    readMembers (readValue F n) k name acc (membersText F ind ms ++ 10 :: (ind' ++ 125 :: rest)) =
      if ∀ m ∈ ms, m.2.depth ≤ n then .ok (acc ++ ms, rest) else .error .raises := by
  induction ms generalizing k acc name with
  | nil => exact absurd rfl hne
  | cons m ms ih =>
      obtain ⟨k, rfl⟩ : ∃ m, k = m + 1 := ⟨k - 1, by simp at hk; omega⟩
      obtain ⟨name', x⟩ := m
      obtain ⟨hwellFormed, hintegral⟩ := hms (name', x) List.mem_cons_self
      have hname : ∀ s, skipCommentTokens (10 :: (ind ++ (valueToQuotedStringN name' ++ s))) =
          (⟨.string, valueToQuotedStringN name'⟩, s) := by
        intro s
        rw [← List.cons_append, skipCommentTokens_spaces (spaces_line hind), skipCommentTokens_quoted]
      have hcolon : ∀ s, readToken (32 :: 58 :: s) = (⟨.memberSeparator, [58]⟩, s) := by
        intro s
        have hskip := readToken_spaces spaces_blank (58 :: s)
        rw [List.singleton_append] at hskip
        rw [hskip]
        exact readToken_single rfl rfl
      have hread : ∀ {rest : Bytes}, Ends rest → readValue F n (32 :: (valueText F false ind x ++ rest)) =
          if x.depth ≤ n then .ok (x, rest) else .error .raises := by
        intro rest hrest
        have hskip := readValue_spaces F n spaces_blank (valueText F false ind x ++ rest)
        rw [List.singleton_append] at hskip
        rw [hskip, hn hwellFormed hintegral false hind hrest]
      have hset : setMember name' x acc = acc ++ [(name', x)] := setMember_append hascending
      rw [membersText, readMembers]
      cases ms with
      | nil =>
          have hend : readToken (10 :: (ind' ++ 125 :: rest)) = (⟨.objectEnd, [125]⟩, rest) := by
            rw [← List.cons_append, readToken_spaces (spaces_line hind')]
            exact readToken_single rfl rfl
          simp only [List.isEmpty_nil, if_true, List.append_nil, List.cons_append, List.append_assoc, hname,
            decodeString_valueToQuotedStringN, orFails, ok_bind, hcolon, hread ends_close, List.forall_mem_singleton]
          split
          · rw [ok_bind]
            dsimp only
            rw [hend, hset]
            rfl
          · rfl
      | cons m' ms =>
          have hmore := @ih (acc ++ [(name', x)]) name' (List.cons_ne_nil m' ms) (by simpa using hascending)
            (fun m hm => hms m (List.mem_cons_of_mem _ hm)) k (by simpa using hk)
          have hcomma : ∀ s, readToken (44 :: s) = (⟨.arraySeparator, [44]⟩, s) := fun s => readToken_single rfl rfl
          have hgoes : ∀ s, Ends (44 :: s) := fun s => ends_cons s (by decide)
          simp only [List.isEmpty_cons, Bool.false_eq_true, if_false, if_true, List.cons_append, List.append_assoc, hname,
            decodeString_valueToQuotedStringN, orFails, ok_bind, hcolon, hread (hgoes _), List.forall_mem_cons (a := (name', x))]
          by_cases hx : x.depth ≤ n
          · rw [if_pos hx, ok_bind]
            dsimp only
            rw [hcomma, hset]
            dsimp only
            rw [hmore, List.append_assoc]
            by_cases hall : ∀ m ∈ m' :: ms, m.2.depth ≤ n
            · rw [if_pos hall, if_pos ⟨hx, hall⟩]
              rfl
            · rw [if_neg hall, if_neg fun h => hall h.2]
          · rw [if_neg hx, if_neg fun h => hx h.1]
            rfl

theorem readObject_membersText (hn : ReadsAt F n) (hind : ∀ c ∈ ind, isSpace c = true)
    (hind' : ∀ c ∈ ind', isSpace c = true) {ms : List (Bytes × Json)} (hne : ms ≠ []) (hascending : ascending ms = true)
    (hms : ∀ m ∈ ms, m.2.WellFormed ∧ m.2.Integral) :
    readObject (readValue F n) (membersText F ind ms ++ 10 :: (ind' ++ 125 :: rest)) =
      if ∀ m ∈ ms, m.2.depth ≤ n then .ok (ms, rest) else .error .raises := by
  have hread := fun {k} hk => @readMembers_membersText F n ind ind' rest hn hind hind' ms [] [] hne hascending hms k hk
  generalize membersText F ind ms ++ 10 :: (ind' ++ 125 :: rest) = s at hread ⊢
  have hbound := @readMembers_of_lt _ (readValue_advances F n) (s.length + 1) (s.length + 1 + ms.length) s [] []
    (by omega) (by omega)
  rw [readObject, hbound, hread (Nat.le_add_left _ _), List.nil_append]

end

/-- **What is written is read back**, at every depth that suffices; at a smaller one the parser throws. -/
theorem readsAt (F : FloatText) (n : ℕ) : ReadsAt F n := by
  induction n with
  | zero =>
      intro j _ _ b ind _ rest _
      rw [if_neg (by have := depth_pos j; omega)]
      rfl
  | succ n ih =>
      intro j hwellFormed hintegral b ind hind rest hrest
      have hscalar : 1 ≤ n + 1 := Nat.succ_le_succ (Nat.zero_le n)
      cases j with
      | null =>
          have htoken : skipCommentTokens (ascii "null" ++ rest) = (⟨.null, ascii "null"⟩, rest) :=
            skipCommentTokens_of_lexeme (c := 110) (t := ascii "ull") rfl rfl TokenType.noConfusion
          rw [valueText, readValue, htoken, if_pos (show null.depth ≤ n + 1 from hscalar)]
      | bool v =>
          rw [valueText, readValue, if_pos (show (bool v).depth ≤ n + 1 from hscalar)]
          cases v with
          | true =>
              have htoken : skipCommentTokens (ascii "true" ++ rest) = (⟨.true, ascii "true"⟩, rest) :=
                skipCommentTokens_of_lexeme (c := 116) (t := ascii "rue") rfl rfl TokenType.noConfusion
              rw [if_pos rfl, htoken]
          | false =>
              have htoken : skipCommentTokens (ascii "false" ++ rest) = (⟨.false, ascii "false"⟩, rest) :=
                skipCommentTokens_of_lexeme (c := 102) (t := ascii "alse") rfl rfl TokenType.noConfusion
              rw [if_neg Bool.false_ne_true, htoken]
      | int m =>
          rw [valueText, readValue, skipCommentTokens_intText m hrest, if_pos (show (int m).depth ≤ n + 1 from hscalar)]
          dsimp only
          rw [decodeNumber_intText F hwellFormed]
          rfl
      | real x => exact hintegral.elim
      | string s =>
          rw [valueText, readValue, skipCommentTokens_quoted, if_pos (show (string s).depth ≤ n + 1 from hscalar)]
          dsimp only
          rw [decodeString_valueToQuotedStringN]
          rfl
      | array xs =>
          have hopen : ∀ s, skipCommentTokens (line b ind ++ 91 :: s) = (⟨.arrayBegin, [91]⟩, s) := by
            intro s
            rw [skipCommentTokens_spaces (spaces_if hind b)]
            exact skipCommentTokens_single rfl rfl TokenType.noConfusion
          have hxs : ∀ x ∈ xs, x.WellFormed ∧ x.Integral := fun x hx =>
            ⟨wellFormed_array.1 hwellFormed x hx, integral_array.1 hintegral x hx⟩
          rw [valueText]
          split
          · rename_i hempty
            have htoken : skipCommentTokens ([91, 93] ++ rest) = (⟨.arrayBegin, [91]⟩, 93 :: rest) :=
              skipCommentTokens_single rfl rfl TokenType.noConfusion
            rw [List.isEmpty_iff.1 hempty, readValue, htoken, if_pos (show (array []).depth ≤ n + 1 from hscalar)]
            rfl
          · rename_i hne
            rw [List.isEmpty_iff] at hne
            have hread := @readArray_elementsText F n (ind ++ [9]) ind rest ih (spaces_indent hind) hind xs hne hxs
            simp only [List.append_assoc, List.cons_append, List.nil_append]
            rw [readValue, hopen]
            dsimp only
            rw [hread]
            simp only [depth_array_le_iff]
            split
            · rfl
            · rfl
      | object ms =>
          have hopen : ∀ s, skipCommentTokens (line b ind ++ 123 :: s) = (⟨.objectBegin, [123]⟩, s) := by
            intro s
            rw [skipCommentTokens_spaces (spaces_if hind b)]
            exact skipCommentTokens_single rfl rfl TokenType.noConfusion
          obtain ⟨hascending, hvalues⟩ := wellFormed_object.1 hwellFormed
          have hms : ∀ m ∈ ms, m.2.WellFormed ∧ m.2.Integral := fun m hm =>
            ⟨hvalues m hm, integral_object.1 hintegral m hm⟩
          rw [valueText]
          split
          · rename_i hempty
            have htoken : skipCommentTokens ([123, 125] ++ rest) = (⟨.objectBegin, [123]⟩, 125 :: rest) :=
              skipCommentTokens_single rfl rfl TokenType.noConfusion
            have hend : skipCommentTokens (125 :: rest) = (⟨.objectEnd, [125]⟩, rest) :=
              skipCommentTokens_single rfl rfl TokenType.noConfusion
            rw [List.isEmpty_iff.1 hempty, readValue, htoken, if_pos (show (object []).depth ≤ n + 1 from hscalar)]
            dsimp only
            rw [readObject, readMembers, hend]
            rfl
          · rename_i hne
            rw [List.isEmpty_iff] at hne
            have hread := @readObject_membersText F n (ind ++ [9]) ind rest ih (spaces_indent hind) hind ms hne hascending hms
            simp only [List.append_assoc, List.cons_append, List.nil_append]
            rw [readValue, hopen]
            dsimp only
            rw [hread]
            simp only [depth_object_le_iff]
            split
            · rfl
            · rfl

theorem readValue_writeString (F : FloatText) (n : ℕ) {j : Json} (hwellFormed : j.WellFormed) (hintegral : j.Integral) :
    readValue F n (writeString F j) = if j.depth ≤ n then .ok (j, []) else .error .raises := by
  have hread := @readsAt F n j hwellFormed hintegral true [] nofun [] nofun
  rw [List.append_nil] at hread
  rw [writeString, (writeValue_eq F [] [] true j).1, List.nil_append, hread]

/-- **The library reads back what it writes** exactly where values are nested no deeper than its parser goes: any value
with integers of a machine word, with objects in the order of their keys and without fractions. On a deeper one the parser
throws. -/
theorem parse_writeString (F : FloatText) (j : Json) (hwellFormed : j.WellFormed) (hintegral : j.Integral) :
    JsonReader.parse F (writeString F j) = if j.depth ≤ stackLimit then .value j else .raises := by
  have hread := readValue_writeString F stackLimit hwellFormed hintegral
  by_cases hdepth : j.depth ≤ stackLimit
  · rw [if_pos hdepth] at hread ⊢
    rw [JsonReader.parse, hread]
  · rw [if_neg hdepth] at hread ⊢
    rw [JsonReader.parse, hread]

namespace Sample

/-- Arrays in arrays, with nothing in the innermost one. -/
def nested : ℕ → Json
  | 0 => .array []
  | n + 1 => .array [nested n]

theorem nested_plain (n : ℕ) : (nested n).WellFormed ∧ (nested n).Integral ∧ (nested n).depth = n + 1 := by
  induction n with
  | zero => exact ⟨wellFormed_array.2 nofun, integral_array.2 nofun, rfl⟩
  | succ n ih =>
      obtain ⟨hwellFormed, hintegral, hdepth⟩ := ih
      rw [nested, wellFormed_array, integral_array, depth, depthAll, depthAll, hdepth]
      exact ⟨by simpa using hwellFormed, by simpa using hintegral, by simp⟩

/-- Without numbers that have a fraction. -/
def noFractions : FloatText := ⟨fun _ => none, fun _ => []⟩

end Sample

/-- A thousand levels are read, and one more is not. -/
theorem parse_writeString_nested :
    JsonReader.parse Sample.noFractions (writeString Sample.noFractions (Sample.nested 999)) = .value (Sample.nested 999) ∧
      JsonReader.parse Sample.noFractions (writeString Sample.noFractions (Sample.nested 1000)) = .raises := by
  obtain ⟨hwellFormed, hintegral, hdepth⟩ := Sample.nested_plain 999
  obtain ⟨hwellFormed', hintegral', hdepth'⟩ := Sample.nested_plain 1000
  have hread := parse_writeString Sample.noFractions (Sample.nested 999) hwellFormed hintegral
  have hread' := parse_writeString Sample.noFractions (Sample.nested 1000) hwellFormed' hintegral'
  rw [hdepth, if_pos (by decide)] at hread
  rw [hdepth', if_neg (by decide)] at hread'
  exact ⟨hread, hread'⟩

/-- A document that a value says everything about: it has no comments, which the library keeps beside the values and
writes again, and all its strings and names are shorter than what the library has room for. -/
structure Document where
  text : Bytes
  commentless : ∀ token ∈ tokens text, token.type ≠ .comment
  length_lt : text.length < 2 ^ 30

/-- **What the parser makes of any document**: a value that the library could have built and that it writes so that it is
read back, unless it has a fraction; or it fails; or it throws, and then there are a thousand opening brackets. -/
theorem parse_sound (F : FloatText) (document : Document) :
    (∀ j, JsonReader.parse F document.text = .value j → j.WellFormed ∧ j.depth ≤ stackLimit ∧
        (j.Integral → JsonReader.parse F (writeString F j) = .value j)) ∧
      (JsonReader.parse F document.text = .raises → stackLimit ≤ openings document.text) := by
  constructor
  · intro j h
    rw [JsonReader.parse] at h
    split at h
    · rename_i value hread
      cases h
      obtain ⟨hwellFormed, hdepth⟩ := readValue_held F stackLimit hread
      refine ⟨hwellFormed, hdepth, fun hintegral => ?_⟩
      rw [JsonReader.parse, readValue_writeString F stackLimit hwellFormed hintegral, if_pos hdepth]
    · cases h
    · cases h
  · intro h
    apply readValue_raises F
    rw [JsonReader.parse] at h
    split at h
    · cases h
    · assumption
    · cases h

end CvmAttestation.Client.JsonRoundTrip
