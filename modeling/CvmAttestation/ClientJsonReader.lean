import CvmAttestation.BaseJsonTree
import CvmAttestation.BaseNumeral
import CvmAttestation.ClientJson

/-! The parser of the JSON library. `Json::Reader` takes more than JSON: comments, digits after a leading zero, a lone
minus sign, a comma before the end of an object whose last name is empty, and anything at all after the first value. It
throws when values are nested more than a thousand deep, and what it returns is always a value that the library itself
could have built. Comments are skipped here; the library also keeps them beside the values. -/

namespace CvmAttestation.Client.JsonReader

open Base Base.Json

/-- What ends a reading early: an exception, or an error that is recorded. -/
inductive Stop
  | raises
  | fails
  deriving DecidableEq, Repr

inductive TokenType
  | endOfStream
  | objectBegin
  | objectEnd
  | arrayBegin
  | arrayEnd
  | string
  | number
  | true
  | false
  | null
  | arraySeparator
  | memberSeparator
  | comment
  | error
  deriving DecidableEq, Repr

structure Token where
  type : TokenType
  text : Bytes
  deriving DecidableEq, Repr

/-! ### Tokens

A position in the document is what is left from there. -/

def getNextChar : Bytes → UInt8 × Bytes
  | [] => (0, [])
  | c :: s => (c, s)

def isSpace (c : UInt8) : Bool := c = 32 || c = 9 || c = 13 || c = 10

def skipSpaces (s : Bytes) : Bytes := s.dropWhile isSpace

/-- `Reader::match`. -/
def matchText (pattern s : Bytes) : Bool × Bytes :=
  if pattern.isPrefixOf s then (true, s.drop pattern.length) else (false, s)

/-- The loop of `readCStyleComment`: it ends before a slash that follows an asterisk. -/
def skipCStyleComment : Bytes → Bytes
  | [] => []
  | c :: s => if c = 42 ∧ s.head? = some 47 then s else skipCStyleComment s

def readCStyleComment (s : Bytes) : Bool × Bytes :=
  let next := getNextChar (skipCStyleComment s)
  (next.1 = 47, next.2)

def readCppStyleComment : Bytes → Bytes
  | [] => []
  | c :: s =>
    if c = 10 then s
    else if c = 13 then if s.head? = some 10 then s.tail else s
    else readCppStyleComment s

def readComment (s : Bytes) : Bool × Bytes :=
  let next := getNextChar s
  if next.1 = 42 then readCStyleComment next.2
  else if next.1 = 47 then (true, readCppStyleComment next.2)
  else (false, next.2)

def skipDigits (s : Bytes) : Bytes := s.dropWhile Numeral.isDigit

def skipSign : Bytes → Bytes
  | [] => []
  | c :: s => if c = 43 ∨ c = 45 then s else c :: s

def skipFraction : Bytes → Bytes
  | [] => []
  | c :: s => if c = 46 then skipDigits s else c :: s

def skipExponent : Bytes → Bytes
  | [] => []
  | c :: s => if c = 101 ∨ c = 69 then skipDigits (skipSign s) else c :: s

/-- A number after its first character, which is a digit or a minus sign. -/
def readNumber (s : Bytes) : Bytes := skipExponent (skipFraction (skipDigits s))

/-- A string after its first quotation mark. A backslash keeps the next character from ending it. -/
def readString : Bytes → Bool × Bytes
  | [] => (false, [])
  | [c] => (c = 34, [])
  | c :: d :: s => if c = 34 then (true, d :: s) else if c = 92 then readString s else readString (d :: s)

def orError (type : TokenType) (r : Bool × Bytes) : TokenType × Bytes := (if r.1 then type else .error, r.2)

/-- The type of a token from its first character, and the position after it. -/
def lexeme (c : UInt8) (s : Bytes) : TokenType × Bytes :=
  if c = 123 then (.objectBegin, s)
  else if c = 125 then (.objectEnd, s)
  else if c = 91 then (.arrayBegin, s)
  else if c = 93 then (.arrayEnd, s)
  else if c = 34 then orError .string (readString s)
  else if c = 47 then orError .comment (readComment s)
  else if isNumeral c then (.number, readNumber s)
  else if c = 116 then orError .true (matchText (ascii "rue") s)
  else if c = 102 then orError .false (matchText (ascii "alse") s)
  else if c = 110 then orError .null (matchText (ascii "ull") s)
  else if c = 44 then (.arraySeparator, s)
  else if c = 58 then (.memberSeparator, s)
  else if c = 0 then (.endOfStream, s)
  else (.error, s)

def readToken (s : Bytes) : Token × Bytes :=
  let start := skipSpaces s
  let next := getNextChar start
  let read := lexeme next.1 next.2
  (⟨read.1, start.take (start.length - read.2.length)⟩, read.2)

/-! A position after a step is a later one. -/

theorem getNextChar_suffix (s : Bytes) : (getNextChar s).2 <:+ s := by
  cases s with
  | nil => exact List.suffix_rfl
  | cons c s => exact List.suffix_cons c s

theorem skipCStyleComment_suffix (s : Bytes) : skipCStyleComment s <:+ s := by
  induction s with
  | nil => exact List.suffix_rfl
  | cons c s ih =>
      rw [skipCStyleComment]
      split
      · exact List.suffix_cons c s
      · exact ih.trans (List.suffix_cons c s)

theorem readCppStyleComment_suffix (s : Bytes) : readCppStyleComment s <:+ s := by
  induction s with
  | nil => exact List.suffix_rfl
  | cons c s ih =>
      rw [readCppStyleComment]
      split_ifs
      · exact List.suffix_cons c s
      · exact (List.tail_suffix s).trans (List.suffix_cons c s)
      · exact List.suffix_cons c s
      · exact ih.trans (List.suffix_cons c s)

theorem readComment_suffix (s : Bytes) : (readComment s).2 <:+ s := by
  have hnext := getNextChar_suffix s
  rw [readComment]
  split_ifs
  · exact ((getNextChar_suffix _).trans (skipCStyleComment_suffix _)).trans hnext
  · exact (readCppStyleComment_suffix _).trans hnext
  · exact hnext

theorem skipSign_suffix (s : Bytes) : skipSign s <:+ s := by
  cases s with
  | nil => exact List.suffix_rfl
  | cons c s =>
      rw [skipSign]
      split
      · exact List.suffix_cons c s
      · exact List.suffix_rfl

theorem readNumber_suffix (s : Bytes) : readNumber s <:+ s := by
  have hdigits : ∀ t, skipDigits t <:+ t := fun t => List.dropWhile_suffix _
  have hfraction : ∀ t, skipFraction t <:+ t := by
    intro t
    cases t with
    | nil => exact List.suffix_rfl
    | cons c t =>
        rw [skipFraction]
        split
        · exact (hdigits t).trans (List.suffix_cons c t)
        · exact List.suffix_rfl
  have hexponent : ∀ t, skipExponent t <:+ t := by
    intro t
    cases t with
    | nil => exact List.suffix_rfl
    | cons c t =>
        rw [skipExponent]
        split
        · exact ((hdigits _).trans (skipSign_suffix t)).trans (List.suffix_cons c t)
        · exact List.suffix_rfl
  exact ((hexponent _).trans (hfraction _)).trans (hdigits s)

theorem readString_suffix (s : Bytes) : (readString s).2 <:+ s := by
  induction s using readString.induct with
  | case1 => exact List.suffix_rfl
  | case2 c => exact List.nil_suffix
  | case3 d s =>
      rw [readString, if_pos rfl]
      exact List.suffix_cons 34 (d :: s)
  | case4 d s hquote ih =>
      rw [readString, if_neg hquote, if_pos rfl]
      exact (ih.trans (List.suffix_cons d s)).trans (List.suffix_cons 92 _)
  | case5 c d s hquote hescape ih =>
      rw [readString, if_neg hquote, if_neg hescape]
      exact ih.trans (List.suffix_cons c _)

theorem matchText_suffix (pattern s : Bytes) : (matchText pattern s).2 <:+ s := by
  rw [matchText]
  split
  · exact List.drop_suffix _ s
  · exact List.suffix_rfl

/-- The characters and the tokens that begin a value with further values in it. -/
def opening (c : UInt8) : Bool := c = 123 || c = 91

def TokenType.opens (type : TokenType) : Bool := type = .objectBegin || type = .arrayBegin

/-- What is known of a token and of the position after it, when it begins with `c` and goes on with `s`. -/
structure Lexed (c : UInt8) (s : Bytes) (r : TokenType × Bytes) : Prop where
  suffix : r.2 <:+ s
  opens : r.1.opens = true → opening c = true ∧ r.2 = s

section

variable {c : UInt8} {s : Bytes} {a b : TokenType × Bytes} {type : TokenType} {r : Bool × Bytes}

theorem Lexed.ite {p : Prop} [Decidable p] (ha : p → Lexed c s a) (hb : Lexed c s b) : Lexed c s (if p then a else b) := by
  split
  · rename_i hp
    exact ha hp
  · exact hb

theorem Lexed.of_opening (hc : opening c = true) : Lexed c s (type, s) := ⟨List.suffix_rfl, fun _ => ⟨hc, rfl⟩⟩

theorem Lexed.of_closed (htype : type.opens = false) {t : Bytes} (ht : t <:+ s) : Lexed c s (type, t) :=
  ⟨ht, fun h => by rw [htype] at h; cases h⟩

theorem Lexed.orError (htype : type.opens = false) (ht : r.2 <:+ s) : Lexed c s (orError type r) := by
  refine ⟨ht, fun h => ?_⟩
  rw [JsonReader.orError] at h
  split at h
  · rw [htype] at h
    cases h
  · cases h

theorem lexeme_lexed (c : UInt8) (s : Bytes) : Lexed c s (lexeme c s) := by
  unfold lexeme
  apply Lexed.ite (fun hc => .of_opening (by rw [hc]; rfl))
  apply Lexed.ite (fun _ => .of_closed rfl List.suffix_rfl)
  apply Lexed.ite (fun hc => .of_opening (by rw [hc]; rfl))
  apply Lexed.ite (fun _ => .of_closed rfl List.suffix_rfl)
  apply Lexed.ite (fun _ => .orError rfl (readString_suffix s))
  apply Lexed.ite (fun _ => .orError rfl (readComment_suffix s))
  apply Lexed.ite (fun _ => .of_closed rfl (readNumber_suffix s))
  apply Lexed.ite (fun _ => .orError rfl (matchText_suffix _ s))
  apply Lexed.ite (fun _ => .orError rfl (matchText_suffix _ s))
  apply Lexed.ite (fun _ => .orError rfl (matchText_suffix _ s))
  apply Lexed.ite (fun _ => .of_closed rfl List.suffix_rfl)
  apply Lexed.ite (fun _ => .of_closed rfl List.suffix_rfl)
  exact Lexed.ite (fun _ => .of_closed rfl List.suffix_rfl) (.of_closed rfl List.suffix_rfl)

end

/-- A token is the end of the document, or it begins at some character and the next position is after that one. -/
theorem readToken_cases (s : Bytes) :
    (skipSpaces s = [] ∧ (readToken s).1.type = .endOfStream ∧ (readToken s).2 = []) ∨
      ∃ c t, skipSpaces s = c :: t ∧ (readToken s).1.type = (lexeme c t).1 ∧ (readToken s).2 = (lexeme c t).2 := by
  cases h : skipSpaces s with
  | nil =>
      left
      refine ⟨rfl, ?_, ?_⟩
      · rw [readToken, h]
        rfl
      · rw [readToken, h]
        rfl
  | cons c t =>
      right
      refine ⟨c, t, rfl, ?_, ?_⟩
      · rw [readToken, h]
        rfl
      · rw [readToken, h]
        rfl

theorem readToken_suffix (s : Bytes) : (readToken s).2 <:+ s := by
  have hspaces : skipSpaces s <:+ s := List.dropWhile_suffix _
  rcases readToken_cases s with ⟨-, -, hnext⟩ | ⟨c, t, hstart, -, hnext⟩
  · rw [hnext]
    exact List.nil_suffix
  · rw [hnext]
    rw [hstart] at hspaces
    exact ((lexeme_lexed c t).suffix.trans (List.suffix_cons c t)).trans hspaces

theorem length_readToken_lt {s : Bytes} (h : (readToken s).1.type ≠ .endOfStream) : (readToken s).2.length < s.length := by
  have hspaces : skipSpaces s <:+ s := List.dropWhile_suffix _
  rcases readToken_cases s with ⟨-, hend, -⟩ | ⟨c, t, hstart, -, hnext⟩
  · exact absurd hend h
  · have hlexeme := (lexeme_lexed c t).suffix.length_le
    have hlen := hspaces.length_le
    rw [hstart, List.length_cons] at hlen
    rw [hnext]
    omega

def skipCommentTokens (s : Bytes) : Token × Bytes :=
  if (readToken s).1.type = .comment then skipCommentTokens (readToken s).2 else readToken s
termination_by s.length
decreasing_by
  rename_i h
  apply length_readToken_lt
  rw [h]
  exact TokenType.noConfusion

/-- The tokens of a document, up to its end or to a zero byte. -/
def tokens (s : Bytes) : List Token :=
  if (readToken s).1.type = .endOfStream then [] else (readToken s).1 :: tokens (readToken s).2
termination_by s.length
decreasing_by
  rename_i h
  exact length_readToken_lt h

/-! ### Strings and numbers -/

def hexValue (c : UInt8) : Option ℕ :=
  if 48 ≤ c ∧ c ≤ 57 then some (c.toNat - 48)
  else if 97 ≤ c ∧ c ≤ 102 then some (c.toNat - 87)
  else if 65 ≤ c ∧ c ≤ 70 then some (c.toNat - 55)
  else none

def decodeUnicodeEscapeSequence : Bytes → Option (ℕ × Bytes)
  | a :: b :: c :: d :: s => do
    let a ← hexValue a
    let b ← hexValue b
    let c ← hexValue c
    let d ← hexValue d
    return (((a * 16 + b) * 16 + c) * 16 + d, s)
  | _ => none

/-- `decodeUnicodeCodePoint`. What follows a high surrogate must be an escape sequence, of any value. -/
def decodeUnicodeCodePoint (s : Bytes) : Option (ℕ × Bytes) := do
  let high ← decodeUnicodeEscapeSequence s
  if 0xD800 ≤ high.1 ∧ high.1 ≤ 0xDBFF then
    if [92, 117].isPrefixOf high.2 then
      let low ← decodeUnicodeEscapeSequence (high.2.drop 2)
      return (0x10000 + high.1 % 0x400 * 0x400 + low.1 % 0x400, low.2)
    else none
  else return high

def codePointToUTF8 (cp : ℕ) : Bytes :=
  if cp ≤ 0x7F then [UInt8.ofNat cp]
  else if cp ≤ 0x7FF then [UInt8.ofNat (0xC0 + cp / 64 % 32), UInt8.ofNat (0x80 + cp % 64)]
  else if cp ≤ 0xFFFF then
    [UInt8.ofNat (0xE0 + cp / 4096 % 16), UInt8.ofNat (0x80 + cp / 64 % 64), UInt8.ofNat (0x80 + cp % 64)]
  else if cp ≤ 0x10FFFF then
    [UInt8.ofNat (0xF0 + cp / 262144 % 8), UInt8.ofNat (0x80 + cp / 4096 % 64), UInt8.ofNat (0x80 + cp / 64 % 64),
      UInt8.ofNat (0x80 + cp % 64)]
  else []

def simpleEscape (c : UInt8) : Option UInt8 :=
  if c = 34 ∨ c = 47 ∨ c = 92 then some c
  else if c = 98 then some 8
  else if c = 102 then some 12
  else if c = 110 then some 10
  else if c = 114 then some 13
  else if c = 116 then some 9
  else none

theorem length_decodeUnicodeEscapeSequence_lt {s : Bytes} {unicode : ℕ × Bytes}
    (h : decodeUnicodeEscapeSequence s = some unicode) : unicode.2.length < s.length := by
  unfold decodeUnicodeEscapeSequence at h
  split at h
  · simp only [Option.bind_eq_bind, Option.bind_eq_some_iff] at h
    obtain ⟨a, -, b, -, c, -, d, -, h⟩ := h
    cases h
    simp only [List.length_cons]
    omega
  · cases h

theorem length_decodeUnicodeCodePoint_lt {s : Bytes} {unicode : ℕ × Bytes}
    (h : decodeUnicodeCodePoint s = some unicode) : unicode.2.length < s.length := by
  rw [decodeUnicodeCodePoint, Option.bind_eq_bind, Option.bind_eq_some_iff] at h
  obtain ⟨high, hhigh, h⟩ := h
  have hlen := length_decodeUnicodeEscapeSequence_lt hhigh
  split_ifs at h
  · rw [Option.bind_eq_some_iff] at h
    obtain ⟨low, hlow, h⟩ := h
    cases h
    have hlow := length_decodeUnicodeEscapeSequence_lt hlow
    rw [List.length_drop] at hlow
    show low.2.length < s.length
    omega
  · cases h
    exact hlen

/-- The loop of `decodeString`. -/
def decodeChars (s : Bytes) : Option Bytes :=
  match s with
  | [] => some []
  | c :: s =>
    if c = 34 then some []
    else if c = 92 then
      match s with
      | [] => none
      | escape :: s =>
        if escape = 117 then
          match _h : decodeUnicodeCodePoint s with
          | none => none
          | some unicode => (decodeChars unicode.2).map (codePointToUTF8 unicode.1 ++ ·)
        else (simpleEscape escape).bind fun decoded => (decodeChars s).map (decoded :: ·)
    else (decodeChars s).map (c :: ·)
termination_by s.length
decreasing_by
  · have hlt := length_decodeUnicodeCodePoint_lt _h
    simp only [List.length_cons]
    omega
  · simp only [List.length_cons]
    omega
  · simp

def decodeString (text : Bytes) : Option Bytes := decodeChars text.tail.dropLast

/-- The conversions of the standard library between numbers with a fraction and texts. -/
structure FloatText where
  read : Bytes → Option Rat
  write : Rat → Bytes

/-- The loop of `decodeNumber`, which gives up before the value would exceed the largest one. -/
def decodeDigits (maxIntegerValue value : ℕ) : Bytes → Option ℕ
  | [] => some value
  | c :: s =>
    if Numeral.isDigit c then
      let digit := c.toNat - 48
      let threshold := maxIntegerValue / 10
      if threshold ≤ value ∧ (threshold < value ∨ s ≠ [] ∨ maxIntegerValue % 10 < digit) then none
      else decodeDigits maxIntegerValue (value * 10 + digit) s
    else none

/-- `decodeNumber`. A minus sign alone is zero. -/
def decodeNumber (F : FloatText) (text : Bytes) : Option Json :=
  let isNegative := text.head? = some 45
  let maxIntegerValue := if isNegative then 2 ^ 63 else 2 ^ 64 - 1
  match decodeDigits maxIntegerValue 0 (if isNegative then text.tail else text) with
  | some value => some (.int (if isNegative then -value else value))
  | none => (F.read text).map .real

/-! ### Values -/

def orFails {α : Type} : Option α → Except Stop α
  | some a => .ok a
  | none => .error .fails

section

variable (readValue : Bytes → Except Stop (Json × Bytes))

/-- The loop of `readArray`. -/
def readElements : ℕ → Bytes → Except Stop (List Json × Bytes)
  | 0, _ => .error .fails
  | k + 1, s => do
    let value ← readValue s
    let token := skipCommentTokens value.2
    match token.1.type with
    | .arrayEnd => return ([value.1], token.2)
    | .arraySeparator =>
      let values ← readElements k token.2
      return (value.1 :: values.1, values.2)
    | _ => .error .fails

def readArray (s : Bytes) : Except Stop (List Json × Bytes) :=
  let start := skipSpaces s
  if start.head? = some 93 then .ok ([], start.tail) else readElements readValue (start.length + 1) start

/-- The loop of `readObject`, with the name of the member before. After a comment, any token but the end of the object
stands for a comma. -/
def readMembers : ℕ → Bytes → List (Bytes × Json) → Bytes → Except Stop (List (Bytes × Json) × Bytes)
  | 0, _, _, _ => .error .fails
  | k + 1, name, members, s =>
    let tokenName := skipCommentTokens s
    match tokenName.1.type with
    | .objectEnd => if name = [] then .ok (members, tokenName.2) else .error .fails
    | .string => do
      let name ← orFails (decodeString tokenName.1.text)
      let colon := readToken tokenName.2
      if colon.1.type = .memberSeparator then
        let value ← readValue colon.2
        let members := setMember name value.1 members
        let comma := readToken value.2
        match comma.1.type with
        | .objectEnd => return (members, comma.2)
        | .arraySeparator => readMembers k name members comma.2
        | .comment =>
          let comma := skipCommentTokens comma.2
          if comma.1.type = .objectEnd then return (members, comma.2) else readMembers k name members comma.2
        | _ => .error .fails
      else .error .fails
    | _ => .error .fails

def readObject (s : Bytes) : Except Stop (List (Bytes × Json) × Bytes) := readMembers readValue (s.length + 1) [] [] s

end

/-- `readValue`, where so many more values may be nested. -/
def readValue (F : FloatText) : ℕ → Bytes → Except Stop (Json × Bytes)
  | 0, _ => .error .raises
  | n + 1, s =>
    let token := skipCommentTokens s
    match token.1.type with
    | .objectBegin => do
      let members ← readObject (readValue F n) token.2
      return (.object members.1, members.2)
    | .arrayBegin => do
      let values ← readArray (readValue F n) token.2
      return (.array values.1, values.2)
    | .number => do
      let decoded ← orFails (decodeNumber F token.1.text)
      return (decoded, token.2)
    | .string => do
      let decoded ← orFails (decodeString token.1.text)
      return (.string decoded, token.2)
    | .true => .ok (.bool true, token.2)
    | .false => .ok (.bool false, token.2)
    | .null => .ok (.null, token.2)
    | _ => .error .fails

def stackLimit : ℕ := 1000

/-- `Reader::parse`. -/
def parse (F : FloatText) (document : Bytes) : Parsed :=
  match readValue F stackLimit document with
  | .ok value => .value value.1
  | .error .raises => .raises
  | .error .fails => .fails

/-! ### How far a reading goes -/

theorem skipCommentTokens_of_comment {s : Bytes} (h : (readToken s).1.type = .comment) :
    skipCommentTokens s = skipCommentTokens (readToken s).2 := by
  rw [skipCommentTokens, if_pos h]

theorem skipCommentTokens_of_ne {s : Bytes} (h : (readToken s).1.type ≠ .comment) : skipCommentTokens s = readToken s := by
  rw [skipCommentTokens, if_neg h]

theorem skipCommentTokens_suffix (s : Bytes) : (skipCommentTokens s).2 <:+ s := by
  induction s using skipCommentTokens.induct with
  | case1 s hcomment ih =>
      rw [skipCommentTokens_of_comment hcomment]
      exact ih.trans (readToken_suffix s)
  | case2 s hcomment =>
      rw [skipCommentTokens_of_ne hcomment]
      exact readToken_suffix s

theorem length_skipCommentTokens_lt {s : Bytes} (h : (skipCommentTokens s).1.type ≠ .endOfStream) :
    (skipCommentTokens s).2.length < s.length := by
  induction s using skipCommentTokens.induct with
  | case1 s hcomment ih =>
      rw [skipCommentTokens_of_comment hcomment] at h ⊢
      have hlen := (readToken_suffix s).length_le
      have hnext := ih h
      omega
  | case2 s hcomment =>
      rw [skipCommentTokens_of_ne hcomment] at h ⊢
      exact length_readToken_lt h

/-- A later position. -/
def Later (t s : Bytes) : Prop := t <:+ s ∧ t.length < s.length

theorem Later.trans_suffix {t u s : Bytes} (h : t <:+ u) (hu : Later u s) : Later t s :=
  ⟨h.trans hu.1, h.length_le.trans_lt hu.2⟩

def Advances {α : Type} (read : Bytes → Except Stop (α × Bytes)) : Prop := ∀ s r, read s = .ok r → Later r.2 s

section

variable {read : Bytes → Except Stop (Json × Bytes)} {k : ℕ} {s name : Bytes} {members : List (Bytes × Json)}

/-- One round of the loop over an array: an element is read, and it is the last one or there are more. -/
theorem readElements_cases {r : List Json × Bytes} (h : readElements read (k + 1) s = .ok r) :
    ∃ value t, read s = .ok value ∧ t <:+ value.2 ∧
      (r = ([value.1], t) ∨ ∃ values, readElements read k t = .ok values ∧ r = (value.1 :: values.1, values.2)) := by
  rw [readElements, bind_returns] at h
  obtain ⟨value, hvalue, h⟩ := h
  refine ⟨value, _, hvalue, skipCommentTokens_suffix value.2, ?_⟩
  dsimp only at h
  split at h
  · left
    cases h
    rfl
  · rw [bind_returns] at h
    obtain ⟨values, hvalues, h⟩ := h
    cases h
    exact .inr ⟨values, hvalues, rfl⟩
  · cases h

/-- One round of the loop over an object: it ends, or a member is read, and it is the last one or the loop goes on. -/
theorem readMembers_cases {r : List (Bytes × Json) × Bytes} (h : readMembers read (k + 1) name members s = .ok r) :
    r.1 = members ∧ Later r.2 s ∨
      ∃ name u value t, Later u s ∧ read u = .ok value ∧ t <:+ value.2 ∧
        (r = (setMember name value.1 members, t) ∨
          readMembers read k name (setMember name value.1 members) t = .ok r) := by
  have htoken := skipCommentTokens_suffix s
  have hlater : (skipCommentTokens s).1.type ≠ .endOfStream → Later (skipCommentTokens s).2 s :=
    fun hne => ⟨htoken, length_skipCommentTokens_lt hne⟩
  rw [readMembers] at h
  dsimp only at h
  split at h
  · rename_i hend
    left
    split at h
    · cases h
      exact ⟨rfl, hlater (by simp [hend])⟩
    · cases h
  · rename_i hstring
    right
    rw [bind_returns] at h
    obtain ⟨name', -, h⟩ := h
    split at h
    · rw [bind_returns] at h
      obtain ⟨value, hvalue, h⟩ := h
      have hcomma := readToken_suffix value.2
      have hcolon : Later (readToken (skipCommentTokens s).2).2 s :=
        .trans_suffix (readToken_suffix _) (hlater (by simp [hstring]))
      split at h
      · cases h
        exact ⟨name', _, value, _, hcolon, hvalue, hcomma, .inl rfl⟩
      · exact ⟨name', _, value, _, hcolon, hvalue, hcomma, .inr h⟩
      · have hcomment := (skipCommentTokens_suffix (readToken value.2).2).trans hcomma
        split at h
        · cases h
          exact ⟨name', _, value, _, hcolon, hvalue, hcomment, .inl rfl⟩
        · exact ⟨name', _, value, _, hcolon, hvalue, hcomment, .inr h⟩
      · cases h
    · cases h
  · cases h

theorem readElements_advances (hread : Advances read) (k : ℕ) : Advances (readElements read k) := by
  induction k with
  | zero => exact fun s r h => nomatch h
  | succ k ih =>
      intro s r h
      obtain ⟨value, t, hvalue, ht, hend | ⟨values, hvalues, hmore⟩⟩ := readElements_cases h
      · rw [hend]
        exact .trans_suffix ht (hread s value hvalue)
      · rw [hmore]
        exact .trans_suffix ((ih t values hvalues).1.trans ht) (hread s value hvalue)

theorem readMembers_advances (hread : Advances read) (k : ℕ) (name : Bytes) (members : List (Bytes × Json)) :
    Advances (readMembers read k name members) := by
  induction k generalizing name members with
  | zero => exact fun s r h => nomatch h
  | succ k ih =>
      intro s r h
      rcases readMembers_cases h with ⟨-, hend⟩ | ⟨name', u, value, t, hu, hvalue, ht, hlast | hmore⟩
      · exact hend
      · rw [hlast]
        exact .trans_suffix (ht.trans (hread u value hvalue).1) hu
      · exact .trans_suffix (((ih _ _ t r hmore).1.trans ht).trans (hread u value hvalue).1) hu

end

theorem readArray_cases {read : Bytes → Except Stop (Json × Bytes)} {s : Bytes} {r : List Json × Bytes}
    (h : readArray read s = .ok r) :
    (r.1 = [] ∧ r.2 <:+ s) ∨ ∃ k t, t <:+ s ∧ readElements read k t = .ok r := by
  have hspaces : skipSpaces s <:+ s := List.dropWhile_suffix _
  rw [readArray] at h
  split at h
  · cases h
    exact .inl ⟨rfl, (List.tail_suffix _).trans hspaces⟩
  · exact .inr ⟨_, _, hspaces, h⟩

/-- What is read without a further value. -/
inductive Scalar (F : FloatText) : Json → Prop
  | number {text : Bytes} {j : Json} (h : decodeNumber F text = some j) : Scalar F j
  | string (s : Bytes) : Scalar F (.string s)
  | bool (b : Bool) : Scalar F (.bool b)
  | null : Scalar F .null

/-- A value begins with a token, and is an object, an array or nothing but that token. -/
theorem readValue_cases {F : FloatText} {n : ℕ} {s : Bytes} {r : Json × Bytes} (h : readValue F (n + 1) s = .ok r) :
    ∃ t, Later t s ∧
      ((∃ members, readObject (readValue F n) t = .ok members ∧ r = (.object members.1, members.2)) ∨
        (∃ values, readArray (readValue F n) t = .ok values ∧ r = (.array values.1, values.2)) ∨
          Scalar F r.1 ∧ r.2 = t) := by
  have hlater : (skipCommentTokens s).1.type ≠ .endOfStream → Later (skipCommentTokens s).2 s :=
    fun hne => ⟨skipCommentTokens_suffix s, length_skipCommentTokens_lt hne⟩
  rw [readValue] at h
  split at h
  · rename_i htype
    rw [bind_returns] at h
    obtain ⟨members, hmembers, h⟩ := h
    cases h
    exact ⟨_, hlater (by simp [htype]), .inl ⟨members, hmembers, rfl⟩⟩
  · rename_i htype
    rw [bind_returns] at h
    obtain ⟨values, hvalues, h⟩ := h
    cases h
    exact ⟨_, hlater (by simp [htype]), .inr (.inl ⟨values, hvalues, rfl⟩)⟩
  · rename_i htype
    rw [bind_returns] at h
    obtain ⟨decoded, hdecoded, h⟩ := h
    cases h
    cases hnumber : decodeNumber F (skipCommentTokens s).1.text with
    | none =>
        rw [hnumber] at hdecoded
        cases hdecoded
    | some j =>
        rw [hnumber] at hdecoded
        cases hdecoded
        exact ⟨_, hlater (by simp [htype]), .inr (.inr ⟨.number hnumber, rfl⟩)⟩
  · rename_i htype
    rw [bind_returns] at h
    obtain ⟨decoded, -, h⟩ := h
    cases h
    exact ⟨_, hlater (by simp [htype]), .inr (.inr ⟨.string decoded, rfl⟩)⟩
  · rename_i htype
    cases h
    exact ⟨_, hlater (by simp [htype]), .inr (.inr ⟨.bool true, rfl⟩)⟩
  · rename_i htype
    cases h
    exact ⟨_, hlater (by simp [htype]), .inr (.inr ⟨.bool false, rfl⟩)⟩
  · rename_i htype
    cases h
    exact ⟨_, hlater (by simp [htype]), .inr (.inr ⟨.null, rfl⟩)⟩
  · cases h

theorem readValue_advances (F : FloatText) (n : ℕ) : Advances (readValue F n) := by
  induction n with
  | zero => exact fun s r h => nomatch h
  | succ n ih =>
      intro s r h
      obtain ⟨t, ht, ⟨members, hmembers, hr⟩ | ⟨values, hvalues, hr⟩ | ⟨-, hr⟩⟩ := readValue_cases h
      · rw [hr]
        exact .trans_suffix (readMembers_advances ih _ _ _ _ _ hmembers).1 ht
      · rw [hr]
        rcases readArray_cases hvalues with ⟨-, hnext⟩ | ⟨k, u, hu, hvalues⟩
        · exact .trans_suffix hnext ht
        · exact .trans_suffix ((readElements_advances ih _ _ _ hvalues).1.trans hu) ht
      · rw [hr]
        exact ht

/-! The loops make no more rounds than there are characters, so that their bounds are never reached. -/

section

variable {read : Bytes → Except Stop (Json × Bytes)}

theorem readElements_of_lt (hread : Advances read) {k k' : ℕ} {s : Bytes} (hk : s.length < k) (hk' : s.length < k') :
    readElements read k s = readElements read k' s := by
  induction k generalizing k' s with
  | zero => cases hk
  | succ k ih =>
      cases k' with
      | zero => cases hk'
      | succ k' =>
          rw [readElements, readElements]
          cases hvalue : read s with
          | error e => rfl
          | ok value =>
              have hnext := Later.trans_suffix (skipCommentTokens_suffix value.2) (hread s value hvalue)
              have hmore := @ih k' (skipCommentTokens value.2).2 (by have := hnext.2; omega) (by have := hnext.2; omega)
              simp only [ok_bind, hmore]

theorem readMembers_of_lt (hread : Advances read) {k k' : ℕ} {s name : Bytes} {members : List (Bytes × Json)}
    (hk : s.length < k) (hk' : s.length < k') :
    readMembers read k name members s = readMembers read k' name members s := by
  induction k generalizing k' s name members with
  | zero => cases hk
  | succ k ih =>
      cases k' with
      | zero => cases hk'
      | succ k' =>
          rw [readMembers, readMembers]
          dsimp only
          split
          · rfl
          · rename_i hstring
            have htoken : Later (skipCommentTokens s).2 s :=
              ⟨skipCommentTokens_suffix s, length_skipCommentTokens_lt (by simp [hstring])⟩
            cases orFails (decodeString (skipCommentTokens s).1.text) with
            | error e => rfl
            | ok name' =>
                rw [ok_bind, ok_bind]
                split
                · cases hvalue : read (readToken (skipCommentTokens s).2).2 with
                  | error e => rfl
                  | ok value =>
                      have hbefore : Later value.2 s :=
                        .trans_suffix ((hread _ value hvalue).1.trans (readToken_suffix _)) htoken
                      have hmore : ∀ {t members}, t <:+ value.2 →
                          readMembers read k name' members t = readMembers read k' name' members t := by
                        intro t members ht
                        have hlater := (Later.trans_suffix ht hbefore).2
                        exact ih (by omega) (by omega)
                      have hcomma := readToken_suffix value.2
                      rw [ok_bind, ok_bind, hmore hcomma, hmore ((skipCommentTokens_suffix _).trans hcomma)]
                · rfl
          · rfl

end

/-! ### What is accepted is well formed -/

theorem decodeDigits_le {maxIntegerValue value n : ℕ} {s : Bytes} (h : decodeDigits maxIntegerValue value s = some n)
    (hvalue : value ≤ maxIntegerValue) : n ≤ maxIntegerValue := by
  induction s generalizing value with
  | nil =>
      cases h
      exact hvalue
  | cons c s ih =>
      rw [decodeDigits] at h
      dsimp only at h
      split_ifs at h with hdigit hlarge
      refine ih h ?_
      have hle : c.toNat - 48 ≤ 9 := by
        simp only [Numeral.isDigit, Bool.and_eq_true, decide_eq_true_eq, UInt8.le_iff_toNat_le, UInt8.toNat_ofNat] at hdigit
        omega
      rw [not_and_or, not_or, not_or] at hlarge
      omega

theorem wellFormed_decodeNumber {F : FloatText} {text : Bytes} {j : Json} (h : decodeNumber F text = some j) :
    j.WellFormed ∧ j.depth = 1 := by
  rw [decodeNumber] at h
  split at h
  · rename_i n hdigits
    have hle := decodeDigits_le hdigits (Nat.zero_le _)
    cases h
    refine ⟨?_, rfl⟩
    show -2 ^ 63 ≤ _ ∧ _ < 2 ^ 64
    split_ifs at hle ⊢
    · omega
    · omega
  · rw [Option.map_eq_some_iff] at h
    obtain ⟨x, -, rfl⟩ := h
    exact ⟨trivial, rfl⟩

/-- What the library could have built, with so many values nested. -/
def Held (n : ℕ) (j : Json) : Prop := j.WellFormed ∧ j.depth ≤ n

theorem Scalar.held {F : FloatText} {j : Json} (h : Scalar F j) (n : ℕ) : Held (n + 1) j := by
  have hone : 1 ≤ n + 1 := Nat.succ_le_succ (Nat.zero_le n)
  cases h with
  | number h =>
      obtain ⟨hwellFormed, hdepth⟩ := wellFormed_decodeNumber h
      exact ⟨hwellFormed, by rw [hdepth]; exact hone⟩
  | string s => exact ⟨trivial, hone⟩
  | bool b => exact ⟨trivial, hone⟩
  | null => exact ⟨trivial, hone⟩

section

variable {read : Bytes → Except Stop (Json × Bytes)} {n k : ℕ} {s : Bytes}

theorem readElements_held (hread : ∀ s r, read s = .ok r → Held n r.1) {r : List Json × Bytes}
    (h : readElements read k s = .ok r) : ∀ x ∈ r.1, Held n x := by
  induction k generalizing s r with
  | zero => cases h
  | succ k ih =>
      obtain ⟨value, t, hvalue, -, hlast | ⟨values, hvalues, hmore⟩⟩ := readElements_cases h
      · rw [hlast]
        intro x hx
        rw [List.mem_singleton.1 hx]
        exact hread s value hvalue
      · rw [hmore]
        intro x hx
        rcases List.mem_cons.1 hx with rfl | hx
        · exact hread s value hvalue
        · exact ih hvalues x hx

theorem readMembers_held (hread : ∀ s r, read s = .ok r → Held n r.1) {name : Bytes} {members : List (Bytes × Json)}
    {r : List (Bytes × Json) × Bytes} (h : readMembers read k name members s = .ok r)
    (hmembers : ascending members = true ∧ ∀ m ∈ members, Held n m.2) :
    ascending r.1 = true ∧ ∀ m ∈ r.1, Held n m.2 := by
  have hset : ∀ {value u name} {members : List (Bytes × Json)}, read u = .ok value →
      (ascending members = true ∧ ∀ m ∈ members, Held n m.2) →
        ascending (setMember name value.1 members) = true ∧ ∀ m ∈ setMember name value.1 members, Held n m.2 := by
    intro value u name members hvalue hmembers
    refine ⟨ascending_setMember hmembers.1 _ _, fun m hm => ?_⟩
    rcases mem_setMember hm with rfl | hm
    · exact hread u value hvalue
    · exact hmembers.2 m hm
  induction k generalizing s name members with
  | zero => cases h
  | succ k ih =>
      rcases readMembers_cases h with ⟨hsame, -⟩ | ⟨name', u, value, t, -, hvalue, -, hlast | hmore⟩
      · rw [hsame]
        exact hmembers
      · rw [hlast]
        exact hset hvalue hmembers
      · exact ih hmore (hset hvalue hmembers)

end

theorem readValue_held (F : FloatText) (n : ℕ) {s : Bytes} {r : Json × Bytes} (h : readValue F n s = .ok r) :
    Held n r.1 := by
  induction n generalizing s r with
  | zero => cases h
  | succ n ih =>
      have hread : ∀ s r, readValue F n s = .ok r → Held n r.1 := fun _ _ h => ih h
      obtain ⟨t, -, ⟨members, hmembers, hr⟩ | ⟨values, hvalues, hr⟩ | ⟨hscalar, -⟩⟩ := readValue_cases h
      · obtain ⟨hascending, hheld⟩ := readMembers_held hread hmembers ⟨rfl, nofun⟩
        rw [hr, Held, wellFormed_object, depth_object_le_iff]
        exact ⟨⟨hascending, fun m hm => (hheld m hm).1⟩, fun m hm => (hheld m hm).2⟩
      · have hheld : ∀ x ∈ values.1, Held n x := by
          rcases readArray_cases hvalues with ⟨hempty, -⟩ | ⟨k, u, -, hvalues⟩
          · rw [hempty]
            exact nofun
          · exact readElements_held hread hvalues
        rw [hr, Held, wellFormed_array, depth_array_le_iff]
        exact ⟨fun x hx => (hheld x hx).1, fun x hx => (hheld x hx).2⟩
      · exact hscalar.held n

/-! ### What raises is nested deep -/

def openings (s : Bytes) : ℕ := s.countP opening

theorem openings_le {t s : Bytes} (h : t <:+ s) : openings t ≤ openings s := h.sublist.countP_le

theorem openings_readToken {s : Bytes} (h : (readToken s).1.type.opens = true) :
    openings (readToken s).2 < openings s := by
  have hspaces : skipSpaces s <:+ s := List.dropWhile_suffix _
  rcases readToken_cases s with ⟨-, hend, -⟩ | ⟨c, t, hstart, htype, hnext⟩
  · rw [hend] at h
    cases h
  · rw [htype] at h
    obtain ⟨hc, hsame⟩ := (lexeme_lexed c t).opens h
    have hle := openings_le hspaces
    rw [hstart, openings, List.countP_cons_of_pos hc] at hle
    rw [hnext, hsame]
    exact hle

theorem openings_skipCommentTokens {s : Bytes} (h : (skipCommentTokens s).1.type.opens = true) :
    openings (skipCommentTokens s).2 < openings s := by
  induction s using skipCommentTokens.induct with
  | case1 s hcomment ih =>
      rw [skipCommentTokens_of_comment hcomment] at h ⊢
      exact (ih h).trans_le (openings_le (readToken_suffix s))
  | case2 s hcomment =>
      rw [skipCommentTokens_of_ne hcomment] at h ⊢
      exact openings_readToken h

theorem bind_raises {α β : Type} {x : Except Stop α} {f : α → Except Stop β} (h : (x >>= f) = .error .raises) :
    x = .error .raises ∨ ∃ a, x = .ok a ∧ f a = .error .raises := by
  cases x with
  | error e => exact .inl (congrArg Except.error (Except.error.inj h))
  | ok a => exact .inr ⟨a, rfl, h⟩

theorem orFails_ne {α : Type} (x : Option α) : orFails x ≠ .error .raises := by
  cases x with
  | none =>
      intro h
      cases h
  | some a =>
      intro h
      cases h

section

variable {read : Bytes → Except Stop (Json × Bytes)} {k : ℕ} {s : Bytes}

theorem readElements_raises (hread : Advances read) (h : readElements read k s = .error .raises) :
    ∃ u, u <:+ s ∧ read u = .error .raises := by
  induction k generalizing s with
  | zero => cases h
  | succ k ih =>
      rw [readElements] at h
      rcases bind_raises h with h | ⟨value, hvalue, h⟩
      · exact ⟨s, List.suffix_rfl, h⟩
      · have htoken := (skipCommentTokens_suffix value.2).trans (hread s value hvalue).1
        dsimp only at h
        split at h
        · cases h
        · rcases bind_raises h with h | ⟨values, -, h⟩
          · obtain ⟨u, hu, hraises⟩ := ih h
            exact ⟨u, hu.trans htoken, hraises⟩
          · cases h
        · cases h

theorem readMembers_raises (hread : Advances read) {name : Bytes} {members : List (Bytes × Json)}
    (h : readMembers read k name members s = .error .raises) : ∃ u, u <:+ s ∧ read u = .error .raises := by
  induction k generalizing s name members with
  | zero => cases h
  | succ k ih =>
      have htoken := skipCommentTokens_suffix s
      rw [readMembers] at h
      dsimp only at h
      split at h
      · split at h
        · cases h
        · cases h
      · rcases bind_raises h with h | ⟨name', -, h⟩
        · exact absurd h (orFails_ne _)
        · split at h
          · have hcolon := (readToken_suffix (skipCommentTokens s).2).trans htoken
            rcases bind_raises h with h | ⟨value, hvalue, h⟩
            · exact ⟨_, hcolon, h⟩
            · have hcomma := ((readToken_suffix value.2).trans (hread _ value hvalue).1).trans hcolon
              split at h
              · cases h
              · obtain ⟨u, hu, hraises⟩ := ih h
                exact ⟨u, hu.trans hcomma, hraises⟩
              · split at h
                · cases h
                · obtain ⟨u, hu, hraises⟩ := ih h
                  exact ⟨u, (hu.trans (skipCommentTokens_suffix _)).trans hcomma, hraises⟩
              · cases h
          · cases h
      · cases h

theorem readArray_raises (hread : Advances read) (h : readArray read s = .error .raises) :
    ∃ u, u <:+ s ∧ read u = .error .raises := by
  have hspaces : skipSpaces s <:+ s := List.dropWhile_suffix _
  rw [readArray] at h
  split at h
  · cases h
  · obtain ⟨u, hu, hraises⟩ := readElements_raises hread h
    exact ⟨u, hu.trans hspaces, hraises⟩

end

theorem readValue_raises (F : FloatText) {n : ℕ} {s : Bytes} (h : readValue F n s = .error .raises) : n ≤ openings s := by
  induction n generalizing s with
  | zero => exact Nat.zero_le _
  | succ n ih =>
      have hopen : (skipCommentTokens s).1.type.opens = true → ∀ u, u <:+ (skipCommentTokens s).2 →
          readValue F n u = .error .raises → n + 1 ≤ openings s := by
        intro htype u hu hraises
        have hcount := openings_skipCommentTokens htype
        have hle := openings_le hu
        have hinner := ih hraises
        omega
      rw [readValue] at h
      split at h
      · rename_i htype
        rcases bind_raises h with h | ⟨members, -, h⟩
        · obtain ⟨u, hu, hraises⟩ := readMembers_raises (readValue_advances F n) h
          exact hopen (by rw [htype]; rfl) u hu hraises
        · cases h
      · rename_i htype
        rcases bind_raises h with h | ⟨values, -, h⟩
        · obtain ⟨u, hu, hraises⟩ := readArray_raises (readValue_advances F n) h
          exact hopen (by rw [htype]; rfl) u hu hraises
        · cases h
      · rcases bind_raises h with h | ⟨decoded, -, h⟩
        · exact absurd h (orFails_ne _)
        · cases h
      · rcases bind_raises h with h | ⟨decoded, -, h⟩
        · exact absurd h (orFails_ne _)
        · cases h
      · cases h
      · cases h
      · cases h
      · cases h

end CvmAttestation.Client.JsonReader
