import CvmAttestation.BaseBytes
import Mathlib.Data.List.Basic
import Mathlib.Tactic

/-! UTF-8 with 32-bit code units on the wide side. The encoder rejects surrogates and values above
`0x10FFFF`. The decoder tells a malformed sequence from one that the end of the input cuts short:
`std::codecvt` reports the first as `error` and the second as `partial`, and callers treat the two
differently. Decoding always splits its input into the encoding of the code units it produced and the
bytes it did not consume. -/

namespace CvmAttestation.Base.Utf8

/-- The encoding of one code unit, `none` for a value that is no Unicode scalar value. -/
def encodeScalar (c : UInt32) : Option Bytes :=
  let n := c.toNat
  if n < 0x80 then
    some [UInt8.ofNat n]
  else if n < 0x800 then
    some [UInt8.ofNat (0xC0 + n / 64), UInt8.ofNat (0x80 + n % 64)]
  else if n < 0x10000 then
    if 0xD800 ≤ n ∧ n ≤ 0xDFFF then none
    else some [UInt8.ofNat (0xE0 + n / 4096), UInt8.ofNat (0x80 + n / 64 % 64), UInt8.ofNat (0x80 + n % 64)]
  else if n ≤ 0x10FFFF then
    some [UInt8.ofNat (0xF0 + n / 262144), UInt8.ofNat (0x80 + n / 4096 % 64),
      UInt8.ofNat (0x80 + n / 64 % 64), UInt8.ofNat (0x80 + n % 64)]
  else none

def encode : List UInt32 → Option Bytes
  | [] => some []
  | c :: w =>
    match encodeScalar c, encode w with
    | some p, some q => some (p ++ q)
    | _, _ => none

/-- How a decoding ends: at the end of the input, in a sequence the input cuts short, or at a
malformed sequence. -/
inductive Status
  | complete
  | incomplete
  | invalid
  deriving DecidableEq, Repr

/-- What decoding has produced: the code units, the bytes not consumed, and how it ended. -/
structure Decoded where
  codes : List UInt32
  rest : Bytes
  status : Status
  deriving DecidableEq, Repr

def Decoded.push (c : Nat) (d : Decoded) : Decoded :=
  { d with codes := UInt32.ofNat c :: d.codes }

/-- The ranges the second byte of a sequence is restricted to by the first one: no overlong form, no
surrogate, nothing above `0x10FFFF`. -/
def secondOk (b1 b2 : Nat) : Bool :=
  0x80 ≤ b2 && b2 < 0xC0 && !(b1 == 0xE0 && b2 < 0xA0) && !(b1 == 0xED && 0xA0 ≤ b2) &&
    !(b1 == 0xF0 && b2 < 0x90) && !(b1 == 0xF4 && 0x90 ≤ b2)

def isContinuation (b : Nat) : Bool := 0x80 ≤ b && b < 0xC0

/-- `read_utf8_code_point` in a loop until the input ends or a sequence cannot be read. -/
def decode : Bytes → Decoded
  | [] => ⟨[], [], .complete⟩
  | a :: s =>
    if a.toNat < 0x80 then
      (decode s).push a.toNat
    else if a.toNat < 0xC2 ∨ 0xF5 ≤ a.toNat then
      ⟨[], a :: s, .invalid⟩
    else
      match s with
      | [] => ⟨[], [a], .incomplete⟩
      | b :: s =>
        if !secondOk a.toNat b.toNat then
          ⟨[], a :: b :: s, .invalid⟩
        else if a.toNat < 0xE0 then
          (decode s).push ((a.toNat - 0xC0) * 64 + (b.toNat - 0x80))
        else
          match s with
          | [] => ⟨[], [a, b], .incomplete⟩
          | c :: s =>
            if !isContinuation c.toNat then
              ⟨[], a :: b :: c :: s, .invalid⟩
            else if a.toNat < 0xF0 then
              (decode s).push ((a.toNat - 0xE0) * 4096 + (b.toNat - 0x80) * 64 + (c.toNat - 0x80))
            else
              match s with
              | [] => ⟨[], [a, b, c], .incomplete⟩
              | d :: s =>
                if !isContinuation d.toNat then
                  ⟨[], a :: b :: c :: d :: s, .invalid⟩
                else
                  (decode s).push ((a.toNat - 0xF0) * 262144 + (b.toNat - 0x80) * 4096 +
                    (c.toNat - 0x80) * 64 + (d.toNat - 0x80))

/-! ### One sequence -/

theorem toNat_code {n : Nat} (h : n ≤ 0x10FFFF) : (UInt32.ofNat n).toNat = n :=
  UInt32.toNat_ofNat_of_lt' (lt_of_le_of_lt h (by decide))

theorem encodeScalar_one {a : UInt8} (ha : a.toNat < 0x80) :
    encodeScalar (UInt32.ofNat a.toNat) = some [a] := by
  simp only [encodeScalar, toNat_code (by omega : a.toNat ≤ 0x10FFFF), if_pos ha, UInt8.ofNat_toNat]

theorem encodeScalar_two {a b : UInt8} (ha : 0xC2 ≤ a.toNat) (ha' : a.toNat < 0xE0)
    (hb : secondOk a.toNat b.toNat) :
    encodeScalar (UInt32.ofNat ((a.toNat - 0xC0) * 64 + (b.toNat - 0x80))) = some [a, b] := by
  simp only [secondOk, Bool.and_eq_true, decide_eq_true_eq] at hb
  obtain ⟨⟨⟨⟨⟨hb1, hb2⟩, -⟩, -⟩, -⟩, -⟩ := hb
  generalize hn : (a.toNat - 0xC0) * 64 + (b.toNat - 0x80) = n
  have h1 : 0xC0 + n / 64 = a.toNat := by omega
  have h2 : 0x80 + n % 64 = b.toNat := by omega
  simp only [encodeScalar, toNat_code (by omega : n ≤ 0x10FFFF), h1, h2, UInt8.ofNat_toNat]
  rw [if_neg (by omega), if_pos (by omega)]

theorem encodeScalar_three {a b c : UInt8} (ha : 0xE0 ≤ a.toNat) (ha' : a.toNat < 0xF0)
    (hb : secondOk a.toNat b.toNat) (hc : isContinuation c.toNat) :
    encodeScalar (UInt32.ofNat ((a.toNat - 0xE0) * 4096 + (b.toNat - 0x80) * 64 + (c.toNat - 0x80))) =
      some [a, b, c] := by
  simp only [secondOk, isContinuation, Bool.and_eq_true, decide_eq_true_eq, Bool.not_eq_true', Bool.and_eq_false_iff,
    decide_eq_false_iff_not, beq_eq_false_iff_ne] at hb hc
  obtain ⟨⟨⟨⟨⟨hb1, hb2⟩, he0⟩, hed⟩, -⟩, -⟩ := hb
  generalize hn : (a.toNat - 0xE0) * 4096 + (b.toNat - 0x80) * 64 + (c.toNat - 0x80) = n
  have h1 : 0xE0 + n / 4096 = a.toNat := by omega
  have h2 : 0x80 + n / 64 % 64 = b.toNat := by omega
  have h3 : 0x80 + n % 64 = c.toNat := by omega
  simp only [encodeScalar, toNat_code (by omega : n ≤ 0x10FFFF), h1, h2, h3, UInt8.ofNat_toNat]
  rw [if_neg (by omega), if_neg (by omega), if_pos (by omega), if_neg (by omega)]

theorem encodeScalar_four {a b c d : UInt8} (ha : 0xF0 ≤ a.toNat) (ha' : a.toNat < 0xF5)
    (hb : secondOk a.toNat b.toNat) (hc : isContinuation c.toNat) (hd : isContinuation d.toNat) :
    encodeScalar (UInt32.ofNat ((a.toNat - 0xF0) * 262144 + (b.toNat - 0x80) * 4096 +
      (c.toNat - 0x80) * 64 + (d.toNat - 0x80))) = some [a, b, c, d] := by
  simp only [secondOk, isContinuation, Bool.and_eq_true, decide_eq_true_eq, Bool.not_eq_true', Bool.and_eq_false_iff,
    decide_eq_false_iff_not, beq_eq_false_iff_ne] at hb hc hd
  obtain ⟨⟨⟨⟨⟨hb1, hb2⟩, -⟩, -⟩, hf0⟩, hf4⟩ := hb
  generalize hn : (a.toNat - 0xF0) * 262144 + (b.toNat - 0x80) * 4096 + (c.toNat - 0x80) * 64 +
    (d.toNat - 0x80) = n
  have h1 : 0xF0 + n / 262144 = a.toNat := by omega
  have h2 : 0x80 + n / 4096 % 64 = b.toNat := by omega
  have h3 : 0x80 + n / 64 % 64 = c.toNat := by omega
  have h4 : 0x80 + n % 64 = d.toNat := by omega
  simp only [encodeScalar, toNat_code (by omega : n ≤ 0x10FFFF), h1, h2, h3, h4, UInt8.ofNat_toNat]
  rw [if_neg (by omega), if_neg (by omega), if_neg (by omega), if_pos (by omega)]

theorem encodeScalar_length {c : UInt32} {p : Bytes} (h : encodeScalar c = some p) : 1 ≤ p.length := by
  simp only [encodeScalar] at h
  split_ifs at h <;> cases h <;> simp

/-! ### Whole strings -/

theorem encode_cons {c : UInt32} {w : List UInt32} {p q : Bytes} (hc : encodeScalar c = some p)
    (hw : encode w = some q) : encode (c :: w) = some (p ++ q) := by
  simp only [encode, hc, hw]

/-- No code unit is encoded in no byte. -/
theorem length_le_encode {w : List UInt32} {p : Bytes} (h : encode w = some p) : w.length ≤ p.length := by
  induction w generalizing p with
  | nil => exact Nat.zero_le _
  | cons c w ih =>
      rw [encode] at h
      split at h
      · rename_i q r hc hw
        cases h
        have hq := encodeScalar_length hc
        have hr := ih hw
        rw [List.length_append, List.length_cons]
        omega
      · cases h

/-- What a decoding `d` of `s` says about `s`: the code units encode the bytes consumed, and decoding
ends properly exactly when none are left. -/
structure Splits (s : Bytes) (d : Decoded) : Prop where
  consumed : ∃ p, encode d.codes = some p ∧ p ++ d.rest = s
  complete : d.status = .complete ↔ d.rest = []

theorem Splits.stop {s : Bytes} (h : s ≠ []) {st : Status} (hst : st ≠ .complete) : Splits s ⟨[], s, st⟩ :=
  ⟨⟨[], rfl, rfl⟩, ⟨fun hc => absurd hc hst, fun hc => absurd hc h⟩⟩

theorem Splits.push {s : Bytes} {d : Decoded} (h : Splits s d) {c : Nat} {p : Bytes}
    (hc : encodeScalar (UInt32.ofNat c) = some p) : Splits (p ++ s) (d.push c) := by
  obtain ⟨q, hq, hs⟩ := h.consumed
  refine ⟨⟨p ++ q, encode_cons hc hq, ?_⟩, h.complete⟩
  rw [List.append_assoc, Decoded.push, hs]

/-- **Decoding splits its input.** -/
theorem decode_splits (s : Bytes) : Splits s (decode s) := by
  fun_induction decode s with
  | case1 => exact ⟨⟨[], rfl, rfl⟩, by simp⟩
  | case2 a s ha ih => exact ih.push (encodeScalar_one ha)
  | case3 a s => exact Splits.stop (by simp) (by simp)
  | case4 a => exact Splits.stop (by simp) (by simp)
  | case5 a => exact Splits.stop (by simp) (by simp)
  | case6 a h1 h2 b s hb ha ih => exact ih.push (encodeScalar_two (by omega) ha (by simpa using hb))
  | case7 a => exact Splits.stop (by simp) (by simp)
  | case8 a => exact Splits.stop (by simp) (by simp)
  | case9 a h1 h2 b hb ha c s hc ha' ih =>
      exact ih.push (encodeScalar_three (by omega) ha' (by simpa using hb) (by simpa using hc))
  | case10 a => exact Splits.stop (by simp) (by simp)
  | case11 a => exact Splits.stop (by simp) (by simp)
  | case12 a h1 h2 b hb ha c hc ha' d s hd ih =>
      exact ih.push (encodeScalar_four (by omega) (by omega) (by simpa using hb) (by simpa using hc)
        (by simpa using hd))

theorem encodeScalar_char (c : Char) : encodeScalar c.val = some (String.utf8EncodeChar c) := by
  have hv : c.val.toNat < 0xD800 ∨ 0xDFFF < c.val.toNat ∧ c.val.toNat < 0x110000 := c.valid
  simp only [encodeScalar, String.utf8EncodeChar]
  generalize c.val.toNat = n at hv
  by_cases h1 : n < 0x80
  · rw [if_pos h1, if_pos (show n ≤ 127 by omega)]
  rw [if_neg h1, if_neg (show ¬n ≤ 127 by omega)]
  by_cases h2 : n < 0x800
  · have hm : n / 64 % 32 = n / 64 := by omega
    rw [if_pos h2, if_pos (show n ≤ 2047 by omega), hm, Nat.add_comm, Nat.add_comm (n % 64)]
  rw [if_neg h2, if_neg (show ¬n ≤ 2047 by omega)]
  by_cases h3 : n < 0x10000
  · have hm : n / 4096 % 16 = n / 4096 := by omega
    rw [if_pos h3, if_pos (show n ≤ 65535 by omega), if_neg (by omega), hm, Nat.add_comm,
      Nat.add_comm (n / 64 % 64), Nat.add_comm (n % 64)]
  · have hm : n / 262144 % 8 = n / 262144 := by omega
    rw [if_neg h3, if_neg (show ¬n ≤ 65535 by omega), if_pos (by omega), hm, Nat.add_comm,
      Nat.add_comm (n / 4096 % 64), Nat.add_comm (n / 64 % 64), Nat.add_comm (n % 64)]

theorem encode_chars (w : List Char) : encode (w.map Char.val) = some (w.flatMap String.utf8EncodeChar) := by
  induction w with
  | nil => rfl
  | cons c w ih => exact encode_cons (encodeScalar_char c) ih

/-! ### Sequences and their beginnings -/

/-- A well-formed sequence and the code unit it stands for. -/
inductive Sequence : Nat → Bytes → Prop
  | one {a : UInt8} (ha : a.toNat < 0x80) : Sequence a.toNat [a]
  | two {a b : UInt8} (ha : 0xC2 ≤ a.toNat) (ha' : a.toNat < 0xE0) (hb : secondOk a.toNat b.toNat = true) :
    Sequence ((a.toNat - 0xC0) * 64 + (b.toNat - 0x80)) [a, b]
  | three {a b c : UInt8} (ha : 0xE0 ≤ a.toNat) (ha' : a.toNat < 0xF0) (hb : secondOk a.toNat b.toNat = true)
    (hc : isContinuation c.toNat = true) :
    Sequence ((a.toNat - 0xE0) * 4096 + (b.toNat - 0x80) * 64 + (c.toNat - 0x80)) [a, b, c]
  | four {a b c d : UInt8} (ha : 0xF0 ≤ a.toNat) (ha' : a.toNat < 0xF5) (hb : secondOk a.toNat b.toNat = true)
    (hc : isContinuation c.toNat = true) (hd : isContinuation d.toNat = true) :
    Sequence ((a.toNat - 0xF0) * 262144 + (b.toNat - 0x80) * 4096 + (c.toNat - 0x80) * 64 + (d.toNat - 0x80))
      [a, b, c, d]

theorem toNat_byte {n : Nat} (h : n < 256) : (UInt8.ofNat n).toNat = n := UInt8.toNat_ofNat_of_lt' h

theorem sequence_of_encodeScalar {c : UInt32} {p : Bytes} (h : encodeScalar c = some p) : Sequence c.toNat p := by
  rw [encodeScalar] at h
  generalize c.toNat = n at h ⊢
  split_ifs at h with h1 h2 h3 hsurrogate h4
  · cases h
    have ha := toNat_byte (show n < 256 by omega)
    have hs : Sequence (UInt8.ofNat n).toNat [UInt8.ofNat n] := .one (by omega)
    rwa [ha] at hs
  · cases h
    have ha := toNat_byte (show 0xC0 + n / 64 < 256 by omega)
    have hb := toNat_byte (show 0x80 + n % 64 < 256 by omega)
    have hs := @Sequence.two (UInt8.ofNat (0xC0 + n / 64)) (UInt8.ofNat (0x80 + n % 64)) (by omega) (by omega)
      (by rw [ha, hb]; simp [secondOk]; omega)
    have hn : (0xC0 + n / 64 - 0xC0) * 64 + (0x80 + n % 64 - 0x80) = n := by omega
    rwa [ha, hb, hn] at hs
  · cases h
    have ha := toNat_byte (show 0xE0 + n / 4096 < 256 by omega)
    have hb := toNat_byte (show 0x80 + n / 64 % 64 < 256 by omega)
    have hc := toNat_byte (show 0x80 + n % 64 < 256 by omega)
    have hs := @Sequence.three (UInt8.ofNat (0xE0 + n / 4096)) (UInt8.ofNat (0x80 + n / 64 % 64))
      (UInt8.ofNat (0x80 + n % 64)) (by omega) (by omega) (by rw [ha, hb]; simp [secondOk]; omega)
      (by rw [hc]; simp [isContinuation]; omega)
    have hn : (0xE0 + n / 4096 - 0xE0) * 4096 + (0x80 + n / 64 % 64 - 0x80) * 64 + (0x80 + n % 64 - 0x80) = n := by
      omega
    rwa [ha, hb, hc, hn] at hs
  · cases h
    have ha := toNat_byte (show 0xF0 + n / 262144 < 256 by omega)
    have hb := toNat_byte (show 0x80 + n / 4096 % 64 < 256 by omega)
    have hc := toNat_byte (show 0x80 + n / 64 % 64 < 256 by omega)
    have hd := toNat_byte (show 0x80 + n % 64 < 256 by omega)
    have hs := @Sequence.four (UInt8.ofNat (0xF0 + n / 262144)) (UInt8.ofNat (0x80 + n / 4096 % 64))
      (UInt8.ofNat (0x80 + n / 64 % 64)) (UInt8.ofNat (0x80 + n % 64)) (by omega) (by omega)
      (by rw [ha, hb]; simp [secondOk]; omega) (by rw [hc]; simp [isContinuation]; omega)
      (by rw [hd]; simp [isContinuation]; omega)
    have hn : (0xF0 + n / 262144 - 0xF0) * 262144 + (0x80 + n / 4096 % 64 - 0x80) * 4096 +
        (0x80 + n / 64 % 64 - 0x80) * 64 + (0x80 + n % 64 - 0x80) = n := by omega
    rwa [ha, hb, hc, hd, hn] at hs

theorem encodeScalar_of_sequence {n : Nat} {p : Bytes} (h : Sequence n p) :
    encodeScalar (UInt32.ofNat n) = some p := by
  cases h with
  | one ha => exact encodeScalar_one ha
  | two ha ha' hb => exact encodeScalar_two ha ha' hb
  | three ha ha' hb hc => exact encodeScalar_three ha ha' hb hc
  | four ha ha' hb hc hd => exact encodeScalar_four ha ha' hb hc hd

/-- A sequence is decoded to its code unit. -/
theorem decode_sequence {n : Nat} {p : Bytes} (h : Sequence n p) (s : Bytes) : decode (p ++ s) = (decode s).push n := by
  cases h with
  | one ha =>
      rw [List.singleton_append, decode.eq_def]
      simp only [if_pos ha]
  | @two a b ha ha' hb =>
      have h1 : ¬ a.toNat < 0x80 := by omega
      have h2 : ¬ (a.toNat < 0xC2 ∨ 0xF5 ≤ a.toNat) := by omega
      rw [List.cons_append, List.singleton_append, decode.eq_def]
      simp [if_neg h1, if_neg h2, hb, if_pos ha']
  | @three a b c ha ha' hb hc =>
      have h1 : ¬ a.toNat < 0x80 := by omega
      have h2 : ¬ (a.toNat < 0xC2 ∨ 0xF5 ≤ a.toNat) := by omega
      have h3 : ¬ a.toNat < 0xE0 := by omega
      rw [List.cons_append, List.cons_append, List.singleton_append, decode.eq_def]
      simp [if_neg h1, if_neg h2, hb, if_neg h3, hc, if_pos ha']
  | @four a b c d ha ha' hb hc hd =>
      have h1 : ¬ a.toNat < 0x80 := by omega
      have h2 : ¬ (a.toNat < 0xC2 ∨ 0xF5 ≤ a.toNat) := by omega
      have h3 : ¬ a.toNat < 0xE0 := by omega
      have h4 : ¬ a.toNat < 0xF0 := by omega
      rw [List.cons_append, List.cons_append, List.cons_append, List.singleton_append, decode.eq_def]
      simp [if_neg h1, if_neg h2, hb, if_neg h3, hc, if_neg h4, hd]

theorem decode_cut_one {a : UInt8} (ha : 0xC2 ≤ a.toNat) (ha' : a.toNat < 0xF5) :
    decode [a] = ⟨[], [a], .incomplete⟩ := by
  have h1 : ¬ a.toNat < 0x80 := by omega
  have h2 : ¬ (a.toNat < 0xC2 ∨ 0xF5 ≤ a.toNat) := by omega
  simp [decode, if_neg h1, if_neg h2]

theorem decode_cut_two {a b : UInt8} (ha : 0xE0 ≤ a.toNat) (ha' : a.toNat < 0xF5)
    (hb : secondOk a.toNat b.toNat = true) : decode [a, b] = ⟨[], [a, b], .incomplete⟩ := by
  have h1 : ¬ a.toNat < 0x80 := by omega
  have h2 : ¬ (a.toNat < 0xC2 ∨ 0xF5 ≤ a.toNat) := by omega
  have h3 : ¬ a.toNat < 0xE0 := by omega
  simp [decode, if_neg h1, if_neg h2, hb, if_neg h3]

theorem decode_cut_three {a b c : UInt8} (ha : 0xF0 ≤ a.toNat) (ha' : a.toNat < 0xF5)
    (hb : secondOk a.toNat b.toNat = true) (hc : isContinuation c.toNat = true) :
    decode [a, b, c] = ⟨[], [a, b, c], .incomplete⟩ := by
  have h1 : ¬ a.toNat < 0x80 := by omega
  have h2 : ¬ (a.toNat < 0xC2 ∨ 0xF5 ≤ a.toNat) := by omega
  have h3 : ¬ a.toNat < 0xE0 := by omega
  have h4 : ¬ a.toNat < 0xF0 := by omega
  simp [decode, if_neg h1, if_neg h2, hb, if_neg h3, hc, if_neg h4]

/-- A proper beginning of `a :: p` is empty, or it is `a` and a proper beginning of `p`. -/
theorem proper_prefix_cons {a : UInt8} {s p : Bytes} (hp : s <+: a :: p) (hne : s ≠ a :: p) :
    s = [] ∨ ∃ t, s = a :: t ∧ t <+: p ∧ t ≠ p := by
  rcases List.prefix_cons_iff.1 hp with rfl | ⟨t, rfl, ht⟩
  · exact .inl rfl
  · exact .inr ⟨t, rfl, ht, fun h => hne (by rw [h])⟩

/-- A sequence that is cut short is not decoded. -/
theorem decode_cut {n : Nat} {p s : Bytes} (h : Sequence n p) (hs : s ≠ []) (hp : s <+: p) (hne : s ≠ p) :
    decode s = ⟨[], s, .incomplete⟩ := by
  -- nothing is a proper beginning of the empty list
  have hnil : ∀ {t : Bytes}, t <+: [] → t ≠ [] → False := fun ht ht' => ht' (List.prefix_nil.1 ht)
  cases h with
  | one ha =>
      obtain rfl | ⟨s₁, rfl, h₁, hne₁⟩ := proper_prefix_cons hp hne
      · exact absurd rfl hs
      · exact (hnil h₁ hne₁).elim
  | two ha ha' hb =>
      obtain rfl | ⟨s₁, rfl, h₁, hne₁⟩ := proper_prefix_cons hp hne
      · exact absurd rfl hs
      obtain rfl | ⟨s₂, rfl, h₂, hne₂⟩ := proper_prefix_cons h₁ hne₁
      · exact decode_cut_one ha (by omega)
      · exact (hnil h₂ hne₂).elim
  | three ha ha' hb hc =>
      obtain rfl | ⟨s₁, rfl, h₁, hne₁⟩ := proper_prefix_cons hp hne
      · exact absurd rfl hs
      obtain rfl | ⟨s₂, rfl, h₂, hne₂⟩ := proper_prefix_cons h₁ hne₁
      · exact decode_cut_one (by omega) (by omega)
      obtain rfl | ⟨s₃, rfl, h₃, hne₃⟩ := proper_prefix_cons h₂ hne₂
      · exact decode_cut_two ha (by omega) hb
      · exact (hnil h₃ hne₃).elim
  | four ha ha' hb hc hd =>
      obtain rfl | ⟨s₁, rfl, h₁, hne₁⟩ := proper_prefix_cons hp hne
      · exact absurd rfl hs
      obtain rfl | ⟨s₂, rfl, h₂, hne₂⟩ := proper_prefix_cons h₁ hne₁
      · exact decode_cut_one (by omega) ha'
      obtain rfl | ⟨s₃, rfl, h₃, hne₃⟩ := proper_prefix_cons h₂ hne₂
      · exact decode_cut_two (by omega) ha' hb
      obtain rfl | ⟨s₄, rfl, h₄, hne₄⟩ := proper_prefix_cons h₃ hne₃
      · exact decode_cut_three ha ha' hb hc
      · exact (hnil h₄ hne₄).elim

/-- A second byte that may follow the first. -/
theorem exists_second (a : UInt8) :
    ∃ b : UInt8, secondOk a.toNat b.toNat = true := by
  by_cases h : a.toNat = 0xE0 ∨ a.toNat = 0xF0
  · rcases h with h | h
    · exact ⟨0xA0, by rw [h]; rfl⟩
    · exact ⟨0x90, by rw [h]; rfl⟩
  · refine ⟨0x80, ?_⟩
    change secondOk a.toNat 128 = true
    simp [secondOk]
    omega

theorem exists_sequence_two {a b : UInt8} (ha : 0xC2 ≤ a.toNat) (ha' : a.toNat < 0xF5)
    (hb : secondOk a.toNat b.toNat = true) : ∃ n r, Sequence n (a :: b :: r) := by
  by_cases h2 : a.toNat < 0xE0
  · exact ⟨_, [], .two ha h2 hb⟩
  by_cases h3 : a.toNat < 0xF0
  · exact ⟨_, [0x80], .three (by omega) h3 hb rfl⟩
  · exact ⟨_, [0x80, 0x80], .four (by omega) ha' hb rfl rfl⟩

/-- A decoding that ends early without a malformed sequence, before any code unit. -/
theorem cut_of_decode (s : Bytes) :
    decode s = ⟨[], s, .incomplete⟩ → ∃ n p, Sequence n p ∧ s ≠ [] ∧ s <+: p ∧ s ≠ p := by
  have hpush : ∀ {d : Decoded} {n : Nat} {t : Bytes}, Decoded.push n d ≠ ⟨[], t, .incomplete⟩ := fun hd =>
    absurd (congrArg Decoded.codes hd) (List.cons_ne_nil _ _)
  fun_cases decode s with
  | case1 | case3 | case5 | case8 | case11 =>
      intro h
      cases h
  | case2 | case6 | case9 | case12 =>
      intro h
      exact absurd h hpush
  | case4 a h1 h2 =>
      intro _
      obtain ⟨b, hb⟩ := exists_second a
      obtain ⟨n, r, hn⟩ := exists_sequence_two (by omega) (by omega) hb
      exact ⟨n, a :: b :: r, hn, by simp, by simp, by simp⟩
  | case7 a h1 h2 b hb h3 =>
      intro _
      by_cases h4 : a.toNat < 0xF0
      · exact ⟨_, [a, b, 0x80], .three (by omega) h4 (by simpa using hb) rfl, by simp, by simp, by simp⟩
      · exact ⟨_, [a, b, 0x80, 0x80], .four (by omega) (by omega) (by simpa using hb) rfl rfl, by simp, by simp, by simp⟩
  | case10 a h1 h2 b hb h3 c hc h4 =>
      intro _
      exact ⟨_, [a, b, c, 0x80], .four (by omega) (by omega) (by simpa using hb) (by simpa using hc) rfl, by simp,
        by simp, by simp⟩

theorem encode_cons_iff {c : UInt32} {w : List UInt32} {s : Bytes} :
    encode (c :: w) = some s ↔ ∃ p q, encodeScalar c = some p ∧ encode w = some q ∧ s = p ++ q := by
  constructor
  · intro h
    rw [encode] at h
    split at h
    · rename_i p q hc hw
      cases h
      exact ⟨p, q, hc, hw, rfl⟩
    · cases h
  · intro ⟨p, q, hc, hw, hs⟩
    rw [hs]
    exact encode_cons hc hw

/-- **Decoding inverts encoding.** -/
theorem decode_encode {w : List UInt32} {s : Bytes} (h : encode w = some s) : decode s = ⟨w, [], .complete⟩ := by
  induction w generalizing s with
  | nil =>
      cases h
      rfl
  | cons c w ih =>
      obtain ⟨p, q, hc, hw, rfl⟩ := encode_cons_iff.1 h
      rw [decode_sequence (sequence_of_encodeScalar hc), ih hw, Decoded.push, UInt32.ofNat_toNat]

/-! ### Well-formed strings -/

def valid (s : Bytes) : Bool := (decode s).status == .complete

/-- The beginning of the encoding of one code unit. -/
def CutShort (s : Bytes) : Prop := s ≠ [] ∧ ∃ c p, encodeScalar c = some p ∧ s <+: p ∧ s ≠ p

theorem decode_cut_iff {s : Bytes} : decode s = ⟨[], s, .incomplete⟩ ↔ CutShort s := by
  constructor
  · intro h
    obtain ⟨n, p, hn, hs, hp, hne⟩ := cut_of_decode s h
    exact ⟨hs, UInt32.ofNat n, p, encodeScalar_of_sequence hn, hp, hne⟩
  · intro ⟨hs, c, p, hc, hp, hne⟩
    exact decode_cut (sequence_of_encodeScalar hc) hs hp hne

/-- The well-formed strings are the encodings. -/
theorem valid_iff {s : Bytes} : valid s = true ↔ ∃ w, encode w = some s := by
  rw [valid, beq_iff_eq]
  constructor
  · intro h
    obtain ⟨⟨p, hp, hs⟩, hcomplete⟩ := decode_splits s
    rw [hcomplete.1 h, List.append_nil] at hs
    exact ⟨(decode s).codes, by rw [hp, hs]⟩
  · intro ⟨w, hw⟩
    rw [decode_encode hw]

theorem valid_of_ascii {s : Bytes} (h : ∀ b ∈ s, b.toNat < 0x80) : valid s = true := by
  induction s with
  | nil => rfl
  | cons a s ih =>
      rw [List.forall_mem_cons] at h
      rw [valid, decode.eq_def]
      simp only [if_pos h.1]
      exact ih h.2

/-- An ASCII byte is a sequence of its own. -/
theorem Sequence.eq_singleton {n : Nat} {p : Bytes} (h : Sequence n p) {c : UInt8} (hc : c.toNat < 0x80) (hmem : c ∈ p) :
    p = [c] := by
  cases h with
  | one ha => rw [List.mem_singleton.1 hmem]
  | two ha ha' hb =>
      simp only [secondOk, Bool.and_eq_true, decide_eq_true_eq] at hb
      simp only [List.mem_cons, List.not_mem_nil, or_false] at hmem
      rcases hmem with rfl | rfl <;> omega
  | three ha ha' hb hd =>
      simp only [secondOk, isContinuation, Bool.and_eq_true, decide_eq_true_eq] at hb hd
      simp only [List.mem_cons, List.not_mem_nil, or_false] at hmem
      rcases hmem with rfl | rfl | rfl <;> omega
  | four ha ha' hb hd he =>
      simp only [secondOk, isContinuation, Bool.and_eq_true, decide_eq_true_eq] at hb hd he
      simp only [List.mem_cons, List.not_mem_nil, or_false] at hmem
      rcases hmem with rfl | rfl | rfl | rfl <;> omega

theorem valid_cons {x : UInt32} {p s : Bytes} (hx : encodeScalar x = some p) (hs : valid s = true) :
    valid (p ++ s) = true := by
  obtain ⟨w, hw⟩ := valid_iff.1 hs
  exact valid_iff.2 ⟨x :: w, encode_cons hx hw⟩

theorem valid_of_append {c : UInt8} (hc : c.toNat < 0x80) {w : List UInt32} {a b : Bytes}
    (h : encode w = some (a ++ c :: b)) : valid a = true ∧ valid b = true := by
  induction w generalizing a with
  | nil => simp [encode] at h
  | cons x w ih =>
      obtain ⟨p, q, hx, hw, heq⟩ := encode_cons_iff.1 h
      rcases List.append_eq_append_iff.1 heq with ⟨t, rfl, hq⟩ | ⟨t, rfl, rfl⟩
      · cases t with
        | nil =>
            have hnil := @ih [] (by rw [hw]; exact congrArg some hq.symm)
            exact ⟨by simpa using valid_cons hx hnil.1, hnil.2⟩
        | cons d t =>
            obtain ⟨rfl, hb⟩ := List.cons.inj hq
            have hsingle := (sequence_of_encodeScalar hx).eq_singleton hc (by simp)
            have hlen := congrArg List.length hsingle
            simp only [List.length_append, List.length_cons, List.length_nil] at hlen
            rw [List.eq_nil_of_length_eq_zero (by omega : a.length = 0)]
            rw [List.eq_nil_of_length_eq_zero (by omega : t.length = 0)] at hb
            exact ⟨rfl, valid_iff.2 ⟨w, by rw [hw]; exact congrArg some hb.symm⟩⟩
      · have ht := ih hw
        exact ⟨valid_cons hx ht.1, ht.2⟩

/-- Texts on both sides of an ASCII byte are well-formed on their own. -/
theorem valid_append_cons {c : UInt8} (hc : c.toNat < 0x80) {a b : Bytes} :
    valid (a ++ c :: b) = true ↔ valid a = true ∧ valid b = true := by
  constructor
  · intro h
    obtain ⟨w, hw⟩ := valid_iff.1 h
    exact valid_of_append hc hw
  · rintro ⟨ha, hb⟩
    obtain ⟨w, hw⟩ := valid_iff.1 ha
    induction w generalizing a with
    | nil =>
        cases hw
        exact valid_cons (p := [c]) (encodeScalar_one hc) hb
    | cons x w ih =>
        obtain ⟨p, q, hx, hq, rfl⟩ := encode_cons_iff.1 hw
        rw [List.append_assoc]
        exact valid_cons hx (ih (valid_iff.2 ⟨w, hq⟩) hq)

theorem valid_ascii_cons {c : UInt8} (hc : c.toNat < 0x80) {s : Bytes} : valid (c :: s) = true ↔ valid s = true :=
  (valid_append_cons hc (a := [])).trans (and_iff_right rfl)

theorem valid_ascii_append {p s : Bytes} (hp : ∀ c ∈ p, c.toNat < 0x80) (hs : valid s = true) : valid (p ++ s) = true := by
  induction p with
  | nil => exact hs
  | cons c p ih =>
      rw [List.forall_mem_cons] at hp
      exact (valid_ascii_cons hp.1).2 (ih hp.2)

/-- Replacing ASCII bytes by ASCII texts keeps a text well-formed. -/
theorem valid_flatMap {f : UInt8 → Bytes} (hascii : ∀ c : UInt8, c.toNat < 0x80 → ∀ x ∈ f c, x.toNat < 0x80)
    (hother : ∀ c : UInt8, ¬c.toNat < 0x80 → f c = [c]) {s : Bytes} (h : valid s = true) : valid (s.flatMap f) = true := by
  obtain ⟨w, hw⟩ := valid_iff.1 h
  clear h
  induction w generalizing s with
  | nil =>
      cases hw
      rfl
  | cons x w ih =>
      obtain ⟨p, q, hx, hq, rfl⟩ := encode_cons_iff.1 hw
      have hrest := ih hq
      rw [List.flatMap_append]
      by_cases hp : ∃ c ∈ p, c.toNat < 0x80
      · obtain ⟨c, hmem, hc⟩ := hp
        rw [(sequence_of_encodeScalar hx).eq_singleton hc hmem, List.flatMap_singleton]
        exact valid_ascii_append (hascii c hc) hrest
      · have hkept : p.flatMap f = p := by
          calc p.flatMap f = p.flatMap fun c => [c] :=
                List.flatMap_congr fun c hc => hother c fun hlt => hp ⟨c, hc, hlt⟩
            _ = p := List.flatMap_singleton' p
        rw [hkept]
        exact valid_cons hx hrest

end CvmAttestation.Base.Utf8
