import CvmAttestation.BaseBytes
import Mathlib.Data.List.Basic
import Mathlib.Tactic

/-! Base64 as the iterator adaptors `base64_from_binary` and `binary_from_base64` compute it. The
decoder knows no padding: `=` stands for six zero bits, so that decoding a padded text leaves one zero
byte for every padding character. What a caller does about those bytes is its own business, and the
sources do it in more than one way. -/

namespace CvmAttestation.Base.Base64

def char (n : Nat) : UInt8 :=
  if n < 26 then UInt8.ofNat (65 + n)
  else if n < 52 then UInt8.ofNat (71 + n)
  else if n < 62 then UInt8.ofNat (n - 4)
  else if n = 62 then 43
  else 47

/-- The six bits a character stands for, `none` outside the table of the decoder. -/
def sextet (c : UInt8) : Option Nat :=
  let n := c.toNat
  if 65 ≤ n ∧ n ≤ 90 then some (n - 65)
  else if 97 ≤ n ∧ n ≤ 122 then some (n - 71)
  else if 48 ≤ n ∧ n ≤ 57 then some (n + 4)
  else if n = 43 then some 62
  else if n = 47 then some 63
  else if n = 61 then some 0
  else none

def padChar : UInt8 := 61

def padding (n : Nat) : Nat := (3 - n % 3) % 3

/-- The characters of a byte string, without padding; missing bits are zero. -/
def encodeRaw : Bytes → Bytes
  | [] => []
  | [a] => [char (a.toNat / 4), char (a.toNat % 4 * 16)]
  | [a, b] => [char (a.toNat / 4), char (a.toNat % 4 * 16 + b.toNat / 16), char (b.toNat % 16 * 4)]
  | a :: b :: c :: v =>
    char (a.toNat / 4) :: char (a.toNat % 4 * 16 + b.toNat / 16) ::
      char (b.toNat % 16 * 4 + c.toNat / 64) :: char (c.toNat % 64) :: encodeRaw v

def encode (v : Bytes) : Bytes := encodeRaw v ++ List.replicate (padding v.length) padChar

/-- The three bytes of four groups of six bits. -/
def quad (w x y z : Nat) : Bytes :=
  [UInt8.ofNat (w * 4 + x / 16), UInt8.ofNat (x % 16 * 16 + y / 4), UInt8.ofNat (y % 4 * 64 + z)]

/-- The bytes a text stands for. A character outside the table stops the decoder, and so does a last
group of one character, for which the decoder would read past the end of the text. -/
def decodeRaw : Bytes → Option Bytes
  | [] => some []
  | [_] => none
  | [a, b] =>
    match sextet a, sextet b with
    | some w, some x => some ((quad w x 0 0).take 1)
    | _, _ => none
  | [a, b, c] =>
    match sextet a, sextet b, sextet c with
    | some w, some x, some y => some ((quad w x y 0).take 2)
    | _, _, _ => none
  | a :: b :: c :: d :: s =>
    match sextet a, sextet b, sextet c, sextet d, decodeRaw s with
    | some w, some x, some y, some z, some v => some (quad w x y z ++ v)
    | _, _, _, _, _ => none

theorem sextet_char {n : Nat} (h : n < 64) : sextet (char n) = some n := by
  revert n
  decide

theorem sextet_padChar : sextet padChar = some 0 := by decide

theorem quad_bytes (a b c : UInt8) :
    quad (a.toNat / 4) (a.toNat % 4 * 16 + b.toNat / 16) (b.toNat % 16 * 4 + c.toNat / 64) (c.toNat % 64) =
      [a, b, c] := by
  have ha := a.toNat_lt
  have hb := b.toNat_lt
  have hc := c.toNat_lt
  have h1 : a.toNat / 4 * 4 + (a.toNat % 4 * 16 + b.toNat / 16) / 16 = a.toNat := by omega
  have h2 : (a.toNat % 4 * 16 + b.toNat / 16) % 16 * 16 + (b.toNat % 16 * 4 + c.toNat / 64) / 4 = b.toNat := by
    omega
  have h3 : (b.toNat % 16 * 4 + c.toNat / 64) % 4 * 64 + c.toNat % 64 = c.toNat := by omega
  simp only [quad, h1, h2, h3, UInt8.ofNat_toNat]

theorem quad_one (a : UInt8) : quad (a.toNat / 4) (a.toNat % 4 * 16) 0 0 = [a, 0, 0] := by
  have hquad := quad_bytes a 0 0
  simp only [UInt8.toNat_zero, Nat.zero_div, Nat.zero_mod, Nat.zero_mul, Nat.add_zero] at hquad
  exact hquad

theorem quad_two (a b : UInt8) :
    quad (a.toNat / 4) (a.toNat % 4 * 16 + b.toNat / 16) (b.toNat % 16 * 4) 0 = [a, b, 0] := by
  have hquad := quad_bytes a b 0
  simp only [UInt8.toNat_zero, Nat.zero_div, Nat.zero_mod, Nat.add_zero] at hquad
  exact hquad

theorem decodeRaw_quad {p q r t : UInt8} {w x y z : Nat} {s v : Bytes} (hp : sextet p = some w)
    (hq : sextet q = some x) (hr : sextet r = some y) (ht : sextet t = some z) (hs : decodeRaw s = some v) :
    decodeRaw (p :: q :: r :: t :: s) = some (quad w x y z ++ v) := by
  simp only [decodeRaw, hp, hq, hr, ht, hs]

/-- The four characters of three bytes. -/
theorem decodeRaw_group (a b c : UInt8) {s v : Bytes} (h : decodeRaw s = some v) :
    decodeRaw (char (a.toNat / 4) :: char (a.toNat % 4 * 16 + b.toNat / 16) ::
      char (b.toNat % 16 * 4 + c.toNat / 64) :: char (c.toNat % 64) :: s) = some (a :: b :: c :: v) := by
  have ha := a.toNat_lt
  have hb := b.toNat_lt
  have hc := c.toNat_lt
  have hgroup := decodeRaw_quad (sextet_char (by omega : a.toNat / 4 < 64))
    (sextet_char (by omega : a.toNat % 4 * 16 + b.toNat / 16 < 64))
    (sextet_char (by omega : b.toNat % 16 * 4 + c.toNat / 64 < 64))
    (sextet_char (by omega : c.toNat % 64 < 64)) h
  rw [quad_bytes] at hgroup
  exact hgroup

theorem padding_add_three (n : Nat) : padding (n + 3) = padding n := by
  simp only [padding]
  omega

/-- **Decoding a padded text** gives the bytes, followed by a zero byte for each padding character. -/
theorem decodeRaw_encode (v : Bytes) :
    decodeRaw (encode v) = some (v ++ List.replicate (padding v.length) 0) := by
  induction v using encodeRaw.induct with
  | case1 => rfl
  | case2 a =>
      have ha := a.toNat_lt
      have h := decodeRaw_quad (sextet_char (by omega : a.toNat / 4 < 64))
        (sextet_char (by omega : a.toNat % 4 * 16 < 64)) sextet_padChar sextet_padChar (by rfl : decodeRaw [] = some [])
      rw [quad_one] at h
      exact h
  | case3 a b =>
      have ha := a.toNat_lt
      have hb := b.toNat_lt
      have h := decodeRaw_quad (sextet_char (by omega : a.toNat / 4 < 64))
        (sextet_char (by omega : a.toNat % 4 * 16 + b.toNat / 16 < 64))
        (sextet_char (by omega : b.toNat % 16 * 4 < 64)) sextet_padChar (by rfl : decodeRaw [] = some [])
      rw [quad_two] at h
      exact h
  | case4 a b c v ih =>
      have h := decodeRaw_group a b c ih
      have hp : padding (a :: b :: c :: v).length = padding v.length := padding_add_three v.length
      simp only [encode, encodeRaw, hp, List.cons_append] at h ⊢
      exact h

/-- The characters of a text before its padding are those of the table. -/
theorem mem_encodeRaw {v : Bytes} {c : UInt8} (h : c ∈ encodeRaw v) : ∃ n < 64, c = char n := by
  induction v using encodeRaw.induct with
  | case1 => cases h
  | case2 a =>
      have ha := a.toNat_lt
      simp only [encodeRaw, List.mem_cons, List.not_mem_nil, or_false] at h
      rcases h with rfl | rfl
      · exact ⟨_, by omega, rfl⟩
      · exact ⟨_, by omega, rfl⟩
  | case3 a b =>
      have ha := a.toNat_lt
      have hb := b.toNat_lt
      simp only [encodeRaw, List.mem_cons, List.not_mem_nil, or_false] at h
      rcases h with rfl | rfl | rfl
      · exact ⟨_, by omega, rfl⟩
      · exact ⟨_, by omega, rfl⟩
      · exact ⟨_, by omega, rfl⟩
  | case4 a b c' v ih =>
      have ha := a.toNat_lt
      have hb := b.toNat_lt
      have hc := c'.toNat_lt
      simp only [encodeRaw, List.mem_cons] at h
      rcases h with rfl | rfl | rfl | rfl | h
      · exact ⟨_, by omega, rfl⟩
      · exact ⟨_, by omega, rfl⟩
      · exact ⟨_, by omega, rfl⟩
      · exact ⟨_, by omega, rfl⟩
      · exact ih h

theorem char_ne_padChar {n : Nat} (h : n < 64) : char n ≠ padChar := by
  revert n
  decide

theorem count_padChar_encodeRaw (v : Bytes) : (encodeRaw v).count padChar = 0 := by
  apply List.count_eq_zero_of_not_mem
  intro h
  obtain ⟨n, hn, hc⟩ := mem_encodeRaw h
  exact char_ne_padChar hn hc.symm

theorem count_padChar_encode (v : Bytes) : (encode v).count padChar = padding v.length := by
  rw [encode, List.count_append, count_padChar_encodeRaw, List.count_replicate_self, Nat.zero_add]

/-- **Decoding a text without padding** gives the bytes. -/
theorem decodeRaw_encodeRaw (v : Bytes) : decodeRaw (encodeRaw v) = some v := by
  induction v using encodeRaw.induct with
  | case1 => rfl
  | case2 a =>
      have ha := a.toNat_lt
      simp only [encodeRaw, decodeRaw, sextet_char (by omega : a.toNat / 4 < 64),
        sextet_char (by omega : a.toNat % 4 * 16 < 64), quad_one, List.take_succ_cons, List.take_zero]
  | case3 a b =>
      have ha := a.toNat_lt
      have hb := b.toNat_lt
      simp only [encodeRaw, decodeRaw, sextet_char (by omega : a.toNat / 4 < 64),
        sextet_char (by omega : a.toNat % 4 * 16 + b.toNat / 16 < 64),
        sextet_char (by omega : b.toNat % 16 * 4 < 64), quad_two, List.take_succ_cons, List.take_zero]
  | case4 a b c v ih =>
      exact decodeRaw_group a b c ih

/-! ### The alphabet for URLs -/

def toUrl (c : UInt8) : UInt8 := if c = 43 then 45 else if c = 47 then 95 else c

def fromUrl (c : UInt8) : UInt8 := if c = 45 then 43 else if c = 95 then 47 else c

def encodeUrl (v : Bytes) : Bytes := (encodeRaw v).map toUrl

theorem fromUrl_toUrl_char {n : Nat} (h : n < 64) : fromUrl (toUrl (char n)) = char n := by
  revert n
  decide

theorem map_fromUrl_encodeUrl (v : Bytes) : (encodeUrl v).map fromUrl = encodeRaw v := by
  rw [encodeUrl, List.map_map]
  refine (List.map_congr_left fun c hc => ?_).trans (List.map_id _)
  obtain ⟨n, hn, rfl⟩ := mem_encodeRaw hc
  exact fromUrl_toUrl_char hn

/-- The characters of both alphabets and of the padding are ASCII. -/
theorem toNat_lt_of_mem_encode {v : Bytes} {c : UInt8} (h : c ∈ encode v) : c.toNat < 0x80 := by
  have hchar : ∀ n < 64, (char n).toNat < 0x80 := by decide
  rw [encode, List.mem_append] at h
  rcases h with h | h
  · obtain ⟨n, hn, rfl⟩ := mem_encodeRaw h
    exact hchar n hn
  · rw [List.eq_of_mem_replicate h]
    decide

theorem toNat_lt_of_mem_encodeUrl {v : Bytes} {c : UInt8} (h : c ∈ encodeUrl v) : c.toNat < 0x80 := by
  have hchar : ∀ n < 64, (toUrl (char n)).toNat < 0x80 := by decide
  rw [encodeUrl, List.mem_map] at h
  obtain ⟨d, hd, rfl⟩ := h
  obtain ⟨n, hn, rfl⟩ := mem_encodeRaw hd
  exact hchar n hn

theorem encode_ne_nil {v : Bytes} (h : v ≠ []) : encode v ≠ [] := by
  intro hnil
  have hraw : encodeRaw v = [] := (List.append_eq_nil_iff.1 hnil).1
  match v with
  | [] => exact h rfl
  | [a] => cases hraw
  | [a, b] => cases hraw
  | a :: b :: c :: v => cases hraw

/-! ### What is decoded at all -/

/-- A text that the decoder can read: every character is in its table, and no group of one character is left. -/
def Readable (s : Bytes) : Prop := s.length % 4 ≠ 1 ∧ ∀ c ∈ s, (sextet c).isSome = true

theorem readable_cons (a b c d : UInt8) (s : Bytes) :
    Readable (a :: b :: c :: d :: s) ↔ ((sextet a).isSome = true ∧ (sextet b).isSome = true ∧
      (sextet c).isSome = true ∧ (sextet d).isSome = true) ∧ Readable s := by
  have hlength : (a :: b :: c :: d :: s).length % 4 = s.length % 4 := by
    simp only [List.length_cons]
    omega
  rw [Readable, hlength, Readable]
  simp only [List.forall_mem_cons]
  tauto

theorem decodeRaw_returns_iff : (s : Bytes) → ((∃ v, decodeRaw s = some v) ↔ Readable s)
  | [] => by simp [decodeRaw, Readable]
  | [a] => by simp [decodeRaw, Readable]
  | [a, b] => by
      rw [decodeRaw]
      cases ha : sextet a <;> cases hb : sextet b <;> simp [Readable, ha, hb]
  | [a, b, c] => by
      rw [decodeRaw]
      cases ha : sextet a <;> cases hb : sextet b <;> cases hc : sextet c <;> simp [Readable, ha, hb, hc]
  | a :: b :: c :: d :: s => by
      have ih := decodeRaw_returns_iff s
      rw [readable_cons, ← ih, decodeRaw]
      cases sextet a <;> cases sextet b <;> cases sextet c <;> cases sextet d <;> cases decodeRaw s <;> simp

/-- Four characters give three bytes; a last group of two gives one, and one of three gives two. -/
theorem decodeRaw_length : (s : Bytes) → {v : Bytes} → decodeRaw s = some v → v.length = s.length * 3 / 4
  | [], v, h => by
      cases h
      rfl
  | [_], v, h => by cases h
  | [a, b], v, h => by
      rw [decodeRaw] at h
      split at h
      · cases h
        simp [quad]
      · cases h
  | [a, b, c], v, h => by
      rw [decodeRaw] at h
      split at h
      · cases h
        simp [quad]
      · cases h
  | a :: b :: c :: d :: s, v, h => by
      rw [decodeRaw] at h
      split at h
      · rename_i v' _ _ _ _ hv
        cases h
        have ih := decodeRaw_length s hv
        simp only [quad, List.length_append, List.length_cons, List.length_nil]
        omega
      · cases h

end CvmAttestation.Base.Base64
