import CvmAttestation.BaseBase64
import CvmAttestation.BaseControl
import Mathlib.Tactic

/-! Base64 as bits. A character stands for six bits and a byte for eight; what a text stands for are the bits of its
characters, cut into bytes, without what is left over. Against this stands a decoder that takes `=` for six zero bits
wherever it occurs and then drops one byte for each `=`. -/

namespace CvmAttestation.Base.Base64

/-- The low bits of a number, the highest first. -/
def bits (width n : Nat) : List Bool := (List.range width).reverse.map n.testBit

def textBits (s : Bytes) : List Bool := s.flatMap fun c => bits 6 ((sextet c).getD 0)

def byteBits (v : Bytes) : List Bool := v.flatMap fun b => bits 8 b.toNat

/-- A text of the alphabet with at most two padding characters, and not of padding alone. -/
structure Padded (s body : Bytes) (k : ℕ) : Prop where
  eq : s = body ++ List.replicate k padChar
  alphabet : ∀ c ∈ body, c ≠ padChar ∧ (sextet c).isSome = true
  atMost : k ≤ 2
  notAlone : body = [] → k = 0

/-- The bytes `v` are the bits of the characters `body`, as far as they fill bytes. -/
structure Grouped (body v : Bytes) : Prop where
  length : v.length = 6 * body.length / 8
  bits : byteBits v <+: textBits body

/-- The promise of a decoder on a text: what it returns is what a padded text stands for, and any other text is refused
as no base64. -/
structure Lawful {ε : Type} (refusal : ε) (s : Bytes) (result : Except ε Bytes) : Prop where
  returned : ∀ v, result = .ok v → ∃ body k, Padded s body k ∧ Grouped body v
  refused : (¬∃ body k, Padded s body k) → result = .error refusal

/-! ### Bits -/

theorem length_bits (width n : Nat) : (bits width n).length = width := by
  rw [bits, List.length_map, List.length_reverse, List.length_range]

theorem length_textBits (s : Bytes) : (textBits s).length = 6 * s.length := by
  induction s with
  | nil => rfl
  | cons c s ih =>
      calc (textBits (c :: s)).length = (bits 6 ((sextet c).getD 0)).length + (textBits s).length :=
            List.length_append
        _ = 6 * (c :: s).length := by
            rw [length_bits, ih, List.length_cons]
            omega

theorem length_byteBits (v : Bytes) : (byteBits v).length = 8 * v.length := by
  induction v with
  | nil => rfl
  | cons b v ih =>
      calc (byteBits (b :: v)).length = (bits 8 b.toNat).length + (byteBits v).length := List.length_append
        _ = 8 * (b :: v).length := by
            rw [length_bits, ih, List.length_cons]
            omega

theorem textBits_append (s t : Bytes) : textBits (s ++ t) = textBits s ++ textBits t := List.flatMap_append

theorem byteBits_append (v u : Bytes) : byteBits (v ++ u) = byteBits v ++ byteBits u := List.flatMap_append

theorem byteBits_take_first (v : Bytes) (n : ℕ) : byteBits (v.take n) <+: byteBits v := by
  refine ⟨byteBits (v.drop n), ?_⟩
  rw [← byteBits_append, List.take_append_drop]

theorem sextet_lt {c : UInt8} {n : Nat} (h : sextet c = some n) : n < 64 := by
  have hc := c.toNat_lt
  rw [sextet] at h
  split_ifs at h <;> cases h <;> omega

theorem bits_succ (width n : Nat) : bits (width + 1) n = n.testBit width :: bits width n := by
  rw [bits, List.range_succ, List.reverse_append, List.map_append]
  rfl

theorem bits_add (k width n : Nat) : bits (k + width) n = bits k (n / 2 ^ width) ++ bits width n := by
  induction k with
  | zero =>
      rw [Nat.zero_add]
      rfl
  | succ k ih =>
      calc bits (k + 1 + width) n = n.testBit (k + width) :: bits (k + width) n := by
            rw [Nat.add_right_comm, bits_succ]
        _ = (n / 2 ^ width).testBit k :: (bits k (n / 2 ^ width) ++ bits width n) := by
            rw [ih, Nat.testBit_div_two_pow]
        _ = bits (k + 1) (n / 2 ^ width) ++ bits width n := by
            rw [bits_succ]
            rfl

theorem bits_congr {width m n : Nat} (h : m % 2 ^ width = n % 2 ^ width) : bits width m = bits width n := by
  refine List.map_congr_left fun i hi => ?_
  have hlt : i < width := List.mem_range.1 (List.mem_reverse.1 hi)
  have hmod : ∀ a : Nat, (a % 2 ^ width).testBit i = a.testBit i := by
    intro a
    rw [Nat.testBit_mod_two_pow, decide_eq_true hlt, Bool.true_and]
  rw [← hmod m, h, hmod n]

/-- Four characters and three bytes have the same bits. -/
theorem quad_bits {w x y z : Nat} (hw : w < 64) (hx : x < 64) (hy : y < 64) (hz : z < 64) :
    byteBits (quad w x y z) = bits 6 w ++ (bits 6 x ++ (bits 6 y ++ bits 6 z)) := by
  have h1 : (UInt8.ofNat (w * 4 + x / 16)).toNat = w * 4 + x / 16 :=
    UInt8.toNat_ofNat_of_lt' (show _ < 256 by omega)
  have h2 : (UInt8.ofNat (x % 16 * 16 + y / 4)).toNat = x % 16 * 16 + y / 4 :=
    UInt8.toNat_ofNat_of_lt' (show _ < 256 by omega)
  have h3 : (UInt8.ofNat (y % 4 * 64 + z)).toNat = y % 4 * 64 + z :=
    UInt8.toNat_ofNat_of_lt' (show _ < 256 by omega)
  have hfirst : bits 8 (w * 4 + x / 16) = bits 6 w ++ bits 2 (x / 16) := by
    rw [bits_add 6 2, show (w * 4 + x / 16) / 2 ^ 2 = w by omega]
    congr 1
    exact bits_congr (by omega)
  have hsecond : bits 8 (x % 16 * 16 + y / 4) = bits 4 x ++ bits 4 (y / 4) := by
    rw [bits_add 4 4, show (x % 16 * 16 + y / 4) / 2 ^ 4 = x % 16 by omega]
    congr 1
    · exact bits_congr (by omega)
    · exact bits_congr (by omega)
  have hthird : bits 8 (y % 4 * 64 + z) = bits 2 y ++ bits 6 z := by
    rw [bits_add 2 6, show (y % 4 * 64 + z) / 2 ^ 6 = y % 4 by omega]
    congr 1
    · exact bits_congr (by omega)
    · exact bits_congr (by omega)
  have hcutx : bits 6 x = bits 2 (x / 16) ++ bits 4 x := bits_add 2 4 x
  have hcuty : bits 6 y = bits 4 (y / 4) ++ bits 2 y := bits_add 4 2 y
  calc byteBits (quad w x y z)
      = bits 8 (w * 4 + x / 16) ++ (bits 8 (x % 16 * 16 + y / 4) ++ (bits 8 (y % 4 * 64 + z) ++ [])) := by
        rw [quad, byteBits, List.flatMap_cons, List.flatMap_cons, List.flatMap_cons, List.flatMap_nil, h1, h2, h3]
    _ = bits 6 w ++ (bits 6 x ++ (bits 6 y ++ bits 6 z)) := by
        rw [hfirst, hsecond, hthird, hcutx, hcuty, List.append_nil]
        simp only [List.append_assoc]

/-- **The bytes of a text** have its bits, without what is left over. -/
theorem decodeRaw_bits : (s : Bytes) → {v : Bytes} → decodeRaw s = some v → byteBits v <+: textBits s
  | [], v, h => by
      cases h
      exact List.prefix_refl _
  | [_], v, h => by cases h
  | [a, b], v, h => by
      rw [decodeRaw] at h
      split at h
      · rename_i w x hw hx
        cases h
        have hquad := quad_bits (sextet_lt hw) (sextet_lt hx) (show 0 < 64 by omega) (show 0 < 64 by omega)
        have htext : textBits [a, b] <+: byteBits (quad w x 0 0) := by
          rw [hquad]
          simp [textBits, hw, hx]
        refine List.prefix_of_prefix_length_le (byteBits_take_first _ 1) htext ?_
        rw [length_byteBits, length_textBits]
        simp [quad]
      · cases h
  | [a, b, c], v, h => by
      rw [decodeRaw] at h
      split at h
      · rename_i w x y hw hx hy
        cases h
        have hquad := quad_bits (sextet_lt hw) (sextet_lt hx) (sextet_lt hy) (show 0 < 64 by omega)
        have htext : textBits [a, b, c] <+: byteBits (quad w x y 0) := by
          rw [hquad]
          simp [textBits, hw, hx, hy]
        refine List.prefix_of_prefix_length_le (byteBits_take_first _ 2) htext ?_
        rw [length_byteBits, length_textBits]
        simp [quad]
      · cases h
  | a :: b :: c :: d :: s, v, h => by
      rw [decodeRaw] at h
      split at h
      · rename_i w x y z v' hw hx hy hz hv
        cases h
        have htext : textBits (a :: b :: c :: d :: s) = byteBits (quad w x y z) ++ textBits s := by
          rw [quad_bits (sextet_lt hw) (sextet_lt hx) (sextet_lt hy) (sextet_lt hz)]
          simp [textBits, hw, hx, hy, hz]
        rw [byteBits_append, htext, List.prefix_append_right_inj]
        exact decodeRaw_bits s hv
      · cases h

/-! ### Padding that is counted -/

/-- Why a text is not decoded: a character or a group that is no base64, or more padding than bytes. -/
inductive Refusal
  | text
  | length
  deriving DecidableEq, Repr

/-- As many bytes are dropped as the text holds padding characters. -/
def decodeCounted (s : Bytes) : Except Refusal Bytes :=
  match decodeRaw s with
  | none => .error .text
  | some decoded =>
    if decoded.length < s.count padChar then .error .length
    else .ok (decoded.take (decoded.length - s.count padChar))

/-- The texts on which the decoder keeps its promise: those that it cannot read, and the padded ones, unless two padding
characters follow complete groups of four. -/
def Sound (s : Bytes) : Prop := ¬Readable s ∨ ∃ body k, Padded s body k ∧ ¬(k = 2 ∧ 4 ∣ body.length)

section

variable {s body v : Bytes} {k : ℕ}

theorem Padded.count (h : Padded s body k) : s.count padChar = k := by
  have hbody : body.count padChar = 0 :=
    List.count_eq_zero_of_not_mem fun hmem => (h.alphabet padChar hmem).1 rfl
  rw [h.eq, List.count_append, hbody, List.count_replicate_self, Nat.zero_add]

theorem Padded.length (h : Padded s body k) : s.length = body.length + k := by
  rw [h.eq, List.length_append, List.length_replicate]

theorem Padded.drop (h : Padded s body k) : s.drop (s.length - s.count padChar) = List.replicate (s.count padChar) padChar := by
  rw [h.length, h.count, Nat.add_sub_cancel, h.eq, List.drop_left]

theorem decodeCounted_refuses : decodeCounted s = .error .text ↔ ¬Readable s := by
  rw [← decodeRaw_returns_iff, decodeCounted]
  cases decodeRaw s with
  | none => simp
  | some decoded =>
      dsimp only
      split_ifs
      · simp
      · simp

theorem decodeCounted_returns (h : decodeCounted s = .ok v) :
    ∃ decoded, decodeRaw s = some decoded ∧ s.count padChar ≤ decoded.length ∧
      v = decoded.take (decoded.length - s.count padChar) := by
  rw [decodeCounted] at h
  split at h
  · cases h
  · rename_i decoded hdecoded
    split_ifs at h with hlt
    cases h
    exact ⟨decoded, hdecoded, not_lt.1 hlt, rfl⟩

theorem decodeCounted_length (h : decodeCounted s = .ok v) : v.length = s.length * 3 / 4 - s.count padChar := by
  obtain ⟨decoded, hdecoded, hle, rfl⟩ := decodeCounted_returns h
  have hlength := decodeRaw_length s hdecoded
  rw [List.length_take, hlength]
  omega

/-- What is returned for a padded text are its bytes, if they are as many. -/
theorem Padded.grouped (h : Padded s body k) (hv : decodeCounted s = .ok v) (hlength : v.length = 6 * body.length / 8) :
    Grouped body v := by
  refine ⟨hlength, ?_⟩
  obtain ⟨decoded, hdecoded, -, rfl⟩ := decodeCounted_returns hv
  have hprefix := (byteBits_take_first decoded (decoded.length - s.count padChar)).trans (decodeRaw_bits s hdecoded)
  have hbody : textBits body <+: textBits s := by
    rw [h.eq, textBits_append]
    exact List.prefix_append _ _
  refine List.prefix_of_prefix_length_le hprefix hbody ?_
  rw [length_byteBits, length_textBits, hlength]
  omega

/-- The number of bytes that a padded text is decoded to. -/
theorem Padded.decoded_length (h : Padded s body k) (hv : decodeCounted s = .ok v) :
    v.length = (body.length + k) * 3 / 4 - k := by
  rw [decodeCounted_length hv, h.length, h.count]

theorem padding_bytes {n k : ℕ} (hk : k ≤ 2) (hreadable : (n + k) % 4 ≠ 1) (hgroups : ¬(k = 2 ∧ 4 ∣ n)) :
    (n + k) * 3 / 4 - k = 6 * n / 8 := by
  obtain ⟨q, r, hr, rfl⟩ : ∃ q r, r < 4 ∧ n = 4 * q + r := ⟨n / 4, n % 4, Nat.mod_lt _ (by omega), by omega⟩
  interval_cases k
  · omega
  · interval_cases r <;> omega
  · interval_cases r <;> omega

/-- **Counting the padding** keeps the promise exactly on the sound texts. -/
theorem decodeCounted_lawful_iff (s : Bytes) : Lawful .text s (decodeCounted s) ↔ Sound s := by
  constructor
  · intro h
    by_cases hreadable : Readable s
    · have hpadded : ∃ body k, Padded s body k := by
        by_contra hnone
        exact decodeCounted_refuses.1 (h.refused hnone) hreadable
      obtain ⟨body, k, hp⟩ := hpadded
      refine .inr ⟨body, k, hp, fun ⟨hk, hgroups⟩ => ?_⟩
      have hne : body.length ≠ 0 := fun hnil => by
        have hk' := hp.notAlone (List.eq_nil_of_length_eq_zero hnil)
        omega
      obtain ⟨decoded, hdecoded⟩ := (decodeRaw_returns_iff s).2 hreadable
      have hlength := decodeRaw_length s hdecoded
      rw [hp.length] at hlength
      have hv : decodeCounted s = .ok (decoded.take (decoded.length - s.count padChar)) := by
        rw [decodeCounted, hdecoded]
        exact if_neg (by rw [hp.count]; omega)
      obtain ⟨body', k', hp', hgrouped⟩ := h.returned _ hv
      have hsame := hp.length.symm.trans hp'.length
      have hcount := hp.count.symm.trans hp'.count
      have hbytes := hgrouped.length
      rw [hp.decoded_length hv] at hbytes
      omega
    · exact .inl hreadable
  · intro h
    rcases h with hunreadable | ⟨body, k, hp, hgroups⟩
    · have herror := decodeCounted_refuses.2 hunreadable
      refine ⟨fun v hv => ?_, fun _ => herror⟩
      cases herror.symm.trans hv
    · refine ⟨fun v hv => ⟨body, k, hp, hp.grouped hv ?_⟩, fun hnone => absurd ⟨body, k, hp⟩ hnone⟩
      obtain ⟨decoded, hdecoded, -, -⟩ := decodeCounted_returns hv
      have hreadable := ((decodeRaw_returns_iff s).1 ⟨decoded, hdecoded⟩).1
      rw [hp.length] at hreadable
      rw [hp.decoded_length hv]
      exact padding_bytes hp.atMost hreadable hgroups

/-- The promise does not depend on how the refusals are raised. -/
theorem lawful_mapError_iff {ε ε' : Type} {g : ε → ε'} (hg : Function.Injective g) (refusal : ε) (s : Bytes)
    (result : Except ε Bytes) : Lawful (g refusal) s (result.mapError g) ↔ Lawful refusal s result := by
  have herror : result.mapError g = .error (g refusal) ↔ result = .error refusal := by
    cases result with
    | ok v => exact iff_of_false (fun h => by cases h) (fun h => by cases h)
    | error e =>
        change Except.error (g e) = Except.error (g refusal) ↔ _
        rw [Except.error.injEq, Except.error.injEq, hg.eq_iff]
  constructor
  · intro h
    exact ⟨fun v hv => h.returned v (mapError_ok_iff.2 hv), fun hnone => herror.1 (h.refused hnone)⟩
  · intro h
    exact ⟨fun v hv => h.returned v (mapError_ok_iff.1 hv), fun hnone => herror.2 (h.refused hnone)⟩

end

end CvmAttestation.Base.Base64
