import CvmAttestation.BaseBytes

/-! Stream ciphers over a text that comes in pieces: the text from a position on is combined with the keystream from
that position on, so that the pieces give together what the text gives at once. A buffer is filled piece by piece at a
position that is checked against its size. -/

namespace CvmAttestation.Base

/-- The text, whose first byte stands at position `n`, under the keystream. -/
def mask (keystream : ℕ → UInt8) : ℕ → Bytes → Bytes
  | _, [] => []
  | n, b :: d => (b ^^^ keystream n) :: mask keystream (n + 1) d

section

variable (keystream : ℕ → UInt8)

@[simp] theorem length_mask (n : ℕ) (d : Bytes) : (mask keystream n d).length = d.length := by
  induction d generalizing n with
  | nil => rfl
  | cons b d ih => simp only [mask, List.length_cons, ih]

theorem mask_append (n : ℕ) (d e : Bytes) :
    mask keystream n (d ++ e) = mask keystream n d ++ mask keystream (n + d.length) e := by
  induction d generalizing n with
  | nil => rfl
  | cons b d ih =>
      have hpos : n + 1 + d.length = n + (b :: d).length := by
        rw [List.length_cons]
        omega
      simp only [List.cons_append, mask, ih, hpos]

/-- The same keystream takes itself away. -/
theorem mask_mask (n : ℕ) (d : Bytes) : mask keystream n (mask keystream n d) = d := by
  induction d generalizing n with
  | nil => rfl
  | cons b d ih => simp only [mask, ih, UInt8.xor_assoc, UInt8.xor_self, UInt8.xor_zero]

end

/-! ### Pieces of a buffer -/

/-- The `len` bytes from `offset` on, if the buffer has them. -/
def slice (data : Bytes) (offset len : ℕ) : Option Bytes :=
  if offset + len ≤ data.length then some ((data.drop offset).take len) else none

/-- The buffer with a piece of it replaced, if it fits there. -/
def overwrite (buffer : Bytes) (offset : ℕ) (piece : Bytes) : Option Bytes :=
  if offset + piece.length ≤ buffer.length then
    some (buffer.take offset ++ (piece ++ buffer.drop (offset + piece.length)))
  else none

/-- A buffer of a size whose first bytes are filled. -/
def filled (done : Bytes) (size : ℕ) : Bytes := done ++ List.replicate (size - done.length) 0

theorem slice_eq {data : Bytes} {offset len : ℕ} (h : offset + len ≤ data.length) :
    slice data offset len = some ((data.drop offset).take len) := if_pos h

theorem length_slice {data : Bytes} {offset len : ℕ} (h : offset + len ≤ data.length) :
    ((data.drop offset).take len).length = len := by
  rw [List.length_take, List.length_drop]
  omega

theorem length_filled {done : Bytes} {size : ℕ} (h : done.length ≤ size) : (filled done size).length = size := by
  rw [filled, List.length_append, List.length_replicate]
  omega

theorem overwrite_filled {done piece : Bytes} {size : ℕ} (h : done.length + piece.length ≤ size) :
    overwrite (filled done size) done.length piece = some (filled (done ++ piece) size) := by
  have hlen : (filled done size).length = size := length_filled (by omega)
  have hrest : (List.replicate (size - done.length) (0 : UInt8)).drop (done.length + piece.length - done.length) =
      List.replicate (size - (done ++ piece).length) 0 := by
    rw [List.drop_replicate, List.length_append]
    congr 1
    omega
  have hdone : done.drop (done.length + piece.length) = [] := List.drop_eq_nil_of_le (by omega)
  rw [overwrite, if_pos (by rw [hlen]; exact h)]
  congr 1
  rw [filled, List.take_left, List.drop_append, hdone, hrest, List.nil_append, filled, List.append_assoc]

theorem filled_length (done : Bytes) : filled done done.length = done := by
  rw [filled, Nat.sub_self, List.replicate_zero, List.append_nil]

/-- The first write to a buffer of zeros. -/
theorem overwrite_zeros {done : Bytes} {size : ℕ} (h : done.length ≤ size) :
    overwrite (List.replicate size 0) 0 done = some (filled done size) := by
  have hwrite := @overwrite_filled [] done size (by rwa [List.length_nil, Nat.zero_add])
  rwa [List.nil_append] at hwrite

/-- The last write, which fills the buffer. -/
theorem overwrite_last (done rest : Bytes) :
    overwrite (filled done (done.length + rest.length)) done.length rest = some (done ++ rest) := by
  rw [overwrite_filled le_rfl, ← List.length_append, filled_length]

theorem take_filled {done : Bytes} {size n : ℕ} (hdone : done.length ≤ n) (hsize : n ≤ size) :
    (filled done size).take n = filled done n := by
  have hrest : min (n - done.length) (size - done.length) = n - done.length := by omega
  rw [filled, filled, List.take_append, List.take_of_length_le hdone, List.take_replicate, hrest]

theorem mask_take_add (keystream : ℕ → UInt8) {data : Bytes} {m len : ℕ} (h : m + len ≤ data.length) :
    mask keystream 0 (data.take (m + len)) =
      mask keystream 0 (data.take m) ++ mask keystream m ((data.drop m).take len) := by
  have htake : (data.take m).length = m := by
    rw [List.length_take]
    omega
  rw [List.take_add, mask_append, htake, Nat.zero_add]

/-- A buffer takes the next piece of the text under the keystream. -/
theorem overwrite_mask {keystream : ℕ → UInt8} {data : Bytes} {size m len : ℕ} (hdata : m + len ≤ data.length)
    (hsize : m + len ≤ size) :
    overwrite (filled (mask keystream 0 (data.take m)) size) m (mask keystream m ((data.drop m).take len)) =
      some (filled (mask keystream 0 (data.take (m + len))) size) := by
  have hdone : (mask keystream 0 (data.take m)).length = m := by
    rw [length_mask, List.length_take]
    omega
  have hfits : (mask keystream 0 (data.take m)).length + (mask keystream m ((data.drop m).take len)).length ≤ size := by
    rw [hdone, length_mask, length_slice hdata]
    exact hsize
  have hfilled := overwrite_filled hfits
  rw [hdone] at hfilled
  rw [hfilled, mask_take_add _ hdata]

end CvmAttestation.Base
