import CvmAttestation.BaseStream

/-! Reading and writing a buffer through a packed structure: a member is the bytes at its offset, and a word is stored
with its low byte first. A read or a write is `none` when it touches bytes that the buffer does not have. -/

namespace CvmAttestation.Base

/-- The bytes of a member. -/
def member (data : Bytes) (offset len : ℕ) : Bytes := (data.drop offset).take len

def ofLittleEndian : Bytes → ℕ
  | [] => 0
  | b :: d => b.toNat + 256 * ofLittleEndian d

/-- A number as `n` bytes. -/
def toLittleEndian : ℕ → ℕ → Bytes
  | 0, _ => []
  | n + 1, value => UInt8.ofNat (value % 256) :: toLittleEndian n (value / 256)

/-- The 32-bit word at an offset. -/
def word (data : Bytes) (offset : ℕ) : Option ℕ := (slice data offset 4).map ofLittleEndian

section

variable {data : Bytes} {offset len : ℕ}

theorem slice_member (h : offset + len ≤ data.length) : slice data offset len = some (member data offset len) :=
  slice_eq h

theorem slice_start (h : len ≤ data.length) : slice data 0 len = some (data.take len) := by
  rw [slice_eq (by omega), List.drop_zero]

theorem slice_eq_none (h : data.length < offset + len) : slice data offset len = none := if_neg (by omega)

theorem word_eq (h : offset + 4 ≤ data.length) : word data offset = some (ofLittleEndian (member data offset 4)) := by
  rw [word, slice_member h, Option.map_some]

theorem word_eq_none (h : data.length < offset + 4) : word data offset = none := by
  rw [word, slice_eq_none h, Option.map_none]

end

/-! ### Writes -/

@[simp] theorem length_toLittleEndian (n value : ℕ) : (toLittleEndian n value).length = n := by
  induction n generalizing value with
  | zero => rfl
  | succ n ih => rw [toLittleEndian, List.length_cons, ih]

section

variable {buffer piece : Bytes} {offset : ℕ}

theorem overwrite_eq_none (h : buffer.length < offset + piece.length) : overwrite buffer offset piece = none :=
  if_neg (by omega)

theorem length_overwrite {result : Bytes} (h : overwrite buffer offset piece = some result) :
    result.length = buffer.length := by
  unfold overwrite at h
  split at h
  · rename_i hfits
    cases h
    simp only [List.length_append, List.length_take, List.length_drop]
    omega
  · cases h

end

/-- The zeros that follow what is filled may be counted to it. -/
theorem filled_zeros {done : Bytes} {size gap : ℕ} (h : done.length + gap ≤ size) :
    filled (done ++ List.replicate gap 0) size = filled done size := by
  rw [filled, filled, List.length_append, List.length_replicate, List.append_assoc, List.replicate_append_replicate]
  congr 2
  omega

/-- A write that leaves zeros between what is filled and its own bytes. -/
theorem overwrite_filled_gap {done piece : Bytes} {size gap : ℕ} (h : done.length + gap + piece.length ≤ size) :
    overwrite (filled done size) (done.length + gap) piece =
      some (filled (done ++ List.replicate gap 0 ++ piece) size) := by
  have hlen : done.length + gap = (done ++ List.replicate gap 0).length := by
    rw [List.length_append, List.length_replicate]
  rw [← filled_zeros (by omega : done.length + gap ≤ size), hlen]
  apply overwrite_filled
  omega

end CvmAttestation.Base
