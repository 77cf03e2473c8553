import CvmAttestation.BaseStream
import Mathlib.Algebra.Order.Floor.Div

/-! HKDF over any MAC: a key is extracted from the input keying material under the salt, and expanded to output keying
material in blocks, each of which is the MAC of the block before it, the info and a counter of one octet. -/

namespace CvmAttestation.Base.Hkdf

/-- A MAC of one size. -/
structure Mac where
  compute : (key data : Bytes) → Bytes
  size : ℕ
  size_pos : 0 < size
  length_compute : ∀ key data, (compute key data).length = size

section

variable (H : Mac)

def extract (salt ikm : Bytes) : Bytes := H.compute salt ikm

variable (prk info : Bytes)

/-- `T(i) = HMAC(PRK, T(i-1) | info | i)`, and `T(0)` is empty. -/
def block : ℕ → Bytes
  | 0 => []
  | i + 1 => H.compute prk (block i ++ (info ++ [UInt8.ofNat (i + 1)]))

/-- `T(1) | T(2) | ... | T(n)`. -/
def blocks (n : ℕ) : Bytes := (List.range n).flatMap fun i => block H prk info (i + 1)

/-- The first octets of as many blocks as they need, and at most 255. -/
def expand (length : ℕ) : Option Bytes :=
  if length ≤ 255 * H.size then some ((blocks H prk info (length ⌈/⌉ H.size)).take length) else none

end

def derive (H : Mac) (salt ikm info : Bytes) (length : ℕ) : Option Bytes := expand H (extract H salt ikm) info length

section

variable {H : Mac} {prk info : Bytes}

theorem length_block (i : ℕ) : (block H prk info (i + 1)).length = H.size := H.length_compute _ _

theorem blocks_succ (n : ℕ) : blocks H prk info (n + 1) = blocks H prk info n ++ block H prk info (n + 1) := by
  rw [blocks, List.range_succ, List.flatMap_append, List.flatMap_singleton, blocks]

theorem length_blocks (n : ℕ) : (blocks H prk info n).length = n * H.size := by
  induction n with
  | zero => rw [blocks, List.range_zero, List.flatMap_nil, List.length_nil, Nat.zero_mul]
  | succ n ih => rw [blocks_succ, List.length_append, ih, length_block, Nat.succ_mul]

theorem expand_eq {length : ℕ} (h : length ≤ 255 * H.size) :
    expand H prk info length = some ((blocks H prk info (length ⌈/⌉ H.size)).take length) := if_pos h

/-- The blocks have the octets that are taken from them. -/
theorem le_length_blocks (length : ℕ) : length ≤ (blocks H prk info (length ⌈/⌉ H.size)).length := by
  rw [length_blocks, Nat.mul_comm]
  exact (ceilDiv_le_iff_le_mul H.size_pos).1 le_rfl

end

end CvmAttestation.Base.Hkdf
