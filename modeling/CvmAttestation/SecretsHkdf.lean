import CvmAttestation.BaseHkdf
import CvmAttestation.SecretsErrors
import Mathlib.Data.Rat.Floor

/-! The key derivation. On Windows `BcryptHKDF` writes out the rounds of HKDF over HMAC and keeps nothing between two
calls. On Linux `OsslHKDF` leaves HKDF to OpenSSL, whose context lives as long as the object: a call replaces the salt in
it, unless the salt is empty and the version of OpenSSL at hand sees to it differently, and appends to the info. Both
start from the SHA-256 hash of the shared secret. -/

namespace CvmAttestation.Secrets

open Base

/-- SHA-256, and HMAC over it. -/
structure Hashes where
  sha256 : Bytes → Bytes
  hmac : Hkdf.Mac
  hsize : hmac.size = 32

def sha256HashSize : ℕ := 32

variable (P : Hashes)

namespace BcryptHKDF

/-- `BCryptDeriveKey` gives the hash of the secret, which is the message under the salt. -/
def extract (secret salt : Bytes) : Bytes := P.hmac.compute salt (P.sha256 secret)

/-- What is hashed first in a round: the block of the round before. -/
def previousBlock (tBuffer : Bytes) (i : ℕ) : Option Bytes :=
  if 0 < i then slice tBuffer ((i - 1) * sha256HashSize) sha256HashSize else some []

/-- A round of `Expand`: the counter and `tBuffer` before and after it, `none` when it would leave the buffer. -/
def expandRound (prk info : Bytes) (s : UInt8 × Bytes) (i : ℕ) : Option (UInt8 × Bytes) := do
  let (counter, tBuffer) := s
  let previous ← previousBlock tBuffer i
  let hash := P.hmac.compute prk (previous ++ (info ++ [counter]))
  let tBuffer ← overwrite tBuffer (i * sha256HashSize) hash
  return (counter + 1, tBuffer)

def numRounds (keySize : ℕ) : ℕ := ⌈(keySize : ℚ) / sha256HashSize⌉₊

def expand (prk info : Bytes) (keySize : ℕ) : Option Bytes := do
  let tBuffer := List.replicate (numRounds keySize * sha256HashSize) 0
  let s ← (List.range (numRounds keySize)).foldlM (expandRound P prk info) (1, tBuffer)
  slice s.2 0 keySize

def deriveKey (secret salt info : Bytes) (keySize : ℕ) : Option Bytes := expand P (extract P secret salt) info keySize

end BcryptHKDF

/-- The context of OpenSSL for HKDF, in the mode that extracts and expands. -/
structure EvpPkeyCtx where
  key : Bytes
  salt : Bytes
  info : Bytes
  deriving DecidableEq, Repr

/-- What `EVP_PKEY_CTX_set1_hkdf_salt` makes of an empty salt. Versions of OpenSSL differ in it. -/
inductive EmptySalt where
  | replaces
  | keeps
  | refuses
  deriving DecidableEq, Repr

namespace OsslHKDF

def new (secret : Bytes) : EvpPkeyCtx := ⟨P.sha256 secret, [], []⟩

/-- `EVP_PKEY_CTX_set1_hkdf_salt`. -/
def extract (E : EmptySalt) (pctx : EvpPkeyCtx) (salt : Bytes) : Except Exc EvpPkeyCtx :=
  if salt = [] ∧ E = .refuses then .error .runtimeError
  else if salt = [] ∧ E = .keeps then .ok pctx
  else .ok { pctx with salt }

/-- `EVP_PKEY_CTX_add1_hkdf_info` and `EVP_PKEY_derive`. -/
def expand (pctx : EvpPkeyCtx) (info : Bytes) (keySize : ℕ) : Except Exc Bytes × EvpPkeyCtx :=
  let pctx := { pctx with info := pctx.info ++ info }
  match Hkdf.derive P.hmac pctx.salt pctx.key pctx.info keySize with
  | some okm => (.ok okm, pctx)
  | none => (.error .runtimeError, pctx)

def deriveKey (E : EmptySalt) (pctx : EvpPkeyCtx) (salt info : Bytes) (keySize : ℕ) : Except Exc Bytes × EvpPkeyCtx :=
  match extract E pctx salt with
  | .ok pctx => expand P pctx info keySize
  | .error e => (.error e, pctx)

end OsslHKDF

/-! ### The rounds on Windows -/

section

variable {P} {prk info : Bytes}

/-- The buffer of `n` rounds after `i` of them. -/
def roundBuffer (P : Hashes) (prk info : Bytes) (n i : ℕ) : Bytes :=
  filled (Hkdf.blocks P.hmac prk info i) (n * sha256HashSize)

theorem length_blocks_sha256 (P : Hashes) (prk info : Bytes) (i : ℕ) : (Hkdf.blocks P.hmac prk info i).length = i * sha256HashSize := by
  rw [Hkdf.length_blocks, P.hsize]
  rfl

/-- The buffer holds the last block that was written. -/
theorem slice_roundBuffer {n i : ℕ} (h : i < n) :
    slice (roundBuffer P prk info n (i + 1)) (i * sha256HashSize) sha256HashSize =
      some (Hkdf.block P.hmac prk info (i + 1)) := by
  have hblock : (Hkdf.block P.hmac prk info (i + 1)).length = sha256HashSize := by
    rw [Hkdf.length_block, P.hsize]
    rfl
  have hfits : (i + 1) * sha256HashSize ≤ n * sha256HashSize := Nat.mul_le_mul_right _ h
  have hbuffer : (roundBuffer P prk info n (i + 1)).length = n * sha256HashSize :=
    length_filled (by rw [length_blocks_sha256]; exact hfits)
  rw [slice_eq (by rw [hbuffer, ← Nat.succ_mul]; exact hfits), roundBuffer, filled, Hkdf.blocks_succ, List.append_assoc]
  rw [← length_blocks_sha256 P prk info, List.drop_left, ← hblock, List.take_left]

/-- What a round does: it writes the next block. -/
theorem expandRound_eq {n i : ℕ} (h : i < n) :
    BcryptHKDF.expandRound P prk info (UInt8.ofNat (i + 1), roundBuffer P prk info n i) i =
      some (UInt8.ofNat (i + 2), roundBuffer P prk info n (i + 1)) := by
  have hprevious : BcryptHKDF.previousBlock (roundBuffer P prk info n i) i = some (Hkdf.block P.hmac prk info i) := by
    cases i with
    | zero => rfl
    | succ i => exact slice_roundBuffer (Nat.lt_of_succ_lt h)
  have hfits : (i + 1) * sha256HashSize ≤ n * sha256HashSize := Nat.mul_le_mul_right _ h
  have hwrite : overwrite (roundBuffer P prk info n i) (i * sha256HashSize) (Hkdf.block P.hmac prk info (i + 1)) =
      some (roundBuffer P prk info n (i + 1)) := by
    rw [roundBuffer, ← length_blocks_sha256 P prk info i, overwrite_filled, ← Hkdf.blocks_succ]
    · rfl
    · rw [← List.length_append, ← Hkdf.blocks_succ, length_blocks_sha256]
      exact hfits
  have hcounter : UInt8.ofNat (i + 1) + 1 = UInt8.ofNat (i + 2) := (UInt8.ofNat_add (i + 1) 1).symm
  calc BcryptHKDF.expandRound P prk info (UInt8.ofNat (i + 1), roundBuffer P prk info n i) i
      = (overwrite (roundBuffer P prk info n i) (i * sha256HashSize) (Hkdf.block P.hmac prk info (i + 1))).bind
          fun tBuffer => some (UInt8.ofNat (i + 1) + 1, tBuffer) := by
        unfold BcryptHKDF.expandRound
        simp only [hprevious]
        rfl
    _ = some (UInt8.ofNat (i + 2), roundBuffer P prk info n (i + 1)) := by rw [hwrite, hcounter, Option.bind_some]

/-- The rounds write the blocks. -/
theorem foldlM_expandRound {n k : ℕ} (h : k ≤ n) :
    (List.range k).foldlM (BcryptHKDF.expandRound P prk info) (1, roundBuffer P prk info n 0) =
      some (UInt8.ofNat (k + 1), roundBuffer P prk info n k) := by
  induction k with
  | zero => rfl
  | succ k ih =>
      rw [List.range_succ, List.foldlM_append, ih (Nat.le_of_succ_le h)]
      show (BcryptHKDF.expandRound P prk info (UInt8.ofNat (k + 1), roundBuffer P prk info n k) k).bind some = _
      rw [expandRound_eq h, Option.bind_some]

theorem numRounds_eq (keySize : ℕ) : BcryptHKDF.numRounds keySize = keySize ⌈/⌉ sha256HashSize := by
  have hpos : (0 : ℚ) < sha256HashSize := by norm_num [sha256HashSize]
  apply eq_of_forall_ge_iff
  intro n
  rw [BcryptHKDF.numRounds, Nat.ceil_le, div_le_iff₀ hpos, ceilDiv_le_iff_le_mul (by decide), Nat.mul_comm]
  exact_mod_cast Iff.rfl

/-- **The rounds on Windows are HKDF-Expand**, for every number of blocks that it allows. -/
theorem bcrypt_expand_eq {keySize : ℕ} (h : keySize ≤ 255 * sha256HashSize) :
    BcryptHKDF.expand P prk info keySize = Hkdf.expand P.hmac prk info keySize := by
  have hzeros : List.replicate (BcryptHKDF.numRounds keySize * sha256HashSize) 0 =
      roundBuffer P prk info (BcryptHKDF.numRounds keySize) 0 := rfl
  have hfull : roundBuffer P prk info (BcryptHKDF.numRounds keySize) (BcryptHKDF.numRounds keySize) =
      Hkdf.blocks P.hmac prk info (keySize ⌈/⌉ P.hmac.size) := by
    rw [roundBuffer, ← length_blocks_sha256 P prk info, filled_length, numRounds_eq, P.hsize]
    rfl
  have hsize : keySize ≤ 255 * P.hmac.size := by
    rw [P.hsize]
    exact h
  rw [BcryptHKDF.expand, hzeros, foldlM_expandRound le_rfl, Hkdf.expand_eq hsize]
  show slice (roundBuffer P prk info (BcryptHKDF.numRounds keySize) (BcryptHKDF.numRounds keySize)) 0 keySize = _
  rw [hfull, slice_eq (by rw [Nat.zero_add]; exact Hkdf.le_length_blocks keySize), List.drop_zero]

end

section

variable {P} {E : EmptySalt}

/-- The salt that a call leaves in the context. -/
def EmptySalt.merge (E : EmptySalt) (old salt : Bytes) : Bytes := if salt = [] ∧ E = .keeps then old else salt

theorem merge_nil (E : EmptySalt) (salt : Bytes) : E.merge [] salt = salt := by
  unfold EmptySalt.merge
  split_ifs with h
  · exact h.1.symm
  · rfl

theorem extract_eq {salt : Bytes} (h : salt = [] → E ≠ .refuses) (pctx : EvpPkeyCtx) :
    OsslHKDF.extract E pctx salt = .ok { pctx with salt := E.merge pctx.salt salt } := by
  unfold OsslHKDF.extract EmptySalt.merge
  rw [if_neg (not_and.2 h)]
  split_ifs
  · rfl
  · rfl

theorem extract_refused (pctx : EvpPkeyCtx) : OsslHKDF.extract .refuses pctx [] = .error .runtimeError := rfl

/-- What a call derives, and what it leaves in the context: the salt is merged into it, and the info appended. -/
theorem deriveKey_eq {salt : Bytes} (h : salt = [] → E ≠ .refuses) (pctx : EvpPkeyCtx) (info : Bytes) (keySize : ℕ) :
    OsslHKDF.deriveKey P E pctx salt info keySize =
      ((match Hkdf.derive P.hmac (E.merge pctx.salt salt) pctx.key (pctx.info ++ info) keySize with
        | some okm => .ok okm
        | none => .error .runtimeError), ⟨pctx.key, E.merge pctx.salt salt, pctx.info ++ info⟩) := by
  unfold OsslHKDF.deriveKey
  rw [extract_eq h]
  unfold OsslHKDF.expand
  dsimp only
  split <;> rfl

theorem deriveKey_refused (pctx : EvpPkeyCtx) (info : Bytes) (keySize : ℕ) :
    OsslHKDF.deriveKey P .refuses pctx [] info keySize = (.error .runtimeError, pctx) := rfl

end

/-- **On both platforms a fresh object derives the same key**, the HKDF output for the hash of the secret, for every
size up to 255 blocks, whenever OpenSSL takes the salt at all. -/
theorem deriveKey_hkdf (P : Hashes) (secret salt info : Bytes) (keySize : ℕ) (hsize : keySize ≤ 8160) :
    ∃ okm, Hkdf.derive P.hmac salt (P.sha256 secret) info keySize = some okm ∧ okm.length = keySize ∧
      BcryptHKDF.deriveKey P secret salt info keySize = some okm ∧
      ∀ E : EmptySalt, (salt = [] → E ≠ .refuses) →
        (OsslHKDF.deriveKey P E (OsslHKDF.new P secret) salt info keySize).1 = .ok okm := by
  have hblocks : keySize ≤ 255 * P.hmac.size := by
    rw [P.hsize]
    exact hsize
  have hderive : Hkdf.derive P.hmac salt (P.sha256 secret) info keySize = some
      ((Hkdf.blocks P.hmac (Hkdf.extract P.hmac salt (P.sha256 secret)) info (keySize ⌈/⌉ P.hmac.size)).take keySize) :=
    Hkdf.expand_eq hblocks
  refine ⟨_, hderive, ?_, ?_, ?_⟩
  · rw [List.length_take]
    exact Nat.min_eq_left (Hkdf.le_length_blocks keySize)
  · rw [BcryptHKDF.deriveKey, bcrypt_expand_eq hsize]
    exact hderive
  · intro E htaken
    rw [deriveKey_eq htaken]
    simp only [OsslHKDF.new, merge_nil, List.nil_append, hderive]

namespace Sample

/-- The hash of the secret of one octet 1. -/
def sha256One : Bytes :=
  [0x4b, 0xf5, 0x12, 0x2f, 0x34, 0x45, 0x54, 0xc5, 0x3b, 0xde, 0x2e, 0xbb, 0x8c, 0xd2, 0xb7, 0xe3,
    0xd1, 0x60, 0x0a, 0xd6, 0x31, 0xc3, 0x85, 0xa5, 0xd7, 0xcc, 0xe2, 0x3c, 0x77, 0x85, 0x45, 0x9a]

/-- The key that is extracted from it under the salt of one octet 2. -/
def extracted : Bytes :=
  [0x08, 0xdd, 0xbf, 0x76, 0x2f, 0x0c, 0x55, 0x55, 0x6b, 0x08, 0xf8, 0xb9, 0x8c, 0x08, 0xa8, 0x74,
    0xdd, 0xcc, 0x02, 0x84, 0x83, 0x93, 0x0a, 0x09, 0xa8, 0xea, 0x26, 0x09, 0x2e, 0x3d, 0x62, 0xc3]

/-- The first block for the info. -/
def firstBlock (info : Bytes) : Bytes :=
  if info = [3] then
    [0x6a, 0xe0, 0xaa, 0xc6, 0x57, 0xfa, 0x58, 0xcd, 0x6b, 0x24, 0x82, 0x8e, 0x42, 0xfa, 0x4e, 0xd6,
      0xb3, 0x0e, 0x5d, 0x89, 0x99, 0x36, 0x34, 0xae, 0x40, 0x52, 0x74, 0xbe, 0x8d, 0xfe, 0x81, 0x9f]
  else if info = [4] then
    [0xda, 0x3d, 0xf3, 0x2a, 0x2e, 0x66, 0x17, 0xc8, 0xe8, 0x8d, 0x09, 0xf5, 0x2c, 0xe8, 0x9e, 0xcd,
      0xe6, 0xa2, 0xc0, 0x39, 0x72, 0x06, 0x53, 0x45, 0x35, 0x9e, 0x0b, 0xdb, 0x77, 0x68, 0x95, 0x60]
  else
    [0xb5, 0x2c, 0x53, 0xba, 0xc9, 0x5e, 0x0a, 0x46, 0x19, 0xe9, 0x03, 0xed, 0xdb, 0xca, 0xef, 0x9c,
      0xe3, 0x26, 0xe2, 0x1b, 0x68, 0xa5, 0x63, 0x3e, 0x39, 0x48, 0xcc, 0x5e, 0x19, 0xfc, 0x35, 0xf1]

/-- The second block for the info of one octet 3. -/
def secondBlock : Bytes :=
  [0x49, 0x7b, 0x93, 0x1a, 0xc5, 0x77, 0xc7, 0xf0, 0xf7, 0xbf, 0xf8, 0xe0, 0x16, 0x17, 0x88, 0x3f,
    0xc6, 0xf5, 0x2d, 0x31, 0xcb, 0x6b, 0x5f, 0x5c, 0x04, 0xec, 0xa5, 0x46, 0x5d, 0xac, 0x3b, 0xc9]

theorem length_firstBlock (info : Bytes) : (firstBlock info).length = 32 := by
  unfold firstBlock
  split_ifs <;> rfl

/-- HMAC with SHA-256 on the messages of this secret, this salt, and the infos that are looked at. -/
def hmac : Hkdf.Mac where
  compute key data :=
    if key = [2] then extracted
    else if data.length = 34 then secondBlock
    else firstBlock data.dropLast
  size := 32
  size_pos := by decide
  length_compute key data := by
    split_ifs
    · rfl
    · rfl
    · exact length_firstBlock _

def hashes : Hashes := ⟨fun _ => sha256One, hmac, rfl⟩

end Sample

open Sample in
/-- Two blocks, of which the second one gives a single octet. -/
theorem deriveKey_hkdf_two_blocks :
    33 ≤ 8160 ∧ BcryptHKDF.deriveKey hashes [1] [2] [3] 33 = some (firstBlock [3] ++ [0x49]) ∧
      (OsslHKDF.deriveKey hashes .refuses (OsslHKDF.new hashes [1]) [2] [3] 33).1 = .ok (firstBlock [3] ++ [0x49]) := by
  have hderive : Hkdf.derive hashes.hmac [2] (hashes.sha256 [1]) [3] 33 = some (firstBlock [3] ++ [0x49]) := rfl
  obtain ⟨okm, hokm, -, hbcrypt, hossl⟩ := deriveKey_hkdf hashes [1] [2] [3] 33 (by decide)
  rw [hderive] at hokm
  obtain rfl := Option.some.inj hokm
  refine ⟨by decide, hbcrypt, hossl .refuses ?_⟩
  intro hnil
  cases hnil

/-! ### More than one call -/

structure DeriveCall where
  salt : Bytes
  info : Bytes
  keySize : ℕ
  deriving DecidableEq, Repr

/-- The call that throws before the context has changed. -/
def DeriveCall.Refused (E : EmptySalt) (c : DeriveCall) : Prop := c.salt = [] ∧ E = .refuses

instance (E : EmptySalt) (c : DeriveCall) : Decidable (c.Refused E) := by
  unfold DeriveCall.Refused
  infer_instance

/-- The context after the calls, whether they return or throw. -/
def OsslHKDF.after (E : EmptySalt) (pctx : EvpPkeyCtx) (calls : List DeriveCall) : EvpPkeyCtx :=
  calls.foldl (fun pctx c => (deriveKey P E pctx c.salt c.info c.keySize).2) pctx

/-- What a call finds in the context is of no effect on it: no info was appended, and where an empty salt would leave
an older one in place there is none. -/
structure Undisturbed (E : EmptySalt) (earlier : List DeriveCall) (c : DeriveCall) : Prop where
  taken : ¬c.Refused E
  infos : ∀ e ∈ earlier, ¬e.Refused E → e.info = []
  salts : c.salt = [] → E = .keeps → ∀ e ∈ earlier, e.salt = []

section

variable {P} {E : EmptySalt}

theorem after_cons (pctx : EvpPkeyCtx) (c : DeriveCall) (calls : List DeriveCall) :
    OsslHKDF.after P E pctx (c :: calls) =
      OsslHKDF.after P E (OsslHKDF.deriveKey P E pctx c.salt c.info c.keySize).2 calls := rfl

end
section

variable {P} {E : EmptySalt}

end

end CvmAttestation.Secrets
