import CvmAttestation.BaseControl
import CvmAttestation.BaseStream

/-! AES-GCM of the two platforms. On Linux one call of OpenSSL takes the whole text. On Windows the text is passed to
BCrypt in chained calls, each of which continues where the last one stopped: all but the last have to process a
positive multiple of the block length, and the last one computes or compares the tag. -/

namespace CvmAttestation.Secrets.Gcm

open Base

structure AesKey where
  bytes : Bytes
  size : bytes.length = 32

structure Nonce where
  bytes : Bytes
  size : bytes.length = 12

def blockLength : ℕ := 16

def tagLength : ℕ := 16

/-- AES-GCM without additional data: a keystream by position, and a tag of the ciphertext. -/
structure AesGcm where
  keystream : AesKey → Nonce → ℕ → UInt8
  mac : AesKey → Nonce → Bytes → Bytes
  length_mac : ∀ key nonce text, (mac key nonce text).length = tagLength

inductive GcmError
  | chainRule
  | bufferTooSmall
  | outOfBounds
  | authTagMismatch
  | vectorTooLong
  | evp
  deriving DecidableEq, Repr

/-! ### Integers and vectors -/

/-- A 32-bit `int` or `long`. -/
def toInt32 (n : ℤ) : ℤ := n.bmod (2 ^ 32)

/-- A `long long`. -/
def toInt64 (n : ℤ) : ℤ := n.bmod (2 ^ 64)

def toSize (n : ℤ) : ℕ := (n % 2 ^ 64).toNat

/-- `std::vector<unsigned char>(n)`; a size above `max_size` is an exception. -/
def vectorOfSize (n : ℤ) : Except GcmError Bytes :=
  if 2 ^ 63 ≤ toSize n then .error .vectorTooLong else .ok (List.replicate (toSize n) 0)

def resize (v : Bytes) (n : ℕ) : Bytes := filled (v.take n) n

def orFault {α : Type} : Option α → Except GcmError α
  | some a => .ok a
  | none => .error .outOfBounds

def roundUp (numToRound multiple : ℕ) : ℕ := (numToRound + multiple - 1) / multiple * multiple

section

variable (G : AesGcm) (key : AesKey)

/-! ### Windows -/

/-- `GcmChainingInfo`: the nonce, and whether calls are chained. -/
structure GcmChainingInfo where
  nonce : Nonce
  chainCalls : Bool

def setChainingInfo (nonce : Nonce) : GcmChainingInfo := ⟨nonce, true⟩

/-- What BCrypt keeps from call to call: the ciphertext of the message so far; and the inputs it was given. The call
that only starts a message passes no data and leaves it empty. -/
structure Chain where
  text : Bytes
  inputs : List Bytes

def Chain.start : Chain := ⟨[], []⟩

/-- What BCrypt asks of a call with `cbInput` bytes and room for `cbOutput`. -/
def checkCall (chained : Bool) (cbInput cbOutput : ℕ) : Except GcmError Unit :=
  if cbOutput < cbInput then .error .bufferTooSmall
  else if chained ∧ ¬(0 < cbInput ∧ blockLength ∣ cbInput) then .error .chainRule
  else .ok ()

def bcryptEncrypt (nonce : Nonce) (chained : Bool) (chain : Chain) (input : Bytes) (cbOutput : ℕ) :
    Except GcmError (Chain × Bytes) := do
  checkCall chained input.length cbOutput
  let output := mask (G.keystream key nonce) chain.text.length input
  return (⟨chain.text ++ output, chain.inputs ++ [input]⟩, output)

def bcryptDecrypt (nonce : Nonce) (chained : Bool) (authTag : Bytes) (chain : Chain) (input : Bytes) (cbOutput : ℕ) :
    Except GcmError (Chain × Bytes) := do
  checkCall chained input.length cbOutput
  if chained = false ∧ G.mac key nonce (chain.text ++ input) ≠ authTag then .error .authTagMismatch
  else return (⟨chain.text ++ input, chain.inputs ++ [input]⟩, mask (G.keystream key nonce) chain.text.length input)

/-- The local variables of `Encrypt`. -/
structure EncryptState where
  ptxOffset : ℕ
  ciphertextSize : ℕ
  chain : Chain
  result : Bytes

/-- A call of `BCryptEncrypt`, from the data at one offset to the result at the other, and the bytes done. -/
def encryptCall (nonce : Nonce) (chained : Bool) (data : Bytes) (s : EncryptState) (cbInput : ℕ) :
    Except GcmError (Chain × Bytes × ℕ) := do
  let input ← orFault (slice data s.ptxOffset cbInput)
  let (chain, output) ← bcryptEncrypt G key nonce chained s.chain input blockLength
  let result ← orFault (overwrite s.result s.ciphertextSize output)
  return (chain, result, output.length)

def encryptLoop (info : GcmChainingInfo) (data : Bytes) : ℕ → EncryptState → Except GcmError EncryptState
  | 0, s => .ok s
  | n + 1, s => do
    let (chain, result, bytesDone) ← encryptCall G key info.nonce info.chainCalls data s blockLength
    encryptLoop info data n ⟨s.ptxOffset + bytesDone, s.ciphertextSize + blockLength, chain, result⟩

/-- `GcmWrapper::Encrypt`, with the inputs of its calls in order. -/
def encrypt (info : GcmChainingInfo) (data : Bytes) : Except GcmError (Bytes × List Bytes) := do
  let numBlocks := toInt32 (roundUp data.length blockLength / blockLength : ℕ)
  let result := List.replicate (roundUp data.length blockLength + tagLength) 0
  let s ← encryptLoop G key info data (numBlocks - 1).toNat ⟨0, 0, Chain.start, result⟩
  let (chain, result, bytesDone) ← encryptCall G key info.nonce false data s (data.length - s.ptxOffset)
  let ciphertextSize := s.ciphertextSize + bytesDone
  let result ← orFault (overwrite (resize result (ciphertextSize + tagLength)) ciphertextSize
    (G.mac key info.nonce chain.text))
  return (result, chain.inputs)

/-- The local variables of `Decrypt`. -/
structure DecryptState where
  ctxOffset : ℕ
  returnDataLength : ℕ
  chain : Chain
  result : Bytes

def decryptCall (nonce : Nonce) (chained : Bool) (authTag ciphertext : Bytes) (s : DecryptState) (cbInput : ℕ) :
    Except GcmError (Chain × Bytes × ℕ) := do
  let input ← orFault (slice ciphertext s.ctxOffset cbInput)
  let (chain, output) ← bcryptDecrypt G key nonce chained authTag s.chain input blockLength
  let result ← orFault (overwrite s.result s.returnDataLength output)
  return (chain, result, output.length)

/-- The loop of `Decrypt` from the `i`-th block on; it sets the offset from the number of the block. -/
def decryptLoop (info : GcmChainingInfo) (authTag ciphertext : Bytes) :
    ℕ → ℕ → DecryptState → Except GcmError DecryptState
  | 0, _, s => .ok s
  | n + 1, i, s => do
    let ctxOffset := i * blockLength
    let (chain, result, bytesDone) ←
      decryptCall G key info.nonce info.chainCalls authTag ciphertext { s with ctxOffset := ctxOffset } blockLength
    decryptLoop info authTag ciphertext n (i + 1) ⟨ctxOffset + blockLength, s.returnDataLength + bytesDone, chain, result⟩

def decrypt (info : GcmChainingInfo) (ciphertext : Bytes) : Except GcmError Bytes := do
  let size := toInt64 ((ciphertext.length : ℤ) - tagLength)
  let result ← vectorOfSize size
  let encryptedDataLength := size.toNat
  let numBlocks := toInt32 (roundUp encryptedDataLength blockLength / blockLength : ℕ)
  let authTag ← orFault (slice ciphertext encryptedDataLength tagLength)
  let s ← decryptLoop G key info authTag ciphertext (numBlocks - 1).toNat 0 ⟨0, 0, Chain.start, result⟩
  let (_, result, _) ← decryptCall G key info.nonce false authTag ciphertext s (encryptedDataLength - s.ctxOffset)
  return result

/-! ### Linux -/

/-- `EVP_EncryptUpdate` and `EVP_DecryptUpdate`: as many bytes as the `int` says, under the keystream. -/
def evpUpdate (nonce : Nonce) (input : Bytes) (inl : ℤ) : Except GcmError Bytes :=
  if inl < 0 then .error .evp else .ok (mask (G.keystream key nonce) 0 (input.take inl.toNat))

def evpMaxBlockLength : ℕ := 32

/-- `OsslGcmWrapper::Encrypt`. `EVP_EncryptFinal_ex` adds nothing to the ciphertext. -/
def osslEncrypt (nonce : Nonce) (data : Bytes) : Except GcmError Bytes := do
  let output ← evpUpdate G key nonce data (toInt32 data.length)
  let ciphertext ← orFault (overwrite (List.replicate (data.length + evpMaxBlockLength) 0) 0 output)
  return resize ciphertext output.length ++ G.mac key nonce output

/-- `OsslGcmWrapper::Decrypt`. `EVP_DecryptFinal_ex` compares the tag. -/
def osslDecrypt (nonce : Nonce) (ciphertext : Bytes) : Except GcmError Bytes := do
  let plaintext ← vectorOfSize ((ciphertext.length : ℤ) - tagLength)
  let inl := toInt32 ((ciphertext.length : ℤ) - tagLength)
  let output ← evpUpdate G key nonce ciphertext inl
  let plaintext ← orFault (overwrite plaintext 0 output)
  let tag := ciphertext.drop (ciphertext.length - tagLength)
  if G.mac key nonce (ciphertext.take inl.toNat) ≠ tag then .error .authTagMismatch
  else return resize plaintext output.length

end

/-! ### Calls and loops -/

section

variable {G : AesGcm} {key : AesKey} {nonce : Nonce}

theorem checkCall_ok {chained : Bool} {len : ℕ} (hlen : len ≤ blockLength)
    (hchained : chained = true → 0 < len ∧ blockLength ∣ len) : checkCall chained len blockLength = .ok () := by
  rw [checkCall, if_neg (by omega), if_neg]
  rintro ⟨hc, hrule⟩
  exact hrule (hchained hc)

/-- `Encrypt` when `m` bytes of the data have been passed on in the given pieces. -/
def EncryptState.at (G : AesGcm) (key : AesKey) (nonce : Nonce) (data : Bytes) (size m : ℕ) (inputs : List Bytes) :
    EncryptState :=
  let done := mask (G.keystream key nonce) 0 (data.take m)
  ⟨m, m, ⟨done, inputs⟩, filled done size⟩

theorem encryptCall_at {chained : Bool} {data : Bytes} {size m len : ℕ} (inputs : List Bytes)
    (hdata : m + len ≤ data.length) (hsize : m + len ≤ size) (hlen : len ≤ blockLength)
    (hchained : chained = true → 0 < len ∧ blockLength ∣ len) :
    encryptCall G key nonce chained data (.at G key nonce data size m inputs) len =
      .ok (⟨mask (G.keystream key nonce) 0 (data.take (m + len)), inputs ++ [(data.drop m).take len]⟩,
        filled (mask (G.keystream key nonce) 0 (data.take (m + len))) size, len) := by
  have hinput := length_slice hdata
  have htake : (data.take m).length = m := by
    rw [List.length_take]
    omega
  have hwrite := @overwrite_mask (G.keystream key nonce) data size m len hdata hsize
  simp only [encryptCall, EncryptState.at, bcryptEncrypt, slice_eq hdata, orFault, ok_bind, hinput,
    checkCall_ok hlen hchained, length_mask, htake, pure, Except.pure, hwrite, mask_take_add _ hdata]

theorem encryptLoop_at (data : Bytes) (size n m : ℕ) (inputs : List Bytes) (hdata : m + 16 * n ≤ data.length)
    (hsize : m + 16 * n ≤ size) :
    ∃ pieces : List Bytes, (∀ piece ∈ pieces, piece.length = 16) ∧ pieces.flatten = (data.drop m).take (16 * n) ∧
      encryptLoop G key (setChainingInfo nonce) data n (.at G key nonce data size m inputs) =
        .ok (.at G key nonce data size (m + 16 * n) (inputs ++ pieces)) := by
  induction n generalizing m inputs with
  | zero => exact ⟨[], by simp, by simp, by simp [encryptLoop]⟩
  | succ n ih =>
      have hpiece := @length_slice data m 16 (by omega)
      obtain ⟨pieces, hlength, hflatten, hloop⟩ :=
        ih (m + 16) (inputs ++ [(data.drop m).take 16]) (by omega) (by omega)
      have hcall := @encryptCall_at G key nonce true data size m 16 inputs (by omega) (by omega) (by decide)
        fun _ => by decide
      refine ⟨(data.drop m).take 16 :: pieces, ?_, ?_, ?_⟩
      · rw [List.forall_mem_cons]
        exact ⟨hpiece, hlength⟩
      · have htake : 16 * (n + 1) = 16 + 16 * n := by omega
        rw [List.flatten_cons, hflatten, htake, List.take_add, List.drop_drop]
      · have hnext : m + 16 * (n + 1) = m + 16 + 16 * n := by omega
        rw [hnext, List.append_cons, encryptLoop, setChainingInfo, blockLength, hcall, ok_bind]
        exact hloop

/-- `Decrypt` when `m` bytes of the ciphertext have been passed on in the given pieces. -/
def DecryptState.at (G : AesGcm) (key : AesKey) (nonce : Nonce) (ciphertext : Bytes) (size m : ℕ) (inputs : List Bytes) :
    DecryptState :=
  ⟨m, m, ⟨ciphertext.take m, inputs⟩, filled (mask (G.keystream key nonce) 0 (ciphertext.take m)) size⟩

theorem decryptCall_at {chained : Bool} {authTag ciphertext : Bytes} {size m len : ℕ} (inputs : List Bytes)
    (hdata : m + len ≤ ciphertext.length) (hsize : m + len ≤ size) (hlen : len ≤ blockLength)
    (hchained : chained = true → 0 < len ∧ blockLength ∣ len)
    (htag : chained = false → G.mac key nonce (ciphertext.take (m + len)) = authTag) :
    decryptCall G key nonce chained authTag ciphertext (.at G key nonce ciphertext size m inputs) len =
      .ok (⟨ciphertext.take (m + len), inputs ++ [(ciphertext.drop m).take len]⟩,
        filled (mask (G.keystream key nonce) 0 (ciphertext.take (m + len))) size, len) := by
  have hinput := length_slice hdata
  have hmac : ¬(chained = false ∧
      G.mac key nonce (ciphertext.take m ++ (ciphertext.drop m).take len) ≠ authTag) := by
    rw [← List.take_add]
    rintro ⟨hc, hne⟩
    exact hne (htag hc)
  have htake : (ciphertext.take m).length = m := by
    rw [List.length_take]
    omega
  have hwrite : overwrite (filled (mask (G.keystream key nonce) 0 (ciphertext.take m)) size) m
      (mask (G.keystream key nonce) m ((ciphertext.drop m).take len)) =
      some (filled (mask (G.keystream key nonce) 0 (ciphertext.take (m + len))) size) := overwrite_mask hdata hsize
  simp only [decryptCall, DecryptState.at, bcryptDecrypt, slice_eq hdata, orFault, ok_bind, hinput,
    checkCall_ok hlen hchained, if_neg hmac, htake, pure, Except.pure, hwrite, length_mask]
  rw [List.take_add]

theorem decryptLoop_at (authTag ciphertext : Bytes) (size n i : ℕ) (inputs : List Bytes)
    (hdata : 16 * i + 16 * n ≤ ciphertext.length) (hsize : 16 * i + 16 * n ≤ size) :
    ∃ inputs', decryptLoop G key (setChainingInfo nonce) authTag ciphertext n i
        (.at G key nonce ciphertext size (16 * i) inputs) =
      .ok (.at G key nonce ciphertext size (16 * i + 16 * n) inputs') := by
  induction n generalizing i inputs with
  | zero => exact ⟨inputs, by simp [decryptLoop]⟩
  | succ n ih =>
      obtain ⟨inputs', hloop⟩ := ih (i + 1) (inputs ++ [(ciphertext.drop (16 * i)).take 16]) (by omega) (by omega)
      have hcall := @decryptCall_at G key nonce true authTag ciphertext size (16 * i) 16 inputs (by omega) (by omega)
        (by decide) (fun _ => by decide) nofun
      have hoffset : i * blockLength = 16 * i := Nat.mul_comm i 16
      have hnext : 16 * i + 16 * (n + 1) = 16 * (i + 1) + 16 * n := by omega
      have hsucc : 16 * (i + 1) = 16 * i + 16 := by omega
      refine ⟨inputs', ?_⟩
      rw [hnext, decryptLoop, hoffset, setChainingInfo, blockLength]
      show (decryptCall G key nonce true authTag ciphertext (.at G key nonce ciphertext size (16 * i) inputs) 16 >>= _) = _
      rw [hcall, ok_bind]
      rw [hsucc] at hloop
      rw [hsucc]
      exact hloop

/-! ### Whole messages -/

theorem toInt32_of_lt {n : ℕ} (h : n < 2 ^ 31) : toInt32 n = n := by
  rw [toInt32]
  exact Int.bmod_eq_of_le (by omega) (by omega)

theorem resize_filled {done : Bytes} {size n : ℕ} (hdone : done.length ≤ n) (hsize : n ≤ size) :
    resize (filled done size) n = filled done n := by
  have hfull := filled_length (filled done n)
  rw [length_filled hdone] at hfull
  rw [resize, take_filled hdone hsize, hfull]

/-- The number of the chained calls, and what is left for the last one. -/
theorem numBlocks_bounds {length : ℕ} (h : length < 2 ^ 31) :
    ∃ n, (toInt32 (roundUp length blockLength / blockLength : ℕ) - 1).toNat = n ∧ 16 * n ≤ length ∧
      length - 16 * n ≤ blockLength := by
  have hblocks : roundUp length blockLength / blockLength = (length + 15) / 16 := by
    rw [roundUp, blockLength]
    omega
  refine ⟨(length + 15) / 16 - 1, ?_, by omega, by rw [blockLength]; omega⟩
  rw [hblocks, toInt32_of_lt (by omega)]
  omega

theorem encrypt_eq (data : Bytes) (h : data.length < 2 ^ 31) :
    ∃ inputs : List Bytes, inputs.flatten = data ∧
      (∀ input ∈ inputs.dropLast, 0 < input.length ∧ blockLength ∣ input.length) ∧
      encrypt G key (setChainingInfo nonce) data =
        .ok (mask (G.keystream key nonce) 0 data ++ G.mac key nonce (mask (G.keystream key nonce) 0 data), inputs) := by
  obtain ⟨n, hn, hle, hlast⟩ := numBlocks_bounds h
  generalize hsize : roundUp data.length blockLength + tagLength = size
  have hroom : data.length + tagLength ≤ size := by
    rw [← hsize, roundUp, blockLength, tagLength]
    omega
  have hend : 16 * n + (data.length - 16 * n) = data.length := by omega
  have hstart : (⟨0, 0, Chain.start, List.replicate size 0⟩ : EncryptState) = .at G key nonce data size 0 [] := by
    simp [EncryptState.at, Chain.start, mask, filled]
  obtain ⟨pieces, hlength, hflatten, hloop⟩ := @encryptLoop_at G key nonce data size n 0 [] (by omega) (by omega)
  rw [Nat.zero_add, List.nil_append] at hloop
  have hcall := @encryptCall_at G key nonce false data size (16 * n) (data.length - 16 * n) pieces (by omega) (by omega)
    hlast (fun hchained => absurd hchained Bool.false_ne_true)
  rw [hend, List.take_length] at hcall
  refine ⟨pieces ++ [(data.drop (16 * n)).take (data.length - 16 * n)], ?_, ?_, ?_⟩
  · rw [List.flatten_append, hflatten, List.flatten_singleton, List.drop_zero, ← List.take_add, hend, List.take_length]
  · intro input hinput
    rw [List.dropLast_concat] at hinput
    rw [hlength input hinput]
    decide
  · have hdone := length_mask (G.keystream key nonce) 0 data
    have htag := overwrite_last (mask (G.keystream key nonce) 0 data)
      (G.mac key nonce (mask (G.keystream key nonce) 0 data))
    rw [hdone, G.length_mac] at htag
    rw [encrypt, hn, hsize, hstart, hloop, ok_bind]
    show (encryptCall G key nonce false data (.at G key nonce data size (16 * n) pieces) (data.length - 16 * n) >>= _) = _
    rw [hcall, ok_bind]
    dsimp only
    have hoffset : (EncryptState.at G key nonce data size (16 * n) pieces).ciphertextSize = 16 * n := rfl
    rw [hoffset, hend, resize_filled (by rw [hdone]; omega) hroom, setChainingInfo, htag]
    rfl

theorem osslEncrypt_eq (data : Bytes) (h : data.length < 2 ^ 31) :
    osslEncrypt G key nonce data =
      .ok (mask (G.keystream key nonce) 0 data ++ G.mac key nonce (mask (G.keystream key nonce) 0 data)) := by
  have hdone := length_mask (G.keystream key nonce) 0 data
  have hupdate : evpUpdate G key nonce data (toInt32 data.length) = .ok (mask (G.keystream key nonce) 0 data) := by
    rw [evpUpdate, toInt32_of_lt h, if_neg (by omega), Int.toNat_natCast, List.take_length]
  have hroom : (mask (G.keystream key nonce) 0 data).length ≤ data.length + evpMaxBlockLength := by
    rw [hdone]
    omega
  rw [osslEncrypt, hupdate, ok_bind, overwrite_zeros hroom]
  show Except.ok (resize (filled (mask (G.keystream key nonce) 0 data) (data.length + evpMaxBlockLength))
    (mask (G.keystream key nonce) 0 data).length ++ _) = _
  rw [resize_filled le_rfl hroom, filled_length]

theorem toInt64_of_lt {n : ℕ} (h : n < 2 ^ 63) : toInt64 n = n := by
  rw [toInt64]
  exact Int.bmod_eq_of_le (by omega) (by omega)

theorem vectorOfSize_of_lt {n : ℕ} (h : n < 2 ^ 63) : vectorOfSize n = .ok (List.replicate n 0) := by
  have hsize : toSize n = n := by
    rw [toSize]
    omega
  rw [vectorOfSize, hsize, if_neg (by omega)]

/-- The size of a vector for less than the tag is a negative number. -/
theorem vectorOfSize_short {ciphertext : Bytes} (h : ciphertext.length < tagLength) :
    vectorOfSize ((ciphertext.length : ℤ) - tagLength) = .error .vectorTooLong := by
  rw [tagLength] at *
  rw [vectorOfSize, if_pos]
  rw [toSize]
  omega

theorem toInt64_short {ciphertext : Bytes} (h : ciphertext.length < tagLength) :
    toInt64 ((ciphertext.length : ℤ) - tagLength) = (ciphertext.length : ℤ) - tagLength := by
  rw [tagLength] at *
  rw [toInt64]
  exact Int.bmod_eq_of_le (by omega) (by omega)

section

variable {text : Bytes}

theorem length_sealed : ((text ++ G.mac key nonce text).length : ℤ) - tagLength = text.length := by
  rw [List.length_append, G.length_mac]
  omega

theorem decrypt_eq (h : text.length < 2 ^ 31) :
    decrypt G key (setChainingInfo nonce) (text ++ G.mac key nonce text) = .ok (mask (G.keystream key nonce) 0 text) := by
  obtain ⟨n, hn, hle, hlast⟩ := numBlocks_bounds h
  generalize hciphertext : text ++ G.mac key nonce text = ciphertext
  have hlen : ciphertext.length = text.length + tagLength := by
    rw [← hciphertext, List.length_append, G.length_mac]
  have htake : ciphertext.take text.length = text := by rw [← hciphertext, List.take_left]
  have hsize : toInt64 ((ciphertext.length : ℤ) - tagLength) = text.length := by
    rw [← hciphertext, length_sealed, toInt64_of_lt (by omega)]
  have hauthTag : slice ciphertext text.length tagLength = some (G.mac key nonce text) := by
    have hmac := G.length_mac key nonce text
    rw [slice_eq (by omega), ← hciphertext, List.drop_left, ← hmac, List.take_length]
  have hend : 16 * n + (text.length - 16 * n) = text.length := by omega
  have hstart : (⟨0, 0, Chain.start, List.replicate text.length 0⟩ : DecryptState) =
      .at G key nonce ciphertext text.length (16 * 0) [] := by
    simp [DecryptState.at, Chain.start, mask, filled]
  obtain ⟨inputs, hloop⟩ := @decryptLoop_at G key nonce (G.mac key nonce text) ciphertext text.length n 0 []
    (by omega) (by omega)
  rw [Nat.mul_zero, Nat.zero_add] at hloop
  have hcall := @decryptCall_at G key nonce false (G.mac key nonce text) ciphertext text.length (16 * n)
    (text.length - 16 * n) inputs (by omega) (by omega) hlast
    (fun hchained => absurd hchained Bool.false_ne_true) (fun _ => by rw [hend, htake])
  rw [hend, htake] at hcall
  rw [decrypt, hsize, vectorOfSize_of_lt (by omega), ok_bind, Int.toNat_natCast]
  dsimp only
  rw [hn, hauthTag]
  show (decryptLoop G key (setChainingInfo nonce) (G.mac key nonce text) ciphertext n 0
    ⟨0, 0, Chain.start, List.replicate text.length 0⟩ >>= _) = _
  rw [hstart, Nat.mul_zero, hloop, ok_bind]
  show (decryptCall G key nonce false (G.mac key nonce text) ciphertext
    (.at G key nonce ciphertext text.length (16 * n) inputs) (text.length - 16 * n) >>= _) = _
  rw [hcall, ok_bind]
  have hfull := filled_length (mask (G.keystream key nonce) 0 text)
  rw [length_mask] at hfull
  dsimp only
  rw [hfull]
  rfl

theorem osslDecrypt_eq (h : text.length < 2 ^ 31) :
    osslDecrypt G key nonce (text ++ G.mac key nonce text) = .ok (mask (G.keystream key nonce) 0 text) := by
  have hdone := length_mask (G.keystream key nonce) 0 text
  have hlen : (text ++ G.mac key nonce text).length = text.length + tagLength := by
    rw [List.length_append, G.length_mac]
  have hupdate : evpUpdate G key nonce (text ++ G.mac key nonce text) text.length =
      .ok (mask (G.keystream key nonce) 0 text) := by
    rw [evpUpdate, if_neg (by omega), Int.toNat_natCast, List.take_left]
  rw [osslDecrypt, length_sealed, vectorOfSize_of_lt (by omega), ok_bind, toInt32_of_lt h]
  dsimp only
  rw [hupdate, ok_bind, overwrite_zeros hdone.le, Int.toNat_natCast, List.take_left, hlen, Nat.add_sub_cancel, List.drop_left]
  show (if G.mac key nonce text ≠ G.mac key nonce text then Except.error GcmError.authTagMismatch
    else .ok (resize (filled (mask (G.keystream key nonce) 0 text) text.length)
      (mask (G.keystream key nonce) 0 text).length)) = _
  rw [if_neg (not_not.2 rfl), resize_filled le_rfl (by rw [hdone]), filled_length]

theorem decrypt_short {ciphertext : Bytes} (h : ciphertext.length < tagLength) (info : GcmChainingInfo) :
    decrypt G key info ciphertext = .error .vectorTooLong := by
  rw [decrypt, toInt64_short h, vectorOfSize_short h]
  rfl

theorem osslDecrypt_short {ciphertext : Bytes} (h : ciphertext.length < tagLength) :
    osslDecrypt G key nonce ciphertext = .error .vectorTooLong := by
  rw [osslDecrypt, vectorOfSize_short h]
  rfl

end

end

/-- **The two platforms agree**, for every key, every nonce and every text below two gigabytes. Windows passes the text
on in order and keeps to the rule of chained calls, both return the same ciphertext with its tag, both get the text
back from it, and both refuse what is shorter than a tag. -/
theorem gcmWrappers_agree (G : AesGcm) (key : AesKey) (nonce : Nonce) (data : Bytes) (h : data.length < 2 ^ 31) :
    (∃ (output : Bytes) (inputs : List Bytes),
      encrypt G key (setChainingInfo nonce) data = .ok (output, inputs) ∧ inputs.flatten = data ∧
      (∀ input ∈ inputs.dropLast, 0 < input.length ∧ blockLength ∣ input.length) ∧
      osslEncrypt G key nonce data = .ok output ∧
      decrypt G key (setChainingInfo nonce) output = .ok data ∧ osslDecrypt G key nonce output = .ok data) ∧
    ∀ short : Bytes, short.length < tagLength →
      (∃ e, decrypt G key (setChainingInfo nonce) short = .error e) ∧ ∃ e, osslDecrypt G key nonce short = .error e := by
  have hlength : (mask (G.keystream key nonce) 0 data).length < 2 ^ 31 := by rwa [length_mask]
  obtain ⟨inputs, hflatten, hrule, hencrypt⟩ := @encrypt_eq G key nonce data h
  refine ⟨⟨_, inputs, hencrypt, hflatten, hrule, osslEncrypt_eq data h, ?_, ?_⟩, ?_⟩
  · rw [decrypt_eq hlength, mask_mask]
  · rw [osslDecrypt_eq hlength, mask_mask]
  · intro short hshort
    exact ⟨⟨_, decrypt_short hshort _⟩, ⟨_, osslDecrypt_short hshort⟩⟩

namespace Sample

def key : AesKey := ⟨List.replicate 32 0, rfl⟩

def nonce : Nonce := ⟨List.replicate 12 0, rfl⟩

/-- The bytes from zero to thirty-nine: two blocks and a half. -/
def text : Bytes := (List.range 40).map UInt8.ofNat

theorem length_text : text.length = 40 := rfl

/-- Three blocks of the keystream of AES-256-GCM with a zero key and a zero nonce, and the tag of the ciphertext of the
text. -/
def gcm : AesGcm where
  keystream _ _ i :=
    [0xce, 0xa7, 0x40, 0x3d, 0x4d, 0x60, 0x6b, 0x6e, 0x07, 0x4e, 0xc5, 0xd3, 0xba, 0xf3, 0x9d, 0x18,
      0x72, 0x60, 0x03, 0xca, 0x37, 0xa6, 0x2a, 0x74, 0xd1, 0xa2, 0xf5, 0x8e, 0x75, 0x06, 0x35, 0x8e,
      0xdd, 0x4a, 0xb1, 0x28, 0x4d, 0x4a, 0xe1, 0x7b, 0x41, 0xe8, 0x59, 0x24, 0x47, 0x0c, 0x36, 0xf7].getD i 0
  mac _ _ _ := [0xd5, 0xb8, 0xec, 0xb3, 0xf5, 0xc0, 0x2b, 0x83, 0xef, 0xb3, 0xf7, 0xf7, 0x4a, 0x3a, 0x5f, 0xbd]
  length_mac _ _ _ := rfl

end Sample

open Sample in
/-- Both block loops over two blocks and a part of a third one. -/
theorem gcmWrappers_agree_sample :
    text.length < 2 ^ 31 ∧
      ∃ output, osslEncrypt gcm key nonce text = .ok output ∧ decrypt gcm key (setChainingInfo nonce) output = .ok text ∧
        output.take 4 = [0xce, 0xa6, 0x42, 0x3e] := by
  have hlength : text.length < 2 ^ 31 := by
    rw [length_text]
    decide
  obtain ⟨⟨output, inputs, -, -, -, hossl, hdecrypt, -⟩, -⟩ := gcmWrappers_agree gcm key nonce text hlength
  refine ⟨hlength, output, hossl, hdecrypt, ?_⟩
  have hencrypt : osslEncrypt gcm key nonce text = .ok (mask (gcm.keystream key nonce) 0 text ++
      gcm.mac key nonce (mask (gcm.keystream key nonce) 0 text)) := osslEncrypt_eq text hlength
  rw [hencrypt] at hossl
  rw [← Except.ok.inj hossl]
  decide

end CvmAttestation.Secrets.Gcm
