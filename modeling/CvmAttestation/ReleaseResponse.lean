import CvmAttestation.BaseLayout
import CvmAttestation.ReleaseBatch

/-! The answer to a key release. It carries, under several layers of base64url and JSON, one ciphertext: 256 bytes for the
TPM, which hold an AES key, and the released key wrapped with it. `doSKR` splits it at a fixed position, without a look
at its length, and the decoder before it has cut off the zero bytes at its end. -/

namespace CvmAttestation.Release

open Base

/-! ### The text of the ciphertext -/

def binaryToBase64url (binaryData : Bytes) : Bytes := Base64.encodeUrl binaryData

def base64urlToBinary (base64Data : Bytes) : Except Exc Bytes := base64ToBinary (base64Data.map Base64.fromUrl)

/-- `Util::SplitString`, after some characters of a piece: a delimiter at the end is not followed by an empty piece. -/
def splitString (delim : UInt8) (item : Bytes) : Bytes → List Bytes
  | [] => if item = [] then [] else [item]
  | c :: str => if c = delim then item :: splitString delim [] str else splitString delim (item ++ [c]) str

/-- The string at the end of a path of keys, as `operator[]` and the conversion to `std::string` find it. -/
def stringAt (j : Json) : List Bytes → Except Exc Bytes
  | [] => j.getString.mapError .json
  | key :: path => do
    let member ← (j.index key).mapError .json
    stringAt member path

def parseJson (L : JsonLib) (text : Bytes) : Except Exc Json := (L.parse text).mapError .json

def skrCipherText (L : JsonLib) (responseStr : Bytes) : Except Exc Bytes := do
  let skrJson ← parseJson L (responseStr.takeWhile (· ≠ 0))
  let skrToken ← stringAt skrJson [ascii "value"]
  match splitString 46 [] skrToken with
  | [_, payload, _] =>
    let tokenPayload ← base64urlToBinary payload
    let skrPayloadJson ← parseJson L (tokenPayload.takeWhile (· ≠ 0))
    let keyHsmText ← stringAt skrPayloadJson [ascii "response", ascii "key", ascii "key", ascii "key_hsm"]
    let keyHsm ← base64urlToBinary keyHsmText
    let cipherTextJson ← parseJson L keyHsm
    stringAt cipherTextJson [ascii "ciphertext"]
  | _ => throw (.skrError exitSkrFail (ascii "Invalid SKR token (expected 3 dot-separated parts)"))

/-! ### The two decryptions -/

/-- A result of the attestation client other than `SUCCESS`. -/
structure Refusal where
  code : Int
  tpmErrorCode : Nat
  description : Bytes
  deriving DecidableEq, Repr

/-- The lengths at which OpenSSL recovers a padded key, to look at it then. -/
def Unwrappable (n : Nat) : Prop := 16 ≤ n ∧ n % 8 = 0 ∧ n < 2 ^ 31

instance (n : Nat) : Decidable (Unwrappable n) := by
  unfold Unwrappable
  infer_instance

/-- What comes of an unwrapping: it is refused before anything is recovered, what is recovered is no padded key, or it
is one. An error queue goes with the first two. -/
inductive Unwrapped where
  | refused (queue : Bytes)
  | mismatch (queue : Bytes)
  | recovered (plain : Bytes)

/-- How many bytes of the output buffer are written for so many bytes. What is no padded key is wiped over the length of
the input, which is 8 bytes more than what was recovered. -/
def Unwrapped.written (n : Nat) : Unwrapped → Nat
  | refused _ => 0
  | mismatch _ => n
  | recovered _ => n - 8

/-- The guest: its attestation client with the TPM, and AES key unwrapping with padding, which gives nothing for
nothing. -/
structure Guest where
  initialized : Bool
  readPcrs : Except Refusal Unit
  decryptWithEphemeralKey : Bytes → Except Refusal Bytes
  unwrapPad : (key ciphertext : Bytes) → Unwrapped
  unwrapPad_mismatch : ∀ {key ciphertext queue : Bytes}, unwrapPad key ciphertext = .mismatch queue →
    Unwrappable ciphertext.length
  unwrapPad_recovered : ∀ {key ciphertext plain : Bytes}, unwrapPad key ciphertext = .recovered plain →
    Unwrappable ciphertext.length ∧ plain.length ≤ ciphertext.length - 8 ∨ ciphertext = [] ∧ plain = []
  badLength : Bytes

section

variable (G : Guest)

/-- `AttestationClientImpl::Decrypt`: what it hands to the TPM, and the outcome. The pointer to the data of an empty
vector is null. -/
def clientDecrypt (encryptedData : Bytes) (size : Nat) : Option (Option Bytes × Except Refusal Bytes) :=
  if encryptedData = [] then some (none, .error ⟨-8, 0, ascii "Invalid input parameter"⟩)
  else
    match G.readPcrs with
    | .error refusal => some (none, .error refusal)
    | .ok () => (slice encryptedData 0 size).map fun inData => (some inData, G.decryptWithEphemeralKey inData)

/-- `decrypt_aes_key_unwrap`, for an output buffer of some capacity. -/
def decryptAesKeyUnwrap (key ciphertext : Bytes) (ciphertextLen : Int) (capacity : Nat) : Option (Except Exc Bytes) :=
  if ciphertextLen < 0 then some (.error (handleErrors G.badLength))
  else do
    let input ← slice ciphertext 0 ciphertextLen.toNat
    let outcome := G.unwrapPad key input
    if capacity < outcome.written input.length then none
    else
      match outcome with
      | .refused queue => return .error (handleErrors queue)
      | .mismatch queue => return .error (handleErrors queue)
      | .recovered plain => return .ok plain

def modulusSize : Nat := 2048 / 8

/-- The size of `private_key`. -/
def privateKeySize : Nat := 8192

theorem modulusSize_eq : modulusSize = 256 := rfl

theorem privateKeySize_eq : privateKeySize = 8192 := rfl

/-- `(int)(cipherText.size() - ModulusSize)`: the difference, reduced to the 32 bits of a signed number. -/
def remainingLength (cipherText : Bytes) : Int := ((cipherText.length : Int) - (modulusSize : Int)).bmod (2 ^ 32)

/-- What is handed to the TPM and to the unwrapping, and the private key or the exception. -/
structure Handled where
  toTpm : Option Bytes
  toUnwrap : Option Bytes
  result : Except Exc Bytes

def refusalText (refusal : Refusal) : Bytes :=
  ascii "Failed to decrypt AES key: error code " ++ ascii (toString refusal.code) ++ ascii ", TPM error code=" ++
    toDecimal refusal.tpmErrorCode ++ ascii ", Desc=" ++ refusal.description

/-- `doSKR` from the ciphertext to the private key; `none` is a run that reads or writes outside a buffer. -/
def releaseKey (cipherText : Bytes) : Option Handled :=
  if ¬G.initialized then
    some ⟨none, none,
      .error (.skrError exitSkrFail (ascii "Failed to create attestation client object for TPM decrypt"))⟩
  else do
    let (toTpm, decrypted) ← clientDecrypt G cipherText modulusSize
    match decrypted with
    | .error refusal => return ⟨toTpm, none, .error (.skrError exitCryptoFail (refusalText refusal))⟩
    | .ok aesKey =>
      let len := remainingLength cipherText
      let toUnwrap := if len < 0 then none else some ((cipherText.drop modulusSize).take len.toNat)
      let unwrapped ← decryptAesKeyUnwrap G aesKey (cipherText.drop modulusSize) len privateKeySize
      match unwrapped with
      | .error e => return ⟨toTpm, toUnwrap, .error e⟩
      | .ok [] => return ⟨toTpm, toUnwrap, .error (.skrError exitCryptoFail
          (ascii "Failed to decrypt the CMK (AES key unwrap returned 0 bytes)"))⟩
      | .ok privateKey => return ⟨toTpm, toUnwrap, .ok privateKey⟩

/-- Exceptions other than its own leave `doSKR` as errors of the key release. -/
def doSkrError (L : JsonLib) : Exc → Exc
  | .skrError exitCode msg => .skrError exitCode msg
  | e => .skrError exitSkrFail (ascii "doSKR failed: " ++ e.what L)

/-- The handling of a response by `Util::doSKR`. -/
def handleResponse (L : JsonLib) (responseStr : Bytes) : Option Handled :=
  match (do base64urlToBinary (← skrCipherText L responseStr)) with
  | .error e => some ⟨none, none, .error (doSkrError L e)⟩
  | .ok cipherText => releaseKey G cipherText

/-- No buffer is left. A ciphertext of more than 256 bytes is split at that position, between the TPM and the unwrapping;
another one ends in an error of the key release; and the unwrapped key fits its buffer. -/
def HandlesWhole (c : Bytes) (run : Option Handled) : Prop :=
  ∃ handled, run = some handled ∧
    (256 < c.length → G.initialized = true → G.readPcrs = .ok () →
      handled.toTpm = some (c.take 256) ∧
        ∀ aesKey, G.decryptWithEphemeralKey (c.take 256) = .ok aesKey → handled.toUnwrap = some (c.drop 256)) ∧
    (c.length ≤ 256 → ∃ exitCode msg, handled.result = .error (.skrError exitCode msg)) ∧
    (∀ privateKey, handled.result = .ok privateKey → privateKey.length ≤ 8192)

/-- The ciphertexts that are handled so: those that end in another byte than zero and have the bytes for the TPM, with a
rest that fits an `int` and, when OpenSSL looks into it at all, the buffer; and those of which nothing is left. -/
def SplitsWhole (c : Bytes) : Prop :=
  trimZeros c = [] ∧ c.length ≤ 256 ∨
    256 ≤ c.length ∧ ¬EndsInZero c ∧ c.length - 256 < 2 ^ 31 ∧
      (Unwrappable (c.length - 256) → c.length - 256 ≤ 8192)

/-! ### What is split -/

theorem base64urlToBinary_encode (c : Bytes) : base64urlToBinary (binaryToBase64url c) = .ok (trimZeros c) := by
  rw [base64urlToBinary, binaryToBase64url, Base64.map_fromUrl_encodeUrl, base64ToBinary, decodeTrimmed,
    Base64.decodeRaw_encodeRaw]

theorem valid_binaryToBase64url (c : Bytes) : Utf8.valid (binaryToBase64url c) = true :=
  Utf8.valid_of_ascii fun _ hb => Base64.toNat_lt_of_mem_encodeUrl hb

theorem trimZeros_prefix (c : Bytes) : trimZeros c <+: c := List.rdropWhile_prefix _ c

theorem handleResponse_eq {L : JsonLib} {responseStr c : Bytes}
    (htext : skrCipherText L responseStr = .ok (binaryToBase64url c)) :
    handleResponse G L responseStr = releaseKey G (trimZeros c) := by
  rw [handleResponse, htext, ok_bind, base64urlToBinary_encode]

theorem remainingLength_eq {cipherText : Bytes} (hle : 256 ≤ cipherText.length)
    (hlt : cipherText.length - 256 < 2 ^ 31) : remainingLength cipherText = ((cipherText.length - 256 : Nat) : Int) := by
  have hdiff : (cipherText.length : Int) - (modulusSize : Int) = ((cipherText.length - 256 : Nat) : Int) := by
    rw [modulusSize_eq]
    omega
  rw [remainingLength, hdiff]
  apply Int.bmod_eq_of_le <;> omega

theorem remainingLength_lt (cipherText : Bytes) : remainingLength cipherText < 2 ^ 31 := by
  have hlt : remainingLength cipherText < ((2 ^ 32 : Nat) + 1) / 2 := Int.bmod_lt (by decide)
  omega

/-- A ciphertext that is long enough for the TPM, with a guest that decrypts its first part. -/
theorem releaseKey_decrypted (hinit : G.initialized = true) (hpcrs : G.readPcrs = .ok ()) {cipherText : Bytes}
    (hle : 256 ≤ cipherText.length) {aesKey : Bytes}
    (hkey : G.decryptWithEphemeralKey (cipherText.take 256) = .ok aesKey) :
    releaseKey G cipherText = (do
      let len := remainingLength cipherText
      let toUnwrap := if len < 0 then none else some ((cipherText.drop 256).take len.toNat)
      let unwrapped ← decryptAesKeyUnwrap G aesKey (cipherText.drop 256) len 8192
      match unwrapped with
      | .error e => return ⟨some (cipherText.take 256), toUnwrap, .error e⟩
      | .ok [] => return ⟨some (cipherText.take 256), toUnwrap, .error (.skrError exitCryptoFail
          (ascii "Failed to decrypt the CMK (AES key unwrap returned 0 bytes)"))⟩
      | .ok privateKey => return ⟨some (cipherText.take 256), toUnwrap, .ok privateKey⟩) := by
  have hne : cipherText ≠ [] := by
    rintro rfl
    exact absurd hle (by decide)
  rw [releaseKey, if_neg (not_not.2 hinit), clientDecrypt, if_neg hne, hpcrs]
  simp only [modulusSize_eq, privateKeySize_eq, slice_start hle, Option.map_some, Option.bind_eq_bind, Option.bind_some, hkey]

/-- No outcome writes past a buffer that the whole input fits. -/
theorem written_le {key rest : Bytes} {capacity : Nat} (hfits : Unwrappable rest.length → rest.length ≤ capacity) :
    (G.unwrapPad key rest).written rest.length ≤ capacity := by
  cases h : G.unwrapPad key rest with
  | refused queue => exact Nat.zero_le _
  | mismatch queue => exact hfits (G.unwrapPad_mismatch h)
  | recovered plain =>
      rcases G.unwrapPad_recovered h with ⟨hlength, -⟩ | ⟨hrest, -⟩
      · exact (Nat.sub_le _ _).trans (hfits hlength)
      · rw [hrest]
        exact Nat.zero_le _

theorem decryptAesKeyUnwrap_eq {aesKey rest : Bytes} {capacity : Nat}
    (hfits : Unwrappable rest.length → rest.length ≤ capacity) :
    decryptAesKeyUnwrap G aesKey rest (rest.length : Int) capacity =
      match G.unwrapPad aesKey rest with
      | .refused queue => some (.error (handleErrors queue))
      | .mismatch queue => some (.error (handleErrors queue))
      | .recovered plain => some (.ok plain) := by
  have hwritten := Nat.not_lt_of_le (@written_le G aesKey rest capacity hfits)
  rw [decryptAesKeyUnwrap, if_neg (by omega), Int.toNat_natCast, slice_start le_rfl, List.take_length]
  simp only [Option.bind_eq_bind, Option.bind_some, if_neg hwritten]
  cases G.unwrapPad aesKey rest with
  | refused queue => rfl
  | mismatch queue => rfl
  | recovered plain => rfl

/-- An error of the key release, which hands nothing to the unwrapping. -/
theorem handlesWhole_error {c : Bytes} {toTpm : Option Bytes} {exitCode : Nat} {msg : Bytes}
    (hlong : 256 < c.length → G.initialized = true → G.readPcrs = .ok () → toTpm = some (c.take 256) ∧
      ∀ aesKey, G.decryptWithEphemeralKey (c.take 256) ≠ .ok aesKey) :
    HandlesWhole G c (some ⟨toTpm, none, .error (.skrError exitCode msg)⟩) := by
  refine ⟨_, rfl, fun hc hinit hpcrs => ?_, fun _ => ⟨_, _, rfl⟩, fun _ h => by cases h⟩
  obtain ⟨htpm, hkey⟩ := hlong hc hinit hpcrs
  exact ⟨htpm, fun aesKey h => absurd h (hkey aesKey)⟩

theorem handlesWhole_split {c : Bytes} {result : Except Exc Bytes}
    (hshort : c.length ≤ 256 → ∃ exitCode msg, result = .error (.skrError exitCode msg))
    (hok : ∀ privateKey, result = .ok privateKey → privateKey.length ≤ 8192) :
    HandlesWhole G c (some ⟨some (c.take 256), some (c.drop 256), result⟩) :=
  ⟨_, rfl, fun _ _ _ => ⟨rfl, fun _ _ => rfl⟩, hshort, hok⟩

/-- When the TPM has decrypted its part, the rest of a ciphertext that fits goes to the unwrapping. -/
theorem handlesWhole_decrypted (hinit : G.initialized = true) (hpcrs : G.readPcrs = .ok ()) {c aesKey : Bytes}
    (hkey : G.decryptWithEphemeralKey (c.take 256) = .ok aesKey) (hle : 256 ≤ c.length)
    (hlt : c.length - 256 < 2 ^ 31) (hfits : Unwrappable (c.length - 256) → c.length - 256 ≤ 8192) :
    HandlesWhole G c (releaseKey G c) := by
  have hrest : (c.drop 256).length = c.length - 256 := List.length_drop
  have hlen : remainingLength c = ((c.drop 256).length : Int) := by rw [remainingLength_eq hle hlt, hrest]
  have hnonneg : ¬((c.drop 256).length : Int) < 0 := by omega
  have hfits' : Unwrappable (c.drop 256).length → (c.drop 256).length ≤ 8192 := by rwa [hrest]
  rw [releaseKey_decrypted G hinit hpcrs hle hkey, hlen]
  simp only [if_neg hnonneg, Int.toNat_natCast, List.take_length, decryptAesKeyUnwrap_eq G hfits',
    Option.bind_eq_bind]
  cases hplain : G.unwrapPad aesKey (c.drop 256) with
  | refused queue => exact handlesWhole_split G (fun _ => ⟨_, _, rfl⟩) (fun _ h => by cases h)
  | mismatch queue => exact handlesWhole_split G (fun _ => ⟨_, _, rfl⟩) (fun _ h => by cases h)
  | recovered plain =>
      cases plain with
      | nil => exact handlesWhole_split G (fun _ => ⟨_, _, rfl⟩) (fun _ h => by cases h)
      | cons b plain =>
          rcases G.unwrapPad_recovered hplain with ⟨hlength, hbound⟩ | ⟨-, hnil⟩
          · have hlong : 16 ≤ (c.drop 256).length := hlength.1
            refine handlesWhole_split G (fun hshort => by omega) (fun privateKey h => ?_)
            cases h
            exact hbound.trans ((Nat.sub_le _ _).trans (hfits' hlength))
          · cases hnil

/-- The whole of a ciphertext that fits is split as it is to be, whatever the guest does. -/
theorem handlesWhole_of_fits {c : Bytes} (hle : 256 ≤ c.length) (hlt : c.length - 256 < 2 ^ 31)
    (hfits : Unwrappable (c.length - 256) → c.length - 256 ≤ 8192) : HandlesWhole G c (releaseKey G c) := by
  have hne : c ≠ [] := by
    rintro rfl
    exact absurd hle (by decide)
  by_cases hinit : G.initialized = true
  · cases hpcrs : G.readPcrs with
    | error refusal =>
        rw [releaseKey, if_neg (not_not.2 hinit), clientDecrypt, if_neg hne, hpcrs]
        exact handlesWhole_error G fun _ _ h => by rw [hpcrs] at h; cases h
    | ok _ =>
        cases hkey : G.decryptWithEphemeralKey (c.take 256) with
        | error refusal =>
            rw [releaseKey, if_neg (not_not.2 hinit), clientDecrypt, if_neg hne, hpcrs]
            simp only [modulusSize_eq, slice_start hle, Option.map_some, Option.bind_eq_bind, Option.bind_some, hkey]
            exact handlesWhole_error G fun _ _ _ => ⟨rfl, fun _ h => by rw [hkey] at h; cases h⟩
        | ok aesKey => exact handlesWhole_decrypted G hinit hpcrs hkey hle hlt hfits
  · rw [releaseKey, if_pos hinit]
    exact handlesWhole_error G fun _ h => absurd h hinit

end

/-- What comes of unwrapping something that no one has wrapped. -/
def unwrapNothing (ciphertext : Bytes) : Unwrapped :=
  if Unwrappable ciphertext.length then .mismatch []
  else if ciphertext = [] then .recovered []
  else .refused []

theorem unwrapNothing_mismatch {ciphertext queue : Bytes} (h : unwrapNothing ciphertext = .mismatch queue) :
    Unwrappable ciphertext.length := by
  unfold unwrapNothing at h
  split_ifs at h with hlength
  exact hlength

theorem unwrapNothing_recovered {ciphertext plain : Bytes} (h : unwrapNothing ciphertext = .recovered plain) :
    ciphertext = [] ∧ plain = [] := by
  unfold unwrapNothing at h
  split_ifs at h with hlength hnil
  exact ⟨hnil, (Unwrapped.recovered.inj h).symm⟩

/-- A guest whose TPM decrypts everything and whose OpenSSL unwraps nothing. -/
def decryptingGuest : Guest where
  initialized := true
  readPcrs := .ok ()
  decryptWithEphemeralKey _ := .ok (List.replicate 32 0)
  unwrapPad _ ciphertext := unwrapNothing ciphertext
  unwrapPad_mismatch h := unwrapNothing_mismatch h
  unwrapPad_recovered h := .inr (unwrapNothing_recovered h)
  badLength := []

/-- What that guest is handed for the unwrapping, when the run stays inside the buffers. -/
theorem releaseKey_decryptingGuest {v : Bytes} (hle : 256 ≤ v.length) {handled : Handled}
    (hrun : releaseKey decryptingGuest v = some handled) {rest : Bytes} (hrest : handled.toUnwrap = some rest) :
    rest = (v.drop 256).take (remainingLength v).toNat ∧ (Unwrappable rest.length → rest.length ≤ 8192) := by
  rw [releaseKey_decrypted decryptingGuest rfl rfl hle rfl] at hrun
  simp only [Option.bind_eq_bind, Option.bind_eq_some_iff] at hrun
  obtain ⟨unwrapped, hunwrapped, hreturn⟩ := hrun
  have htoUnwrap : handled.toUnwrap =
      if remainingLength v < 0 then none else some ((v.drop 256).take (remainingLength v).toNat) := by
    rcases unwrapped with e | (_ | _) <;> cases hreturn <;> rfl
  rw [htoUnwrap] at hrest
  split_ifs at hrest with hneg
  obtain rfl := Option.some.inj hrest
  refine ⟨rfl, fun hlength => ?_⟩
  rw [decryptAesKeyUnwrap, if_neg hneg] at hunwrapped
  obtain ⟨input, hinput, hfits⟩ := Option.bind_eq_some_iff.1 hunwrapped
  have hslice : input = (v.drop 256).take (remainingLength v).toNat := by
    unfold slice at hinput
    split_ifs at hinput
    rw [List.drop_zero] at hinput
    exact (Option.some.inj hinput).symm
  rw [← hslice] at hlength ⊢
  have hwiped : decryptingGuest.unwrapPad (List.replicate 32 0) input = .mismatch [] := if_pos hlength
  by_contra hlong
  have hover : 8192 < (Unwrapped.mismatch []).written input.length := Nat.lt_of_not_le hlong
  simp only [hwiped, if_pos hover] at hfits
  cases hfits

/-- With that guest, the run of a ciphertext that is not handled whole shows it. -/
theorem splitsWhole_of_handles {c : Bytes}
    (h : HandlesWhole decryptingGuest c (releaseKey decryptingGuest (trimZeros c))) : SplitsWhole c := by
  obtain ⟨handled, hrun, hsplit, -, -⟩ := h
  have hprefix := trimZeros_prefix c
  have hwhole : c.length ≤ (trimZeros c).length → trimZeros c = c := fun hlen => hprefix.eq_of_length_le hlen
  rw [SplitsWhole, ← trimZeros_eq_self_iff]
  generalize trimZeros c = v at *
  by_cases hnil : v = []
  · refine .inl ⟨hnil, ?_⟩
    by_contra hlong
    have hnone : releaseKey decryptingGuest v = some ⟨none, none, .error (.skrError exitCryptoFail
        (refusalText ⟨-8, 0, ascii "Invalid input parameter"⟩))⟩ := by rw [hnil]; rfl
    rw [hnone] at hrun
    cases hrun
    cases (hsplit (Nat.lt_of_not_le hlong) rfl rfl).1
  · have hle : 256 ≤ v.length := by
      by_contra hshort
      have hslice : slice v 0 256 = none := slice_eq_none (by omega)
      have hnone : releaseKey decryptingGuest v = none := by
        rw [releaseKey, if_neg (by decide), clientDecrypt, if_neg hnil]
        simp only [decryptingGuest, modulusSize_eq, hslice, Option.map_none, Option.bind_eq_bind, Option.bind_none]
      rw [hnone] at hrun
      cases hrun
    have hlen := hprefix.length_le
    refine .inr ⟨hle.trans hlen, ?_⟩
    by_cases hexact : c.length = 256
    · exact ⟨hwhole (by omega), by omega, fun _ => by omega⟩
    · obtain ⟨hrest, hfits⟩ := releaseKey_decryptingGuest hle hrun
        ((hsplit (by omega) rfl rfl).2 (List.replicate 32 0) rfl)
      have hcount := congrArg List.length hrest
      rw [List.length_take, List.length_drop, List.length_drop] at hcount
      rw [List.length_drop] at hfits
      have hint := remainingLength_lt v
      exact ⟨hwhole (by omega), by omega, hfits⟩

/-- **When the ciphertext of a response is handled whole, whatever the guest does**: see `SplitsWhole`. -/
theorem handleResponse_iff (L : JsonLib) {responseStr c : Bytes}
    (htext : skrCipherText L responseStr = .ok (binaryToBase64url c)) :
    (∀ G : Guest, HandlesWhole G c (handleResponse G L responseStr)) ↔ SplitsWhole c := by
  constructor
  · intro h
    have hguest := h decryptingGuest
    rw [handleResponse_eq decryptingGuest htext] at hguest
    exact splitsWhole_of_handles hguest
  · rintro (⟨hnil, hshort⟩ | ⟨hle, hend, hlt, hfits⟩) G
    · rw [handleResponse_eq G htext, hnil]
      by_cases hinit : G.initialized = true
      · rw [releaseKey, if_neg (not_not.2 hinit), clientDecrypt, if_pos rfl]
        exact handlesWhole_error G fun hc => by omega
      · rw [releaseKey, if_pos hinit]
        exact handlesWhole_error G fun hc => by omega
    · rw [handleResponse_eq G htext, trimZeros_eq_self_iff.2 hend]
      exact handlesWhole_of_fits G hle hlt hfits

namespace Sample

/-- The parser, on the three texts of a response with a ciphertext. -/
def parseText (cipherText text : Bytes) : Except JsonError Json :=
  if text = ascii "response" then
    .ok (.object [(ascii "value", .string (ascii "h." ++ binaryToBase64url (ascii "payload") ++ ascii ".s"))])
  else if text = ascii "payload" then
    .ok (.object [(ascii "response", .object [(ascii "key", .object [(ascii "key", .object
      [(ascii "key_hsm", .string (binaryToBase64url (ascii "hsm")))])])])])
  else if text = ascii "hsm" then .ok (.object [(ascii "ciphertext", .string (binaryToBase64url cipherText))])
  else .error .parseError

theorem valid_texts : ∀ s ∈ [ascii "value", ascii "h." ++ binaryToBase64url (ascii "payload") ++ ascii ".s",
    ascii "response", ascii "key", ascii "key_hsm", ascii "ciphertext"], Utf8.valid s = true := by
  decide +kernel

theorem parseText_utf8 (cipherText : Bytes) {text : Bytes} {j : Json} (h : parseText cipherText text = .ok j) :
    j.utf8Ok = true := by
  have htexts := valid_texts
  simp only [List.forall_mem_cons] at htexts
  obtain ⟨hvalue, htoken, hresponse, hkey, hkeyHsm, hcipherText, -⟩ := htexts
  unfold parseText at h
  split_ifs at h
  · cases h
    simp only [Json.utf8Ok, Json.utf8OkMembers, hvalue, htoken, Bool.true_and]
  · cases h
    simp only [Json.utf8Ok, Json.utf8OkMembers, hresponse, hkey, hkeyHsm, valid_binaryToBase64url, Bool.true_and]
  · cases h
    simp only [Json.utf8Ok, Json.utf8OkMembers, hcipherText, valid_binaryToBase64url, Bool.true_and]

def parser (cipherText : Bytes) : JsonLib where
  parse := parseText cipherText
  parse_utf8 := parseText_utf8 cipherText
  parseWhat _ := []
  what _ := []
  render _ := []

theorem skrCipherText_parsed (c : Bytes) :
    skrCipherText (parser c) (ascii "response") = .ok (binaryToBase64url c) := by
  have hpayload : base64urlToBinary (binaryToBase64url (ascii "payload")) = .ok (ascii "payload") := by decide +kernel
  have hhsm : base64urlToBinary (binaryToBase64url (ascii "hsm")) = .ok (ascii "hsm") := by decide +kernel
  have hsplit : splitString 46 [] (ascii "h." ++ binaryToBase64url (ascii "payload") ++ ascii ".s") =
      [ascii "h", binaryToBase64url (ascii "payload"), ascii "s"] := by decide +kernel
  have hresponse : (ascii "response").takeWhile (· ≠ 0) = ascii "response" := by decide +kernel
  have hcut : (ascii "payload").takeWhile (· ≠ 0) = ascii "payload" := by decide +kernel
  have hone : ascii "payload" ≠ ascii "response" := by decide
  have htwo : ascii "hsm" ≠ ascii "response" := by decide
  have hthree : ascii "hsm" ≠ ascii "payload" := by decide
  simp only [skrCipherText, hresponse, parseJson, parser, parseText, if_true, Except.mapError, ok_bind, stringAt,
    Json.index, List.lookup_cons_self, Option.getD_some, Json.getString, hsplit, hpayload, hcut, if_neg hone, hhsm,
    if_neg htwo, if_neg hthree]

/-- 256 bytes for the TPM, and 24 bytes for the unwrapping, the last of which is zero. -/
def endsInZero : Bytes := List.replicate 279 1 ++ [0]

def endsInOne : Bytes := List.replicate 280 1

end Sample

/-- The unwrapping gets 23 of the 24 bytes. -/
theorem handleResponse_trims :
    skrCipherText (Sample.parser Sample.endsInZero) (ascii "response") = .ok (binaryToBase64url Sample.endsInZero) ∧
      ¬∀ G : Guest, HandlesWhole G Sample.endsInZero
        (handleResponse G (Sample.parser Sample.endsInZero) (ascii "response")) := by
  have htext := Sample.skrCipherText_parsed Sample.endsInZero
  refine ⟨htext, fun h => ?_⟩
  have hguest := h decryptingGuest
  rw [handleResponse_eq decryptingGuest htext] at hguest
  rcases splitsWhole_of_handles hguest with ⟨hnil, -⟩ | ⟨-, hend, -, -⟩
  · exact absurd hnil (by decide +kernel)
  · exact hend (by decide +kernel)

theorem handleResponse_whole :
    skrCipherText (Sample.parser Sample.endsInOne) (ascii "response") = .ok (binaryToBase64url Sample.endsInOne) ∧
      HandlesWhole decryptingGuest Sample.endsInOne
        (handleResponse decryptingGuest (Sample.parser Sample.endsInOne) (ascii "response")) := by
  have htext := Sample.skrCipherText_parsed Sample.endsInOne
  exact ⟨htext, (handleResponse_iff _ htext).2 (.inr (by decide +kernel)) decryptingGuest⟩

end CvmAttestation.Release
