import CvmAttestation.BaseStream
import CvmAttestation.ClientToken

/-! `DecryptJwt` call by call. OpenSSL decrypts the text first and compares the tag last, as many bytes of it as it was
given; what was decrypted is handed out only after that. The lengths are those of vectors, passed as `int`. -/

namespace CvmAttestation.Client.Ossl

open Base

/-! ### OpenSSL -/

def tagLength : ℕ := 16

/-- AES-GCM: a keystream by position, and a tag of the additional data and the ciphertext. -/
structure AesGcm where
  keystream : (key iv : Bytes) → ℕ → UInt8
  tag : (key iv aad cipherText : Bytes) → Bytes
  length_tag : ∀ key iv aad cipherText, (tag key iv aad cipherText).length = tagLength

def AesGcm.plainText (G : AesGcm) (key iv cipherText : Bytes) : Bytes := mask (G.keystream key iv) 0 cipherText

/-- The calls of the `EVP` interface, with what OpenSSL reads of their arguments. -/
inductive EvpCall
  | contextNew
  | decryptInit (keyLength : ℕ)
  | setIvLength (arg : ℤ)
  | initKey (key iv : Bytes)
  | updateAad (input : Bytes)
  | update (input : Bytes)
  | setTag (tag : Bytes)
  | decryptFinal
  deriving DecidableEq, Repr

/-- OpenSSL: its cipher, the calls that it refuses for a reason of its own, such as want of memory or a limit of its
version, and its error texts. -/
structure OpenSsl where
  gcm : AesGcm
  refuses : EvpCall → Bool
  errorString : EvpCall → Bytes

structure Context where
  keyLength : ℕ
  ivLength : ℕ
  key : Bytes
  iv : Bytes
  aad : Bytes
  cipherText : Bytes
  tag : Bytes

/-- A `size_t` as an `int`. -/
@[irreducible] def toInt (n : ℕ) : ℤ := (n : ℤ).bmod (2 ^ 32)

/-- What OpenSSL reads of a vector whose size it is given as an `int`. -/
def passed (v : Bytes) : Bytes := v.take (toInt v.length).toNat

section

variable (O : OpenSsl)

def attempt {α : Type} (call : EvpCall) (allowed : Prop) [Decidable allowed] (a : α) : Except Bytes α :=
  if allowed ∧ O.refuses call = false then .ok a else .error (O.errorString call)

def decryptInit (alg : ℕ) : Except Bytes Context := attempt O (.decryptInit alg) True ⟨alg, 12, [], [], [], [], []⟩

def setIvLength (ctx : Context) (arg : ℤ) : Except Bytes Context :=
  attempt O (.setIvLength arg) (0 < arg) { ctx with ivLength := arg.toNat }

def initKey (ctx : Context) (key iv : Bytes) : Except Bytes Context :=
  attempt O (.initKey (key.take ctx.keyLength) (iv.take ctx.ivLength)) True
    { ctx with key := key.take ctx.keyLength, iv := iv.take ctx.ivLength }

def updateAad (ctx : Context) (input : Bytes) (inl : ℤ) : Except Bytes Context :=
  attempt O (.updateAad (input.take inl.toNat)) (0 ≤ inl) { ctx with aad := ctx.aad ++ input.take inl.toNat }

/-- The next piece of the text: the context after it, and what is written to the output. -/
def update (ctx : Context) (input : Bytes) (inl : ℤ) : Except Bytes (Context × Bytes) :=
  attempt O (.update (input.take inl.toNat)) (0 ≤ inl)
    ({ ctx with cipherText := ctx.cipherText ++ input.take inl.toNat },
      mask (O.gcm.keystream ctx.key ctx.iv) ctx.cipherText.length (input.take inl.toNat))

def setTag (ctx : Context) (arg : ℤ) (tag : Bytes) : Except Bytes Context :=
  attempt O (.setTag (tag.take arg.toNat)) (0 < arg ∧ arg ≤ tagLength) { ctx with tag := tag.take arg.toNat }

/-- The comparison of the tag, over the bytes that were set. -/
def decryptFinal (ctx : Context) : Except Bytes Unit :=
  attempt O .decryptFinal (ctx.tag = (O.gcm.tag ctx.key ctx.iv ctx.aad ctx.cipherText).take ctx.tag.length) ()

end

/-! ### `DecryptJwt` -/

/-- The two strings that `DecryptJwt` writes to. -/
structure Outputs where
  jwtDecrypted : Bytes
  err : Bytes
  deriving DecidableEq, Repr

/-- A part of `DecryptJwt`, which goes on or returns `false`. -/
abbrev Exits (α : Type) := Proc Unit Outputs α

def returnFalse {α : Type} (err : Bytes) : Exits α := do
  modify fun out => { out with err := err }
  Proc.call (.error ())

def exitIf (c : Prop) [Decidable c] (err : Bytes) : Exits Unit := if c then returnFalse err else pure ()

def orExit {α : Type} : Except Bytes α → Exits α
  | .ok a => pure a
  | .error errorStr => returnFalse (ascii "Openssl Error:" ++ errorStr)

/-- `_GetOpenSslAesGcmAlg`: the cipher, by the length of its key. -/
def getOpenSslAesGcmAlg (keyLen : ℕ) : Option ℕ := if keyLen = 16 ∨ keyLen = 24 ∨ keyLen = 32 then some keyLen else none

def getAlg (keyLen : ℕ) : Exits ℕ :=
  match getOpenSslAesGcmAlg keyLen with
  | some alg => pure alg
  | none => returnFalse (ascii "Openssl Error: Failed to get decryption algorithm")

def authData : Bytes := ascii "Transport Key"

section

variable (O : OpenSsl)

def decryptJwtBody (params : EncryptionParameters) (decryptionKey jwtEncrypted : Bytes) : Exits Unit := do
  modify fun out => { out with err := [] }
  exitIf (params.blockMode ≠ .chainingModeGcm) (ascii "Error: Unsupported block mode")
  exitIf (params.blockPadding ≠ .pkcs7) (ascii "Error: Unsupported block padding")
  exitIf (params.cipherAlg ≠ .aes) (ascii "Error: Unsupported decryption algorithm")
  exitIf (O.refuses .contextNew) (ascii "Openssl Error: Failed to initialize evp cipher")
  let alg ← getAlg decryptionKey.length
  let ctx ← orExit (decryptInit O alg)
  let ctx ← orExit (setIvLength O ctx (toInt params.iv.length))
  let ctx ← orExit (initKey O ctx decryptionKey params.iv)
  let ctx ← orExit (updateAad O ctx authData (toInt authData.length))
  let (ctx, output) ← orExit (update O ctx jwtEncrypted (toInt jwtEncrypted.length))
  let plainText := filled output jwtEncrypted.length
  let ctx ← orExit (setTag O ctx (toInt params.authenticationData.length) params.authenticationData)
  orExit (decryptFinal O ctx)
  modify fun out => { out with jwtDecrypted := plainText }

/-- `attest::DecryptJwt`: what it returns, and its two outputs. -/
def decryptJwt (params : EncryptionParameters) (decryptionKey jwtEncrypted : Bytes) (out : Outputs) : Bool × Outputs :=
  match (decryptJwtBody O params decryptionKey jwtEncrypted).exec out with
  | (.ok (), out') => (true, out')
  | (.error (), out') => (false, out')

end

/-! ### Calls that succeed -/

section

variable {O : OpenSsl} {β : Type} {b : β}

theorem attempt_eq_ok_iff {α : Type} {call : EvpCall} {allowed : Prop} [Decidable allowed] {a b : α} :
    attempt O call allowed a = .ok b ↔ (allowed ∧ O.refuses call = false) ∧ a = b := by
  rw [attempt]
  split
  · rename_i h
    simp [h]
  · rename_i h
    simp [h]

theorem attempt_bind_eq_ok_iff {α β : Type} {call : EvpCall} {allowed : Prop} [Decidable allowed] {a : α}
    {f : α → Except Bytes β} {b : β} :
    (attempt O call allowed a >>= f) = .ok b ↔ allowed ∧ O.refuses call = false ∧ f a = .ok b := by
  rw [bind_returns]
  simp only [attempt_eq_ok_iff, and_assoc, exists_and_left, exists_eq_left']

theorem decryptInit_bind_eq_ok_iff {alg : ℕ} {f : Context → Except Bytes β} :
    (decryptInit O alg >>= f) = .ok b ↔
      O.refuses (.decryptInit alg) = false ∧ f ⟨alg, 12, [], [], [], [], []⟩ = .ok b := by
  rw [decryptInit, attempt_bind_eq_ok_iff, true_and]

variable {n ivLength : ℕ} {key iv aad cipherText tag : Bytes}

theorem setIvLength_bind_eq_ok_iff {arg : ℤ} {f : Context → Except Bytes β} :
    (setIvLength O ⟨n, ivLength, key, iv, aad, cipherText, tag⟩ arg >>= f) = .ok b ↔
      0 < arg ∧ O.refuses (.setIvLength arg) = false ∧ f ⟨n, arg.toNat, key, iv, aad, cipherText, tag⟩ = .ok b := by
  rw [setIvLength, attempt_bind_eq_ok_iff]

theorem initKey_bind_eq_ok_iff {newKey newIv : Bytes} {f : Context → Except Bytes β} :
    (initKey O ⟨n, ivLength, key, iv, aad, cipherText, tag⟩ newKey newIv >>= f) = .ok b ↔
      O.refuses (.initKey (newKey.take n) (newIv.take ivLength)) = false ∧
        f ⟨n, ivLength, newKey.take n, newIv.take ivLength, aad, cipherText, tag⟩ = .ok b := by
  rw [initKey, attempt_bind_eq_ok_iff, true_and]

theorem updateAad_bind_eq_ok_iff {input : Bytes} {inl : ℤ} {f : Context → Except Bytes β} :
    (updateAad O ⟨n, ivLength, key, iv, aad, cipherText, tag⟩ input inl >>= f) = .ok b ↔
      0 ≤ inl ∧ O.refuses (.updateAad (input.take inl.toNat)) = false ∧
        f ⟨n, ivLength, key, iv, aad ++ input.take inl.toNat, cipherText, tag⟩ = .ok b := by
  rw [updateAad, attempt_bind_eq_ok_iff]

theorem update_bind_eq_ok_iff {input : Bytes} {inl : ℤ} {f : Context × Bytes → Except Bytes β} :
    (update O ⟨n, ivLength, key, iv, aad, cipherText, tag⟩ input inl >>= f) = .ok b ↔
      0 ≤ inl ∧ O.refuses (.update (input.take inl.toNat)) = false ∧
        f (⟨n, ivLength, key, iv, aad, cipherText ++ input.take inl.toNat, tag⟩,
          mask (O.gcm.keystream key iv) cipherText.length (input.take inl.toNat)) = .ok b := by
  rw [update, attempt_bind_eq_ok_iff]

theorem setTag_bind_eq_ok_iff {newTag : Bytes} {arg : ℤ} {f : Context → Except Bytes β} :
    (setTag O ⟨n, ivLength, key, iv, aad, cipherText, tag⟩ arg newTag >>= f) = .ok b ↔
      (0 < arg ∧ arg ≤ tagLength) ∧ O.refuses (.setTag (newTag.take arg.toNat)) = false ∧
        f ⟨n, ivLength, key, iv, aad, cipherText, newTag.take arg.toNat⟩ = .ok b := by
  rw [setTag, attempt_bind_eq_ok_iff]

theorem decryptFinal_bind_eq_ok_iff {f : Unit → Except Bytes β} :
    (decryptFinal O ⟨n, ivLength, key, iv, aad, cipherText, tag⟩ >>= f) = .ok b ↔
      tag = (O.gcm.tag key iv aad cipherText).take tag.length ∧ O.refuses .decryptFinal = false ∧ f () = .ok b := by
  rw [decryptFinal, attempt_bind_eq_ok_iff]

end

/-! ### Exits -/

theorem ends_modify_iff {g : Outputs → Outputs} {out : Outputs} {Q : Unit → Outputs → Prop} {R : Outputs → Prop} :
    (modify g : Exits Unit).Ends out Q R ↔ Q () (g out) := Iff.rfl

theorem ends_returnFalse_iff {α : Type} {err : Bytes} {out : Outputs} {Q : α → Outputs → Prop} {R : Outputs → Prop} :
    (returnFalse err : Exits α).Ends out Q R ↔ R { out with err := err } := Iff.rfl

theorem ends_exitIf_iff {c : Prop} [Decidable c] {err : Bytes} {out : Outputs} {Q : Unit → Outputs → Prop}
    {R : Outputs → Prop} :
    (exitIf c err).Ends out Q R ↔ (c → R { out with err := err }) ∧ (¬c → Q () out) := by
  rw [exitIf]
  by_cases hc : c
  · rw [if_pos hc, ends_returnFalse_iff]
    simp [hc]
  · rw [if_neg hc]
    simp only [hc, false_implies, not_false_eq_true, true_implies, true_and]
    exact Iff.rfl

theorem ends_orExit_iff {α : Type} {x : Except Bytes α} {out : Outputs} {Q : α → Outputs → Prop}
    {R : Outputs → Prop} :
    (orExit x).Ends out Q R ↔
      (∀ errorStr, x = .error errorStr → R { out with err := ascii "Openssl Error:" ++ errorStr }) ∧
        (∀ a, x = .ok a → Q a out) := by
  cases x with
  | ok a =>
      simp only [reduceCtorEq, false_implies, implies_true, Except.ok.injEq, forall_eq', true_and]
      exact Iff.rfl
  | error errorStr =>
      rw [orExit, ends_returnFalse_iff]
      simp

/-- Leaving at each call is leaving at the first one that fails. -/
theorem orExit_bind {α β γ : Type} (x : Except Bytes α) (f : α → Except Bytes β) (g : β → Exits γ) :
    (orExit x >>= fun a => orExit (f a) >>= g) = orExit (x >>= f) >>= g := by
  cases x with
  | ok a => rfl
  | error errorStr => rfl

theorem ends_getAlg_iff {keyLen : ℕ} {out : Outputs} {Q : ℕ → Outputs → Prop} {R : Outputs → Prop} :
    (getAlg keyLen).Ends out Q R ↔
      (¬(keyLen = 16 ∨ keyLen = 24 ∨ keyLen = 32) →
        R { out with err := ascii "Openssl Error: Failed to get decryption algorithm" }) ∧
        (keyLen = 16 ∨ keyLen = 24 ∨ keyLen = 32 → Q keyLen out) := by
  rw [getAlg, getOpenSslAesGcmAlg]
  by_cases h : keyLen = 16 ∨ keyLen = 24 ∨ keyLen = 32
  · rw [if_pos h]
    simp only [h, not_true_eq_false, false_implies, true_and, true_implies]
    exact Iff.rfl
  · rw [if_neg h]
    simp only [ends_returnFalse_iff, h, not_false_eq_true, true_implies, false_implies, and_true]

/-! ### Which inputs are decrypted -/

section

variable (O : OpenSsl)

/-- The calls of `DecryptJwt` from the first initialisation on, without its exits. -/
def evpDecrypt (alg : ℕ) (decryptionKey iv authenticationData jwtEncrypted : Bytes) : Except Bytes Bytes := do
  let ctx ← decryptInit O alg
  let ctx ← setIvLength O ctx (toInt iv.length)
  let ctx ← initKey O ctx decryptionKey iv
  let ctx ← updateAad O ctx authData (toInt authData.length)
  let (ctx, output) ← update O ctx jwtEncrypted (toInt jwtEncrypted.length)
  let ctx ← setTag O ctx (toInt authenticationData.length) authenticationData
  decryptFinal O ctx
  return filled output jwtEncrypted.length

def evpCalls (decryptionKey iv authenticationData jwtEncrypted : Bytes) : List EvpCall :=
  [.decryptInit decryptionKey.length, .setIvLength (toInt iv.length), .initKey decryptionKey (passed iv),
    .updateAad authData, .update (passed jwtEncrypted), .setTag (passed authenticationData), .decryptFinal]

/-- Neither a rule of GCM nor OpenSSL for a reason of its own refuses a call, and the tag agrees as far as it is
compared. -/
structure EvpAccepts (decryptionKey iv authenticationData jwtEncrypted : Bytes) : Prop where
  ivLength : 0 < toInt iv.length
  textLength : 0 ≤ toInt jwtEncrypted.length
  tagLength : 0 < toInt authenticationData.length ∧ toInt authenticationData.length ≤ tagLength
  calls : ∀ call ∈ evpCalls decryptionKey iv authenticationData jwtEncrypted, O.refuses call = false
  tag : passed authenticationData =
    (O.gcm.tag decryptionKey (passed iv) authData (passed jwtEncrypted)).take (passed authenticationData).length

/-- The buffer after the decryption; bytes that are not decrypted stay zero. -/
def released (decryptionKey iv jwtEncrypted : Bytes) : Bytes :=
  filled (O.gcm.plainText decryptionKey (passed iv) (passed jwtEncrypted)) jwtEncrypted.length

/-- Nothing in `DecryptJwt` refuses the inputs. -/
structure Accepted (params : EncryptionParameters) (decryptionKey jwtEncrypted : Bytes) : Prop where
  blockMode : params.blockMode = .chainingModeGcm
  blockPadding : params.blockPadding = .pkcs7
  cipherAlg : params.cipherAlg = .aes
  contextNew : O.refuses .contextNew = false
  keyLength : decryptionKey.length = 16 ∨ decryptionKey.length = 24 ∨ decryptionKey.length = 32
  evp : EvpAccepts O decryptionKey params.iv params.authenticationData jwtEncrypted

end

section

variable {O : OpenSsl}

theorem take_passed (v : Bytes) : v.take (toInt v.length).toNat = passed v := by rw [passed]

theorem toInt_of_lt {n : ℕ} (h : n < 2 ^ 31) : toInt n = n := by
  unfold toInt
  exact Int.bmod_eq_of_le (by omega) (by omega)

theorem passed_of_lt {v : Bytes} (h : v.length < 2 ^ 31) : passed v = v := by
  rw [passed, toInt_of_lt h, Int.toNat_natCast, List.take_length]

theorem length_authData : authData.length = 13 := by decide

theorem passed_authData : passed authData = authData :=
  passed_of_lt (by
    rw [length_authData]
    norm_num)

theorem evpDecrypt_eq_ok_iff {decryptionKey iv authenticationData jwtEncrypted plainText : Bytes} :
    evpDecrypt O decryptionKey.length decryptionKey iv authenticationData jwtEncrypted = .ok plainText ↔
      EvpAccepts O decryptionKey iv authenticationData jwtEncrypted ∧
        plainText = released O decryptionKey iv jwtEncrypted := by
  have haad : 0 ≤ toInt authData.length := by
    rw [length_authData, toInt_of_lt (by norm_num)]
    norm_num
  rw [evpDecrypt, decryptInit_bind_eq_ok_iff, setIvLength_bind_eq_ok_iff, initKey_bind_eq_ok_iff,
    updateAad_bind_eq_ok_iff, update_bind_eq_ok_iff]
  simp only [setTag_bind_eq_ok_iff, decryptFinal_bind_eq_ok_iff, take_passed, passed_authData, List.take_length, haad,
    true_and]
  rw [List.nil_append, List.nil_append, List.length_nil]
  constructor
  · rintro ⟨hinit, hiv, hset, hkey, hauth, htext, hupdate, htag, hsetTag, heq, hfinal, hplain⟩
    refine ⟨⟨hiv, htext, htag, ?_, heq⟩, (Except.ok.inj hplain).symm⟩
    simp [evpCalls, hinit, hset, hkey, hauth, hupdate, hsetTag, hfinal]
  · rintro ⟨⟨hiv, htext, htag, hcalls, heq⟩, rfl⟩
    simp only [evpCalls, List.forall_mem_cons] at hcalls
    obtain ⟨hinit, hset, hkey, hauth, hupdate, hsetTag, hfinal, -⟩ := hcalls
    exact ⟨hinit, hiv, hset, hkey, hauth, htext, hupdate, htag, hsetTag, heq, hfinal, rfl⟩

end

section

variable {O : OpenSsl} {params : EncryptionParameters} {decryptionKey jwtEncrypted : Bytes} {out : Outputs}

theorem decryptJwtBody_eq :
    decryptJwtBody O params decryptionKey jwtEncrypted = (do
      modify fun out => { out with err := [] }
      exitIf (params.blockMode ≠ .chainingModeGcm) (ascii "Error: Unsupported block mode")
      exitIf (params.blockPadding ≠ .pkcs7) (ascii "Error: Unsupported block padding")
      exitIf (params.cipherAlg ≠ .aes) (ascii "Error: Unsupported decryption algorithm")
      exitIf (O.refuses .contextNew) (ascii "Openssl Error: Failed to initialize evp cipher")
      let alg ← getAlg decryptionKey.length
      let plainText ← orExit (evpDecrypt O alg decryptionKey params.iv params.authenticationData jwtEncrypted)
      modify fun out => { out with jwtDecrypted := plainText }) := by
  simp only [decryptJwtBody, evpDecrypt, ← orExit_bind]
  rfl

/-- How `DecryptJwt` ends: with the decrypted text when the inputs are accepted; else without a change to it. -/
theorem decryptJwtBody_ends :
    (decryptJwtBody O params decryptionKey jwtEncrypted).Ends out
      (fun _ out' => Accepted O params decryptionKey jwtEncrypted ∧
        out' = ⟨released O decryptionKey params.iv jwtEncrypted, []⟩)
      (fun out' => ¬Accepted O params decryptionKey jwtEncrypted ∧ out'.jwtDecrypted = out.jwtDecrypted) := by
  rw [decryptJwtBody_eq, Proc.ends_bind_iff, ends_modify_iff, Proc.ends_bind_iff, ends_exitIf_iff]
  refine ⟨fun h => ⟨fun hacc => h hacc.blockMode, rfl⟩, fun hmode => ?_⟩
  rw [Proc.ends_bind_iff, ends_exitIf_iff]
  refine ⟨fun h => ⟨fun hacc => h hacc.blockPadding, rfl⟩, fun hpadding => ?_⟩
  rw [Proc.ends_bind_iff, ends_exitIf_iff]
  refine ⟨fun h => ⟨fun hacc => h hacc.cipherAlg, rfl⟩, fun hcipher => ?_⟩
  rw [Proc.ends_bind_iff, ends_exitIf_iff]
  refine ⟨fun h => ⟨fun hacc => Bool.false_ne_true (hacc.contextNew.symm.trans h), rfl⟩, fun hnew => ?_⟩
  rw [Proc.ends_bind_iff, ends_getAlg_iff]
  refine ⟨fun h => ⟨fun hacc => h hacc.keyLength, rfl⟩, fun hkey => ?_⟩
  rw [Proc.ends_bind_iff, ends_orExit_iff]
  refine ⟨fun errorStr h => ⟨fun hacc => ?_, rfl⟩, fun plainText h => ?_⟩
  · rw [evpDecrypt_eq_ok_iff.2 ⟨hacc.evp, rfl⟩] at h
    cases h
  · obtain ⟨hevp, rfl⟩ := evpDecrypt_eq_ok_iff.1 h
    rw [ends_modify_iff]
    exact ⟨⟨not_not.1 hmode, not_not.1 hpadding, not_not.1 hcipher, Bool.eq_false_of_not_eq_true hnew, hkey, hevp⟩, rfl⟩

theorem decryptJwt_of_accepted (h : Accepted O params decryptionKey jwtEncrypted) :
    decryptJwt O params decryptionKey jwtEncrypted out = (true, ⟨released O decryptionKey params.iv jwtEncrypted, []⟩) := by
  have hends := @decryptJwtBody_ends O params decryptionKey jwtEncrypted out
  unfold Proc.Ends at hends
  rw [decryptJwt]
  split at hends
  · rename_i heq
    rw [heq, hends.2]
  · exact absurd h hends.1

theorem decryptJwt_of_not (h : ¬Accepted O params decryptionKey jwtEncrypted) :
    ∃ err, decryptJwt O params decryptionKey jwtEncrypted out = (false, ⟨out.jwtDecrypted, err⟩) := by
  have hends := @decryptJwtBody_ends O params decryptionKey jwtEncrypted out
  unfold Proc.Ends at hends
  rw [decryptJwt]
  split at hends
  · exact absurd hends.1 h
  · rename_i out' heq
    rw [heq]
    obtain ⟨jwt, err⟩ := out'
    cases hends.2
    exact ⟨err, rfl⟩

/-- Every run that returns `false` leaves the decrypted JWT as it was. -/
theorem decryptJwt_false (h : (decryptJwt O params decryptionKey jwtEncrypted out).1 = false) :
    (decryptJwt O params decryptionKey jwtEncrypted out).2.jwtDecrypted = out.jwtDecrypted := by
  by_cases hacc : Accepted O params decryptionKey jwtEncrypted
  · rw [decryptJwt_of_accepted hacc] at h
    cases h
  · obtain ⟨err, heq⟩ := @decryptJwt_of_not O params decryptionKey jwtEncrypted out hacc
    rw [heq]

end

/-! ### The client -/

/-- The TPM and this OpenSSL, as the rest of the client sees them. -/
def OpenSsl.unsealer (O : OpenSsl) (decryptWithEphemeralKey : ℕ → Bytes → TpmOutcome) : Unsealer where
  decryptWithEphemeralKey := decryptWithEphemeralKey
  gcmDecrypt key iv tag cipherText := evpDecrypt O key.length key iv tag cipherText

section

variable {O : OpenSsl} {params : EncryptionParameters} {decryptionKey jwtEncrypted : Bytes} {out : Outputs}

/-- Once it has a context, `DecryptJwt` is what the rest of the client relies on. -/
theorem decryptJwt_unsealer (tpm : ℕ → Bytes → TpmOutcome) (hnew : O.refuses .contextNew = false) :
    (Client.decryptJwt (O.unsealer tpm) params decryptionKey jwtEncrypted).run =
      match decryptJwt O params decryptionKey jwtEncrypted out with
      | (true, out') => .ok (.ok out'.jwtDecrypted)
      | (false, out') => .ok (.error out'.err) := by
  have hends : (decryptJwtBody O params decryptionKey jwtEncrypted).Ends out
      (fun _ out' => (Client.decryptJwt (O.unsealer tpm) params decryptionKey jwtEncrypted).run = .ok (.ok out'.jwtDecrypted))
      (fun out' => (Client.decryptJwt (O.unsealer tpm) params decryptionKey jwtEncrypted).run = .ok (.error out'.err)) := by
    rw [decryptJwtBody_eq, Client.decryptJwt, Proc.ends_bind_iff, ends_modify_iff, Proc.ends_bind_iff, ends_exitIf_iff]
    refine ⟨fun h => by rw [if_pos h]; rfl, fun hmode => ?_⟩
    rw [if_neg hmode, Proc.ends_bind_iff, ends_exitIf_iff]
    refine ⟨fun h => by rw [if_pos h]; rfl, fun hpadding => ?_⟩
    rw [if_neg hpadding, Proc.ends_bind_iff, ends_exitIf_iff]
    refine ⟨fun h => by rw [if_pos h]; rfl, fun hcipher => ?_⟩
    rw [if_neg hcipher, Proc.ends_bind_iff, ends_exitIf_iff]
    refine ⟨fun h => absurd h (by simp [hnew]), fun _ => ?_⟩
    rw [Proc.ends_bind_iff, ends_getAlg_iff]
    refine ⟨fun h => by rw [if_pos (by tauto)]; rfl, fun hkey => ?_⟩
    rw [if_neg (by tauto), Proc.ends_bind_iff, ends_orExit_iff]
    refine ⟨fun errorStr h => ?_, fun plainText h => ?_⟩
    · simp only [OpenSsl.unsealer, h]
      rfl
    · simp only [OpenSsl.unsealer, h]
      rfl
  unfold Proc.Ends at hends
  rw [decryptJwt]
  split at hends
  · rename_i heq
    rw [heq]
    exact hends
  · rename_i heq
    rw [heq]
    exact hends

end

/-! ### What a decrypted JWT is -/

section

variable (O : OpenSsl) (params : EncryptionParameters) (decryptionKey jwtEncrypted : Bytes) (out : Outputs)

/-- The JWT is the plaintext, and the authentication data the full tag, under AES-GCM of the whole inputs. -/
def Genuine (jwtDecrypted : Bytes) : Prop :=
  params.authenticationData.length = tagLength ∧
    params.authenticationData = O.gcm.tag decryptionKey params.iv authData jwtEncrypted ∧
    jwtDecrypted = O.gcm.plainText decryptionKey params.iv jwtEncrypted

/-- Only a genuine JWT is handed out, and nothing else is ever written to the string for it. -/
def ReleasesGenuine : Prop :=
  let (returned, out') := decryptJwt O params decryptionKey jwtEncrypted out
  if returned then Genuine O params decryptionKey jwtEncrypted out'.jwtDecrypted
  else out'.jwtDecrypted = out.jwtDecrypted

/-- AES-GCM gives for what OpenSSL reads of the vectors what it gives for the whole of them. -/
def ReadsEnough : Prop :=
  O.gcm.tag decryptionKey (passed params.iv) authData (passed jwtEncrypted) =
      O.gcm.tag decryptionKey params.iv authData jwtEncrypted ∧
    released O decryptionKey params.iv jwtEncrypted = O.gcm.plainText decryptionKey params.iv jwtEncrypted

end

section

variable {O : OpenSsl} {params : EncryptionParameters} {decryptionKey jwtEncrypted : Bytes} {out : Outputs}

theorem readsEnough_of_lt (hiv : params.iv.length < 2 ^ 31) (hjwt : jwtEncrypted.length < 2 ^ 31) :
    ReadsEnough O params decryptionKey jwtEncrypted := by
  have hfilled := filled_length (O.gcm.plainText decryptionKey params.iv jwtEncrypted)
  rw [AesGcm.plainText, length_mask] at hfilled
  rw [ReadsEnough, released, passed_of_lt hiv, passed_of_lt hjwt]
  exact ⟨rfl, hfilled⟩

/-- A tag of the full length is compared as a whole. -/
theorem Accepted.tag_eq (h : Accepted O params decryptionKey jwtEncrypted)
    (hlen : params.authenticationData.length = tagLength) :
    params.authenticationData = O.gcm.tag decryptionKey (passed params.iv) authData (passed jwtEncrypted) := by
  have hlt : params.authenticationData.length < 2 ^ 31 := by
    rw [hlen, tagLength]
    norm_num
  have hwhole := O.gcm.length_tag decryptionKey (passed params.iv) authData (passed jwtEncrypted)
  calc
    params.authenticationData = passed params.authenticationData := (passed_of_lt hlt).symm
    _ = (O.gcm.tag decryptionKey (passed params.iv) authData (passed jwtEncrypted)).take
          (passed params.authenticationData).length := h.evp.tag
    _ = O.gcm.tag decryptionKey (passed params.iv) authData (passed jwtEncrypted) := by
          rw [passed_of_lt hlt, hlen, ← hwhole, List.take_length]

/-- **`DecryptJwt` releases only a genuine JWT** exactly when the tag of an accepted input has its full length. -/
theorem decryptJwt_genuine_iff (O : OpenSsl) (params : EncryptionParameters) (decryptionKey jwtEncrypted : Bytes)
    (out : Outputs) :
    ReleasesGenuine O params decryptionKey jwtEncrypted out ↔
      (Accepted O params decryptionKey jwtEncrypted →
        params.authenticationData.length = tagLength ∧ ReadsEnough O params decryptionKey jwtEncrypted) := by
  rw [ReleasesGenuine]
  by_cases hacc : Accepted O params decryptionKey jwtEncrypted
  · simp only [decryptJwt_of_accepted hacc, hacc, true_implies, if_true, Genuine, ReadsEnough]
    refine and_congr_right fun hlen => and_congr_left fun _ => ?_
    rw [← hacc.tag_eq hlen]
  · obtain ⟨err, heq⟩ := @decryptJwt_of_not O params decryptionKey jwtEncrypted out hacc
    simp [heq, hacc]

/-- A tag cut to any length down to one byte is accepted where the full tag is. -/
theorem Accepted.truncated {n : ℕ} (hn : 0 < n ∧ n ≤ tagLength) {tag : Bytes}
    (h : Accepted O { params with authenticationData := tag } decryptionKey jwtEncrypted) (hlen : tag.length = tagLength)
    (hset : O.refuses (.setTag (tag.take n)) = false) :
    Accepted O { params with authenticationData := tag.take n } decryptionKey jwtEncrypted := by
  have hwhole : tag = O.gcm.tag decryptionKey (passed params.iv) authData (passed jwtEncrypted) := h.tag_eq hlen
  obtain ⟨hmode, hpadding, hcipher, hnew, hkey, hevp⟩ := h
  rw [tagLength] at hn hlen
  have htake : (tag.take n).length = n := by
    rw [List.length_take]
    omega
  have hpassed : passed (tag.take n) = tag.take n := passed_of_lt (by omega)
  refine ⟨hmode, hpadding, hcipher, hnew, hkey, hevp.ivLength, hevp.textLength, ?_, ?_, ?_⟩
  · rw [htake, toInt_of_lt (by omega), tagLength]
    omega
  · have hcalls := hevp.calls
    simp only [evpCalls, List.forall_mem_cons] at hcalls ⊢
    obtain ⟨hinit, hiv, hinitKey, haad, htext, -, hrest⟩ := hcalls
    refine ⟨hinit, hiv, hinitKey, haad, htext, ?_, hrest⟩
    rw [hpassed]
    exact hset
  · rw [hpassed, htake, ← hwhole]

end

namespace Sample

def json : Jsoncpp := ⟨fun _ => .fails, fun _ => []⟩

/-- A response whose authentication data is the first byte of the tag. -/
def response : Json := .object
  [(ascii "AuthenticationData", .string (ascii "YQ==")), (ascii "EncryptedInnerKey", .string (ascii "AA==")),
    (ascii "EncryptionParams", .object
      [(ascii "BlockMode", .string (ascii "ChainingModeGCM")), (ascii "BlockPadding", .string (ascii "PKCS7")),
        (ascii "Cipher", .string (ascii "AES")), (ascii "Iv", .string (ascii "AAAAAAAAAAAAAAAA")),
        (ascii "KeySizeInBits", .int 128)]),
    (ascii "Jwt", .string (ascii "af+u"))]

/-- The values of AES-GCM for a key of sixteen zeros, an iv of twelve zeros and the text of the response. -/
def gcm : AesGcm where
  keystream _ _ i := [3, 136, 218, 206, 96, 182, 163, 146, 243, 40, 194, 185, 113, 178, 254, 120].getD i 0
  tag _ _ _ _ := [97, 198, 154, 68, 209, 0, 103, 59, 85, 225, 9, 52, 77, 2, 165, 39]
  length_tag _ _ _ _ := rfl

def openSsl : OpenSsl := ⟨gcm, fun _ => false, fun _ => []⟩

def params : EncryptionParameters := ⟨.chainingModeGcm, .pkcs7, .aes, 128, List.replicate 12 0, [97]⟩

end Sample

/-- One byte of the tag is enough for the JWT of a response to be released. -/
theorem decryptJwt_shortTag :
    (getEncryptionParameters Sample.json Sample.response).Returns Sample.params ∧
      (getEncryptedJwt Sample.json Sample.response).Returns [105, 255, 174] ∧
      ¬ReleasesGenuine Sample.openSsl Sample.params (List.replicate 16 0) [105, 255, 174] ⟨[], []⟩ := by
  unfold Fallible.Returns
  refine ⟨by decide +kernel, by decide +kernel, fun h => ?_⟩
  have hrun : decryptJwt Sample.openSsl Sample.params (List.replicate 16 0) [105, 255, 174] ⟨[], []⟩ =
      (true, ⟨ascii "jwt", []⟩) := by decide +kernel
  rw [ReleasesGenuine, hrun] at h
  exact absurd h.1 (by decide)

end CvmAttestation.Client.Ossl
