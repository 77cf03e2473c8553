import CvmAttestation.SecretsGcm

/-! `OsslGcmWrapper` for vectors of any length. The wrapper keeps the key vector as it is given and passes OpenSSL a
pointer to its first byte, from which AES-256 reads 32 bytes; a vector that never held anything has no such pointer, and
OpenSSL then sets no key. The lengths of the nonce and of the text are passed as `int`. -/

namespace CvmAttestation.Secrets.Ossl

open Base Gcm

inductive EvpCall
  | init
  | setIvLength
  | initKey
  | update
  | setTag
  | getTag
  | final
  deriving DecidableEq, Repr

/-- OpenSSL with its AES-256-GCM, a keystream by position and a tag of the ciphertext, and the calls that it refuses for
a reason of its own, such as want of memory or a limit of its version. -/
structure OpenSsl where
  keystream : (key iv : Bytes) → ℕ → UInt8
  mac : (key iv text : Bytes) → Bytes
  length_mac : ∀ key iv text, (mac key iv text).length = tagLength
  refuses : EvpCall → Bool

/-- What leaves the functions of the wrapper. `outOfBounds` is no exception: it is a read or a store outside a vector. -/
inductive Failure
  | runtimeError (what : String)
  | osslError (what : String)
  | lengthError
  | outOfBounds
  deriving DecidableEq, Repr

/-- `OsslGcmWrapper`: its key vector, and whether that has a pointer to elements. -/
structure OsslGcmWrapper where
  key : Bytes
  allocated : Bool
  memory : key ≠ [] → allocated = true

def OsslGcmWrapper.create : OsslGcmWrapper := ⟨[], false, fun h => absurd rfl h⟩

/-- A vector keeps its memory when it is assigned a shorter one. -/
def OsslGcmWrapper.setKey (w : OsslGcmWrapper) (key : Bytes) : OsslGcmWrapper where
  key := key
  allocated := w.allocated || decide (key ≠ [])
  memory h := by rw [decide_eq_true h, Bool.or_true]

/-- `key.data()`, with the vector that it points into. -/
def OsslGcmWrapper.keyData (w : OsslGcmWrapper) : Option Bytes := if w.allocated then some w.key else none

/-- The context of the cipher. -/
structure Context where
  ivLength : ℕ
  key : Option Bytes
  iv : Bytes
  text : Bytes
  tag : Bytes

def orOutside {α : Type} : Option α → Except Failure α
  | some a => .ok a
  | none => .error .outOfBounds

/-- `std::vector<unsigned char>(n)`. -/
def newVector (n : ℤ) : Except Failure Bytes := (vectorOfSize n).mapError fun _ => .lengthError

section

variable (O : OpenSsl)

/-- `if (call != 1) throw OsslError(ERR_get_error(), what)`. -/
def evp {α : Type} (call : EvpCall) (allowed : Prop) [Decidable allowed] (what : String) (a : α) : Except Failure α :=
  if allowed ∧ O.refuses call = false then .ok a else .error (.osslError what)

def initCipher (what : String) : Except Failure Context := evp O .init True what ⟨12, none, [], [], []⟩

def setIvLength (ctx : Context) (arg : ℤ) : Except Failure Context :=
  evp O .setIvLength (0 < arg) "Failed to set IV length" { ctx with ivLength := arg.toNat }

/-- The key and the nonce. Without a key only the nonce is set. -/
def initKey (ctx : Context) (key : Option Bytes) (iv : Bytes) : Except Failure Context :=
  match key with
  | none => evp O .initKey True "Failed to set key and IV" { ctx with iv := iv.take ctx.ivLength }
  | some key =>
    if key.length < 32 then .error .outOfBounds
    else evp O .initKey True "Failed to set key and IV"
      { ctx with key := some (key.take 32), iv := iv.take ctx.ivLength }

/-- The whole text in one call: the context after it, and what is written to the output. The context keeps the
ciphertext, of which the tag is computed. -/
def update (ctx : Context) (enc : Bool) (input : Bytes) (inl : ℤ) (what : String) : Except Failure (Context × Bytes) :=
  match ctx.key with
  | none => .error (.osslError what)
  | some key =>
    let input := input.take inl.toNat
    let output := mask (O.keystream key ctx.iv) 0 input
    evp O .update (0 ≤ inl) what ({ ctx with text := if enc then output else input }, output)

def Context.mac (ctx : Context) : Bytes := O.mac (ctx.key.getD []) ctx.iv ctx.text

/-- The calls of `Encrypt` and of `Decrypt` before the text. -/
def keying (w : OsslGcmWrapper) (initVector : Bytes) (what : String) : Except Failure Context := do
  let ctx ← initCipher O what
  let ctx ← setIvLength O ctx (toInt32 initVector.length)
  initKey O ctx w.keyData initVector

/-- `OsslGcmWrapper::Encrypt`. -/
def encrypt (w : OsslGcmWrapper) (chainingInfo : Option Bytes) (data : Bytes) : Except Failure Bytes :=
  match chainingInfo with
  | none => .error (.runtimeError "Chaining info must be set before calling Encrypt")
  | some initVector => do
    let ctx ← keying O w initVector "Failed to initialize encryption"
    let ciphertext ← newVector ((data.length : ℤ) + evpMaxBlockLength)
    let (ctx, output) ← update O ctx true data (toInt32 data.length) "Failed to encrypt"
    let ciphertext ← orOutside (overwrite ciphertext 0 output)
    let () ← evp O .final True "Failed to finalize encryption" ()
    let tag ← evp O .getTag True "Failed to get tag" (ctx.mac O)
    return resize ciphertext output.length ++ tag

/-- `OsslGcmWrapper::Decrypt`. -/
def decrypt (w : OsslGcmWrapper) (chainingInfo : Option Bytes) (ciphertext : Bytes) : Except Failure Bytes :=
  match chainingInfo with
  | none => .error (.runtimeError "Chaining info must be set before calling Decrypt")
  | some initVector => do
    let ctx ← keying O w initVector "Failed to initialize decryption"
    let plaintext ← newVector ((ciphertext.length : ℤ) - tagLength)
    let (ctx, output) ← update O ctx false ciphertext (toInt32 ((ciphertext.length : ℤ) - tagLength)) "Failed to decrypt"
    let plaintext ← orOutside (overwrite plaintext 0 output)
    let ctx ← evp O .setTag True "Failed to set tag" { ctx with tag := ciphertext.drop (ciphertext.length - tagLength) }
    let () ← evp O .final (ctx.mac O = ctx.tag) "Failed to finalize decryption (tag mismatch?)" ()
    return resize plaintext output.length

/-- The AES-256-GCM opening of a ciphertext with its tag at the end. -/
def OpenSsl.opening (key iv ciphertext : Bytes) : Option Bytes :=
  let text := ciphertext.take (ciphertext.length - tagLength)
  if O.mac key iv text = ciphertext.drop (ciphertext.length - tagLength) then some (mask (O.keystream key iv) 0 text)
  else none

/-- `Decrypt` throws or opens the whole ciphertext under the whole key and nonce; it does not leave its vectors, and the
cipher is never keyed with anything but the whole key. -/
structure DecryptSound (w : OsslGcmWrapper) (nonce ciphertext : Bytes) : Prop where
  inside : decrypt O w (some nonce) ciphertext ≠ .error .outOfBounds
  keyed : ∀ ctx key, keying O w nonce "Failed to initialize decryption" = .ok ctx → ctx.key = some key → key = w.key
  opens : ∀ plaintext, decrypt O w (some nonce) ciphertext = .ok plaintext →
    w.key.length = 32 ∧ tagLength ≤ ciphertext.length ∧ O.opening w.key nonce ciphertext = some plaintext

def RoundTrips (w : OsslGcmWrapper) (nonce data : Bytes) : Prop :=
  ∃ ciphertext, encrypt O w (some nonce) data = .ok ciphertext ∧ decrypt O w (some nonce) ciphertext = .ok data

end

/-! ### The calls before the text -/

section

variable {O : OpenSsl} {w : OsslGcmWrapper} {nonce ciphertext : Bytes}

theorem evp_ok_iff {α : Type} {call : EvpCall} {allowed : Prop} [Decidable allowed] {what : String} {a b : α} :
    evp O call allowed what a = .ok b ↔ (allowed ∧ O.refuses call = false) ∧ a = b := by
  rw [evp]
  split_ifs with h
  · rw [and_iff_right h, Except.ok.injEq]
  · exact iff_of_false (fun h => by cases h) (fun hb => h hb.1)

theorem evp_refused {α : Type} {call : EvpCall} {allowed : Prop} [Decidable allowed] {what : String} {a : α}
    (h : ¬(allowed ∧ O.refuses call = false)) : evp O call allowed what a = .error (.osslError what) := if_neg h

/-- OpenSSL does not get as far as to set a key: a call before that is refused, or there is no pointer to a key. -/
def Unkeyed (O : OpenSsl) (w : OsslGcmWrapper) (nonce : Bytes) : Prop :=
  O.refuses .init = true ∨ toInt32 nonce.length ≤ 0 ∨ O.refuses .setIvLength = true ∨ w.allocated = false ∨
    (32 ≤ w.key.length ∧ O.refuses .initKey = true)

/-- What OpenSSL reads of a nonce whose size it is given as an `int`. -/
def passed (nonce : Bytes) : Bytes := nonce.take (toInt32 nonce.length).toNat

theorem keying_of_unkeyed (what : String) (h : Unkeyed O w nonce) :
    (∃ what', keying O w nonce what = .error (.osslError what')) ∨
      ∃ ctx, keying O w nonce what = .ok ctx ∧ ctx.key = none := by
  rw [keying, initCipher]
  by_cases hinit : O.refuses .init = true
  · exact .inl ⟨_, by rw [evp_refused (by simp [hinit])]; rfl⟩
  rw [evp_ok_iff.2 ⟨⟨trivial, Bool.eq_false_iff.2 hinit⟩, rfl⟩, ok_bind, setIvLength]
  by_cases hlength : 0 < toInt32 nonce.length ∧ O.refuses .setIvLength = false
  swap
  · exact .inl ⟨_, by rw [evp_refused hlength]; rfl⟩
  rw [evp_ok_iff.2 ⟨hlength, rfl⟩, ok_bind, initKey.eq_def, OsslGcmWrapper.keyData]
  cases hkey : w.allocated with
  | false =>
      rw [if_neg Bool.false_ne_true]
      by_cases hrefused : O.refuses .initKey = true
      · exact .inl ⟨_, evp_refused (by simp [hrefused])⟩
      · exact .inr ⟨_, evp_ok_iff.2 ⟨⟨trivial, Bool.eq_false_iff.2 hrefused⟩, rfl⟩, rfl⟩
  | true =>
      have hlong : 32 ≤ w.key.length ∧ O.refuses .initKey = true := by
        rcases h with h | h | h | h | h
        · exact absurd h hinit
        · exact absurd hlength.1 (by omega)
        · exact absurd (h.symm.trans hlength.2) (by decide)
        · exact absurd (h.symm.trans hkey) (by decide)
        · exact h
      rw [if_pos rfl]
      dsimp only
      rw [if_neg (by omega)]
      exact .inl ⟨_, evp_refused (by simp [hlong.2])⟩

theorem keying_of_keyed (what : String) (h : ¬ Unkeyed O w nonce) :
    keying O w nonce what =
      if w.key.length < 32 then .error .outOfBounds
      else .ok ⟨(toInt32 nonce.length).toNat, some (w.key.take 32), passed nonce, [], []⟩ := by
  simp only [Unkeyed, not_or, not_and, Bool.not_eq_true, Bool.not_eq_false, not_le] at h
  obtain ⟨hinit, hlength, hiv, hallocated, hkey⟩ := h
  rw [keying, initCipher, evp_ok_iff.2 ⟨⟨trivial, hinit⟩, rfl⟩, ok_bind, setIvLength,
    evp_ok_iff.2 ⟨⟨hlength, hiv⟩, rfl⟩, ok_bind, initKey.eq_def, OsslGcmWrapper.keyData, if_pos hallocated]
  dsimp only
  split_ifs with hshort
  · rfl
  · exact evp_ok_iff.2 ⟨⟨trivial, hkey (by omega)⟩, rfl⟩

/-! ### The text -/

/-- What OpenSSL reads of a ciphertext, as an `int`, before the tag. -/
def passedText (ciphertext : Bytes) : Bytes :=
  ciphertext.take (toInt32 ((ciphertext.length : ℤ) - tagLength)).toNat

/-- The ciphertext is not deciphered: the size of the plaintext, in a `size_t`, is above `max_size`, as it is for less
than a tag, or OpenSSL refuses a call. -/
def Refused (O : OpenSsl) (ciphertext : Bytes) : Prop :=
  2 ^ 63 ≤ toSize ((ciphertext.length : ℤ) - tagLength) ∨ toInt32 ((ciphertext.length : ℤ) - tagLength) < 0 ∨
    O.refuses .update = true ∨ O.refuses .setTag = true ∨ O.refuses .final = true

theorem Context.mac_keyed (n : ℕ) (key iv text tag : Bytes) :
    Context.mac O ⟨n, some key, iv, text, tag⟩ = O.mac key iv text := rfl

theorem toInt32_le_toSize {n : ℤ} (h : 0 ≤ toInt32 n) : (toInt32 n).toNat ≤ toSize n ∧ (toInt32 n).toNat < 2 ^ 31 := by
  rw [toInt32, Int.bmod] at *
  rw [toSize]
  split_ifs at * <;> omega

theorem thrown {x : Except Failure Bytes} {P : Bytes → Prop} {e : Failure} (hx : x = .error e) (he : e ≠ .outOfBounds)
    (hP : ∀ b, ¬ P b) : x ≠ .error .outOfBounds ∧ ∀ b, x = .ok b ↔ P b := by
  rw [hx]
  refine ⟨fun h => he (Except.error.inj h), fun b => iff_of_false (fun h => ?_) (hP b)⟩
  cases h

theorem not_refused_iff : ¬ Refused O ciphertext ↔
    ¬ 2 ^ 63 ≤ toSize ((ciphertext.length : ℤ) - tagLength) ∧
      (0 ≤ toInt32 ((ciphertext.length : ℤ) - tagLength) ∧ O.refuses .update = false) ∧ O.refuses .setTag = false ∧
      O.refuses .final = false := by
  simp only [Refused, not_or, Bool.not_eq_true, not_lt, and_assoc]

theorem tagLength_le (h : ¬ Refused O ciphertext) : tagLength ≤ ciphertext.length := by
  have hsize := (not_refused_iff.1 h).1
  rw [toSize, tagLength] at hsize
  rw [tagLength]
  omega

/-- `Decrypt` from the point on where the cipher is keyed. -/
theorem decrypt_of_keying {ctx : Context} {key : Bytes}
    (hctx : keying O w nonce "Failed to initialize decryption" = .ok ctx) (hkey : ctx.key = some key) :
    decrypt O w (some nonce) ciphertext ≠ .error .outOfBounds ∧ ∀ plaintext,
      decrypt O w (some nonce) ciphertext = .ok plaintext ↔
        ¬ Refused O ciphertext ∧
          O.mac key ctx.iv (passedText ciphertext) = ciphertext.drop (ciphertext.length - tagLength) ∧
          mask (O.keystream key ctx.iv) 0 (passedText ciphertext) = plaintext := by
  simp only [not_refused_iff, passedText]
  rw [decrypt, hctx, ok_bind]
  generalize (ciphertext.length : ℤ) - tagLength = n
  by_cases hsize : 2 ^ 63 ≤ toSize n
  · have hvector : newVector n = .error .lengthError := by
      rw [newVector, vectorOfSize, if_pos hsize]
      rfl
    rw [hvector]
    exact thrown rfl (by decide) fun _ h => h.1.1 hsize
  have hvector : newVector n = .ok (List.replicate (toSize n) 0) := by
    rw [newVector, vectorOfSize, if_neg hsize]
    rfl
  rw [hvector, ok_bind, update, hkey]
  dsimp only
  by_cases hupdate : 0 ≤ toInt32 n ∧ O.refuses .update = false
  swap
  · rw [evp_refused hupdate]
    exact thrown rfl (by decide) fun _ h => hupdate h.1.2.1
  have hroom : (mask (O.keystream key ctx.iv) 0 (ciphertext.take (toInt32 n).toNat)).length ≤ toSize n := by
    rw [length_mask, List.length_take]
    have hle := (toInt32_le_toSize hupdate.1).1
    omega
  rw [evp_ok_iff.2 ⟨hupdate, rfl⟩, ok_bind]
  dsimp only
  rw [overwrite_zeros hroom, orOutside, ok_bind, resize_filled le_rfl hroom, filled_length]
  by_cases htag : O.refuses .setTag = false
  swap
  · rw [evp_refused fun h => htag h.2]
    exact thrown rfl (by decide) fun _ h => htag h.1.2.2.1
  rw [evp_ok_iff.2 ⟨⟨trivial, htag⟩, rfl⟩, ok_bind, if_neg Bool.false_ne_true]
  rw [Context.mac_keyed]
  dsimp only
  by_cases hfinal : O.mac key ctx.iv (ciphertext.take (toInt32 n).toNat) =
      ciphertext.drop (ciphertext.length - tagLength) ∧ O.refuses .final = false
  · rw [evp_ok_iff.2 ⟨hfinal, rfl⟩, ok_bind]
    refine ⟨(fun h => by cases h), fun plaintext => ?_⟩
    rw [and_iff_right ⟨hsize, hupdate, htag, hfinal.2⟩, and_iff_right hfinal.1]
    exact ⟨Except.ok.inj, congrArg Except.ok⟩
  · rw [evp_refused hfinal]
    exact thrown rfl (by decide) fun _ h => hfinal ⟨h.2.1, h.1.2.2.2⟩

theorem update_of_no_key {ctx : Context} (hkey : ctx.key = none) (enc : Bool) (input : Bytes) (inl : ℤ) (what : String) :
    update O ctx enc input inl what = .error (.osslError what) := by
  rw [update, hkey]

/-- Without a key, no text is deciphered. -/
theorem decrypt_of_no_key {ctx : Context} (hctx : keying O w nonce "Failed to initialize decryption" = .ok ctx)
    (hkey : ctx.key = none) :
    ∃ e, decrypt O w (some nonce) ciphertext = .error e ∧ e ≠ .outOfBounds := by
  rw [decrypt, hctx, ok_bind, update_of_no_key hkey, newVector, vectorOfSize]
  by_cases hsize : 2 ^ 63 ≤ toSize ((ciphertext.length : ℤ) - tagLength)
  · rw [if_pos hsize]
    exact ⟨.lengthError, rfl, by decide⟩
  · rw [if_neg hsize]
    exact ⟨.osslError "Failed to decrypt", rfl, by decide⟩

theorem opening_passed {key iv : Bytes} (h : ¬ Refused O ciphertext) (plaintext : Bytes) :
    O.opening key iv (passedText ciphertext ++ ciphertext.drop (ciphertext.length - tagLength)) = some plaintext ↔
      O.mac key iv (passedText ciphertext) = ciphertext.drop (ciphertext.length - tagLength) ∧
        mask (O.keystream key iv) 0 (passedText ciphertext) = plaintext := by
  have hlong := tagLength_le h
  have hlength : (passedText ciphertext ++ ciphertext.drop (ciphertext.length - tagLength)).length - tagLength =
      (passedText ciphertext).length := by
    rw [List.length_append, List.length_drop]
    omega
  rw [OpenSsl.opening, hlength, List.take_left, List.drop_left]
  split_ifs with hmac
  · rw [and_iff_right hmac, Option.some.injEq]
  · exact iff_of_false (fun h => by cases h) (fun h => hmac h.1)

/-- Where the cipher is not keyed, `Decrypt` throws. -/
theorem decryptSound_of_unkeyed (hunkeyed : Unkeyed O w nonce) : DecryptSound O w nonce ciphertext := by
  rcases keying_of_unkeyed "Failed to initialize decryption" hunkeyed with ⟨what, hkeying⟩ | ⟨ctx, hkeying, hnone⟩
  · have hrun : decrypt O w (some nonce) ciphertext = .error (.osslError what) := by
      rw [decrypt, hkeying]
      rfl
    refine ⟨fun h => ?_, fun ctx key h => ?_, fun plaintext h => ?_⟩
    · cases hrun.symm.trans h
    · cases hkeying.symm.trans h
    · cases hrun.symm.trans h
  · obtain ⟨e, hrun, hne⟩ := @decrypt_of_no_key O w nonce ciphertext ctx hkeying hnone
    refine ⟨fun h => hne (Except.error.inj (hrun.symm.trans h)), fun ctx' key h hkey => ?_, fun plaintext h => ?_⟩
    · obtain rfl := Except.ok.inj (hkeying.symm.trans h)
      cases hnone.symm.trans hkey
    · cases hrun.symm.trans h

/-- **`Decrypt` for vectors of any length.** It does what it should when OpenSSL is not keyed at all, or is keyed with a
vector of 32 bytes and what it reads of the nonce and the ciphertext, whose sizes it is given as `int`, opens only to
what the whole of them opens to. -/
theorem decryptSound_iff (O : OpenSsl) (w : OsslGcmWrapper) (nonce ciphertext : Bytes) :
    DecryptSound O w nonce ciphertext ↔
      Unkeyed O w nonce ∨
        (w.key.length = 32 ∧ (Refused O ciphertext ∨ ∀ plaintext,
          O.opening w.key (passed nonce) (passedText ciphertext ++ ciphertext.drop (ciphertext.length - tagLength)) =
            some plaintext → O.opening w.key nonce ciphertext = some plaintext)) := by
  by_cases hunkeyed : Unkeyed O w nonce
  · exact iff_of_true (decryptSound_of_unkeyed hunkeyed) (.inl hunkeyed)
  · rw [or_iff_right hunkeyed]
    have hkeying := keying_of_keyed "Failed to initialize decryption" hunkeyed
    by_cases hshort : w.key.length < 32
    · rw [if_pos hshort] at hkeying
      refine iff_of_false (fun h => h.inside ?_) (fun h => by omega)
      rw [decrypt, hkeying]
      rfl
    · rw [if_neg hshort] at hkeying
      obtain ⟨hinside, hopens⟩ := @decrypt_of_keying O w nonce ciphertext _ _ hkeying rfl
      dsimp only at hopens
      constructor
      · intro h
        have hkey := congrArg List.length (h.keyed _ _ hkeying rfl)
        have hlength : w.key.length = 32 := by
          rw [List.length_take] at hkey
          omega
        rw [List.take_of_length_le hlength.le] at hopens
        refine ⟨hlength, or_iff_not_imp_left.2 fun hrefused plaintext hpassed => ?_⟩
        have hrun := (hopens plaintext).2 ⟨hrefused, (opening_passed hrefused plaintext).1 hpassed⟩
        exact (h.opens plaintext hrun).2.2
      · intro ⟨hlength, hcond⟩
        have htake := List.take_of_length_le hlength.le
        rw [htake] at hopens hkeying
        refine ⟨hinside, fun ctx key hctx hkey => ?_, fun plaintext hrun => ?_⟩
        · obtain rfl := Except.ok.inj (hkeying.symm.trans hctx)
          exact (Option.some.inj hkey).symm
        · obtain ⟨hrefused, hpassed⟩ := (hopens plaintext).1 hrun
          exact ⟨hlength, tagLength_le hrefused,
            hcond.resolve_left hrefused _ ((opening_passed hrefused plaintext).2 hpassed)⟩

/-- With a key of 32 bytes, nothing goes wrong for a nonce and a ciphertext whose sizes are `int`s. -/
theorem decryptSound_of_lengths (O : OpenSsl) {w : OsslGcmWrapper} (hkey : w.key.length = 32)
    (hnonce : nonce.length < 2 ^ 31) (hciphertext : ciphertext.length < 2 ^ 31) : DecryptSound O w nonce ciphertext := by
  refine (decryptSound_iff O w nonce ciphertext).2 (.inr ⟨hkey, or_iff_not_imp_left.2 fun hrefused => ?_⟩)
  have hpassed : passed nonce = nonce := by
    rw [passed, toInt32_of_lt hnonce, Int.toNat_natCast, List.take_length]
  have hlong := tagLength_le hrefused
  have hint : toInt32 ((ciphertext.length : ℤ) - tagLength) = (ciphertext.length - tagLength : ℕ) := by
    rw [← Nat.cast_sub hlong, toInt32_of_lt (by omega)]
  rw [hpassed, passedText, hint, Int.toNat_natCast, List.take_append_drop]
  exact fun _ h => h

/-! ### The model of well-formed keys -/

/-- OpenSSL as AES-GCM of keys and nonces of the right sizes. -/
def OpenSsl.gcm (O : OpenSsl) : AesGcm where
  keystream key nonce := O.keystream key.bytes nonce.bytes
  mac key nonce := O.mac key.bytes nonce.bytes
  length_mac key nonce := O.length_mac key.bytes nonce.bytes

/-- The exceptions of the calls that can fail there. -/
def Failure.ofGcm : GcmError → Failure
  | .vectorTooLong => .lengthError
  | .evp => .osslError "Failed to decrypt"
  | .authTagMismatch => .osslError "Failed to finalize decryption (tag mismatch?)"
  | _ => .outOfBounds

/-- A key of 32 bytes and a nonce of 12 are read whole. -/
theorem keying_gcm (hcalls : ∀ call, O.refuses call = false) (key : AesKey) (nonce : Nonce) (what : String) :
    keying O (OsslGcmWrapper.create.setKey key.bytes) nonce.bytes what =
      .ok ⟨12, some key.bytes, nonce.bytes, [], []⟩ := by
  have hallocated : (OsslGcmWrapper.create.setKey key.bytes).allocated = true := by
    refine OsslGcmWrapper.memory _ fun hnil => ?_
    have hsize := key.size
    rw [show key.bytes = [] from hnil] at hsize
    cases hsize
  have hnonce : toInt32 nonce.bytes.length = 12 := by
    rw [nonce.size]
    rfl
  have hkeyed : ¬ Unkeyed O (OsslGcmWrapper.create.setKey key.bytes) nonce.bytes := by
    simp [Unkeyed, hcalls, hallocated, hnonce]
  have hkey : (OsslGcmWrapper.create.setKey key.bytes).key = key.bytes := rfl
  have hpassed : passed nonce.bytes = nonce.bytes := by
    rw [passed, hnonce]
    exact List.take_of_length_le nonce.size.le
  rw [keying_of_keyed what hkeyed, hkey, if_neg (by rw [key.size]; decide), List.take_of_length_le key.size.le, hpassed,
    hnonce]
  rfl

/-- On a key of 32 bytes and a nonce of 12, the wrapper computes what the model of well-formed messages does. -/
theorem decrypt_gcm (O : OpenSsl) (hcalls : ∀ call, O.refuses call = false) (key : AesKey) (nonce : Nonce)
    (ciphertext : Bytes) :
    decrypt O (OsslGcmWrapper.create.setKey key.bytes) (some nonce.bytes) ciphertext =
      (osslDecrypt O.gcm key nonce ciphertext).mapError Failure.ofGcm := by
  have hkeying := keying_gcm hcalls key nonce "Failed to initialize decryption"
  rw [decrypt, hkeying, ok_bind, osslDecrypt, newVector]
  generalize (ciphertext.length : ℤ) - tagLength = n
  rw [vectorOfSize]
  split_ifs with hsize
  · rfl
  dsimp only [Except.mapError]
  rw [ok_bind, ok_bind, update]
  dsimp only
  by_cases hneg : toInt32 n < 0
  · have hupdate : evpUpdate O.gcm key nonce ciphertext (toInt32 n) = .error .evp := if_pos hneg
    rw [hupdate, evp_refused fun h => absurd h.1 (by omega)]
    rfl
  have hupdate : evpUpdate O.gcm key nonce ciphertext (toInt32 n) =
      .ok (mask (O.keystream key.bytes nonce.bytes) 0 (ciphertext.take (toInt32 n).toNat)) := if_neg hneg
  have hle := (toInt32_le_toSize (not_lt.1 hneg)).1
  have hroom : (mask (O.keystream key.bytes nonce.bytes) 0 (ciphertext.take (toInt32 n).toNat)).length ≤ toSize n := by
    rw [length_mask, List.length_take]
    omega
  rw [hupdate, evp_ok_iff.2 ⟨⟨not_lt.1 hneg, hcalls _⟩, rfl⟩, ok_bind, ok_bind]
  dsimp only
  rw [overwrite_zeros hroom, orOutside, orFault, ok_bind, ok_bind, evp_ok_iff.2 ⟨⟨trivial, hcalls _⟩, rfl⟩, ok_bind,
    if_neg Bool.false_ne_true, Context.mac_keyed]
  dsimp only
  have hgcm : O.gcm.mac key nonce = O.mac key.bytes nonce.bytes := rfl
  by_cases hmac : O.mac key.bytes nonce.bytes (ciphertext.take (toInt32 n).toNat) =
      ciphertext.drop (ciphertext.length - tagLength)
  · rw [evp_ok_iff.2 ⟨⟨hmac, hcalls _⟩, rfl⟩, if_neg (not_ne_iff.2 (by rw [hgcm, hmac]))]
    rfl
  · rw [evp_refused fun h => hmac h.1, if_pos (by rwa [hgcm])]
    rfl

/-! ### Encrypting and decrypting again -/

/-- `Encrypt` from the point on where the cipher is keyed, for a length that an `int` holds. -/
theorem encrypt_of_keying {ctx : Context} {key data : Bytes}
    (hctx : keying O w nonce "Failed to initialize encryption" = .ok ctx) (hkey : ctx.key = some key)
    (hlen : data.length < 2 ^ 31) (hupdate : O.refuses .update = false) (hfinal : O.refuses .final = false)
    (sealed : Bytes) :
    encrypt O w (some nonce) data = .ok sealed ↔
      O.refuses .getTag = false ∧
        mask (O.keystream key ctx.iv) 0 data ++ O.mac key ctx.iv (mask (O.keystream key ctx.iv) 0 data) = sealed := by
  have hvector : newVector ((data.length : ℤ) + evpMaxBlockLength) = .ok (List.replicate (data.length + 32) 0) := by
    have hsize : ((data.length : ℤ) + evpMaxBlockLength) = (data.length + 32 : ℕ) := rfl
    rw [hsize, newVector, vectorOfSize_of_lt (by omega)]
    rfl
  have hint : toInt32 data.length = data.length := toInt32_of_lt hlen
  have hroom : (mask (O.keystream key ctx.iv) 0 data).length ≤ data.length + 32 := by
    rw [length_mask]
    omega
  rw [encrypt, hctx, ok_bind, hvector, ok_bind, update, hkey, hint]
  dsimp only
  rw [evp_ok_iff.2 ⟨⟨Int.natCast_nonneg _, hupdate⟩, rfl⟩, ok_bind, Int.toNat_natCast, List.take_length, if_pos rfl]
  dsimp only
  rw [overwrite_zeros hroom, orOutside, ok_bind, resize_filled le_rfl hroom, filled_length,
    evp_ok_iff.2 ⟨⟨trivial, hfinal⟩, rfl⟩, ok_bind, Context.mac_keyed]
  by_cases htag : O.refuses .getTag = false
  · rw [evp_ok_iff.2 ⟨⟨trivial, htag⟩, rfl⟩, ok_bind, and_iff_right htag]
    exact ⟨Except.ok.inj, congrArg Except.ok⟩
  · rw [evp_refused fun h => htag h.2]
    exact iff_of_false (fun h => by cases h) (fun h => htag h.1)

theorem not_unkeyed_iff (hlong : 32 ≤ w.key.length) : ¬ Unkeyed O w nonce ↔
    O.refuses .init = false ∧ 0 < toInt32 nonce.length ∧ O.refuses .setIvLength = false ∧
      O.refuses .initKey = false := by
  have hallocated : w.allocated = true := by
    refine w.memory fun hnil => ?_
    rw [hnil, List.length_nil] at hlong
    omega
  simp [Unkeyed, hallocated, hlong]

/-- A text that `Decrypt` returns was deciphered, with a key of at least 32 bytes. -/
theorem keyed_of_decrypt {data : Bytes} (h : decrypt O w (some nonce) ciphertext = .ok data) :
    32 ≤ w.key.length ∧ ¬ Unkeyed O w nonce ∧ ¬ Refused O ciphertext ∧ data.length < 2 ^ 31 := by
  have hkeyed : ¬ Unkeyed O w nonce := by
    intro hunkeyed
    rcases keying_of_unkeyed "Failed to initialize decryption" hunkeyed with ⟨what, hkeying⟩ | ⟨ctx, hkeying, hnone⟩
    · rw [decrypt, hkeying] at h
      cases h
    · obtain ⟨e, hrun, -⟩ := @decrypt_of_no_key O w nonce ciphertext ctx hkeying hnone
      cases hrun.symm.trans h
  have hkeying := keying_of_keyed "Failed to initialize decryption" hkeyed
  by_cases hshort : w.key.length < 32
  · rw [decrypt, hkeying, if_pos hshort] at h
    cases h
  · rw [if_neg hshort] at hkeying
    obtain ⟨hrefused, -, rfl⟩ := ((@decrypt_of_keying O w nonce ciphertext _ _ hkeying rfl).2 data).1 h
    have hint := (toInt32_le_toSize (not_refused_iff.1 hrefused).2.1.1).2
    refine ⟨by omega, hkeyed, hrefused, ?_⟩
    rw [length_mask, passedText, List.length_take]
    omega

theorem passedText_sealed {text tag : Bytes} (htag : tag.length = tagLength) (hlen : text.length < 2 ^ 31) :
    passedText (text ++ tag) = text ∧ (text ++ tag).drop ((text ++ tag).length - tagLength) = tag := by
  have hlength : (text ++ tag).length = text.length + tagLength := by rw [List.length_append, htag]
  have hint : toInt32 (((text ++ tag).length : ℤ) - tagLength) = text.length := by
    rw [hlength, Nat.cast_add, add_sub_cancel_right, toInt32_of_lt hlen]
  rw [passedText, hint, Int.toNat_natCast, List.take_left, hlength, Nat.add_sub_cancel, List.drop_left]
  exact ⟨rfl, rfl⟩

/-- Decrypting gives back what was encrypted when OpenSSL refuses nothing of its own and is given a key of at least 32
bytes, a nonce that is not empty and a text, the empty one included, whose length is an `int`. -/
theorem roundTrips_iff (O : OpenSsl) (w : OsslGcmWrapper) (nonce data : Bytes) :
    RoundTrips O w nonce data ↔
      (∀ call, O.refuses call = false) ∧ 32 ≤ w.key.length ∧ 0 < toInt32 nonce.length ∧ data.length < 2 ^ 31 := by
  constructor
  · intro ⟨sealed, hencrypt, hdecrypt⟩
    obtain ⟨hlong, hkeyed, hrefused, hlen⟩ := keyed_of_decrypt hdecrypt
    obtain ⟨-, ⟨-, hupdate⟩, hsetTag, hfinal⟩ := not_refused_iff.1 hrefused
    have hkeying := keying_of_keyed "Failed to initialize encryption" hkeyed
    rw [if_neg (by omega)] at hkeying
    have hgetTag := ((encrypt_of_keying hkeying rfl hlen hupdate hfinal sealed).1 hencrypt).1
    obtain ⟨hinit, hnonce, hsetIv, hinitKey⟩ := (not_unkeyed_iff hlong).1 hkeyed
    refine ⟨fun call => ?_, hlong, hnonce, hlen⟩
    cases call <;> assumption
  · intro ⟨hcalls, hlong, hnonce, hlen⟩
    have hkeyed := (not_unkeyed_iff hlong).2 ⟨hcalls .init, hnonce, hcalls .setIvLength, hcalls .initKey⟩
    have hencrypt := keying_of_keyed "Failed to initialize encryption" hkeyed
    have hdecrypt := keying_of_keyed "Failed to initialize decryption" hkeyed
    rw [if_neg (by omega)] at hencrypt hdecrypt
    have hsealed := encrypt_of_keying hencrypt rfl hlen (hcalls .update) (hcalls .final)
    dsimp only at hsealed
    generalize htext : mask (O.keystream (w.key.take 32) (passed nonce)) 0 data = text at hsealed
    have hlength : text.length < 2 ^ 31 := by rwa [← htext, length_mask]
    refine ⟨_, (hsealed _).2 ⟨hcalls .getTag, rfl⟩, ?_⟩
    refine ((decrypt_of_keying hdecrypt rfl).2 data).2 ?_
    dsimp only
    obtain ⟨hpassed, hdrop⟩ := passedText_sealed (O.length_mac (w.key.take 32) (passed nonce) text) hlength
    rw [hpassed, hdrop]
    refine ⟨?_, rfl, ?_⟩
    · rw [not_refused_iff, List.length_append, O.length_mac, Nat.cast_add, add_sub_cancel_right, toInt32_of_lt hlength]
      refine ⟨?_, ⟨Int.natCast_nonneg _, hcalls .update⟩, hcalls .setTag, hcalls .final⟩
      rw [toSize]
      omega
    · rw [← htext, mask_mask]

end

/-- **`OsslGcmWrapper` for keys, nonces and texts of any lengths.** -/
theorem osslGcm_iff (O : OpenSsl) (w : OsslGcmWrapper) (nonce : Bytes) :
    (∀ ciphertext, DecryptSound O w nonce ciphertext ↔
      Unkeyed O w nonce ∨
        (w.key.length = 32 ∧ (Refused O ciphertext ∨ ∀ plaintext,
          O.opening w.key (passed nonce) (passedText ciphertext ++ ciphertext.drop (ciphertext.length - tagLength)) =
            some plaintext → O.opening w.key nonce ciphertext = some plaintext))) ∧
    ∀ data, RoundTrips O w nonce data ↔
      (∀ call, O.refuses call = false) ∧ 32 ≤ w.key.length ∧ 0 < toInt32 nonce.length ∧ data.length < 2 ^ 31 :=
  ⟨decryptSound_iff O w nonce, roundTrips_iff O w nonce⟩

/-- A cipher whose keystream and tag are zeros. -/
def plainOpenSsl : OpenSsl where
  keystream _ _ _ := 0
  mac _ _ _ := List.replicate tagLength 0
  length_mac _ _ _ := List.length_replicate
  refuses _ := false

/-- From a key of 16 bytes, 32 are read; and of a key of 33 bytes, one is ignored and the empty text comes back. -/
theorem osslGcm_key_length :
    (decrypt plainOpenSsl (OsslGcmWrapper.create.setKey (List.replicate 16 7)) (some [1]) (List.replicate 16 0) =
        .error .outOfBounds ∧
      ¬ DecryptSound plainOpenSsl (OsslGcmWrapper.create.setKey (List.replicate 16 7)) [1] (List.replicate 16 0)) ∧
    decrypt plainOpenSsl (OsslGcmWrapper.create.setKey (List.replicate 33 7)) (some [1]) (List.replicate 16 0) = .ok [] ∧
      ¬ DecryptSound plainOpenSsl (OsslGcmWrapper.create.setKey (List.replicate 33 7)) [1] (List.replicate 16 0) := by
  have hshort : decrypt plainOpenSsl (OsslGcmWrapper.create.setKey (List.replicate 16 7)) (some [1])
      (List.replicate 16 0) = .error .outOfBounds := rfl
  have hlong : decrypt plainOpenSsl (OsslGcmWrapper.create.setKey (List.replicate 33 7)) (some [1])
      (List.replicate 16 0) = .ok [] := by decide +kernel
  refine ⟨⟨hshort, fun h => h.inside hshort⟩, hlong, fun h => ?_⟩
  have hlength := (h.opens [] hlong).1
  cases hlength

end CvmAttestation.Secrets.Ossl
