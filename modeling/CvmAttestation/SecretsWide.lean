import CvmAttestation.SecretsRelease
import Mathlib.Tactic

/-! The wide entry point against the narrow one. On a sequence of Unicode scalar values the two
evaluators are the same object, so the two runs part only in the data they copy or convert. -/

namespace CvmAttestation.Secrets

open Base

/-- The UTF-8 form of a sequence of Unicode scalar values. -/
def utf8Of (w : List Char) : Bytes := w.flatMap String.utf8EncodeChar

def wideOf (w : List Char) : List WChar := w.map Char.val

section

variable {P : Providers} {policy : Word}

theorem wideToUtf8_wideOf (w : List Char) : wideToUtf8 .ample (wideOf w) = utf8Of w := by
  cases w with
  | nil => rfl
  | cons c w =>
      have h := Utf8.encode_chars (c :: w)
      rw [wideToUtf8, wideOf, h]
      rfl

theorem length_le_utf8Of (w : List Char) : w.length ≤ (utf8Of w).length := by
  have h := Utf8.length_le_encode (Utf8.encode_chars w)
  rwa [List.length_map] at h

/-- The two constructors agree, also in what they raise. -/
theorem ofWide_eq_ofNarrow (w : List Char) (hlen : (utf8Of w).length < 2 ^ 32) :
    PolicyEvaluator.ofWide P .ample policy (wideOf w) = PolicyEvaluator.ofNarrow P .ample policy (utf8Of w) := by
  have hshort : ¬((utf8Of w).isEmpty && !(wideOf w).isEmpty) = true := by
    have h := length_le_utf8Of w
    cases w with
    | nil => simp [wideOf]
    | cons c w =>
        cases hu : utf8Of (c :: w) with
        | nil =>
            rw [hu] at h
            simp at h
        | cons b u => simp
  have htake : (utf8Of w).take ((utf8Of w).length % 2 ^ 32) = utf8Of w := by
    rw [Nat.mod_eq_of_lt hlen, List.take_length]
  simp only [PolicyEvaluator.ofWide, PolicyEvaluator.ofNarrow, wideToUtf8_wideOf, if_neg hshort, htake]
  rfl

/-- A secret whose wide form is empty is a single sequence that the end of the secret cuts short. -/
theorem utf8ToWide_eq_nil {secret : Bytes} (hne : secret ≠ []) (h : utf8ToWide .ample secret = .ok []) :
    Utf8.decode secret = ⟨[], secret, .incomplete⟩ := by
  rcases utf8ToWide_returns hne h with ⟨hw, -⟩ | ⟨hw, -, hst⟩
  · have hlen := length_widen secret
    rw [← hw] at hlen
    exact absurd (List.eq_nil_of_length_eq_zero hlen.symm) hne
  · obtain ⟨⟨p, hp, hs⟩, hc⟩ := Utf8.decode_splits secret
    generalize Utf8.decode secret = d at *
    obtain ⟨codes, rest, st⟩ := d
    subst hw
    cases hp
    rw [List.nil_append] at hs
    subst hs
    cases st with
    | complete => exact absurd (hc.1 rfl) hne
    | incomplete => rfl
    | invalid => exact absurd rfl hst

/-- What the two entry points have in common on the same text `w`: they evaluate the payload alike, and
both fail with one code, or both copy the input, or both hand out the secret of the token, the wide one in
its wide form. -/
inductive SameOutcome (w : List Char) : Except Exc Int × Outputs UInt8 → Except Exc Int × Outputs WChar → Prop
  | failed (c : FailureCode) (evalPolicy : Option Word) :
    SameOutcome w (.ok c.val.toInt, ⟨none, evalPolicy⟩) (.ok c.val.toInt, ⟨none, evalPolicy⟩)
  | legacy : SameOutcome w
      (.ok ((utf8Of w).length : Int), ⟨handedOut (utf8Of w), some PayloadFeature.legacy⟩)
      (.ok (w.length : Int), ⟨handedOut (wideOf w), some PayloadFeature.legacy⟩)
  | token {secret : Bytes} {wide : List WChar} {evalPolicy : Word}
    (hev : isPolicySet evalPolicy PayloadFeature.legacy = false) (hs : secret ≠ []) (hne : wide ≠ [])
    (hw : utf8ToWide .ample secret = .ok wide) :
    SameOutcome w (.ok (secret.length : Int), ⟨some secret, some evalPolicy⟩)
      (.ok (wide.length : Int), ⟨some wide, some evalPolicy⟩)

/-- The one way in which the entry points part: the secret is a single sequence that its end cuts short,
the narrow one hands it out, and the wide one reports that it has no wide form. -/
inductive NoWideForm : Except Exc Int × Outputs UInt8 → Except Exc Int × Outputs WChar → Prop
  | intro {secret : Bytes} {evalPolicy : Word} (hev : isPolicySet evalPolicy PayloadFeature.legacy = false)
    (hs : secret ≠ []) (hcut : Utf8.decode secret = ⟨[], secret, .incomplete⟩) :
    NoWideForm (.ok (secret.length : Int), ⟨some secret, some evalPolicy⟩)
      (.ok ErrorCode.parsingErrorJwtInvalidFieldError.toInt, ⟨none, some evalPolicy⟩)

theorem utf8ToWide_ample (secret : Bytes) : ∃ wide, utf8ToWide .ample secret = .ok wide := by
  rw [utf8ToWide]
  split_ifs
  · exact ⟨_, rfl⟩
  · exact ⟨_, rfl⟩
  · exact ⟨_, rfl⟩

theorem not_ample_outputBuffer (b : Bool) : ¬(b && Memory.ample .outputBuffer) = true := by
  rw [Memory.ample, Bool.and_false]
  exact Bool.false_ne_true

/-- With ample memory a secret is converted, unless nothing of it has a wide form. -/
theorem convertWide_ample {secret : Bytes} {wide : List WChar} (hne : secret ≠ [])
    (hw : utf8ToWide .ample secret = .ok wide) :
    convertWide .ample secret =
      if wide = [] then .ok (.error ⟨.parsingErrorJwtInvalidFieldError, by decide⟩) else .ok (.ok wide) := by
  have hempty : (!secret.isEmpty) = true := by simpa using hne
  rw [convertWide, hw]
  by_cases hwide : wide = []
  · rw [if_pos hwide, hwide]
    exact if_pos (by rw [hempty]; rfl)
  · rw [if_neg hwide]
    exact if_neg (by simp [hwide])

/-- The two runs once a legacy payload has been evaluated. -/
theorem sameOutcome_legacy (w : List Char) :
    let pe := PolicyEvaluator.ofLegacy policy
    let narrow := finish P .ample pe (utf8Of w) fun s => .ok (.ok s)
    let wide := finish P .ample pe (wideOf w) (convertWide .ample)
    SameOutcome w (.ok narrow.1, ⟨narrow.2, some PayloadFeature.legacy⟩)
      (.ok wide.1, ⟨wide.2, some PayloadFeature.legacy⟩) := by
  have hlen : (wideOf w).length = w.length := List.length_map _
  simp only [finish, PolicyEvaluator.isCompliant_ofLegacy]
  cases isPolicySet policy PolicyOption.allowLegacy with
  | false => exact .failed ⟨.policyMismatchError, by decide⟩ _
  | true =>
      have hgather : ∀ {τ : Type} (input : List τ) (convert : Bytes → Except Exc (Except FailureCode (List τ))),
          gatherData P .ample (PolicyEvaluator.ofLegacy policy) input convert = .ok (.ok input) :=
        fun _ _ => rfl
      simp only [hgather, if_neg (not_ample_outputBuffer _), hlen]
      exact .legacy

theorem sameOutcome_token (w : List Char) (t : JsonWebToken) {evalPolicy : Word}
    (hev : isPolicySet evalPolicy PayloadFeature.legacy = false) :
    let pe := PolicyEvaluator.ofToken policy t
    let narrow := finish P .ample pe (utf8Of w) fun s => .ok (.ok s)
    let wide := finish P .ample pe (wideOf w) (convertWide .ample)
    SameOutcome w (.ok narrow.1, ⟨narrow.2, some evalPolicy⟩) (.ok wide.1, ⟨wide.2, some evalPolicy⟩) ∨
      NoWideForm (.ok narrow.1, ⟨narrow.2, some evalPolicy⟩) (.ok wide.1, ⟨wide.2, some evalPolicy⟩) := by
  simp only [finish]
  rcases (PolicyEvaluator.ofToken policy t).isCompliant .ample with e | _ | _
  · exact .inl (.failed (unprotectError e) _)
  · exact .inl (.failed ⟨.policyMismatchError, by decide⟩ _)
  have hl : (PolicyEvaluator.ofToken policy t).isLegacy = false := rfl
  simp only [gatherData_token hl]
  cases hd : decryptToken P .ample (PolicyEvaluator.ofToken policy t) with
  | error e => exact .inl (.failed (unprotectError e) _)
  | ok out =>
      obtain ⟨result, secret⟩ := out
      obtain ⟨claims, -, hdec⟩ := decryptToken_returns hd
      cases hdec with
      | failed c =>
          simp only [if_pos (ErrorCode.toInt_neg c.property).ne]
          exact .inl (.failed c _)
      | plaintext hne henc =>
          obtain ⟨wide, hw⟩ := utf8ToWide_ample secret
          have hconv := convertWide_ample hne hw
          by_cases hwide : wide = []
          · rw [if_pos hwide] at hconv
            simp only [ne_eq, not_true_eq_false, if_false, hconv, if_neg (not_ample_outputBuffer _),
              handedOut_of_ne_nil hne]
            rw [hwide] at hw
            exact .inr (.intro hev hne (utf8ToWide_eq_nil hne hw))
          · rw [if_neg hwide] at hconv
            simp only [ne_eq, not_true_eq_false, if_false, hconv, if_neg (not_ample_outputBuffer _),
              handedOut_of_ne_nil hne, handedOut_of_ne_nil hwide]
            exact .inl (.token hev hne hwide hw)

end

/-- **The wide entry point follows the narrow one.** Both build the same evaluator from the same text, and
the two runs agree unless the decrypted secret has no wide form. -/
theorem unprotectSecretWide_agrees (P : Providers) (policy : Word) (w : List Char)
    (hlen : (utf8Of w).length < 2 ^ 32) (narrowPointer : Option Bytes) (widePointer : Option (List WChar))
    (evalPolicy : Option Word) :
    PolicyEvaluator.ofWide P .ample policy (wideOf w) = PolicyEvaluator.ofNarrow P .ample policy (utf8Of w) ∧
      (SameOutcome w ((unprotectSecret P .ample (utf8Of w) policy).exec ⟨narrowPointer, evalPolicy⟩)
          ((unprotectSecretWide P .ample (wideOf w) policy).exec ⟨widePointer, evalPolicy⟩) ∨
        NoWideForm ((unprotectSecret P .ample (utf8Of w) policy).exec ⟨narrowPointer, evalPolicy⟩)
          ((unprotectSecretWide P .ample (wideOf w) policy).exec ⟨widePointer, evalPolicy⟩)) := by
  refine ⟨ofWide_eq_ofNarrow w hlen, ?_⟩
  rw [unprotectSecret, unprotectSecretWide, ofWide_eq_ofNarrow w hlen, exec_unprotectWith, exec_unprotectWith]
  cases hpe : PolicyEvaluator.ofNarrow P .ample policy (utf8Of w) with
  | error e => exact .inl (.failed (unprotectError e) evalPolicy)
  | ok pe =>
      rcases PolicyEvaluator.ofNarrow_returns hpe with ⟨-, rfl⟩ | ⟨-, t, -, rfl⟩
      · simp only [PolicyEvaluator.getEvaluatedPolicy_ofLegacy]
        exact .inl (sameOutcome_legacy w)
      · cases hev : (PolicyEvaluator.ofToken policy t).getEvaluatedPolicy .ample 0 with
        | error e =>
            simp only [hev]
            exact .inl (.failed (unprotectError e) evalPolicy)
        | ok evaluated =>
            have hlegacy : isPolicySet evaluated PayloadFeature.legacy = false := by
              rw [PolicyEvaluator.getEvaluatedPolicy_ofToken hev]
              exact PolicyEvaluator.isPolicySet_legacy _ _ _
            simp only [hev]
            exact sameOutcome_token w t hlegacy

theorem SameOutcome.succeeds {w : List Char} {narrow : Except Exc Int × Outputs UInt8}
    {wide : Except Exc Int × Outputs WChar} (h : SameOutcome w narrow wide) {r r' : Int} (hn : narrow.1 = .ok r)
    (hw : wide.1 = .ok r') (hr : 0 ≤ r) : 0 ≤ r' := by
  cases h with
  | failed c =>
      injection hn with hn
      injection hw with hw
      omega
  | legacy =>
      injection hw with hw
      omega
  | token hev hs hne hconv =>
      injection hw with hw
      omega

theorem NoWideForm.outputSecret {narrow : Except Exc Int × Outputs UInt8} {wide : Except Exc Int × Outputs WChar}
    (h : NoWideForm narrow wide) : wide.2.outputSecret = none := by
  cases h
  rfl

namespace Sample

def tokenChars : List Char := token.map fun b => Char.ofNat b.toNat

end Sample

/-- A token whose secret is the single byte `C3`: the narrow call hands it out, the wide call fails. -/
theorem unprotectSecretWide_not_sameOutcome :
    (utf8Of Sample.tokenChars).length < 2 ^ 32 ∧
      ¬SameOutcome Sample.tokenChars
        ((unprotectSecret (Sample.providers [0xC3]) .ample (utf8Of Sample.tokenChars) PolicyOption.allowUnsigned).exec
          ⟨none, none⟩)
        ((unprotectSecretWide (Sample.providers [0xC3]) .ample (wideOf Sample.tokenChars)
          PolicyOption.allowUnsigned).exec ⟨none, none⟩) := by
  have hn : ((unprotectSecret (Sample.providers [0xC3]) .ample (utf8Of Sample.tokenChars)
      PolicyOption.allowUnsigned).exec ⟨none, none⟩).1 = .ok 1 := by decide +kernel
  have hw : ((unprotectSecretWide (Sample.providers [0xC3]) .ample (wideOf Sample.tokenChars)
      PolicyOption.allowUnsigned).exec ⟨none, none⟩).1 =
        .ok ErrorCode.parsingErrorJwtInvalidFieldError.toInt := by decide +kernel
  exact ⟨by decide +kernel, fun h => absurd (h.succeeds hn hw (by decide)) (by decide)⟩

/-- The two calls on the sample token with a secret of two bytes. -/
theorem unprotectSecretWide_agrees_sample :
    (utf8Of Sample.tokenChars).length < 2 ^ 32 ∧
      SameOutcome Sample.tokenChars (.ok 2, ⟨some [0xC3, 0xA9], some PayloadFeature.encrypted⟩)
        (.ok 1, ⟨some [0xE9], some PayloadFeature.encrypted⟩) := by
  have hlen : (utf8Of Sample.tokenChars).length < 2 ^ 32 := by decide +kernel
  have hn : (unprotectSecret (Sample.providers [0xC3, 0xA9]) .ample (utf8Of Sample.tokenChars)
      PolicyOption.allowUnsigned).exec ⟨none, none⟩ =
        (.ok 2, ⟨some [0xC3, 0xA9], some PayloadFeature.encrypted⟩) := by decide +kernel
  have hw : (unprotectSecretWide (Sample.providers [0xC3, 0xA9]) .ample (wideOf Sample.tokenChars)
      PolicyOption.allowUnsigned).exec ⟨none, none⟩ =
        (.ok 1, ⟨some [0xE9], some PayloadFeature.encrypted⟩) := by decide +kernel
  obtain ⟨-, h⟩ := unprotectSecretWide_agrees (Sample.providers [0xC3, 0xA9]) PolicyOption.allowUnsigned
    Sample.tokenChars hlen none none none
  rw [hn, hw] at h
  refine ⟨hlen, h.resolve_right fun hno => ?_⟩
  cases hno.outputSecret

end CvmAttestation.Secrets
