import CvmAttestation.BaseUtf8
import CvmAttestation.SecretsToken
import Mathlib.Tactic

/-! The policy evaluator: the features found in a payload, the options a caller allows, and the test that
the second covers the first. An evaluator is built from narrow or from wide input. -/

namespace CvmAttestation.Secrets

open Base

abbrev Word := BitVec 32

abbrev WChar := UInt32

namespace PayloadFeature

def none : Word := 0
def encrypted : Word := 1
def signed : Word := 2
def legacy : Word := 4

end PayloadFeature

namespace PolicyOption

def allowUnencrypted : Word := 1
def allowUnsigned : Word := 2
def allowLegacy : Word := 4

end PolicyOption

def isPolicySet (policy flag : Word) : Bool := policy &&& flag == flag

def requiredFields : List (Bytes × Bytes) := [(ascii "x-az-cvm-purpose", ascii "secrets-provisioning")]

/-! ### Conversions between wide and UTF-8 strings -/

/-- `utf8_sanitizer::wide_to_utf8`: every failure gives the empty vector. -/
def wideToUtf8 (mem : Memory) (wide : List WChar) : Bytes :=
  if wide.isEmpty || mem .toBytes then []
  else (Utf8.encode wide).getD []

def widen (utf8 : Bytes) : List WChar := utf8.map UInt8.toUInt32

/-- `utf8_sanitizer::utf8_to_wide`: a sequence that the input cuts short ends the conversion without an
exception, a malformed one raises, and after every exception the bytes are widened one by one. -/
def utf8ToWide (mem : Memory) (utf8 : Bytes) : Except Exc (List WChar) :=
  if utf8.isEmpty then .ok []
  else if mem .fromBytes || (Utf8.decode utf8).status == .invalid then do
    alloc mem .fallback
    return widen utf8
  else .ok (Utf8.decode utf8).codes

/-- The wide form of a secret that is not empty: its bytes one by one, or what decoding produced before
the end of the secret or before the sequence that the end cuts short. -/
theorem utf8ToWide_returns {mem : Memory} {secret : Bytes} {wide : List WChar} (hne : secret ≠ [])
    (h : utf8ToWide mem secret = .ok wide) :
    (wide = widen secret ∧ (mem .fromBytes = true ∨ (Utf8.decode secret).status = .invalid)) ∨
      (wide = (Utf8.decode secret).codes ∧ mem .fromBytes = false ∧ (Utf8.decode secret).status ≠ .invalid) := by
  have hempty : ¬secret.isEmpty = true := by simpa using hne
  rw [utf8ToWide, if_neg hempty] at h
  split_ifs at h with hfall
  · rw [bind_returns] at h
    obtain ⟨-, -, h⟩ := h
    cases h
    exact .inl ⟨rfl, by simpa using hfall⟩
  · cases h
    simp only [Bool.or_eq_true, beq_iff_eq, not_or, Bool.not_eq_true] at hfall
    exact .inr ⟨rfl, hfall⟩

theorem length_widen (s : Bytes) : (widen s).length = s.length := List.length_map _

/-! ### The evaluator -/

/-- A `PolicyEvaluator` object. Legacy input has no token, and only legacy input has none. -/
structure PolicyEvaluator where
  policy : Word
  isLegacy : Bool
  jwt : Option JsonWebToken
  legacy_iff : isLegacy = true ↔ jwt = none

section

variable (P : Providers) (mem : Memory) (policy : Word)

def PolicyEvaluator.ofLegacy : PolicyEvaluator := ⟨policy, true, none, by simp⟩

def PolicyEvaluator.ofToken (t : JsonWebToken) : PolicyEvaluator := ⟨policy, false, some t, by simp⟩

def parseInput (input : Bytes) : Except Exc PolicyEvaluator := do
  alloc mem .tokenObject
  alloc mem .inputString
  let t ← parseToken P mem .new input true subjectNameSuffix
  return PolicyEvaluator.ofToken policy t

def PolicyEvaluator.ofNarrow (input : Bytes) : Except Exc PolicyEvaluator := do
  alloc mem .requiredFields
  let isReal ← isRealJwt P mem input requiredFields
  if isReal then parseInput P mem policy input
  else return PolicyEvaluator.ofLegacy policy

/-- `PolicyEvaluator::PolicyEvaluator(policy, const wchar_t*, inputlen)`. The length of the converted
input reaches `isRealJwt` as an `unsigned int`. -/
def PolicyEvaluator.ofWide (input : List WChar) : Except Exc PolicyEvaluator := do
  alloc mem .requiredFields
  alloc mem .wideInput
  let inputVec := wideToUtf8 mem input
  if inputVec.isEmpty && !input.isEmpty then
    return PolicyEvaluator.ofLegacy policy
  else
    alloc mem .inputString
    let isReal ← isRealJwt P mem (inputVec.take (inputVec.length % 2 ^ 32)) requiredFields
    if isReal then parseInput P mem policy inputVec
    else return PolicyEvaluator.ofLegacy policy

end

namespace PolicyEvaluator

variable (mem : Memory) (pe : PolicyEvaluator)

/-- `isEncrypted`; the `copy`-th copy of the claims. -/
def isEncrypted (copy : Fin 3) : Except Exc Bool :=
  match pe.jwt with
  | none => .ok false
  | some t => do
    alloc mem (.claims copy)
    return t.jwt.contains (ascii "encryptedSecret")

/-- `isSigned`; the `copy`-th copy of the signature. -/
def isSigned (copy : Fin 2) : Except Exc Bool :=
  match pe.jwt with
  | none => .ok false
  | some t => do
    alloc mem (.signature copy)
    return !t.signature.isEmpty

def features (encrypted signed legacy : Bool) : Word :=
  (if encrypted then PayloadFeature.encrypted else PayloadFeature.none) |||
    (if signed then PayloadFeature.signed else PayloadFeature.none) |||
      (if legacy then PayloadFeature.legacy else PayloadFeature.none)

/-- `GetEvaluatedPolicy`, in its first or its second call. -/
def getEvaluatedPolicy (call : Fin 2) : Except Exc Word := do
  let encrypted ← pe.isEncrypted mem call.castSucc
  let signed ← pe.isSigned mem call
  return features encrypted signed pe.isLegacy

def compliant (evalFeatures : Word) : Bool :=
  if isPolicySet evalFeatures PayloadFeature.legacy then
    isPolicySet pe.policy PolicyOption.allowLegacy
  else if !isPolicySet evalFeatures PayloadFeature.encrypted &&
      !isPolicySet pe.policy PolicyOption.allowUnencrypted then
    false
  else if !isPolicySet evalFeatures PayloadFeature.signed &&
      !isPolicySet pe.policy PolicyOption.allowUnsigned then
    false
  else true

def isCompliant : Except Exc Bool := do
  let evalFeatures ← pe.getEvaluatedPolicy mem 1
  return pe.compliant evalFeatures

def getClaims : Except Exc Json :=
  match pe.jwt with
  | none => .ok .null
  | some t => do
    alloc mem (.claims 2)
    return t.jwt

def getHeader : Json :=
  match pe.jwt with
  | none => .null
  | some t => t.header

end PolicyEvaluator

def parseRsaPaddingScheme (value : Bytes) : Except Exc RsaPaddingScheme :=
  if value.isEmpty || value == ascii "rsaes" then .ok .rsaes
  else if value == ascii "rsaes-oaep" then .ok .rsaesOaep
  else .error .invalidArgument

def getPaddingScheme (pe : PolicyEvaluator) : Except Exc RsaPaddingScheme :=
  if pe.getHeader.contains (ascii "x-az-rsa-padding") then do
    let field ← ofJson (pe.getHeader.at? (ascii "x-az-rsa-padding"))
    let value ← ofJson field.getString
    parseRsaPaddingScheme value
  else .ok .rsaes

/-! ### What an evaluator says -/

namespace PolicyEvaluator

variable {P : Providers} {mem : Memory} {policy : Word} {pe : PolicyEvaluator}

theorem parseInput_returns {input : Bytes} (h : parseInput P mem policy input = .ok pe) :
    ∃ t, parseToken P mem .new input true subjectNameSuffix = .ok t ∧ pe = ofToken policy t := by
  simp only [parseInput, bind_returns] at h
  obtain ⟨-, -, -, -, t, ht, h⟩ := h
  cases h
  exact ⟨t, ht, rfl⟩

theorem ofNarrow_returns {input : Bytes} (h : ofNarrow P mem policy input = .ok pe) :
    (isRealJwt P mem input requiredFields = .ok false ∧ pe = ofLegacy policy) ∨
      (isRealJwt P mem input requiredFields = .ok true ∧
        ∃ t, parseToken P mem .new input true subjectNameSuffix = .ok t ∧ pe = ofToken policy t) := by
  simp only [ofNarrow, bind_returns] at h
  obtain ⟨-, -, isReal, hreal, h⟩ := h
  cases isReal with
  | false =>
      cases h
      exact .inl ⟨hreal, rfl⟩
  | true => exact .inr ⟨hreal, parseInput_returns h⟩

theorem getEvaluatedPolicy_ofLegacy (call : Fin 2) :
    (ofLegacy policy).getEvaluatedPolicy mem call = .ok PayloadFeature.legacy := by
  have h : features false false true = PayloadFeature.legacy := by decide
  rw [← h]
  rfl

theorem isCompliant_ofLegacy :
    (ofLegacy policy).isCompliant mem = .ok (isPolicySet policy PolicyOption.allowLegacy) := by
  have h : isPolicySet PayloadFeature.legacy PayloadFeature.legacy = true := by decide
  rw [isCompliant, getEvaluatedPolicy_ofLegacy]
  change Except.ok ((ofLegacy policy).compliant PayloadFeature.legacy) = _
  rw [compliant, if_pos h]
  rfl

theorem getEvaluatedPolicy_ofToken {t : JsonWebToken} {call : Fin 2} {evalPolicy : Word}
    (h : (ofToken policy t).getEvaluatedPolicy mem call = .ok evalPolicy) :
    evalPolicy = features (t.jwt.contains (ascii "encryptedSecret")) (!t.signature.isEmpty) false := by
  simp only [getEvaluatedPolicy, isEncrypted, isSigned, ofToken, bind_returns] at h
  obtain ⟨encrypted, ⟨-, -, hencrypted⟩, signed, ⟨-, -, hsigned⟩, h⟩ := h
  cases hencrypted
  cases hsigned
  cases h
  rfl

theorem isPolicySet_signed (encrypted signed legacy : Bool) :
    isPolicySet (features encrypted signed legacy) PayloadFeature.signed = signed := by
  cases encrypted <;> cases signed <;> cases legacy <;> decide

theorem isPolicySet_legacy (encrypted signed legacy : Bool) :
    isPolicySet (features encrypted signed legacy) PayloadFeature.legacy = legacy := by
  cases encrypted <;> cases signed <;> cases legacy <;> decide

theorem isCompliant_ofToken {t : JsonWebToken} (h : (ofToken policy t).isCompliant mem = .ok true) :
    t.signature ≠ [] ∨ isPolicySet policy PolicyOption.allowUnsigned = true := by
  rw [isCompliant, bind_returns] at h
  obtain ⟨evalFeatures, hev, h⟩ := h
  have hsigned : isPolicySet evalFeatures PayloadFeature.signed = !t.signature.isEmpty := by
    rw [getEvaluatedPolicy_ofToken hev]
    exact isPolicySet_signed _ _ _
  have hlegacy : isPolicySet evalFeatures PayloadFeature.legacy = false := by
    rw [getEvaluatedPolicy_ofToken hev]
    exact isPolicySet_legacy _ _ _
  cases hsig : t.signature with
  | cons c s => exact .inl (by simp)
  | nil =>
      right
      by_contra hallow
      rw [Bool.not_eq_true] at hallow
      simp [compliant, ofToken, hlegacy, hsigned, hsig, hallow, pure, Except.pure] at h

end PolicyEvaluator

end CvmAttestation.Secrets
