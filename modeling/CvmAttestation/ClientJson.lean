import CvmAttestation.BaseBase64
import CvmAttestation.BaseControl
import CvmAttestation.BaseJson
import Mathlib.Tactic

/-! Results and exceptions of the attestation client, the accessors of its JSON library and its base64 decoders.
Both raise: an accessor for a value of a type it does not expect, a decoder for a character outside its table, for
a last group of one character, and for more padding characters than bytes. -/

namespace CvmAttestation.Client

open Base

inductive ErrorCode
  | success
  | curlInitialization
  | responseParsing
  | msiTokenNotFound
  | httpRequestExceededRetries
  | httpRequestFailed
  | attestationFailed
  | sendingCurlRequestFailed
  | invalidInputParameter
  | attestationParametersValidationFailed
  | failedMemoryAllocation
  | failedToGetOsInfo
  | tpmInternalFailure
  | tpmOperationFailure
  | jwtDecryptionFailed
  | jwtDecryptionTpmError
  | invalidJsonResponse
  | emptyVcekCert
  | emptyResponse
  | emptyRequestBody
  | hclReportParsingFailure
  | hclReportEmpty
  | extractingJwkInfo
  | convertingJwkToRsaPub
  | evpPkeyEncryptInitFailed
  | evpPkeyEncryptFailed
  | dataDecryptionTpmError
  | parsingDnsInfo
  | parsingAttestationResponse
  | akCertProvisioningFailed
  | emptyTdQuote
  | akCertParsing
  | akCertRenew
  deriving DecidableEq, Repr

structure AttestationResult where
  code : ErrorCode
  description : Bytes
  tpmErrorCode : Nat
  deriving DecidableEq, Repr

def AttestationResult.success : AttestationResult := ⟨.success, [], 0⟩

def AttestationResult.failure (code : ErrorCode) (description : Bytes) : AttestationResult := ⟨code, description, 0⟩

/-- A result with another code than `SUCCESS`: what a function hands to its caller when it gives up. -/
structure Failure where
  result : AttestationResult
  failed : result.code ≠ .success
  deriving DecidableEq

/-- `if ((result = f()).code_ != SUCCESS) return result`. -/
def check {ε : Type} (result : AttestationResult) : Fallible ε Failure Unit :=
  if h : result.code = .success then pure () else throw ⟨result, h⟩

/-- The exceptions that the functions below raise; all of them are derived from `std::exception`. -/
inductive Exc
  | jsonLogicError
  | jsonRuntimeError
  | dataflow
  | lengthError
  | tpm
  deriving DecidableEq, Repr

def cStr (s : Bytes) : Bytes := s.takeWhile (· ≠ 0)

/-! ### JSON -/

/-- What `Json::Reader::parse` does with a text: it raises when the nesting is too deep, it returns false, or it
returns true and a value. -/
inductive Parsed
  | raises
  | fails
  | value (j : Json)

/-- The JSON library: its parser and the text it writes for a floating-point number. -/
structure Jsoncpp where
  parse : Bytes → Parsed
  realText : Rat → Bytes

def intText (n : Int) : Bytes := ascii (toString n)

def inIntRange (x : Rat) : Bool := -2147483648 ≤ x && x ≤ 2147483647

section

variable (J : Jsoncpp)

def asString : Json → Except Exc Bytes
  | .null => .ok []
  | .bool b => .ok (if b then ascii "true" else ascii "false")
  | .int n => .ok (intText n)
  | .real x => .ok (J.realText x)
  | .string s => .ok s
  | .array _ => .error .jsonLogicError
  | .object _ => .error .jsonLogicError

/-- `Value::asInt`. A floating-point number is truncated. -/
def asInt : Json → Except Exc Int
  | .null => .ok 0
  | .bool b => .ok (if b then 1 else 0)
  | .int n => if inIntRange n then .ok n else .error .jsonLogicError
  | .real x => if inIntRange x then .ok (if 0 ≤ x then x.floor else x.ceil) else .error .jsonLogicError
  | _ => .error .jsonLogicError

def get (j : Json) (key : Bytes) (defaultValue : Json) : Except Exc Json :=
  match j with
  | .null => .ok defaultValue
  | .object ms => .ok ((ms.lookup key).getD defaultValue)
  | _ => .error .jsonLogicError

/-- `Json::Reader::parse`, with the failure to return when the text cannot be parsed. -/
def parse {ρ : Type} (text : Bytes) (failure : ρ) : Fallible Exc ρ Json :=
  match J.parse text with
  | .raises => Fallible.call (.error .jsonRuntimeError)
  | .fails => throw failure
  | .value j => pure j

def getString (j : Json) (key : Bytes) : Except Exc Bytes := do
  asString J (← get j key (.string []))

/-- `operator[](key)` and then `asString()`; a missing member is null. -/
def indexString (j : Json) (key : Bytes) : Except Exc Bytes := do
  asString J (← get j key .null)

end

/-! ### What can be read

`field` and `text` say what the accessors read where they do not raise: a missing member counts as null, and the
text of null is empty. -/

def NullOrObject : Json → Prop
  | .null => True
  | .object _ => True
  | _ => False

def Scalar : Json → Prop
  | .array _ => False
  | .object _ => False
  | _ => True

def field (j : Json) (key : Bytes) : Json := (j.member? key).getD .null

def text (J : Jsoncpp) (j : Json) : Bytes :=
  match asString J j with
  | .ok s => s
  | .error _ => []

def IntLike : Json → Prop
  | .null => True
  | .bool _ => True
  | .int n => inIntRange n = true
  | .real x => inIntRange x = true
  | _ => False

def number (j : Json) : Int :=
  match asInt j with
  | .ok n => n
  | .error _ => 0

/-- The parser does not raise on the text, and the value it may return has the property. -/
def Parses (J : Jsoncpp) (text : Bytes) (property : Json → Prop) : Prop :=
  match J.parse text with
  | .raises => False
  | .fails => True
  | .value j => property j

section

variable {J : Jsoncpp} {j : Json}

theorem asString_iff {s : Bytes} : asString J j = .ok s ↔ Scalar j ∧ s = text J j := by
  cases j <;> simp [asString, Scalar, text, eq_comm]

theorem getString_iff {key s : Bytes} :
    getString J j key = .ok s ↔ NullOrObject j ∧ Scalar (field j key) ∧ s = text J (field j key) := by
  rw [getString, bind_returns]
  cases j with
  | object ms =>
      cases h : ms.lookup key with
      | none => simp [get, field, Json.member?, NullOrObject, h, Scalar, text, asString, eq_comm]
      | some v => simp [get, field, Json.member?, NullOrObject, h, asString_iff]
  | null => simp [get, field, Json.member?, NullOrObject, Scalar, text, asString, eq_comm]
  | _ => simp [get, NullOrObject]

theorem indexString_iff {key s : Bytes} :
    indexString J j key = .ok s ↔ NullOrObject j ∧ Scalar (field j key) ∧ s = text J (field j key) := by
  rw [indexString, bind_returns]
  cases j with
  | object ms => simp [get, field, Json.member?, NullOrObject, asString_iff]
  | null => simp [get, field, Json.member?, NullOrObject, asString_iff]
  | _ => simp [get, NullOrObject]

theorem asInt_iff {n : Int} : asInt j = .ok n ↔ IntLike j ∧ n = number j := by
  cases j with
  | int m => by_cases h : inIntRange m = true <;> simp [asInt, IntLike, number, h, eq_comm]
  | real x => by_cases h : inIntRange x = true <;> simp [asInt, IntLike, number, h, eq_comm]
  | _ => simp [asInt, IntLike, number, eq_comm]

theorem get_null_iff {key : Bytes} {v : Json} : get j key .null = .ok v ↔ NullOrObject j ∧ v = field j key := by
  cases j <;> simp [get, field, Json.member?, NullOrObject, eq_comm]

theorem safe_parse_bind_iff {ρ α : Type} {document : Bytes} {failure : ρ} {f : Json → Fallible Exc ρ α} :
    (parse J document failure >>= f).Safe ↔ Parses J document fun j => (f j).Safe := by
  rw [Fallible.safe_bind_iff, parse, Parses]
  cases J.parse document with
  | raises => simp [Fallible.safe_call_iff]
  | fails => simp [Fallible.safe_throw, Fallible.not_returns_throw]
  | value j => simp [Fallible.safe_pure, Fallible.returns_pure_iff]

def getInt (j : Json) (key : Bytes) : Except Exc Int := do
  asInt (← get j key (.int 0))

theorem getInt_iff {key : Bytes} {n : Int} :
    getInt j key = .ok n ↔ NullOrObject j ∧ IntLike (field j key) ∧ n = number (field j key) := by
  have hzero : asInt (.int 0) = .ok n ↔ n = 0 := by
    simp [asInt, inIntRange, eq_comm]
  have hnull : (IntLike .null ∧ n = number .null) ↔ n = 0 := ⟨fun h => h.2, fun h => ⟨trivial, h⟩⟩
  rw [getInt, bind_returns]
  cases j with
  | object ms =>
      cases h : ms.lookup key with
      | none => simp [get, field, Json.member?, NullOrObject, h, hzero, hnull]
      | some v => simp [get, field, Json.member?, NullOrObject, h, asInt_iff]
  | null => simp [get, field, Json.member?, NullOrObject, hzero, hnull]
  | _ => simp [get, NullOrObject]

end

/-! ### Base64 -/

/-- `attest::base64::base64_to_binary`. As many bytes are cut off as there are padding characters. -/
def base64ToBinary (base64Data : Bytes) : Except Exc Bytes :=
  match Base64.decodeRaw base64Data with
  | none => .error .dataflow
  | some binaryData =>
    let numPaddingChars := base64Data.count Base64.padChar
    if numPaddingChars ≤ binaryData.length then .ok (binaryData.take (binaryData.length - numPaddingChars))
    else .error .lengthError

def base64urlToBinary (base64Data : Bytes) : Except Exc Bytes :=
  base64ToBinary (base64Data.map fun c => if c = 45 then 43 else if c = 95 then 47 else c)

/-- A text that is decoded without an exception: every character is in the table of the decoder, no group of
one character is left, and there are not more padding characters than bytes. -/
def Decodes (text : Bytes) : Prop := Base64.Readable text ∧ text.count Base64.padChar ≤ text.length * 3 / 4

theorem base64ToBinary_returns_iff {text : Bytes} : (∃ v, base64ToBinary text = .ok v) ↔ Decodes text := by
  rw [base64ToBinary, Decodes, ← Base64.decodeRaw_returns_iff]
  cases h : Base64.decodeRaw text with
  | none => simp
  | some binaryData =>
      rw [← Base64.decodeRaw_length text h]
      by_cases hpad : text.count Base64.padChar ≤ binaryData.length
      · simp [hpad]
      · simp [hpad]

/-! What the encoders write is decoded to the same bytes. -/

theorem base64ToBinary_encode (data : Bytes) : base64ToBinary (Base64.encode data) = .ok data := by
  rw [base64ToBinary, Base64.decodeRaw_encode]
  simp [Base64.count_padChar_encode]

theorem base64urlToBinary_encodeUrl (data : Bytes) : base64urlToBinary (Base64.encodeUrl data) = .ok data := by
  have hmap : (Base64.encodeUrl data).map (fun c => if c = 45 then 43 else if c = 95 then 47 else c) =
      Base64.encodeRaw data := Base64.map_fromUrl_encodeUrl data
  rw [base64urlToBinary, hmap, base64ToBinary, Base64.decodeRaw_encodeRaw]
  simp [Base64.count_padChar_encodeRaw]

end CvmAttestation.Client
