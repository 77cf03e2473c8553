import CvmAttestation.BaseBase64
import CvmAttestation.BaseJson
import Mathlib.Tactic

/-! The error codes of the secrets library and the exceptions that reach its entry points, and the base64 functions of
the namespace `encoders`. Every exception object that carries a code was built by a `throw` of the library with a code
other than `Success`, so the code is a value of a subtype. -/

namespace CvmAttestation.Secrets

open Base

inductive ErrorCode
  | success
  | tpmError
  | tpmErrorAuthSetAuthError
  | tpmErrorHandlesHandlePresentError
  | tpmErrorHandlesEvictControlError
  | tpmErrorObjectsCreateError
  | tpmErrorContextTctiInitError
  | tpmErrorContextEsysFinalError
  | tpmErrorContextEsysInitError
  | tpmErrorHandlesEsysNvReadError
  | cryptographyError
  | cryptographyErrorAesEncryptError
  | cryptographyErrorAesDecryptError
  | cryptographyErrorEccKeyError
  | cryptographyErrorEccKeyGenError
  | cryptographyErrorHkdfExtractError
  | cryptographyErrorHkdfExpandError
  | cryptographyErrorX509CertChainError
  | cryptographyErrorX509SigErrorError
  | cryptographyErrorTpmRsaEncryptError
  | cryptographyErrorTpmRsaDecryptError
  | cryptographyErrorHashHashError
  | cryptographyErrorSigningVerifyError
  | cryptographyErrorSigningCertChainError
  | parsingError
  | parsingErrorJwtInvStructureError
  | parsingErrorJwtJsonParseError
  | parsingErrorJwtTimeError
  | parsingErrorJwtMissingFieldError
  | parsingErrorJwtInvalidFieldError
  | parsingErrorX509CertParseError
  | parsingErrorX509CertChainError
  | parsingErrorX509CertLoadError
  | parsingErrorX509CertStoreError
  | parsingErrorAsn1X509PrivKeyError
  | parsingErrorAsn1X509PubKeyError
  | parsingErrorUnicodeUtf8Error
  | parsingErrorBase64B64Error
  | libraryErrors
  | libraryErrorBcryptPropertyError
  | libraryErrorBcryptProviderError
  | libraryErrorBcryptHandleError
  | libraryErrorBcryptKeyError
  | libraryErrorWinCryptCertStoreError
  | libraryErrorWinCryptCertLoadError
  | libraryErrorWinCryptCertChainError
  | libraryErrorJsonHppJsonParseError
  | policyMismatchError
  | generalError
  | generalErrorMemoryAllocError
  | unknownError
  deriving DecidableEq, Repr

namespace ErrorCode

def toInt : ErrorCode → Int
  | success => 0
  | tpmError => -0x1000
  | tpmErrorAuthSetAuthError => -0x1000 - 1
  | tpmErrorHandlesHandlePresentError => -0x1000 - 2
  | tpmErrorHandlesEvictControlError => -0x1000 - 3
  | tpmErrorObjectsCreateError => -0x1000 - 4
  | tpmErrorContextTctiInitError => -0x1000 - 5
  | tpmErrorContextEsysFinalError => -0x1000 - 6
  | tpmErrorContextEsysInitError => -0x1000 - 7
  | tpmErrorHandlesEsysNvReadError => -0x1000 - 8
  | cryptographyError => -0x2000
  | cryptographyErrorAesEncryptError => -0x2000 - 1
  | cryptographyErrorAesDecryptError => -0x2000 - 2
  | cryptographyErrorEccKeyError => -0x2000 - 3
  | cryptographyErrorEccKeyGenError => -0x2000 - 4
  | cryptographyErrorHkdfExtractError => -0x2000 - 5
  | cryptographyErrorHkdfExpandError => -0x2000 - 6
  | cryptographyErrorX509CertChainError => -0x2000 - 7
  | cryptographyErrorX509SigErrorError => -0x2000 - 8
  | cryptographyErrorTpmRsaEncryptError => -0x2000 - 9
  | cryptographyErrorTpmRsaDecryptError => -0x2000 - 10
  | cryptographyErrorHashHashError => -0x2000 - 11
  | cryptographyErrorSigningVerifyError => -0x2000 - 12
  | cryptographyErrorSigningCertChainError => -0x2000 - 13
  | parsingError => -0x3000
  | parsingErrorJwtInvStructureError => -0x3000 - 1
  | parsingErrorJwtJsonParseError => -0x3000 - 2
  | parsingErrorJwtTimeError => -0x3000 - 3
  | parsingErrorJwtMissingFieldError => -0x3000 - 4
  | parsingErrorJwtInvalidFieldError => -0x3000 - 5
  | parsingErrorX509CertParseError => -0x3000 - 6
  | parsingErrorX509CertChainError => -0x3000 - 7
  | parsingErrorX509CertLoadError => -0x3000 - 8
  | parsingErrorX509CertStoreError => -0x3000 - 9
  | parsingErrorAsn1X509PrivKeyError => -0x3000 - 10
  | parsingErrorAsn1X509PubKeyError => -0x3000 - 11
  | parsingErrorUnicodeUtf8Error => -0x3000 - 12
  | parsingErrorBase64B64Error => -0x3000 - 13
  | libraryErrors => -0x4000
  | libraryErrorBcryptPropertyError => -0x4000 - 1
  | libraryErrorBcryptProviderError => -0x4000 - 2
  | libraryErrorBcryptHandleError => -0x4000 - 3
  | libraryErrorBcryptKeyError => -0x4000 - 4
  | libraryErrorWinCryptCertStoreError => -0x4000 - 5
  | libraryErrorWinCryptCertLoadError => -0x4000 - 6
  | libraryErrorWinCryptCertChainError => -0x4000 - 7
  | libraryErrorJsonHppJsonParseError => -0x4000 - 8
  | policyMismatchError => -0x5000
  | generalError => -0x6000
  | generalErrorMemoryAllocError => -0x6000 - 1
  | unknownError => -0x7000

theorem toInt_neg {c : ErrorCode} (h : c ≠ success) : c.toInt < 0 := by
  cases c <;> first | exact absurd rfl h | decide

end ErrorCode

/-- A code that an exception object of the library carries. -/
abbrev FailureCode := { c : ErrorCode // c ≠ .success }

/-- The exceptions of the library and of what it calls, as far as some `catch` tells them apart. -/
inductive Exc
  | jwtError (rc : FailureCode)
  | tpmError (rc : FailureCode)
  | osslError
  | dataflow
  | json (e : JsonError)
  | outOfRange
  | invalidArgument
  | lengthError
  | runtimeError
  | badAlloc
  /-- Any other exception derived from `std::exception`. -/
  | otherStd
  /-- An exception that is not derived from `std::exception`. -/
  | foreign
  deriving DecidableEq, Repr

/-- `throw JwtError(description)` with the defaulted code. -/
def Exc.jwtDefault : Exc := .jwtError ⟨.generalError, by decide⟩

def ofJson {α : Type} : Except JsonError α → Except Exc α
  | .ok a => .ok a
  | .error e => .error (.json e)

theorem ofJson_eq_ok {α : Type} {x : Except JsonError α} {a : α} (h : ofJson x = .ok a) : x = .ok a := by
  cases x with
  | ok b =>
      cases h
      rfl
  | error e => cases h

namespace Encoders

def base64Encode (value : Bytes) : Bytes := Base64.encode value

def base64UrlEncode (value : Bytes) : Bytes :=
  (base64Encode value).map fun c => if c = 43 then 45 else if c = 47 then 95 else c

/-- `encoders::base64_decode`: as many bytes are cut off as the text holds characters `=`, wherever they
stand; a vector that would become shorter than empty raises `std::length_error`. -/
def base64Decode (base64 : Bytes) : Except Exc Bytes :=
  match Base64.decodeRaw base64 with
  | none => .error .dataflow
  | some decoded =>
    let numPaddingChars := base64.count Base64.padChar
    if decoded.length < numPaddingChars then .error .lengthError
    else .ok (decoded.take (decoded.length - numPaddingChars))

def base64UrlDecode (base64Url : Bytes) : Except Exc Bytes :=
  base64Decode (base64Url.map fun c => if c = 45 then 43 else if c = 95 then 47 else c)

end Encoders

end CvmAttestation.Secrets
