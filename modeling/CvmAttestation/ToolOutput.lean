import CvmAttestation.BaseJsonDoc
import CvmAttestation.SecretsRelease
import CvmAttestation.ToolArgs

/-! What the secrets tool prints for a secret. The length that the library returns is taken for an error when it is zero,
and the secret is written as a JSON string by a loop over its bytes. -/

namespace CvmAttestation.Tool

open Base Secrets

/-- The names of `error_code_name`. -/
def errorCodeNames : List (ErrorCode × Bytes) :=
  [(.success, ascii "Success"),
    (.tpmError, ascii "TpmError"),
    (.tpmErrorAuthSetAuthError, ascii "TpmError_Auth_setAuthError"),
    (.tpmErrorHandlesHandlePresentError, ascii "TpmError_Handles_handlePresentError"),
    (.tpmErrorHandlesEvictControlError, ascii "TpmError_Handles_evictControlError"),
    (.tpmErrorObjectsCreateError, ascii "TpmError_Objects_createError"),
    (.tpmErrorContextTctiInitError, ascii "TpmError_Context_tctiInitError"),
    (.tpmErrorContextEsysFinalError, ascii "TpmError_Context_esysFinalError"),
    (.tpmErrorContextEsysInitError, ascii "TpmError_Context_esysInitError"),
    (.tpmErrorHandlesEsysNvReadError, ascii "TpmError_Handles_esysNvReadError"),
    (.cryptographyError, ascii "CryptographyError"),
    (.cryptographyErrorAesEncryptError, ascii "CryptographyError_AES_encryptError"),
    (.cryptographyErrorAesDecryptError, ascii "CryptographyError_AES_decryptError"),
    (.cryptographyErrorEccKeyError, ascii "CryptographyError_ECC_keyError"),
    (.cryptographyErrorEccKeyGenError, ascii "CryptographyError_ECC_keyGenError"),
    (.cryptographyErrorHkdfExtractError, ascii "CryptographyError_HKDF_extractError"),
    (.cryptographyErrorHkdfExpandError, ascii "CryptographyError_HKDF_expandError"),
    (.cryptographyErrorX509CertChainError, ascii "CryptographyError_X509_certChainError"),
    (.cryptographyErrorX509SigErrorError, ascii "CryptographyError_X509_sigErrorError"),
    (.cryptographyErrorTpmRsaEncryptError, ascii "CryptographyError_TpmRsa_encryptError"),
    (.cryptographyErrorTpmRsaDecryptError, ascii "CryptographyError_TpmRsa_decryptError"),
    (.cryptographyErrorHashHashError, ascii "CryptographyError_Hash_hashError"),
    (.cryptographyErrorSigningVerifyError, ascii "CryptographyError_Signing_verifyError"),
    (.cryptographyErrorSigningCertChainError, ascii "CryptographyError_Signing_certChainError"),
    (.parsingError, ascii "ParsingError"),
    (.parsingErrorJwtInvStructureError, ascii "ParsingError_Jwt_invStructureError"),
    (.parsingErrorJwtJsonParseError, ascii "ParsingError_Jwt_jsonParseError"),
    (.parsingErrorJwtTimeError, ascii "ParsingError_Jwt_timeError"),
    (.parsingErrorJwtMissingFieldError, ascii "ParsingError_Jwt_missingFieldError"),
    (.parsingErrorJwtInvalidFieldError, ascii "ParsingError_Jwt_invalidFieldError"),
    (.parsingErrorX509CertParseError, ascii "ParsingError_X509_certParseError"),
    (.parsingErrorX509CertChainError, ascii "ParsingError_X509_certChainError"),
    (.parsingErrorX509CertLoadError, ascii "ParsingError_X509_certLoadError"),
    (.parsingErrorX509CertStoreError, ascii "ParsingError_X509_certStoreError"),
    (.parsingErrorAsn1X509PrivKeyError, ascii "ParsingError_Asn1_x509PrivKeyError"),
    (.parsingErrorAsn1X509PubKeyError, ascii "ParsingError_Asn1_x509PubKeyError"),
    (.parsingErrorUnicodeUtf8Error, ascii "ParsingError_Unicode_utf8Error"),
    (.parsingErrorBase64B64Error, ascii "ParsingError_Base64_b64Error"),
    (.libraryErrors, ascii "LibraryErrors"),
    (.libraryErrorBcryptPropertyError, ascii "LibraryError_Bcrypt_propertyError"),
    (.libraryErrorBcryptProviderError, ascii "LibraryError_Bcrypt_providerError"),
    (.libraryErrorBcryptHandleError, ascii "LibraryError_Bcrypt_handleError"),
    (.libraryErrorBcryptKeyError, ascii "LibraryError_Bcrypt_keyError"),
    (.libraryErrorWinCryptCertStoreError, ascii "LibraryError_WinCrypt_certStoreError"),
    (.libraryErrorWinCryptCertLoadError, ascii "LibraryError_WinCrypt_certLoadError"),
    (.libraryErrorWinCryptCertChainError, ascii "LibraryError_WinCrypt_certChainError"),
    (.libraryErrorJsonHppJsonParseError, ascii "LibraryError_JsonHpp_jsonParseError"),
    (.policyMismatchError, ascii "PolicyMismatchError"),
    (.generalError, ascii "GeneralError"),
    (.generalErrorMemoryAllocError, ascii "GeneralError_Memory_AllocError"),
    (.unknownError, ascii "UnknownError")]

def getErrorMessage (errorCode : Int) : Bytes :=
  if 0 ≤ errorCode then ascii "Success"
  else ((errorCodeNames.find? fun e => e.1.toInt = errorCode).map Prod.snd).getD (ascii "UnknownError")

/-- Where the tool reads its input, and whether its writes of bytes fail. -/
structure Console where
  stdin : Bytes
  writeFails : Bool

structure Printed where
  stdout : Bytes
  stderr : Bytes
  exitCode : ℕ
  deriving DecidableEq, Repr

/-- One round of the loop over the secret. -/
def escapeByte (c : UInt8) : Bytes :=
  if c = 92 then [92, 92]
  else if c = 34 then [92, 34]
  else if c = 10 then [92, 110]
  else if c = 13 then [92, 114]
  else if c = 9 then [92, 116]
  else if c < 0x20 then [92, 117, 48, 48, Json.hexDigit (c / 16), Json.hexDigit (c % 16)]
  else [c]

def jsonLine (secret : Bytes) : Bytes :=
  ascii "\x7b\"secret\":\"" ++ secret.flatMap escapeByte ++ ascii "\"\x7d"

/-- The secret without the null byte that the library counts. -/
def trimmed (secret : Bytes) : Bytes := if secret.getLast? = some 0 then secret.dropLast else secret

section

variable (P : Providers) (mem : Memory) (args : CliArgs) (console : Console)

def toolInput : Bytes := if args.token = [] then console.stdin else args.token

/-- The call of `unprotect_secret`, whose second argument is an `unsigned int`. -/
def unprotectCall : Except Exc Int × Outputs UInt8 :=
  (unprotectSecret P mem ((toolInput args console).take ((toolInput args console).length % 2 ^ 32)) args.policy).exec
    ⟨none, some 0⟩

/-- What follows the call. A result above zero comes with a buffer. -/
def report (result : Int) (output : Option Bytes) : Printed :=
  if 0 < result then
    let secret := trimmed ((output.getD []).take result.toNat)
    if args.jsonOutput then ⟨jsonLine secret ++ [10], [], 0⟩
    else ⟨if console.writeFails then [] else secret, [], if console.writeFails then 1 else 0⟩
  else if args.jsonOutput then ⟨ascii "\x7b\"error\":\"" ++ getErrorMessage result ++ ascii "\"\x7d" ++ [10], [], 1⟩
  else ⟨[], getErrorMessage result ++ [10], 1⟩

def cmdUnprotectSecret : Except Exc Printed :=
  if toolInput args console = [] then
    .ok (if args.jsonOutput then ⟨ascii "\x7b\"error\":\"no input provided\"\x7d" ++ [10], [], 1⟩
      else ⟨[], ascii "No input provided. Pass the token as an argument or pipe it via stdin." ++ [10], 1⟩)
  else do
    let result ← (unprotectCall P mem args console).1
    return report args console result (unprotectCall P mem args console).2.outputSecret

/-- A call of the tool in JSON mode in which `unprotect_secret` returns the secret. -/
structure Unprotects (secret : Bytes) : Prop where
  json : args.jsonOutput = true
  input : toolInput args console ≠ []
  result : (unprotectCall P mem args console).1 = .ok (secret.length : Int)
  output : (unprotectCall P mem args console).2.outputSecret = handedOut secret

/-- One line, a JSON object with the secret as its only field, and success. -/
def PrintsSecret (secret : Bytes) : Prop :=
  ∃ line, cmdUnprotectSecret P mem args console = .ok ⟨line ++ [10], [], 0⟩ ∧ (10 : UInt8) ∉ line ∧
    JsonDoc.read line = some (.object [(ascii "secret", .string (trimmed secret))])

end

/-! ### The escapes -/

theorem hex4_hexDigit {c : UInt8} (h : c < 0x20) :
    JsonDoc.hex4 48 48 (Json.hexDigit (c / 16)) (Json.hexDigit (c % 16)) = some c.toNat := by
  have hall : ∀ i : Fin 32, JsonDoc.hex4 48 48 (Json.hexDigit (UInt8.ofNat i.val / 16))
      (Json.hexDigit (UInt8.ofNat i.val % 16)) = some i.val := by decide
  have hc := hall ⟨c.toNat, UInt8.lt_iff_toNat_lt.1 h⟩
  rwa [UInt8.ofNat_toNat] at hc

theorem chars_escapeByte (c : UInt8) {l v : Bytes} (h : JsonDoc.Chars l v) :
    JsonDoc.Chars (escapeByte c ++ l) (c :: v) := by
  unfold escapeByte
  split_ifs with h92 h34 h10 h13 h9 hcontrol
  · exact .escape (.short (c := 92) (by rw [h92]; rfl)) h
  · exact .escape (.short (c := 34) (by rw [h34]; rfl)) h
  · exact .escape (.short (c := 110) (by rw [h10]; rfl)) h
  · exact .escape (.short (c := 114) (by rw [h13]; rfl)) h
  · exact .escape (.short (c := 116) (by rw [h9]; rfl)) h
  · have hlt : c.toNat < 0x80 := (UInt8.lt_iff_toNat_lt.1 hcontrol).trans (by decide)
    exact .escape (.unit (hex4_hexDigit hcontrol) (Utf8.encodeScalar_one hlt)) h
  · exact .plain (by simp [Json.special, h92, h34, hcontrol]) h

theorem chars_escaped (secret : Bytes) : JsonDoc.Chars (secret.flatMap escapeByte) secret := by
  induction secret with
  | nil => exact .nil
  | cons c secret ih => exact chars_escapeByte c ih

theorem escapeByte_of_le {c : UInt8} (h : ¬c.toNat < 0x80) : escapeByte c = [c] := by
  have hne : ∀ d : UInt8, d.toNat < 0x80 → c ≠ d := by
    rintro d hd rfl
    exact h hd
  have hcontrol : ¬c < 0x20 := fun hlt => h ((UInt8.lt_iff_toNat_lt.1 hlt).trans (by decide))
  rw [escapeByte, if_neg (hne 92 (by decide)), if_neg (hne 34 (by decide)), if_neg (hne 10 (by decide)),
    if_neg (hne 13 (by decide)), if_neg (hne 9 (by decide)), if_neg hcontrol]

theorem hexDigit_ascii {c : UInt8} (h : c < 0x20) :
    ∀ x ∈ [Json.hexDigit (c / 16), Json.hexDigit (c % 16)], x.toNat < 0x80 ∧ x ≠ 10 := by
  have hall : ∀ i : Fin 32, ((Json.hexDigit (UInt8.ofNat i.val / 16)).toNat < 0x80 ∧
      Json.hexDigit (UInt8.ofNat i.val / 16) ≠ 10) ∧ (Json.hexDigit (UInt8.ofNat i.val % 16)).toNat < 0x80 ∧
        Json.hexDigit (UInt8.ofNat i.val % 16) ≠ 10 := by decide
  have hc := hall ⟨c.toNat, UInt8.lt_iff_toNat_lt.1 h⟩
  rw [UInt8.ofNat_toNat] at hc
  rw [List.forall_mem_cons, List.forall_mem_singleton]
  exact hc

/-- What is written for an ASCII byte is ASCII without line ends. -/
theorem escapeByte_ascii {c : UInt8} (hc : c.toNat < 0x80) : ∀ x ∈ escapeByte c, x.toNat < 0x80 ∧ x ≠ 10 := by
  unfold escapeByte
  split_ifs with h92 h34 h10 h13 h9 hcontrol
  · simp
  · simp
  · simp
  · simp
  · simp
  · simp only [List.forall_mem_cons]
    have hdigits := hexDigit_ascii hcontrol
    rw [List.forall_mem_cons, List.forall_mem_singleton] at hdigits
    exact ⟨by decide, by decide, by decide, by decide, hdigits.1, hdigits.2, nofun⟩
  · rw [List.forall_mem_singleton]
    exact ⟨hc, h10⟩

theorem valid_escaped {secret : Bytes} (h : Utf8.valid secret = true) :
    Utf8.valid (secret.flatMap escapeByte) = true :=
  Utf8.valid_flatMap (fun _ hc x hx => (escapeByte_ascii hc x hx).1) (fun _ hc => escapeByte_of_le hc) h

theorem ten_notMem_escaped (secret : Bytes) : (10 : UInt8) ∉ secret.flatMap escapeByte := by
  intro h
  obtain ⟨c, -, hx⟩ := List.mem_flatMap.1 h
  by_cases hc : c.toNat < 0x80
  · exact (escapeByte_ascii hc 10 hx).2 rfl
  · rw [escapeByte_of_le hc, List.mem_singleton] at hx
    exact hc (by rw [← hx]; decide)

theorem jsonLine_eq (secret : Bytes) :
    jsonLine secret = JsonDoc.objectText [] [(ascii "secret", secret.flatMap escapeByte)] := by
  have hopen : ascii "\x7b\"secret\":\"" = 123 :: 34 :: (ascii "secret" ++ [34, 58, 34]) := rfl
  have hclose : ascii "\"\x7d" = [34, 125] := rfl
  rw [jsonLine, hopen, hclose, JsonDoc.objectText_cons]
  simp

theorem read_jsonLine {secret : Bytes} (h : Utf8.valid secret = true) :
    JsonDoc.read (jsonLine secret) = some (.object [(ascii "secret", .string secret)]) := by
  have hkey : JsonDoc.isText (ascii "secret") = true := rfl
  rw [jsonLine_eq]
  apply JsonDoc.read_objectText (by simp) (.cons ⟨JsonDoc.plain_of_isText hkey, secret, chars_escaped secret, rfl⟩ .nil)
  rw [JsonDoc.valid_objectText rfl, List.forall_mem_singleton]
  exact ⟨JsonDoc.valid_of_isText hkey, valid_escaped h⟩

theorem ten_notMem_jsonLine (secret : Bytes) : (10 : UInt8) ∉ jsonLine secret := by
  have hopen : (ascii "\x7b\"secret\":\"").contains 10 = false := rfl
  have hclose : (ascii "\"\x7d").contains 10 = false := rfl
  rw [jsonLine, List.mem_append, List.mem_append, not_or, not_or]
  exact ⟨⟨by simpa using hopen, ten_notMem_escaped secret⟩, by simpa using hclose⟩

/-! ### Calls of the tool -/

theorem valid_trimmed {secret : Bytes} (h : Utf8.valid secret = true) : Utf8.valid (trimmed secret) = true := by
  unfold trimmed
  split_ifs with hnull
  · obtain ⟨s, rfl⟩ := List.getLast?_eq_some_iff.1 hnull
    rw [List.dropLast_concat]
    exact ((Utf8.valid_append_cons (by decide)).1 h).1
  · exact h

def emptySecretLine : Bytes := ascii "\x7b\"error\":\"Success\"\x7d"

section

variable {P : Providers} {mem : Memory} {args : CliArgs} {console : Console} {secret : Bytes}

/-- What a call prints: an error without a reason for the empty secret. -/
theorem Unprotects.printed (h : Unprotects P mem args console secret) :
    cmdUnprotectSecret P mem args console =
      .ok (if secret = [] then ⟨emptySecretLine ++ [10], [], 1⟩ else ⟨jsonLine (trimmed secret) ++ [10], [], 0⟩) := by
  have hcmd : cmdUnprotectSecret P mem args console = .ok (report args console secret.length (handedOut secret)) := by
    rw [cmdUnprotectSecret, if_neg h.input, h.result, h.output]
    rfl
  rw [hcmd, report]
  cases secret with
  | nil =>
      rw [if_neg (by simp), if_pos h.json, if_pos rfl]
      rfl
  | cons c s =>
      have hpos : (0 : Int) < ((c :: s).length : Int) := by
        rw [List.length_cons]
        omega
      rw [if_pos hpos, if_neg (List.cons_ne_nil c s), handedOut_of_ne_nil (List.cons_ne_nil c s)]
      simp only [h.json, if_true, Option.getD_some, Int.toNat_natCast, List.take_length]

theorem jsonLine_ne_emptySecretLine (secret : Bytes) : jsonLine secret ≠ emptySecretLine := by
  have hopen : ascii "\x7b\"secret\":\"" = 123 :: 34 :: 115 :: ascii "ecret\":\"" := rfl
  have hempty : emptySecretLine = 123 :: 34 :: 101 :: ascii "rror\":\"Success\"\x7d" := rfl
  rw [jsonLine, hopen, hempty]
  intro heq
  have h115 := (List.cons.inj (List.cons.inj (List.cons.inj heq).2).2).1
  exact absurd h115 (by decide)

theorem printsSecret_of_ne_nil (h : Unprotects P mem args console secret) (hvalid : Utf8.valid secret = true)
    (hne : secret ≠ []) : PrintsSecret P mem args console secret := by
  refine ⟨jsonLine (trimmed secret), ?_, ten_notMem_jsonLine _, read_jsonLine (valid_trimmed hvalid)⟩
  rw [h.printed, if_neg hne]

theorem not_printsSecret_nil (h : Unprotects P mem args console []) : ¬PrintsSecret P mem args console [] := by
  rintro ⟨line, hprinted, -, -⟩
  rw [h.printed, if_pos rfl] at hprinted
  have hcode : 1 = 0 := congrArg Printed.exitCode (Except.ok.inj hprinted)
  cases hcode

/-- Calls that print the same have the same secret, but for a null byte at its end. -/
theorem trimmed_eq_of_printed {P' : Providers} {mem' : Memory} {args' : CliArgs} {console' : Console} {secret' : Bytes}
    (h : Unprotects P mem args console secret) (hvalid : Utf8.valid secret = true)
    (h' : Unprotects P' mem' args' console' secret') (hvalid' : Utf8.valid secret' = true)
    (heq : (cmdUnprotectSecret P mem args console).map Printed.stdout =
      (cmdUnprotectSecret P' mem' args' console').map Printed.stdout) : trimmed secret = trimmed secret' := by
  rw [h.printed, h'.printed] at heq
  have hstdout := Except.ok.inj heq
  split_ifs at hstdout with hnil hnil' hnil'
  · rw [hnil, hnil']
  · exact absurd (List.append_cancel_right hstdout).symm (jsonLine_ne_emptySecretLine _)
  · exact absurd (List.append_cancel_right hstdout) (jsonLine_ne_emptySecretLine _)
  · have hread := read_jsonLine (valid_trimmed hvalid)
    rw [List.append_cancel_right hstdout, read_jsonLine (valid_trimmed hvalid')] at hread
    simpa using hread.symm

/-- **A secret is printed** as a line of JSON that stands for it exactly when it is not empty, and what is printed tells
secrets apart. -/
theorem cmdUnprotectSecret_prints_iff (h : Unprotects P mem args console secret) (hvalid : Utf8.valid secret = true) :
    (PrintsSecret P mem args console secret ↔ secret ≠ []) ∧
      ∀ (P' : Providers) (mem' : Memory) (args' : CliArgs) (console' : Console) (secret' : Bytes),
        Unprotects P' mem' args' console' secret' → Utf8.valid secret' = true →
          (cmdUnprotectSecret P mem args console).map Printed.stdout =
            (cmdUnprotectSecret P' mem' args' console').map Printed.stdout → trimmed secret = trimmed secret' := by
  constructor
  · constructor
    · rintro hprints rfl
      exact not_printsSecret_nil h hprints
    · exact printsSecret_of_ne_nil h hvalid
  · intro P' mem' args' console' secret' h' hvalid' heq
    exact trimmed_eq_of_printed h hvalid h' hvalid' heq

end

/-! ### Legacy input -/

/-- Input without a dot, where the policy allows legacy input: it is handed out, as far as its length goes. -/
theorem unprotects_legacy (P : Providers) {args : CliArgs} {console : Console} (hjson : args.jsonOutput = true)
    (hpolicy : args.policy = PolicyOption.allowLegacy) (hinput : toolInput args console ≠ []) {secret : Bytes}
    (hsecret : (toolInput args console).take ((toolInput args console).length % 2 ^ 32) = secret) (hdot : dot ∉ secret) :
    Unprotects P .ample args console secret := by
  have hbuilt : PolicyEvaluator.ofNarrow P .ample args.policy secret = .ok (.ofLegacy args.policy) := by
    rw [PolicyEvaluator.ofNarrow, isRealJwt, rfind_eq_none hdot]
    cases find dot secret with
    | none => rfl
    | some i => rfl
  have hcompliant : (PolicyEvaluator.ofLegacy args.policy).isCompliant .ample = .ok true := by
    rw [PolicyEvaluator.isCompliant_ofLegacy, hpolicy]
    rfl
  have hcall : unprotectCall P .ample args console =
      (.ok (secret.length : Int), ⟨handedOut secret, some PayloadFeature.legacy⟩) := by
    have hbuffer : ¬(!secret.isEmpty && Memory.ample .outputBuffer) = true := by simp [Memory.ample]
    have hgather : gatherData P .ample (.ofLegacy args.policy) secret (fun plaintextData => .ok (.ok plaintextData)) =
        .ok (.ok secret) := rfl
    rw [unprotectCall, hsecret, unprotectSecret, exec_unprotectWith, hbuilt]
    simp only [PolicyEvaluator.getEvaluatedPolicy_ofLegacy, finish, hcompliant, hgather, if_neg hbuffer]
  exact ⟨hjson, hinput, congrArg Prod.fst hcall, congrArg (fun run => run.2.outputSecret) hcall⟩

def legacyArgs (token : Bytes) : CliArgs := ⟨ascii "unprotect-secret", token, PolicyOption.allowLegacy, false, false, true⟩

/-- A secret with a quotation mark, a reverse solidus and a null byte at its end. -/
theorem cmdUnprotectSecret_prints :
    PrintsSecret (Sample.providers []) .ample (legacyArgs (ascii "p\"w\\" ++ [0])) ⟨[], false⟩ (ascii "p\"w\\" ++ [0]) := by
  have hunprotects : Unprotects (Sample.providers []) .ample (legacyArgs (ascii "p\"w\\" ++ [0])) ⟨[], false⟩
      (ascii "p\"w\\" ++ [0]) := unprotects_legacy _ rfl rfl (by decide) rfl (by decide)
  exact (cmdUnprotectSecret_prints_iff hunprotects rfl).1.2 (by decide)

/-- Input whose length is cut to zero: the library returns an empty secret, and the tool prints an error. -/
theorem cmdUnprotectSecret_empty :
    Unprotects (Sample.providers []) .ample (legacyArgs []) ⟨List.replicate (2 ^ 32) 97, false⟩ [] ∧
      ¬PrintsSecret (Sample.providers []) .ample (legacyArgs []) ⟨List.replicate (2 ^ 32) 97, false⟩ [] := by
  have hinput : toolInput (legacyArgs []) ⟨List.replicate (2 ^ 32) 97, false⟩ = List.replicate (2 ^ 32) 97 := rfl
  have hunprotects : Unprotects (Sample.providers []) .ample (legacyArgs []) ⟨List.replicate (2 ^ 32) 97, false⟩ [] := by
    refine unprotects_legacy _ rfl rfl ?_ ?_ List.not_mem_nil
    · rw [hinput]
      exact fun hnil => absurd (congrArg List.length hnil) (by rw [List.length_replicate]; decide)
    · rw [hinput, List.length_replicate, Nat.mod_self, List.take_zero]
  exact ⟨hunprotects, not_printsSecret_nil hunprotects⟩

end CvmAttestation.Tool
