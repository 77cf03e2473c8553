import CvmAttestation.ClientEncoders
import Mathlib.Data.List.DropRight

/-! The key in a token, and `Encrypt`, which encrypts to it. The claims of a token are base64 for URLs;
`ExtractJwkInfoFromAttestationJwt` decodes them with the alphabet that has `+` and `/`, and cuts the zero bytes off the
end of what it decodes. -/

namespace CvmAttestation.Client

open Base

/-- `attest::base64::base64_decode`. -/
def base64Decode (data : Bytes) : Except Exc Bytes :=
  match Base64.decodeRaw data with
  | none => .error .dataflow
  | some v => .ok (v.rdropWhile (· == 0))

/-- `operator[](0)`; an array without elements, and null, get one that is null. -/
def indexZero : Json → Except Exc Json
  | .null => .ok .null
  | .array xs => .ok (xs.headD .null)
  | _ => .error .jsonLogicError

def dot : UInt8 := 46

section

variable (J : Jsoncpp)

def keyInfo (root : Json) : Except Exc (Bytes × Bytes) := do
  let runtime ← get root (ascii "x-ms-runtime") .null
  let keys ← get runtime (ascii "keys") .null
  let key ← indexZero keys
  let nBase64url ← indexString J key (ascii "n")
  let eBase64url ← indexString J key (ascii "e")
  return (nBase64url, eBase64url)

/-- The body of the `try` block, `none` where it returns `false`. -/
def jwkInfo (jwt : Bytes) : Except Exc (Option (Bytes × Bytes)) := do
  let tokens := jwt.splitOn dot
  if tokens.length < 3 then return none
  else
    let claims ← base64Decode (tokens.getD 1 [])
    match J.parse claims with
    | .raises => throw .jsonRuntimeError
    | .fails => return none
    | .value root => return some (← keyInfo J root)

/-- `ExtractJwkInfoFromAttestationJwt`: the two strings `n` and `e`, or `false`. -/
def extractJwkInfoFromAttestationJwt (jwt : Bytes) : Option (Bytes × Bytes) :=
  if jwt.isEmpty then none
  else
    match jwkInfo J jwt with
    | .ok info => info
    | .error _ => none

end

/-! ### `Encrypt` -/

inductive RsaScheme
  | rsaEs
  | rsaOaep
  | rsaNull
  deriving DecidableEq, Repr

inductive RsaHashAlg
  | rsaSha1
  | rsaSha256
  | rsaSha384
  | rsaSha512
  deriving DecidableEq, Repr

/-- The functions of the namespace `crypto`, over OpenSSL. Neither fails with the code of a token without a key. -/
structure Crypto where
  Key : Type
  convertJwkToRsaPubKey : (n e : Bytes) → Except Failure Key
  encryptDataWithRSAPubKey : Key → RsaScheme → RsaHashAlg → Bytes → Except Failure Bytes
  convert_code : ∀ n e f, convertJwkToRsaPubKey n e = .error f → f.result.code ≠ .extractingJwkInfo
  encrypt_code : ∀ key scheme alg data f, encryptDataWithRSAPubKey key scheme alg data = .error f →
    f.result.code ≠ .extractingJwkInfo

/-- The arguments of `Encrypt`; `none` is a null pointer. The encryption type is `NONE`, the only one there is. -/
structure EncryptArgs where
  jwtToken : Option Bytes
  data : Option Bytes
  hasOutputs : Bool
  rsaWrapAlgId : RsaScheme
  rsaHashAlgId : RsaHashAlg

theorem invalidInputParameter_ne : ErrorCode.invalidInputParameter ≠ .success := nofun

theorem extractingJwkInfo_ne : ErrorCode.extractingJwkInfo ≠ .success := nofun

def invalidInput : Failure :=
  ⟨.failure .invalidInputParameter (ascii "Invalid input parameter"), invalidInputParameter_ne⟩

def extractingJwkInfo : Failure :=
  ⟨.failure .extractingJwkInfo (ascii "Error while extracting JWK info from JWT"), extractingJwkInfo_ne⟩

/-- `AttestationClientImpl::Encrypt`. The token is read up to its first zero byte. -/
def encrypt (J : Jsoncpp) (K : Crypto) (args : EncryptArgs) : Except Failure Bytes :=
  match args.jwtToken, args.data with
  | some jwtToken, some data =>
    if data.isEmpty || !args.hasOutputs then .error invalidInput
    else
      match extractJwkInfoFromAttestationJwt J (cStr jwtToken) with
      | none => .error extractingJwkInfo
      | some (n, e) => do
        let pkey ← K.convertJwkToRsaPubKey n e
        K.encryptDataWithRSAPubKey pkey args.rsaWrapAlgId args.rsaHashAlgId data
  | _, _ => .error invalidInput

/-! ### Tokens -/

/-- A text of `C`: the parser reads `C`, and like every text of JSON it does not end in a zero byte. -/
structure TextOf (J : Jsoncpp) (C : Json) (text : Bytes) : Prop where
  parses : J.parse text = .value C
  last : text.getLast? ≠ some 0

/-- The claims hold a key with the strings `n` and `e`. -/
inductive HoldsKey (n e : Bytes) : Json → Prop
  | intro {C runtime key : Json} {keys : List Json} (hruntime : C.member? (ascii "x-ms-runtime") = some runtime)
    (hkeys : runtime.member? (ascii "keys") = some (.array (key :: keys)))
    (hn : key.member? (ascii "n") = some (.string n)) (he : key.member? (ascii "e") = some (.string e)) :
    HoldsKey n e C

/-- A token whose claims have the given text. -/
def tokenOf (header text signature : Bytes) : Bytes :=
  header ++ dot :: (binaryToBase64url text ++ dot :: signature)

/-- No character in which the two alphabets differ. -/
def Shared (text : Bytes) : Prop := ∀ c ∈ binaryToBase64url text, c ≠ 45 ∧ c ≠ 95

instance (text : Bytes) : Decidable (Shared text) :=
  List.decidableBAll (fun c => c ≠ 45 ∧ c ≠ 95) (binaryToBase64url text)

section

variable {J : Jsoncpp} {C : Json} {text n e header signature : Bytes}

theorem get_member {j v : Json} {k : Bytes} (h : j.member? k = some v) (d : Json) : get j k d = .ok v := by
  cases j with
  | object ms =>
      rw [get, show ms.lookup k = some v from h]
      rfl
  | _ => cases h

theorem keyInfo_of_holds (h : HoldsKey n e C) : keyInfo J C = .ok (n, e) := by
  cases h with
  | intro hruntime hkeys hn he =>
      rw [keyInfo, get_member hruntime, ok_bind, get_member hkeys, ok_bind, indexZero, ok_bind, List.headD_cons,
        indexString, get_member hn, ok_bind, indexString, get_member he, ok_bind]
      rfl

theorem dot_not_mem_encodeUrl (v : Bytes) : dot ∉ binaryToBase64url v := by
  have hchar : ∀ n < 64, Base64.toUrl (Base64.char n) ≠ dot := by decide
  intro h
  obtain ⟨c, hc, heq⟩ := List.mem_map.1 h
  obtain ⟨m, hm, rfl⟩ := Base64.mem_encodeRaw hc
  exact hchar m hm heq

theorem splitOn_tokenOf (hheader : dot ∉ header) (hsignature : dot ∉ signature) :
    (tokenOf header text signature).splitOn dot = [header, binaryToBase64url text, signature] := by
  rw [tokenOf, List.splitOn_append_cons_self_of_not_mem hheader,
    List.splitOn_append_cons_self_of_not_mem (dot_not_mem_encodeUrl text), List.splitOn_eq_singleton hsignature]

/-- Where the alphabets agree, the text is the same in both. -/
theorem binaryToBase64url_shared (h : Shared text) : binaryToBase64url text = Base64.encodeRaw text := by
  have hid : ∀ c ∈ Base64.encodeRaw text, Base64.toUrl c = id c := by
    intro c hc
    obtain ⟨hplus, hslash⟩ := h (Base64.toUrl c) (List.mem_map_of_mem hc)
    rw [Base64.toUrl] at hplus hslash ⊢
    split_ifs at hplus hslash ⊢ with h43 h47
    · exact absurd rfl hplus
    · exact absurd rfl hslash
    · rfl
  calc binaryToBase64url text = (Base64.encodeRaw text).map Base64.toUrl := rfl
    _ = (Base64.encodeRaw text).map id := List.map_congr_left hid
    _ = Base64.encodeRaw text := List.map_id _

theorem base64Decode_shared (h : Shared text) (hlast : text.getLast? ≠ some 0) :
    base64Decode (binaryToBase64url text) = .ok text := by
  have htrim : text.rdropWhile (· == 0) = text := by
    rw [List.rdropWhile_eq_self_iff]
    intro hne hzero
    exact hlast ((List.getLast_eq_iff_getLast?_eq_some hne).1 (by simpa using hzero))
  rw [base64Decode, binaryToBase64url_shared h, Base64.decodeRaw_encodeRaw]
  exact congrArg Except.ok htrim

/-- The decoder stops at the first character of the other alphabet. -/
theorem base64Decode_not_shared (h : ¬Shared text) : base64Decode (binaryToBase64url text) = .error .dataflow := by
  have hraw : Base64.decodeRaw (binaryToBase64url text) = none := by
    rw [← Option.not_isSome_iff_eq_none, Option.isSome_iff_exists, Base64.decodeRaw_returns_iff]
    intro hreadable
    refine h fun c hc => ⟨?_, ?_⟩
    · rintro rfl
      cases hreadable.2 45 hc
    · rintro rfl
      cases hreadable.2 95 hc
  rw [base64Decode, hraw]

theorem tokenOf_ne_nil : (tokenOf header text signature).isEmpty = false := by
  rw [tokenOf, List.isEmpty_eq_false_iff]
  exact List.append_ne_nil_of_right_ne_nil _ (List.cons_ne_nil _ _)

/-- The key is found if the alphabets agree on the claims, and otherwise the call returns `false`. -/
theorem extractJwkInfo_tokenOf (htext : TextOf J C text) (hkey : HoldsKey n e C) (hheader : dot ∉ header)
    (hsignature : dot ∉ signature) :
    extractJwkInfoFromAttestationJwt J (tokenOf header text signature) =
      if Shared text then some (n, e) else none := by
  rw [extractJwkInfoFromAttestationJwt, tokenOf_ne_nil, if_neg Bool.false_ne_true, jwkInfo,
    splitOn_tokenOf hheader hsignature]
  change (match (base64Decode (binaryToBase64url text) >>= _ : Except Exc (Option (Bytes × Bytes))) with
    | .ok info => info
    | .error _ => none) = _
  split_ifs with h
  · rw [base64Decode_shared h htext.last, ok_bind, htext.parses]
    change (match (keyInfo J C >>= _ : Except Exc (Option (Bytes × Bytes))) with
      | .ok info => info
      | .error _ => none) = _
    rw [keyInfo_of_holds hkey]
    rfl
  · rw [base64Decode_not_shared h]
    rfl

theorem encrypt_tokenOf (htext : TextOf J C text) (hkey : HoldsKey n e C) (hheader : dot ∉ header)
    (hsignature : dot ∉ signature) (K : Crypto) (scheme : RsaScheme) (alg : RsaHashAlg) {data jwtToken : Bytes}
    (hdata : data ≠ []) (htoken : cStr jwtToken = tokenOf header text signature) :
    encrypt J K ⟨some jwtToken, some data, true, scheme, alg⟩ =
      if Shared text then (do
        let pkey ← K.convertJwkToRsaPubKey n e
        K.encryptDataWithRSAPubKey pkey scheme alg data)
      else .error extractingJwkInfo := by
  have hvalid : ¬(data.isEmpty || !true) = true := by simpa using hdata
  rw [encrypt]
  dsimp only
  rw [if_neg hvalid, htoken, extractJwkInfo_tokenOf htext hkey hheader hsignature]
  by_cases h : Shared text
  · rw [if_pos h, if_pos h]
  · rw [if_neg h, if_neg h]

/-- What fails after the key was found fails for another reason. -/
theorem Crypto.code_ne (K : Crypto) (scheme : RsaScheme) (alg : RsaHashAlg) (data : Bytes) {f : Failure}
    (h : (do
      let pkey ← K.convertJwkToRsaPubKey n e
      K.encryptDataWithRSAPubKey pkey scheme alg data) = .error f) : f.result.code ≠ .extractingJwkInfo := by
  cases hconvert : K.convertJwkToRsaPubKey n e with
  | error f' =>
      rw [hconvert] at h
      cases h
      exact K.convert_code n e f hconvert
  | ok pkey =>
      rw [hconvert, ok_bind] at h
      exact K.encrypt_code pkey scheme alg data f h

end

/-- **The key in a token** is found, and `Encrypt` does not fail for want of it, exactly when no character of the encoded
claims is one in which the two alphabets differ. -/
theorem extractJwkInfo_iff (J : Jsoncpp) (C : Json) (text n e header signature : Bytes) (htext : TextOf J C text)
    (hkey : HoldsKey n e C) (hheader : dot ∉ header) (hsignature : dot ∉ signature) :
    (extractJwkInfoFromAttestationJwt J (tokenOf header text signature) = some (n, e) ↔ Shared text) ∧
      ∀ (K : Crypto) (scheme : RsaScheme) (alg : RsaHashAlg) (data jwtToken : Bytes), data ≠ [] →
        cStr jwtToken = tokenOf header text signature →
          ((∀ f, encrypt J K ⟨some jwtToken, some data, true, scheme, alg⟩ = .error f →
            f.result.code ≠ .extractingJwkInfo) ↔ Shared text) := by
  constructor
  · rw [extractJwkInfo_tokenOf htext hkey hheader hsignature]
    by_cases h : Shared text
    · rw [if_pos h]
      exact iff_of_true rfl h
    · rw [if_neg h]
      exact iff_of_false (fun h' => by cases h') h
  · intro K scheme alg data jwtToken hdata htoken
    rw [encrypt_tokenOf htext hkey hheader hsignature K scheme alg hdata htoken]
    by_cases h : Shared text
    · rw [if_pos h]
      exact iff_of_true (fun f hf => K.code_ne scheme alg data hf) h
    · rw [if_neg h]
      exact iff_of_false (fun hcode => hcode extractingJwkInfo rfl rfl) h

namespace SampleJwk

def runtime : Json :=
  .object [(ascii "keys", .array [.object [(ascii "e", .string (ascii "Aw")), (ascii "n", .string (ascii "AQ"))]])]

def claims : Json := .object [(ascii "x-ms-runtime", runtime)]

def claimsText : Bytes := ascii "\x7b\"x-ms-runtime\":\x7b\"keys\":[\x7b\"n\":\"AQ\",\"e\":\"Aw\"\x7d]\x7d\x7d"

/-- The same claims and a question mark. -/
def claimsWithId : Json := .object [(ascii "id", .string (ascii "?")), (ascii "x-ms-runtime", runtime)]

def claimsWithIdText : Bytes :=
  ascii "\x7b\"x-ms-runtime\":\x7b\"keys\":[\x7b\"n\":\"AQ\",\"e\":\"Aw\"\x7d]\x7d,\"id\":\"?\"\x7d"

def json : Jsoncpp where
  parse text :=
    if text = claimsText then .value claims else if text = claimsWithIdText then .value claimsWithId else .fails
  realText _ := ascii "0.0"

theorem holdsKey {members : List (Bytes × Json)} (h : members.lookup (ascii "x-ms-runtime") = some runtime) :
    HoldsKey (ascii "AQ") (ascii "Aw") (.object members) := .intro h rfl rfl rfl

end SampleJwk

/-- A token whose claims are encoded alike in both alphabets. -/
theorem extractJwkInfo_claims :
    extractJwkInfoFromAttestationJwt SampleJwk.json (tokenOf (ascii "h") SampleJwk.claimsText (ascii "s")) =
      some (ascii "AQ", ascii "Aw") :=
  (extractJwkInfo_iff SampleJwk.json SampleJwk.claims SampleJwk.claimsText (ascii "AQ") (ascii "Aw") (ascii "h")
    (ascii "s") ⟨rfl, by decide⟩ (SampleJwk.holdsKey rfl) (by decide) (by decide)).1.2 (by decide)

/-- The question mark is encoded as `_`, and the key of the token is not found. -/
theorem extractJwkInfo_claimsWithId :
    TextOf SampleJwk.json SampleJwk.claimsWithId SampleJwk.claimsWithIdText ∧
      HoldsKey (ascii "AQ") (ascii "Aw") SampleJwk.claimsWithId ∧
      extractJwkInfoFromAttestationJwt SampleJwk.json
          (tokenOf (ascii "h") SampleJwk.claimsWithIdText (ascii "s")) = none ∧
      ∀ K scheme alg, encrypt SampleJwk.json K
          ⟨some (tokenOf (ascii "h") SampleJwk.claimsWithIdText (ascii "s")), some [1], true, scheme, alg⟩ =
        .error extractingJwkInfo :=
  ⟨⟨rfl, by decide⟩, SampleJwk.holdsKey rfl, by decide, fun _ _ _ => by rfl⟩

end CvmAttestation.Client
