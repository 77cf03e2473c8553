import CvmAttestation.SecretsRelease

/-! Creating a token. `CreateToken` joins three base64url texts with dots; `ParseToken` and `isRealJwt` cut a token up
again, each in its own way. On what `CreateToken` returns they find the same three texts, because no base64url text
holds a dot, and decoding undoes encoding for data of every length. -/

namespace CvmAttestation.Secrets

open Base

/-! ### Encoding and decoding -/

namespace Encoders

/-- `+` and `/` in the alphabet for URLs. -/
def toUrl (c : UInt8) : UInt8 := if c = 43 then 45 else if c = 47 then 95 else c

theorem ofUrl_toUrl {c : UInt8} (h45 : c ≠ 45) (h95 : c ≠ 95) :
    (if toUrl c = 45 then 43 else if toUrl c = 95 then 47 else toUrl c) = c := by
  rw [toUrl]
  split_ifs <;> simp_all

theorem mem_encode {v : Bytes} {c : UInt8} (h : c ∈ Base64.encode v) : c ≠ 45 ∧ c ≠ 95 ∧ c ≠ dot := by
  rw [Base64.encode, List.mem_append] at h
  rcases h with h | h
  · obtain ⟨n, hn, rfl⟩ := Base64.mem_encodeRaw h
    clear h
    revert n
    decide
  · rw [List.eq_of_mem_replicate h]
    decide

theorem base64Decode_encode (v : Bytes) : base64Decode (base64Encode v) = .ok v := by
  have hcount : (base64Encode v).count Base64.padChar = Base64.padding v.length := Base64.count_padChar_encode v
  have hlength : (v ++ List.replicate (Base64.padding v.length) 0).length = v.length + Base64.padding v.length := by
    rw [List.length_append, List.length_replicate]
  have hraw : Base64.decodeRaw (base64Encode v) = some (v ++ List.replicate (Base64.padding v.length) 0) :=
    Base64.decodeRaw_encode v
  rw [base64Decode, hraw]
  simp only [hcount, hlength, Nat.add_sub_cancel]
  rw [if_neg (by omega), List.take_left]

/-- **Decoding undoes encoding** in the alphabet for URLs. -/
theorem base64UrlDecode_encode (v : Bytes) : base64UrlDecode (base64UrlEncode v) = .ok v := by
  have hmap : (base64UrlEncode v).map (fun c => if c = 45 then 43 else if c = 95 then 47 else c) = base64Encode v := by
    have hid : ∀ c ∈ base64Encode v, (if toUrl c = 45 then 43 else if toUrl c = 95 then 47 else toUrl c) = c :=
      fun c hc => ofUrl_toUrl (mem_encode hc).1 (mem_encode hc).2.1
    rw [base64UrlEncode, List.map_map]
    exact (List.map_congr_left hid).trans (List.map_id' _)
  rw [base64UrlDecode, hmap, base64Decode_encode]

theorem dot_not_mem_encode (v : Bytes) : dot ∉ base64UrlEncode v := by
  intro h
  obtain ⟨c, hc, heq⟩ := List.mem_map.1 h
  have hne := (mem_encode hc).2.2
  split_ifs at heq
  · cases heq
  · cases heq
  · exact hne heq

theorem base64UrlEncode_ne_nil {v : Bytes} (h : v ≠ []) : base64UrlEncode v ≠ [] := by
  intro hnil
  exact Base64.encode_ne_nil h (List.map_eq_nil_iff.1 hnil)

end Encoders

/-! ### Creating -/

/-- The payload with the two times that `CreateToken` writes into it: `iat` and `exp` are taken from two calls of
`time(0)`. -/
def stamp (iat exp : Int) (payload : Json) : Except JsonError Json := do
  let jwt ← payload.set (ascii "iat") (.int iat)
  jwt.set (ascii "exp") (.int (exp + 1800))

/-- `JsonWebToken::CreateToken`: the token, and what the object holds afterwards. -/
def createToken (dump : Json → Except Exc Bytes) (iat exp : Int) (self : JsonWebToken) :
    Except Exc (Bytes × JsonWebToken) := do
  let header ← dump self.header
  let jwt ← ofJson (stamp iat exp self.jwt)
  let payload ← dump jwt
  let headerBase64 := Encoders.base64UrlEncode header
  let payloadBase64 := Encoders.base64UrlEncode payload
  let signatureBase64 := Encoders.base64UrlEncode self.signature
  return (headerBase64 ++ ascii "." ++ payloadBase64 ++ ascii "." ++ signatureBase64, { self with jwt := jwt })

theorem stamp_object {iat exp : Int} {payload : Json} (h : payload.isObject = true) (hutf8 : payload.utf8Ok = true) :
    ∃ stamped, stamp iat exp payload = .ok stamped ∧ stamped.isObject = true ∧ stamped.utf8Ok = true ∧
      ∀ key, stamped.member? key =
        if key = ascii "exp" then some (.int (exp + 1800))
        else if key = ascii "iat" then some (.int iat) else payload.member? key := by
  cases payload with
  | object ms =>
      rw [Json.utf8Ok] at hutf8
      refine ⟨_, rfl, rfl, ?_, fun key => ?_⟩
      · rw [Json.utf8Ok]
        apply Json.utf8OkMembers_setMember _ (by decide +kernel) rfl
        exact Json.utf8OkMembers_setMember hutf8 (by decide +kernel) rfl
      · simp only [Json.member?, Json.lookup_setMember]
  | _ => cases h

/-! ### Cutting up what was created -/

section

variable {P : Providers} {token a b d : Bytes} {header jwt : Json}

/-- `ParseToken` without verification, on three texts of which the first two are not empty. -/
theorem parseToken_of_segments (hs : Segments dot token a b d) (ha : a ≠ []) (hb : b ≠ [])
    (hheader : decodeJson P a = .ok header) (hjwt : decodeJson P b = .ok jwt) (self : JsonWebToken) (suffix : Bytes) :
    parseToken P .ample self token false suffix = .ok ⟨header, jwt, self.signature⟩ := by
  have hlen : ¬token.length < 2 := by
    rw [hs.eq]
    simp only [List.length_append, List.length_cons]
    omega
  have hne : ¬a.length = a.length + 1 + b.length := by omega
  have hsegment : ∀ {kept j : Json} {s : Bytes}, s ≠ [] → decodeJson P s = .ok j → parseSegment P kept s = .ok j := by
    intro kept j s hs hj
    have hempty : ¬s.isEmpty = true := by simpa using hs
    rw [parseSegment, if_neg hempty, hj]
    rfl
  simp only [parseToken, alloc, Memory.ample, Bool.false_eq_true, if_false, if_neg hlen, hs.find, hs.rfind, if_neg hne,
    hs.take_first, hs.middle, hs.drop_last, hsegment ha hheader, hsegment hb hjwt, Bool.not_false, Bool.or_true, if_true]
  rfl

/-- `isRealJwt` on three texts of which the first one is a header. -/
theorem isRealJwt_of_header (hs : Segments dot token a b d) (hheader : decodeJson P a = .ok header)
    (requiredFields : List (Bytes × Bytes)) :
    isRealJwt P .ample token requiredFields = .ok (headerMatches header requiredFields) := by
  rw [isRealJwt_of_segments hs, hheader]
  rfl

theorem headerMatches_iff (header : Json) (requiredFields : List (Bytes × Bytes)) :
    headerMatches header requiredFields = true ↔
      (∃ alg, header.member? (ascii "alg") = some (.string alg)) ∧
        ∀ field ∈ requiredFields, header.member? field.1 = some (.string field.2) := by
  rw [headerMatches, Bool.and_eq_true, List.all_eq_true]
  apply and_congr
  · cases header.member? (ascii "alg") with
    | none => simp
    | some alg => simp [Json.isString_iff]
  · apply forall_congr'
    intro field
    apply imp_congr_right
    intro _
    cases header.member? field.1 with
    | none => simp
    | some value => simp [Json.equalsString_iff]

end

/-- The library with the decoder of its own. -/
def Providers.withEncoders (P : Providers) : Providers := { P with base64UrlDecode := Encoders.base64UrlDecode }

/-- The parser undoes the writer on a value. -/
def Undone (P : Providers) (j : Json) : Prop := ∃ text, P.dump j = .ok text ∧ P.parse text = .ok j

theorem decodeJson_encode {P : Providers} {j : Json} {text : Bytes} (h : P.parse text = .ok j) :
    decodeJson P.withEncoders (Encoders.base64UrlEncode text) = .ok j := by
  have hdecode : P.withEncoders.base64UrlDecode (Encoders.base64UrlEncode text) = .ok text :=
    Encoders.base64UrlDecode_encode text
  rw [decodeJson, hdecode]
  exact h

/-- **What `CreateToken` returns is read back.** The parser of the JSON library is taken to undo its writer on the header
and on the payload with its times, and to refuse an empty text. -/
theorem createToken_parses (P : Providers) (iat exp : Int) (header payload : Json) (signature suffix : Bytes)
    (hheader : header.isObject = true) (hheaderUtf8 : header.utf8Ok = true) (hpayload : payload.isObject = true)
    (hpayloadUtf8 : payload.utf8Ok = true)
    (hundone : ∀ j, j = header ∨ stamp iat exp payload = .ok j → j.isObject = true → j.utf8Ok = true → Undone P j)
    (hempty : ∀ j, P.parse [] ≠ .ok j) :
    ∃ token stamped,
      createToken P.dump iat exp ⟨header, payload, signature⟩ = .ok (token, ⟨header, stamped, signature⟩) ∧
      (∀ key, stamped.member? key =
        if key = ascii "exp" then some (.int (exp + 1800))
        else if key = ascii "iat" then some (.int iat) else payload.member? key) ∧
      token.count dot = 2 ∧
      parseToken P.withEncoders .ample .new token false suffix = .ok ⟨header, stamped, []⟩ ∧
      (∃ last, rfind dot token = some last ∧ Encoders.base64UrlDecode (token.drop (last + 1)) = .ok signature) ∧
      ∀ requiredFields, ∃ accepted, isRealJwt P.withEncoders .ample token requiredFields = .ok accepted ∧
        (accepted = true ↔ (∃ alg, header.member? (ascii "alg") = some (.string alg)) ∧
          ∀ field ∈ requiredFields, header.member? field.1 = some (.string field.2)) := by
  obtain ⟨stamped, hstamp, hobject, hutf8, hmembers⟩ := @stamp_object iat exp payload hpayload hpayloadUtf8
  obtain ⟨htext, hdump, hparse⟩ := hundone header (.inl rfl) hheader hheaderUtf8
  obtain ⟨ptext, hdump', hparse'⟩ := hundone stamped (.inr hstamp) hobject hutf8
  have hnonempty : ∀ {text : Bytes} {j : Json}, P.parse text = .ok j → Encoders.base64UrlEncode text ≠ [] := by
    intro text j hj
    apply Encoders.base64UrlEncode_ne_nil
    rintro rfl
    exact hempty j hj
  have hdot : ascii "." = [dot] := by decide
  have hsegments : Segments dot (Encoders.base64UrlEncode htext ++ ascii "." ++ Encoders.base64UrlEncode ptext ++
      ascii "." ++ Encoders.base64UrlEncode signature) (Encoders.base64UrlEncode htext)
      (Encoders.base64UrlEncode ptext) (Encoders.base64UrlEncode signature) :=
    ⟨by simp [hdot], Encoders.dot_not_mem_encode htext, Encoders.dot_not_mem_encode ptext,
      Encoders.dot_not_mem_encode signature⟩
  refine ⟨_, stamped, ?_, hmembers, hsegments.count, ?_, ⟨_, hsegments.rfind, ?_⟩, fun requiredFields => ?_⟩
  · simp only [createToken, hdump, hstamp, ofJson, hdump', bind, Except.bind, pure, Except.pure]
  · exact parseToken_of_segments hsegments (hnonempty hparse) (hnonempty hparse') (decodeJson_encode hparse)
      (decodeJson_encode hparse') .new suffix
  · rw [hsegments.drop_last]
    exact Encoders.base64UrlDecode_encode signature
  · exact ⟨_, isRealJwt_of_header hsegments (decodeJson_encode hparse) requiredFields,
      headerMatches_iff header requiredFields⟩

namespace Sample

def createdHeader : Json := .object [(ascii "alg", .string (ascii "RS256"))]

def createdPayload : Json := .object [(ascii "exp", .int 1801), (ascii "iat", .int 1)]

/-- A JSON library that knows these two objects. -/
def creating : Providers :=
  { providers [] with
    parse := fun text =>
      if text = ascii "\x7b\"alg\":\"RS256\"\x7d" then .ok createdHeader
      else if text = ascii "\x7b\"exp\":1801,\"iat\":1\x7d" then .ok createdPayload
      else .error (.json .parseError)
    dump := fun j =>
      if j.contains (ascii "alg") then .ok (ascii "\x7b\"alg\":\"RS256\"\x7d")
      else .ok (ascii "\x7b\"exp\":1801,\"iat\":1\x7d") }

end Sample

/-- An empty payload, one second after the epoch, and a signature of one byte. -/
theorem createToken_parses_sample :
    ∃ token stamped, createToken Sample.creating.dump 1 1 ⟨Sample.createdHeader, .object [], [7]⟩ =
        .ok (token, ⟨Sample.createdHeader, stamped, [7]⟩) ∧
      stamped.member? (ascii "iat") = some (.int 1) ∧ token.count dot = 2 ∧
        parseToken Sample.creating.withEncoders .ample .new token false subjectNameSuffix =
          .ok ⟨Sample.createdHeader, stamped, []⟩ := by
  have hstamp : stamp 1 1 (.object []) = .ok Sample.createdPayload := by rfl
  have hundone : ∀ j, j = Sample.createdHeader ∨ stamp 1 1 (.object []) = .ok j → j.isObject = true →
      j.utf8Ok = true → Undone Sample.creating j := by
    rintro j (rfl | hj) - -
    · exact ⟨_, rfl, rfl⟩
    · obtain rfl : Sample.createdPayload = j := Except.ok.inj (hstamp.symm.trans hj)
      exact ⟨_, rfl, rfl⟩
  have hempty : ∀ j, Sample.creating.parse [] ≠ .ok j := nofun
  obtain ⟨token, stamped, hcreate, hmembers, hcount, hparse, -, -⟩ := createToken_parses Sample.creating 1 1
    Sample.createdHeader (.object []) [7] subjectNameSuffix rfl (by decide +kernel) rfl rfl hundone hempty
  refine ⟨token, stamped, hcreate, ?_, hcount, hparse⟩
  rw [hmembers, if_neg (by decide +kernel), if_pos rfl]

end CvmAttestation.Secrets
