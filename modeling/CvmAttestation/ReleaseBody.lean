import CvmAttestation.BaseJsonDoc
import CvmAttestation.ClientEvidence
import CvmAttestation.ReleaseRequest

/-! The two JSON texts that are put together by hand: the body of the request for a key, and the payload that is handed to
the attestation client. The nonce and the token stand in them as they are. -/

namespace CvmAttestation.Release

open Base

def nonceToken (nonce : Bytes) : Bytes := if nonce = [] then defaultNonce else nonce

/-- `client_payload_str` of `Util::GetMAAToken`. -/
def clientPayloadStr (nonce : Bytes) : Bytes := ascii "\x7b\"nonce\": \"" ++ nonceToken nonce ++ ascii "\"\x7d"

def encAlgorithm : Bytes := ascii "RSA_AES_KEY_WRAP_256"

/-- A text is a JSON object with these members and no others. -/
def Denotes (text : Bytes) (members : List (Bytes × Bytes)) : Prop :=
  ∃ xs, JsonDoc.read text = some (.object xs) ∧ xs.Perm (members.map JsonDoc.asGiven)

/-- The library reads an object of strings as it is, and keeps its members in an order of its own. -/
def ReadsObjects (J : Client.Jsoncpp) : Prop :=
  ∀ text members, (members.map Prod.fst).Nodup → Denotes text members →
    ∃ xs, J.parse text = .value (.object xs) ∧ xs.Perm (members.map JsonDoc.asGiven)

def bodyMembers (nonce attestationToken : Bytes) : List (Bytes × Bytes) :=
  [(ascii "nonce", nonceToken nonce), (ascii "target", attestationToken), (ascii "enc", encAlgorithm)]

/-- Both texts say what was given, and the attestation client finds the nonce in its payload. -/
structure TextsFaithful (J : Client.Jsoncpp) (nonce attestationToken : Bytes) : Prop where
  body : Denotes (requestBody nonce attestationToken) (bodyMembers nonce attestationToken)
  payload : Denotes (clientPayloadStr nonce) [(ascii "nonce", nonceToken nonce)]
  recovered : (Client.parseClientPayload J (Client.cStr (clientPayloadStr nonce))).Returns
    [(ascii "nonce", nonceToken nonce)]

section

variable (nonce attestationToken : Bytes)

theorem requestBody_eq :
    requestBody nonce attestationToken = JsonDoc.objectText [32] (bodyMembers nonce attestationToken) := by
  have hnonce : ascii "\x7b\"nonce\": \"" = 123 :: 34 :: (ascii "nonce" ++ [34, 58, 32, 34]) := rfl
  have htarget : ascii "\",\"target\": \"" = 34 :: 44 :: 34 :: (ascii "target" ++ [34, 58, 32, 34]) := rfl
  have henc : ascii "\",\"enc\": \"RSA_AES_KEY_WRAP_256\"\x7d" =
      34 :: 44 :: 34 :: (ascii "enc" ++ 34 :: 58 :: 32 :: 34 :: (encAlgorithm ++ [34, 125])) := rfl
  rw [requestBody, hnonce, htarget, henc, bodyMembers, JsonDoc.objectText_cons]
  simp [JsonDoc.memberText, nonceToken]

theorem clientPayloadStr_eq :
    clientPayloadStr nonce = JsonDoc.objectText [32] [(ascii "nonce", nonceToken nonce)] := by
  have hnonce : ascii "\x7b\"nonce\": \"" = 123 :: 34 :: (ascii "nonce" ++ [34, 58, 32, 34]) := rfl
  have hclose : ascii "\"\x7d" = [34, 125] := rfl
  rw [clientPayloadStr, hnonce, hclose, JsonDoc.objectText_cons]
  simp

end

theorem nodup_bodyMembers (nonce attestationToken : Bytes) : ((bodyMembers nonce attestationToken).map Prod.fst).Nodup := by
  unfold bodyMembers
  simp only [List.map_cons, List.map_nil]
  decide

theorem key_nonce : JsonDoc.Key (ascii "nonce") :=
  ⟨JsonDoc.plain_of_isText rfl, 110, ascii "once", rfl, rfl, by decide, by decide⟩

theorem key_target : JsonDoc.Key (ascii "target") :=
  ⟨JsonDoc.plain_of_isText rfl, 116, ascii "arget", rfl, rfl, by decide, by decide⟩

theorem key_enc : JsonDoc.Key (ascii "enc") :=
  ⟨JsonDoc.plain_of_isText rfl, 101, ascii "nc", rfl, rfl, by decide, by decide⟩

theorem space_isWs : ∀ c ∈ ([32] : Bytes), JsonDoc.isWs c = true := by
  intro c hc
  rw [List.mem_singleton.1 hc]
  rfl

theorem plain_nonceToken (nonce : Bytes) : JsonDoc.Plain (nonceToken nonce) ↔ JsonDoc.Plain nonce := by
  unfold nonceToken
  split_ifs with h
  · have hdefault : JsonDoc.Plain defaultNonce := JsonDoc.plain_of_isText rfl
    have hnil : JsonDoc.Plain nonce := h ▸ JsonDoc.plain_of_isText rfl
    exact iff_of_true hdefault hnil
  · exact Iff.rfl

theorem valid_nonceToken {nonce : Bytes} (h : Utf8.valid nonce = true) : Utf8.valid (nonceToken nonce) = true := by
  unfold nonceToken
  split_ifs
  · exact JsonDoc.valid_of_isText rfl
  · exact h

theorem denotes_body_iff {nonce : Bytes} (attestationToken : Bytes) (hnonce : Utf8.valid nonce = true) :
    Denotes (requestBody nonce attestationToken) (bodyMembers nonce attestationToken) ↔
      JsonDoc.Plain nonce ∧ JsonDoc.Plain attestationToken ∧ Utf8.valid attestationToken = true := by
  have hkeys : ∀ m ∈ bodyMembers nonce attestationToken, JsonDoc.Key m.1 := by
    rw [bodyMembers, List.forall_mem_cons, List.forall_mem_cons, List.forall_mem_cons]
    exact ⟨key_nonce, key_target, key_enc, nofun⟩
  have hvalid : (∀ m ∈ bodyMembers nonce attestationToken, Utf8.valid m.1 = true ∧ Utf8.valid m.2 = true) ↔
      Utf8.valid attestationToken = true := by
    rw [bodyMembers, List.forall_mem_cons, List.forall_mem_cons, List.forall_mem_cons]
    constructor
    · exact fun h => h.2.1.2
    · intro h
      exact ⟨⟨JsonDoc.valid_of_isText rfl, valid_nonceToken hnonce⟩, ⟨JsonDoc.valid_of_isText rfl, h⟩,
        ⟨JsonDoc.valid_of_isText rfl, JsonDoc.valid_of_isText rfl⟩, nofun⟩
  have hplain : (∀ m ∈ bodyMembers nonce attestationToken, JsonDoc.Plain m.2) ↔
      JsonDoc.Plain nonce ∧ JsonDoc.Plain attestationToken := by
    rw [bodyMembers, List.forall_mem_cons, List.forall_mem_cons, List.forall_mem_cons]
    constructor
    · exact fun h => ⟨(plain_nonceToken nonce).1 h.1, h.2.1⟩
    · exact fun h => ⟨(plain_nonceToken nonce).2 h.1, h.2, JsonDoc.plain_of_isText rfl, nofun⟩
  have hspace : Utf8.valid ([32] : Bytes) = true := JsonDoc.valid_of_isText rfl
  rw [Denotes, requestBody_eq, JsonDoc.read_objectText_iff space_isWs hkeys (nodup_bodyMembers nonce attestationToken),
    JsonDoc.valid_objectText hspace, hvalid, hplain, and_comm, and_assoc]

theorem denotes_payload_iff {nonce : Bytes} (hnonce : Utf8.valid nonce = true) :
    Denotes (clientPayloadStr nonce) [(ascii "nonce", nonceToken nonce)] ↔ JsonDoc.Plain nonce := by
  have hspace : Utf8.valid ([32] : Bytes) = true := JsonDoc.valid_of_isText rfl
  have hkeys : ∀ m ∈ [(ascii "nonce", nonceToken nonce)], JsonDoc.Key m.1 := List.forall_mem_singleton.2 key_nonce
  rw [Denotes, clientPayloadStr_eq, JsonDoc.read_objectText_iff space_isWs hkeys (List.nodup_singleton _),
    JsonDoc.valid_objectText hspace, List.forall_mem_singleton, List.forall_mem_singleton, plain_nonceToken]
  exact and_iff_right ⟨JsonDoc.valid_of_isText rfl, valid_nonceToken hnonce⟩

/-- A payload whose nonce stands for itself has no byte that ends a C string. -/
theorem cStr_clientPayloadStr {nonce : Bytes} (h : JsonDoc.Plain nonce) :
    Client.cStr (clientPayloadStr nonce) = clientPayloadStr nonce := by
  have hopen : (ascii "\x7b\"nonce\": \"").all (fun c => decide (c ≠ 0)) = true := rfl
  have hclose : (ascii "\"\x7d").all (fun c => decide (c ≠ 0)) = true := rfl
  have htoken : (nonceToken nonce).all (fun c => decide (c ≠ 0)) = true := by
    rw [List.all_eq_true]
    intro c hc
    rw [decide_eq_true_eq]
    rintro rfl
    exact absurd ((plain_nonceToken nonce).2 h 0 hc) (by decide)
  have hall : (clientPayloadStr nonce).all (fun c => decide (c ≠ 0)) = true := by
    rw [clientPayloadStr, List.all_append, List.all_append, hopen, htoken, hclose]
    rfl
  rw [Client.cStr, List.takeWhile_eq_self_iff]
  exact fun c hc => List.all_eq_true.1 hall c hc

theorem parseClientPayload_clientPayloadStr {J : Client.Jsoncpp} (hJ : ReadsObjects J) {nonce : Bytes}
    (hnonce : Utf8.valid nonce = true) (h : JsonDoc.Plain nonce) :
    (Client.parseClientPayload J (Client.cStr (clientPayloadStr nonce))).Returns
      [(ascii "nonce", nonceToken nonce)] := by
  obtain ⟨xs, hparse, hperm⟩ := hJ _ [(ascii "nonce", nonceToken nonce)] (List.nodup_singleton _)
    ((denotes_payload_iff hnonce).2 h)
  rw [List.map_singleton, List.perm_singleton] at hperm
  rw [cStr_clientPayloadStr h, Client.parseClientPayload, Client.parse, hparse, hperm]
  rfl

/-- **The texts say what was given** exactly when nonce and token have no quotation mark, no reverse solidus and no
control character, and the token is a text of characters. -/
theorem textsFaithful_iff {J : Client.Jsoncpp} (hJ : ReadsObjects J) {nonce : Bytes} (attestationToken : Bytes)
    (hnonce : Utf8.valid nonce = true) :
    TextsFaithful J nonce attestationToken ↔
      JsonDoc.Plain nonce ∧ JsonDoc.Plain attestationToken ∧ Utf8.valid attestationToken = true := by
  constructor
  · intro h
    exact (denotes_body_iff attestationToken hnonce).1 h.body
  · intro h
    exact ⟨(denotes_body_iff attestationToken hnonce).2 h, (denotes_payload_iff hnonce).2 h.1,
      parseClientPayload_clientPayloadStr hJ hnonce h.1⟩

/-! ### A nonce that names another algorithm -/

/-- A library that reads JSON texts as the standard has them. -/
def standardJsoncpp : Client.Jsoncpp where
  parse text :=
    match JsonDoc.read text with
    | some j => .value j
    | none => .fails
  realText _ := []

theorem standardJsoncpp_readsObjects : ReadsObjects standardJsoncpp := by
  rintro text members - ⟨xs, hread, hperm⟩
  refine ⟨xs, ?_, hperm⟩
  simp only [standardJsoncpp, hread]

theorem textsFaithful_example : TextsFaithful standardJsoncpp (ascii "n-17") (ascii "eyJhbGciOiJSUzI1NiJ9.e30.c2ln") :=
  (textsFaithful_iff standardJsoncpp_readsObjects _ (JsonDoc.valid_of_isText rfl)).2
    ⟨JsonDoc.plain_of_isText rfl, JsonDoc.plain_of_isText rfl, JsonDoc.valid_of_isText rfl⟩

def craftedNonce : Bytes := ascii "n-17\",\"enc\":\"CKM_RSA_AES_KEY_WRAP"

theorem textsFaithful_crafted : ¬TextsFaithful standardJsoncpp craftedNonce (ascii "eyJhbGciOiJSUzI1NiJ9.e30.c2ln") := by
  intro h
  have hvalid : Utf8.valid craftedNonce = true := by
    apply Utf8.valid_of_ascii
    intro c hc
    have hall : craftedNonce.all (fun c => decide (c.toNat < 0x80)) = true := rfl
    simpa using List.all_eq_true.1 hall c hc
  have hquote : (34 : UInt8) ∈ craftedNonce := by decide
  exact absurd (((denotes_body_iff _ hvalid).1 h.body).1 34 hquote) (by decide)

end CvmAttestation.Release
