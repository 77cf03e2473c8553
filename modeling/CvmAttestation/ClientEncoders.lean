import CvmAttestation.BaseBits
import CvmAttestation.ClientJson
import CvmAttestation.SecretsCreate

/-! The base64 functions of the two libraries, `encoders` of the secrets library and `attest::base64` of the attestation
library. Both decoders count the padding; the encoders differ in the padding of the alphabet for URLs. -/

namespace CvmAttestation.Client

open Base Secrets.Encoders

/-- `attest::base64::binary_to_base64` and `binary_to_base64url`. -/
def binaryToBase64 (binaryData : Bytes) : Bytes := Base64.encode binaryData

def binaryToBase64url (binaryData : Bytes) : Bytes := Base64.encodeUrl binaryData

/-! ### What the decoders accept -/

/-- What a refusal raises in the secrets library, and in the attestation library. -/
def secretsThrown : Base64.Refusal → Secrets.Exc
  | .text => .dataflow
  | .length => .lengthError

def thrown : Base64.Refusal → Exc
  | .text => .dataflow
  | .length => .lengthError

theorem secretsThrown_injective : Function.Injective secretsThrown := by
  intro a b h
  cases a <;> cases b <;> first | rfl | cases h

theorem thrown_injective : Function.Injective thrown := by
  intro a b h
  cases a <;> cases b <;> first | rfl | cases h

theorem base64Decode_eq (s : Bytes) : base64Decode s = (Base64.decodeCounted s).mapError secretsThrown := by
  rw [base64Decode, Base64.decodeCounted]
  cases Base64.decodeRaw s with
  | none => rfl
  | some decoded =>
      dsimp only
      split_ifs
      · rfl
      · rfl

theorem base64ToBinary_eq (s : Bytes) : base64ToBinary s = (Base64.decodeCounted s).mapError thrown := by
  rw [base64ToBinary, Base64.decodeCounted]
  cases Base64.decodeRaw s with
  | none => rfl
  | some decoded =>
      dsimp only
      by_cases h : decoded.length < s.count Base64.padChar
      · rw [if_pos h, if_neg (not_le.2 h)]
        rfl
      · rw [if_neg h, if_pos (not_lt.1 h)]
        rfl

/-- **The three decoders** return the bytes of padded base64, and refuse everything else as no base64, exactly on the
sound texts. -/
theorem decoders_lawful_iff (s : Bytes) :
    (Base64.Lawful .dataflow s (base64Decode s) ↔ Base64.Sound s) ∧
      (Base64.Lawful .dataflow (s.map Base64.fromUrl) (base64UrlDecode s) ↔ Base64.Sound (s.map Base64.fromUrl)) ∧
      (Base64.Lawful .dataflow s (base64ToBinary s) ↔ Base64.Sound s) := by
  have hsecrets : ∀ t, Base64.Lawful .dataflow t (base64Decode t) ↔ Base64.Sound t := by
    intro t
    rw [base64Decode_eq, ← Base64.decodeCounted_lawful_iff]
    exact Base64.lawful_mapError_iff secretsThrown_injective .text t _
  refine ⟨hsecrets s, hsecrets (s.map Base64.fromUrl), ?_⟩
  rw [base64ToBinary_eq, ← Base64.decodeCounted_lawful_iff]
  exact Base64.lawful_mapError_iff thrown_injective .text s _

/-- Padding inside of the text alters the bytes, padding after complete groups cuts one off, three padding characters are
accepted, and padding alone raises `std::length_error`. -/
theorem decoders_not_lawful :
    (base64Decode (ascii "QQ=Q") = .ok [65, 0] ∧ base64ToBinary (ascii "QQ=Q") = .ok [65, 0] ∧
      ¬Base64.Lawful .dataflow (ascii "QQ=Q") (base64Decode (ascii "QQ=Q"))) ∧
    (base64Decode (ascii "QUJD==") = .ok [65, 66] ∧ base64ToBinary (ascii "QUJD==") = .ok [65, 66] ∧
      ¬Base64.Lawful .dataflow (ascii "QUJD==") (base64Decode (ascii "QUJD=="))) ∧
    (base64Decode (ascii "Q===") = .ok [] ∧ base64ToBinary (ascii "Q===") = .ok [] ∧
      ¬Base64.Lawful .dataflow (ascii "Q===") (base64Decode (ascii "Q==="))) ∧
    (base64Decode (ascii "====") = .error .lengthError ∧ base64ToBinary (ascii "====") = .error .lengthError ∧
      ¬Base64.Lawful .dataflow (ascii "====") (base64Decode (ascii "===="))) := by
  have haltered : ¬∃ body k, Base64.Padded (ascii "QQ=Q") body k := fun ⟨body, k, hp⟩ => by
    have hdrop := hp.drop
    revert hdrop
    decide
  have hthree : ¬∃ body k, Base64.Padded (ascii "Q===") body k := fun ⟨body, k, hp⟩ => by
    have hcount := hp.count
    have hatMost := hp.atMost
    change 3 = k at hcount
    omega
  have halone : ¬∃ body k, Base64.Padded (ascii "====") body k := fun ⟨body, k, hp⟩ => by
    have hcount := hp.count
    have hatMost := hp.atMost
    change 4 = k at hcount
    omega
  refine ⟨⟨rfl, rfl, fun h => ?_⟩, ⟨rfl, rfl, fun h => ?_⟩, ⟨rfl, rfl, fun h => ?_⟩, rfl, rfl, fun h => ?_⟩
  · cases h.refused haltered
  · obtain ⟨body, k, hp, hgrouped⟩ := h.returned [65, 66] rfl
    have hlength := hp.length
    have hcount := hp.count
    have hbytes := hgrouped.length
    change 6 = body.length + k at hlength
    change 2 = k at hcount
    change 2 = 6 * body.length / 8 at hbytes
    omega
  · cases h.refused hthree
  · cases h.refused halone

/-! ### Round trips -/

theorem padChar_not_mem_encodeUrl (v : Bytes) : Base64.padChar ∉ binaryToBase64url v := by
  have htoUrl : ∀ n < 64, Base64.toUrl (Base64.char n) ≠ Base64.padChar := by decide
  intro h
  obtain ⟨c, hc, heq⟩ := List.mem_map.1 h
  obtain ⟨n, hn, rfl⟩ := Base64.mem_encodeRaw hc
  exact htoUrl n hn heq

/-- The padded text of the alphabet for URLs, mapped back. -/
theorem map_fromUrl_base64UrlEncode (v : Bytes) : (base64UrlEncode v).map Base64.fromUrl = Base64.encode v := by
  have hid : ∀ c ∈ base64Encode v, Base64.fromUrl (toUrl c) = c := fun c hc =>
    ofUrl_toUrl (mem_encode hc).1 (mem_encode hc).2.1
  calc (base64UrlEncode v).map Base64.fromUrl = (base64Encode v).map fun c => Base64.fromUrl (toUrl c) :=
        List.map_map
    _ = (base64Encode v).map id := List.map_congr_left hid
    _ = Base64.encode v := List.map_id _

theorem base64UrlDecode_encodeUrl (v : Bytes) : base64UrlDecode (binaryToBase64url v) = .ok v := by
  have hmap : (binaryToBase64url v).map (fun c => if c = 45 then 43 else if c = 95 then 47 else c) =
      Base64.encodeRaw v := Base64.map_fromUrl_encodeUrl v
  rw [base64UrlDecode, hmap, base64Decode, Base64.decodeRaw_encodeRaw]
  simp [Base64.count_padChar_encodeRaw]

theorem base64urlToBinary_base64UrlEncode (v : Bytes) : base64urlToBinary (base64UrlEncode v) = .ok v := by
  have hmap : (base64UrlEncode v).map (fun c => if c = 45 then 43 else if c = 95 then 47 else c) =
      Base64.encode v := map_fromUrl_base64UrlEncode v
  rw [base64urlToBinary, hmap, base64ToBinary_encode]

/-- **Every decoder undoes every encoder** of its alphabet, in one library and across the two. -/
theorem decoders_undo_encoders (v : Bytes) :
    (base64Decode (base64Encode v) = .ok v ∧ base64UrlDecode (base64UrlEncode v) = .ok v) ∧
    (base64ToBinary (binaryToBase64 v) = .ok v ∧ base64urlToBinary (binaryToBase64url v) = .ok v ∧
      Base64.padChar ∉ binaryToBase64url v) ∧
    (base64Decode (binaryToBase64 v) = .ok v ∧ base64UrlDecode (binaryToBase64url v) = .ok v) ∧
    (base64ToBinary (base64Encode v) = .ok v ∧ base64urlToBinary (base64UrlEncode v) = .ok v) :=
  ⟨⟨base64Decode_encode v, base64UrlDecode_encode v⟩,
    ⟨base64ToBinary_encode v, base64urlToBinary_encodeUrl v, padChar_not_mem_encodeUrl v⟩,
    ⟨base64Decode_encode v, base64UrlDecode_encodeUrl v⟩,
    base64ToBinary_encode v, base64urlToBinary_base64UrlEncode v⟩

end CvmAttestation.Client
