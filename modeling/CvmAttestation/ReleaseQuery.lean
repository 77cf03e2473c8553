import CvmAttestation.BaseForm
import CvmAttestation.ReleaseRequest

/-! The values in the requests for access tokens. The address of the token endpoint of IMDS and the body for Azure AD are
put together from texts, among them environment variables. `Util::url_encode` has curl encode a text and then returns
the text itself, and half of the values do not pass through it at all, so that all of them stand in the requests as they
are. -/

namespace CvmAttestation.Release

open Base

/-! ### What the requests say -/

/-- The field for the first of the three names of an identity that is given. -/
def identityField (S : Setting) : Option Form.Field :=
  match nonEmpty S.imdsClientId, nonEmpty S.imdsObjectId, nonEmpty S.imdsMsiResId with
  | some clientId, _, _ => some ⟨ascii "client_id", clientId⟩
  | none, some objectId, _ => some ⟨ascii "object_id", objectId⟩
  | none, none, some msiResId => some ⟨ascii "msi_res_id", msiResId⟩
  | none, none, none => none

/-- What IMDS is to be asked for. -/
def imdsFields (S : Setting) (url : Bytes) : List Form.Field :=
  ⟨ascii "api-version", imdsApiVersion⟩ :: ⟨ascii "resource", url⟩ :: (identityField S).toList

/-- What Azure AD is to be asked for. -/
def aadFields (clientId clientSecret scope : Bytes) : List Form.Field :=
  [⟨ascii "client_id", clientId⟩, ⟨ascii "client_secret", clientSecret⟩,
    ⟨ascii "grant_type", ascii "client_credentials"⟩, ⟨ascii "scope", scope⟩]

/-- A value that comes back as it is from a query, which a number sign would end. -/
def QueryPlain (value : Bytes) : Prop := Form.Plain value ∧ 35 ∉ value

def Setting.withPrincipal (S : Setting) (clientId clientSecret tenantId : Bytes) : Setting :=
  { S with
    akvSkrClientId := some clientId
    akvSkrClientSecret := some clientSecret
    akvSkrTenantId := some tenantId }

def tokenUrl (tenantId : Bytes) : Bytes :=
  ascii "https://login.microsoftonline.com/" ++ tenantId ++ ascii "/oauth2/v2.0/token"

def postData (clientId clientSecret resourceUrl : Bytes) : Bytes :=
  ascii "client_id=" ++ clientId ++ ascii "&client_secret=" ++ clientSecret ++
    ascii "&grant_type=client_credentials&scope= " ++ resourceUrl

/-! ### The texts -/

section

variable (S : Setting)

theorem getAADToken_withPrincipal (clientId clientSecret tenantId kekUrl : Bytes) :
    getAADToken (S.withPrincipal clientId clientSecret tenantId) kekUrl =
      getResourceUrl kekUrl false >>= fun resourceUrl =>
        S.aad (tokenUrl tenantId) (postData clientId clientSecret resourceUrl) := rfl

theorem getImdsTokenUrl_eq (url : Bytes) :
    getImdsTokenUrl S url = imdsTokenUrl ++ 63 :: Form.render (imdsFields S url) := by
  have hversion : ascii "?api-version=" = 63 :: (ascii "api-version" ++ [61]) := rfl
  have hresource : ascii "&resource=" = 38 :: (ascii "resource" ++ [61]) := rfl
  have hclient : ascii "&client_id=" = 38 :: (ascii "client_id" ++ [61]) := rfl
  have hobject : ascii "&object_id=" = 38 :: (ascii "object_id" ++ [61]) := rfl
  have hmsi : ascii "&msi_res_id=" = 38 :: (ascii "msi_res_id" ++ [61]) := rfl
  rw [getImdsTokenUrl, imdsFields, identityField, hversion, hresource, hclient, hobject, hmsi]
  cases nonEmpty S.imdsClientId with
  | some clientId => simp [Form.render, Form.Field.item, urlEncode]
  | none =>
      cases nonEmpty S.imdsObjectId with
      | some objectId => simp [Form.render, Form.Field.item, urlEncode]
      | none =>
          cases nonEmpty S.imdsMsiResId with
          | some msiResId => simp [Form.render, Form.Field.item, urlEncode]
          | none => simp [Form.render, Form.Field.item, urlEncode]

theorem postData_eq (clientId clientSecret resourceUrl : Bytes) :
    postData clientId clientSecret resourceUrl =
      Form.render (aadFields clientId clientSecret (ascii " " ++ resourceUrl)) := by
  have hid : ascii "client_id=" = ascii "client_id" ++ [61] := rfl
  have hsecret : ascii "&client_secret=" = 38 :: (ascii "client_secret" ++ [61]) := rfl
  have hscope : ascii "&grant_type=client_credentials&scope= " =
      38 :: (ascii "grant_type" ++ 61 :: (ascii "client_credentials" ++ 38 :: (ascii "scope" ++ 61 :: ascii " "))) := rfl
  rw [postData, aadFields, hid, hsecret, hscope]
  simp [Form.render, Form.Field.item]

/-! ### The fields -/

theorem queryPlain_iff (value : Bytes) :
    (Form.Plain value ∧ ∀ c ∈ value, decide (c ≠ 35) = true) ↔ QueryPlain value := by
  refine and_congr_right fun _ => ⟨fun h hmem => ?_, fun h c hc => decide_eq_true (ne_of_mem_of_not_mem hc h)⟩
  exact of_decide_eq_true (h 35 hmem) rfl

theorem imdsFields_name (url : Bytes) : ∀ f ∈ imdsFields S url, Form.Unreserved f.name := by
  have hidentity : ∀ f ∈ identityField S, Form.Unreserved f.name := by
    intro f hf
    rw [identityField] at hf
    split at hf
    · cases hf
      exact (by decide : Form.Unreserved (ascii "client_id"))
    · cases hf
      exact (by decide : Form.Unreserved (ascii "object_id"))
    · cases hf
      exact (by decide : Form.Unreserved (ascii "msi_res_id"))
    · cases hf
  rw [imdsFields, List.forall_mem_cons, List.forall_mem_cons]
  refine ⟨(by decide : Form.Unreserved (ascii "api-version")), (by decide : Form.Unreserved (ascii "resource")),
    fun f hf => ?_⟩
  exact hidentity f (Option.mem_toList.1 hf)

/-- IMDS is asked for what it is to be asked for when the values need no encoding. -/
theorem getImdsTokenUrl_parse_iff (url : Bytes) :
    (Url.query (getImdsTokenUrl S url)).map Form.parse = some (imdsFields S url) ↔
      QueryPlain url ∧ ∀ f ∈ identityField S, QueryPlain f.value := by
  have hnames : ∀ f ∈ imdsFields S url, Form.Unreserved f.name ∧ ∀ c ∈ f.name, decide (c ≠ 35) = true := by
    intro f hf
    have hname := imdsFields_name S url f hf
    exact ⟨hname, fun c hc => decide_eq_true (Form.ne_of_isUnreserved (hname c hc) rfl)⟩
  have hversion : QueryPlain imdsApiVersion :=
    ⟨Form.plain_of_unreserved (by decide), by decide⟩
  rw [getImdsTokenUrl_eq, Url.query_append (by decide) (by decide), Option.map_some, Option.some.injEq,
    Form.parse_render_iff (fun c => decide (c ≠ 35)) rfl rfl _ hnames]
  simp only [queryPlain_iff, imdsFields, List.forall_mem_cons, Option.mem_toList]
  exact and_iff_right hversion

theorem getResourceUrl_eq_ok {kekUrl resourceUrl : Bytes} (h : getResourceUrl kekUrl false = .ok resourceUrl) :
    resourceUrl = akvResourceUrl ++ ascii "/.default" ∨ resourceUrl = mhsmResourceUrl ++ ascii "/.default" := by
  rw [getResourceUrl] at h
  simp only [Bool.false_eq_true, if_false] at h
  split_ifs at h
  · exact .inl (Except.ok.inj h).symm
  · exact .inr (Except.ok.inj h).symm

theorem scope_plain {kekUrl resourceUrl : Bytes} (h : getResourceUrl kekUrl false = .ok resourceUrl) :
    Form.Plain (ascii " " ++ resourceUrl) := by
  rcases getResourceUrl_eq_ok h with rfl | rfl
  · exact ⟨by decide, by decide, Form.not_hasEscape (by decide)⟩
  · exact ⟨by decide, by decide, Form.not_hasEscape (by decide)⟩

theorem postData_parse_iff {kekUrl resourceUrl : Bytes} (h : getResourceUrl kekUrl false = .ok resourceUrl)
    (clientId clientSecret : Bytes) :
    Form.parse (postData clientId clientSecret resourceUrl) =
        aadFields clientId clientSecret (ascii " " ++ resourceUrl) ↔
      Form.Plain clientId ∧ Form.Plain clientSecret := by
  have hnames : ∀ f ∈ aadFields clientId clientSecret (ascii " " ++ resourceUrl), Form.Unreserved f.name := by
    simp only [aadFields, List.forall_mem_cons]
    exact ⟨by decide, by decide, by decide, by decide, by simp⟩
  have hall : ∀ text : Bytes, text.takeWhile (fun _ => true) = text := by
    intro text
    rw [List.takeWhile_eq_self_iff]
    exact fun _ _ => rfl
  have hgrant : Form.Plain (ascii "client_credentials") := Form.plain_of_unreserved (by decide)
  have hiff := Form.parse_render_iff (fun _ => true) rfl rfl _ fun f hf => ⟨hnames f hf, fun _ _ => rfl⟩
  rw [hall] at hiff
  rw [postData_eq, hiff]
  simp [aadFields, hgrant, scope_plain h]

/-- The scope begins with a space, whatever the other values are. -/
theorem postData_parse_ne {kekUrl resourceUrl : Bytes} (h : getResourceUrl kekUrl false = .ok resourceUrl)
    (clientId clientSecret : Bytes) :
    Form.parse (postData clientId clientSecret resourceUrl) ≠ aadFields clientId clientSecret resourceUrl := by
  intro heq
  have hname : Form.Unreserved (ascii "scope") := by decide
  have hscope : Form.parse (ascii "scope" ++ 61 :: (ascii " " ++ resourceUrl)) =
      [⟨ascii "scope", ascii " " ++ resourceUrl⟩] := by
    have hitem := (Form.parse_item_append_iff hname (ascii " " ++ resourceUrl) (by simp) []).2
      ⟨scope_plain h, Form.parse_nil⟩
    rwa [List.append_nil] at hitem
  have hsplit : postData clientId clientSecret resourceUrl =
      (ascii "client_id=" ++ clientId ++ ascii "&client_secret=" ++ clientSecret ++
        ascii "&grant_type=client_credentials") ++ 38 :: (ascii "scope" ++ 61 :: (ascii " " ++ resourceUrl)) := by
    have hlast : ascii "&grant_type=client_credentials&scope= " =
        ascii "&grant_type=client_credentials" ++ 38 :: (ascii "scope" ++ 61 :: ascii " ") := rfl
    rw [postData, hlast]
    simp
  have hfields : aadFields clientId clientSecret resourceUrl =
      [⟨ascii "client_id", clientId⟩, ⟨ascii "client_secret", clientSecret⟩,
        ⟨ascii "grant_type", ascii "client_credentials"⟩] ++ [⟨ascii "scope", resourceUrl⟩] := rfl
  rw [hsplit, Form.parse_append, hscope, hfields] at heq
  have hvalue := congrArg (fun f => f.map fun f => f.value.length) (List.append_inj_right' heq rfl)
  simp [ascii] at hvalue

theorem tokenUrl_query_iff (tenantId : Bytes) :
    Url.query (tokenUrl tenantId) = none ↔ 63 ∉ tenantId.takeWhile (· ≠ 35) := by
  have hnumber : 35 ∉ ascii "https://login.microsoftonline.com/" := by decide
  have hstart : ∀ c ∈ ascii "https://login.microsoftonline.com/", decide (c ≠ 35) = true :=
    fun c hc => decide_eq_true (ne_of_mem_of_not_mem hc hnumber)
  have hquestion : 63 ∉ ascii "https://login.microsoftonline.com/" := by decide
  have hend : 63 ∉ (ascii "/oauth2/v2.0/token").takeWhile (· ≠ 35) := by decide
  rw [Url.query_eq_none_iff, tokenUrl, List.append_assoc, List.takeWhile_append_of_pos hstart, List.mem_append, not_or,
    and_iff_right hquestion, List.takeWhile_append]
  split_ifs with hwhole
  · have hself : tenantId.takeWhile (· ≠ 35) = tenantId := (List.takeWhile_prefix _).eq_of_length hwhole
    rw [List.mem_append, not_or, and_iff_left hend, hself]
  · rfl

end

/-- **When the requests say what they are to say.** A text is its own encoding when it is unreserved. IMDS is asked for
the resource and the identity when these hold no ampersand, no plus sign, no escape and no number sign; in the body for
Azure AD the number sign is harmless, and the scope comes back with a space in front of it. The tenant stands in the
address only, and adds a query to it when it has a question mark before any number sign. -/
theorem requests_fields_iff (S : Setting) (s url kekUrl clientId clientSecret tenantId : Bytes) {resourceUrl : Bytes}
    (hresource : getResourceUrl kekUrl false = .ok resourceUrl) :
    (Form.Encoded (urlEncode s) ∧ Form.percentDecode (urlEncode s) = s ↔ Form.Unreserved s) ∧
    ((Url.query (getImdsTokenUrl S url)).map Form.parse = some (imdsFields S url) ↔
      QueryPlain url ∧ ∀ f ∈ identityField S, QueryPlain f.value) ∧
    getAADToken (S.withPrincipal clientId clientSecret tenantId) kekUrl =
      S.aad (tokenUrl tenantId) (postData clientId clientSecret resourceUrl) ∧
    (Form.parse (postData clientId clientSecret resourceUrl) =
        aadFields clientId clientSecret (ascii " " ++ resourceUrl) ↔
      Form.Plain clientId ∧ Form.Plain clientSecret) ∧
    Form.parse (postData clientId clientSecret resourceUrl) ≠ aadFields clientId clientSecret resourceUrl ∧
    (Url.query (tokenUrl tenantId) = none ↔ 63 ∉ tenantId.takeWhile (· ≠ 35)) := by
  refine ⟨Form.encoded_self_iff s, getImdsTokenUrl_parse_iff S url, ?_, postData_parse_iff hresource clientId clientSecret,
    postData_parse_ne hresource clientId clientSecret, tokenUrl_query_iff tenantId⟩
  rw [getAADToken_withPrincipal, hresource]
  rfl

theorem getResourceUrl_akv : getResourceUrl akvResourceUrl false = .ok (akvResourceUrl ++ ascii "/.default") := by
  have hsuffix : akvUrlSuffix <:+: akvResourceUrl := ⟨ascii "https://", [], rfl⟩
  rw [getResourceUrl, if_pos hsuffix]
  rfl

/-- An application whose name and secret need no encoding. -/
theorem requests_fields_plain :
    Form.parse (postData (ascii "app") (ascii "secret") (akvResourceUrl ++ ascii "/.default")) =
      aadFields (ascii "app") (ascii "secret") (ascii " " ++ (akvResourceUrl ++ ascii "/.default")) := by
  obtain ⟨-, -, -, hbody, -⟩ := requests_fields_iff sampleSetting [] [] akvResourceUrl (ascii "app") (ascii "secret")
    (ascii "tenant") getResourceUrl_akv
  exact hbody.2 ⟨Form.plain_of_unreserved (by decide), Form.plain_of_unreserved (by decide)⟩

/-- A machine with the name of an identity that goes on with another field. -/
def sampleIdentity : Setting := { sampleSetting with imdsClientId := some (ascii "app&object_id=other") }

/-- A resource that is not encoded, an identity that adds another one, and a secret with a plus sign in it. -/
theorem requests_fields_altered :
    ¬ (Form.Encoded (urlEncode akvResourceUrl) ∧ Form.percentDecode (urlEncode akvResourceUrl) = akvResourceUrl) ∧
    (Url.query (getImdsTokenUrl sampleIdentity akvResourceUrl)).map Form.parse ≠
      some (imdsFields sampleIdentity akvResourceUrl) ∧
    Form.parse (postData (ascii "app") (ascii "p+q") (akvResourceUrl ++ ascii "/.default")) ≠
      aadFields (ascii "app") (ascii "p+q") (ascii " " ++ (akvResourceUrl ++ ascii "/.default")) := by
  refine ⟨fun h => ?_, fun h => ?_, fun h => ?_⟩
  · have hcolon := (Form.encoded_self_iff akvResourceUrl).1 h 58 (by decide)
    exact absurd hcolon (by decide)
  · have hidentity := ((getImdsTokenUrl_parse_iff sampleIdentity akvResourceUrl).1 h).2 _ rfl
    exact hidentity.1.ampersand (by decide)
  · have hsecret := ((postData_parse_iff getResourceUrl_akv (ascii "app") (ascii "p+q")).1 h).2
    exact hsecret.plus (by decide)

end CvmAttestation.Release
