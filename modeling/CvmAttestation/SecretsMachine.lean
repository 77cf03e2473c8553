import CvmAttestation.SecretsOssl
import CvmAttestation.SecretsHkdf
import CvmAttestation.SecretsParse
import CvmAttestation.SecretsProtect
import CvmAttestation.SecretsTss2

/-! A machine on which secrets are protected and unprotected. The functions that both sides call are those of Linux: the
wrapper of AES-GCM, the key derivation, the key agreement and the guest key in the TPM. What is left open is OpenSSL, the
commands of the TPM, the JSON library and the certificate store, each with the laws that its documentation gives. -/

namespace CvmAttestation.Secrets.Ossl

open Base Gcm

/-! ### The cipher -/

section

variable {O : OpenSsl} {w : OsslGcmWrapper} {nonce ciphertext data plaintext : Bytes}

theorem evp_inside {α : Type} {call : EvpCall} {allowed : Prop} [Decidable allowed] {what : String} {a : α} :
    evp O call allowed what a ≠ .error .outOfBounds := by
  rw [evp]
  split_ifs
  · intro h
    cases h
  · intro h
    cases h

theorem bind_inside {α β : Type} {x : Except Failure α} {f : α → Except Failure β} (hx : x ≠ .error .outOfBounds)
    (hf : ∀ a, x = .ok a → f a ≠ .error .outOfBounds) : (x >>= f) ≠ .error .outOfBounds := by
  cases x with
  | error e => exact fun hout => hx (congrArg Except.error (Except.error.inj hout))
  | ok a => exact hf a rfl

theorem keying_inside (what : String) (h : 32 ≤ w.key.length) : keying O w nonce what ≠ .error .outOfBounds := by
  by_cases hkeyed : Unkeyed O w nonce
  · rcases keying_of_unkeyed what hkeyed with ⟨what', herror⟩ | ⟨ctx, hok, -⟩
    · rw [herror]
      intro h
      cases h
    · rw [hok]
      intro h
      cases h
  · rw [keying_of_keyed what hkeyed, if_neg (by omega)]
    intro h
    cases h

theorem decrypt_inside (h : 32 ≤ w.key.length) : decrypt O w (some nonce) ciphertext ≠ .error .outOfBounds := by
  cases hkeying : keying O w nonce "Failed to initialize decryption" with
  | error e =>
      have hinside := @keying_inside O w nonce "Failed to initialize decryption" h
      rw [hkeying] at hinside
      rw [decrypt, hkeying]
      exact fun hout => hinside (congrArg Except.error (Except.error.inj hout))
  | ok ctx =>
      cases hkey : ctx.key with
      | none =>
          obtain ⟨e, he, hne⟩ := @decrypt_of_no_key O w nonce ciphertext ctx hkeying hkey
          rw [he]
          exact fun hout => hne (Except.error.inj hout)
      | some key => exact (decrypt_of_keying hkeying hkey).1

theorem encrypt_inside (h : 32 ≤ w.key.length) (hlen : data.length < 2 ^ 31) :
    encrypt O w (some nonce) data ≠ .error .outOfBounds := by
  have hsize : ((data.length : ℤ) + evpMaxBlockLength) = (data.length + 32 : ℕ) := rfl
  have hvector : newVector ((data.length : ℤ) + evpMaxBlockLength) = .ok (List.replicate (data.length + 32) 0) := by
    rw [hsize, newVector, vectorOfSize_of_lt (by omega)]
    rfl
  rw [encrypt]
  refine bind_inside (keying_inside _ h) fun ctx _ => ?_
  rw [hvector, ok_bind]
  refine bind_inside ?_ fun out hout => ?_
  · rw [update]
    split
    · intro h
      cases h
    · exact evp_inside
  · have hroom : out.2.length ≤ data.length + 32 := by
      rw [update] at hout
      split at hout
      · cases hout
      · rw [evp_ok_iff] at hout
        rw [← hout.2, length_mask, List.length_take]
        omega
    obtain ⟨ctx, output⟩ := out
    dsimp only at hroom ⊢
    rw [overwrite_zeros hroom, orOutside, ok_bind]
    refine bind_inside evp_inside fun _ _ => bind_inside evp_inside fun _ _ h => ?_
    cases h

/-- Where both calls return, the second one gives back what the first one was given. -/
theorem decrypt_of_encrypt (h : 32 ≤ w.key.length) (hlen : data.length < 2 ^ 31)
    (hencrypt : encrypt O w (some nonce) data = .ok ciphertext)
    (hdecrypt : decrypt O w (some nonce) ciphertext = .ok plaintext) : plaintext = data := by
  obtain ⟨-, hkeyed, hrefused, -⟩ := keyed_of_decrypt hdecrypt
  obtain ⟨-, ⟨-, hupdate⟩, hsetTag, hfinal⟩ := not_refused_iff.1 hrefused
  have hkeying := keying_of_keyed "Failed to initialize encryption" hkeyed
  rw [if_neg (by omega)] at hkeying
  have hgetTag := ((encrypt_of_keying hkeying rfl hlen hupdate hfinal ciphertext).1 hencrypt).1
  obtain ⟨hinit, hnonce, hsetIv, hinitKey⟩ := (not_unkeyed_iff h).1 hkeyed
  obtain ⟨sealed, hsealed, hopened⟩ := (roundTrips_iff O w nonce data).2
    ⟨fun call => by cases call <;> assumption, h, hnonce, hlen⟩
  rw [hencrypt] at hsealed
  cases hsealed
  rw [hdecrypt] at hopened
  exact Except.ok.inj hopened

theorem setKey_eq {key : Bytes} (h : key ≠ []) (w w' : OsslGcmWrapper) : w.setKey key = w'.setKey key := by
  simp [OsslGcmWrapper.setKey, h]

end

end CvmAttestation.Secrets.Ossl

namespace CvmAttestation.Secrets.SecretsProvisioningSample

open Base Base.Json

/-! ### What the machine is made of -/

/-- The elliptic curve keys of OpenSSL. A key that is read back from its public half agrees like the key itself. -/
structure EcLibrary where
  Key : Type
  newContext : Bool
  generate : (random : Bytes) → Option Key
  i2dPrivate : Key → Option Bytes
  i2dPublic : Key → Option Bytes
  d2iPrivate : Bytes → Option Key
  d2iPublic : Bytes → Option Key
  derive : Key → (peer : Key) → Option Bytes
  length_private : ∀ {key der}, i2dPrivate key = some der → 0 < der.length ∧ der.length < 2 ^ 31
  private_read : ∀ {key der}, i2dPrivate key = some der → d2iPrivate der = some key
  public_read : ∀ {key der}, i2dPublic key = some der →
    ∃ peer, d2iPublic der = some peer ∧ ∀ own, derive own peer = derive own key

/-- The JSON library, which reads back what it has written of a flat object. -/
structure JsonLibrary where
  parse : Bytes → Option Json
  dump : Json → Except Exc Bytes
  parse_nil : parse [] = none
  parse_dump : ∀ j, portable 1 j = true → ∃ text, dump j = .ok text ∧ parse text = some j

structure Machine where
  openSsl : Ossl.OpenSsl
  newCipherContext : Bool
  hashes : Hashes
  emptySalt : EmptySalt
  ec : EcLibrary
  x509 : X509Library
  json : JsonLibrary
  rsa : Tss2.RsaTpm
  ownerKey : rsa.Key
  /-- The first line of `/sys/class/dmi/id/product_uuid`. -/
  productUuid : Option Bytes
  /-- What comes of a read or a store outside of a buffer. -/
  undefined : Except Exc Bytes

/-- The TPM as an operation finds it: the calls it refuses, and what it keeps at the handle of the guest key. -/
structure Moment (R : Tss2.RsaTpm) where
  refuses : Tss2.Refusals
  handle : Option R.Key

section

variable (m : Machine)

/-! ### The functions of Linux -/

def orFailed {α : Type} : Option α → Except Exc α
  | some a => .ok a
  | none => .error .osslError

/-- `GetSystemUuid`. -/
def Machine.getSystemUuid : Except Exc Bytes :=
  match m.productUuid with
  | some line => .ok (line.map toLower)
  | none => .error .runtimeError

def Machine.cipherResult : Except Ossl.Failure Bytes → Except Exc Bytes
  | .ok text => .ok text
  | .error (.runtimeError _) => .error .runtimeError
  | .error (.osslError _) => .error .osslError
  | .error .lengthError => .error .lengthError
  | .error .outOfBounds => m.undefined

def Machine.tpmResult : Except Tss2.Fault Bytes → Except Exc Bytes
  | .ok text => .ok text
  | .error (.thrown e) => .error e
  | .error .outOfBounds => m.undefined

/-- The constructor of `Tss2Wrapper`; a store outside of a buffer is not among what can happen in it. -/
def Machine.newTpm (moment : Moment m.rsa) : Except Exc (Moment m.rsa) :=
  match Tss2.newWrapper moment.refuses with
  | .ok () => .ok moment
  | .error (.thrown e) => .error e
  | .error .outOfBounds => .error .foreign

/-- `OsslECDiffieHellman::DeriveSecret`. Without a key there is no context for it. -/
def Machine.deriveSecret (ecdhPrivate ecdhPublic : Option m.ec.Key) : Except Exc Bytes := do
  let own ← orFailed ecdhPrivate
  let peer ← orFailed ecdhPublic
  orFailed (m.ec.derive own peer)

/-- The library on this machine at some moment. -/
def Machine.providers (moment : Moment m.rsa) : Providers where
  base64UrlDecode := Encoders.base64UrlDecode
  base64Decode := Encoders.base64Decode
  parse text := (m.json.parse text).elim (.error (.json .parseError)) .ok
  dump := m.json.dump
  X509 := OsslX509 m.x509
  newX509 := OsslX509.new m.x509
  loadIntermediateCertificate := OsslX509.loadIntermediateCertificate
  loadLeafCertificate := OsslX509.loadLeafCertificate
  verifyCertChain := OsslX509.verifyCertChain
  verifySignature := OsslX509.verifySignature
  getSystemUuid := m.getSystemUuid
  Tpm := Moment m.rsa
  newTpm := m.newTpm moment
  rsaDecrypt tpm encryptedData paddingScheme :=
    m.tpmResult (Tss2.tss2RsaDecrypt m.rsa tpm.refuses tpm.handle encryptedData paddingScheme)
  Aes := Ossl.OsslGcmWrapper
  createAesWrapper := if m.newCipherContext then .ok Ossl.OsslGcmWrapper.create else .error .runtimeError
  setKey aes key := .ok (aes.setKey key)
  aesDecrypt aes nonce ciphertext := m.cipherResult (Ossl.decrypt m.openSsl aes (some nonce) ciphertext)
  Ecdh := Option m.ec.Key
  newEcdh := if m.ec.newContext then .ok none else .error .runtimeError
  importPkcs8PrivateKey _ derPrivateKey := (orFailed (m.ec.d2iPrivate derPrivateKey)).map some
  importSubjectPublicKeyInfo _ derPublicKey := (orFailed (m.ec.d2iPublic derPublicKey)).map some
  deriveSecret := m.deriveSecret
  deriveKey secret salt info keySize :=
    (OsslHKDF.deriveKey m.hashes m.emptySalt (OsslHKDF.new m.hashes secret) salt info keySize).1

/-- The sender on this machine at some other moment. A key pair is only generated in a new object. -/
def Machine.sender (now sending : Moment m.rsa) : Sender (m.providers now) where
  newTpm := m.newTpm sending
  generateKeyPair random _ := (orFailed (m.ec.generate random)).map some
  exportSubjectPublicKeyInfo ecdh := do
    let key ← orFailed ecdh
    orFailed (m.ec.i2dPublic key)
  exportPkcs8PrivateKey ecdh := do
    let key ← orFailed ecdh
    orFailed (m.ec.i2dPrivate key)
  aesEncrypt aes nonce data := m.cipherResult (Ossl.encrypt m.openSsl aes (some nonce) data)
  rsaEncrypt random tpm plaintextData paddingScheme :=
    m.tpmResult (Tss2.tss2RsaEncrypt m.rsa tpm.refuses tpm.handle random plaintextData paddingScheme)

/-! ### Its calls -/

variable {m}
variable {now sending : Moment m.rsa}

theorem orFailed_ok_iff {α : Type} {x : Option α} {a : α} : orFailed x = .ok a ↔ x = some a := by
  cases x <;> simp [orFailed]

theorem map_some_ok_iff {α : Type} {x : Except Exc α} {o : Option α} :
    x.map some = .ok o ↔ ∃ a, x = .ok a ∧ o = some a := by
  cases x <;> simp [Except.map, eq_comm]

theorem deriveSecret_ok_iff {own peer : Option m.ec.Key} {shared : Bytes} :
    m.deriveSecret own peer = .ok shared ↔ ∃ a b, own = some a ∧ peer = some b ∧ m.ec.derive a b = some shared := by
  simp only [Machine.deriveSecret, bind_returns, orFailed_ok_iff]
  constructor
  · rintro ⟨a, ha, b, hb, hshared⟩
    exact ⟨a, b, ha, hb, hshared⟩
  · rintro ⟨a, b, ha, hb, hshared⟩
    exact ⟨a, ha, b, hb, hshared⟩

theorem cipherResult_ok {x : Except Ossl.Failure Bytes} (hx : x ≠ .error .outOfBounds) {text : Bytes} :
    m.cipherResult x = .ok text ↔ x = .ok text := by
  cases x with
  | ok t => exact ⟨fun h => by cases h; rfl, fun h => by cases h; rfl⟩
  | error e =>
      cases e with
      | outOfBounds => exact absurd rfl hx
      | runtimeError what => exact iff_of_false nofun nofun
      | osslError what => exact iff_of_false nofun nofun
      | lengthError => exact iff_of_false nofun nofun

theorem tpmResult_ok {x : Except Tss2.Fault Bytes} (hx : x ≠ .error .outOfBounds) {text : Bytes} :
    m.tpmResult x = .ok text ↔ x = .ok text := by
  cases x with
  | ok t => exact ⟨fun h => by cases h; rfl, fun h => by cases h; rfl⟩
  | error e =>
      cases e with
      | outOfBounds => exact absurd rfl hx
      | thrown e => exact iff_of_false nofun nofun

theorem newTpm_ok_iff {tpm : Moment m.rsa} :
    m.newTpm now = .ok tpm ↔ Tss2.newWrapper now.refuses = .ok () ∧ tpm = now := by
  rw [Machine.newTpm]
  cases Tss2.newWrapper now.refuses with
  | ok u => exact ⟨fun h => by cases h; exact ⟨rfl, rfl⟩, fun h => by rw [h.2]⟩
  | error e => cases e <;> exact iff_of_false nofun (fun h => nomatch h.1)

/-! ### The two sides -/

theorem length_deriveKey {secret salt info key : Bytes}
    (h : (OsslHKDF.deriveKey m.hashes m.emptySalt (OsslHKDF.new m.hashes secret) salt info 32).1 = .ok key) :
    key.length = 32 := by
  have htaken : salt = [] → m.emptySalt ≠ .refuses := by
    intro hsalt hrefuses
    rw [hsalt, hrefuses, deriveKey_refused] at h
    cases h
  rw [deriveKey_eq htaken] at h
  dsimp only [OsslHKDF.new] at h
  rw [merge_nil] at h
  split at h
  · rename_i okm hokm
    cases h
    rw [Hkdf.derive, Hkdf.expand_eq (by rw [m.hashes.hsize]; decide)] at hokm
    cases hokm
    have hle := @Hkdf.le_length_blocks m.hashes.hmac (Hkdf.extract m.hashes.hmac salt (m.hashes.sha256 secret)) info 32
    rw [List.length_take, Nat.min_eq_left]
    exact hle
  · cases h

/-- A key pair of the sender, and what it is exported as. -/
theorem exported_iff {random der : Bytes} {ecdh ecdh' : Option m.ec.Key} (export? : m.ec.Key → Option Bytes)
    (hgenerate : (m.sender now sending).generateKeyPair random ecdh = .ok ecdh')
    (hexport : (do let key ← orFailed ecdh'; orFailed (export? key)) = .ok der) :
    ∃ key, ecdh' = some key ∧ export? key = some der := by
  obtain ⟨key, -, rfl⟩ := map_some_ok_iff.1 hgenerate
  exact ⟨key, rfl, orFailed_ok_iff.1 hexport⟩

/-- The keys that two sides agree with: the private one of the sender, and a public one that stands for the other. -/
theorem exchanged_keys {exportedPrivate exportedPublic shared : Bytes}
    (h : Exchanged (m.providers now) (m.sender now sending) exportedPrivate exportedPublic shared) :
    ∃ own peer, m.ec.d2iPrivate exportedPrivate = some own ∧ m.ec.d2iPublic exportedPublic = some peer ∧
      m.ec.derive own peer = some shared := by
  obtain ⟨hprivate, hpublic, hexportPrivate, hexportPublic, hderived⟩ := h
  obtain ⟨own, rfl, hown⟩ := exported_iff m.ec.i2dPrivate hprivate hexportPrivate
  obtain ⟨other, rfl, hother⟩ := exported_iff m.ec.i2dPublic hpublic hexportPublic
  obtain ⟨a, b, ha, hb, hshared⟩ := deriveSecret_ok_iff.1 hderived
  cases ha
  cases hb
  obtain ⟨peer, hpeer, hagree⟩ := m.ec.public_read hother
  exact ⟨own, peer, m.ec.private_read hown, hpeer, by rw [hagree, hshared]⟩

/-- A ciphertext of the sender comes from one call of the wrapper under the key. -/
theorem encrypted_keyed {key nonce data ciphertext : Bytes}
    (h : Encrypted (m.providers now) (m.sender now sending) key nonce data ciphertext) (hkey : key.length = 32)
    (hlen : data.length < 2 ^ 31) (aes : Ossl.OsslGcmWrapper) :
    Ossl.encrypt m.openSsl (aes.setKey key) (some nonce) data = .ok ciphertext := by
  have hne : key ≠ [] := by
    rintro rfl
    cases hkey
  obtain ⟨hkeyed, hencrypted⟩ := h
  cases hkeyed
  rw [Ossl.setKey_eq hne aes]
  exact (cipherResult_ok (Ossl.encrypt_inside hkey.ge hlen)).1 hencrypted

/-- What was wrapped by the sender at its moment is encrypted under the key of the other moment. -/
def Carried (now sending : Moment m.rsa) : Prop :=
  ∀ {random plain cipher : Bytes} {scheme : RsaPaddingScheme},
    Tss2.tss2RsaEncrypt m.rsa sending.refuses sending.handle random plain scheme = .ok cipher →
      Tss2.EncryptedUnder now.handle scheme plain cipher

theorem wrapped_under (hcarried : Carried now sending) {key wrapped : Bytes} {scheme : RsaPaddingScheme}
    (hkey : key.length = 32) (h : Wrapped (m.providers now) (m.sender now sending) key wrapped scheme) :
    Tss2.EncryptedUnder now.handle scheme key wrapped := by
  obtain ⟨hopened, hencrypted⟩ := h
  obtain ⟨-, rfl⟩ := newTpm_ok_iff.1 hopened
  have hbuffer : key.length ≤ Tss2.maxRsaKeyBytes := by
    rw [hkey]
    decide
  exact hcarried ((tpmResult_ok (Tss2.tss2RsaEncrypt_inside hbuffer)).1 hencrypted)

theorem tss2RsaDecrypt_inside {cipher plain : Bytes} {scheme : RsaPaddingScheme} {handle : Option m.rsa.Key}
    (h : Tss2.EncryptedUnder handle scheme plain cipher) (refuses : Tss2.Refusals) :
    Tss2.tss2RsaDecrypt m.rsa refuses handle cipher scheme ≠ .error .outOfBounds := fun hout =>
  absurd (Tss2.tss2RsaDecrypt_outOfBounds_iff.1 hout).1 (not_lt.2 h.1)

/-- **The machine keeps the laws** that the two sides rely on. -/
theorem Machine.matched (hcarried : Carried now sending) : Matched (m.providers now) (m.sender now sending) where
  base64Url := rfl
  base64 := rfl
  parse_nil j := by
    change (m.json.parse []).elim _ _ ≠ _
    rw [m.json.parse_nil]
    exact nofun
  undone j hj := by
    obtain ⟨text, hdump, hparse⟩ := m.json.parse_dump j hj
    refine ⟨text, hdump, ?_⟩
    change (m.json.parse text).elim _ _ = _
    rw [hparse]
    rfl
  length_key := length_deriveKey
  length_exported := by
    intro ecdh exported h
    obtain ⟨key, -, hexported⟩ := bind_returns.1 h
    exact m.ec.length_private (orFailed_ok_iff.1 hexported)
  agrees := by
    intro exportedPrivate exportedPublic shared shared' ecdh ecdh' ecdhPrivate ecdhPublic h himport himport' hderive
    obtain ⟨own, peer, hown, hpeer, hshared⟩ := exchanged_keys h
    obtain ⟨own', hown', rfl⟩ := map_some_ok_iff.1 himport
    obtain ⟨peer', hpeer', rfl⟩ := map_some_ok_iff.1 himport'
    rw [orFailed_ok_iff, hown] at hown'
    rw [orFailed_ok_iff, hpeer] at hpeer'
    cases hown'
    cases hpeer'
    obtain ⟨a, b, ha, hb, hshared'⟩ := deriveSecret_ok_iff.1 hderive
    cases ha
    cases hb
    rw [hshared] at hshared'
    exact (Option.some.inj hshared').symm
  opens := by
    intro key nonce data ciphertext plaintext aes keyed h hkey hnonce hlen hkeyed hdecrypt
    cases hkeyed
    have hencrypt := encrypted_keyed h hkey hlen aes
    exact Ossl.decrypt_of_encrypt hkey.ge hlen hencrypt ((cipherResult_ok (Ossl.decrypt_inside hkey.ge)).1 hdecrypt)
  unwraps := by
    intro key wrapped unwrapped scheme tpm hkey hwrapped hopened hdecrypt
    obtain ⟨-, htpm⟩ := newTpm_ok_iff.1 hopened
    rw [htpm] at hdecrypt
    have hunder := wrapped_under hcarried hkey hwrapped
    have hplain := (tpmResult_ok (tss2RsaDecrypt_inside hunder _)).1 hdecrypt
    obtain ⟨guestKey, hhandle, hunwrapped, -⟩ := Tss2.tss2RsaDecrypt_ok_iff.1 hplain
    rw [hunder.2 guestKey hhandle] at hunwrapped
    exact (Option.some.inj hunwrapped).symm

/-- OpenSSL refuses nothing, the TPM refuses nothing that a decryption needs, and the guest key is there. -/
structure Willing (m : Machine) (now : Moment m.rsa) : Prop where
  enabled : Tss2.isSecretsProvisioningEnabled m.rsa now.refuses now.handle = 1
  owner : now.refuses .setOwnerAuth = false
  key : now.refuses .setKeyAuth = false
  decrypt : now.refuses .rsaDecrypt = false
  cipher : ∀ call, m.openSsl.refuses call = false

theorem Machine.serves (hcarried : Carried now sending) (hw : Willing m now) :
    Serves (m.providers now) (m.sender now sending) where
  unwrap := by
    intro key wrapped scheme hkey hwrapped
    have hunder := wrapped_under hcarried hkey hwrapped
    obtain ⟨hnew, hread, hsome⟩ := Tss2.isSecretsProvisioningEnabled_eq_one_iff.1 hw.enabled
    obtain ⟨guestKey, hhandle⟩ := Option.ne_none_iff_exists'.1 hsome
    have hplain := Tss2.tss2RsaDecrypt_ok_iff.2
      ⟨guestKey, hhandle, hunder.2 guestKey hhandle, hunder.1, hw.owner, hread, hw.key, hw.decrypt⟩
    exact ⟨now, key, newTpm_ok_iff.2 ⟨hnew, rfl⟩, (tpmResult_ok (tss2RsaDecrypt_inside hunder _)).2 hplain⟩
  setKey _ _ _ := ⟨_, rfl⟩
  decrypt := by
    intro key nonce data ciphertext aes keyed h hkey hnonce hlen hkeyed
    cases hkeyed
    have hencrypt := encrypted_keyed h hkey hlen aes
    have hint : 0 < Gcm.toInt32 nonce.length := by
      rw [hnonce]
      decide
    obtain ⟨sealed, hsealed, hopened⟩ := (Ossl.roundTrips_iff m.openSsl (aes.setKey key) nonce data).2
      ⟨hw.cipher, hkey.ge, hint, hlen⟩
    cases hencrypt.symm.trans hsealed
    exact ⟨data, (cipherResult_ok (Ossl.decrypt_inside hkey.ge)).2 hopened⟩
  agreement := by
    intro exportedPrivate exportedPublic shared ecdh ecdh' h
    obtain ⟨own, peer, hown, hpeer, hshared⟩ := exchanged_keys h
    exact ⟨some own, some peer, shared, map_some_ok_iff.2 ⟨own, orFailed_ok_iff.2 hown, rfl⟩,
      map_some_ok_iff.2 ⟨peer, orFailed_ok_iff.2 hpeer, rfl⟩, deriveSecret_ok_iff.2 ⟨own, peer, rfl, rfl, hshared⟩⟩

/-- Two moments of one run are connected by the guest key. -/
theorem carried_after {handle : Option m.rsa.Key} (h : handle = none ∨ handle = some m.ownerKey)
    (earlier later : List Tss2.Step) (refuses refuses' : Tss2.Refusals) :
    Carried ⟨refuses', Tss2.after m.rsa m.ownerKey (Tss2.after m.rsa m.ownerKey handle earlier) later⟩
      ⟨refuses, Tss2.after m.rsa m.ownerKey handle earlier⟩ := fun hencrypt =>
  Tss2.encryptedUnder_after h hencrypt later

variable (m)

/-! ### Protecting at one moment and unprotecting at another -/

def Machine.protect (moment : Moment m.rsa) (drawn : Drawn) (data : Bytes) (scheme : RsaPaddingScheme) : Except Exc Bytes :=
  encryptWithPadding (m.providers moment) (m.sender moment moment) drawn data scheme

def Machine.protectWide (moment : Moment m.rsa) (drawn : Drawn) (data : List WChar) (scheme : RsaPaddingScheme) :
    Option (Except Exc Bytes) :=
  encryptWideWithPadding (m.providers moment) (m.sender moment moment) drawn data scheme

def Machine.unprotect (moment : Moment m.rsa) (token : Bytes) (policy : Word) : Except Exc Int × Outputs UInt8 :=
  (unprotectSecret (m.providers moment) .ample token policy).exec ⟨none, none⟩

def Machine.unprotectWide (moment : Moment m.rsa) (token : List WChar) (policy : Word) :
    Except Exc Int × Outputs WChar :=
  (unprotectSecretWide (m.providers moment) .ample token policy).exec ⟨none, none⟩

variable {m}

/-- How a reader on the machine may end with a token that carries `secret`. -/
structure ReadBack {τ : Type} (m : Machine) (now : Moment m.rsa) (policy : Word) (secret : List τ)
    (run : Except Exc Int × Outputs τ) : Prop where
  refused : isPolicySet policy PolicyOption.allowUnsigned = false → run = withheld ⟨.policyMismatchError, by decide⟩
  allowed : isPolicySet policy PolicyOption.allowUnsigned = true → run = released secret ∨ ∃ c, run = withheld c
  willing : isPolicySet policy PolicyOption.allowUnsigned = true → Willing m now → run = released secret

theorem Returned.readBack {τ : Type} {policy : Word} {secret : List τ} {run : Except Exc Int × Outputs τ}
    (hcarried : Carried now sending) (h : Returned (m.providers now) (m.sender now sending) policy secret run) :
    ReadBack m now policy secret run :=
  ⟨h.refused, h.allowed, fun hpolicy hw => h.served hpolicy (Machine.serves hcarried hw)⟩

theorem protect_carries (hcarried : Carried now sending) {drawn : Drawn} {data token : Bytes} {scheme : RsaPaddingScheme}
    (h : m.protect sending drawn data scheme = .ok token) (hne : token ≠ []) :
    ∃ s, Carries (m.providers now) (m.sender now sending) drawn (cStr data ++ [0]) scheme token s :=
  encryptWithPadding_carries (Machine.matched hcarried) h hne

theorem protectWide_carries (hcarried : Carried now sending) {drawn : Drawn} {data : List WChar} {token : Bytes}
    {scheme : RsaPaddingScheme} (h : m.protectWide sending drawn data scheme = some (.ok token)) (hne : token ≠ []) :
    ∃ utf8 s, Utf8.encode (data.takeWhile (· ≠ 0) ++ [0]) = some utf8 ∧
      Carries (m.providers now) (m.sender now sending) drawn utf8 scheme token s :=
  encryptWideWithPadding_carries (Machine.matched hcarried) h hne

end

/-- **Protecting and unprotecting in one run of the machine.** The handle of the guest key is empty at first or holds the
key of the owner. What is protected after some steps is unprotected after some more, whatever was generated and removed
and whichever calls of the TPM and of OpenSSL failed: the reader is handed the string with its terminating zero or a code
and nothing else, and the string when the machine is willing. -/
theorem Machine.unprotect_protect (m : Machine) (handle : Option m.rsa.Key)
    (h : handle = none ∨ handle = some m.ownerKey) (earlier later : List Tss2.Step) (refuses refuses' : Tss2.Refusals) :
    let sending : Moment m.rsa := ⟨refuses, Tss2.after m.rsa m.ownerKey handle earlier⟩
    let now : Moment m.rsa := ⟨refuses', Tss2.after m.rsa m.ownerKey handle (earlier ++ later)⟩
    (∀ drawn data scheme token, m.protect sending drawn data scheme = .ok token → token ≠ [] →
      (cStr data).length + 1 < 2 ^ 31 → ∀ policy, ReadBack m now policy (cStr data ++ [0]) (m.unprotect now token policy)) ∧
    (∀ drawn data scheme token, m.protectWide sending drawn data scheme = some (.ok token) → token ≠ [] →
      (wideToUtf8 .ample (data.takeWhile (· ≠ 0) ++ [0])).length < 2 ^ 31 → token.length < 2 ^ 32 →
        ∀ policy, ReadBack m now policy (data.takeWhile (· ≠ 0) ++ [0]) (m.unprotectWide now (widen token) policy)) := by
  intro sending now
  have hcarried : Carried now sending := by
    have hafter := @carried_after m handle h earlier later refuses refuses'
    rwa [← Tss2.after_append] at hafter
  refine ⟨fun drawn data scheme token hprotect hne hlen policy => ?_,
    fun drawn data scheme token hprotect hne hlen htoken policy => ?_⟩
  · obtain ⟨s, hs⟩ := protect_carries hcarried hprotect hne
    have hlength : (cStr data ++ [0]).length < 2 ^ 31 := by
      rw [List.length_append]
      exact hlen
    exact (hs.unprotects (Machine.matched hcarried) hlength (by simp) ⟨none, none⟩).readBack hcarried
  · obtain ⟨utf8, s, hencode, hs⟩ := protectWide_carries hcarried hprotect hne
    rw [wideToUtf8_encode hencode] at hlen
    exact (hs.unprotects_wide (Machine.matched hcarried) hlen htoken hencode (by simp) ⟨none, none⟩).readBack hcarried

namespace SampleMachine

/-- Keys that agree on what one of them is followed by the other. -/
def ec : EcLibrary where
  Key := Bytes
  newContext := true
  generate := some
  i2dPrivate key := if key.length ≤ 32 then some (1 :: key) else none
  i2dPublic key := some (2 :: key)
  d2iPrivate der := der.tail?
  d2iPublic der := der.tail?
  derive own peer := some (own ++ peer)
  length_private := by
    intro key der h
    split_ifs at h with hlen
    cases h
    simp only [List.length_cons]
    omega
  private_read := by
    intro key der h
    split_ifs at h with hlen
    cases h
    rfl
  public_read := by
    intro key der h
    cases h
    exact ⟨key, rfl, fun _ => rfl⟩

def jsonLibrary : JsonLibrary where
  parse text := if text = [] then none else Json.parse 1 text
  dump j := .ok (render 1 j)
  parse_nil := rfl
  parse_dump j h := by
    obtain ⟨c, s, hrender, -⟩ := head_render h []
    refine ⟨_, rfl, ?_⟩
    rw [if_neg, parse_render h]
    intro hnil
    rw [hnil] at hrender
    cases hrender

def machine : Machine where
  openSsl := Ossl.plainOpenSsl
  newCipherContext := true
  hashes := Secrets.Sample.hashes
  emptySalt := .refuses
  ec := ec
  x509 := Secrets.Sample.noCertificates
  json := jsonLibrary
  rsa := Tss2.SampleTpm.rsaTpm
  ownerKey := ()
  productUuid := some (ascii "0000-AB")
  undefined := .error .foreign

def drawn : Drawn where
  salt := List.replicate 32 1
  dataNonce := List.replicate 12 2
  wrappingKey := List.replicate 32 3
  wrappingNonce := List.replicate 12 4
  ecdhPrivate := [5]
  ecdhPublic := [6]
  padding := [7]
  iat := 1
  exp := 1
  length_salt := rfl
  length_dataNonce := rfl
  length_wrappingKey := rfl
  length_wrappingNonce := rfl
  iat_range := by decide
  exp_range := by decide

/-- Where the guest key was generated, and then again after a removal. -/
def generated : List Tss2.Step := [⟨.generateGuestKey, Tss2.SampleTpm.willing⟩]

def regenerated : List Tss2.Step := [⟨.removeKey, Tss2.SampleTpm.willing⟩, ⟨.generateGuestKey, Tss2.SampleTpm.willing⟩]

def sending : Moment machine.rsa := ⟨Tss2.SampleTpm.willing, Tss2.after machine.rsa machine.ownerKey none generated⟩

def now : Moment machine.rsa :=
  ⟨Tss2.SampleTpm.willing, Tss2.after machine.rsa machine.ownerKey none (generated ++ regenerated)⟩

def isToken : Except Exc Bytes → Bool
  | .ok token => !token.isEmpty
  | .error _ => false

theorem exists_token {x : Except Exc Bytes} (h : isToken x = true) : ∃ token, x = .ok token ∧ token ≠ [] := by
  cases x with
  | error e => cases h
  | ok token =>
      refine ⟨token, rfl, ?_⟩
      rintro rfl
      cases h

theorem carried : Carried now sending :=
  carried_after (.inl rfl) generated regenerated Tss2.SampleTpm.willing Tss2.SampleTpm.willing

theorem willing : Willing machine now := ⟨rfl, rfl, rfl, rfl, fun _ => rfl⟩

theorem protected_key : ∃ token, machine.protect sending drawn (ascii "key") .rsaes = .ok token ∧ token ≠ [] :=
  exists_token (by decide +kernel)

theorem protected_wide : ∃ token, machine.protectWide sending drawn [0x20AC, 0, 9] .rsaesOaep = some (.ok token) ∧
    token ≠ [] ∧ token.length < 2 ^ 32 := by
  have hencode : Utf8.encode (([0x20AC, 0, 9] : List WChar).takeWhile (· ≠ 0)) = some [0xE2, 0x82, 0xAC] := by decide
  obtain ⟨token, htoken, hne, hlen⟩ : ∃ token, machine.protect sending drawn [0xE2, 0x82, 0xAC, 0] .rsaesOaep =
      .ok token ∧ token ≠ [] ∧ token.length < 2 ^ 32 := by
    have hrun : (match machine.protect sending drawn [0xE2, 0x82, 0xAC, 0] .rsaesOaep with
        | .ok token => !token.isEmpty && decide (token.length < 2 ^ 32)
        | .error _ => false) = true := by decide +kernel
    generalize machine.protect sending drawn [0xE2, 0x82, 0xAC, 0] .rsaesOaep = x at hrun
    cases x with
    | error e => cases hrun
    | ok token =>
        rw [Bool.and_eq_true, decide_eq_true_eq] at hrun
        refine ⟨token, rfl, ?_, hrun.2⟩
        rintro rfl
        cases hrun.1
  exact ⟨token, (encryptWideWithPadding_of_encode hencode).trans (congrArg some htoken), hne, hlen⟩

end SampleMachine

open SampleMachine

/-- A key of three letters. -/
theorem unprotectSecret_encryptWithPadding_sample : ∃ token,
    encryptWithPadding (machine.providers now) (machine.sender now sending) drawn (ascii "key") .rsaes = .ok token ∧
      Returned (machine.providers now) (machine.sender now sending) PolicyOption.allowUnsigned (ascii "key" ++ [0])
        ((unprotectSecret (machine.providers now) .ample token PolicyOption.allowUnsigned).exec ⟨none, none⟩) := by
  obtain ⟨token, htoken, hne⟩ := protected_key
  exact ⟨token, htoken, (unprotectSecret_encryptWithPadding (machine.providers now) (machine.sender now sending)
    (Machine.matched carried) drawn (ascii "key") token .rsaes (by decide) htoken hne).1 _ _⟩

/-- A euro sign, up to the zero. -/
theorem unprotectSecretWide_encryptWideWithPadding_sample : ∃ token,
    encryptWideWithPadding (machine.providers now) (machine.sender now sending) drawn [0x20AC, 0, 9] .rsaesOaep =
        some (.ok token) ∧
      Returned (machine.providers now) (machine.sender now sending) PolicyOption.allowUnsigned [0x20AC, 0]
        ((unprotectSecretWide (machine.providers now) .ample (widen token) PolicyOption.allowUnsigned).exec
          ⟨none, none⟩) := by
  obtain ⟨token, htoken, hne, hlen⟩ := protected_wide
  exact ⟨token, htoken, (unprotectSecretWide_encryptWideWithPadding (machine.providers now)
    (machine.sender now sending) (Machine.matched carried) drawn [0x20AC, 0, 9] .rsaesOaep).2 token htoken hne
      (by decide) hlen _ _⟩

/-- The guest key is removed and generated again between the two. -/
theorem Machine.unprotect_protect_regenerated : ∃ token,
    machine.protect sending drawn (ascii "key") .rsaes = .ok token ∧
      machine.unprotect now token PolicyOption.allowUnsigned = released (ascii "key" ++ [0]) := by
  obtain ⟨token, htoken, hne⟩ := protected_key
  have hread := (Machine.unprotect_protect machine none (.inl rfl) generated regenerated Tss2.SampleTpm.willing
    Tss2.SampleTpm.willing).1 drawn (ascii "key") .rsaes token htoken hne (by decide) PolicyOption.allowUnsigned
  exact ⟨token, htoken, hread.willing (by decide) willing⟩

end CvmAttestation.Secrets.SecretsProvisioningSample
