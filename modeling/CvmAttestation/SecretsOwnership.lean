import CvmAttestation.SecretsHandles

/-! Whether a decryption on Windows destroys every handle that it has created, and none of them twice. Up to the shared
secret it does, unless the constructor of the AES object throws after the provider was opened. The shared secret is
then adopted by the object for the key derivation, while the object that derived it keeps it too: from there on it is
destroyed twice, whatever fails, and the second `SetKey` writes over the handle of the first key. -/

namespace CvmAttestation.Secrets.Handles

open Base

def unwrappingCalls : List WindowsCall :=
  [.generateSymmetricKey .wrapping, .chainingTagLength .wrapping, .chainingBlockLength .wrapping, .decrypt .wrapping]

/-- The calls up to the one that completes the object for the key derivation. -/
def agreementCalls : List WindowsCall :=
  [.openEcdh .ecdhPrivate, .openEcdh .ecdhPublic, .decodePrivateKeyInfo, .decodeEccPrivateKey, .publicKeyForm,
    .importKeyPair .ecdhPrivate, .decodePublicKeyInfo, .importKeyPair .ecdhPublic, .secretAgreement, .openHmac]

section

variable (W : Windows) (claims : Json) (paddingScheme : RsaPaddingScheme)

/-- The claims are well formed, and the TPM decrypts the transport key. -/
def Opens (t : Transport) : Prop :=
  (∃ infoString, W.providers.getSystemUuid = .ok infoString) ∧
    openTransport W.providers claims paddingScheme = .ok t ∧ t.aesKey.isEmpty = false

/-- The provider of the AES object is opened, and then its constructor throws. -/
def ProviderLost : Prop :=
  ∃ t aes, Opens W claims paddingScheme t ∧ W.providers.createAesWrapper = .ok aes ∧ W.fails .openAes = false ∧
    ∃ c ∈ aesProperties, W.fails c = true

/-- The private key can be decrypted. -/
def Unwraps (t : Transport) (encodedEcdhPrivate : Bytes) : Prop :=
  (∃ aes₀ aes, W.providers.createAesWrapper = .ok aes₀ ∧ W.providers.setKey aes₀ t.aesKey = .ok aes ∧
    W.providers.aesDecrypt aes t.wrappingNonce t.encryptedEcdhPrivate = .ok encodedEcdhPrivate) ∧
    encodedEcdhPrivate.isEmpty = false ∧ ∀ c ∈ .openAes :: aesProperties ++ unwrappingCalls, W.fails c = false

/-- The two keys can be imported and agree on a secret, and the object for the key derivation can be constructed. -/
def Agrees (t : Transport) (encodedEcdhPrivate : Bytes) : Prop :=
  (∃ ecdh ecdhPrivate ecdhPublic secret, W.providers.newEcdh = .ok ecdh ∧
    W.providers.importPkcs8PrivateKey ecdh encodedEcdhPrivate = .ok ecdhPrivate ∧
    W.providers.importSubjectPublicKeyInfo ecdh t.exportedPublicKeyData = .ok ecdhPublic ∧
    W.providers.deriveSecret ecdhPrivate ecdhPublic = .ok secret) ∧ ∀ c ∈ agreementCalls, W.fails c = false

/-- Nothing fails on the way to the object for the key derivation. -/
def SecretShared : Prop :=
  ∃ t encodedEcdhPrivate, Opens W claims paddingScheme t ∧ Unwraps W t encodedEcdhPrivate ∧
    Agrees W t encodedEcdhPrivate

end

/-- The destructors will destroy what is alive, each handle once. -/
def Owned (s : Objects) : Prop := s.handles.Holds s.destroyed

/-- Two objects name the shared secret. -/
def Shared (t : ℕ) (s : Objects) : Prop :=
  (∃ hAlg, s.hkdf = some ⟨t, hAlg⟩) ∧ ∃ e, s.ecdhPrivate = some e ∧ e.hSharedSecret = some t

theorem owned_start : Owned Objects.start := Ledger.holds_empty

theorem Owned.leave {s : Objects} (h : Owned s) : Ledger.empty.Settled s.leave := Ledger.Holds.releaseAll h

theorem Shared.leave {t : ℕ} {s : Objects} (h : Shared t s) : ¬Ledger.empty.Settled s.leave := by
  obtain ⟨⟨hAlg, hhkdf⟩, e, hecdh, hsecret⟩ := h
  have htwice : ¬s.destroyed.Nodup := by
    intro hnodup
    rw [Objects.destroyed, hhkdf, hecdh] at hnodup
    have hdisjoint := List.disjoint_of_nodup_append hnodup
    exact @hdisjoint t (by simp [BcryptHKDF.destroyed]) (by simp [BcryptECDiffieHellman.destroyed, hsecret])
  rintro ⟨-, hmisused⟩
  rw [Objects.leave, Ledger.releaseAll_misused_of_not_nodup htwice] at hmisused
  cases hmisused

/-! ### The steps -/

section

variable {W : Windows} {α : Type} {s : Objects} {R : Objects → Prop}

theorem attempt_eq_ok {c : WindowsCall} (h : W.fails c = false) : attempt W c = .ok () := by
  rw [attempt, h]
  rfl

theorem check_ends {c : WindowsCall} {Q : Unit → Objects → Prop} (hok : W.fails c = false → Q () s)
    (herr : W.fails c = true → R s) : (check W c).Ends s Q R := by
  rw [check, Proc.ends_call_iff]
  cases hc : W.fails c with
  | false => simpa [attempt_eq_ok hc] using fun _ => hok hc
  | true => simpa [attempt, hc] using herr hc

theorem checkAll_ends {cs : List WindowsCall} {Q : Unit → Objects → Prop}
    (hok : (∀ c ∈ cs, W.fails c = false) → Q () s) (herr : (∃ c ∈ cs, W.fails c = true) → R s) :
    (checkAll W cs).Ends s Q R := by
  induction cs with
  | nil => exact hok fun _ hc => absurd hc List.not_mem_nil
  | cons c cs ih =>
      rw [checkAll, Proc.ends_bind_iff]
      refine check_ends (fun hc => ?_) fun hc => herr ⟨c, List.mem_cons_self, hc⟩
      apply ih
      · intro hcs
        exact hok (List.forall_mem_cons.2 ⟨hc, hcs⟩)
      · rintro ⟨c', hmem, hc'⟩
        exact herr ⟨c', List.mem_cons_of_mem c hmem, hc'⟩

theorem call_ends {x : Except Exc α} {Q : α → Objects → Prop} (hok : ∀ a, x = .ok a → Q a s) (herr : R s) :
    (call x).Ends s Q R := by
  rw [call, Proc.ends_call_iff]
  exact ⟨fun a ha => hok a (mapError_ok_iff.1 ha), fun _ => herr⟩

theorem call_ok_ends {x : Except Exc α} {a : α} {Q : α → Objects → Prop} (hx : x = .ok a) (hok : Q a s) :
    (call x).Ends s Q R := by
  rw [hx]
  exact hok

theorem create_ends {c : WindowsCall} {kind : HandleKind} {store : ℕ → Objects → Objects} {Q : ℕ → Objects → Prop}
    (hok : W.fails c = false → Q s.handles.next (store s.handles.next { s with handles := s.handles.acquire kind }))
    (herr : W.fails c = true → R s) : (create W c kind store).Ends s Q R := by
  rw [create, Proc.ends_bind_iff]
  exact check_ends hok herr

/-- A handle that is written to an empty member is owned. -/
theorem create_owned {c : WindowsCall} {kind : HandleKind} {store : ℕ → Objects → Objects} {Q : ℕ → Objects → Prop}
    (hs : Owned s) (hframe : ∀ t L, (store t { s with handles := L }).handles = L)
    (hperm : ∀ t L, (t :: s.destroyed).Perm (store t { s with handles := L }).destroyed)
    (hok : ∀ t L, W.fails c = false → Owned (store t { s with handles := L }) → Q t (store t { s with handles := L })) :
    (create W c kind store).Ends s Q Owned := by
  refine create_ends (fun hc => hok _ _ hc ?_) fun _ => hs
  have hholds := (Ledger.Holds.acquire hs kind).perm (hperm s.handles.next (s.handles.acquire kind))
  rw [Owned, hframe]
  exact hholds

/-- The constructor from the start, when no property makes it throw. -/
theorem createAesWrapper_owned {Q : W.providers.Aes → Objects → Prop}
    (hprops : ∀ aes, W.providers.createAesWrapper = .ok aes → W.fails .openAes = false →
      ∀ c ∈ aesProperties, W.fails c = false)
    (hok : ∀ aes hAesHandle L, W.providers.createAesWrapper = .ok aes → W.fails .openAes = false →
      Owned ⟨L, some ⟨hAesHandle, none⟩, none, none, none⟩ →
        Q aes ⟨L, some ⟨hAesHandle, none⟩, none, none, none⟩) :
    (createAesWrapper W).Ends Objects.start Q Owned := by
  rw [createAesWrapper, Proc.ends_bind_iff]
  refine call_ends (fun aes haes => ?_) owned_start
  rw [Proc.ends_bind_iff]
  refine create_ends (fun hopen => ?_) fun _ => owned_start
  rw [Proc.ends_bind_iff]
  refine checkAll_ends (fun _ => ?_) fun ⟨c, hc, hfails⟩ => absurd hfails (by simp [hprops aes haes hopen c hc])
  exact hok aes _ _ haes hopen (Ledger.holds_empty.acquire HandleKind.provider)

theorem setKey_owned {use : AesUse} {aes : W.providers.Aes} {key : Bytes} {Q : W.providers.Aes → Objects → Prop}
    {hAesHandle : ℕ} (hw : s.aesWrapper = some ⟨hAesHandle, none⟩) (hs : Owned s)
    (hok : ∀ aes' hAesKey L, W.providers.setKey aes key = .ok aes' → W.fails (.generateSymmetricKey use) = false →
      Owned { s with handles := L, aesWrapper := some ⟨hAesHandle, some hAesKey⟩ } →
        Q aes' { s with handles := L, aesWrapper := some ⟨hAesHandle, some hAesKey⟩ }) :
    (setKey W use aes key).Ends s Q Owned := by
  rw [setKey, Proc.ends_bind_iff]
  refine call_ends (fun aes' haes => ?_) hs
  rw [Proc.ends_bind_iff]
  apply create_owned hs (fun _ _ => rfl)
  · intro t L
    rw [List.perm_iff_count]
    intro x
    simp only [Objects.destroyed, hw, GcmWrapper.destroyed, Option.map_some, Option.toList_some, Option.toList_none,
      List.flatMap_cons, List.flatMap_nil, List.count_append, List.count_cons, List.count_nil]
    omega
  · intro t L hc hs'
    simp only [hw, Option.map_some] at hs' ⊢
    exact hok aes' t L haes hc hs'

theorem decrypt_owned {use : AesUse} {aes : W.providers.Aes} {nonce ciphertext : Bytes} {Q : Bytes → Objects → Prop}
    (hs : Owned s)
    (hok : ∀ text, (∀ c ∈ [.chainingTagLength use, .chainingBlockLength use, .decrypt use], W.fails c = false) →
      W.providers.aesDecrypt aes nonce ciphertext = .ok text → Q text s) :
    (decrypt W use aes nonce ciphertext).Ends s Q Owned := by
  rw [decrypt, Proc.ends_bind_iff]
  refine checkAll_ends (fun hcalls => ?_) fun _ => hs
  exact call_ends (fun text htext => hok text hcalls htext) hs

/-! ### The objects for the key agreement -/

def ecdhDestroyed (e : Option BcryptECDiffieHellman) : List ℕ := e.toList.flatMap BcryptECDiffieHellman.destroyed

theorem perm_setEcdh {object : EcdhObject} {f : Option BcryptECDiffieHellman → Option BcryptECDiffieHellman} {t : ℕ}
    (h : (t :: ecdhDestroyed (s.ecdh object)).Perm (ecdhDestroyed (f (s.ecdh object)))) :
    (t :: s.destroyed).Perm (s.setEcdh object f).destroyed := by
  rw [List.perm_iff_count] at h ⊢
  intro x
  have hx := h x
  cases object with
  | ecdhPrivate =>
      simp only [Objects.ecdh, ecdhDestroyed, List.count_cons] at hx
      simp only [Objects.destroyed, Objects.setEcdh, List.count_cons, List.count_append, ← hx]
      omega
  | ecdhPublic =>
      simp only [Objects.ecdh, ecdhDestroyed, List.count_cons] at hx
      simp only [Objects.destroyed, Objects.setEcdh, List.count_cons, List.count_append, ← hx]
      omega

/-- A call that fills a member of one of the two objects leaves the other one alone. -/
theorem createEcdh_owned {c : WindowsCall} {kind : HandleKind} {object : EcdhObject} {Q : ℕ → Objects → Prop}
    {f : ℕ → Option BcryptECDiffieHellman → Option BcryptECDiffieHellman} (hs : Owned s)
    (hperm : ∀ t, (t :: ecdhDestroyed (s.ecdh object)).Perm (ecdhDestroyed (f t (s.ecdh object))))
    (hok : ∀ t s', W.fails c = false → Owned s' → s'.ecdh object = f t (s.ecdh object) →
      (∀ o, o ≠ object → s'.ecdh o = s.ecdh o) → Q t s') :
    (create W c kind fun t => Objects.setEcdh object (f t)).Ends s Q Owned := by
  apply create_owned hs
  · intro t L
    cases object with
    | ecdhPrivate => rfl
    | ecdhPublic => rfl
  · intro t L
    exact @perm_setEcdh { s with handles := L } object (f t) t (hperm t)
  · intro t L hc hs'
    apply hok t _ hc hs'
    · cases object with
      | ecdhPrivate => rfl
      | ecdhPublic => rfl
    · intro o ho
      cases object with
      | ecdhPrivate =>
          cases o with
          | ecdhPrivate => exact absurd rfl ho
          | ecdhPublic => rfl
      | ecdhPublic =>
          cases o with
          | ecdhPrivate => rfl
          | ecdhPublic => exact absurd rfl ho

theorem newEcdh_owned {object : EcdhObject} {Q : W.providers.Ecdh → Objects → Prop} (hs : Owned s)
    (he : s.ecdh object = none)
    (hok : ∀ ecdh h s', W.providers.newEcdh = .ok ecdh → W.fails (.openEcdh object) = false → Owned s' →
      s'.ecdh object = some ⟨h, none, none⟩ → (∀ o, o ≠ object → s'.ecdh o = s.ecdh o) → Q ecdh s') :
    (newEcdh W object).Ends s Q Owned := by
  rw [newEcdh, Proc.ends_bind_iff]
  refine call_ends (fun ecdh hecdh => ?_) hs
  rw [Proc.ends_bind_iff]
  apply createEcdh_owned hs
  · intro t
    rw [he]
    exact List.Perm.refl _
  · intro t s' hc hs' hobject hframe
    exact hok ecdh t s' hecdh hc hs' hobject hframe

theorem importKeyPair_owned {object : EcdhObject} {Q : ℕ → Objects → Prop} {h : ℕ} (hs : Owned s)
    (he : s.ecdh object = some ⟨h, none, none⟩)
    (hok : ∀ t s', W.fails (.importKeyPair object) = false → Owned s' → s'.ecdh object = some ⟨h, some t, none⟩ →
      (∀ o, o ≠ object → s'.ecdh o = s.ecdh o) → Q t s') : (importKeyPair W object).Ends s Q Owned := by
  apply createEcdh_owned hs
  · intro t
    rw [he]
    exact List.Perm.refl _
  · intro t s' hc hs' hobject hframe
    rw [he] at hobject
    exact hok t s' hc hs' hobject hframe

theorem importPkcs8PrivateKey_owned {ecdh : W.providers.Ecdh} {derPrivateKey : Bytes} {h : ℕ}
    {Q : W.providers.Ecdh → Objects → Prop} (hs : Owned s) (he : s.ecdh .ecdhPrivate = some ⟨h, none, none⟩)
    (hok : ∀ ecdh' t s', W.providers.importPkcs8PrivateKey ecdh derPrivateKey = .ok ecdh' →
      (∀ c ∈ [.decodePrivateKeyInfo, .decodeEccPrivateKey, .publicKeyForm], W.fails c = false) →
      W.fails (.importKeyPair .ecdhPrivate) = false → Owned s' →
      s'.ecdh .ecdhPrivate = some ⟨h, some t, none⟩ → (∀ o, o ≠ .ecdhPrivate → s'.ecdh o = s.ecdh o) → Q ecdh' s') :
    (importPkcs8PrivateKey W ecdh derPrivateKey).Ends s Q Owned := by
  rw [importPkcs8PrivateKey, Proc.ends_bind_iff]
  refine checkAll_ends (fun hcalls => ?_) fun _ => hs
  rw [Proc.ends_bind_iff]
  refine call_ends (fun ecdh' hecdh => ?_) hs
  rw [Proc.ends_bind_iff]
  refine importKeyPair_owned hs he fun t s' himport hs' hobject hframe => ?_
  exact hok ecdh' t s' hecdh hcalls himport hs' hobject hframe

theorem importSubjectPublicKeyInfo_owned {ecdh : W.providers.Ecdh} {derPublicKey : Bytes} {h : ℕ}
    {Q : W.providers.Ecdh → Objects → Prop} (hs : Owned s) (he : s.ecdh .ecdhPublic = some ⟨h, none, none⟩)
    (hok : ∀ ecdh' s', W.providers.importSubjectPublicKeyInfo ecdh derPublicKey = .ok ecdh' →
      W.fails .decodePublicKeyInfo = false → W.fails (.importKeyPair .ecdhPublic) = false → Owned s' →
        (∀ o, o ≠ .ecdhPublic → s'.ecdh o = s.ecdh o) → Q ecdh' s') :
    (importSubjectPublicKeyInfo W ecdh derPublicKey).Ends s Q Owned := by
  rw [importSubjectPublicKeyInfo, Proc.ends_bind_iff]
  refine check_ends (fun hinfo => ?_) fun _ => hs
  rw [Proc.ends_bind_iff]
  refine call_ends (fun ecdh' hecdh => ?_) hs
  rw [Proc.ends_bind_iff]
  refine importKeyPair_owned hs he fun t s' himport hs' _ hframe => ?_
  exact hok ecdh' s' hecdh hinfo himport hs' hframe

theorem deriveSecret_owned {ecdh otherParty : W.providers.Ecdh} {Q : Bytes × ℕ → Objects → Prop} {h : ℕ}
    {k : Option ℕ} (hs : Owned s) (he : s.ecdh .ecdhPrivate = some ⟨h, k, none⟩)
    (hok : ∀ secret t s', W.providers.deriveSecret ecdh otherParty = .ok secret → W.fails .secretAgreement = false →
      Owned s' → Q (secret, t) s') : (deriveSecret W ecdh otherParty).Ends s Q Owned := by
  rw [deriveSecret, Proc.ends_bind_iff]
  refine call_ends (fun secret hsecret => ?_) hs
  rw [Proc.ends_bind_iff]
  apply createEcdh_owned hs
  · intro t
    rw [he]
    exact List.Perm.refl _
  · intro t s' hc hs' _ _
    exact hok secret t s' hsecret hc hs'

end

/-! ### The steps when nothing fails -/

section

variable {W : Windows} {α : Type} {s : Objects} {aes aes' : W.providers.Aes} {ecdh ecdh' otherParty : W.providers.Ecdh}

theorem call_exec {x : Except Exc α} {a : α} (h : x = .ok a) : (call x).exec s = (.ok a, s) := by
  rw [h]
  rfl

theorem check_exec {c : WindowsCall} (h : W.fails c = false) : (check W c).exec s = (.ok (), s) := by
  rw [check, attempt_eq_ok h, Proc.exec_call]

theorem checkAll_exec {cs : List WindowsCall} (h : ∀ c ∈ cs, W.fails c = false) :
    (checkAll W cs).exec s = (.ok (), s) := by
  induction cs with
  | nil => rfl
  | cons c cs ih =>
      obtain ⟨hc, hcs⟩ := List.forall_mem_cons.1 h
      rw [checkAll, Proc.exec_bind_ok (check_exec hc)]
      exact ih hcs

theorem create_exec {c : WindowsCall} {kind : HandleKind} {store : ℕ → Objects → Objects} (h : W.fails c = false) :
    (create W c kind store).exec s =
      (.ok s.handles.next, store s.handles.next { s with handles := s.handles.acquire kind }) := by
  rw [create, Proc.exec_bind_ok (check_exec h)]
  rfl

theorem createAesWrapper_exec (haes : W.providers.createAesWrapper = .ok aes)
    (hcalls : ∀ c ∈ .openAes :: aesProperties, W.fails c = false) :
    (createAesWrapper W).exec s =
      (.ok aes, { s with handles := s.handles.acquire .provider, aesWrapper := some ⟨s.handles.next, none⟩ }) := by
  obtain ⟨hopen, hproperties⟩ := List.forall_mem_cons.1 hcalls
  rw [createAesWrapper, Proc.exec_bind_ok (call_exec haes), Proc.exec_bind_ok (create_exec hopen),
    Proc.exec_bind_ok (checkAll_exec hproperties)]
  rfl

theorem setKey_exec {use : AesUse} {key : Bytes} (hset : W.providers.setKey aes key = .ok aes')
    (hcall : W.fails (.generateSymmetricKey use) = false) :
    (setKey W use aes key).exec s =
      (.ok aes', { s with
        handles := s.handles.acquire .key
        aesWrapper := s.aesWrapper.map fun w => { w with hAesKey := some s.handles.next } }) := by
  rw [setKey, Proc.exec_bind_ok (call_exec hset), Proc.exec_bind_ok (create_exec hcall)]
  rfl

theorem decrypt_exec {use : AesUse} {nonce ciphertext text : Bytes}
    (htext : W.providers.aesDecrypt aes nonce ciphertext = .ok text)
    (hcalls : ∀ c ∈ [.chainingTagLength use, .chainingBlockLength use, .decrypt use], W.fails c = false) :
    (decrypt W use aes nonce ciphertext).exec s = (.ok text, s) := by
  rw [decrypt, Proc.exec_bind_ok (checkAll_exec hcalls), call_exec htext]

theorem newEcdh_exec {object : EcdhObject} (hnew : W.providers.newEcdh = .ok ecdh)
    (hopen : W.fails (.openEcdh object) = false) :
    (newEcdh W object).exec s = (.ok ecdh, Objects.setEcdh object (fun _ => some ⟨s.handles.next, none, none⟩)
      { s with handles := s.handles.acquire .provider }) := by
  rw [newEcdh, Proc.exec_bind_ok (call_exec hnew), Proc.exec_bind_ok (create_exec hopen)]
  rfl

/-- The object with its key. -/
def withKey (object : EcdhObject) (s : Objects) : Objects :=
  Objects.setEcdh object (Option.map fun e => { e with hEccKeyHandle := some s.handles.next })
    { s with handles := s.handles.acquire .key }

theorem importPkcs8PrivateKey_exec {derPrivateKey : Bytes}
    (hkey : W.providers.importPkcs8PrivateKey ecdh derPrivateKey = .ok ecdh')
    (hcalls : ∀ c ∈ [.decodePrivateKeyInfo, .decodeEccPrivateKey, .publicKeyForm], W.fails c = false)
    (himport : W.fails (.importKeyPair .ecdhPrivate) = false) :
    (importPkcs8PrivateKey W ecdh derPrivateKey).exec s = (.ok ecdh', withKey .ecdhPrivate s) := by
  rw [importPkcs8PrivateKey, Proc.exec_bind_ok (checkAll_exec hcalls), Proc.exec_bind_ok (call_exec hkey),
    importKeyPair, Proc.exec_bind_ok (create_exec himport)]
  rfl

theorem importSubjectPublicKeyInfo_exec {derPublicKey : Bytes}
    (hkey : W.providers.importSubjectPublicKeyInfo ecdh derPublicKey = .ok ecdh')
    (hinfo : W.fails .decodePublicKeyInfo = false) (hcall : W.fails (.importKeyPair .ecdhPublic) = false) :
    (importSubjectPublicKeyInfo W ecdh derPublicKey).exec s = (.ok ecdh', withKey .ecdhPublic s) := by
  rw [importSubjectPublicKeyInfo, Proc.exec_bind_ok (check_exec hinfo), Proc.exec_bind_ok (call_exec hkey),
    importKeyPair, Proc.exec_bind_ok (create_exec hcall)]
  rfl

theorem deriveSecret_exec {secret : Bytes} (hsecret : W.providers.deriveSecret ecdh otherParty = .ok secret)
    (hcall : W.fails .secretAgreement = false) :
    (deriveSecret W ecdh otherParty).exec s = (.ok (secret, s.handles.next),
      Objects.setEcdh .ecdhPrivate (Option.map fun e => { e with hSharedSecret := some s.handles.next })
        { s with handles := s.handles.acquire .secret }) := by
  rw [deriveSecret, Proc.exec_bind_ok (call_exec hsecret), Proc.exec_bind_ok (create_exec hcall)]
  rfl

end

/-! ### Whole runs -/

section

variable {W : Windows} {claims : Json} {paddingScheme : RsaPaddingScheme} {infoData : Bytes}

/-- From the decrypted private key on, everything is owned until the shared secret has two owners. -/
theorem agreeOnSecret_owned {t : Transport} {aes : W.providers.Aes} {encodedEcdhPrivate : Bytes} {s : Objects}
    (hs : Owned s) (hnone : ∀ o, s.ecdh o = none)
    (hagrees : ¬Agrees W t encodedEcdhPrivate) :
    (agreeOnSecret W t infoData aes encodedEcdhPrivate).Ends s (fun _ => Owned) Owned := by
  rw [agreeOnSecret, Proc.ends_bind_iff]
  refine newEcdh_owned hs (hnone _) fun ecdh h s₁ hnew hopen hs₁ hprivate hframe₁ => ?_
  rw [Proc.ends_bind_iff]
  refine newEcdh_owned hs₁ ((hframe₁ _ (by decide)).trans (hnone _)) fun ecdh' h' s₂ hnew' hopen' hs₂ hpublic hframe₂ =>
    ?_
  cases hnew.symm.trans hnew'
  rw [Proc.ends_bind_iff]
  refine importPkcs8PrivateKey_owned hs₂ ((hframe₂ _ (by decide)).trans hprivate) fun ecdhPrivate k s₃ hpkcs8 hdecode
    himport hs₃ hprivate₃ hframe₃ => ?_
  rw [Proc.ends_bind_iff]
  refine importSubjectPublicKeyInfo_owned hs₃ ((hframe₃ _ (by decide)).trans hpublic) fun ecdhPublic s₄ hspki hdecode'
    himport' hs₄ hframe₄ => ?_
  rw [Proc.ends_bind_iff]
  refine deriveSecret_owned hs₄ ((hframe₄ _ (by decide)).trans hprivate₃) fun secret t s₅ hsecret hagree hs₅ => ?_
  rw [Proc.ends_bind_iff]
  refine create_ends (fun hhmac => absurd ?_ hagrees) fun _ => hs₅
  refine ⟨⟨ecdh, ecdhPrivate, ecdhPublic, secret, hnew, hpkcs8, hspki, hsecret⟩, ?_⟩
  simp only [List.forall_mem_cons] at hdecode
  simp [agreementCalls, hopen, hopen', hdecode, himport, hdecode', himport', hagree, hhmac]

theorem decryptClaims_owned (hinfo : W.providers.getSystemUuid = .ok infoData)
    (hlost : ¬ProviderLost W claims paddingScheme) (hshared : ¬SecretShared W claims paddingScheme) :
    (decryptClaims W claims infoData paddingScheme).Ends Objects.start (fun _ => Owned) Owned := by
  rw [decryptClaims, Proc.ends_bind_iff]
  refine call_ends (fun t ht => ?_) owned_start
  cases hkey : t.aesKey.isEmpty with
  | true => exact owned_start
  | false =>
      have hopens : Opens W claims paddingScheme t := ⟨⟨infoData, hinfo⟩, ht, hkey⟩
      have hprops : ∀ aes, W.providers.createAesWrapper = .ok aes → W.fails .openAes = false →
          ∀ c ∈ aesProperties, W.fails c = false := by
        intro aes haes hopen c hc
        rw [Bool.eq_false_iff]
        intro hfails
        exact hlost ⟨t, aes, hopens, haes, hopen, c, hc, hfails⟩
      rw [if_neg Bool.false_ne_true, Proc.ends_bind_iff]
      refine createAesWrapper_owned hprops fun aes₀ hAesHandle L haes hopen hs => ?_
      rw [Proc.ends_bind_iff]
      refine setKey_owned rfl hs fun aes hAesKey L' hset hgenerate hs' => ?_
      rw [Proc.ends_bind_iff]
      refine decrypt_owned hs' fun encodedEcdhPrivate hdecrypt hencoded => ?_
      cases hempty : encodedEcdhPrivate.isEmpty with
      | true => exact hs'
      | false =>
          rw [if_neg Bool.false_ne_true]
          have hunwraps : Unwraps W t encodedEcdhPrivate := by
            refine ⟨⟨aes₀, aes, haes, hset, hencoded⟩, hempty, List.forall_mem_append.2 ⟨?_, ?_⟩⟩
            · exact List.forall_mem_cons.2 ⟨hopen, hprops aes₀ haes hopen⟩
            · exact List.forall_mem_cons.2 ⟨hgenerate, hdecrypt⟩
          have hnone : ∀ o, (⟨L', some ⟨hAesHandle, some hAesKey⟩, none, none, none⟩ : Objects).ecdh o = none := by
            intro o
            cases o with
            | ecdhPrivate => rfl
            | ecdhPublic => rfl
          exact agreeOnSecret_owned hs' hnone fun hagrees =>
            hshared ⟨t, encodedEcdhPrivate, hopens, hunwraps, hagrees⟩

/-- Nothing but the provider that the constructor has opened, and no object that holds it. -/
def Objects.lost : Objects := { Objects.start with handles := Ledger.empty.acquire .provider }

theorem not_settled_lost : ¬Ledger.empty.Settled Objects.lost.leave :=
  Ledger.not_settled_of_held (le_refl 0) rfl

theorem decryptClaims_lost (hlost : ProviderLost W claims paddingScheme) :
    (decryptClaims W claims infoData paddingScheme).Ends Objects.start (fun _ s => s = Objects.lost)
      fun s => s = Objects.lost := by
  obtain ⟨t, aes, ⟨-, ht, hkey⟩, haes, hopen, c, hc, hfails⟩ := hlost
  rw [decryptClaims, Proc.ends_bind_iff]
  apply call_ok_ends ht
  rw [hkey, if_neg Bool.false_ne_true, Proc.ends_bind_iff, createAesWrapper, Proc.ends_bind_iff]
  apply call_ok_ends haes
  rw [Proc.ends_bind_iff]
  refine create_ends (fun _ => ?_) fun h => absurd h (by simp [hopen])
  rw [Proc.ends_bind_iff]
  refine checkAll_ends (fun hnone => ?_) fun _ => rfl
  rw [hnone c hc] at hfails
  cases hfails

/-! The rest of the run changes neither of the two objects that name the secret. -/

theorem create_keeps {c : WindowsCall} {kind : HandleKind} {store : ℕ → Objects → Objects} {I : Objects → Prop}
    (h : ∀ t L s, I s → I (store t { s with handles := L })) : (create W c kind store).Keeps I := by
  intro s hs
  exact create_ends (fun _ => h _ _ s hs) fun _ => hs

theorem checkAll_keeps (cs : List WindowsCall) (I : Objects → Prop) : (checkAll W cs).Keeps I :=
  fun _ hs => checkAll_ends (fun _ => hs) fun _ => hs

theorem expandRound_keeps (i hSharedSecret : ℕ) : (expandRound W i).Keeps (Shared hSharedSecret) := by
  apply Proc.Keeps.bind (create_keeps fun _ _ _ hs => hs)
  intro hHash
  apply Proc.Keeps.bind (checkAll_keeps _ _)
  intro _ s hs
  exact hs

theorem expandLoop_keeps (hSharedSecret rounds i : ℕ) : (expandLoop W rounds i).Keeps (Shared hSharedSecret) := by
  induction rounds generalizing i with
  | zero => exact Proc.keeps_pure _ _
  | succ rounds ih => exact Proc.Keeps.bind (expandRound_keeps i hSharedSecret) fun _ => ih (i + 1)

theorem recoverSecret_keeps (t : Transport) (aes : W.providers.Aes) (secret : Bytes) (hSharedSecret : ℕ) :
    (recoverSecret W t infoData aes secret).Keeps (Shared hSharedSecret) := by
  have hkey : (deriveKey W secret t.salt infoData 32).Keeps (Shared hSharedSecret) := by
    apply Proc.Keeps.bind (checkAll_keeps _ _)
    intro _
    exact Proc.Keeps.bind (expandLoop_keeps hSharedSecret _ _) fun _ => Proc.keeps_call _ _
  have hset : ∀ aesKey, (setKey W .data aes aesKey).Keeps (Shared hSharedSecret) := by
    intro aesKey
    apply Proc.Keeps.bind (Proc.keeps_call _ _)
    intro aes'
    exact Proc.Keeps.bind (create_keeps fun _ _ _ hs => hs) fun _ => Proc.keeps_pure _ _
  have hdecrypt : ∀ aes', (decrypt W .data aes' t.dataNonce t.encryptedSecret).Keeps (Shared hSharedSecret) := by
    intro aes'
    exact Proc.Keeps.bind (checkAll_keeps _ _) fun _ => Proc.keeps_call _ _
  apply Proc.Keeps.bind hkey
  intro aesKey
  apply Proc.Keeps.bind (hset aesKey)
  intro aes'
  apply Proc.Keeps.bind (hdecrypt aes')
  intro plaintextData
  split
  · exact Proc.keeps_pure _ _
  · exact Proc.keeps_pure _ _

theorem decryptClaims_shared (hshared : SecretShared W claims paddingScheme) :
    ∃ hSharedSecret, (decryptClaims W claims infoData paddingScheme).Ends Objects.start
      (fun _ => Shared hSharedSecret) (Shared hSharedSecret) := by
  obtain ⟨t, encodedEcdhPrivate, ⟨-, ht, hkey⟩, ⟨⟨aes₀, aes, haes, hset, hencoded⟩, hne, hcalls⟩,
    ⟨ecdh, ecdhPrivate, ecdhPublic, secret, hnew, hpkcs8, hspki, hsecret⟩, hagree⟩ := hshared
  obtain ⟨hcreate, hunwrap⟩ := List.forall_mem_append.1 hcalls
  simp only [agreementCalls, List.forall_mem_cons] at hagree
  obtain ⟨hgenerate, hdecrypt⟩ := List.forall_mem_cons.1 hunwrap
  obtain ⟨hprivate, hpublic, hinfo, hecc, hform, himport, hinfo', himport', hagreement, hhmac, -⟩ := hagree
  have hdecode : ∀ c ∈ [.decodePrivateKeyInfo, .decodeEccPrivateKey, .publicKeyForm], W.fails c = false := by
    simp [hinfo, hecc, hform]
  unfold Proc.Ends decryptClaims
  rw [Proc.exec_bind_ok (call_exec ht), hkey, if_neg Bool.false_ne_true,
    Proc.exec_bind_ok (createAesWrapper_exec haes hcreate), Proc.exec_bind_ok (setKey_exec hset hgenerate),
    Proc.exec_bind_ok (decrypt_exec hencoded hdecrypt), hne, if_neg Bool.false_ne_true, agreeOnSecret,
    Proc.exec_bind_ok (newEcdh_exec hnew hprivate), Proc.exec_bind_ok (newEcdh_exec hnew hpublic),
    Proc.exec_bind_ok (importPkcs8PrivateKey_exec hpkcs8 hdecode himport),
    Proc.exec_bind_ok (importSubjectPublicKeyInfo_exec hspki hinfo' himport'),
    Proc.exec_bind_ok (deriveSecret_exec hsecret hagreement)]
  dsimp only
  rw [newHkdf, Proc.exec_bind_ok (create_exec hhmac)]
  exact ⟨_, recoverSecret_keeps t aes secret _ _ ⟨⟨_, rfl⟩, _, rfl, rfl⟩⟩

/-- A decryption destroys every handle it has created exactly once, unless the constructor of the AES object throws
with its provider open, or the decryption gets as far as the key derivation. -/
theorem decryptSecret_settled_iff (W : Windows) (claims : Json) (paddingScheme : RsaPaddingScheme) :
    Ledger.empty.Settled (decryptSecret W claims paddingScheme).2 ↔
      ¬ProviderLost W claims paddingScheme ∧ ¬SecretShared W claims paddingScheme := by
  cases hinfo : W.providers.getSystemUuid with
  | error e =>
      have hopens : ∀ t, ¬Opens W claims paddingScheme t := by
        rintro t ⟨⟨infoString, h⟩, -⟩
        cases hinfo.symm.trans h
      rw [decryptSecret, hinfo]
      refine iff_of_true Ledger.Settled.refl ⟨?_, ?_⟩
      · rintro ⟨t, aes, ht, -⟩
        exact hopens t ht
      · rintro ⟨t, encodedEcdhPrivate, ht, -⟩
        exact hopens t ht
  | ok infoString =>
      have hleave : (decryptSecret W claims paddingScheme).2 =
          ((decryptClaims W claims infoString paddingScheme).exec Objects.start).2.leave := by
        rw [decryptSecret, hinfo]
      rw [hleave]
      constructor
      · intro hsettled
        refine ⟨fun hlost => ?_, fun hshared => ?_⟩
        · rw [(decryptClaims_lost hlost).final] at hsettled
          exact not_settled_lost hsettled
        · obtain ⟨hSharedSecret, hends⟩ := @decryptClaims_shared W claims paddingScheme infoString hshared
          exact hends.final.leave hsettled
      · rintro ⟨hlost, hshared⟩
        exact (decryptClaims_owned hinfo hlost hshared).final.leave

/-- No call fails and the secret is returned: its handle is destroyed twice, and the first AES key, the second handle
that was created, is still alive. -/
theorem decryptSecret_destroys_twice :
    (decryptSecret ⟨Sample.providers [7], fun _ => false⟩ (Sample.object Sample.claims) .rsaes).1 = .ok (0, [7]) ∧
    (decryptSecret ⟨Sample.providers [7], fun _ => false⟩ (Sample.object Sample.claims) .rsaes).2.held 1 = some .key ∧
    (decryptSecret ⟨Sample.providers [7], fun _ => false⟩ (Sample.object Sample.claims) .rsaes).2.misused = true ∧
    ¬Ledger.empty.Settled
      (decryptSecret ⟨Sample.providers [7], fun _ => false⟩ (Sample.object Sample.claims) .rsaes).2 := by
  have hmisused : (decryptSecret ⟨Sample.providers [7], fun _ => false⟩ (Sample.object Sample.claims)
      .rsaes).2.misused = true := by decide +kernel
  refine ⟨by decide +kernel, by decide +kernel, hmisused, ?_⟩
  rintro ⟨-, hsettled⟩
  rw [hmisused] at hsettled
  cases hsettled

end

end CvmAttestation.Secrets.Handles
