import CvmAttestation.TpmObjects

/-! Which operations leave the loaded objects of the TPM as they were. Every one of them flushes by hand, and on some of
its ways out it does not: nothing flushes a key that was created when the handle of the AIK cannot be opened, the data
that `Unseal` has loaded, the endorsement key when its use fails, or the one that is created only to be read. -/

namespace CvmAttestation.Tpm.Objects

open Base

variable {Key : Type}

inductive Operation
  | getEphemeralKey (pcrSet : PcrSet)
  | getEkPubWithCertification
  | decryptWithEphemeralKey (pcrSet : PcrSet) (encryptedBlob : Bytes) (rsaWrapAlgId : RsaScheme)
      (rsaHashAlgId : RsaHashAlg)
  | unsealWithEkFromSpec (sealed : Sealed)
  | unseal (sealed : Sealed)
  | getEkPubWithoutPersisting

/-- The TPM that an operation leaves, whether it returns or throws. -/
def Operation.after (P : Platform Key) (s : ObjectStore Key) : Operation → ObjectStore Key
  | .getEphemeralKey pcrSet => ((Objects.getEphemeralKey P pcrSet).exec s).2
  | .getEkPubWithCertification => ((Objects.getEkPubWithCertification P).exec s).2
  | .decryptWithEphemeralKey pcrSet encryptedBlob rsaWrapAlgId rsaHashAlgId =>
    ((Objects.decryptWithEphemeralKey P pcrSet encryptedBlob rsaWrapAlgId rsaHashAlgId).exec s).2
  | .unsealWithEkFromSpec sealed => ((Objects.unsealWithEkFromSpec P sealed).exec s).2
  | .unseal sealed => ((Objects.Tss2Wrapper.unseal P sealed).exec s).2
  | .getEkPubWithoutPersisting => ((Objects.getEkPubWithoutPersisting P).exec s).2

/-! ### When an object is loaded -/

section

variable (P : Platform Key)

/-- The registers of the set are there, and no call up to the creation of the key fails. -/
def EphemeralKeyCreated (pcrSet : PcrSet) : Prop :=
  (∀ pcr ∈ pcrSet.pcrs, pcr.index < P.dev.pcrCount) ∧
    ∀ c ∈ [TpmCall.digestCapability, .trialStart, .trialPolicyPcr, .trialGetDigest, .createPrimary], P.fails c = false

/-- The texts can be unmarshalled, and no call up to `Load` fails. -/
def DataLoaded (sealed : Sealed) : Prop :=
  ((P.unmarshal .importablePublic sealed.importablePublic).isSome ∧
    (P.unmarshal .importablePrivate sealed.importablePrivate).isSome ∧
    (P.unmarshal .encryptedSeed sealed.encryptedSeed).isSome) ∧
    ∀ c ∈ [TpmCall.importStart, .importPolicySecret, .importData, .loadStart, .loadPolicySecret, .load],
      P.fails c = false

/-- The description of the endorsement key is read or absent, and the creation of the key does not fail. -/
def EkCreated : Prop := (∃ inPub, populateEkPublicInput P = .ok inPub) ∧ P.fails .createPrimary = false

/-- The operation does not get to the point where it forgets an object. -/
def Operation.Tidy (s : ObjectStore Key) : Operation → Prop
  | .getEphemeralKey pcrSet => EphemeralKeyCreated P pcrSet → P.fails .openAik = false
  | .getEkPubWithCertification => P.fails .createPrimary = false → P.fails .openAik = false
  | .decryptWithEphemeralKey .. => True
  | .unsealWithEkFromSpec _ => P.fails .createPrimary = true
  | .unseal sealed =>
    ¬((s.persistent ekPubIndex).isSome = true ∧ P.fails .openEk = false ∧ DataLoaded P sealed)
  | .getEkPubWithoutPersisting => ¬EkCreated P

end

section

variable {P : Platform Key} {s : ObjectStore Key}

theorem attempt_ok_iff {c : TpmCall} {u : Unit} : attempt P c = .ok u ↔ P.fails c = false := by
  rw [attempt]
  cases P.fails c <;> simp

theorem unmarshal_ok_iff {blob : Blob} {data content : Bytes} :
    unmarshal P blob data = .ok content ↔ P.unmarshal blob data = some content := by
  rw [unmarshal]
  cases P.unmarshal blob data <;> simp

theorem getTssPcrSelection_returns_iff {pcrCount : Nat} {pcrSet : PcrSet} {hashAlg : HashAlg} :
    (∃ sel, getTssPcrSelection pcrCount pcrSet hashAlg = .ok sel) ↔ ∀ pcr ∈ pcrSet.pcrs, pcr.index < pcrCount := by
  constructor
  · rintro ⟨sel, hsel⟩ pcr hpcr
    by_contra hge
    rw [getTssPcrSelection, pcrMask_error pcrSet.pcrs ⟨pcr, hpcr, not_lt.1 hge⟩] at hsel
    cases hsel
  · intro hlt
    obtain ⟨mask, hmask, -⟩ := pcrMask_ok pcrSet.pcrs hlt 0
    rw [getTssPcrSelection, hmask]
    exact ⟨_, rfl⟩

theorem getEphemeralKeyPolicyDigest_returns_iff {pcrSet : PcrSet} :
    (∃ digest, getEphemeralKeyPolicyDigest P pcrSet = .ok digest) ↔
      (∀ pcr ∈ pcrSet.pcrs, pcr.index < P.dev.pcrCount) ∧ P.fails .digestCapability = false ∧
        P.fails .trialStart = false ∧ P.fails .trialPolicyPcr = false ∧ P.fails .trialGetDigest = false := by
  -- a trial session takes every digest
  have htrial : ∀ digest sel, ∃ session,
      (Session.start .trial).policyPcr P.dev P.registers digest sel = .ok session := by
    intro digest sel
    rw [Session.policyPcr, if_neg (by simp [Session.start])]
    exact ⟨_, rfl⟩
  simp only [getEphemeralKeyPolicyDigest, pcrSelection, policyPcr, bind_returns, mapError_ok_iff, attempt_ok_iff,
    exists_const]
  constructor
  · rintro ⟨digest, sel, ⟨hcap, hsel⟩, hstart, session, ⟨hpcr, -⟩, hget, -⟩
    exact ⟨getTssPcrSelection_returns_iff.1 ⟨sel, hsel⟩, hcap, hstart, hpcr, hget⟩
  · rintro ⟨hlt, hcap, hstart, hpcr, hget⟩
    obtain ⟨sel, hsel⟩ := getTssPcrSelection_returns_iff.2 hlt
    obtain ⟨session, hsession⟩ := htrial (generatePcrDigest P.dev pcrSet pcrSet.hashAlg) sel
    exact ⟨_, sel, ⟨hcap, hsel⟩, hstart, session, ⟨hpcr, hsession⟩, hget, rfl⟩

theorem importData_returns_iff {key : Loaded Key} {sealed : Sealed} :
    (∃ data, importData P key sealed = .ok data) ↔ DataLoaded P sealed := by
  simp only [importData, bind_returns, unmarshal_ok_iff, attempt_ok_iff, DataLoaded, Option.isSome_iff_exists,
    List.forall_mem_cons, List.not_mem_nil, false_imp_iff, implies_true, and_true, exists_const]
  constructor
  · rintro ⟨data, inPub, hpub, inPriv, hpriv, seed, hseed, h₁, h₂, h₃, h₄, h₅, h₆, -⟩
    exact ⟨⟨⟨inPub, hpub⟩, ⟨inPriv, hpriv⟩, ⟨seed, hseed⟩⟩, h₁, h₂, h₃, h₄, h₅, h₆⟩
  · rintro ⟨⟨⟨inPub, hpub⟩, ⟨inPriv, hpriv⟩, ⟨seed, hseed⟩⟩, h₁, h₂, h₃, h₄, h₅, h₆⟩
    exact ⟨_, inPub, hpub, inPriv, hpriv, seed, hseed, h₁, h₂, h₃, h₄, h₅, h₆, rfl⟩

/-! ### What the steps do to the objects -/

theorem held_load (o : Loaded Key) : ((s.load o).transient.held s.transient.next).isSome = true := by
  rw [ObjectStore.load, Ledger.held_acquire, Option.isSome_some]

theorem not_settled_load (o : Loaded Key) : ¬s.transient.Settled (s.load o).transient :=
  Ledger.not_settled_of_held le_rfl (held_load o)

theorem flushObjectContext_exec {handle : ℕ} (h : (s.transient.held handle).isSome = true) :
    (flushObjectContext handle : ObjectProc Key Unit).exec s = (.ok (), s.flush handle) := by
  show (if (s.transient.held handle).isSome then Except.ok () else .error ObjectError.flushContext, s.flush handle) = _
  rw [if_pos h]

theorem orFlush_exec {α : Type} {handle : ℕ} (h : (s.transient.held handle).isSome = true)
    (x : Except ObjectError α) :
    (orFlush handle x : ObjectProc Key α).exec s =
      match x with
      | .ok a => (.ok a, s)
      | .error e => (.error e, s.flush handle) := by
  rw [orFlush, Proc.exec_tryCatch, Proc.exec_call]
  cases x with
  | ok a => rfl
  | error e => exact Proc.exec_bind_ok (flushObjectContext_exec h) _

/-- A step that may fail, and a rest that ends with the object flushed: so does the whole. -/
theorem orFlush_bind_exec {α β : Type} {handle : ℕ} (h : (s.transient.held handle).isSome = true)
    (x : Except ObjectError α) {f : α → ObjectProc Key β} {y : α → Except ObjectError β}
    (hf : ∀ a, (f a).exec s = (y a, s.flush handle)) :
    (orFlush handle x >>= f).exec s = (x >>= y, s.flush handle) := by
  rw [Proc.exec_bind, orFlush_exec h]
  cases x with
  | ok a => exact hf a
  | error e => rfl

theorem flushObjectContext_return_exec {α : Type} {handle : ℕ} (h : (s.transient.held handle).isSome = true) (a : α) :
    (do
      flushObjectContext handle
      return a : ObjectProc Key α).exec s = (.ok a, s.flush handle) :=
  Proc.exec_bind_ok (flushObjectContext_exec h) _

theorem createPrimary_exec (o : Loaded Key) :
    (createPrimary P o).exec s =
      if P.fails .createPrimary then (.error (.failed .createPrimary), s) else (.ok s.transient.next, s.load o) := by
  rw [createPrimary, attempt]
  cases P.fails .createPrimary with
  | true => rfl
  | false => rfl

theorem createEphemeralKey_exec (pcrSet : PcrSet) :
    (EphemeralKeyCreated P pcrSet ∧
      ∃ primary, (createEphemeralKey P pcrSet).exec s = (.ok (s.transient.next, primary), s.load primary)) ∨
    (¬EphemeralKeyCreated P pcrSet ∧ ∃ e, (createEphemeralKey P pcrSet).exec s = (.error e, s)) := by
  have hiff := @getEphemeralKeyPolicyDigest_returns_iff Key P pcrSet
  simp only [EphemeralKeyCreated, List.forall_mem_cons, List.not_mem_nil, false_imp_iff, implies_true, and_true]
  rw [createEphemeralKey]
  cases hdigest : getEphemeralKeyPolicyDigest P pcrSet with
  | error e =>
      right
      refine ⟨?_, e, Proc.exec_bind_error (Proc.exec_call _ _) _⟩
      rintro ⟨hlt, hcap, hstart, hpcr, hget, -⟩
      obtain ⟨digest, hok⟩ := hiff.2 ⟨hlt, hcap, hstart, hpcr, hget⟩
      rw [hdigest] at hok
      cases hok
  | ok digest =>
      obtain ⟨hlt, hcap, hstart, hpcr, hget⟩ := hiff.1 ⟨digest, hdigest⟩
      have hcreate := @createPrimary_exec Key P s (ephemeralObject P digest)
      rw [Proc.exec_call_ok]
      cases hfails : P.fails .createPrimary with
      | true =>
          right
          rw [hfails, if_pos rfl] at hcreate
          refine ⟨?_, _, Proc.exec_bind_error hcreate _⟩
          rintro ⟨-, -, -, -, -, hfalse⟩
          cases hfalse
      | false =>
          left
          rw [hfails, if_neg (by decide)] at hcreate
          exact ⟨⟨hlt, hcap, hstart, hpcr, hget, rfl⟩, ephemeralObject P digest, Proc.exec_bind_ok hcreate _⟩

def certifiedKey (P : Platform Key) (primary : Loaded Key) : Except ObjectError EphemeralKey := do
  let (certifyInfo, signature) ← certify P primary.key
  return ⟨P.dev.marshalPublic primary.key, certifyInfo, signature⟩

theorem getCertifiedKeyAndFlushHandle_exec {handle : ℕ} (h : (s.transient.held handle).isSome = true)
    (primary : Loaded Key) :
    (getCertifiedKeyAndFlushHandle P handle primary).exec s =
      if P.fails .openAik then (.error (.failed .openAik), s) else (certifiedKey P primary, s.flush handle) := by
  rw [getCertifiedKeyAndFlushHandle, attempt]
  cases P.fails .openAik with
  | true => rfl
  | false =>
      rw [if_neg (by decide), if_neg (by decide), Proc.exec_call_ok]
      exact orFlush_bind_exec h _ fun _ => flushObjectContext_return_exec h _

theorem settled_certified_iff (primary : Loaded Key) :
    s.transient.Settled
      ((getCertifiedKeyAndFlushHandle P s.transient.next primary).exec (s.load primary)).2.transient ↔
      P.fails .openAik = false := by
  rw [getCertifiedKeyAndFlushHandle_exec (held_load primary)]
  cases P.fails .openAik with
  | true =>
      rw [if_pos rfl]
      exact iff_of_false (not_settled_load primary) (by decide)
  | false =>
      rw [if_neg (by decide)]
      exact iff_of_true (Ledger.settled_release_acquire primary) rfl

def decryptedBlob (P : Platform Key) (primary : Loaded Key) (pcrSet : PcrSet) (encryptedBlob : Bytes)
    (rsaWrapAlgId : RsaScheme) (rsaHashAlgId : RsaHashAlg) : Except ObjectError Bytes := do
  let session ← decryptSession P pcrSet
  blobSize encryptedBlob
  rsaDecrypt P session primary rsaWrapAlgId rsaHashAlgId encryptedBlob

/-- After a key has been created, every way out of `DecryptWithEphemeralKey` flushes it. -/
theorem decryptWithEphemeralKey_exec {pcrSet : PcrSet} {primary : Loaded Key}
    (hcreate : (createEphemeralKey P pcrSet).exec s = (.ok (s.transient.next, primary), s.load primary))
    (encryptedBlob : Bytes) (rsaWrapAlgId : RsaScheme) (rsaHashAlgId : RsaHashAlg) :
    (decryptWithEphemeralKey P pcrSet encryptedBlob rsaWrapAlgId rsaHashAlgId).exec s =
      (decryptedBlob P primary pcrSet encryptedBlob rsaWrapAlgId rsaHashAlgId,
        (s.load primary).flush s.transient.next) := by
  have hheld := @held_load Key s primary
  rw [decryptWithEphemeralKey, Proc.exec_bind_ok hcreate]
  apply orFlush_bind_exec hheld
  intro session
  apply orFlush_bind_exec hheld
  intro _
  calc
    _ = (rsaDecrypt P session primary rsaWrapAlgId rsaHashAlgId encryptedBlob >>= pure,
          (s.load primary).flush s.transient.next) :=
      orFlush_bind_exec hheld _ fun decrypted => flushObjectContext_return_exec hheld decrypted
    _ = _ := by rw [bind_pure]

theorem settled_decrypt (pcrSet : PcrSet) (encryptedBlob : Bytes) (rsaWrapAlgId : RsaScheme)
    (rsaHashAlgId : RsaHashAlg) :
    s.transient.Settled
      ((decryptWithEphemeralKey P pcrSet encryptedBlob rsaWrapAlgId rsaHashAlgId).exec s).2.transient := by
  rcases createEphemeralKey_exec (P := P) (s := s) pcrSet with ⟨-, primary, hcreate⟩ | ⟨-, e, hcreate⟩
  · rw [decryptWithEphemeralKey_exec hcreate]
    exact Ledger.settled_release_acquire primary
  · rw [decryptWithEphemeralKey, Proc.exec_bind_error hcreate]
    exact Ledger.Settled.refl

theorem unsealInternal_exec (key : Loaded Key) (sealed : Sealed) :
    (DataLoaded P sealed ∧ ∃ data r, (unsealInternal P key sealed).exec s = (r, s.load data)) ∨
      (¬DataLoaded P sealed ∧ ∃ e, (unsealInternal P key sealed).exec s = (.error e, s)) := by
  rw [unsealInternal]
  cases hdata : importData P key sealed with
  | ok data => exact .inl ⟨importData_returns_iff.1 ⟨data, hdata⟩, data, unsealLoaded P data sealed, rfl⟩
  | error e =>
      refine .inr ⟨fun hloaded => ?_, e, rfl⟩
      obtain ⟨data, hok⟩ := importData_returns_iff.2 hloaded
      rw [hdata] at hok
      cases hok

theorem generateEkFromSpec_exec (setAdminWithAuthPolicy : Bool) :
    (P.fails .createPrimary = false ∧
      ∃ ek, (generateEkFromSpec P setAdminWithAuthPolicy).exec s = (.ok (s.transient.next, ek), s.load ek)) ∨
    (P.fails .createPrimary = true ∧ ∃ e, (generateEkFromSpec P setAdminWithAuthPolicy).exec s = (.error e, s)) := by
  have hcreate := @createPrimary_exec Key P s (ekObject P (populateParametersEkFromSpec setAdminWithAuthPolicy))
  rw [generateEkFromSpec]
  cases hfails : P.fails .createPrimary with
  | true =>
      rw [hfails, if_pos rfl] at hcreate
      exact .inr ⟨rfl, _, Proc.exec_bind_error hcreate _⟩
  | false =>
      rw [hfails, if_neg (by decide)] at hcreate
      exact .inl ⟨rfl, _, Proc.exec_bind_ok hcreate _⟩

/-- With an endorsement key of its own, the unsealing forgets the data it has loaded, or the key when it fails. -/
theorem not_settled_unsealInternal (ek : Loaded Key) (sealed : Sealed) :
    ¬s.transient.Settled ((do
      let unsealedData ← unsealInternal P ek sealed
      flushObjectContext s.transient.next
      return unsealedData : ObjectProc Key Bytes).exec (s.load ek)).2.transient := by
  rcases unsealInternal_exec (P := P) (s := s.load ek) ek sealed with ⟨-, data, r, hrun⟩ | ⟨-, e, hrun⟩
  · -- the data has the handle after the one of the key, which is not flushed
    have hnext : (s.load ek).transient.next = s.transient.next + 1 := rfl
    have hdata : (((s.load ek).load data).transient.held (s.transient.next + 1)).isSome = true := held_load data
    apply Ledger.not_settled_of_held (Nat.le_succ s.transient.next)
    cases r with
    | error e =>
        rw [Proc.exec_bind_error hrun]
        exact hdata
    | ok unsealedData =>
        have hek : (((s.load ek).load data).transient.held s.transient.next).isSome = true := by
          show (Function.update (s.load ek).transient.held (s.transient.next + 1) (some data) s.transient.next).isSome =
            true
          rw [Function.update_of_ne (Nat.lt_succ_self _).ne]
          exact held_load ek
        rw [Proc.exec_bind_ok hrun, Proc.exec_bind_ok (flushObjectContext_exec hek)]
        show (Function.update ((s.load ek).load data).transient.held s.transient.next none
          (s.transient.next + 1)).isSome = true
        rw [Function.update_of_ne (Nat.lt_succ_self _).ne']
        exact hdata
  · rw [Proc.exec_bind_error hrun]
    exact not_settled_load ek

theorem handleToEsys_exec (call : TpmCall) (index : Handle) :
    (∃ o, s.persistent index = some o ∧ P.fails call = false ∧ (handleToEsys P call index).exec s = (.ok o, s)) ∨
      (¬((s.persistent index).isSome = true ∧ P.fails call = false) ∧
        (handleToEsys P call index).exec s = (.error (.failed call), s)) := by
  cases hindex : s.persistent index with
  | none => exact .inr ⟨by simp, Proc.exec_attempt_error (by simp [hindex])⟩
  | some o =>
      cases hfails : P.fails call with
      | true => exact .inr ⟨by simp, Proc.exec_attempt_error (by simp [hindex, hfails])⟩
      | false => exact .inl ⟨o, rfl, rfl, Proc.exec_attempt_ok (by simp [hindex, hfails])⟩

theorem settled_unseal_iff (sealed : Sealed) :
    s.transient.Settled ((Tss2Wrapper.unseal P sealed).exec s).2.transient ↔
      ¬((s.persistent ekPubIndex).isSome = true ∧ P.fails .openEk = false ∧ DataLoaded P sealed) := by
  rw [Tss2Wrapper.unseal]
  rcases handleToEsys_exec (P := P) (s := s) .openEk ekPubIndex with ⟨ek, hek, hfails, hopen⟩ | ⟨hclosed, hopen⟩
  · rw [Proc.exec_bind_ok hopen]
    rcases unsealInternal_exec (P := P) (s := s) ek sealed with ⟨hloaded, data, r, hrun⟩ | ⟨hloaded, e, hrun⟩
    · rw [hrun]
      exact iff_of_false (not_settled_load data) (not_not.2 ⟨by rw [hek, Option.isSome_some], hfails, hloaded⟩)
    · rw [hrun]
      exact iff_of_true Ledger.Settled.refl fun h => hloaded h.2.2
  · rw [Proc.exec_bind_error hopen]
    exact iff_of_true Ledger.Settled.refl fun h => hclosed ⟨h.1, h.2.1⟩

theorem generateEk_exec :
    (EkCreated P ∧ ∃ ek, (generateEk P).exec s = (.ok ek, s.load ek)) ∨
      (¬EkCreated P ∧ ∃ e, (generateEk P).exec s = (.error e, s)) := by
  rw [generateEk, EkCreated]
  cases hpub : populateEkPublicInput P with
  | error e => exact .inr ⟨by simp, e, rfl⟩
  | ok inPub =>
      have hcreate := @createPrimary_exec Key P s (ekObject P inPub)
      rw [Proc.exec_call_ok]
      cases hfails : P.fails .createPrimary with
      | true =>
          rw [hfails, if_pos rfl] at hcreate
          exact .inr ⟨by simp, _, Proc.exec_bind_error hcreate _⟩
      | false =>
          rw [hfails, if_neg (by decide)] at hcreate
          exact .inl ⟨⟨⟨inPub, rfl⟩, rfl⟩, _, Proc.exec_bind_ok hcreate _⟩

end

/-- **When an operation leaves the loaded objects as they were**, for every operation, input and pattern of failing
calls: exactly when it does not get to the point where it forgets one. -/
theorem transientObjects_kept_iff (P : Platform Key) (op : Operation) (s : ObjectStore Key) :
    s.transient.Settled (op.after P s).transient ↔ op.Tidy P s := by
  cases op with
  | getEphemeralKey pcrSet =>
      show s.transient.Settled ((getEphemeralKey P pcrSet).exec s).2.transient ↔
        (EphemeralKeyCreated P pcrSet → P.fails .openAik = false)
      rw [getEphemeralKey]
      rcases createEphemeralKey_exec (P := P) (s := s) pcrSet with ⟨hcreated, primary, hrun⟩ | ⟨hcreated, e, hrun⟩
      · rw [Proc.exec_bind_ok hrun, forall_prop_of_true hcreated]
        exact settled_certified_iff primary
      · rw [Proc.exec_bind_error hrun]
        exact iff_of_true Ledger.Settled.refl fun h => absurd h hcreated
  | getEkPubWithCertification =>
      show s.transient.Settled ((getEkPubWithCertification P).exec s).2.transient ↔
        (P.fails .createPrimary = false → P.fails .openAik = false)
      rw [getEkPubWithCertification]
      rcases generateEkFromSpec_exec (P := P) (s := s) false with ⟨hcreated, ek, hrun⟩ | ⟨hcreated, e, hrun⟩
      · rw [Proc.exec_bind_ok hrun, forall_prop_of_true hcreated]
        exact settled_certified_iff ek
      · rw [Proc.exec_bind_error hrun, hcreated]
        exact iff_of_true Ledger.Settled.refl fun h => absurd h (by decide)
  | decryptWithEphemeralKey pcrSet encryptedBlob rsaWrapAlgId rsaHashAlgId =>
      exact iff_of_true (settled_decrypt pcrSet encryptedBlob rsaWrapAlgId rsaHashAlgId) trivial
  | unsealWithEkFromSpec sealed =>
      show s.transient.Settled ((unsealWithEkFromSpec P sealed).exec s).2.transient ↔ P.fails .createPrimary = true
      rw [unsealWithEkFromSpec]
      rcases generateEkFromSpec_exec (P := P) (s := s) false with ⟨hcreated, ek, hrun⟩ | ⟨hcreated, e, hrun⟩
      · rw [Proc.exec_bind_ok hrun, hcreated]
        exact iff_of_false (not_settled_unsealInternal ek sealed) (by decide)
      · rw [Proc.exec_bind_error hrun]
        exact iff_of_true Ledger.Settled.refl hcreated
  | «unseal» sealed => exact settled_unseal_iff sealed
  | getEkPubWithoutPersisting =>
      show s.transient.Settled ((getEkPubWithoutPersisting P).exec s).2.transient ↔ ¬EkCreated P
      rw [getEkPubWithoutPersisting]
      rcases generateEk_exec (P := P) (s := s) with ⟨hcreated, ek, hrun⟩ | ⟨hcreated, e, hrun⟩
      · rw [Proc.exec_bind_ok hrun]
        exact iff_of_false (not_settled_load ek) (not_not.2 hcreated)
      · rw [Proc.exec_bind_error hrun]
        exact iff_of_true Ledger.Settled.refl hcreated

namespace Sample

/-- A TPM without an index that describes the endorsement key, where the given calls fail. -/
def platform (fails : TpmCall → Bool) : Platform Template where
  dev := Tpm.Sample.device
  registers := Tpm.Sample.registers 0
  ekTemplate := .error 0x18B
  ekNonce := .error 0x18B
  unmarshalTemplate _ := .error 0
  createEk inPub := ephemeralTemplate inPub.authPolicy
  unmarshal _ data := some data
  imported key _ _ _ := ⟨[], key⟩
  unsealed key := key.authPolicy
  fails := fails

def emptyStore : ObjectStore Template := ⟨⟨fun _ => none, 0, false, fun _ _ => rfl⟩, fun _ => none⟩

end Sample

open Objects.Sample in
/-- No call fails, the public area is returned, and the endorsement key stays loaded. -/
theorem getEkPubWithoutPersisting_leaks :
    (∃ ekPub, ((getEkPubWithoutPersisting (platform fun _ => false)).exec emptyStore).1 = .ok ekPub) ∧
      ¬emptyStore.transient.Settled
        (Operation.getEkPubWithoutPersisting.after (platform fun _ => false) emptyStore).transient := by
  refine ⟨⟨_, rfl⟩, ?_⟩
  rintro ⟨hheld, -⟩
  have hkey := congrFun hheld 0
  cases hkey

/-! ### The results of the operations -/

section

variable {P : Platform Key} {s : ObjectStore Key} (hcalls : ∀ c, P.fails c = false)

include hcalls in
theorem attempt_ok (c : TpmCall) : attempt P c = .ok () := attempt_ok_iff.2 (hcalls c)

include hcalls in
theorem createEphemeralKey_result (pcrSet : PcrSet) :
    (createEphemeralKey P pcrSet).exec s =
      match Tpm.createEphemeralKey P.dev P.registers pcrSet with
      | .ok primary => (.ok (s.transient.next, primary), s.load primary)
      | .error e => (.error (.pcr e), s) := by
  simp only [createEphemeralKey, getEphemeralKeyPolicyDigest, pcrSelection, policyPcr, attempt_ok hcalls, ok_bind,
    Tpm.createEphemeralKey, populateEphemeralKeyPublicTemplate, Tpm.getEphemeralKeyPolicyDigest]
  cases getTssPcrSelection P.dev.pcrCount pcrSet pcrSet.hashAlg with
  | error e => rfl
  | ok sel =>
      simp only [Except.mapError, ok_bind]
      cases (Session.start .trial).policyPcr P.dev P.registers (generatePcrDigest P.dev pcrSet pcrSet.hashAlg) sel with
      | error e => rfl
      | ok session =>
          have hcreate := @createPrimary_exec Key P s (ephemeralObject P session.digest)
          rw [hcalls, if_neg (by decide)] at hcreate
          exact Proc.exec_bind_ok hcreate _

include hcalls in
/-- **With its objects the operation returns what it returns without them**, when no call fails for a reason of its
own. -/
theorem getEphemeralKey_result (pcrSet : PcrSet) :
    ((getEphemeralKey P pcrSet).exec s).1 = (Tpm.getEphemeralKey P.dev P.registers pcrSet).mapError .pcr := by
  have hcreate := @createEphemeralKey_result Key P s hcalls pcrSet
  rw [getEphemeralKey, Tpm.getEphemeralKey]
  cases hprimary : Tpm.createEphemeralKey P.dev P.registers pcrSet with
  | error e =>
      rw [hprimary] at hcreate
      rw [Proc.exec_bind_error hcreate]
      rfl
  | ok primary =>
      rw [hprimary] at hcreate
      rw [Proc.exec_bind_ok hcreate, ok_bind]
      dsimp only
      rw [getCertifiedKeyAndFlushHandle_exec (held_load primary), hcalls, if_neg (by decide), certifiedKey, certify,
        attempt_ok hcalls, ok_bind, Tpm.getCertifiedKeyAndFlushHandle]
      cases P.dev.certify primary.key with
      | error e => rfl
      | ok certified => rfl

include hcalls in
theorem decryptWithEphemeralKey_result (pcrSet : PcrSet) (encryptedBlob : Bytes) (rsaWrapAlgId : RsaScheme)
    (rsaHashAlgId : RsaHashAlg) :
    ((decryptWithEphemeralKey P pcrSet encryptedBlob rsaWrapAlgId rsaHashAlgId).exec s).1 =
      (Tpm.decryptWithEphemeralKey P.dev P.registers pcrSet encryptedBlob rsaWrapAlgId rsaHashAlgId).mapError .pcr := by
  have hcreate := @createEphemeralKey_result Key P s hcalls pcrSet
  rw [Tpm.decryptWithEphemeralKey, authorisedKey]
  cases hprimary : Tpm.createEphemeralKey P.dev P.registers pcrSet with
  | error e =>
      rw [hprimary] at hcreate
      rw [decryptWithEphemeralKey, Proc.exec_bind_error hcreate]
      rfl
  | ok primary =>
      rw [hprimary] at hcreate
      rw [decryptWithEphemeralKey_exec hcreate]
      simp only [decryptedBlob, decryptSession, pcrSelection, policyPcr, rsaDecrypt, blobSize, attempt_ok hcalls,
        ok_bind]
      cases getTssPcrSelection P.dev.pcrCount pcrSet pcrSet.hashAlg with
      | error e => rfl
      | ok sel =>
          simp only [Except.mapError, ok_bind]
          cases (Session.start .policy).policyPcr P.dev P.registers (generatePcrDigest P.dev pcrSet pcrSet.hashAlg)
            sel with
          | error e => rfl
          | ok session =>
              simp only [ok_bind]
              by_cases hsize : 512 < encryptedBlob.length
              · rw [if_pos hsize, if_pos hsize]
                rfl
              rw [if_neg hsize, if_neg hsize, ok_bind]
              by_cases hdigest : session.digest = primary.authPolicy
              · rw [if_pos hdigest, if_pos hdigest]
                rfl
              · rw [if_neg hdigest, if_neg hdigest]
                rfl

end

end CvmAttestation.Tpm.Objects
