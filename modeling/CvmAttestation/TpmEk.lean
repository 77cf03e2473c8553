import CvmAttestation.TpmTransient

/-! The persistent endorsement key. `GetEkPub` reads it and, where the TPM has none, is meant to create it and to make it
persistent. `GenerateEk` keeps the handle of the key to itself, so `GenerateAndPersistEk` hands `EvictControl` the
handle it has declared and nothing has set: the number zero, which is the one of a register. -/

namespace CvmAttestation.Tpm.Objects

open Base

/-- What an `ESYS_TR` stands for. A `unique_esys_tr` that was not set holds `ESYS_TR_PCR0`. -/
inductive EsysTr
  | pcr0
  | transient (handle : ℕ)
  | persistent (index : Handle)
  deriving DecidableEq, Repr

variable {Key : Type}

section

variable (P : Platform Key)

/-- `Esys_EvictControl`: a loaded object becomes persistent at a free index, a persistent one is removed from its own,
and the TPM refuses what is not an object. -/
def evictControl (object : EsysTr) (persistentHandle : Handle) : ObjectProc Key Unit :=
  Proc.attempt fun s =>
    if P.fails .evictControl then .error (.failed .evictControl)
    else
      match object with
      | .pcr0 => .error (.failed .evictControl)
      | .transient handle =>
        match s.transient.held handle, s.persistent persistentHandle with
        | some o, none => .ok ((), { s with persistent := Function.update s.persistent persistentHandle (some o) })
        | _, _ => .error (.failed .evictControl)
      | .persistent index =>
        if index = persistentHandle ∧ (s.persistent index).isSome then
          .ok ((), { s with persistent := Function.update s.persistent index none })
        else .error (.failed .evictControl)

def getPublicObject (index : Handle) : ObjectProc Key Bytes := do
  let o ← handleToEsys P .openEk index
  Proc.call (attempt P .readEkPublic)
  return P.dev.marshalPublic o.key

/-- `Tss2Util::GenerateAndPersistEk`, with its `outHandle`. -/
def generateAndPersistEk : ObjectProc Key (Loaded Key) := do
  let outHandle := EsysTr.pcr0
  let outPub ← generateEk P
  evictControl P outHandle ekPubIndex
  return outPub

def getEkPub : ObjectProc Key Bytes :=
  tryCatch (getPublicObject P ekPubIndex) fun _ => do
    let ek ← generateAndPersistEk P
    return P.dev.marshalPublic ek.key

/-- `Tss2Wrapper::RemovePersistentEk`. That there is no key to remove is not an error. -/
def removePersistentEk : ObjectProc Key Unit := do
  let s ← get
  if P.fails .openEk ∨ (s.persistent ekPubIndex).isNone then pure ()
  else evictControl P (.persistent ekPubIndex) ekPubIndex

/-- The TPM after a number of calls of `GetEkPub`. -/
def afterGetEkPub (s : ObjectStore Key) : ℕ → ObjectStore Key
  | 0 => s
  | n + 1 => ((getEkPub P).exec (afterGetEkPub s n)).2

/-- `GetEkPub` returns the key that it creates, the key is persistent, and every later call returns it too. -/
def EkPersisted (s : ObjectStore Key) : Prop :=
  ∃ inPub, populateEkPublicInput P = .ok inPub ∧
    ((getEkPub P).exec s).1 = .ok (P.dev.marshalPublic (ekObject P inPub).key) ∧
    ∀ n, (afterGetEkPub P s (n + 1)).persistent ekPubIndex = some (ekObject P inPub) ∧
      ((getEkPub P).exec (afterGetEkPub P s (n + 1))).1 = .ok (P.dev.marshalPublic (ekObject P inPub).key)

end

section

variable {P : Platform Key} {s : ObjectStore Key}

theorem generateAndPersistEk_exec :
    ∃ e s', (generateAndPersistEk P).exec s = (.error e, s') ∧ s'.persistent = s.persistent ∧
      (EkCreated P → e = .failed .evictControl) := by
  have hevict : ∀ s' : ObjectStore Key,
      (evictControl P .pcr0 ekPubIndex).exec s' = (.error (.failed .evictControl), s') := by
    intro s'
    apply Proc.exec_attempt_error
    cases P.fails .evictControl <;> rfl
  rw [generateAndPersistEk]
  rcases generateEk_exec (P := P) (s := s) with ⟨hcreated, ek, hrun⟩ | ⟨hcreated, e, hrun⟩
  · exact ⟨_, s.load ek, by rw [Proc.exec_bind_ok hrun, Proc.exec_bind_error (hevict _)], rfl, fun _ => rfl⟩
  · exact ⟨e, s, Proc.exec_bind_error hrun _, rfl, fun h => absurd h hcreated⟩

/-- Without a persistent key the call throws, and there is none after it. -/
theorem getEkPub_absent (h : s.persistent ekPubIndex = none) :
    ∃ e s', (getEkPub P).exec s = (.error e, s') ∧ s'.persistent = s.persistent ∧
      (EkCreated P → e = .failed .evictControl) := by
  have hread : ((getPublicObject P ekPubIndex).exec s) = (.error (.failed .openEk), s) := by
    rw [getPublicObject]
    rcases handleToEsys_exec (P := P) (s := s) .openEk ekPubIndex with ⟨ek, hek, -⟩ | ⟨-, hopen⟩
    · rw [h] at hek
      cases hek
    · exact Proc.exec_bind_error hopen _
  obtain ⟨e, s', hrun, hsame, hwhy⟩ := @generateAndPersistEk_exec Key P s
  refine ⟨e, s', ?_, hsame, hwhy⟩
  rw [getEkPub, Proc.exec_tryCatch, hread]
  exact Proc.exec_bind_error hrun _

theorem afterGetEkPub_absent (h : s.persistent ekPubIndex = none) (n : ℕ) :
    (afterGetEkPub P s n).persistent = s.persistent := by
  induction n with
  | zero => rfl
  | succ n ih =>
      have habsent : (afterGetEkPub P s n).persistent ekPubIndex = none := by rw [ih, h]
      obtain ⟨e, s', hrun, hsame, -⟩ := @getEkPub_absent Key P _ habsent
      rw [afterGetEkPub, hrun, hsame, ih]

/-- A key that is persistent is read, by this call and by every later one. -/
theorem getEkPub_persistent {ek : Loaded Key} (hek : s.persistent ekPubIndex = some ek) (hopen : P.fails .openEk = false)
    (hread : P.fails .readEkPublic = false) (n : ℕ) :
    afterGetEkPub P s n = s ∧ (getEkPub P).exec (afterGetEkPub P s n) = (.ok (P.dev.marshalPublic ek.key), s) := by
  have hreads : (getEkPub P).exec s = (.ok (P.dev.marshalPublic ek.key), s) := by
    have hhandle : (handleToEsys P .openEk ekPubIndex).exec s = (.ok ek, s) :=
      Proc.exec_attempt_ok (by simp [hek, hopen])
    have hobject : (getPublicObject P ekPubIndex).exec s = (.ok (P.dev.marshalPublic ek.key), s) := by
      have hok : attempt P .readEkPublic = .ok () := attempt_ok_iff.2 hread
      rw [getPublicObject, Proc.exec_bind_ok hhandle, hok]
      rfl
    rw [getEkPub, Proc.exec_tryCatch, hobject]
  induction n with
  | zero => exact ⟨rfl, hreads⟩
  | succ n ih =>
      have hsame : afterGetEkPub P s (n + 1) = s := by rw [afterGetEkPub, ih.2]
      exact ⟨hsame, by rw [hsame, hreads]⟩

theorem removePersistentEk_exec {ek : Loaded Key} (hek : s.persistent ekPubIndex = some ek)
    (hopen : P.fails .openEk = false) (haccepts : P.fails .evictControl = false) :
    (removePersistentEk P).exec s =
      (.ok (), { s with persistent := Function.update s.persistent ekPubIndex none }) := by
  show (if P.fails .openEk ∨ (s.persistent ekPubIndex).isNone then (pure () : ObjectProc Key Unit)
    else evictControl P (.persistent ekPubIndex) ekPubIndex).exec s = _
  rw [if_neg (by simp [hek, hopen])]
  exact Proc.exec_attempt_ok (by simp [haccepts, hek])

/-- Once the persistent key is removed, no call of `GetEkPub` returns. -/
theorem getEkPub_after_remove {ek : Loaded Key} (hek : s.persistent ekPubIndex = some ek)
    (hopen : P.fails .openEk = false) (haccepts : P.fails .evictControl = false) (n : ℕ) :
    ∃ e, ((getEkPub P).exec (afterGetEkPub P ((removePersistentEk P).exec s).2 n)).1 = .error e := by
  rw [removePersistentEk_exec hek hopen haccepts]
  have hremoved : Function.update s.persistent ekPubIndex none ekPubIndex = none := Function.update_self _ _ _
  generalize hs' : (⟨s.transient, Function.update s.persistent ekPubIndex none⟩ : ObjectStore Key) = s'
  have habsent : s'.persistent ekPubIndex = none := by
    rw [← hs']
    exact hremoved
  have hlater : (afterGetEkPub P s' n).persistent ekPubIndex = none := by rw [afterGetEkPub_absent habsent, habsent]
  obtain ⟨e, s'', hrun, -⟩ := @getEkPub_absent Key P _ hlater
  exact ⟨e, by rw [hrun]⟩

end

/-- **A TPM without an endorsement key never gets one from `GetEkPub`**: the key can be created and the TPM would accept
its handle, but this call and every later one throws, and no key becomes persistent. -/
theorem getEkPub_never_persists (P : Platform Key) (s : ObjectStore Key) (hek : s.persistent ekPubIndex = none)
    (hcreated : EkCreated P) (haccepts : P.fails .evictControl = false) :
    ¬EkPersisted P s ∧
      (∀ ek, ((evictControl P (.transient s.transient.next) ekPubIndex).exec (s.load ek)).2.persistent ekPubIndex =
        some ek) ∧
      ∀ n, (afterGetEkPub P s n).persistent ekPubIndex = none ∧
        ((getEkPub P).exec (afterGetEkPub P s n)).1 = .error (.failed .evictControl) := by
  have hall : ∀ n, (afterGetEkPub P s n).persistent ekPubIndex = none ∧
      ((getEkPub P).exec (afterGetEkPub P s n)).1 = .error (.failed .evictControl) := by
    intro n
    have habsent : (afterGetEkPub P s n).persistent ekPubIndex = none := by rw [afterGetEkPub_absent hek, hek]
    obtain ⟨e, s', hrun, -, hwhy⟩ := @getEkPub_absent Key P _ habsent
    exact ⟨habsent, by rw [hrun, hwhy hcreated]⟩
  refine ⟨?_, fun ek => ?_, hall⟩
  · rintro ⟨inPub, -, hreturns, -⟩
    have hthrows : ((getEkPub P).exec s).1 = .error (.failed .evictControl) := (hall 0).2
    rw [hthrows] at hreturns
    cases hreturns
  · have hheld : (s.load ek).transient.held s.transient.next = some ek := Ledger.held_acquire ek
    have habsent : (s.load ek).persistent ekPubIndex = none := hek
    have hevict : (evictControl P (.transient s.transient.next) ekPubIndex).exec (s.load ek) =
        (.ok (), { s.load ek with persistent := Function.update s.persistent ekPubIndex (some ek) }) := by
      apply Proc.exec_attempt_ok
      simp only [haccepts, hheld, habsent]
      rfl
    rw [hevict]
    show Function.update s.persistent ekPubIndex (some ek) ekPubIndex = some ek
    rw [Function.update_self]

open Objects.Sample in
/-- On an empty TPM where no call is made to fail, the key is created and `GetEkPub` throws. -/
theorem getEkPub_throws_on_empty :
    emptyStore.persistent ekPubIndex = none ∧ EkCreated (platform fun _ => false) ∧
      ((getEkPub (platform fun _ => false)).exec emptyStore).1 = .error (.failed .evictControl) ∧
      ¬EkPersisted (platform fun _ => false) emptyStore := by
  have hthrows : ((getEkPub (platform fun _ => false)).exec emptyStore).1 = .error (.failed .evictControl) := rfl
  refine ⟨rfl, ⟨⟨_, rfl⟩, rfl⟩, hthrows, ?_⟩
  rintro ⟨inPub, -, hreturns, -⟩
  rw [hthrows] at hreturns
  cases hreturns

open Objects.Sample in
/-- Two calls on an empty TPM. -/
theorem getEkPub_never_persists_sample :
    emptyStore.persistent ekPubIndex = none ∧ EkCreated (platform fun _ => false) ∧
      ((getEkPub (platform fun _ => false)).exec (afterGetEkPub (platform fun _ => false) emptyStore 1)).1 =
        .error (.failed .evictControl) := by
  have hcreated : EkCreated (platform fun _ => false) := ⟨⟨_, rfl⟩, rfl⟩
  exact ⟨rfl, hcreated, ((getEkPub_never_persists (platform fun _ => false) emptyStore rfl hcreated rfl).2.2 1).2⟩

end CvmAttestation.Tpm.Objects
