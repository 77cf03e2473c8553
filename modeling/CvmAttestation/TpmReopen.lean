import CvmAttestation.TpmPcrMoments
import CvmAttestation.TpmPolicy

/-! Reaching the ephemeral key again while other software extends registers. The registers are looked at three times:
they are read, the policy session compares them with what was read, and the use of the key fails if the update counter
of the TPM has moved since. Any number of extends may fall before each of these commands; those between them, which derive
the key and start the sessions, do not look at the registers. -/

namespace CvmAttestation.Tpm

open Base Base.Mask

/-- What the last command adds to the failures of a TPM that stands still. -/
inductive DecryptError
  | pcr (e : PcrError)
  | pcrChanged
  deriving DecidableEq, Repr

/-! ### The commands after the reads -/

/-- The loop with the number of the command that follows the last read. -/
def populateLoopFrom (states : Nat → PcrState) (batch : Nat → Nat) :
    (fuel reads : Nat) → PcrSelection → (pcrCount maskSum : Nat) → List PcrValue → Option (List PcrValue × Nat) :=
  populateReads fun k => pcrRead (states k) (batch k)

section Loop

variable {states states' : Nat → PcrState} {batch : Nat → Nat} {fuel reads : Nat} {sel : PcrSelection}
  {pcrCount maskSum : Nat} {pcrs filled : List PcrValue} {next : Nat}

theorem populateLoopFrom_fst :
    (populateLoopFrom states batch fuel reads sel pcrCount maskSum pcrs).map Prod.fst =
      populateLoopOver states batch fuel reads sel pcrCount maskSum pcrs := rfl

theorem lt_of_populateLoopFrom
    (h : populateLoopFrom states batch fuel reads sel pcrCount maskSum pcrs = some (filled, next)) : reads < next := by
  induction fuel generalizing reads sel pcrCount maskSum pcrs with
  | zero => cases h
  | succ fuel ih =>
      rw [populateLoopFrom, populateReads] at h
      dsimp only at h
      split_ifs at h
      · exact Nat.lt_of_succ_lt (ih h)
      · cases h
        exact Nat.lt_succ_self reads
      · exact Nat.lt_of_succ_lt (ih h)
      · cases h
        exact Nat.lt_succ_self reads

/-- Only the values that the selected registers have at the reads matter. -/
theorem populateLoopFrom_congr {hashAlg : HashAlg} {asc : List Nat} (hholds : sel.Holds hashAlg asc)
    (h : populateLoopFrom states batch fuel reads sel pcrCount maskSum pcrs = some (filled, next))
    (hsame : ∀ k, reads ≤ k → k < next → ∀ i ∈ asc, (states' k).value hashAlg i = (states k).value hashAlg i) :
    populateLoopFrom states' batch fuel reads sel pcrCount maskSum pcrs = some (filled, next) := by
  induction fuel generalizing reads sel asc pcrCount maskSum pcrs with
  | zero => cases h
  | succ fuel ih =>
      have hread : pcrRead (states' reads) (batch reads) sel = pcrRead (states reads) (batch reads) sel := by
        have hvalues : (sel.selected.take (batch reads)).map ((states' reads).value sel.hash) =
            (sel.selected.take (batch reads)).map ((states reads).value sel.hash) := by
          rw [hholds.selected, hholds.hash]
          apply List.map_congr_left
          intro i hi
          exact hsame reads (le_refl _) (lt_of_populateLoopFrom h) i (List.mem_of_mem_take hi)
        rw [pcrRead, pcrRead, hvalues]
      have hrest : ∀ {asc' : List Nat}, asc' ⊆ asc → ∀ k, reads + 1 ≤ k → k < next →
          ∀ i ∈ asc', (states' k).value hashAlg i = (states k).value hashAlg i :=
        fun hsub k hk hlt i hi => hsame k (by omega) hlt i (hsub hi)
      rw [populateLoopFrom, populateReads] at h ⊢
      rw [hread]
      dsimp only at h ⊢
      split_ifs at h ⊢
      · exact ih (hholds.left (batch reads)) h (hrest (List.drop_subset _ _))
      · exact h
      · exact ih hholds h (hrest (List.Subset.refl _))
      · exact h

end Loop

/-! ### Sets of values -/

/-- Values of a list of registers, in the bank that an attestation reads. -/
structure ValuesOf (pcrs : List Nat) (pcrSet : PcrSet) : Prop where
  hashAlg : pcrSet.hashAlg = .sha256
  index : pcrSet.pcrs.map PcrValue.index = pcrs
  size : ∀ pcr ∈ pcrSet.pcrs, pcr.digest.length = 32

def PcrSet.values (pcrSet : PcrSet) : Bytes := (pcrSet.pcrs.map PcrValue.digest).flatten

section Values

variable {pcrs : List Nat}

/-- The values of a list in some state. -/
def recorded (s : PcrState) (pcrs : List Nat) : PcrSet := ⟨.sha256, pcrs.map (current s .sha256)⟩

theorem recorded_valuesOf (s : PcrState) (pcrs : List Nat) : ValuesOf pcrs (recorded s pcrs) where
  hashAlg := rfl
  index := by simp [recorded, current, Function.comp_def]
  size pcr hpcr := by
    obtain ⟨i, -, rfl⟩ := List.mem_map.1 hpcr
    exact s.size_eq .sha256 i

theorem zipWith_index_digest (entries : List PcrValue) :
    List.zipWith PcrValue.mk (entries.map PcrValue.index) (entries.map PcrValue.digest) = entries := by
  induction entries with
  | nil => rfl
  | cons entry entries ih => rw [List.map_cons, List.map_cons, List.zipWith_cons_cons, ih]

/-- The bytes tell which values they are, for all have the same length. -/
theorem ValuesOf.eq_of_values {a b : PcrSet} (ha : ValuesOf pcrs a) (hb : ValuesOf pcrs b) (h : a.values = b.values) :
    a = b := by
  have hindex : a.pcrs.map PcrValue.index = b.pcrs.map PcrValue.index := ha.index.trans hb.index.symm
  have hlengths : ∀ {entries : List PcrValue}, (∀ pcr ∈ entries, pcr.digest.length = 32) →
      (entries.map PcrValue.digest).map List.length = List.replicate entries.length 32 := by
    intro entries hsize
    rw [List.map_map, List.map_eq_replicate_iff]
    exact hsize
  have hlength : a.pcrs.length = b.pcrs.length := by simpa using congrArg List.length hindex
  have hdigests : a.pcrs.map PcrValue.digest = b.pcrs.map PcrValue.digest := by
    rw [List.eq_iff_flatten_eq, hlengths ha.size, hlengths hb.size, hlength]
    exact ⟨h, rfl⟩
  have hpcrs : a.pcrs = b.pcrs := by
    rw [← zipWith_index_digest a.pcrs, hindex, hdigests, zipWith_index_digest]
  calc
    a = ⟨a.hashAlg, a.pcrs⟩ := rfl
    _ = ⟨b.hashAlg, b.pcrs⟩ := by rw [ha.hashAlg, hb.hashAlg, hpcrs]
    _ = b := rfl

theorem recorded_eq_iff {s s' : PcrState} :
    recorded s pcrs = recorded s' pcrs ↔ ∀ i ∈ pcrs, s.value .sha256 i = s'.value .sha256 i := by
  simp [recorded, current]

theorem values_recorded {sel : PcrSelection} (h : sel.Holds .sha256 pcrs) (s : PcrState) :
    (recorded s pcrs).values = s.concat sel := by
  rw [PcrSet.values, PcrState.concat, h.selected, h.hash, recorded, List.map_map]
  rfl

theorem length_digest_fill_blank {l : List Nat} {digests : List Bytes} (hlength : digests.length = l.length)
    (hsize : ∀ digest ∈ digests, digest.length = 32) : ∀ pcr ∈ fill (l.map blank) digests, pcr.digest.length = 32 := by
  induction l generalizing digests with
  | nil =>
      intro pcr hpcr
      cases digests <;> cases hpcr
  | cons i l ih =>
      cases digests with
      | nil => cases hlength
      | cons digest digests =>
          rw [List.forall_mem_cons] at hsize
          rw [List.map_cons, fill, List.forall_mem_cons]
          exact ⟨hsize.1, ih (Nat.succ_inj.1 hlength) hsize.2⟩

end Values

/-! ### Decrypting -/

section Counter

variable (counted : Nat → Bool) (I : Interleaving)

/-- The update counter of the TPM after a command. The extends of some registers, such as those for debugging, do not
advance it. -/
def Interleaving.counter : Nat → Nat
  | 0 => 0
  | k + 1 => counter k + (I.before k).countP fun e => counted e.index

def Interleaving.counterAt (k : Nat) : Nat := I.counter counted (k + 1)

theorem counterAt_succ_eq_iff {k : Nat} :
    I.counterAt counted (k + 1) = I.counterAt counted k ↔ ∀ e ∈ I.before (k + 1), counted e.index = false := by
  have hstep : I.counterAt counted (k + 1) =
      I.counterAt counted k + (I.before (k + 1)).countP fun e => counted e.index := rfl
  rw [hstep, Nat.add_eq_left, List.countP_eq_zero]
  simp

end Counter

section

variable (B : Banks) (I : Interleaving)

/-- `Tss2Wrapper::GetPCRValues`, with the command that comes after it. -/
def getPCRValuesFrom (batch : Nat → Nat) (pcrCount : Nat) (pcrs : List Nat) (hashAlg : HashAlg) (fuel : Nat) :
    Option (Except PcrError (PcrSet × Nat)) :=
  match getTssPcrSelection pcrCount ⟨hashAlg, pcrs.map blank⟩ hashAlg with
  | .error e => some (.error e)
  | .ok selection =>
    (populateLoopFrom (I.atCommand B) batch fuel 0 selection 0 0 (pcrs.map blank)).map
      fun (pcrs, next) => .ok (⟨hashAlg, pcrs⟩, next)

variable {Key : Type} (dev : Device Key) (counted : Nat → Bool)

/-- `Tss2Wrapper::DecryptWithEphemeralKey`, whose policy session is told about the set in one command, and whose key is
used in the next. -/
def decryptWithEphemeralKeyDuring (command : Nat) (pcrSet : PcrSet) (encryptedBlob : Bytes) (rsaWrapAlgId : RsaScheme)
    (rsaHashAlgId : RsaHashAlg) : Except DecryptError Bytes := do
  let key ← (authorisedKey dev (I.atCommand B command) pcrSet encryptedBlob).mapError .pcr
  if I.counterAt counted (command + 1) ≠ I.counterAt counted command then throw .pcrChanged
  else (dev.rsaDecrypt key rsaWrapAlgId rsaHashAlgId encryptedBlob).mapError .pcr

/-- The commands of `AttestationClientImpl::Decrypt`. -/
def decryptDuring (batch : Nat → Nat) (pcrs : List Nat) (fuel : Nat) (encryptedBlob : Bytes) (rsaWrapAlgId : RsaScheme)
    (rsaHashAlgId : RsaHashAlg) : Option (Except DecryptError Bytes) :=
  (getPCRValuesFrom B I batch dev.pcrCount pcrs .sha256 fuel).map fun outcome => do
    let (pcrSet, command) ← outcome.mapError .pcr
    decryptWithEphemeralKeyDuring B I dev counted command pcrSet encryptedBlob rsaWrapAlgId rsaHashAlgId

theorem getPCRValuesFrom_ok {batch : Nat → Nat} (hbatch : ∀ k, 1 ≤ batch k) {pcrCount : Nat} {pcrs : List Nat}
    (hlisted : Listed pcrCount pcrs) {fuel : Nat} (hfuel : pcrs.length < fuel) :
    ∃ read next, getPCRValuesFrom B I batch pcrCount pcrs .sha256 fuel = some (.ok (read, next)) ∧ ValuesOf pcrs read ∧
      ∀ s : PcrState, (∀ k < next, ∀ i ∈ pcrs, (I.atCommand B k).value .sha256 i = s.value .sha256 i) →
        read = recorded s pcrs := by
  obtain ⟨sel, hsel, hholds⟩ := getTssPcrSelection_listed hlisted .sha256
  obtain ⟨moment, -, hrun⟩ := populateLoopOver_eq (I.atCommand B) .sha256 hbatch 0 hholds hfuel [] (pcrs.map blank)
    (by rw [List.length_map]) (fun _ => rfl)
  rw [List.nil_append, List.nil_append, List.length_nil, ← populateLoopFrom_fst, Option.map_eq_some_iff] at hrun
  obtain ⟨⟨entries, next⟩, hfrom, rfl⟩ := hrun
  refine ⟨⟨.sha256, _⟩, next, by simp only [getPCRValuesFrom, hsel, hfrom, Option.map_some]; rfl, ⟨rfl, ?_, ?_⟩,
    fun s hsame => ?_⟩
  · rw [map_index_fill]
  · apply length_digest_fill_blank (by rw [List.length_mapIdx])
    intro digest hdigest
    obtain ⟨j, hj, rfl⟩ := List.mem_mapIdx.1 hdigest
    exact PcrState.size_eq _ .sha256 _
  · have hstill : populateLoopFrom (fun _ => s) batch fuel 0 sel 0 0 (pcrs.map blank) = some (_, next) :=
      populateLoopFrom_congr hholds hfrom fun k _ hk i hi => (hsame k hk i hi).symm
    have hfst := congrArg (Option.map Prod.fst) hstill
    rw [populateLoopFrom_fst, ← populateLoop, populateLoop_eq s .sha256 hbatch hholds hfuel] at hfst
    rw [recorded, Option.some.inj hfst]

/-- While the counter stands still, `DecryptWithEphemeralKey` does what it does to registers that nobody extends. -/
theorem decryptWithEphemeralKeyDuring_quiet {command : Nat}
    (h : ∀ e ∈ I.before (command + 1), counted e.index = false) (pcrSet : PcrSet) (encryptedBlob : Bytes)
    (rsaWrapAlgId : RsaScheme) (rsaHashAlgId : RsaHashAlg) :
    decryptWithEphemeralKeyDuring B I dev counted command pcrSet encryptedBlob rsaWrapAlgId rsaHashAlgId =
      (decryptWithEphemeralKey dev (I.atCommand B command) pcrSet encryptedBlob rsaWrapAlgId rsaHashAlgId).mapError
        .pcr := by
  have hcounter := (counterAt_succ_eq_iff counted I).2 h
  rw [decryptWithEphemeralKeyDuring, decryptWithEphemeralKey]
  cases authorisedKey dev (I.atCommand B command) pcrSet encryptedBlob with
  | error e => rfl
  | ok key => exact if_neg (not_not.2 hcounter)

theorem decryptWithEphemeralKeyDuring_eq_ok_iff {command : Nat} {pcrSet : PcrSet} {encryptedBlob plain : Bytes}
    {rsaWrapAlgId : RsaScheme} {rsaHashAlgId : RsaHashAlg} :
    decryptWithEphemeralKeyDuring B I dev counted command pcrSet encryptedBlob rsaWrapAlgId rsaHashAlgId = .ok plain ↔
      (∀ e ∈ I.before (command + 1), counted e.index = false) ∧
        ∃ key, authorisedKey dev (I.atCommand B command) pcrSet encryptedBlob = .ok key ∧
          dev.rsaDecrypt key rsaWrapAlgId rsaHashAlgId encryptedBlob = .ok plain := by
  rw [← counterAt_succ_eq_iff, decryptWithEphemeralKeyDuring]
  cases authorisedKey dev (I.atCommand B command) pcrSet encryptedBlob with
  | error e => simp [bind, Except.bind, Except.mapError]
  | ok key =>
      simp only [bind, Except.bind, Except.mapError, Except.ok.injEq, exists_eq_left']
      by_cases hcounter : I.counterAt counted (command + 1) = I.counterAt counted command
      · rw [if_neg (not_not.2 hcounter), and_iff_right hcounter]
        cases dev.rsaDecrypt key rsaWrapAlgId rsaHashAlgId encryptedBlob <;> simp
      · rw [if_pos hcounter]
        exact iff_of_false (fun h => by cases h) fun h => hcounter h.1

end

/-! ### What is hashed -/

section Hashed

variable {Key : Type} (dev : Device Key) (sel : PcrSelection)

/-- What a session hashes when it is told about a set. -/
def policyText (pcrSet : PcrSet) : Bytes :=
  List.replicate 32 0 ++ policyPcrCode ++ sel.marshal ++ dev.sha256 pcrSet.values

def templateOf (pcrSet : PcrSet) : Template := ephemeralTemplate (dev.sha256 (policyText dev sel pcrSet))

/-- What cryptography has to give for some sets: no collision among what is hashed for them, a key of its own for each
template, and a text that only the key with the given public part decrypts the blob to. -/
structure Separated (encryptionKey : Bytes) (rsaWrapAlgId : RsaScheme) (rsaHashAlgId : RsaHashAlg)
    (plain encryptedBlob : Bytes) (sets : Set PcrSet) : Prop where
  values : Set.InjOn dev.sha256 (PcrSet.values '' sets)
  policies : Set.InjOn dev.sha256 (policyText dev sel '' sets)
  keys : Set.InjOn (fun template => dev.marshalPublic (dev.createPrimary template)) (templateOf dev sel '' sets)
  closed : ∀ template ∈ templateOf dev sel '' sets, dev.marshalPublic (dev.createPrimary template) ≠ encryptionKey →
    dev.rsaDecrypt (dev.createPrimary template) rsaWrapAlgId rsaHashAlgId encryptedBlob ≠ .ok plain

variable {dev sel} {pcrs : List Nat}

theorem generatePcrDigest_values {pcrSet : PcrSet} (h : ValuesOf pcrs pcrSet) :
    generatePcrDigest dev pcrSet pcrSet.hashAlg = dev.sha256 pcrSet.values := by
  rw [h.hashAlg]
  rfl

/-- Sets of the same registers are given the same selection. -/
theorem getTssPcrSelection_valuesOf {a b : PcrSet} (ha : ValuesOf pcrs a) (hb : ValuesOf pcrs b)
    (hsel : getTssPcrSelection dev.pcrCount a a.hashAlg = .ok sel) :
    getTssPcrSelection dev.pcrCount b b.hashAlg = .ok sel := by
  rw [← hsel, hb.hashAlg, ha.hashAlg]
  exact getTssPcrSelection_congr (hb.index.trans ha.index.symm) .sha256

/-- The session compares the set with what the registers hold then. -/
theorem authorisedKey_values {pcrSet : PcrSet} (h : ValuesOf pcrs pcrSet) (hholds : sel.Holds .sha256 pcrs)
    (hsel : getTssPcrSelection dev.pcrCount pcrSet pcrSet.hashAlg = .ok sel) (s : PcrState) {encryptedBlob : Bytes}
    (hblob : encryptedBlob.length ≤ 512) :
    authorisedKey dev s pcrSet encryptedBlob =
      if dev.sha256 pcrSet.values = dev.sha256 (recorded s pcrs).values then
        .ok (dev.createPrimary (templateOf dev sel pcrSet))
      else .error .policyPcr := by
  rw [authorisedKey_eq dev hsel s hblob, generatePcrDigest_values h, values_recorded hholds]
  rfl

end Hashed

/-! ### Reopening -/

/-- The registers hold the attested values when they are read and when the session is told about them, and no extend
that the TPM counts comes between that and the use of the key. -/
structure Reopened (B : Banks) (I : Interleaving) (counted : Nat → Bool) (pcrs : List Nat) (attested read : PcrSet)
    (next : Nat) : Prop where
  read_eq : read = attested
  told_eq : recorded (I.atCommand B next) pcrs = attested
  quiet : ∀ e ∈ I.before (next + 1), counted e.index = false

section

variable {B : Banks} {I : Interleaving} {counted : Nat → Bool} {pcrs : List Nat} {attested read : PcrSet} {next : Nat}

/-- The registers hold the attested values when the key is used. -/
theorem Reopened.used (h : Reopened B I counted pcrs attested read next) (hcounted : ∀ i ∈ pcrs, counted i = true) :
    recorded (I.atCommand B (next + 1)) pcrs = attested := by
  rw [← h.told_eq, recorded_eq_iff]
  intro i hi
  apply atCommand_value (Nat.le_succ next) _ hi
  intro k hk hkl e he _ hmem
  obtain rfl : k = next + 1 := by omega
  have hquiet := h.quiet e he
  rw [hcounted _ hmem] at hquiet
  cases hquiet

/-- No extend of a listed register reaches the bank before the session is told. -/
theorem reopened_of_unextended {s : PcrState} (hstart : ∀ i ∈ pcrs, I.start.value .sha256 i = s.value .sha256 i)
    (hread : ∀ s : PcrState, (∀ k < next, ∀ i ∈ pcrs, (I.atCommand B k).value .sha256 i = s.value .sha256 i) →
      read = recorded s pcrs)
    (hbefore : ∀ k ≤ next, ∀ e ∈ I.before k, e.hashAlg = .sha256 → e.index ∉ pcrs)
    (hquiet : ∀ e ∈ I.before (next + 1), counted e.index = false) :
    Reopened B I counted pcrs (recorded s pcrs) read next := by
  have hvalue : ∀ k ≤ next, ∀ i ∈ pcrs, (I.atCommand B k).value .sha256 i = s.value .sha256 i := by
    intro k hk i hi
    calc
      (I.atCommand B k).value .sha256 i = (I.atCommand B 0).value .sha256 i :=
        atCommand_value (Nat.zero_le k) (fun j _ hj => hbefore j (hj.trans hk)) hi
      _ = I.start.value .sha256 i := extendAll_value (hbefore 0 (Nat.zero_le _)) hi
      _ = s.value .sha256 i := hstart i hi
  exact ⟨hread s fun k hk => hvalue k hk.le, recorded_eq_iff.2 (hvalue next (le_refl _)), hquiet⟩

variable {Key : Type} {dev : Device Key} {sel : PcrSelection} {encryptedBlob plain : Bytes} {rsaWrapAlgId : RsaScheme}
  {rsaHashAlgId : RsaHashAlg} {ephemeral : EphemeralKey} {s : PcrState}

variable (B I counted next) in
/-- What `DecryptWithEphemeralKey` makes of the set that was read. -/
theorem decryptWithEphemeralKeyDuring_iff (hattested : ValuesOf pcrs attested) (hread : ValuesOf pcrs read)
    (hholds : sel.Holds .sha256 pcrs) (hsel : getTssPcrSelection dev.pcrCount attested attested.hashAlg = .ok sel)
    (hkey : getEphemeralKey dev s attested = .ok ephemeral)
    (hblob : EncryptedTo dev ephemeral.encryptionKey rsaWrapAlgId rsaHashAlgId plain encryptedBlob) :
    (Reopened B I counted pcrs attested read next →
      decryptWithEphemeralKeyDuring B I dev counted next read encryptedBlob rsaWrapAlgId rsaHashAlgId = .ok plain) ∧
    (Separated dev sel ephemeral.encryptionKey rsaWrapAlgId rsaHashAlgId plain encryptedBlob
        {attested, read, recorded (I.atCommand B next) pcrs} →
      decryptWithEphemeralKeyDuring B I dev counted next read encryptedBlob rsaWrapAlgId rsaHashAlgId = .ok plain →
        Reopened B I counted pcrs attested read next) := by
  have hpublic : dev.marshalPublic (dev.createPrimary (templateOf dev sel attested)) = ephemeral.encryptionKey := by
    have hpublic := getEphemeralKey_eq_ok dev hsel hkey
    rw [generatePcrDigest_values hattested] at hpublic
    exact hpublic
  have hselRead := getTssPcrSelection_valuesOf hattested hread hsel
  have hauth := authorisedKey_values hread hholds hselRead (I.atCommand B next) hblob.length_le
  rw [decryptWithEphemeralKeyDuring_eq_ok_iff]
  constructor
  · rintro ⟨rfl, htold, hquiet⟩
    rw [htold, if_pos rfl] at hauth
    exact ⟨hquiet, _, hauth, hblob.opens _ hpublic⟩
  · rintro hsep ⟨hquiet, key, hkey', hopened⟩
    have htold : dev.sha256 read.values = dev.sha256 (recorded (I.atCommand B next) pcrs).values := by
      by_contra hne
      rw [hauth, if_neg hne] at hkey'
      cases hkey'
    rw [hauth, if_pos htold, Except.ok.injEq] at hkey'
    rw [← hkey'] at hopened
    have hreadMem : templateOf dev sel read ∈
        templateOf dev sel '' {attested, read, recorded (I.atCommand B next) pcrs} :=
      Set.mem_image_of_mem _ (by simp)
    have hkeys : dev.marshalPublic (dev.createPrimary (templateOf dev sel read)) = ephemeral.encryptionKey := by
      by_contra hne
      exact hsep.closed _ hreadMem hne hopened
    have htemplate : templateOf dev sel read = templateOf dev sel attested :=
      hsep.keys hreadMem (Set.mem_image_of_mem _ (by simp)) (hkeys.trans hpublic.symm)
    have hpolicy : policyText dev sel read = policyText dev sel attested :=
      hsep.policies (Set.mem_image_of_mem _ (by simp)) (Set.mem_image_of_mem _ (by simp))
        (congrArg Template.authPolicy htemplate)
    have hvalues : read.values = attested.values :=
      hsep.values (Set.mem_image_of_mem _ (by simp)) (Set.mem_image_of_mem _ (by simp))
        (List.append_cancel_left hpolicy)
    have hnow : read.values = (recorded (I.atCommand B next) pcrs).values :=
      hsep.values (Set.mem_image_of_mem _ (by simp)) (Set.mem_image_of_mem _ (by simp)) htold
    exact ⟨hread.eq_of_values hattested hvalues,
      (recorded_valuesOf _ pcrs).eq_of_values hattested (hnow.symm.trans hvalues), hquiet⟩

/-- **A blob for the attested key is decrypted exactly where it is reopened**, whichever extends fall between the
commands. Where no listed register is extended before the session is told, only extends that come between that and the
use of the key can prevent it. -/
theorem decryptDuring_iff (B : Banks) (I : Interleaving) (counted : Nat → Bool) (hlisted : Listed dev.pcrCount pcrs)
    {batch : Nat → Nat} (hbatch : ∀ k, 1 ≤ batch k) {fuel : Nat} (hfuel : pcrs.length < fuel)
    (hattested : ValuesOf pcrs attested) (hsel : getTssPcrSelection dev.pcrCount attested attested.hashAlg = .ok sel)
    (hkey : getEphemeralKey dev s attested = .ok ephemeral)
    (hblob : EncryptedTo dev ephemeral.encryptionKey rsaWrapAlgId rsaHashAlgId plain encryptedBlob) :
    ∃ read next, getPCRValuesFrom B I batch dev.pcrCount pcrs .sha256 fuel = some (.ok (read, next)) ∧
      (Reopened B I counted pcrs attested read next →
        decryptDuring B I dev counted batch pcrs fuel encryptedBlob rsaWrapAlgId rsaHashAlgId = some (.ok plain)) ∧
      (Separated dev sel ephemeral.encryptionKey rsaWrapAlgId rsaHashAlgId plain encryptedBlob
          {attested, read, recorded (I.atCommand B next) pcrs} →
        decryptDuring B I dev counted batch pcrs fuel encryptedBlob rsaWrapAlgId rsaHashAlgId = some (.ok plain) →
          Reopened B I counted pcrs attested read next) ∧
      (∀ s' : PcrState, attested = recorded s' pcrs → (∀ i ∈ pcrs, I.start.value .sha256 i = s'.value .sha256 i) →
        (∀ k ≤ next, ∀ e ∈ I.before k, e.hashAlg = .sha256 → e.index ∉ pcrs) →
          (∀ e ∈ I.before (next + 1), counted e.index = false) → Reopened B I counted pcrs attested read next) := by
  obtain ⟨read, next, hget, hread, hstill⟩ := getPCRValuesFrom_ok B I hbatch hlisted hfuel
  obtain ⟨sel', hsel', hholds⟩ := @getTssPcrSelection_ok dev.pcrCount attested (by rwa [hattested.index])
    attested.hashAlg
  obtain rfl : sel' = sel := Except.ok.inj (hsel'.symm.trans hsel)
  rw [hattested.hashAlg, hattested.index] at hholds
  have hdecrypt := decryptWithEphemeralKeyDuring_iff B I counted next hattested hread hholds hsel hkey hblob
  have hrun : decryptDuring B I dev counted batch pcrs fuel encryptedBlob rsaWrapAlgId rsaHashAlgId =
      some (decryptWithEphemeralKeyDuring B I dev counted next read encryptedBlob rsaWrapAlgId rsaHashAlgId) := by
    rw [decryptDuring, hget]
    rfl
  rw [hrun]
  refine ⟨read, next, hget, fun h => ?_, fun hsep h => hdecrypt.2 hsep (Option.some.inj h), ?_⟩
  · rw [hdecrypt.1 h]
  · rintro s' rfl hstart hbefore hquiet
    exact reopened_of_unextended hstart hstill hbefore hquiet

end

end CvmAttestation.Tpm
