import CvmAttestation.SecretsWide

/-! The two conversions of `utf8_sanitizer` on Linux, one against the other, and what `unprotect_secret_wide` makes of a
secret that is not UTF-8. A malformed secret is widened byte by byte; of a secret that its end cuts short only the part
before is converted. -/

namespace CvmAttestation.Secrets

open Base

/-- A secret has no wide form exactly when it is not UTF-8, and otherwise its wide form is read back to it. -/
def Converted (secret : Bytes) : Prop :=
  ∃ wide, utf8ToWide .ample secret = .ok wide ∧ (wide = [] ∧ secret ≠ [] ↔ Utf8.valid secret = false) ∧
    (¬(wide = [] ∧ secret ≠ []) → wideToUtf8 .ample wide = secret)

/-- No other secret that is UTF-8 has the same wide form. -/
def Distinguished (secret : Bytes) : Prop :=
  ∀ other wide, Utf8.valid other = true → utf8ToWide .ample secret = .ok wide → utf8ToWide .ample other = .ok wide →
    wide ≠ [] → other = secret

/-- A run hands out the wide form of its secret, from which it can be read back, or reports that it is not UTF-8. -/
def Reported (secret : Bytes) (run : Except Exc Int × Outputs WChar) : Prop :=
  (Utf8.valid secret = true → ∃ wide, run.1 = .ok (wide.length : Int) ∧ run.2.outputSecret = some wide ∧
    wideToUtf8 .ample wide = secret) ∧
  (Utf8.valid secret = false →
    run.1 = .ok ErrorCode.parsingErrorJwtInvalidFieldError.toInt ∧ run.2.outputSecret = none)

/-- A string of Unicode, or the beginning of one character. -/
def Representable (secret : Bytes) : Prop := (∃ w, Utf8.encode w = some secret) ∨ Utf8.CutShort secret

/-- A run of the wide entry point in which the token is accepted and `secret` is decrypted. -/
structure Decrypts (P : Providers) (policy : Word) (jwt : List WChar) (pe : PolicyEvaluator) (evalPolicy : Word)
    (secret : Bytes) : Prop where
  built : PolicyEvaluator.ofWide P .ample policy jwt = .ok pe
  evaluated : pe.getEvaluatedPolicy .ample 0 = .ok evalPolicy
  compliant : pe.isCompliant .ample = .ok true
  token : pe.isLegacy = false
  decrypted : decryptToken P .ample pe = .ok (0, secret)

/-- Some run hands out `wide` for the secret. -/
def HandsOut (secret : Bytes) (wide : List WChar) : Prop :=
  ∃ P policy jwt pe evalPolicy before, Decrypts P policy jwt pe evalPolicy secret ∧
    ((unprotectSecretWide P .ample jwt policy).exec before).2.outputSecret = some wide

/-! ### The wide form -/

section

variable {secret : Bytes} {w : List WChar}

theorem wideToUtf8_encode (h : Utf8.encode w = some secret) : wideToUtf8 .ample w = secret := by
  cases w with
  | nil =>
      cases h
      rfl
  | cons c w =>
      rw [wideToUtf8, h]
      rfl

theorem utf8ToWide_encode (h : Utf8.encode w = some secret) : utf8ToWide .ample secret = .ok w := by
  have hdecode := Utf8.decode_encode h
  cases secret with
  | nil =>
      have hlen := Utf8.length_le_encode h
      rw [List.eq_nil_of_length_eq_zero (Nat.le_zero.1 hlen)]
      rfl
  | cons a secret =>
      rw [utf8ToWide, hdecode]
      rfl

theorem utf8ToWide_cut (h : Utf8.CutShort secret) : utf8ToWide .ample secret = .ok [] := by
  have hdecode := Utf8.decode_cut_iff.2 h
  rw [utf8ToWide, hdecode]
  split_ifs with hempty hfall
  · rfl
  · cases hfall
  · rfl

theorem not_valid_of_cut (h : Utf8.CutShort secret) : Utf8.valid secret = false := by
  rw [Utf8.valid, Utf8.decode_cut_iff.2 h]
  rfl

/-- Every byte is a code unit. -/
theorem encode_widen (s : Bytes) : ∃ p, Utf8.encode (widen s) = some p := by
  induction s with
  | nil => exact ⟨[], rfl⟩
  | cons a s ih =>
      obtain ⟨q, hq⟩ := ih
      have ha : a.toUInt32.toNat < 256 := by
        rw [UInt8.toNat_toUInt32]
        exact a.toNat_lt
      have hscalar : ∃ p, Utf8.encodeScalar a.toUInt32 = some p := by
        rw [Utf8.encodeScalar]
        split_ifs
        any_goals omega
        · exact ⟨_, rfl⟩
        · exact ⟨_, rfl⟩
      obtain ⟨p, hp⟩ := hscalar
      exact ⟨p ++ q, Utf8.encode_cons hp hq⟩

/-- A secret that is not representable has the wide form of another one, which is UTF-8. -/
theorem exists_same_wide (h : ¬Representable secret) :
    ∃ wide other, wide ≠ [] ∧ utf8ToWide .ample secret = .ok wide ∧ Utf8.encode wide = some other ∧
      Utf8.valid secret = false ∧ other ≠ secret := by
  have hvalid : Utf8.valid secret = false := by
    rw [← Bool.not_eq_true, Utf8.valid_iff]
    exact fun hencode => h (.inl hencode)
  have hother : ∀ {wide other}, Utf8.encode wide = some other → other ≠ secret := by
    intro wide other hencode heq
    exact h (.inl ⟨wide, heq ▸ hencode⟩)
  have hne : secret ≠ [] := fun hnil => h (.inl ⟨[], hnil ▸ rfl⟩)
  obtain ⟨wide, hwide⟩ := utf8ToWide_ample secret
  have hwidene : wide ≠ [] := fun hnil =>
    h (.inr (Utf8.decode_cut_iff.1 (utf8ToWide_eq_nil hne (hnil ▸ hwide))))
  rcases utf8ToWide_returns hne hwide with ⟨rfl, -⟩ | ⟨rfl, -, -⟩
  · obtain ⟨other, hencode⟩ := encode_widen secret
    exact ⟨widen secret, other, hwidene, hwide, hencode, hvalid, hother hencode⟩
  · obtain ⟨⟨p, hencode, -⟩, -⟩ := Utf8.decode_splits secret
    exact ⟨(Utf8.decode secret).codes, p, hwidene, hwide, hencode, hvalid, hother hencode⟩

theorem converted_iff : Converted secret ↔ Representable secret := by
  constructor
  · intro ⟨wide, hwide, hfails, hback⟩
    by_contra hrep
    obtain ⟨wide', other, hne, hwide', -, hvalid, -⟩ := exists_same_wide hrep
    cases hwide.symm.trans hwide'
    exact hne (hfails.2 hvalid).1
  · intro h
    rcases h with ⟨w, hw⟩ | hcut
    · have hvalid : Utf8.valid secret = true := Utf8.valid_iff.2 ⟨w, hw⟩
      have hback := wideToUtf8_encode hw
      refine ⟨w, utf8ToWide_encode hw, iff_of_false (fun hfails => ?_) (by simp [hvalid]), fun _ => hback⟩
      rw [hfails.1] at hback
      exact hfails.2 hback.symm
    · exact ⟨[], utf8ToWide_cut hcut, iff_of_true ⟨rfl, hcut.1⟩ (not_valid_of_cut hcut),
        fun hfails => absurd ⟨rfl, hcut.1⟩ hfails⟩

theorem distinguished_iff : Distinguished secret ↔ Representable secret := by
  constructor
  · intro h
    by_contra hrep
    obtain ⟨wide, other, hne, hwide, hencode, -, hother⟩ := exists_same_wide hrep
    exact hother (h other wide (Utf8.valid_iff.2 ⟨wide, hencode⟩) hwide (utf8ToWide_encode hencode) hne)
  · intro h other wide hvalid hwide hsame hne
    obtain ⟨w', hw'⟩ := Utf8.valid_iff.1 hvalid
    rcases h with ⟨w, hw⟩ | hcut
    · obtain rfl : w = wide := Except.ok.inj ((utf8ToWide_encode hw).symm.trans hwide)
      obtain rfl : w' = w := Except.ok.inj ((utf8ToWide_encode hw').symm.trans hsame)
      exact Option.some.inj (hw'.symm.trans hw)
    · rw [utf8ToWide_cut hcut] at hwide
      cases hwide
      exact absurd rfl hne

/-! ### Runs -/

variable {P : Providers} {policy : Word} {jwt : List WChar} {pe : PolicyEvaluator} {evalPolicy : Word}

theorem Decrypts.ne_nil (h : Decrypts P policy jwt pe evalPolicy secret) : secret ≠ [] := by
  obtain ⟨claims, -, hdec⟩ := decryptToken_returns h.decrypted
  exact hdec.of_zero.1

theorem Decrypts.exec (h : Decrypts P policy jwt pe evalPolicy secret) {wide : List WChar}
    (hwide : utf8ToWide .ample secret = .ok wide) (before : Outputs WChar) :
    (unprotectSecretWide P .ample jwt policy).exec before =
      if wide = [] then (.ok ErrorCode.parsingErrorJwtInvalidFieldError.toInt, ⟨none, some evalPolicy⟩)
      else (.ok (wide.length : Int), ⟨some wide, some evalPolicy⟩) := by
  have hconv := convertWide_ample h.ne_nil hwide
  rw [unprotectSecretWide, exec_unprotectWith, h.built]
  simp only [h.evaluated, finish, h.compliant, gatherData_token h.token, h.decrypted, hconv]
  by_cases hnil : wide = []
  · simp only [if_pos hnil]
    rfl
  · simp only [if_neg hnil, ne_eq, not_true_eq_false, if_false, if_neg (not_ample_outputBuffer _),
      handedOut_of_ne_nil hnil]

/-- A run reports its secret as it should exactly when the secret is converted as it should. -/
theorem Decrypts.reported_iff (h : Decrypts P policy jwt pe evalPolicy secret) (before : Outputs WChar) :
    Reported secret ((unprotectSecretWide P .ample jwt policy).exec before) ↔ Representable secret := by
  obtain ⟨wide, hwide⟩ := utf8ToWide_ample secret
  rw [h.exec hwide, ← converted_iff]
  constructor
  · intro ⟨hok, hfail⟩
    refine ⟨wide, hwide, ⟨fun hfails => ?_, fun hvalid => ⟨?_, h.ne_nil⟩⟩, fun hform => ?_⟩
    · rw [← Bool.not_eq_true]
      intro hvalid
      obtain ⟨wide', -, hout, -⟩ := hok hvalid
      rw [if_pos hfails.1] at hout
      cases hout
    · by_contra hnil
      have hout := (hfail hvalid).2
      rw [if_neg hnil] at hout
      cases hout
    · have hnil : wide ≠ [] := fun hnil => hform ⟨hnil, h.ne_nil⟩
      have hvalid : Utf8.valid secret = true := by
        by_contra hvalid
        have hout := (hfail (Bool.not_eq_true _ ▸ hvalid)).2
        rw [if_neg hnil] at hout
        cases hout
      obtain ⟨wide', -, hout, hback⟩ := hok hvalid
      rw [if_neg hnil] at hout
      cases hout
      exact hback
  · intro ⟨wide', hwide', hfails, hback⟩
    cases hwide.symm.trans hwide'
    constructor
    · intro hvalid
      have hform : ¬(wide = [] ∧ secret ≠ []) := fun hno => by simp [hfails.1 hno] at hvalid
      have hnil : wide ≠ [] := fun hnil => hform ⟨hnil, h.ne_nil⟩
      rw [if_neg hnil]
      exact ⟨wide, rfl, rfl, hback hform⟩
    · intro hvalid
      rw [if_pos (hfails.2 hvalid).1]
      exact ⟨rfl, rfl⟩

end

/-- Two secrets that are handed out as one are one. -/
theorem Reported.unique {secret other : Bytes} {run run' : Except Exc Int × Outputs WChar} (h : Reported secret run)
    (h' : Reported other run') {wide : List WChar} (hrun : run.2.outputSecret = some wide)
    (hrun' : run'.2.outputSecret = some wide) : secret = other := by
  have hread : ∀ {s : Bytes} {r : Except Exc Int × Outputs WChar}, Reported s r → r.2.outputSecret = some wide →
      wideToUtf8 .ample wide = s := by
    intro s r hr hout
    cases hvalid : Utf8.valid s with
    | true =>
        obtain ⟨wide', -, hout', hback⟩ := hr.1 hvalid
        cases hout.symm.trans hout'
        exact hback
    | false => cases hout.symm.trans (hr.2 hvalid).2
  exact (hread h hrun).symm.trans (hread h' hrun')

/-- **The wide form of a secret.** The conversions agree, the wide form belongs to one secret, and a run reports a secret
that is not UTF-8, for the strings of Unicode and for the beginning of one character, and for no others. -/
theorem utf8ToWide_faithful_iff (secret : Bytes) :
    (Converted secret ↔ Representable secret) ∧ (Distinguished secret ↔ Representable secret) ∧
      (∀ P policy jwt pe evalPolicy before, Decrypts P policy jwt pe evalPolicy secret →
        (Reported secret ((unprotectSecretWide P .ample jwt policy).exec before) ↔ Representable secret)) ∧
      ∀ other wide, Representable secret → Representable other → HandsOut secret wide → HandsOut other wide →
        secret = other := by
  refine ⟨converted_iff, distinguished_iff, fun _ _ _ _ _ before h => h.reported_iff before, ?_⟩
  intro other wide hrep hrep' ⟨P, policy, jwt, pe, evalPolicy, before, hrun, hout⟩
    ⟨P', policy', jwt', pe', evalPolicy', before', hrun', hout'⟩
  exact ((hrun.reported_iff before).2 hrep).unique ((hrun'.reported_iff before').2 hrep') hout hout'

/-- The byte `FF` is no UTF-8 and is handed out as if it were `C3 BF`; of `41 C3` the second byte is lost. -/
theorem utf8ToWide_not_faithful :
    ¬Converted [0xFF] ∧ ¬Converted [0x41, 0xC3] ∧ utf8ToWide .ample [0x41, 0xC3] = utf8ToWide .ample [0x41] ∧
      (unprotectSecretWide (Sample.providers [0xFF]) .ample (wideOf Sample.tokenChars) PolicyOption.allowUnsigned).exec
          ⟨none, none⟩ = (.ok 1, ⟨some [0xFF], some PayloadFeature.encrypted⟩) ∧
      (unprotectSecretWide (Sample.providers [0xC3, 0xBF]) .ample (wideOf Sample.tokenChars)
        PolicyOption.allowUnsigned).exec ⟨none, none⟩ = (.ok 1, ⟨some [0xFF], some PayloadFeature.encrypted⟩) := by
  refine ⟨?_, ?_, rfl, ?_⟩
  · intro ⟨wide, hwide, hfails, _⟩
    cases hwide
    exact List.cons_ne_nil _ _ (hfails.2 rfl).1
  · intro ⟨wide, hwide, hfails, _⟩
    cases hwide
    exact List.cons_ne_nil _ _ (hfails.2 rfl).1
  · decide +kernel

end CvmAttestation.Secrets
