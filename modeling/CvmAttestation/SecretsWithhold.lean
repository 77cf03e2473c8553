import CvmAttestation.SecretsRelease

/-! Two runs of `unprotect_secret` on the same input under different policies. The policy word is looked at in one
place only, the test for compliance, so it decides whether a secret is withheld and nothing else: not how the input is
classified, not what is decrypted, and not what is written to the caller's variables. -/

namespace CvmAttestation.Secrets

open Base

namespace PolicyEvaluator

variable {P : Providers} {mem : Memory}

/-- The evaluator of the same payload under another policy. -/
def withPolicy (pe : PolicyEvaluator) (policy : Word) : PolicyEvaluator := { pe with policy := policy }

theorem ofNarrow_withPolicy (P : Providers) (mem : Memory) (p q : Word) (jwt : Bytes) :
    ofNarrow P mem q jwt = (ofNarrow P mem p jwt).map fun pe => pe.withPolicy q := by
  rw [ofNarrow, ofNarrow]
  cases alloc mem .requiredFields with
  | error e => rfl
  | ok _ =>
      cases isRealJwt P mem jwt requiredFields with
      | error e => rfl
      | ok isReal =>
          cases isReal with
          | false => rfl
          | true =>
              change parseInput P mem q jwt = (parseInput P mem p jwt).map _
              rw [parseInput, parseInput]
              cases alloc mem .tokenObject with
              | error e => rfl
              | ok _ =>
                  cases alloc mem .inputString with
                  | error e => rfl
                  | ok _ =>
                      cases parseToken P mem .new jwt true subjectNameSuffix with
                      | error e => rfl
                      | ok t => rfl

theorem isPolicySet_iff {policy flag : Word} :
    isPolicySet policy flag = true ↔ ∀ i, flag.getLsbD i = true → policy.getLsbD i = true := by
  rw [isPolicySet, beq_iff_eq]
  constructor
  · intro h i hi
    rw [← h, BitVec.getLsbD_and, Bool.and_eq_true] at hi
    exact hi.1
  · intro h
    apply BitVec.eq_of_getLsbD_eq
    intro i _
    rw [BitVec.getLsbD_and]
    cases hi : flag.getLsbD i with
    | false => rw [Bool.and_false]
    | true => rw [h i hi, Bool.and_true]

/-- A policy with more bits allows more. -/
theorem isPolicySet_mono {p q : Word} (hpq : ∀ i, p.getLsbD i = true → q.getLsbD i = true) {flag : Word}
    (h : isPolicySet p flag = true) : isPolicySet q flag = true := by
  rw [isPolicySet_iff] at h ⊢
  exact fun i hi => hpq i (h i hi)

theorem compliant_iff {pe : PolicyEvaluator} {evalFeatures : Word} :
    pe.compliant evalFeatures = true ↔
      (isPolicySet evalFeatures PayloadFeature.legacy = true ∧ isPolicySet pe.policy PolicyOption.allowLegacy = true) ∨
        isPolicySet evalFeatures PayloadFeature.legacy = false ∧
          (isPolicySet evalFeatures PayloadFeature.encrypted = true ∨
            isPolicySet pe.policy PolicyOption.allowUnencrypted = true) ∧
          (isPolicySet evalFeatures PayloadFeature.signed = true ∨
            isPolicySet pe.policy PolicyOption.allowUnsigned = true) := by
  rw [compliant]
  cases isPolicySet evalFeatures PayloadFeature.legacy with
  | true => simp
  | false =>
      cases isPolicySet evalFeatures PayloadFeature.encrypted <;>
        cases isPolicySet evalFeatures PayloadFeature.signed <;>
          cases isPolicySet pe.policy PolicyOption.allowUnencrypted <;> simp

theorem compliant_mono {pe : PolicyEvaluator} {q : Word}
    (hpq : ∀ i, pe.policy.getLsbD i = true → q.getLsbD i = true) {evalFeatures : Word}
    (h : pe.compliant evalFeatures = true) : (pe.withPolicy q).compliant evalFeatures = true := by
  rw [compliant_iff] at h ⊢
  rcases h with ⟨hlegacy, hallow⟩ | ⟨hlegacy, hencrypted, hsigned⟩
  · exact .inl ⟨hlegacy, isPolicySet_mono hpq hallow⟩
  · exact .inr ⟨hlegacy, hencrypted.imp_right (isPolicySet_mono hpq), hsigned.imp_right (isPolicySet_mono hpq)⟩

end PolicyEvaluator

/-! ### The end of a run under two policies -/

section

variable {P : Providers} {mem : Memory} {pe : PolicyEvaluator} {input : Bytes}
  {convert : Bytes → Except Exc (Except FailureCode Bytes)}

/-- A payload that was refused for its features, or whose secret is withheld for a reason that carries the same code. -/
theorem finish_of_mismatch (h : (finish P mem pe input convert).1 = ErrorCode.policyMismatchError.toInt) :
    finish P mem pe input convert = (ErrorCode.policyMismatchError.toInt, none) := by
  rw [finish] at h ⊢
  cases hcomp : pe.isCompliant mem with
  | error e =>
      simp only [hcomp] at h
      simp only [h]
  | ok compliant =>
      cases compliant with
      | false => rfl
      | true =>
          simp only [hcomp] at h ⊢
          rcases hg : gatherData P mem pe input convert with e | result | data
          · simp only [hg] at h
            simp only [h]
          · simp only [hg] at h
            simp only [h]
          · simp only [hg] at h
            split_ifs at h with hbuffer
            · cases h
            · have hneg : ErrorCode.policyMismatchError.toInt < 0 := by decide
              simp only at h
              omega

theorem finish_withPolicy_of_compliant {q : Word} {evalFeatures : Word}
    (hev : pe.getEvaluatedPolicy mem 1 = .ok evalFeatures)
    (h : (pe.withPolicy q).compliant evalFeatures = pe.compliant evalFeatures) :
    finish P mem (pe.withPolicy q) input convert = finish P mem pe input convert := by
  have hev' : (pe.withPolicy q).getEvaluatedPolicy mem 1 = .ok evalFeatures := hev
  have hcomp : (pe.withPolicy q).isCompliant mem = pe.isCompliant mem := by
    rw [PolicyEvaluator.isCompliant, PolicyEvaluator.isCompliant, hev, hev']
    change Except.ok ((pe.withPolicy q).compliant evalFeatures) = Except.ok (pe.compliant evalFeatures)
    rw [h]
  rw [finish, finish, hcomp]
  rfl

theorem finish_of_not_compliant {evalFeatures : Word} (hev : pe.getEvaluatedPolicy mem 1 = .ok evalFeatures)
    (h : pe.compliant evalFeatures = false) :
    finish P mem pe input convert = (ErrorCode.policyMismatchError.toInt, none) := by
  have hcomp : pe.isCompliant mem = .ok false := by
    rw [PolicyEvaluator.isCompliant, hev, ← h]
    rfl
  rw [finish, hcomp]

/-- What two policies can make of one payload: the same, or a refusal under one of them. -/
theorem finish_withPolicy (P : Providers) (mem : Memory) (pe : PolicyEvaluator) (input : Bytes)
    (convert : Bytes → Except Exc (Except FailureCode Bytes)) (q : Word) :
    finish P mem (pe.withPolicy q) input convert = finish P mem pe input convert ∨
      finish P mem pe input convert = (ErrorCode.policyMismatchError.toInt, none) ∨
        finish P mem (pe.withPolicy q) input convert = (ErrorCode.policyMismatchError.toInt, none) := by
  cases hev : pe.getEvaluatedPolicy mem 1 with
  | error e =>
      have hev' : (pe.withPolicy q).getEvaluatedPolicy mem 1 = .error e := hev
      left
      rw [finish, finish, PolicyEvaluator.isCompliant, PolicyEvaluator.isCompliant, hev, hev']
      rfl
  | ok evalFeatures =>
      cases hp : pe.compliant evalFeatures with
      | false => exact .inr (.inl (finish_of_not_compliant hev hp))
      | true =>
          cases hq : (pe.withPolicy q).compliant evalFeatures with
          | false => exact .inr (.inr (finish_of_not_compliant hev hq))
          | true => exact .inl (finish_withPolicy_of_compliant hev (hq.trans hp.symm))

/-- A secret that is handed out is handed out under every policy that allows more. -/
theorem finish_withPolicy_mono {q : Word} (hpq : ∀ i, pe.policy.getLsbD i = true → q.getLsbD i = true)
    (h : 0 ≤ (finish P mem pe input convert).1) :
    finish P mem (pe.withPolicy q) input convert = finish P mem pe input convert := by
  have hneg : ErrorCode.policyMismatchError.toInt < 0 := by decide
  cases hev : pe.getEvaluatedPolicy mem 1 with
  | error e =>
      have hcomp : pe.isCompliant mem = .error e := by
        rw [PolicyEvaluator.isCompliant, hev]
        rfl
      rw [finish, hcomp] at h
      have := ErrorCode.toInt_neg (unprotectError e).property
      simp only at h
      omega
  | ok evalFeatures =>
      cases hp : pe.compliant evalFeatures with
      | false =>
          rw [finish_of_not_compliant hev hp] at h
          simp only at h
          omega
      | true =>
          exact finish_withPolicy_of_compliant hev ((PolicyEvaluator.compliant_mono hpq hp).trans hp.symm)

end

/-- A run that returned `PolicyMismatchError`. -/
def Mismatched (run : Except Exc Int × Outputs UInt8) : Prop := run.1 = .ok ErrorCode.policyMismatchError.toInt

def Succeeded (run : Except Exc Int × Outputs UInt8) : Prop := ∃ r, run.1 = .ok r ∧ 0 ≤ r

theorem PolicyEvaluator.ofNarrow_policy {P : Providers} {mem : Memory} {policy : Word} {jwt : Bytes}
    {pe : PolicyEvaluator} (h : PolicyEvaluator.ofNarrow P mem policy jwt = .ok pe) : pe.policy = policy := by
  rcases PolicyEvaluator.ofNarrow_returns h with ⟨-, rfl⟩ | ⟨-, t, -, rfl⟩
  · rfl
  · rfl

/-- The two runs in closed form. They part, if at all, after the features have been written. -/
inductive TwoRuns (P : Providers) (mem : Memory) (jwt : Bytes) (p q : Word) (before : Outputs UInt8) : Prop
  | same (h : (unprotectSecret P mem jwt p).exec before = (unprotectSecret P mem jwt q).exec before)
      (hfailed : ¬Succeeded ((unprotectSecret P mem jwt p).exec before))
  | evaluated (pe : PolicyEvaluator) (evalPolicy : Word) (hpe : pe.policy = p)
      (hp : (unprotectSecret P mem jwt p).exec before =
        (.ok (finish P mem pe jwt fun plaintextData => .ok (.ok plaintextData)).1,
          ⟨(finish P mem pe jwt fun plaintextData => .ok (.ok plaintextData)).2, some evalPolicy⟩))
      (hq : (unprotectSecret P mem jwt q).exec before =
        (.ok (finish P mem (pe.withPolicy q) jwt fun plaintextData => .ok (.ok plaintextData)).1,
          ⟨(finish P mem (pe.withPolicy q) jwt fun plaintextData => .ok (.ok plaintextData)).2, some evalPolicy⟩))

theorem not_succeeded (e : Exc) (after : Outputs UInt8) : ¬Succeeded (.ok (unprotectError e).val.toInt, after) := by
  rintro ⟨r, hr, hpos⟩
  have := ErrorCode.toInt_neg (unprotectError e).property
  injection hr with hr
  omega

theorem twoRuns (P : Providers) (mem : Memory) (jwt : Bytes) (p q : Word) (before : Outputs UInt8) :
    TwoRuns P mem jwt p q before := by
  have hp := exec_unprotectWith P mem (PolicyEvaluator.ofNarrow P mem p jwt) jwt
    (fun plaintextData => .ok (.ok plaintextData)) before
  have hq := exec_unprotectWith P mem (PolicyEvaluator.ofNarrow P mem q jwt) jwt
    (fun plaintextData => .ok (.ok plaintextData)) before
  rw [← unprotectSecret] at hp hq
  rw [PolicyEvaluator.ofNarrow_withPolicy P mem p q] at hq
  cases hpe : PolicyEvaluator.ofNarrow P mem p jwt with
  | error e =>
      rw [hpe] at hp hq
      apply TwoRuns.same (hp.trans hq.symm)
      rw [hp]
      exact not_succeeded e _
  | ok pe =>
      rw [hpe] at hp hq
      cases hev : pe.getEvaluatedPolicy mem 0 with
      | error e =>
          have hev' : (pe.withPolicy q).getEvaluatedPolicy mem 0 = .error e := hev
          simp only [hev] at hp
          simp only [Except.map, hev'] at hq
          apply TwoRuns.same (hp.trans hq.symm)
          rw [hp]
          exact not_succeeded e _
      | ok evalPolicy =>
          have hev' : (pe.withPolicy q).getEvaluatedPolicy mem 0 = .ok evalPolicy := hev
          simp only [hev] at hp
          simp only [Except.map, hev'] at hq
          exact .evaluated pe evalPolicy (PolicyEvaluator.ofNarrow_policy hpe) hp hq

theorem same_or_mismatched {x y : Int × Option Bytes} (hx : x = (ErrorCode.policyMismatchError.toInt, none))
    (hy : y.1 = ErrorCode.policyMismatchError.toInt → y = (ErrorCode.policyMismatchError.toInt, none))
    (evalPolicy : Option Word) :
    x = y ∨ Mismatched (.ok x.1, ⟨x.2, evalPolicy⟩) ∧ ¬Mismatched (.ok y.1, ⟨y.2, evalPolicy⟩) := by
  by_cases h : y.1 = ErrorCode.policyMismatchError.toInt
  · exact .inl (hx.trans (hy h).symm)
  · right
    rw [hx]
    refine ⟨rfl, fun hy => h ?_⟩
    injection hy

/-- **The policy can only withhold a secret.** Two runs on the same input have the same result, or exactly one of them
is a mismatch, and both report the same features; and what is released under some policy is released under every
policy that has all of its bits. -/
theorem unprotectSecret_policies (P : Providers) (mem : Memory) (jwt : Bytes) (p q : Word) (before : Outputs UInt8) :
    ((unprotectSecret P mem jwt p).exec before = (unprotectSecret P mem jwt q).exec before ∨
      Xor (Mismatched ((unprotectSecret P mem jwt p).exec before))
          (Mismatched ((unprotectSecret P mem jwt q).exec before)) ∧
        ((unprotectSecret P mem jwt p).exec before).2.evalPolicy =
          ((unprotectSecret P mem jwt q).exec before).2.evalPolicy) ∧
    ((∀ i, p.getLsbD i = true → q.getLsbD i = true) → Succeeded ((unprotectSecret P mem jwt p).exec before) →
      Succeeded ((unprotectSecret P mem jwt q).exec before) ∧
        (unprotectSecret P mem jwt q).exec before = (unprotectSecret P mem jwt p).exec before) := by
  cases twoRuns P mem jwt p q before with
  | same h hfailed => exact ⟨.inl h, fun _ hsucceeded => absurd hsucceeded hfailed⟩
  | evaluated pe evalPolicy hpe hp hq =>
      rw [hp, hq]
      constructor
      · rcases finish_withPolicy P mem pe jwt (fun plaintextData => .ok (.ok plaintextData)) q with h | h | h
        · rw [h]
          exact .inl rfl
        · rcases same_or_mismatched h finish_of_mismatch (some evalPolicy) with h | h
          · rw [h]
            exact .inl rfl
          · exact .inr ⟨.inl h, rfl⟩
        · rcases same_or_mismatched h finish_of_mismatch (some evalPolicy) with h | h
          · rw [h]
            exact .inl rfl
          · exact .inr ⟨.inr h, rfl⟩
      · rintro hpq ⟨r, hr, hpos⟩
        injection hr with hr
        rw [← hpe] at hpq
        have heq := finish_withPolicy_mono hpq (hr.symm ▸ hpos)
        rw [heq]
        exact ⟨⟨r, congrArg Except.ok hr, hpos⟩, rfl⟩

/-- A token without a signature, refused by a policy without bits and released under two that allow it. -/
theorem unprotectSecret_policies_sample :
    Mismatched ((unprotectSecret (Sample.providers [7]) .ample Sample.token 0).exec ⟨none, none⟩) ∧
      Succeeded ((unprotectSecret (Sample.providers [7]) .ample Sample.token 0x80000002).exec ⟨none, none⟩) ∧
        (unprotectSecret (Sample.providers [7]) .ample Sample.token 0x80000002).exec ⟨none, none⟩ =
          (.ok 1, ⟨some [7], some PayloadFeature.encrypted⟩) := by
  have hrefused : (unprotectSecret (Sample.providers [7]) .ample Sample.token 0).exec ⟨none, none⟩ =
      (.ok (-0x5000), ⟨none, some PayloadFeature.encrypted⟩) := by decide +kernel
  have hreleased : (unprotectSecret (Sample.providers [7]) .ample Sample.token PolicyOption.allowUnsigned).exec
      ⟨none, none⟩ = (.ok 1, ⟨some [7], some PayloadFeature.encrypted⟩) := by decide +kernel
  have hbits : ∀ i, PolicyOption.allowUnsigned.getLsbD i = true → (0x80000002 : Word).getLsbD i = true := by
    have hall : ∀ i < 32, PolicyOption.allowUnsigned.getLsbD i = true → (0x80000002 : Word).getLsbD i = true := by
      decide
    exact fun i hi => hall i (BitVec.lt_of_getLsbD hi) hi
  have h := unprotectSecret_policies (Sample.providers [7]) .ample Sample.token PolicyOption.allowUnsigned 0x80000002
    ⟨none, none⟩
  rw [hreleased] at h
  rw [hrefused]
  exact ⟨rfl, h.2 hbits ⟨1, rfl, by decide⟩⟩

end CvmAttestation.Secrets
