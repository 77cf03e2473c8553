import CvmAttestation.SecretsLog
import CvmAttestation.SecretsWide
import Mathlib.Tactic

/-! What a caller may conclude from the return value of the two entry points: a negative value is an error
code and nothing is handed out, zero is an empty legacy input, and a positive value counts the elements of
the whole legacy input or of the whole secret. Both keep this unless a log call outside of the `try` block raises;
the wide one also drops the last sequence of a secret that ends in the middle of a sequence. -/

namespace CvmAttestation.Secrets

open Base

def IsLegacyInput (evaluator : Except Exc PolicyEvaluator) : Prop :=
  ∃ pe, evaluator = .ok pe ∧ pe.isLegacy = true

def DecryptsTo (P : Providers) (mem : Memory) (evaluator : Except Exc PolicyEvaluator) (secret : Bytes) : Prop :=
  ∃ pe, evaluator = .ok pe ∧ pe.isLegacy = false ∧ decryptToken P mem pe = .ok (0, secret)

/-- What the return value and the output pointer of a call mean. `carries secret data` says that `data`
stands for the whole of `secret`. -/
structure CallContract {τ : Type} (P : Providers) (mem : Memory) (evaluator : Except Exc PolicyEvaluator)
    (input : List τ) (carries : Bytes → List τ → Prop) (run : Except Exc Int × Outputs τ) : Prop where
  returns : ∃ r, run.1 = .ok r
  negative : ∀ r, run.1 = .ok r → r < 0 → run.2.outputSecret = none ∧ ∃ c : ErrorCode, r = c.toInt
  zero : run.1 = .ok 0 → run.2.outputSecret = none ∧ IsLegacyInput evaluator ∧ input = []
  positive : ∀ r, run.1 = .ok r → 0 < r → ∃ data, run.2.outputSecret = some data ∧ (data.length : Int) = r ∧
    ((IsLegacyInput evaluator ∧ data = input) ∨ ∃ secret, DecryptsTo P mem evaluator secret ∧ carries secret data)

/-- A wide string stands for a whole secret: it is encoded by it, or it lists its bytes. -/
def CarriesWide (secret : Bytes) (wide : List WChar) : Prop :=
  Utf8.encode wide = some secret ∨ wide = widen secret

/-- The secret holds a complete sequence and ends in one that is cut short. -/
def EndsCutShort (secret : Bytes) : Prop :=
  (Utf8.decode secret).status = .incomplete ∧ (Utf8.decode secret).codes ≠ []

/-- The log call in front of the `try` block returns, and so does the one in its handler if a step of the block
raises. -/
structure CatchesAll {τ : Type} (P : Providers) (mem : Memory) (log : Logger) (evaluator : Except Exc PolicyEvaluator)
    (input : List τ) (convert : Bytes → Except Exc (Except FailureCode (List τ))) : Prop where
  start : log .start = .ok ()
  handler : Logged.Raises P mem log evaluator input convert → log .handler = .ok ()

/-- The wide call reaches the conversion of a secret that ends cut short, and neither the conversion nor
the output buffer fails for want of memory. -/
def ReachesCutShort (P : Providers) (mem : Memory) (log : Logger) (policy : Word) (jwt : List WChar) : Prop :=
  ∃ pe evalPolicy secret, Logged.ofWide P mem log policy jwt = .ok pe ∧
    Logged.getEvaluatedPolicy mem log pe 0 = .ok evalPolicy ∧ Logged.isCompliant mem log pe = .ok true ∧
      pe.isLegacy = false ∧ Logged.decryptToken P mem log pe = .ok (0, secret) ∧ EndsCutShort secret ∧
        mem .fromBytes = false ∧ mem .outputBuffer = false

section

variable {τ : Type} {P : Providers} {mem : Memory} {log : Logger} {evaluator logged : Except Exc PolicyEvaluator}
  {input : List τ} {convert : Bytes → Except Exc (Except FailureCode (List τ))} {carries : Bytes → List τ → Prop}

theorem CallContract.of_failure (c : FailureCode) (evalPolicy : Option Word) :
    CallContract P mem evaluator input carries (.ok c.val.toInt, ⟨none, evalPolicy⟩) := by
  have hneg := ErrorCode.toInt_neg c.property
  refine ⟨⟨_, rfl⟩, ?_, ?_, ?_⟩
  · intro r hr _
    injection hr with hr
    exact ⟨rfl, c.val, hr.symm⟩
  · intro hr
    injection hr with hr
    omega
  · intro r hr hpos
    injection hr with hr
    omega

theorem CallContract.of_released {data : List τ} {evalPolicy : Option Word}
    (h : (IsLegacyInput evaluator ∧ data = input) ∨
      ∃ secret, DecryptsTo P mem evaluator secret ∧ carries secret data ∧ data ≠ []) :
    CallContract P mem evaluator input carries (.ok (data.length : Int), ⟨handedOut data, evalPolicy⟩) := by
  refine ⟨⟨_, rfl⟩, ?_, ?_, ?_⟩
  · intro r hr hneg
    injection hr with hr
    omega
  · intro hr
    injection hr with hr
    have hnil : data = [] := List.eq_nil_of_length_eq_zero (by omega)
    rcases h with ⟨hl, heq⟩ | ⟨secret, -, -, hne⟩
    · rw [hnil]
      exact ⟨rfl, hl, by rw [← heq, hnil]⟩
    · exact absurd hnil hne
  · intro r hr hpos
    injection hr with hr
    have hne : data ≠ [] := by
      rintro rfl
      simp at hr
      omega
    refine ⟨data, handedOut_of_ne_nil hne, hr, ?_⟩
    rcases h with hl | ⟨secret, hd, hc, -⟩
    · exact .inl hl
    · exact .inr ⟨secret, hd, hc⟩

theorem CallContract.of_conversion (before : Outputs τ) (hlogs : Logged.Logs log logged evaluator)
    (hcatches : CatchesAll P mem log logged input convert)
    (hconv : ∀ pe evalPolicy secret data, logged = .ok pe → Logged.getEvaluatedPolicy mem log pe 0 = .ok evalPolicy →
      Logged.isCompliant mem log pe = .ok true → pe.isLegacy = false →
        Logged.decryptToken P mem log pe = .ok (0, secret) → convert secret = .ok (.ok data) →
          (data ≠ [] → mem .outputBuffer = false) → data ≠ [] ∧ carries secret data) :
    CallContract P mem evaluator input carries ((Logged.unprotectWith P mem log logged input convert).exec before) := by
  have hended := @Logged.tryBlock_ended τ P mem log logged input convert before.evalPolicy
  rw [Logged.exec_unprotectWith, hcatches.start]
  generalize (Logged.tryBlock P mem log logged input convert).exec ⟨none, before.evalPolicy⟩ = block at hended ⊢
  cases hended with
  | raised e evalPolicy h =>
      rw [hcatches.handler h]
      exact .of_failure _ _
  | refused c evalPolicy h => exact .of_failure c _
  | @released pe evalPolicy data hpe hev hcomp hdata hbuffer h =>
      refine .of_released ?_
      cases hl : pe.isLegacy with
      | true => exact .inl ⟨⟨pe, hlogs.returns pe hpe, hl⟩, Except.ok.inj (Logged.gatherData_legacy hl hdata)⟩
      | false =>
          rcases Logged.gatherData_token hl hdata with ⟨c, hc⟩ | ⟨secret, data', hdata', hd, hv⟩
          · cases hc
          · cases hdata'
            obtain ⟨-, -, -, hquiet⟩ := Logged.decryptToken_returns hd
            have hroom : data ≠ [] → mem .outputBuffer = false := fun hne => hbuffer (by simpa using hne)
            obtain ⟨hne, hc⟩ := hconv pe evalPolicy secret data hpe hev hcomp hl hd hv hroom
            exact .inr ⟨secret, ⟨pe, hlogs.returns pe hpe, hl, hquiet rfl⟩, hc, hne⟩

/-- An exception of a log call that nothing catches leaves the call. -/
theorem CallContract.catchesAll {before : Outputs τ}
    (h : CallContract P mem evaluator input carries ((Logged.unprotectWith P mem log logged input convert).exec before)) :
    CatchesAll P mem log logged input convert := by
  obtain ⟨r, hr⟩ := h.returns
  have hended := @Logged.tryBlock_ended τ P mem log logged input convert before.evalPolicy
  rw [Logged.exec_unprotectWith] at hr
  cases hstart : log .start with
  | error e =>
      rw [hstart] at hr
      cases hr
  | ok _ =>
      refine ⟨hstart, fun hraises => ?_⟩
      rw [hstart] at hr
      generalize (Logged.tryBlock P mem log logged input convert).exec ⟨none, before.evalPolicy⟩ = block at hended hr
      cases hended with
      | raised e evalPolicy _ =>
          cases hhandler : log .handler with
          | error e' =>
              rw [hhandler] at hr
              cases hr
          | ok _ => rfl
      | refused c evalPolicy hnot => exact absurd hraises hnot
      | released _ _ _ _ _ hnot => exact absurd hraises hnot

end

section

variable {P : Providers} {mem : Memory} {log : Logger} {policy : Word}

theorem unprotectSecret_contract (jwt : Bytes) (before : Outputs UInt8)
    (hcatches : CatchesAll P mem log (Logged.ofNarrow P mem log policy jwt) jwt
      fun plaintextData => .ok (.ok plaintextData)) :
    CallContract P mem (PolicyEvaluator.ofNarrow P mem policy jwt) jwt (fun secret data => data = secret)
      ((Logged.unprotectSecret P mem log jwt policy).exec before) := by
  refine .of_conversion before (Logged.ofNarrow_logs P mem log policy jwt) hcatches ?_
  intro pe evalPolicy secret data hpe hev hcomp hl hd hv hbuffer
  cases hv
  obtain ⟨claims, -, hdec, -⟩ := Logged.decryptToken_returns hd
  exact ⟨hdec.of_zero.1, rfl⟩

theorem convertWide_returns {secret : Bytes} {wide : List WChar} (hne : secret ≠ [])
    (h : convertWide mem secret = .ok (.ok wide)) : wide ≠ [] ∧ utf8ToWide mem secret = .ok wide := by
  rw [convertWide, bind_returns] at h
  obtain ⟨wide', hw, h⟩ := h
  split_ifs at h with hempty
  · cases h
  · cases h
    refine ⟨fun hnil => hempty ?_, hw⟩
    simp [hnil, hne]

theorem carriesWide_codes {secret : Bytes} (h : (Utf8.decode secret).status = .complete) :
    CarriesWide secret (Utf8.decode secret).codes := by
  obtain ⟨⟨p, hp, hs⟩, hc⟩ := Utf8.decode_splits secret
  rw [hc.1 h, List.append_nil] at hs
  rw [hs] at hp
  exact .inl hp

theorem not_carriesWide_codes {secret : Bytes} (h : (Utf8.decode secret).status = .incomplete) :
    ¬CarriesWide secret (Utf8.decode secret).codes := by
  obtain ⟨⟨p, hp, hs⟩, hc⟩ := Utf8.decode_splits secret
  have hrest : (Utf8.decode secret).rest ≠ [] := fun hnil => by
    rw [hc.2 hnil] at h
    cases h
  have hpos := List.length_pos_of_ne_nil hrest
  have hlen : p.length + (Utf8.decode secret).rest.length = secret.length := by
    rw [← List.length_append, hs]
  have hcodes := Utf8.length_le_encode hp
  rintro (henc | hwiden)
  · rw [hp] at henc
    injection henc with henc
    rw [henc] at hlen
    omega
  · rw [hwiden, length_widen] at hcodes
    omega

theorem carriesWide_or_endsCutShort {secret : Bytes} {wide : List WChar} (hne : secret ≠ []) (hw : wide ≠ [])
    (h : utf8ToWide mem secret = .ok wide) :
    CarriesWide secret wide ∨ (EndsCutShort secret ∧ mem .fromBytes = false) := by
  rcases utf8ToWide_returns hne h with ⟨rfl, -⟩ | ⟨rfl, hmem, hst⟩
  · exact .inl (.inr rfl)
  · cases hs : (Utf8.decode secret).status with
    | complete => exact .inl (carriesWide_codes hs)
    | incomplete => exact .inr ⟨⟨hs, hw⟩, hmem⟩
    | invalid => exact absurd hs hst

/-- The wide entry point keeps the contract unless it reaches a secret that ends cut short. -/
theorem unprotectSecretWide_contract (jwt : List WChar) (before : Outputs WChar)
    (hcatches : CatchesAll P mem log (Logged.ofWide P mem log policy jwt) jwt (Logged.convertWide mem log))
    (h : ¬ReachesCutShort P mem log policy jwt) :
    CallContract P mem (PolicyEvaluator.ofWide P mem policy jwt) jwt CarriesWide
      ((Logged.unprotectSecretWide P mem log jwt policy).exec before) := by
  refine .of_conversion before (Logged.ofWide_logs P mem log policy jwt) hcatches ?_
  intro pe evalPolicy secret data hpe hev hcomp hl hd hv hbuffer
  obtain ⟨claims, -, hdec, -⟩ := Logged.decryptToken_returns hd
  have hquiet := (Logged.convertWide_logs mem log secret).returns _ hv
  obtain ⟨hne, hw⟩ := convertWide_returns hdec.of_zero.1 hquiet
  refine ⟨hne, ?_⟩
  rcases carriesWide_or_endsCutShort hdec.of_zero.1 hne hw with hc | ⟨hcut, hmem⟩
  · exact hc
  · exact absurd ⟨pe, evalPolicy, secret, hpe, hev, hcomp, hl, hd, hcut, hmem, hbuffer hne⟩ h

theorem exec_cutShort {jwt : List WChar} {pe : PolicyEvaluator} {evalPolicy : Word} {secret : Bytes}
    (before : Outputs WChar) (hstart : log .start = .ok ()) (hpe : Logged.ofWide P mem log policy jwt = .ok pe)
    (hev : Logged.getEvaluatedPolicy mem log pe 0 = .ok evalPolicy) (hcomp : Logged.isCompliant mem log pe = .ok true)
    (hl : pe.isLegacy = false) (hd : Logged.decryptToken P mem log pe = .ok (0, secret)) (hcut : EndsCutShort secret)
    (hfrom : mem .fromBytes = false) (hbuffer : mem .outputBuffer = false) :
    (Logged.unprotectSecretWide P mem log jwt policy).exec before =
      (.ok ((Utf8.decode secret).codes.length : Int), ⟨some (Utf8.decode secret).codes, some evalPolicy⟩) := by
  obtain ⟨hst, hcodes⟩ := hcut
  obtain ⟨claims, -, hdec, -⟩ := Logged.decryptToken_returns hd
  have hne := hdec.of_zero.1
  have hwide : utf8ToWide mem secret = .ok (Utf8.decode secret).codes := by
    rw [utf8ToWide, if_neg (by simpa using hne), if_neg (by simp [hfrom, hst])]
  have hconv : Logged.convertWide mem log secret = .ok (.ok (Utf8.decode secret).codes) := by
    have hquiet : convertWide mem secret = .ok (.ok (Utf8.decode secret).codes) := by
      rw [convertWide, hwide]
      exact if_neg (by simp [hcodes])
    rw [Logged.convertWide, hquiet]
    rfl
  have hgather : Logged.gatherData P mem log pe jwt (Logged.convertWide mem log) =
      .ok (.ok (Utf8.decode secret).codes) := by
    rw [Logged.gatherData, if_neg (by simp [hl]), hd, ok_bind]
    dsimp only
    rw [if_neg (by simp), hconv]
    rfl
  rw [Logged.unprotectSecretWide, Logged.exec_unprotectWith, hstart, hpe]
  dsimp only
  rw [Logged.exec_tryBlock_evaluated _ rfl hev, hcomp, hgather]
  simp only [hbuffer, Bool.and_false, Bool.false_eq_true, if_false, handedOut_of_ne_nil hcodes]

theorem not_contract_of_reachesCutShort {jwt : List WChar} (before : Outputs WChar)
    (h : ReachesCutShort P mem log policy jwt) :
    ¬CallContract P mem (PolicyEvaluator.ofWide P mem policy jwt) jwt CarriesWide
      ((Logged.unprotectSecretWide P mem log jwt policy).exec before) := by
  obtain ⟨pe, evalPolicy, secret, hpe, hev, hcomp, hl, hd, hcut, hfrom, hbuffer⟩ := h
  intro hcontract
  have hstart : log .start = .ok () := hcontract.catchesAll.start
  have hquiet := (Logged.ofWide_logs P mem log policy jwt).returns pe hpe
  obtain ⟨-, -, -, hdquiet⟩ := Logged.decryptToken_returns hd
  rw [exec_cutShort before hstart hpe hev hcomp hl hd hcut hfrom hbuffer] at hcontract
  have hpos : (0 : Int) < ((Utf8.decode secret).codes.length : Int) := by
    have := List.length_pos_of_ne_nil hcut.2
    omega
  obtain ⟨data, hdata, -, hwhole⟩ := hcontract.positive _ rfl hpos
  injection hdata with hdata
  rcases hwhole with ⟨⟨pe', hpe', hl'⟩, -⟩ | ⟨secret', ⟨pe', hpe', -, hd'⟩, hc⟩
  · rw [hquiet] at hpe'
    injection hpe' with hpe'
    rw [← hpe', hl] at hl'
    cases hl'
  · rw [hquiet] at hpe'
    injection hpe' with hpe'
    rw [← hpe', hdquiet rfl] at hd'
    injection hd' with hd'
    injection hd' with _ hsecret
    rw [← hsecret, ← hdata] at hc
    exact not_carriesWide_codes hcut.1 hc

end

/-- **What the return values mean.** For every input, policy and behaviour of the steps inside, the narrow entry point
keeps the contract exactly when no log call outside of its `try` block raises, and the wide one when, besides, it does
not reach a secret that ends cut short. -/
theorem unprotect_contract_iff (P : Providers) (mem : Memory) (log : Logger) (policy : Word) (jwt : Bytes)
    (wideJwt : List WChar) (before : Outputs UInt8) (wideBefore : Outputs WChar) :
    (CallContract P mem (PolicyEvaluator.ofNarrow P mem policy jwt) jwt (fun secret data => data = secret)
        ((Logged.unprotectSecret P mem log jwt policy).exec before) ↔
      CatchesAll P mem log (Logged.ofNarrow P mem log policy jwt) jwt fun plaintextData => .ok (.ok plaintextData)) ∧
    (CallContract P mem (PolicyEvaluator.ofWide P mem policy wideJwt) wideJwt CarriesWide
        ((Logged.unprotectSecretWide P mem log wideJwt policy).exec wideBefore) ↔
      CatchesAll P mem log (Logged.ofWide P mem log policy wideJwt) wideJwt (Logged.convertWide mem log) ∧
        ¬ReachesCutShort P mem log policy wideJwt) := by
  refine ⟨⟨fun h => h.catchesAll, unprotectSecret_contract jwt before⟩, fun hwide => ⟨hwide.catchesAll, fun h => ?_⟩, ?_⟩
  · exact not_contract_of_reachesCutShort wideBefore h hwide
  · rintro ⟨hcatches, h⟩
    exact unprotectSecretWide_contract wideJwt wideBefore hcatches h

/-- A logger that always returns, and a token whose secret is the byte `41` followed by the first byte of a sequence: the
wide call returns one and hands out the first byte alone. And a logger without memory for its first message: the
exception leaves the narrow call. -/
theorem unprotectSecretWide_not_contract :
    ¬CallContract (Sample.providers [0x41, 0xC3]) .ample
      (PolicyEvaluator.ofWide (Sample.providers [0x41, 0xC3]) .ample PolicyOption.allowUnsigned
        (wideOf Sample.tokenChars)) (wideOf Sample.tokenChars) CarriesWide
      ((Logged.unprotectSecretWide (Sample.providers [0x41, 0xC3]) .ample .silent (wideOf Sample.tokenChars)
        PolicyOption.allowUnsigned).exec ⟨none, none⟩) ∧
    (Logged.unprotectSecret (Sample.providers [0x41]) .ample (.failing .start) [0x61] PolicyOption.allowLegacy).exec
      ⟨none, none⟩ = (.error .badAlloc, ⟨none, none⟩) := by
  refine ⟨?_, by decide +kernel⟩
  have hrun : (Logged.unprotectSecretWide (Sample.providers [0x41, 0xC3]) .ample .silent (wideOf Sample.tokenChars)
      PolicyOption.allowUnsigned).exec ⟨none, none⟩ =
        (.ok 1, ⟨some [0x41], some PayloadFeature.encrypted⟩) := by decide +kernel
  have hsecret : (do
      let pe ← PolicyEvaluator.ofWide (Sample.providers [0x41, 0xC3]) .ample PolicyOption.allowUnsigned
        (wideOf Sample.tokenChars)
      let out ← decryptToken (Sample.providers [0x41, 0xC3]) .ample pe
      return (pe.isLegacy, out)) = Except.ok (false, (0, [0x41, 0xC3])) := by decide +kernel
  simp only [bind_returns] at hsecret
  obtain ⟨pe, hpe, out, hout, hret⟩ := hsecret
  injection hret with hret
  injection hret with hl hsecret
  rw [hrun]
  intro h
  obtain ⟨data, hdata, -, hwhole⟩ := h.positive 1 rfl (by decide)
  injection hdata with hdata
  rcases hwhole with ⟨⟨pe', hpe', hl'⟩, -⟩ | ⟨secret, ⟨pe', hpe', -, hd⟩, hc⟩
  · rw [hpe] at hpe'
    injection hpe' with hpe'
    rw [← hpe', hl] at hl'
    cases hl'
  · rw [hpe] at hpe'
    injection hpe' with hpe'
    rw [← hpe', hout, hsecret] at hd
    injection hd with hd
    injection hd with _ hd
    rw [← hd, ← hdata] at hc
    exact not_carriesWide_codes (by decide) hc

end CvmAttestation.Secrets
