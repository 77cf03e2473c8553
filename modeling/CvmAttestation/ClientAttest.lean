import CvmAttestation.ClientEvidence
import CvmAttestation.ClientSend

/-! `Attest`: the loop that sends a request, reads the response and decrypts the token, and the whole run. Another
round is started only when the token could not be decrypted. The counters of requests and rounds are no variables
of the source; they say what the run has done. -/

namespace CvmAttestation.Client

open Base

structure Platform where
  json : Jsoncpp
  machine : Machine
  network : Network
  unsealer : Unsealer

/-- What a run of `Attest` leaves: its result, what was written to `*jwt_token_out`, and how many requests and rounds
it took. -/
structure Run where
  result : AttestationResult
  jwtTokenOut : Option Bytes
  issued : Nat
  rounds : Nat
  deriving DecidableEq, Repr

/-- `AttestationClientImpl::sendHttpRequest`; the response is handed over only on success. -/
def sendHttpRequest (N : Network) (issued : Nat) (jwtEncrypted : Bytes) : Sent :=
  let sent := sendRequest N issued []
  if sent.result.code ≠ .success then { sent with httpResponse := jwtEncrypted } else sent

/-- `AttestationClientImpl::sendAttestationRequest`: what `jwt_token_encrypted` held before is dropped first. -/
def sendAttestationRequest (N : Network) (issued : Nat) (_jwtTokenEncrypted : Bytes) : Sent :=
  let jwtTokenEncrypted := []
  let sent := sendHttpRequest N issued []
  if sent.result.code ≠ .success then { sent with httpResponse := jwtTokenEncrypted } else sent

def maxAttestationRetries : UInt8 := 3

theorem maxAttestationRetries_decreases {retries : UInt8} (h : retries < maxAttestationRetries) :
    (maxAttestationRetries - (retries + 1)).toNat < (maxAttestationRetries - retries).toNat :=
  maxRetries_decreases fun heq => by
    rw [heq] at h
    exact absurd h (by decide)

section

variable (P : Platform)

/-- The loop of `Attest`, and the copy of the token with the NUL at its end. -/
def attestLoop (retries : UInt8) (rounds issued : Nat) (maaResponse : Bytes) : Except Exc Run :=
  let sent := sendAttestationRequest P.network issued maaResponse
  if sent.result.code ≠ .success then .ok ⟨sent.result, none, sent.issued, rounds + 1⟩
  else
    match (parseMaaResponse P.json sent.httpResponse).run with
    | .error e => .error e
    | .ok (.error f) => .ok ⟨f.result, none, sent.issued, rounds + 1⟩
    | .ok (.ok tokenEncrypted) =>
      match (decryptMaaToken P.json P.unsealer sent.issued tokenEncrypted).run with
      | .error e => .error e
      | .ok (.error f) =>
        if retries < maxAttestationRetries then attestLoop (retries + 1) (rounds + 1) sent.issued sent.httpResponse
        else .ok ⟨f.result, none, sent.issued, rounds + 1⟩
      | .ok (.ok tokenDecrypted) => .ok ⟨.success, some (tokenDecrypted ++ [0]), sent.issued, rounds + 1⟩
termination_by (maxAttestationRetries - retries).toNat
decreasing_by exact maxAttestationRetries_decreases (by assumption)

def attest (params : ClientParameters) (hasOut : Bool) : Except Exc Run :=
  match (prepare P.json P.machine params hasOut).run with
  | .error e => .error e
  | .ok (.error f) => .ok ⟨f.result, none, 0, 0⟩
  | .ok (.ok _) => attestLoop P 0 0 0 []

end

/-! ### One round -/

/-- The last transfer of the requests issued from one point on. -/
def lastTransfer (N : Network) (issued : Nat) : Transfer := N.transfers (issued + requests N 3 issued - 1)

/-- Sending succeeds: curl is there and the last status is 200. -/
def Delivered (N : Network) (issued : Nat) : Prop :=
  N.curlInit issued = true ∧ (lastTransfer N issued).completion = .status 200

theorem answer_success_iff {t : Transfer} : t.answer.code = .success ↔ t.completion = .status 200 := by
  rw [Transfer.answer]
  cases t.completion with
  | failed error => simp [AttestationResult.failure]
  | status code =>
      by_cases h200 : code = 200
      · simp [h200, AttestationResult.success]
      by_cases h400 : code = 400
      · simp [h400, AttestationResult.failure]
      by_cases hretry : isRetryable code = true
      · simp [h200, h400, hretry, AttestationResult.failure]
      · simp [h200, h400, hretry, AttestationResult.failure]

theorem sendRequest_eq {N : Network} {issued : Nat} (h : N.curlInit issued = true) (httpResponse : Bytes) :
    sendRequest N issued httpResponse =
      ⟨(lastTransfer N issued).answer, (lastTransfer N issued).received httpResponse, issued + requests N 3 issued⟩ := by
  rw [sendRequest, if_pos h]
  exact sendLoop_eq N (le_refl 3) issued httpResponse

theorem sendAttestationRequest_delivered {N : Network} {issued : Nat} (h : Delivered N issued) (maaResponse : Bytes) :
    sendAttestationRequest N issued maaResponse =
      ⟨.success, (lastTransfer N issued).body, issued + requests N 3 issued⟩ := by
  have hsend : sendRequest N issued [] =
      ⟨.success, (lastTransfer N issued).body, issued + requests N 3 issued⟩ := by
    rw [sendRequest_eq h.1, Transfer.received, if_pos h.2, Transfer.answer, h.2]
    rfl
  simp [sendAttestationRequest, sendHttpRequest, hsend, AttestationResult.success]

theorem sendAttestationRequest_failed {N : Network} {issued : Nat} (h : ¬Delivered N issued) (maaResponse : Bytes) :
    (sendAttestationRequest N issued maaResponse).result.code ≠ .success ∧
      (sendAttestationRequest N issued maaResponse).issued ≤ issued + 4 := by
  have hsend : (sendRequest N issued []).result.code ≠ .success ∧ (sendRequest N issued []).issued ≤ issued + 4 := by
    by_cases hinit : N.curlInit issued = true
    · rw [sendRequest_eq hinit]
      have hle : requests N 3 issued ≤ 4 := attempts_le _ 3 issued
      exact ⟨fun hcode => h ⟨hinit, answer_success_iff.1 hcode⟩, by
        change issued + requests N 3 issued ≤ issued + 4
        omega⟩
    · rw [sendRequest, if_neg hinit]
      exact ⟨by simp [AttestationResult.failure], Nat.le_add_right _ _⟩
  simp only [sendAttestationRequest, sendHttpRequest, if_pos hsend.1]
  exact hsend

section

variable (P : Platform)

/-- Reading the response that the requests from one point on have brought, and decrypting its token. -/
def answerFrom (issued : Nat) : Fallible Exc Failure Bytes :=
  parseMaaResponse P.json (lastTransfer P.network issued).body >>=
    decryptMaaToken P.json P.unsealer (issued + requests P.network 3 issued)

def DecryptFails (issued : Nat) : Prop :=
  Delivered P.network issued ∧ ∃ tokenEncrypted,
    (parseMaaResponse P.json (lastTransfer P.network issued).body).Returns tokenEncrypted ∧
      (decryptMaaToken P.json P.unsealer (issued + requests P.network 3 issued) tokenEncrypted).Fails

/-- How a round of the loop ends, when it raises nothing. -/
inductive RoundEnd (retries : UInt8) (rounds issued : Nat) (run : Except Exc Run) : Prop
  | failed (result : AttestationResult) (last : Nat) (hcode : result.code ≠ .success) (hlast : last ≤ issued + 4)
      (hrun : run = .ok ⟨result, none, last, rounds + 1⟩)
      (hstop : DecryptFails P issued → ¬retries < maxAttestationRetries)
  | decrypted (token : Bytes) (hdelivered : Delivered P.network issued) (htoken : (answerFrom P issued).Returns token)
      (hrun : run = .ok ⟨.success, some (token ++ [0]), issued + requests P.network 3 issued, rounds + 1⟩)
  | again (hfails : DecryptFails P issued) (hretries : retries < maxAttestationRetries)
      (hrun : run = attestLoop P (retries + 1) (rounds + 1) (issued + requests P.network 3 issued)
        (lastTransfer P.network issued).body)

end

/-- One round raises nothing exactly when the response, if there is one, is in order, and then ends in one of these
ways. -/
def Round (P : Platform) (retries : UInt8) (rounds issued : Nat) (run : Except Exc Run) : Prop :=
  ((∃ e, run = .error e) ∧ Delivered P.network issued ∧ ¬(answerFrom P issued).Safe) ∨
    (Delivered P.network issued → (answerFrom P issued).Safe) ∧ RoundEnd P retries rounds issued run

theorem issued_le (N : Network) (issued : Nat) : issued + requests N 3 issued ≤ issued + 4 := by
  have hle : requests N 3 issued ≤ 4 := attempts_le _ 3 issued
  omega

section Round

variable {P : Platform} {issued : Nat} (hdelivered : Delivered P.network issued) (retries : UInt8) (rounds : Nat)
  (maaResponse : Bytes)

include hdelivered in
theorem attestLoop_unread {e : Exc}
    (hparse : (parseMaaResponse P.json (lastTransfer P.network issued).body).run = .error e) :
    Round P retries rounds issued (attestLoop P retries rounds issued maaResponse) := by
  rw [attestLoop, sendAttestationRequest_delivered hdelivered]
  simp only [AttestationResult.success, ne_eq, not_true_eq_false, if_false, hparse]
  refine .inl ⟨⟨e, rfl⟩, hdelivered, ?_⟩
  rw [answerFrom, Fallible.safe_bind_iff]
  rintro ⟨⟨r, hr⟩, -⟩
  cases hparse.symm.trans hr

include hdelivered in
theorem attestLoop_no_token {f : Failure}
    (hparse : (parseMaaResponse P.json (lastTransfer P.network issued).body).run = .ok (.error f)) :
    Round P retries rounds issued (attestLoop P retries rounds issued maaResponse) := by
  have hnot : ∀ tokenEncrypted,
      ¬(parseMaaResponse P.json (lastTransfer P.network issued).body).Returns tokenEncrypted := by
    intro tokenEncrypted hr
    cases hparse.symm.trans hr
  rw [attestLoop, sendAttestationRequest_delivered hdelivered]
  simp only [AttestationResult.success, ne_eq, not_true_eq_false, if_false, hparse]
  refine .inr ⟨fun _ => ?_, .failed _ _ f.failed (issued_le P.network issued) rfl ?_⟩
  · rw [answerFrom, Fallible.safe_bind_iff]
    exact ⟨⟨_, hparse⟩, fun tokenEncrypted hr => absurd hr (hnot tokenEncrypted)⟩
  · rintro ⟨-, tokenEncrypted, hr, -⟩
    exact absurd hr (hnot tokenEncrypted)

include hdelivered in
theorem attestLoop_token {tokenEncrypted : Bytes}
    (hparse : (parseMaaResponse P.json (lastTransfer P.network issued).body).run = .ok (.ok tokenEncrypted)) :
    Round P retries rounds issued (attestLoop P retries rounds issued maaResponse) := by
  have hanswer : (answerFrom P issued).run =
      (decryptMaaToken P.json P.unsealer (issued + requests P.network 3 issued) tokenEncrypted).run := by
    rw [answerFrom, Fallible.run_bind_cases, hparse]
  rw [attestLoop, sendAttestationRequest_delivered hdelivered]
  simp only [AttestationResult.success, ne_eq, not_true_eq_false, if_false, hparse]
  cases hdecrypt : (decryptMaaToken P.json P.unsealer (issued + requests P.network 3 issued) tokenEncrypted).run with
  | error e =>
      refine .inl ⟨⟨e, rfl⟩, hdelivered, ?_⟩
      rintro ⟨r, hr⟩
      rw [hanswer, hdecrypt] at hr
      cases hr
  | ok token =>
      refine .inr ⟨fun _ => ⟨token, by rw [hanswer, hdecrypt]⟩, ?_⟩
      cases token with
      | error f =>
          by_cases hretries : retries < maxAttestationRetries
          · simp only [if_pos hretries]
            exact .again ⟨hdelivered, tokenEncrypted, hparse, f, hdecrypt⟩ hretries rfl
          · simp only [if_neg hretries]
            exact .failed _ _ f.failed (issued_le P.network issued) rfl fun _ => hretries
      | ok token => exact .decrypted token hdelivered (hanswer.trans hdecrypt) rfl

end Round

/-- **One round.** -/
theorem attestLoop_round (P : Platform) (retries : UInt8) (rounds issued : Nat) (maaResponse : Bytes) :
    Round P retries rounds issued (attestLoop P retries rounds issued maaResponse) := by
  by_cases hdelivered : Delivered P.network issued
  · cases hparse : (parseMaaResponse P.json (lastTransfer P.network issued).body).run with
    | error e => exact attestLoop_unread hdelivered retries rounds maaResponse hparse
    | ok answer =>
        cases answer with
        | error f => exact attestLoop_no_token hdelivered retries rounds maaResponse hparse
        | ok tokenEncrypted => exact attestLoop_token hdelivered retries rounds maaResponse hparse
  · obtain ⟨hcode, hle⟩ := sendAttestationRequest_failed hdelivered maaResponse
    refine .inr ⟨fun h => absurd h hdelivered, .failed _ _ hcode hle ?_ fun h => absurd h.1 hdelivered⟩
    rw [attestLoop]
    simp only [if_pos hcode]

/-! ### Whole runs -/

def roundStart (N : Network) : Nat → Nat
  | 0 => 0
  | k + 1 => roundStart N k + requests N 3 (roundStart N k)

/-- A run hands out a token exactly when it returns `SUCCESS`, and then the one decrypted from the last response with
one NUL after it. -/
def TokenWritten (P : Platform) (run : Run) : Prop :=
  (run.result.code = .success ↔ ∃ out, run.jwtTokenOut = some out) ∧
    ∀ out, run.jwtTokenOut = some out → ∃ token, out = token ++ [0] ∧
      (P.network.transfers (run.issued - 1)).completion = .status 200 ∧
        (parseMaaResponse P.json (P.network.transfers (run.issued - 1)).body >>=
          decryptMaaToken P.json P.unsealer run.issued).Returns token

theorem retries_lt {left : Nat} (h : left < 3) : UInt8.ofNat (3 - (left + 1)) < maxAttestationRetries := by
  interval_cases left <;> decide

theorem retries_succ {left : Nat} (h : left < 3) : UInt8.ofNat (3 - (left + 1)) + 1 = UInt8.ofNat (3 - left) := by
  interval_cases left <;> decide

/-- A run that returns stops after this round, or goes on after a token that could not be decrypted. -/
theorem attestLoop_next {P : Platform} {retries : UInt8} {rounds issued : Nat} {maaResponse : Bytes} {run : Run}
    (h : attestLoop P retries rounds issued maaResponse = .ok run) :
    run.rounds = rounds + 1 ∧ run.issued ≤ issued + 4 ∧ TokenWritten P run ∨
      DecryptFails P issued ∧ retries < maxAttestationRetries ∧
        attestLoop P (retries + 1) (rounds + 1) (issued + requests P.network 3 issued)
          (lastTransfer P.network issued).body = .ok run := by
  rcases attestLoop_round P retries rounds issued maaResponse with ⟨⟨e, he⟩, -⟩ | ⟨-, hend⟩
  · cases he.symm.trans h
  · rw [h] at hend
    cases hend with
    | failed result last hcode hlast hrun hstop =>
        cases hrun
        refine .inl ⟨rfl, hlast, ⟨fun hc => absurd hc hcode, ?_⟩, nofun⟩
        rintro ⟨out, hout⟩
        cases hout
    | decrypted token hdelivered htoken hrun =>
        cases hrun
        have hle : requests P.network 3 issued ≤ 4 := attempts_le _ 3 issued
        refine .inl ⟨rfl, by simpa using hle, ⟨fun _ => ⟨_, rfl⟩, fun _ => rfl⟩, ?_⟩
        intro out hout
        cases hout
        exact ⟨token, rfl, hdelivered.2, htoken⟩
    | again hfails hretries hrun => exact .inr ⟨hfails, hretries, hrun.symm⟩

theorem attestLoop_run {P : Platform} {left : Nat} (hleft : left ≤ 3) {rounds : Nat} {maaResponse : Bytes} {run : Run}
    (h : attestLoop P (UInt8.ofNat (3 - left)) rounds (roundStart P.network rounds) maaResponse = .ok run) :
    run.rounds ≤ rounds + left + 1 ∧ run.issued ≤ roundStart P.network rounds + 4 * (left + 1) ∧
      (∀ k, rounds ≤ k → k + 1 < run.rounds → DecryptFails P (roundStart P.network k)) ∧ TokenWritten P run := by
  induction left generalizing rounds maaResponse with
  | zero =>
      rcases attestLoop_next h with ⟨hrounds, hissued, htoken⟩ | ⟨-, hretries, -⟩
      · exact ⟨by omega, by omega, fun k hk hlt => by omega, htoken⟩
      · exact absurd hretries (by decide)
  | succ left ih =>
      rcases attestLoop_next h with ⟨hrounds, hissued, htoken⟩ | ⟨hfails, -, hnext⟩
      · exact ⟨by omega, by omega, fun k hk hlt => by omega, htoken⟩
      · have hstart : roundStart P.network (rounds + 1) =
            roundStart P.network rounds + requests P.network 3 (roundStart P.network rounds) := rfl
        have hle : requests P.network 3 (roundStart P.network rounds) ≤ 4 := attempts_le _ 3 _
        rw [retries_succ hleft, ← hstart] at hnext
        obtain ⟨hrounds, hissued, hagain, htoken⟩ := ih (by omega) hnext
        refine ⟨by omega, by omega, fun k hk hlt => ?_, htoken⟩
        rcases Nat.eq_or_lt_of_le hk with rfl | hk
        · exact hfails
        · exact hagain k hk hlt

theorem not_decryptFails {P : Platform} {issued : Nat} {token : Bytes} (h : (answerFrom P issued).Returns token) :
    ¬DecryptFails P issued := by
  rintro ⟨-, tokenEncrypted, hparse, f, hf⟩
  rw [answerFrom, Fallible.returns_bind_iff] at h
  obtain ⟨tokenEncrypted', hparse', hdecrypt⟩ := h
  cases hparse.symm.trans hparse'
  cases hf.symm.trans hdecrypt

theorem attestLoop_returns_step (P : Platform) (retries : UInt8) (rounds issued : Nat) (maaResponse : Bytes) :
    (∃ run, attestLoop P retries rounds issued maaResponse = .ok run) ↔
      (Delivered P.network issued → (answerFrom P issued).Safe) ∧
        (DecryptFails P issued → retries < maxAttestationRetries →
          ∃ run, attestLoop P (retries + 1) (rounds + 1) (issued + requests P.network 3 issued)
            (lastTransfer P.network issued).body = .ok run) := by
  rcases attestLoop_round P retries rounds issued maaResponse with ⟨⟨e, he⟩, hdelivered, hunsafe⟩ | ⟨hsafe, hend⟩
  · refine ⟨fun ⟨run, hrun⟩ => ?_, fun h => absurd (h.1 hdelivered) hunsafe⟩
    cases he.symm.trans hrun
  · cases hend with
    | failed result last hcode hlast hrun hstop =>
        exact ⟨fun _ => ⟨hsafe, fun hfails hretries => absurd hretries (hstop hfails)⟩, fun _ => ⟨_, hrun⟩⟩
    | decrypted token hdelivered htoken hrun =>
        exact ⟨fun _ => ⟨hsafe, fun hfails => absurd hfails (not_decryptFails htoken)⟩, fun _ => ⟨_, hrun⟩⟩
    | again hfails hretries hrun =>
        rw [hrun]
        exact ⟨fun hnext => ⟨hsafe, fun _ _ => hnext⟩, fun h => h.2 hfails hretries⟩

/-- The loop raises nothing exactly when every response it reads is in order. -/
theorem attestLoop_returns_iff {P : Platform} {left : Nat} (hleft : left ≤ 3) {rounds : Nat} {maaResponse : Bytes} :
    (∃ run, attestLoop P (UInt8.ofNat (3 - left)) rounds (roundStart P.network rounds) maaResponse = .ok run) ↔
      ∀ k, k ≤ left → (∀ i, i < k → DecryptFails P (roundStart P.network (rounds + i))) →
        Delivered P.network (roundStart P.network (rounds + k)) →
          (answerFrom P (roundStart P.network (rounds + k))).Safe := by
  rw [attestLoop_returns_step]
  induction left generalizing rounds with
  | zero =>
      constructor
      · intro h k hk _
        obtain rfl : k = 0 := by omega
        exact h.1
      · intro h
        exact ⟨h 0 (le_refl 0) nofun, fun _ hretries => absurd hretries (by decide)⟩
  | succ left ih =>
      have hstart : roundStart P.network (rounds + 1) =
          roundStart P.network rounds + requests P.network 3 (roundStart P.network rounds) := rfl
      have hreached := @forall_reached_succ (fun k => DecryptFails P (roundStart P.network k))
        (fun k => Delivered P.network (roundStart P.network k) → (answerFrom P (roundStart P.network k)).Safe)
        left rounds
      rw [hreached, retries_succ hleft, ← hstart, attestLoop_returns_step, ih (by omega)]
      apply and_congr_right
      intro _
      exact ⟨fun h hfails => h hfails (retries_lt hleft), fun h hfails _ => h hfails⟩

end CvmAttestation.Client
