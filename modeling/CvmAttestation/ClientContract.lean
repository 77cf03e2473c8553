import CvmAttestation.ClientAttest

/-! The two contracts of `Attest`. It is declared `noexcept`, so an exception that leaves it ends the process of the
caller: the first result says for which texts none does. The second is about the retries: how often requests and
rounds are repeated, and that nothing of an earlier response is left in what is handed out. -/

namespace CvmAttestation.Client

open Base

/-! ### Exceptions -/

/-- Every response of the service that is read is in order: the one of the first round, and the one of each round
that follows a token that could not be decrypted. -/
def ServiceOk (P : Platform) : Prop :=
  ∀ k, k ≤ 3 → (∀ i, i < k → DecryptFails P (roundStart P.network i)) →
    Delivered P.network (roundStart P.network k) →
      ResponseOk P.json P.unsealer (roundStart P.network (k + 1)) (lastTransfer P.network (roundStart P.network k)).body

theorem attestLoop_returns_iff_serviceOk {P : Platform} :
    (∃ run, attestLoop P 0 0 0 [] = .ok run) ↔ ServiceOk P := by
  have hloop := @attestLoop_returns_iff P 3 (le_refl 3) 0 []
  simp only [Nat.zero_add] at hloop
  refine hloop.trans ?_
  refine forall_congr' fun k => imp_congr_right fun _ => imp_congr_right fun _ => imp_congr_right fun _ => ?_
  exact safe_response_iff

/-- **`Attest` returns** exactly when no text it reads makes an accessor or a decoder raise. -/
theorem attest_returns_iff (P : Platform) (params : ClientParameters) (hasOut : Bool) :
    (∃ run, attest P params hasOut = .ok run) ↔
      EvidenceOk P.json P.machine params hasOut ∧
        ∀ p, (prepare P.json P.machine params hasOut).Returns p → ServiceOk P := by
  rw [← safe_prepare_iff, ← attestLoop_returns_iff_serviceOk, attest]
  unfold Fallible.Safe Fallible.Returns
  cases (prepare P.json P.machine params hasOut).run with
  | error e => simp
  | ok answer =>
      cases answer with
      | error f => simp
      | ok p => simp

/-! ### Retries -/

/-- The code that the last transfer determines. -/
def expectedCode : Completion → ErrorCode
  | .failed _ => .sendingCurlRequestFailed
  | .status code =>
    if code = 200 then .success
    else if code = 400 then .attestationFailed
    else if code = 408 ∨ code = 429 ∨ 500 ≤ code then .httpRequestExceededRetries
    else .httpRequestFailed

def Throttled (t : Transfer) : Prop := ∃ code, t.completion = .status code ∧ (code = 408 ∨ code = 429 ∨ 500 ≤ code)

/-- What `SendRequest` may do: request `k + 1` follows request `k` when that was throttled and is one of the first
three, and the answer is that of the last one. -/
def SendContract (N : Network) (issued : Nat) (httpResponse : Bytes) (sent : Sent) : Prop :=
  ∃ m, sent.issued = issued + m ∧ 1 ≤ m ∧ m ≤ 4 ∧
    (∀ k, 1 ≤ k → k ≤ m → (k + 1 ≤ m ↔ Throttled (N.transfers (issued + k - 1)) ∧ k ≤ 3)) ∧
      sent.result.code = expectedCode (N.transfers (issued + m - 1)).completion ∧
        ((N.transfers (issued + m - 1)).completion = .status 200 →
          sent.httpResponse = (N.transfers (issued + m - 1)).body) ∧
          ((N.transfers (issued + m - 1)).completion ≠ .status 200 → sent.httpResponse = httpResponse)

/-- What a run of `Attest` may do. -/
structure AttestContract (P : Platform) (run : Run) : Prop where
  rounds : run.rounds ≤ 4
  requests : run.issued ≤ 16
  again : ∀ k, k + 1 < run.rounds → DecryptFails P (roundStart P.network k)
  token : TokenWritten P run

theorem again_iff_throttled {t : Transfer} : t.again = true ↔ Throttled t := by
  rw [Transfer.again, Throttled]
  cases t.completion with
  | failed error => simp
  | status code =>
      simp only [isRetryable, Bool.and_eq_true, Bool.or_eq_true, decide_eq_true_eq, Completion.status.injEq,
        exists_eq_left']
      omega

theorem answer_code (t : Transfer) : t.answer.code = expectedCode t.completion := by
  rw [Transfer.answer]
  cases t.completion with
  | failed error => rfl
  | status code =>
      have hretry : isRetryable code = true ↔ code = 408 ∨ code = 429 ∨ 500 ≤ code := by
        simp only [isRetryable, Bool.or_eq_true, decide_eq_true_eq]
        omega
      simp only [expectedCode, hretry]
      split_ifs <;> rfl

theorem sendRequest_contract {N : Network} {issued : Nat} (h : N.curlInit issued = true) (httpResponse : Bytes) :
    SendContract N issued httpResponse (sendRequest N issued httpResponse) := by
  rw [sendRequest_eq h]
  refine ⟨requests N 3 issued, rfl, attempts_pos _ 3 issued, attempts_le _ 3 issued, ?_, answer_code _, ?_, ?_⟩
  · intro k hk hle
    have hnext := @attempts_next_iff (fun k => (N.transfers k).again) 3 issued (k - 1) (show _ < requests N 3 issued by omega)
    rw [show issued + (k - 1) = issued + k - 1 by omega, again_iff_throttled] at hnext
    change k - 1 + 1 < requests N 3 issued ↔ _ at hnext
    constructor
    · intro hlt
      obtain ⟨hthrottled, hlimit⟩ := hnext.1 (by omega)
      exact ⟨hthrottled, by omega⟩
    · rintro ⟨hthrottled, hlimit⟩
      have hlt := hnext.2 ⟨hthrottled, by omega⟩
      omega
  · exact fun h200 => if_pos h200
  · exact fun h200 => if_neg h200

theorem attest_contract {P : Platform} {params : ClientParameters} {hasOut : Bool} {run : Run}
    (h : attest P params hasOut = .ok run) : AttestContract P run := by
  rw [attest] at h
  split at h
  · cases h
  · rename_i f hprepare
    cases h
    refine ⟨Nat.zero_le _, Nat.zero_le _, nofun, ⟨fun hcode => absurd hcode f.failed, ?_⟩, nofun⟩
    rintro ⟨out, hout⟩
    cases hout
  · obtain ⟨hrounds, hissued, hagain, htoken⟩ := @attestLoop_run P 3 (le_refl 3) 0 [] run h
    exact ⟨by omega, by simpa [roundStart] using hissued, fun k hk => hagain k (Nat.zero_le k) hk, htoken⟩

/-- **Retries**: `SendRequest` repeats a throttled request at most three times and answers with the last transfer
alone, or sends nothing when curl cannot be initialised. `Attest` repeats at most three rounds, each after a token
that could not be decrypted, and hands out the token of the last response exactly when it returns `SUCCESS`. -/
theorem attest_retries (P : Platform) :
    (∀ issued httpResponse,
      if P.network.curlInit issued then
        SendContract P.network issued httpResponse (sendRequest P.network issued httpResponse)
      else
        (sendRequest P.network issued httpResponse).result.code = .curlInitialization ∧
          (sendRequest P.network issued httpResponse).httpResponse = httpResponse ∧
            (sendRequest P.network issued httpResponse).issued = issued) ∧
    ∀ params hasOut run, attest P params hasOut = .ok run → AttestContract P run := by
  refine ⟨fun issued httpResponse => ?_, fun _ _ _ h => attest_contract h⟩
  split
  · rename_i h
    exact sendRequest_contract h httpResponse
  · rename_i h
    rw [sendRequest, if_neg h]
    exact ⟨rfl, rfl, rfl⟩

/-! ### A service that is busy at first -/

namespace Sample

def reply : Bytes :=
  ascii "\x7b\"EncryptedInnerKey\":\"AA\",\"EncryptionParams\":\x7b\"BlockMode\":\"ChainingModeGCM\"," ++
    ascii "\"BlockPadding\":\"PKCS7\",\"Cipher\":\"AES\",\"KeySizeInBits\":128,\"Iv\":\"AA\"\x7d," ++
    ascii "\"AuthenticationData\":\"AA\",\"Jwt\":\"and0\"\x7d"

def replyJson : Json := .object
  [(ascii "AuthenticationData", .string (ascii "AA")), (ascii "EncryptedInnerKey", .string (ascii "AA")),
    (ascii "EncryptionParams", .object
      [(ascii "BlockMode", .string (ascii "ChainingModeGCM")), (ascii "BlockPadding", .string (ascii "PKCS7")),
        (ascii "Cipher", .string (ascii "AES")), (ascii "Iv", .string (ascii "AA")), (ascii "KeySizeInBits", .int 128)]),
    (ascii "Jwt", .string (ascii "and0"))]

def token : Bytes := Base64.encode reply

def response : Bytes := ascii "\x7b\"token\":\"" ++ token ++ ascii "\"\x7d"

def json : Jsoncpp where
  parse text :=
    if text = response then .value (.object [(ascii "token", .string token)])
    else if text = reply then .value replyJson
    else if text = ascii "[]" then .value (.array [])
    else .fails
  realText _ := ascii "0.0"

def machine : Machine where
  isAkCertRenewalRequired := (.success, false)
  readAkCertFromTpm := .success
  writeAikCert _ := .ok ()
  renewal := ⟨[], [], [], []⟩
  osInfo := (.success, ⟨ascii "Ubuntu", 22⟩)
  hclReport := none
  hclParts _ := none
  vcekResponse := (.success, [])
  tpmInfo := (.success, ⟨[1], [1], [(0, [1])], [1], [1], [1]⟩)

def network (body : Bytes) : Network where
  transfers k := if k % 2 = 0 then ⟨[ascii "busy"], .status 503⟩ else ⟨[body.take 1, body.drop 1], .status 200⟩
  curlInit _ := true

def unsealer : Unsealer where
  decryptWithEphemeralKey _ _ := .key (List.replicate 16 7)
  gcmDecrypt _ _ _ cipherText := .ok cipherText

def platform (body : Bytes) : Platform := ⟨json, machine, network body, unsealer⟩

def params : ClientParameters := ⟨1, some (ascii "https://a"), none⟩

end Sample

theorem sample_prepare (body : Bytes) :
    (prepare (Sample.platform body).json (Sample.platform body).machine Sample.params true).run =
      .ok (.ok ⟨[], ⟨ascii "Ubuntu", 22⟩, .trustedLaunch, ⟨[1], [1], [(0, [1])], [1], [1], [1]⟩⟩) := by
  change (prepare Sample.json Sample.machine Sample.params true).run = _
  decide +kernel

theorem sample_delivered (body : Bytes) (maaResponse : Bytes) :
    sendAttestationRequest (Sample.platform body).network 0 maaResponse = ⟨.success, body, 2⟩ := by
  have hdelivered : Delivered (Sample.platform body).network 0 := ⟨rfl, rfl⟩
  have hbody : (lastTransfer (Sample.platform body).network 0).body = body := by
    change [body.take 1, body.drop 1].flatten = body
    rw [List.flatten_cons, List.flatten_singleton, List.take_append_drop]
  rw [sendAttestationRequest_delivered hdelivered, hbody]
  rfl

/-- A response that is an empty array: an exception leaves `Attest`. -/
theorem attest_raises :
    attest (Sample.platform (ascii "[]")) Sample.params true = .error .jsonLogicError := by
  have hparse : (parseMaaResponse (Sample.platform (ascii "[]")).json (ascii "[]")).run = .error .jsonLogicError := by
    decide +kernel
  rw [attest, sample_prepare]
  simp only
  rw [attestLoop, sample_delivered]
  simp only [AttestationResult.success, ne_eq, not_true_eq_false, if_false, hparse]

/-- A first request that is throttled and then a response with a token. -/
theorem attest_retries_sample :
    attest (Sample.platform Sample.response) Sample.params true = .ok ⟨.success, some (ascii "jwt" ++ [0]), 2, 1⟩ ∧
      SendContract (Sample.network Sample.response) 0 [] (sendRequest (Sample.network Sample.response) 0 []) ∧
        AttestContract (Sample.platform Sample.response) ⟨.success, some (ascii "jwt" ++ [0]), 2, 1⟩ := by
  have hparse : (parseMaaResponse (Sample.platform Sample.response).json Sample.response).run =
      .ok (.ok Sample.token) := by
    decide +kernel
  have hdecrypt : (decryptMaaToken (Sample.platform Sample.response).json (Sample.platform Sample.response).unsealer 2
      Sample.token).run = .ok (.ok (ascii "jwt")) := by
    decide +kernel
  have hrun : attest (Sample.platform Sample.response) Sample.params true =
      .ok ⟨.success, some (ascii "jwt" ++ [0]), 2, 1⟩ := by
    rw [attest, sample_prepare]
    simp only
    rw [attestLoop, sample_delivered]
    simp only [AttestationResult.success, ne_eq, not_true_eq_false, if_false, hparse, hdecrypt]
  obtain ⟨hsend, hattest⟩ := attest_retries (Sample.platform Sample.response)
  exact ⟨hrun, hsend 0 [], hattest Sample.params true _ hrun⟩

end CvmAttestation.Client
