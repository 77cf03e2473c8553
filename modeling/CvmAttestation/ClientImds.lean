import CvmAttestation.ClientSend

/-! The two clients of the instance metadata service. `ImdsClient` returns a string and nothing else, so that every
failure is the empty string; `HttpClient` returns a result code and leaves the response in an argument. Each has a retry
loop of its own, and the two loops agree on every sequence of transfers. -/

namespace CvmAttestation.Client

open Base

inductive HttpVerb
  | get
  | post
  deriving DecidableEq, Repr

/-- The statuses after which both clients try again. -/
def isImdsRetryable (responseCode : Int) : Bool :=
  responseCode = 404 || responseCode = 429 || 500 ≤ responseCode

/-- What `ImdsClient::InvokeHttpRequest` returns, and the number of requests issued so far. -/
structure Fetched where
  httpResponse : Bytes
  issued : Nat
  deriving DecidableEq, Repr

/-! ### The loops -/

section

variable (N : Network)

def imdsLoop (retries : UInt8) (issued : Nat) (response httpResponse : Bytes) : Fetched :=
  let response := perform (N.transfers issued) response
  match (N.transfers issued).completion with
  | .failed _ => ⟨httpResponse, issued + 1⟩
  | .status responseCode =>
    -- An empty body is logged and returned like any other one.
    if responseCode = 200 then ⟨response, issued + 1⟩
    else if isImdsRetryable responseCode then
      if retries = maxRetries then ⟨httpResponse, issued + 1⟩
      else imdsLoop (retries + 1) (issued + 1) [] httpResponse
    else ⟨httpResponse, issued + 1⟩
termination_by (maxRetries - retries).toNat
decreasing_by exact maxRetries_decreases (by assumption)

/-- `ImdsClient::InvokeHttpRequest` -/
def invokeHttpRequest (url : Bytes) (httpVerb : HttpVerb) (requestBody : Bytes) (issued : Nat) : Fetched :=
  if url = [] then ⟨[], issued⟩
  else if ¬N.curlInit issued then ⟨[], issued⟩
  else if httpVerb = .post ∧ requestBody = [] then ⟨[], issued⟩
  else imdsLoop N 0 issued [] []

def httpImdsLoop (retries : UInt8) (issued : Nat) (response httpResponse : Bytes) : Sent :=
  let response := perform (N.transfers issued) response
  match (N.transfers issued).completion with
  | .failed error =>
    ⟨.failure .sendingCurlRequestFailed (ascii "Failed sending curl request with error:" ++ error), httpResponse,
      issued + 1⟩
  | .status responseCode =>
    if responseCode = 200 then
      if response = [] then ⟨.failure .emptyResponse (ascii "Empty response received"), response, issued + 1⟩
      else ⟨.success, response, issued + 1⟩
    else if isImdsRetryable responseCode then
      if retries = maxRetries then ⟨.failure .httpRequestExceededRetries response, httpResponse, issued + 1⟩
      else httpImdsLoop (retries + 1) (issued + 1) [] httpResponse
    else ⟨.failure .httpRequestFailed response, httpResponse, issued + 1⟩
termination_by (maxRetries - retries).toNat
decreasing_by exact maxRetries_decreases (by assumption)

/-- `HttpClient::InvokeHttpImdsRequest`; the URL and the headers go to curl as they are. -/
def invokeHttpImdsRequest (httpResponse : Bytes) (httpVerb : HttpVerb) (requestBody : Bytes) (issued : Nat) : Sent :=
  if ¬N.curlInit issued then
    ⟨.failure .curlInitialization (ascii "Failed to initialize curl for http request."), httpResponse, issued⟩
  else if httpVerb = .post ∧ requestBody = [] then
    ⟨.failure .emptyRequestBody (ascii "Request body missing for POST request"), httpResponse, issued⟩
  else httpImdsLoop N 0 issued [] httpResponse

end

/-! ### What the last transfer decides -/

def Transfer.imdsAgain (t : Transfer) : Bool :=
  match t.completion with
  | .failed _ => false
  | .status code => code ≠ 200 && isImdsRetryable code

def Transfer.imdsFetched (t : Transfer) : Bytes := if t.completion = .status 200 then t.body else []

/-- The result of `InvokeHttpImdsRequest` when this is its last transfer. -/
def Transfer.imdsAnswer (t : Transfer) : AttestationResult :=
  match t.completion with
  | .failed error => .failure .sendingCurlRequestFailed (ascii "Failed sending curl request with error:" ++ error)
  | .status code =>
    if code = 200 then if t.body = [] then .failure .emptyResponse (ascii "Empty response received") else .success
    else if isImdsRetryable code then .failure .httpRequestExceededRetries t.body
    else .failure .httpRequestFailed t.body

/-- How many requests are issued from request `issued` on. -/
def imdsRequests (N : Network) (issued : Nat) : Nat := attempts (fun k => (N.transfers k).imdsAgain) 3 issued

section

variable (N : Network)

theorem imdsLoop_last {retries : UInt8} {issued : Nat}
    (h : (N.transfers issued).imdsAgain = false ∨ retries = maxRetries) :
    imdsLoop N retries issued [] [] = ⟨(N.transfers issued).imdsFetched, issued + 1⟩ := by
  rw [imdsLoop, perform_eq, List.nil_append]
  rw [Transfer.imdsAgain] at h
  rw [Transfer.imdsFetched]
  cases hc : (N.transfers issued).completion with
  | failed error => rfl
  | status code =>
      simp only [hc] at h
      by_cases h200 : code = 200
      · simp [h200]
      by_cases hretry : isImdsRetryable code = true
      · have hmax : retries = maxRetries := by simpa [h200, hretry] using h
        simp [h200, hretry, hmax]
      · simp [h200, hretry]

theorem imdsLoop_again {retries : UInt8} {issued : Nat} (h : (N.transfers issued).imdsAgain = true)
    (hr : retries ≠ maxRetries) :
    imdsLoop N retries issued [] [] = imdsLoop N (retries + 1) (issued + 1) [] [] := by
  rw [Transfer.imdsAgain] at h
  conv_lhs => rw [imdsLoop]
  cases hc : (N.transfers issued).completion with
  | failed error =>
      rw [hc] at h
      cases h
  | status code =>
      simp only [hc, Bool.and_eq_true, decide_eq_true_eq] at h
      simp only [if_neg h.1, if_pos h.2, if_neg hr]

theorem httpImdsLoop_last {retries : UInt8} {issued : Nat}
    (h : (N.transfers issued).imdsAgain = false ∨ retries = maxRetries) (httpResponse : Bytes) :
    httpImdsLoop N retries issued [] httpResponse =
      ⟨(N.transfers issued).imdsAnswer, (N.transfers issued).received httpResponse, issued + 1⟩ := by
  rw [httpImdsLoop, perform_eq, List.nil_append]
  rw [Transfer.imdsAgain] at h
  rw [Transfer.imdsAnswer, Transfer.received]
  cases hc : (N.transfers issued).completion with
  | failed error => rfl
  | status code =>
      simp only [hc] at h
      by_cases h200 : code = 200
      · by_cases hbody : (N.transfers issued).body = []
        · simp [h200, hbody]
        · simp [h200, hbody]
      by_cases hretry : isImdsRetryable code = true
      · have hmax : retries = maxRetries := by simpa [h200, hretry] using h
        simp [h200, hretry, hmax]
      · simp [h200, hretry]

theorem httpImdsLoop_again {retries : UInt8} {issued : Nat} (h : (N.transfers issued).imdsAgain = true)
    (hr : retries ≠ maxRetries) (httpResponse : Bytes) :
    httpImdsLoop N retries issued [] httpResponse = httpImdsLoop N (retries + 1) (issued + 1) [] httpResponse := by
  rw [Transfer.imdsAgain] at h
  conv_lhs => rw [httpImdsLoop]
  cases hc : (N.transfers issued).completion with
  | failed error =>
      rw [hc] at h
      cases h
  | status code =>
      simp only [hc, Bool.and_eq_true, decide_eq_true_eq] at h
      simp only [if_neg h.1, if_pos h.2, if_neg hr]

theorem imdsRequests_pos (issued : Nat) : 1 ≤ imdsRequests N issued := attempts_pos _ 3 issued

theorem imdsLoop_eq (issued : Nat) :
    imdsLoop N 0 issued [] [] =
      ⟨(N.transfers (issued + imdsRequests N issued - 1)).imdsFetched, issued + imdsRequests N issued⟩ := by
  have hpos := imdsRequests_pos N issued
  have hloop := retryLoop_eq (by decide : 3 < 256) (fun retries k h => @imdsLoop_last N retries k h)
    (fun retries k h hr => @imdsLoop_again N retries k h hr) (le_refl 3) issued
  have hissued : issued + imdsRequests N issued - 1 + 1 = issued + imdsRequests N issued := by omega
  rw [← imdsRequests, hissued] at hloop
  exact hloop

theorem httpImdsLoop_eq (issued : Nat) (httpResponse : Bytes) :
    httpImdsLoop N 0 issued [] httpResponse =
      ⟨(N.transfers (issued + imdsRequests N issued - 1)).imdsAnswer,
        (N.transfers (issued + imdsRequests N issued - 1)).received httpResponse, issued + imdsRequests N issued⟩ := by
  have hpos := imdsRequests_pos N issued
  have hloop := retryLoop_eq (by decide : 3 < 256)
    (fun retries k h => @httpImdsLoop_last N retries k h httpResponse)
    (fun retries k h hr => @httpImdsLoop_again N retries k h hr httpResponse) (le_refl 3) issued
  have hissued : issued + imdsRequests N issued - 1 + 1 = issued + imdsRequests N issued := by omega
  rw [← imdsRequests, hissued] at hloop
  exact hloop

/-- A response that is not empty is the one with `SUCCESS`, and then it is the body of a transfer with status 200. -/
theorem imdsFetched_iff (t : Transfer) (httpResponse s : Bytes) :
    (t.imdsFetched = s ∧ s ≠ [] ↔ t.imdsAnswer.code = .success ∧ t.received httpResponse = s) ∧
      (t.imdsFetched ≠ [] → t.completion = .status 200 ∧ t.imdsFetched = t.body) := by
  rw [Transfer.imdsFetched, Transfer.imdsAnswer, Transfer.received]
  cases hc : t.completion with
  | failed error => simp [AttestationResult.failure]
  | status code =>
      by_cases h200 : code = 200
      · by_cases hbody : t.body = []
        · simp [h200, hbody, AttestationResult.failure]
        · have hne : t.body = s → s ≠ [] := by
            rintro rfl
            exact hbody
          simpa [h200, hbody, AttestationResult.success] using hne
      · by_cases hretry : isImdsRetryable code = true
        · simp [h200, hretry, AttestationResult.failure]
        · simp [h200, hretry, AttestationResult.failure]

theorem imdsAgain_iff (t : Transfer) :
    t.imdsAgain = true ↔
      ∃ code, t.completion = .status code ∧ (code = 404 ∨ code = 429 ∨ 500 ≤ code) := by
  rw [Transfer.imdsAgain]
  cases hc : t.completion with
  | failed error => simp
  | status code =>
      simp only [isImdsRetryable, Bool.and_eq_true, Bool.or_eq_true, decide_eq_true_eq, Completion.status.injEq,
        exists_eq_left', or_assoc]
      omega

/-- Which of the requests are followed by another one. -/
theorem imdsRequests_next_iff {issued k : Nat} (hk : issued ≤ k) (hlt : k < issued + imdsRequests N issued) :
    k + 1 < issued + imdsRequests N issued ↔ k < issued + 3 ∧
      ∃ code, (N.transfers k).completion = .status code ∧ (code = 404 ∨ code = 429 ∨ 500 ≤ code) := by
  obtain ⟨j, rfl⟩ := Nat.exists_eq_add_of_le hk
  have hj : j < attempts (fun k => (N.transfers k).imdsAgain) 3 issued := by
    rw [← imdsRequests]
    omega
  have hnext := attempts_next_iff hj
  rw [← imdsRequests, imdsAgain_iff] at hnext
  rw [Nat.add_assoc, Nat.add_lt_add_iff_left, hnext, and_comm, Nat.add_lt_add_iff_left]

end

/-- **The two clients agree** on every sequence of transfers. They issue the same requests, four of them at most and one
more after each of the first three that ends with 404, 429 or a server error; the one returns a string that is not empty
when the other returns `SUCCESS` with it, and it is the body of the last transfer, which has status 200. -/
theorem imdsClients_agree (N : Network) {url : Bytes} (hurl : url ≠ []) {httpVerb : HttpVerb} {requestBody : Bytes}
    (hbody : httpVerb = .post → requestBody ≠ []) (httpResponse : Bytes) (issued : Nat) {fetched : Fetched} {sent : Sent}
    (hfetched : fetched = invokeHttpRequest N url httpVerb requestBody issued)
    (hsent : sent = invokeHttpImdsRequest N httpResponse httpVerb requestBody issued) :
    fetched.issued = sent.issued ∧ sent.issued ≤ issued + 4 ∧
      (N.curlInit issued = true → issued < sent.issued) ∧
      (∀ k, issued ≤ k → k < sent.issued → (k + 1 < sent.issued ↔ k < issued + 3 ∧
        ∃ code, (N.transfers k).completion = .status code ∧ (code = 404 ∨ code = 429 ∨ 500 ≤ code))) ∧
      (∀ s, fetched.httpResponse = s ∧ s ≠ [] ↔ sent.result.code = .success ∧ sent.httpResponse = s) ∧
      (fetched.httpResponse ≠ [] → (N.transfers (sent.issued - 1)).completion = .status 200 ∧
        fetched.httpResponse = (N.transfers (sent.issued - 1)).body) := by
  have hpost : ¬(httpVerb = .post ∧ requestBody = []) := fun h => hbody h.1 h.2
  rw [invokeHttpRequest, if_neg hurl] at hfetched
  rw [invokeHttpImdsRequest] at hsent
  by_cases hinit : N.curlInit issued = true
  · rw [if_neg (not_not.2 hinit), if_neg hpost, imdsLoop_eq] at hfetched
    rw [if_neg (not_not.2 hinit), if_neg hpost, httpImdsLoop_eq] at hsent
    have hpos := imdsRequests_pos N issued
    have hle : imdsRequests N issued ≤ 4 := attempts_le _ 3 issued
    have hissued : sent.issued = issued + imdsRequests N issued := by rw [hsent]
    have hagree := fun s => imdsFetched_iff (N.transfers (issued + imdsRequests N issued - 1)) httpResponse s
    refine ⟨by rw [hfetched, hsent], by omega, fun _ => by omega, ?_, ?_, ?_⟩
    · intro k hk hlt
      rw [hissued] at hlt ⊢
      exact imdsRequests_next_iff N hk hlt
    · intro s
      rw [hfetched, hsent]
      exact (hagree s).1
    · rw [hfetched, hissued]
      exact (hagree []).2
  · rw [if_pos hinit] at hfetched hsent
    have hissued : sent.issued = issued := by rw [hsent]
    refine ⟨by rw [hfetched, hsent], by omega, fun h => absurd h hinit, fun k hk hlt => by omega, ?_, ?_⟩
    · intro s
      rw [hfetched, hsent]
      simp [AttestationResult.failure]
    · rw [hfetched]
      exact fun h => absurd rfl h

namespace Sample

/-- A network on which the first request is to be tried again and the second one succeeds. -/
def busy : Network where
  transfers k := if k = 0 then ⟨[ascii "busy"], .status 503⟩ else ⟨[ascii "o", ascii "k"], .status 200⟩
  curlInit _ := true

end Sample

/-- Two requests, and nothing is left of the body of the first one. -/
theorem imdsClients_agree_busy :
    (invokeHttpRequest Sample.busy (ascii "http://169.254.169.254/metadata") .get [] 0).httpResponse = ascii "ok" ∧
      (invokeHttpImdsRequest Sample.busy [] .get [] 0).result.code = .success ∧
      (invokeHttpImdsRequest Sample.busy [] .get [] 0).httpResponse = ascii "ok" := by
  have hagree := imdsClients_agree Sample.busy (by decide : ascii "http://169.254.169.254/metadata" ≠ [])
    (nofun : HttpVerb.get = .post → ([] : Bytes) ≠ []) [] 0 rfl rfl
  have hfetched : (invokeHttpRequest Sample.busy (ascii "http://169.254.169.254/metadata") .get [] 0).httpResponse =
      ascii "ok" := by
    rw [invokeHttpRequest, if_neg (by decide), if_neg (by decide), if_neg (by decide), imdsLoop_eq]
    decide
  exact ⟨hfetched, (hagree.2.2.2.2.1 (ascii "ok")).1 ⟨hfetched, by decide⟩⟩

end CvmAttestation.Client
