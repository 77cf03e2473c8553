import CvmAttestation.BaseRetry
import CvmAttestation.ClientJson

/-! Sending an attestation request. The transport is a sequence of transfers, one for each request that is issued:
the pieces of the body that the callback receives, and how the transfer ends. The loop keeps one buffer for the
response and one counter for the retries, and both have to be right for the answer to be that of the last
request. -/

namespace CvmAttestation.Client

open Base

/-- How a transfer ends: `curl_easy_perform` fails, with the text for its error, or there is a status. -/
inductive Completion
  | failed (error : Bytes)
  | status (code : Int)
  deriving DecidableEq, Repr

structure Transfer where
  chunks : List Bytes
  completion : Completion
  deriving DecidableEq, Repr

def Transfer.body (t : Transfer) : Bytes := t.chunks.flatten

/-- The network: the transfer of every request, by the number of requests issued before, and whether curl can be
initialised at that point. -/
structure Network where
  transfers : Nat → Transfer
  curlInit : Nat → Bool

def writeResponseCallback (response contents : Bytes) : Bytes := response ++ contents

def perform (t : Transfer) (response : Bytes) : Bytes := t.chunks.foldl writeResponseCallback response

def isRetryable (responseCode : Int) : Bool := responseCode = 429 || responseCode = 408 || 500 ≤ responseCode

/-- What `SendRequest` leaves: its result, `http_response`, and the number of requests issued so far. -/
structure Sent where
  result : AttestationResult
  httpResponse : Bytes
  issued : Nat
  deriving DecidableEq, Repr

def maxRetries : UInt8 := 3

theorem maxRetries_decreases {retries : UInt8} (h : retries ≠ maxRetries) :
    (maxRetries - (retries + 1)).toNat < (maxRetries - retries).toNat := by
  have hne : retries.toNat ≠ 3 := fun hr => h (UInt8.toNat_inj.1 hr)
  have hlt := retries.toNat_lt
  simp only [maxRetries, UInt8.toNat_sub, UInt8.toNat_add, UInt8.reduceToNat]
  omega

def sendLoop (N : Network) (retries : UInt8) (issued : Nat) (response httpResponse : Bytes) : Sent :=
  let response := perform (N.transfers issued) response
  match (N.transfers issued).completion with
  | .failed error =>
    ⟨.failure .sendingCurlRequestFailed (ascii "Failed sending curl request with error:" ++ error), httpResponse,
      issued + 1⟩
  | .status responseCode =>
    if responseCode = 200 then ⟨.success, response, issued + 1⟩
    else if responseCode = 400 then ⟨.failure .attestationFailed response, httpResponse, issued + 1⟩
    else if isRetryable responseCode then
      if retries = maxRetries then ⟨.failure .httpRequestExceededRetries response, httpResponse, issued + 1⟩
      else sendLoop N (retries + 1) (issued + 1) [] httpResponse
    else ⟨.failure .httpRequestFailed response, httpResponse, issued + 1⟩
termination_by (maxRetries - retries).toNat
decreasing_by exact maxRetries_decreases (by assumption)

def sendRequest (N : Network) (issued : Nat) (httpResponse : Bytes) : Sent :=
  if N.curlInit issued then sendLoop N 0 issued [] httpResponse
  else ⟨.failure .curlInitialization (ascii "Failed to initialize curl for http request."), httpResponse, issued⟩

/-! ### What the answer is -/

theorem perform_eq (t : Transfer) (response : Bytes) : perform t response = response ++ t.body := by
  rw [perform, Transfer.body]
  induction t.chunks generalizing response with
  | nil => rw [List.foldl_nil, List.flatten_nil, List.append_nil]
  | cons chunk chunks ih =>
      rw [List.foldl_cons, ih, writeResponseCallback, List.flatten_cons, List.append_assoc]

def Transfer.again (t : Transfer) : Bool :=
  match t.completion with
  | .failed _ => false
  | .status code => code ≠ 200 && code ≠ 400 && isRetryable code

/-- The result of `SendRequest` when this is its last transfer. -/
def Transfer.answer (t : Transfer) : AttestationResult :=
  match t.completion with
  | .failed error =>
    .failure .sendingCurlRequestFailed (ascii "Failed sending curl request with error:" ++ error)
  | .status code =>
    if code = 200 then .success
    else if code = 400 then .failure .attestationFailed t.body
    else if isRetryable code then .failure .httpRequestExceededRetries t.body
    else .failure .httpRequestFailed t.body

def Transfer.received (t : Transfer) (httpResponse : Bytes) : Bytes :=
  if t.completion = .status 200 then t.body else httpResponse

def requests (N : Network) (limit issued : Nat) : Nat := attempts (fun k => (N.transfers k).again) limit issued

theorem sendLoop_last (N : Network) {retries : UInt8} {issued : Nat}
    (h : (N.transfers issued).again = false ∨ retries = maxRetries) (httpResponse : Bytes) :
    sendLoop N retries issued [] httpResponse =
      ⟨(N.transfers issued).answer, (N.transfers issued).received httpResponse, issued + 1⟩ := by
  rw [sendLoop, perform_eq, List.nil_append]
  rw [Transfer.again] at h
  rw [Transfer.answer, Transfer.received]
  cases hc : (N.transfers issued).completion with
  | failed error => rfl
  | status code =>
      simp only [hc] at h
      by_cases h200 : code = 200
      · simp [h200]
      by_cases h400 : code = 400
      · simp [h400]
      by_cases hretry : isRetryable code = true
      · have hmax : retries = maxRetries := by simpa [h200, h400, hretry] using h
        simp [h200, h400, hretry, hmax]
      · simp [h200, h400, hretry]

theorem sendLoop_again (N : Network) {retries : UInt8} {issued : Nat} (h : (N.transfers issued).again = true)
    (hr : retries ≠ maxRetries) (httpResponse : Bytes) :
    sendLoop N retries issued [] httpResponse = sendLoop N (retries + 1) (issued + 1) [] httpResponse := by
  rw [Transfer.again] at h
  conv_lhs => rw [sendLoop]
  cases hc : (N.transfers issued).completion with
  | failed error =>
      rw [hc] at h
      cases h
  | status code =>
      simp only [hc, Bool.and_eq_true, decide_eq_true_eq] at h
      simp only [if_neg h.1.1, if_neg h.1.2, if_pos h.2, if_neg hr]

/-- The loop: the answer is that of the last request, and nothing of the earlier ones is left. -/
theorem sendLoop_eq (N : Network) {limit : Nat} (hlimit : limit ≤ 3) (issued : Nat) (httpResponse : Bytes) :
    sendLoop N (UInt8.ofNat (3 - limit)) issued [] httpResponse =
      ⟨(N.transfers (issued + requests N limit issued - 1)).answer,
        (N.transfers (issued + requests N limit issued - 1)).received httpResponse,
        issued + requests N limit issued⟩ := by
  have hloop := retryLoop_eq (by decide : 3 < 256)
    (fun retries k h => @sendLoop_last N retries k h httpResponse)
    (fun retries k h hr => @sendLoop_again N retries k h hr httpResponse) hlimit issued
  have hpos : 1 ≤ requests N limit issued := attempts_pos _ limit issued
  have hissued : issued + requests N limit issued - 1 + 1 = issued + requests N limit issued := by omega
  rw [hloop, ← requests, hissued]

end CvmAttestation.Client
