import CvmAttestation.SecretsParse

/-! A `JsonWebToken` object over its calls. `ParseToken` sets the three members of the object one after the other, each
only when its segment is not empty, and the signature before it is verified; a call that throws leaves what it has set
by then. The setters set one member each. -/

namespace CvmAttestation.Secrets

open Base

/-- The segments of a token, before the first and after the last dot and between them, and the part that is signed. -/
structure Parts where
  headerBase64 : Bytes
  payloadBase64 : Bytes
  signatureBase64 : Bytes
  signedPortion : Bytes

def cut (token : Bytes) : Option Parts :=
  if token.length < 2 then none
  else
    match find dot token, rfind dot token with
    | some first, some last =>
      if first = last then none
      else some ⟨token.take first, (token.drop (first + 1)).take (last - (first + 1)), token.drop (last + 1),
        token.take last⟩
    | _, _ => none

/-- `operator[](key)`, with the value as it is afterwards: a missing member is inserted as null. -/
def indexInserting (j : Json) (k : Bytes) : Except JsonError (Json × Json) :=
  match j with
  | .null => .ok (.object [(k, .null)], .null)
  | .object ms =>
    match ms.lookup k with
    | some v => .ok (.object ms, v)
    | none => .ok (.object (Json.setMember k .null ms), .null)
  | _ => .error .typeError

namespace JsonWebToken

section

variable (P : Providers) (mem : Memory)

/-- The header, or the payload: the member is assigned what the segment decodes to. -/
def parseMember (assign : JsonWebToken → Json → JsonWebToken) (segment : Bytes) : Proc Exc JsonWebToken Unit :=
  if segment.isEmpty then pure ()
  else
    Proc.attempt fun self => do
      let j ← guarded (decodeJson P segment) fun e => .error (segmentError e)
      return ((), assign self j)

/-- The body of the `try` block around the verification. -/
def verifyBody (x509 : P.X509) (signedPortion signatureBase64 suffix : Bytes) : Proc Exc JsonWebToken Unit := do
  Proc.attempt fun self => do
    let signature ← P.base64UrlDecode signatureBase64
    return ((), { self with signature })
  let chain ← Proc.attempt fun self => do
    let (header, chain) ← ofJson (indexInserting self.header (ascii "x5c"))
    return (chain, { self with header })
  Proc.call (alloc mem .chainCopy)
  match chain with
  | .array (leaf :: intermediates) =>
    let x509 ← Proc.call (loadChain P x509 leaf intermediates)
    let chainOk ← Proc.call (P.verifyCertChain x509 suffix)
    if chainOk = false then
      Proc.call (.error (.jwtError ⟨.cryptographyErrorSigningCertChainError, ErrorCode.certChainError_ne⟩))
    else
      Proc.call (alloc mem .signedData)
      let self ← get
      let signatureOk ← Proc.call (P.verifySignature x509 signedPortion self.signature)
      if signatureOk = false then
        Proc.call (.error (.jwtError ⟨.cryptographyErrorSigningVerifyError, ErrorCode.verifyError_ne⟩))
      else pure ()
  | _ => Proc.call (.error .runtimeError)

/-- `JsonWebToken::ParseToken` on the members of the object. -/
def parseToken (token : Bytes) (verify : Bool) (expectedSubjectSuffix : Bytes) : Proc Exc JsonWebToken Unit := do
  Proc.call (alloc mem .tokenVector)
  match cut token with
  | none => Proc.call (.error .jwtDefault)
  | some parts =>
    Proc.call (alloc mem .segments)
    parseMember P (fun self header => { self with header }) parts.headerBase64
    parseMember P (fun self jwt => { self with jwt }) parts.payloadBase64
    if parts.signatureBase64.isEmpty || !verify then pure ()
    else
      Proc.call (alloc mem .signedPortion)
      let x509 ← Proc.call P.newX509
      tryCatch (verifyBody P mem x509 parts.signedPortion parts.signatureBase64 expectedSubjectSuffix) fun e =>
        Proc.call (.error (signatureError e))

end

end JsonWebToken

/-- A call on an object; each `ParseToken` finds the environment as it is at that moment. -/
inductive Call
  | setHeader (header : Json)
  | setPayload (payload : Json)
  | setSignature (signature : Bytes)
  | parseToken (P : Providers) (mem : Memory) (token : Bytes) (verify : Bool) (expectedSubjectSuffix : Bytes)

/-- The object after a call, whether it returns or throws. -/
def Call.perform (self : JsonWebToken) : Call → JsonWebToken
  | setHeader header => { self with header }
  | setPayload jwt => { self with jwt }
  | setSignature signature => { self with signature }
  | parseToken P mem token verify suffix => ((JsonWebToken.parseToken P mem token verify suffix).exec self).2

/-- The object after a history of calls. -/
def after (history : List Call) : JsonWebToken := history.foldl Call.perform .new

/-! ### What a call that returns has done -/

theorem cut_signedPortion {token : Bytes} {parts : Parts} (h : cut token = some parts) :
    parts.signedPortion = parts.headerBase64 ++ dot :: parts.payloadBase64 := by
  rw [cut] at h
  split_ifs at h
  split at h
  · rename_i first last hfirst hlast
    split_ifs at h with hne
    cases h
    obtain ⟨a, b, d, rfl, rfl, rfl⟩ := exists_outer hfirst hlast hne
    have hpayload : ((a ++ dot :: (b ++ dot :: d)).drop (a.length + 1)).take
        (a.length + 1 + b.length - (a.length + 1)) = b := by
      rw [← List.drop_drop, List.drop_left, Nat.add_sub_cancel_left, List.drop_one, List.tail_cons, List.take_left]
    change List.take (a.length + 1 + b.length) _ = List.take a.length _ ++ dot :: List.take _ _
    rw [take_second, List.take_left, hpayload]
  · cases h

section

variable {P : Providers} {mem : Memory}

/-- `operator[]` returns, or throws, as it does where nothing is inserted. -/
theorem indexInserting_snd (j : Json) (k : Bytes) : (indexInserting j k).map Prod.snd = j.index k := by
  cases j with
  | object ms =>
      rw [indexInserting, Json.index]
      cases ms.lookup k <;> rfl
  | _ => rfl

/-- A chain that is found leaves the header as it was. -/
theorem indexInserting_array {j header : Json} {k : Bytes} {certs : List Json}
    (h : indexInserting j k = .ok (header, .array certs)) : header = j := by
  cases j with
  | object ms =>
      rw [indexInserting] at h
      cases hk : ms.lookup k with
      | none =>
          rw [hk] at h
          cases h
      | some v =>
          rw [hk] at h
          cases h
          rfl
  | _ => cases h

theorem parseMember_outcome {assign : JsonWebToken → Json → JsonWebToken} (self : JsonWebToken) (kept : Json)
    (hkept : assign self kept = self) (segment : Bytes) :
    (JsonWebToken.parseMember P assign segment).outcome self =
      (parseSegment P kept segment).map (assign self) := by
  rw [JsonWebToken.parseMember, parseSegment]
  split_ifs
  · change Except.ok self = Except.ok (assign self kept)
    rw [hkept]
  · rw [Proc.outcome_attempt_last]
    cases guarded (decodeJson P segment) fun e => .error (segmentError e) <;> rfl

theorem verifyBody_outcome (self : JsonWebToken) (x509 : P.X509) (signedPortion signatureBase64 suffix : Bytes) :
    (JsonWebToken.verifyBody P mem x509 signedPortion signatureBase64 suffix).outcome self =
      (checkSignature P mem x509 self.header signedPortion signatureBase64 suffix).map
        fun signature => { self with signature } := by
  rw [JsonWebToken.verifyBody, checkSignature, Proc.outcome_attempt]
  cases P.base64UrlDecode signatureBase64 with
  | error e => rfl
  | ok signature =>
      rw [ok_bind, ok_bind, pure_bind, Proc.outcome_attempt, ← indexInserting_snd]
      cases hindex : indexInserting self.header (ascii "x5c") with
      | error e => rfl
      | ok r =>
          obtain ⟨header, chain⟩ := r
          refine Proc.outcome_call_map fun _ => ?_
          cases chain with
          | array certs =>
              obtain rfl := indexInserting_array hindex
              cases certs with
              | nil => rfl
              | cons leaf intermediates =>
                  refine Proc.outcome_call_map fun loaded => Proc.outcome_call_map fun chainOk => ?_
                  cases chainOk with
                  | false => rfl
                  | true =>
                      refine Proc.outcome_call_map fun _ => ?_
                      rw [Proc.outcome_get]
                      refine Proc.outcome_call_map fun signatureOk => ?_
                      cases signatureOk <;> rfl
          | _ => rfl

/-- The part of `ParseToken` after the two members. -/
theorem signature_outcome (self : JsonWebToken) (token : Bytes) (verify : Bool) (suffix : Bytes) (last : ℕ) :
    Proc.outcome (if (token.drop (last + 1)).isEmpty || !verify then pure ()
      else do
        Proc.call (alloc mem .signedPortion)
        let x509 ← Proc.call P.newX509
        tryCatch (JsonWebToken.verifyBody P mem x509 (token.take last) (token.drop (last + 1)) suffix) fun e =>
          Proc.call (.error (signatureError e))) self =
      if (token.drop (last + 1)).isEmpty || !verify then pure self
      else do
        alloc mem .signedPortion
        let x509 ← P.newX509
        let signature ← guarded
          (checkSignature P mem x509 self.header (token.take last) (token.drop (last + 1)) suffix)
          fun e => .error (signatureError e)
        return { self with signature } := by
  split_ifs
  · rfl
  · rw [Proc.outcome_call]
    refine bind_congr fun _ => ?_
    rw [Proc.outcome_call]
    refine bind_congr fun x509 => ?_
    rw [Proc.outcome_rethrow, verifyBody_outcome]
    cases checkSignature P mem x509 self.header (token.take last) (token.drop (last + 1)) suffix <;> rfl

/-- **The object after `ParseToken`**, when the call returns, is the token that is parsed. -/
theorem parseToken_outcome (self : JsonWebToken) (token : Bytes) (verify : Bool) (suffix : Bytes) :
    (JsonWebToken.parseToken P mem token verify suffix).outcome self = parseToken P mem self token verify suffix := by
  rw [JsonWebToken.parseToken, parseToken, Proc.outcome_call]
  cases alloc mem .tokenVector with
  | error e => rfl
  | ok _ =>
      rw [ok_bind, ok_bind, cut]
      by_cases hlen : token.length < 2
      · rw [if_pos hlen, if_pos hlen]
        rfl
      rw [if_neg hlen, if_neg hlen]
      cases find dot token with
      | none => rfl
      | some first =>
          cases rfind dot token with
          | none => rfl
          | some last =>
              by_cases hne : first = last
              · simp only [if_pos hne]
                rfl
              simp only [if_neg hne]
              rw [Proc.outcome_call]
              cases alloc mem .segments with
              | error e => rfl
              | ok _ =>
                  rw [ok_bind, ok_bind, Proc.outcome_seq, parseMember_outcome self self.header rfl]
                  cases parseSegment P self.header (token.take first) with
                  | error e => rfl
                  | ok header =>
                      change Proc.outcome (_ >>= _) (⟨header, self.jwt, self.signature⟩ : JsonWebToken) = _
                      rw [Proc.outcome_seq, parseMember_outcome _ self.jwt rfl, ok_bind]
                      cases parseSegment P self.jwt ((token.drop (first + 1)).take (last - (first + 1))) with
                      | error e => rfl
                      | ok jwt => exact signature_outcome ⟨header, jwt, self.signature⟩ token verify suffix last

/-- `parseToken_returns` for a token with any number of dots. -/
theorem parseToken_parsed {self t : JsonWebToken} {token suffix : Bytes} {parts : Parts}
    (hparts : cut token = some parts) (h : parseToken P mem self token true suffix = .ok t) :
    Parsed P self parts.headerBase64 parts.payloadBase64 parts.signatureBase64 suffix t := by
  have hsigned := cut_signedPortion hparts
  rw [parseToken, bind_returns] at h
  obtain ⟨-, -, h⟩ := h
  rw [cut] at hparts
  split_ifs at hparts h with hlen
  split at hparts
  · rename_i first last hfirst hlast
    split_ifs at hparts with hne
    cases hparts
    change token.take last = token.take first ++ dot :: (token.drop (first + 1)).take (last - (first + 1)) at hsigned
    simp only [hfirst, hlast, if_neg hne, bind_returns] at h
    obtain ⟨-, -, header, hheader, jwt, hjwt, h⟩ := h
    obtain ⟨hh, hhKept⟩ := parseSegment_returns hheader
    obtain ⟨hj, hjKept⟩ := parseSegment_returns hjwt
    split_ifs at h with hempty
    · cases h
      have hnil : token.drop (last + 1) = [] := by simpa using hempty
      exact ⟨hh, hhKept, hj, hjKept, fun hne => absurd hnil hne, fun _ => rfl⟩
    · rw [bind_returns] at h
      obtain ⟨-, -, h⟩ := h
      rw [bind_returns] at h
      obtain ⟨x509, hx, h⟩ := h
      rw [bind_returns] at h
      obtain ⟨signature, hchecked, h⟩ := h
      cases h
      have hne : token.drop (last + 1) ≠ [] := by simpa using hempty
      refine ⟨hh, hhKept, hj, hjKept, fun _ => ?_, fun hnil => absurd hnil hne⟩
      have hverified := checkSignature_returns hx (guarded_returns hchecked)
      rw [hsigned] at hverified
      exact hverified
  · cases hparts

/-- The members are the decoded segments, an empty one for an empty segment; and a signature that is there was
verified as the one of this token. -/
structure Determined (P : Providers) (parts : Parts) (suffix : Bytes) (t : JsonWebToken) : Prop where
  header : if parts.headerBase64 = [] then t.header = .null else decodeJson P parts.headerBase64 = .ok t.header
  claims : if parts.payloadBase64 = [] then t.jwt = .null else decodeJson P parts.payloadBase64 = .ok t.jwt
  signature :
    if parts.signatureBase64 = [] then t.signature = [] else P.base64UrlDecode parts.signatureBase64 = .ok t.signature
  signed : t.signature ≠ [] → parts.signatureBase64 ≠ [] ∧
    SignatureVerified P t.header parts.signedPortion parts.signatureBase64 suffix t.signature

theorem ite_eq_of {α ε : Type} {p : Prop} [Decidable p] {x : Except ε α} {empty a b : α}
    (ha : if p then a = empty else x = .ok a) (hb : if p then b = empty else x = .ok b) : a = b := by
  split_ifs at ha hb
  · rw [ha, hb]
  · exact Except.ok.inj (ha.symm.trans hb)

/-- What is determined by the token is the same after any two histories. -/
theorem Determined.unique {parts : Parts} {suffix : Bytes} {t' : JsonWebToken} (h : Determined P parts suffix t)
    (h' : Determined P parts suffix t') : t = t' := by
  obtain ⟨header, jwt, signature⟩ := t
  obtain ⟨header', jwt', signature'⟩ := t'
  obtain rfl : header = header' := ite_eq_of h.header h'.header
  obtain rfl : jwt = jwt' := ite_eq_of h.claims h'.claims
  obtain rfl : signature = signature' := ite_eq_of h.signature h'.signature
  rfl

end

/-- **`ParseToken` over all histories.** A verifying call that returns has set the object to what the token alone
determines exactly when the object held nothing, before the call, in the members for which the token has no segment. -/
theorem parseToken_determined_iff (history : List Call) (P : Providers) (mem : Memory) (token suffix : Bytes)
    (parts : Parts) (t : JsonWebToken) (hparts : cut token = some parts)
    (hreturns : (JsonWebToken.parseToken P mem token true suffix).exec (after history) = (.ok (), t)) :
    Determined P parts suffix t ↔
      (parts.headerBase64 = [] → (after history).header = .null) ∧
        (parts.payloadBase64 = [] → (after history).jwt = .null) ∧
          (parts.signatureBase64 = [] → (after history).signature = []) := by
  have houtcome := Proc.outcome_eq_ok_iff.2 hreturns
  rw [parseToken_outcome] at houtcome
  have hupdated := parseToken_parsed hparts houtcome
  generalize after history = self at hupdated
  have hsigned := cut_signedPortion hparts
  constructor
  · intro h
    refine ⟨fun hnil => ?_, fun hnil => ?_, fun hnil => ?_⟩
    · have hheader := h.header
      rwa [if_pos hnil, hupdated.headerKept hnil] at hheader
    · have hclaims := h.claims
      rwa [if_pos hnil, hupdated.claimsKept hnil] at hclaims
    · have hsignature := h.signature
      rwa [if_pos hnil, hupdated.signatureKept hnil] at hsignature
  · intro ⟨hheader, hclaims, hsignature⟩
    have hkept : parts.signatureBase64 = [] → t.signature = [] := fun hnil => by
      rw [hupdated.signatureKept hnil, hsignature hnil]
    refine ⟨?_, ?_, ?_, fun hne => ?_⟩
    · split_ifs with hnil
      · rw [hupdated.headerKept hnil, hheader hnil]
      · exact hupdated.header hnil
    · split_ifs with hnil
      · rw [hupdated.claimsKept hnil, hclaims hnil]
      · exact hupdated.claims hnil
    · split_ifs with hnil
      · exact hkept hnil
      · exact (hupdated.verified hnil).decoded
    · have hnil : parts.signatureBase64 ≠ [] := fun hnil => hne (hkept hnil)
      have hverified := hupdated.verified hnil
      rw [← hsigned] at hverified
      exact ⟨hnil, hverified⟩

namespace Sample

/-- OpenSSL without certificates, and JSON that is an empty object or an empty array. -/
def emptyProviders : Providers := (providers []).linux noCertificates parseEmpty

/-- A token of empty objects without a signature, and one whose signature fails to verify. -/
def unsignedToken : Bytes := ascii "e30.e30."

def refusedToken : Bytes := ascii "e30.e30.QQ"

/-- An object on which a token was parsed and refused. -/
def afterRefused : List Call := [.parseToken emptyProviders .ample refusedToken true subjectNameSuffix]

end Sample

/-- On a new object, the token without a signature is determined. -/
theorem parseToken_determined_new :
    Determined Sample.emptyProviders ⟨ascii "e30", ascii "e30", [], ascii "e30.e30"⟩ subjectNameSuffix
      ⟨.object [], .object [], []⟩ :=
  (parseToken_determined_iff [] Sample.emptyProviders .ample Sample.unsignedToken subjectNameSuffix
    ⟨ascii "e30", ascii "e30", [], ascii "e30.e30"⟩ ⟨.object [], .object [], []⟩ rfl rfl).2
    ⟨fun h => absurd h (List.cons_ne_nil _ _), fun h => absurd h (List.cons_ne_nil _ _), fun _ => rfl⟩

/-- The refused token throws and leaves its signature. The token without a signature is then accepted with that
signature, and counts as signed. -/
theorem parseToken_not_determined :
    (JsonWebToken.parseToken Sample.emptyProviders .ample Sample.refusedToken true subjectNameSuffix).exec .new =
        (.error .runtimeError, ⟨.object [(ascii "x5c", .null)], .object [], ascii "A"⟩) ∧
      (JsonWebToken.parseToken Sample.emptyProviders .ample Sample.unsignedToken true subjectNameSuffix).exec
          (after Sample.afterRefused) = (.ok (), ⟨.object [], .object [], ascii "A"⟩) ∧
      (PolicyEvaluator.ofToken 0 ⟨.object [], .object [], ascii "A"⟩).isSigned .ample 0 = .ok true ∧
      cut Sample.unsignedToken = some ⟨ascii "e30", ascii "e30", [], ascii "e30.e30"⟩ ∧
      ¬ Determined Sample.emptyProviders ⟨ascii "e30", ascii "e30", [], ascii "e30.e30"⟩ subjectNameSuffix
        ⟨.object [], .object [], ascii "A"⟩ := by
  refine ⟨rfl, rfl, rfl, rfl, fun h => ?_⟩
  exact (h.signed (List.cons_ne_nil 65 [])).1 rfl

end CvmAttestation.Secrets
