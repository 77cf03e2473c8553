import CvmAttestation.ReleaseWrap

/-! Unwrapping many keys with one released key. An exception while one entry is unwrapped becomes the error of
that entry. Two things escape this: the id of an entry is read before the `try` block, and the results are
written as text after the loop, where every plaintext has to be well-formed UTF-8. -/

namespace CvmAttestation.Release

open Base

/-- The parser and the writer of the JSON library. A parsed text holds well-formed strings only. The texts of
the exceptions are `parseWhat`, for a text that does not parse, and `what`. -/
structure JsonLib where
  parse : Bytes → Except JsonError Json
  parse_utf8 : ∀ {text : Bytes} {j : Json}, parse text = .ok j → j.utf8Ok = true
  parseWhat : Bytes → Bytes
  what : JsonError → Bytes
  render : Json → Bytes

/-- `dump`: raises for a string that is not well formed. -/
def dump (L : JsonLib) (j : Json) : Except Exc Bytes :=
  if j.utf8Ok then .ok (L.render j) else .error (.json .typeError)

theorem dump_returns {L : JsonLib} {j : Json} {out : Bytes} (h : dump L j = .ok out) : out = L.render j := by
  rw [dump] at h
  split at h
  · cases h
    rfl
  · cases h

def toDecimal (i : Nat) : Bytes := (Nat.toDigits 10 i).map fun c => UInt8.ofNat c.toNat

def Exc.what (L : JsonLib) : Exc → Bytes
  | skrError _ msg => msg
  | runtimeError msg => msg
  | dataflow => ascii "attempt to decode a value not in base64 char set"
  | json e => L.what e

/-- What `rsa_decrypt_safe` says about a call that failed. -/
def RsaStage.text : RsaStage → Bytes
  | newContext => ascii "EVP_PKEY_CTX_new failed"
  | decryptInit => ascii "EVP_PKEY_decrypt_init failed"
  | setPadding => ascii "set_rsa_padding failed"
  | setOaepMd => ascii "set_rsa_oaep_md failed"
  | setMgf1Md => ascii "set_rsa_mgf1_md failed"
  | sizeQuery => ascii "EVP_PKEY_decrypt (size query) failed"
  | malloc => ascii "OPENSSL_malloc failed"
  | decrypt => ascii "EVP_PKEY_decrypt failed"

section

variable (O : Openssl) (L : JsonLib)

def rsaDecryptSafe (pkey : O.Key) (msg : Bytes) (oaepMd mgf1Md : EvpMd) : Except Exc Bytes :=
  match O.decrypt pkey oaepMd mgf1Md msg with
  | .ok dec => .ok dec
  | .error (stage, _) => .error (.runtimeError stage.text)

def unwrapEntry (pkey : O.Key) (oaepMd mgf1Md : EvpMd) (entry : Json) : Except Exc Bytes :=
  match entry.member? (ascii "wrapped") with
  | some (.string wrappedKeyBase64) => do
    let wrappedKey ← base64ToBinary wrappedKeyBase64
    let decryptedKey ← rsaDecryptSafe O pkey wrappedKey oaepMd mgf1Md
    base64Decode (binaryToBase64 decryptedKey)
  | _ => .error (.runtimeError (ascii "missing or invalid \"wrapped\" field"))

/-- The result for an entry whose id could be read. The members of an object are sorted by their keys. -/
def resultEntry (pkey : O.Key) (oaepMd mgf1Md : EvpMd) (entry : Json) (id : Bytes) : Json :=
  match unwrapEntry O pkey oaepMd mgf1Md entry with
  | .ok plain => .object [(ascii "id", .string id), (ascii "unwrapped", .string plain)]
  | .error e => .object [(ascii "error", .string (e.what L)), (ascii "id", .string id)]

def entryId (entry : Json) (i : Nat) : Except Exc Bytes :=
  (entry.value (ascii "id") (toDecimal i)).mapError .json

/-- The loop over the entries, from index `i` on. -/
def unwrapEntries (pkey : O.Key) (oaepMd mgf1Md : EvpMd) (i : Nat) : List Json → Except Exc (List Json)
  | [] => return []
  | entry :: keys => do
    let id ← entryId entry i
    let results ← unwrapEntries pkey oaepMd mgf1Md (i + 1) keys
    return resultEntry O L pkey oaepMd mgf1Md entry id :: results

def batchKeys (batchJson : Bytes) : Except Exc (List Json) :=
  match L.parse batchJson with
  | .error .parseError =>
    .error (.skrError exitUsage (ascii "UnwrapKeyBatch: Invalid JSON input: " ++ L.parseWhat batchJson))
  | .error e => .error (.json e)
  | .ok inputJson =>
    match inputJson.member? (ascii "keys") with
    | some (.array keys) => .ok keys
    | _ => .error (.skrError exitUsage (ascii "UnwrapKeyBatch: JSON must contain a \"keys\" array"))

/-- `Util::UnwrapKeyBatch` up to the results. -/
def batchResults (released : Except Exc (Option O.Key)) (batchJson oaepHashAlg mgf1HashAlg : Bytes) :
    Except Exc (List Json) := do
  let keys ← batchKeys L batchJson
  let pkey ← releasedRsaKey O released (ascii "UnwrapKeyBatch: Failed to release the private key")
    (ascii "UnwrapKeyBatch: Released key is not RSA. Only RSA keys are supported for unwrap.")
  let oaepMd ← getEvpMdByName oaepHashAlg
  let mgf1Md ← getMgf1Md oaepMd mgf1HashAlg
  unwrapEntries O L pkey oaepMd mgf1Md 0 keys

def outputJson (results : List Json) : Json := .object [(ascii "results", .array results)]

def unwrapKeyBatch (released : Except Exc (Option O.Key)) (batchJson oaepHashAlg mgf1HashAlg : Bytes) :
    Except Exc Bytes := do
  let results ← batchResults O L released batchJson oaepHashAlg mgf1HashAlg
  dump L (outputJson results)

end

/-! ### One entry -/

section

variable {O : Openssl} {L : JsonLib} {pkey : O.Key} {oaepMd mgf1Md : EvpMd}

theorem rsaDecryptSafe_ok_iff {msg dec : Bytes} :
    rsaDecryptSafe O pkey msg oaepMd mgf1Md = .ok dec ↔ O.decrypt pkey oaepMd mgf1Md msg = .ok dec := by
  rw [rsaDecryptSafe]
  cases O.decrypt pkey oaepMd mgf1Md msg with
  | ok key => simp
  | error e => simp

theorem unwrapEntry_ok_iff {entry : Json} {key : Bytes} :
    unwrapEntry O pkey oaepMd mgf1Md entry = .ok key ↔
      ∃ wrapped wrappedKey dec, entry.member? (ascii "wrapped") = some (.string wrapped) ∧
        base64ToBinary wrapped = .ok wrappedKey ∧ O.decrypt pkey oaepMd mgf1Md wrappedKey = .ok dec ∧
          trimZeros dec = key := by
  rw [unwrapEntry]
  split
  · rename_i wrapped hm
    simp only [bind_returns, rsaDecryptSafe_ok_iff, base64Decode, decodeTrimmed_binaryToBase64]
    constructor
    · rintro ⟨wrappedKey, hw, dec, hd, h⟩
      cases h
      exact ⟨wrapped, wrappedKey, dec, hm, hw, hd, rfl⟩
    · rintro ⟨wrapped', wrappedKey, dec, hm', hw, hd, rfl⟩
      cases hm.symm.trans hm'
      exact ⟨wrappedKey, hw, dec, hd, rfl⟩
  · rename_i hm
    constructor
    · intro h
      cases h
    · rintro ⟨wrapped, wrappedKey, dec, hm', -⟩
      exact absurd hm' (hm wrapped)

/-- The result at every position is that of the entry there, and depends on no other entry. -/
theorem unwrapEntries_get {i : Nat} {keys results : List Json}
    (h : unwrapEntries O L pkey oaepMd mgf1Md i keys = .ok results) :
    results.length = keys.length ∧ ∀ k result, results[k]? = some result → ∃ entry id,
      keys[k]? = some entry ∧ entryId entry (i + k) = .ok id ∧
        result = resultEntry O L pkey oaepMd mgf1Md entry id := by
  induction keys generalizing i results with
  | nil =>
      cases h
      exact ⟨rfl, fun k result hk => by simp at hk⟩
  | cons entry keys ih =>
      rw [unwrapEntries, bind_returns] at h
      obtain ⟨id, hid, h⟩ := h
      rw [bind_returns] at h
      obtain ⟨rest, hrest, h⟩ := h
      cases h
      obtain ⟨hlength, hget⟩ := ih hrest
      refine ⟨by rw [List.length_cons, List.length_cons, hlength], ?_⟩
      intro k result hr
      cases k with
      | zero =>
          cases hr
          exact ⟨entry, id, rfl, hid, rfl⟩
      | succ k =>
          rw [List.getElem?_cons_succ] at hr ⊢
          rw [Nat.add_succ, ← Nat.succ_add]
          exact hget k result hr

end

/-! ### The whole batch -/

/-- What the results of a batch have to be: one for each entry in the same order, under the given id or the index
of the entry, either with a plaintext or with an error. -/
structure Answers (keys results : List Json) : Prop where
  length : results.length = keys.length
  givenId : ∀ (i : Nat) (entry result : Json) (id : Bytes), keys[i]? = some entry → results[i]? = some result →
    entry.member? (ascii "id") = some (.string id) → result.member? (ascii "id") = some (.string id)
  defaultId : ∀ (i : Nat) (entry result : Json), keys[i]? = some entry → results[i]? = some result →
    entry.member? (ascii "id") = none → result.member? (ascii "id") = some (.string (toDecimal i))
  one : ∀ result ∈ results, Xor (result.contains (ascii "unwrapped") = true) (result.contains (ascii "error") = true)

section

variable (O : Openssl) (L : JsonLib) (released : Except Exc (Option O.Key)) (oaepName mgf1Name : Bytes)

/-- The batch returns the text of results that answer its entries. -/
def Returned (text : Bytes) (keys results : List Json) : Prop :=
  batchResults O L released text oaepName mgf1Name = .ok results ∧
    unwrapKeyBatch O L released text oaepName mgf1Name = .ok (L.render (outputJson results)) ∧ Answers keys results

def HoldsKeys (text : Bytes) (keys : List Json) : Prop :=
  ∃ ms, L.parse text = .ok (.object ms) ∧ ms.lookup (ascii "keys") = some (.array keys)

end

section

variable {O : Openssl} {L : JsonLib} {pkey : O.Key} {oaepMd mgf1Md : EvpMd}

theorem batchKeys_ok_iff {text : Bytes} {keys : List Json} :
    batchKeys L text = .ok keys ↔ HoldsKeys L text keys := by
  rw [batchKeys, HoldsKeys]
  constructor
  · intro h
    split at h
    · cases h
    · cases h
    · rename_i j hparse
      split at h
      · rename_i keys' hm
        cases h
        cases j with
        | object ms => exact ⟨ms, hparse, hm⟩
        | _ => cases hm
      · cases h
  · rintro ⟨ms, hparse, hm⟩
    simp only [hparse, Json.member?, hm]

end

/-- A key that is unwrapped, an entry that fails, and a second key that is unwrapped. -/
def sampleKeys : List Json :=
  [.object [(ascii "wrapped", .string (ascii "YQE="))],
    .object [(ascii "id", .string (ascii "b")), (ascii "wrapped", .string (ascii "Yg=="))],
    .object [(ascii "wrapped", .string (ascii "YgE="))]]

/-- An entry without a wrapped key. -/
def sampleEntry : Json := .object [(ascii "id", .string (ascii "c"))]

def sampleText : Bytes := ascii
  "\x7b\"keys\":[\x7b\"wrapped\":\"YQE=\"\x7d,\x7b\"id\":\"b\",\"wrapped\":\"Yg==\"\x7d,\x7b\"wrapped\":\"YgE=\"\x7d]\x7d"

def sampleText' : Bytes := ascii
  "\x7b\"keys\":[\x7b\"wrapped\":\"YQE=\"\x7d,\x7b\"id\":\"c\"\x7d,\x7b\"wrapped\":\"YgE=\"\x7d]\x7d"

def sampleTexts : List (Bytes × Json) :=
  let batch := fun keys => Json.object [(ascii "keys", .array keys)]
  [(sampleText, batch sampleKeys), (sampleText', batch (sampleKeys.set 1 sampleEntry)),
    (ascii "\x7b\"keys\":[\x7b\"wrapped\":\"YQE=\"\x7d,5]\x7d",
      batch [.object [(ascii "wrapped", .string (ascii "YQE="))], .int 5])]

def sampleLines (lines : List Bytes) : Bytes := (lines.intersperse (ascii ",\n")).flatten

def sampleMember : Bytes × Json → Bytes
  | (k, .string v) => ascii "      \"" ++ k ++ ascii "\": \"" ++ v ++ ascii "\""
  | _ => []

def sampleResult : Json → Bytes
  | .object ms => ascii "    \x7b\n" ++ sampleLines (ms.map sampleMember) ++ ascii "\n    \x7d"
  | _ => []

def sampleJsonLib : JsonLib where
  parse text :=
    match sampleTexts.lookup text with
    | some j => .ok j
    | none => .error .parseError
  parse_utf8 := by
    intro text j h
    split at h
    · rename_i j' hj
      cases h
      exact Json.utf8Ok_lookup (by decide +kernel) hj
    · cases h
  parseWhat _ := ascii "parse error"
  what _ := ascii "type error"
  render
    | .object [(k, .array results)] =>
      ascii "\x7b\n  \"" ++ k ++ ascii "\": [\n" ++ sampleLines (results.map sampleResult) ++ ascii "\n  ]\n\x7d"
    | _ => []

section

variable {O : Openssl} {L : JsonLib} {pkey : O.Key} {oaepMd mgf1Md : EvpMd}

theorem batchResults_returns {released : Except Exc (Option O.Key)} {text oaepName mgf1Name : Bytes}
    {results : List Json} (h : batchResults O L released text oaepName mgf1Name = .ok results) :
    ∃ keys pkey oaepMd mgf1Md, HoldsKeys L text keys ∧ released = .ok (some pkey) ∧ O.isRsa pkey = true ∧
      getEvpMdByName oaepName = .ok oaepMd ∧ getMgf1Md oaepMd mgf1Name = .ok mgf1Md ∧
        unwrapEntries O L pkey oaepMd mgf1Md 0 keys = .ok results := by
  simp only [batchResults, bind_returns] at h
  obtain ⟨keys, hkeys, pkey, hpkey, oaepMd, hoaep, mgf1Md, hmgf1, h⟩ := h
  obtain ⟨hreleased, hrsa⟩ := releasedRsaKey_returns hpkey
  exact ⟨keys, pkey, oaepMd, mgf1Md, batchKeys_ok_iff.1 hkeys, hreleased, hrsa, hoaep, hmgf1, h⟩

theorem resultEntry_unwrapped_iff {entry : Json} {id key : Bytes} :
    (resultEntry O L pkey oaepMd mgf1Md entry id).member? (ascii "unwrapped") = some (.string key) ↔
      unwrapEntry O pkey oaepMd mgf1Md entry = .ok key := by
  rw [resultEntry]
  cases unwrapEntry O pkey oaepMd mgf1Md entry with
  | ok plain =>
      change some (Json.string plain) = some (Json.string key) ↔ _
      simp
  | error e =>
      change none = some (Json.string key) ↔ _
      simp

theorem resultEntry_error_iff {entry : Json} {id : Bytes} :
    (resultEntry O L pkey oaepMd mgf1Md entry id).contains (ascii "error") = true ↔
      ∃ e, unwrapEntry O pkey oaepMd mgf1Md entry = .error e := by
  rw [resultEntry]
  cases unwrapEntry O pkey oaepMd mgf1Md entry with
  | ok plain =>
      change false = true ↔ _
      simp
  | error e =>
      change true = true ↔ _
      simp

theorem unwrapEntry_ok_iff_unwrapKey (hrsa : O.isRsa pkey = true) {oaepName mgf1Name : Bytes}
    (hoaep : getEvpMdByName oaepName = .ok oaepMd) (hmgf1 : getMgf1Md oaepMd mgf1Name = .ok mgf1Md)
    {entry : Json} {wrapped : Bytes} (hm : entry.member? (ascii "wrapped") = some (.string wrapped)) (key : Bytes) :
    unwrapEntry O pkey oaepMd mgf1Md entry = .ok key ↔
      unwrapKey O (.ok (some pkey)) wrapped oaepName mgf1Name = .ok key := by
  rw [unwrapEntry_ok_iff, unwrapKey_ok_iff hrsa hoaep hmgf1]
  constructor
  · rintro ⟨wrapped', wrappedKey, dec, hm', hw, hd, htrim⟩
    cases hm.symm.trans hm'
    exact ⟨wrappedKey, dec, hw, hd, htrim⟩
  · rintro ⟨wrappedKey, dec, hw, hd, htrim⟩
    exact ⟨wrapped, wrappedKey, dec, hm, hw, hd, htrim⟩

end

/-- **The batch agrees with the single unwrapping**: whenever a batch returns, every entry with a wrapped key has
the plaintext that unwrapping this key alone returns, or has an error when that raises. -/
theorem unwrapKeyBatch_agrees (O : Openssl) (L : JsonLib) (released : Except Exc (Option O.Key))
    (text oaepName mgf1Name out : Bytes) (h : unwrapKeyBatch O L released text oaepName mgf1Name = .ok out) :
    ∃ keys results, HoldsKeys L text keys ∧ batchResults O L released text oaepName mgf1Name = .ok results ∧
      out = L.render (outputJson results) ∧ results.length = keys.length ∧
        ∀ (i : Nat) (entry result : Json) (wrapped : Bytes), keys[i]? = some entry → results[i]? = some result →
          entry.member? (ascii "wrapped") = some (.string wrapped) →
            (∀ key, result.member? (ascii "unwrapped") = some (.string key) ↔
              unwrapKey O released wrapped oaepName mgf1Name = .ok key) ∧
            (result.contains (ascii "error") = true ↔
              ∃ e, unwrapKey O released wrapped oaepName mgf1Name = .error e) := by
  rw [unwrapKeyBatch, bind_returns] at h
  obtain ⟨results, hresults, hdump⟩ := h
  obtain ⟨keys, pkey, oaepMd, mgf1Md, hkeys, rfl, hrsa, hoaep, hmgf1, hloop⟩ := batchResults_returns hresults
  obtain ⟨hlength, hget⟩ := unwrapEntries_get hloop
  refine ⟨keys, results, hkeys, hresults, dump_returns hdump, hlength, ?_⟩
  intro i entry result wrapped hk hr hm
  obtain ⟨entry', id, hk', -, rfl⟩ := hget i result hr
  cases hk.symm.trans hk'
  have hsame := unwrapEntry_ok_iff_unwrapKey hrsa hoaep hmgf1 hm
  constructor
  · intro key
    rw [resultEntry_unwrapped_iff, hsame]
  · rw [resultEntry_error_iff, raises_iff hsame]

/-- Two keys and between them an entry that cannot be decrypted. -/
theorem unwrapKeyBatch_agrees_sample :
    unwrapKey sampleOpenssl (.ok (some ())) (ascii "YgE=") (ascii "sha256") [] = .ok (ascii "b") ∧
      (∃ e, unwrapKey sampleOpenssl (.ok (some ())) (ascii "Yg==") (ascii "sha256") [] = .error e) ∧
        ∃ results, batchResults sampleOpenssl sampleJsonLib (.ok (some ())) sampleText (ascii "sha256") [] =
            .ok results ∧ results.length = 3 ∧
          (∀ result, results[1]? = some result → result.contains (ascii "error") = true) ∧
            ∀ result, results[2]? = some result → result.member? (ascii "unwrapped") = some (.string (ascii "b")) := by
  have hkey : unwrapKey sampleOpenssl (.ok (some ())) (ascii "YgE=") (ascii "sha256") [] = .ok (ascii "b") := by
    decide +kernel
  have hfails : ∃ e, unwrapKey sampleOpenssl (.ok (some ())) (ascii "Yg==") (ascii "sha256") [] = .error e := by
    refine ⟨handleErrors [], ?_⟩
    decide +kernel
  have hbatch : unwrapKeyBatch sampleOpenssl sampleJsonLib (.ok (some ())) sampleText (ascii "sha256") [] = .ok
      (ascii "\x7b\n  \"results\": [\n    \x7b\n      \"id\": \"0\",\n      \"unwrapped\": \"a\"\n    \x7d,\n" ++
        ascii "    \x7b\n      \"error\": \"EVP_PKEY_decrypt failed\",\n      \"id\": \"b\"\n    \x7d,\n" ++
          ascii "    \x7b\n      \"id\": \"2\",\n      \"unwrapped\": \"b\"\n    \x7d\n  ]\n\x7d") := by
    decide +kernel
  obtain ⟨keys, results, ⟨ms, hparse, hm⟩, hresults, -, hlength, h⟩ :=
    unwrapKeyBatch_agrees sampleOpenssl sampleJsonLib _ _ _ _ _ hbatch
  cases hparse
  cases hm
  refine ⟨hkey, hfails, results, hresults, hlength, fun result hr => ?_, fun result hr => ?_⟩
  · exact (h 1 _ result (ascii "Yg==") rfl hr rfl).2.2 hfails
  · exact ((h 2 _ result (ascii "YgE=") rfl hr rfl).1 (ascii "b")).2 hkey

end CvmAttestation.Release
