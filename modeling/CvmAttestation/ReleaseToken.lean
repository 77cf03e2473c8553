import CvmAttestation.BaseSplit
import CvmAttestation.ReleaseResponse

/-! The three parts of a release token. `SplitString` reads piece by piece, so that it splits a string as one would expect
unless the string is empty or ends with the delimiter. `doSKR` counts the pieces only, and takes a token with three dots
for one with three parts if the last dot stands at its end. -/

namespace CvmAttestation.Release

open Base

/-- `SplitString` returns the pieces of the list, but for an empty one at the end. -/
theorem splitString_eq {delim : UInt8} {item : Bytes} (h : delim ∉ item) (str : Bytes) :
    splitString delim item str = dropEmptyEnd ((item ++ str).splitOn delim) := by
  induction str generalizing item with
  | nil =>
      rw [List.append_nil, List.splitOn_eq_singleton h, splitString, dropEmptyEnd, List.getLast?_singleton]
      simp only [Option.some.injEq, List.dropLast_singleton]
  | cons c str ih =>
      rw [splitString]
      split_ifs with hc
      · rw [hc, List.splitOn_append_cons_self_of_not_mem h, dropEmptyEnd_cons (List.splitOn_ne_nil _ _),
          ih List.not_mem_nil, List.nil_append]
      · have hitem : delim ∉ item ++ [c] := by
          rw [List.mem_append, List.mem_singleton, not_or]
          exact ⟨h, fun heq => hc heq.symm⟩
        rw [ih hitem, List.append_assoc, List.singleton_append]

/-! ### The check of a token -/

/-- The response carries the token. -/
def Carries (L : JsonLib) (responseStr skrToken : Bytes) : Prop :=
  ∃ skrJson, parseJson L (responseStr.takeWhile (· ≠ 0)) = .ok skrJson ∧ stringAt skrJson [ascii "value"] = .ok skrToken

def invalidSkrToken : Exc := .skrError exitSkrFail (ascii "Invalid SKR token (expected 3 dot-separated parts)")

/-- The token of the response passes the check of its parts, whatever comes after that. -/
def Accepted (L : JsonLib) (responseStr : Bytes) : Prop := skrCipherText L responseStr ≠ .error invalidSkrToken

section

variable {α β : Type}

/-- A step that has no error of `doSKR`'s own. -/
def NoSkrError (x : Except Exc α) : Prop := ∀ exitCode msg, x ≠ .error (.skrError exitCode msg)

theorem NoSkrError.bind {x : Except Exc α} {f : α → Except Exc β} (hx : NoSkrError x) (hf : ∀ a, NoSkrError (f a)) :
    NoSkrError (x >>= f) := by
  cases x with
  | ok a => exact hf a
  | error e =>
      intro exitCode msg heq
      cases heq
      exact hx exitCode msg rfl

theorem noSkrError_json (x : Except JsonError α) : NoSkrError (x.mapError Exc.json) := by
  intro exitCode msg heq
  cases x with
  | ok a => cases heq
  | error e => cases heq

theorem noSkrError_base64urlToBinary (base64Data : Bytes) : NoSkrError (base64urlToBinary base64Data) := by
  intro exitCode msg heq
  rw [base64urlToBinary, base64ToBinary, decodeTrimmed] at heq
  split at heq
  · cases heq
  · cases heq

theorem noSkrError_stringAt (j : Json) (path : List Bytes) : NoSkrError (stringAt j path) := by
  induction path generalizing j with
  | nil => exact noSkrError_json _
  | cons key path ih => exact (noSkrError_json _).bind ih

end

/-- The check looks at the number of pieces. -/
theorem accepted_iff_length {L : JsonLib} {responseStr skrToken : Bytes} (h : Carries L responseStr skrToken) :
    Accepted L responseStr ↔ (splitString 46 [] skrToken).length = 3 := by
  obtain ⟨skrJson, hparse, hvalue⟩ := h
  rw [Accepted, skrCipherText, hparse, ok_bind, hvalue, ok_bind]
  split
  · rename_i payload _ hsplit
    rw [hsplit]
    refine iff_of_true ((?_ : NoSkrError _) exitSkrFail _) rfl
    apply (noSkrError_base64urlToBinary payload).bind
    intro tokenPayload
    apply (noSkrError_json _).bind
    intro skrPayloadJson
    apply (noSkrError_stringAt skrPayloadJson _).bind
    intro keyHsmText
    apply (noSkrError_base64urlToBinary keyHsmText).bind
    intro keyHsm
    apply (noSkrError_json _).bind
    intro cipherTextJson
    exact noSkrError_stringAt cipherTextJson _
  · rename_i hsplit
    refine iff_of_false (fun haccepted => haccepted rfl) fun hlength => ?_
    obtain ⟨header, payload, signature, hparts⟩ := List.length_eq_three.1 hlength
    exact hsplit header payload signature hparts

/-- **When a string is split as it should be, and when it is checked so as a token.** -/
theorem splitString_splits_iff (delim : UInt8) (str : Bytes) :
    (Splits delim str (splitString delim [] str) ↔ str ≠ [] ∧ str.getLast? ≠ some delim) ∧
      ∀ (L : JsonLib) (responseStr : Bytes), Carries L responseStr str →
        ((Accepted L responseStr ↔ str.count 46 = 2) ↔
          (str.getLast? = some 46 → str.count 46 ≠ 2 ∧ str.count 46 ≠ 3)) := by
  have heq : ∀ d, splitString d [] str = dropEmptyEnd (str.splitOn d) := fun d => splitString_eq List.not_mem_nil str
  refine ⟨?_, fun L responseStr h => ?_⟩
  · rw [heq]
    exact dropEmptyEnd_splitOn_iff
  · rw [accepted_iff_length h, heq, length_dropEmptyEnd_splitOn]
    by_cases hnil : str = []
    · simp [hnil]
    · by_cases hend : str.getLast? = some 46
      · rw [if_pos (.inr hend)]
        simp only [hend, true_implies]
        omega
      · rw [if_neg (not_or.2 ⟨hnil, hend⟩)]
        simp [hend]

namespace Sample

def fourParts : Bytes := ascii "h..s."

def threeParts : Bytes := ascii "h..s"

theorem valid_fourParts : Utf8.valid fourParts = true := rfl

theorem valid_threeParts : Utf8.valid threeParts = true := rfl

/-- The response with a token that needs no escapes. -/
def responseText (skrToken : Bytes) : Bytes := ascii "\x7b\"value\":\"" ++ (skrToken ++ ascii "\"\x7d")

/-- The parser, on that response and on the empty payload of the token. -/
def tokenParser (skrToken : Bytes) (h : Utf8.valid skrToken = true) : JsonLib where
  parse text := if text = responseText skrToken then .ok (.object [(ascii "value", .string skrToken)]) else .error .parseError
  parse_utf8 := by
    intro text j hparse
    have hkey : Utf8.valid (ascii "value") = true := rfl
    split_ifs at hparse
    cases hparse
    simp only [Json.utf8Ok, Json.utf8OkMembers, h, hkey, Bool.true_and]
  parseWhat _ := []
  what _ := []
  render _ := []

theorem carries_responseText {skrToken : Bytes} (h : Utf8.valid skrToken = true)
    (hcut : (responseText skrToken).takeWhile (· ≠ 0) = responseText skrToken) :
    Carries (tokenParser skrToken h) (responseText skrToken) skrToken := by
  refine ⟨.object [(ascii "value", .string skrToken)], ?_, rfl⟩
  rw [hcut, parseJson, tokenParser]
  simp only [if_true]
  rfl

end Sample

open Sample in
/-- A token with four parts, the last of which is empty, passes the check. -/
theorem splitString_fourth_part :
    ¬Splits 46 fourParts (splitString 46 [] fourParts) ∧
      Carries (tokenParser fourParts valid_fourParts) (responseText fourParts) fourParts ∧
      ¬(Accepted (tokenParser fourParts valid_fourParts) (responseText fourParts) ↔ fourParts.count 46 = 2) := by
  have hcarries : Carries (tokenParser fourParts valid_fourParts) (responseText fourParts) fourParts :=
    carries_responseText valid_fourParts rfl
  have hcount : fourParts.count 46 = 3 := rfl
  have hlength : (splitString 46 [] fourParts).length = 3 := rfl
  refine ⟨fun h => ?_, hcarries, fun h => ?_⟩
  · have hpieces := h.length
    rw [hlength, hcount] at hpieces
    cases hpieces
  · have htwo := h.1 ((accepted_iff_length hcarries).2 hlength)
    rw [hcount] at htwo
    cases htwo

open Sample in
theorem splitString_splits_three_parts :
    Splits 46 threeParts (splitString 46 [] threeParts) ∧
      Carries (tokenParser threeParts valid_threeParts) (responseText threeParts) threeParts ∧
      Accepted (tokenParser threeParts valid_threeParts) (responseText threeParts) := by
  have hcarries : Carries (tokenParser threeParts valid_threeParts) (responseText threeParts) threeParts :=
    carries_responseText valid_threeParts rfl
  have hend : threeParts.getLast? ≠ some 46 := by decide
  obtain ⟨hsplits, hchecked⟩ := splitString_splits_iff 46 threeParts
  exact ⟨hsplits.2 ⟨by decide, hend⟩, hcarries, ((hchecked _ _ hcarries).2 fun h => absurd h hend).2 rfl⟩

end CvmAttestation.Release
