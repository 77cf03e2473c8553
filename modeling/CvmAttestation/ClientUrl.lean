import CvmAttestation.BaseUrl
import CvmAttestation.ClientEvidence

/-! The attestation URL. `Attest` takes only the host from the URL of its caller, which may have a scheme, a port, a
path, a query and a fragment, or none of them. The URL that it asks is composed of that host and a fixed path. -/

namespace CvmAttestation.Client

open Base

def azureGuestProtocol : Bytes := ascii "https://"

def azureGuestUrl : Bytes := ascii "/attest/AzureGuest?api-version=2020-10-01"

/-- The URL that `Attest` composes once the endpoint is known. -/
def attestationUrl (J : Jsoncpp) (M : Machine) (params : ClientParameters) (hasOut : Bool) :
    Fallible Exc Failure Bytes := do
  let dns ← openEndpoint J M params hasOut
  return azureGuestProtocol ++ (dns ++ azureGuestUrl)

/-! ### What is a URL -/

/-- An optional piece of a URL, behind the character that begins it. -/
def piece (mark : UInt8) : Option Bytes → Bytes
  | none => []
  | some text => mark :: text

/-- The characters that end the host, and the one that ends user information before it. -/
def isMark (c : UInt8) : Bool := c = 47 || c = 58 || c = 63 || c = 35 || c = 64

/-- The pieces of a URL without user information. -/
structure UrlForm where
  scheme : Bytes
  host : Bytes
  port : Option Bytes
  path : Option Bytes
  query : Option Bytes
  fragment : Option Bytes
  hscheme : scheme = [] ∨ scheme = ascii "http://" ∨ scheme = ascii "https://"
  hhost : ∀ c ∈ host, isMark c = false ∧ isSpace c = false
  hport : ∀ text ∈ port, ∀ c ∈ text, Url.isDelimiter c = false
  hpath : ∀ text ∈ path, 63 ∉ text ∧ 35 ∉ text
  hquery : ∀ text ∈ query, 35 ∉ text

namespace UrlForm

/-- What follows the host. -/
def tail (f : UrlForm) : Bytes := piece 58 f.port ++ (piece 47 f.path ++ (piece 63 f.query ++ piece 35 f.fragment))

def text (f : UrlForm) : Bytes := f.scheme ++ (f.host ++ f.tail)

/-- The string is the URL with white space around it. A URL that begins like one with a scheme has that scheme. -/
def Spells (f : UrlForm) (s : Bytes) : Prop :=
  ∃ left right, s = left ++ (f.text ++ right) ∧ (∀ c ∈ left ++ right, isSpace c = true) ∧
    (f.scheme = [] → ¬ascii "https://" <+: f.text ∧ ¬ascii "http://" <+: f.text)

end UrlForm

/-- The host of a URL is found, a URL without one is refused, and `Attest` asks the host that is found. -/
structure EndpointSound (s : Bytes) : Prop where
  host : ∀ f : UrlForm, f.Spells s → f.host ≠ [] → (parseURL s).Returns f.host
  refused : ∀ f : UrlForm, f.Spells s → f.host = [] →
    ∃ failure : Failure, (parseURL s).run = .ok (.error failure) ∧ failure.result.code = .parsingDnsInfo
  domain : ∀ dns, (parseURL s).Returns dns → ∀ c ∈ dns, isMark c = false
  asked : ∀ J M params hasOut url, params.attestationEndpointUrl = some s →
    (attestationUrl J M params hasOut).Returns url → ∃ dns, (parseURL s).Returns dns ∧ Url.Asks url dns azureGuestUrl

/-- What follows the scheme, without the white space at both ends. -/
def afterScheme (url : Bytes) : Bytes :=
  let sanitizedUrl := (url.dropWhile isSpace).rdropWhile isSpace
  sanitizedUrl.drop (if ascii "https://" <+: sanitizedUrl then 8 else if ascii "http://" <+: sanitizedUrl then 7 else 0)

/-- The characters before the first slash and the first colon. -/
def hostPart (rest : Bytes) : Bytes := rest.takeWhile fun c => c ≠ 47 ∧ c ≠ 58

/-- No slash at the beginning, and no question mark, number sign or at sign before the first slash and the first colon. -/
def PlainHost (rest : Bytes) : Prop := rest.head? ≠ some 47 ∧ ∀ c ∈ hostPart rest, c ≠ 63 ∧ c ≠ 35 ∧ c ≠ 64

/-! ### The host that is found -/

theorem dnsOf_eq (url : Bytes) :
    dnsOf url = ((afterScheme url).take 1 ++ ((afterScheme url).drop 1).takeWhile (· ≠ 47)).takeWhile (· ≠ 58) := rfl

/-- Behind its first character, the host ends at the first slash or colon. -/
theorem dnsOf_cons {url : Bytes} {c : UInt8} {rest : Bytes} (h : afterScheme url = c :: rest) :
    dnsOf url = if c = 58 then [] else c :: hostPart rest := by
  have hinner : (rest.takeWhile (· ≠ 47)).takeWhile (· ≠ 58) = hostPart rest := by
    rw [List.takeWhile_takeWhile, hostPart]
    congr 1
    funext d
    grind
  rw [dnsOf_eq, h]
  split_ifs with hcolon
  · subst hcolon
    rfl
  · calc ((c :: rest).take 1 ++ ((c :: rest).drop 1).takeWhile (· ≠ 47)).takeWhile (· ≠ 58)
        = (c :: rest.takeWhile (· ≠ 47)).takeWhile (· ≠ 58) := rfl
      _ = c :: (rest.takeWhile (· ≠ 47)).takeWhile (· ≠ 58) := List.takeWhile_cons_of_pos (decide_eq_true hcolon)
      _ = c :: hostPart rest := by rw [hinner]

theorem dnsOf_nil {url : Bytes} (h : afterScheme url = []) : dnsOf url = [] := by
  rw [dnsOf_eq, h]
  rfl

theorem hostPart_cons {c : UInt8} (rest : Bytes) (hslash : c ≠ 47) (hcolon : c ≠ 58) :
    hostPart (c :: rest) = c :: hostPart rest := by
  rw [hostPart, List.takeWhile_cons, if_pos (decide_eq_true ⟨hslash, hcolon⟩), hostPart]

theorem dnsOf_of_plainHost {url : Bytes} (h : PlainHost (afterScheme url)) : dnsOf url = hostPart (afterScheme url) := by
  cases hrest : afterScheme url with
  | nil => exact dnsOf_nil hrest
  | cons c rest =>
      have hslash : c ≠ 47 := by
        rintro rfl
        exact h.1 (by rw [hrest]; rfl)
      rw [dnsOf_cons hrest]
      split_ifs with hcolon
      · subst hcolon
        rfl
      · exact (hostPart_cons rest hslash hcolon).symm

/-- Only a plain host leaves no mark in what is found. -/
theorem plainHost_iff (url : Bytes) : PlainHost (afterScheme url) ↔ ∀ c ∈ dnsOf url, isMark c = false := by
  constructor
  · intro h c hc
    rw [dnsOf_of_plainHost h] at hc
    have hstop := of_decide_eq_true (List.mem_takeWhile_imp (p := fun c : UInt8 => decide (c ≠ 47 ∧ c ≠ 58)) hc)
    have hinside := h.2 c hc
    simp [isMark, hstop.1, hstop.2, hinside.1, hinside.2.1, hinside.2.2]
  · intro h
    cases hrest : afterScheme url with
    | nil => exact ⟨nofun, fun _ hc => absurd hc List.not_mem_nil⟩
    | cons c rest =>
        rw [dnsOf_cons hrest] at h
        by_cases hcolon : c = 58
        · subst hcolon
          refine ⟨fun hslash => ?_, fun _ hc => absurd hc List.not_mem_nil⟩
          cases hslash
        · rw [if_neg hcolon] at h
          have hslash : c ≠ 47 := by
            rintro rfl
            exact absurd (h 47 List.mem_cons_self) (by decide)
          refine ⟨by simpa using hslash, fun d hd => ?_⟩
          rw [hostPart_cons rest hslash hcolon] at hd
          have hmark := h d hd
          refine ⟨?_, ?_, ?_⟩
          all_goals
            rintro rfl
            exact absurd hmark (by decide)

/-! ### What is trimmed -/

theorem rdropWhile_append_of_neg {p : UInt8 → Bool} {a : Bytes} (h : ∀ c ∈ a, p c = false) (b : Bytes) :
    (a ++ b).rdropWhile p = a ++ b.rdropWhile p := by
  induction b using List.reverseRecOn with
  | nil =>
      rw [List.append_nil, List.rdropWhile_nil, List.append_nil, List.rdropWhile_eq_self_iff]
      intro hne
      rw [h _ (List.getLast_mem hne)]
      exact Bool.false_ne_true
  | append_singleton b c ih =>
      rw [← List.append_assoc, List.rdropWhile_concat, List.rdropWhile_concat]
      split
      · exact ih
      · exact List.append_assoc a b [c]

theorem rdropWhile_append_of_pos {p : UInt8 → Bool} {b : Bytes} (h : ∀ c ∈ b, p c = true) (a : Bytes) :
    (a ++ b).rdropWhile p = a.rdropWhile p := by
  have hreverse : ∀ c ∈ b.reverse, p c = true := fun c hc => h c (List.mem_reverse.1 hc)
  rw [List.rdropWhile, List.rdropWhile, List.reverse_append, List.dropWhile_append_of_pos hreverse]

namespace UrlForm

theorem scheme_solid (f : UrlForm) : ∀ c ∈ f.scheme, isSpace c = false := by
  intro c hc
  obtain h | h | h := f.hscheme
  · rw [h] at hc
    exact absurd hc List.not_mem_nil
  · rw [h] at hc
    exact eq_false_of_ne_true fun hspace => by
      have hall : (ascii "http://").all (fun c => !isSpace c) = true := rfl
      simpa [hspace] using List.all_eq_true.1 hall c hc
  · rw [h] at hc
    exact eq_false_of_ne_true fun hspace => by
      have hall : (ascii "https://").all (fun c => !isSpace c) = true := rfl
      simpa [hspace] using List.all_eq_true.1 hall c hc

/-- A mark that ends the host begins what follows it. -/
theorem tail_cases (f : UrlForm) :
    f.tail = [] ∨ ∃ c rest, f.tail = c :: rest ∧ (c = 58 ∨ c = 47 ∨ c = 63 ∨ c = 35) := by
  unfold tail
  cases f.port with
  | some text => exact .inr ⟨58, _, rfl, .inl rfl⟩
  | none =>
      cases f.path with
      | some text => exact .inr ⟨47, _, rfl, .inr (.inl rfl)⟩
      | none =>
          cases f.query with
          | some text => exact .inr ⟨63, _, rfl, .inr (.inr (.inl rfl))⟩
          | none =>
              cases f.fragment with
              | some text => exact .inr ⟨35, _, rfl, .inr (.inr (.inr rfl))⟩
              | none => exact .inl rfl

/-- What follows the host once white space at the end is gone begins as before. -/
theorem trimmed_cases (f : UrlForm) :
    f.tail.rdropWhile isSpace = [] ∨
      ∃ c rest, f.tail.rdropWhile isSpace = c :: rest ∧ (c = 58 ∨ c = 47 ∨ c = 63 ∨ c = 35) := by
  obtain h | ⟨c, rest, h, hmark⟩ := f.tail_cases
  · rw [h]
    exact .inl rfl
  · have hsolid : ∀ d ∈ [c], isSpace d = false := by
      intro d hd
      rw [List.mem_singleton.1 hd]
      obtain rfl | rfl | rfl | rfl := hmark <;> rfl
    refine .inr ⟨c, rest.rdropWhile isSpace, ?_, hmark⟩
    rw [h]
    exact rdropWhile_append_of_neg hsolid rest

theorem text_solid (f : UrlForm) : ∀ c ∈ f.text.head?, isSpace c = false := by
  intro c hc
  unfold text at hc
  cases hscheme : f.scheme with
  | cons d rest =>
      rw [hscheme] at hc
      obtain rfl : d = c := Option.some.inj hc
      exact f.scheme_solid d (by rw [hscheme]; exact List.mem_cons_self)
  | nil =>
      rw [hscheme] at hc
      cases hhost : f.host with
      | cons d rest =>
          rw [hhost] at hc
          obtain rfl : d = c := Option.some.inj hc
          exact (f.hhost d (by rw [hhost]; exact List.mem_cons_self)).2
      | nil =>
          rw [hhost] at hc
          obtain h | ⟨d, rest, h, hmark⟩ := f.tail_cases
          · rw [h] at hc
            cases hc
          · rw [h] at hc
            obtain rfl : d = c := Option.some.inj hc
            obtain rfl | rfl | rfl | rfl := hmark <;> rfl

/-- White space around a URL is trimmed, and none inside it before the host ends. -/
theorem Spells.sanitized {f : UrlForm} {s : Bytes} (h : f.Spells s) :
    (s.dropWhile isSpace).rdropWhile isSpace = f.scheme ++ (f.host ++ f.tail.rdropWhile isSpace) := by
  obtain ⟨left, right, rfl, hspace, -⟩ := h
  have hleft : ∀ c ∈ left, isSpace c = true := fun c hc => hspace c (List.mem_append_left right hc)
  have hright : ∀ c ∈ right, isSpace c = true := fun c hc => hspace c (List.mem_append_right left hc)
  have hdrop : ((f.text ++ right).dropWhile isSpace).rdropWhile isSpace = f.text.rdropWhile isSpace := by
    cases htext : f.text with
    | nil =>
        rw [List.nil_append, List.dropWhile_eq_nil_iff.2 hright]
    | cons c rest =>
        have hsolid : ¬isSpace c = true := by
          rw [f.text_solid c (by rw [htext]; rfl)]
          exact Bool.false_ne_true
        rw [List.cons_append, List.dropWhile_cons_of_neg hsolid, ← List.cons_append, rdropWhile_append_of_pos hright]
  calc ((left ++ (f.text ++ right)).dropWhile isSpace).rdropWhile isSpace
      = ((f.text ++ right).dropWhile isSpace).rdropWhile isSpace := by rw [List.dropWhile_append_of_pos hleft]
    _ = (f.scheme ++ (f.host ++ f.tail)).rdropWhile isSpace := hdrop
    _ = f.scheme ++ (f.host ++ f.tail.rdropWhile isSpace) := by
        rw [rdropWhile_append_of_neg f.scheme_solid, rdropWhile_append_of_neg fun c hc => (f.hhost c hc).2]

theorem Spells.afterScheme {f : UrlForm} {s : Bytes} (h : f.Spells s) :
    Client.afterScheme s = f.host ++ f.tail.rdropWhile isSpace := by
  have hsanitized := h.sanitized
  obtain ⟨-, -, -, -, hplain⟩ := h
  rw [Client.afterScheme, hsanitized]
  obtain hscheme | hscheme | hscheme := f.hscheme
  · have hstart : f.host ++ f.tail.rdropWhile isSpace <+: f.text := by
      rw [text, hscheme, List.nil_append, List.prefix_append_right_inj]
      exact List.rdropWhile_prefix isSpace f.tail
    rw [hscheme, List.nil_append, if_neg fun hp => (hplain hscheme).1 (hp.trans hstart),
      if_neg fun hp => (hplain hscheme).2 (hp.trans hstart), List.drop_zero]
  · have hother : ¬ascii "https://" <+: ascii "http://" ++ (f.host ++ f.tail.rdropWhile isSpace) := by
      rintro ⟨rest, hrest⟩
      have hfifth := congrArg (fun t => t[4]?) hrest
      exact absurd (Option.some.inj hfifth) (by decide)
    rw [hscheme, if_neg hother, if_pos (List.prefix_append _ _)]
    rfl
  · rw [hscheme, if_pos (List.prefix_append _ _)]
    rfl

end UrlForm

/-! ### The three parts -/

theorem parseURL_returns_iff {s dns : Bytes} : (parseURL s).Returns dns ↔ s ≠ [] ∧ dnsOf s ≠ [] ∧ dnsOf s = dns := by
  unfold parseURL
  split_ifs with hempty hdns
  · exact iff_of_false Fallible.not_returns_throw fun h => h.1 hempty
  · exact iff_of_false Fallible.not_returns_throw fun h => h.2.1 hdns
  · rw [Fallible.returns_pure_iff, and_iff_right hempty, and_iff_right hdns]

theorem parseURL_refuses {s : Bytes} (hs : s ≠ []) (hdns : dnsOf s = []) :
    ∃ failure : Failure, (parseURL s).run = .ok (.error failure) ∧ failure.result.code = .parsingDnsInfo := by
  rw [parseURL, if_neg hs, if_pos hdns]
  exact ⟨_, rfl, rfl⟩

/-- Behind a plain host, a URL goes on with a slash or a colon, if at all. -/
theorem hostPart_of_spells {f : UrlForm} {s : Bytes} (h : f.Spells s) (hplain : PlainHost (afterScheme s)) :
    hostPart (afterScheme s) = f.host := by
  have hinside : ∀ c ∈ f.host, decide (c ≠ 47 ∧ c ≠ 58) = true := by
    intro c hc
    have hmark := (f.hhost c hc).1
    refine decide_eq_true ⟨?_, ?_⟩
    all_goals
      rintro rfl
      exact absurd hmark (by decide)
  have hpart : hostPart (f.host ++ f.tail.rdropWhile isSpace) = f.host ++ hostPart (f.tail.rdropWhile isSpace) :=
    List.takeWhile_append_of_pos hinside
  have hstop : hostPart (f.tail.rdropWhile isSpace) = [] := by
    obtain htail | ⟨c, rest, htail, hmark⟩ := f.trimmed_cases
    · rw [htail]
      rfl
    · have hforbidden : ∀ hc : c = 63 ∨ c = 35, False := by
        intro hc
        have hmem : c ∈ hostPart (afterScheme s) := by
          rw [h.afterScheme, hpart, htail, hostPart_cons]
          · exact List.mem_append_right _ List.mem_cons_self
          · obtain rfl | rfl := hc <;> decide
          · obtain rfl | rfl := hc <;> decide
        exact hc.elim (hplain.2 c hmem).1 (hplain.2 c hmem).2.1
      rw [htail]
      obtain rfl | rfl | hc | hc := hmark
      · rfl
      · rfl
      · exact (hforbidden (.inl hc)).elim
      · exact (hforbidden (.inr hc)).elim
  rw [h.afterScheme, hpart, hstop, List.append_nil]

/-- The URL without any piece. -/
def emptyForm : UrlForm where
  scheme := []
  host := []
  port := none
  path := none
  query := none
  fragment := none
  hscheme := .inl rfl
  hhost := nofun
  hport := nofun
  hpath := nofun
  hquery := nofun

theorem emptyForm_spells : emptyForm.Spells [] :=
  ⟨[], [], rfl, nofun, fun _ => ⟨by decide, by decide⟩⟩

/-- `Attest` asks what it composes from the host it has found. -/
theorem attestationUrl_returns {J : Jsoncpp} {M : Machine} {params : ClientParameters} {hasOut : Bool} {s url : Bytes}
    (hs : params.attestationEndpointUrl = some s) (h : (attestationUrl J M params hasOut).Returns url) :
    ∃ dns, (parseURL s).Returns dns ∧ url = azureGuestProtocol ++ (dns ++ azureGuestUrl) := by
  rw [attestationUrl, Fallible.returns_bind_iff] at h
  obtain ⟨dns, hopen, hurl⟩ := h
  refine ⟨dns, ?_, (Fallible.returns_pure_iff.1 hurl).symm⟩
  rw [openEndpoint, hs] at hopen
  dsimp only at hopen
  split_ifs at hopen with hinput
  · exact absurd hopen Fallible.not_returns_throw
  · rw [Fallible.returns_bind_iff] at hopen
    obtain ⟨_, -, hparse⟩ := hopen
    exact hparse

theorem asks_of_domain {dns : Bytes} (h : ∀ c ∈ dns, isMark c = false) :
    Url.Asks (azureGuestProtocol ++ (dns ++ azureGuestUrl)) dns azureGuestUrl := by
  refine Url.asks_append (c := 47) (fun c hc => ?_) (fun hc => ?_) (fun hc => ?_) rfl
  · have hmark := h c hc
    simp only [isMark, Bool.or_eq_false_iff, decide_eq_false_iff_not] at hmark
    simp [Url.isDelimiter, hmark]
  · exact absurd (h 64 hc) (by decide)
  · exact absurd (h 58 hc) (by decide)

/-- **The endpoint is sound exactly when the URL is not empty and its host is plain.** A question mark or a number sign
that stands directly behind the host stays in what is found, and so does user information; a slash in the place of the
host is taken for it. -/
theorem endpointSound_iff (s : Bytes) : EndpointSound s ↔ s ≠ [] ∧ PlainHost (afterScheme s) := by
  constructor
  · intro h
    have hs : s ≠ [] := by
      rintro rfl
      obtain ⟨failure, hrun, hcode⟩ := h.refused emptyForm emptyForm_spells rfl
      rw [parseURL, if_pos rfl] at hrun
      obtain rfl := Except.error.inj (Except.ok.inj hrun)
      cases hcode
    refine ⟨hs, (plainHost_iff s).2 fun c hc => ?_⟩
    have hdns : dnsOf s ≠ [] := List.ne_nil_of_mem hc
    exact h.domain _ (parseURL_returns_iff.2 ⟨hs, hdns, rfl⟩) c hc
  · rintro ⟨hs, hplain⟩
    have hdomain : ∀ dns, (parseURL s).Returns dns → ∀ c ∈ dns, isMark c = false := by
      intro dns hdns
      obtain ⟨-, -, rfl⟩ := parseURL_returns_iff.1 hdns
      exact (plainHost_iff s).1 hplain
    have hfound : ∀ f : UrlForm, f.Spells s → dnsOf s = f.host := fun f hf =>
      (dnsOf_of_plainHost hplain).trans (hostPart_of_spells hf hplain)
    refine ⟨fun f hf hhost => ?_, fun f hf hhost => ?_, hdomain, fun J M params hasOut url hparams hurl => ?_⟩
    · exact parseURL_returns_iff.2 ⟨hs, by rw [hfound f hf]; exact hhost, hfound f hf⟩
    · exact parseURL_refuses hs (by rw [hfound f hf, hhost])
    · obtain ⟨dns, hdns, rfl⟩ := attestationUrl_returns hparams hurl
      exact ⟨dns, hdns, asks_of_domain (hdomain dns hdns)⟩

/-- A query directly behind the host becomes a part of it. -/
theorem endpointSound_query : ¬EndpointSound (ascii "https://h?x=1") := by
  intro h
  have hreturns : (parseURL (ascii "https://h?x=1")).Returns (ascii "h?x=1") := rfl
  exact absurd (h.domain _ hreturns 63 (by decide)) (by decide)

end CvmAttestation.Client
