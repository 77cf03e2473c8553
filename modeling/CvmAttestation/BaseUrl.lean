import CvmAttestation.BaseBytes
import CvmAttestation.BaseNumeral
import Mathlib.Data.List.DropRight
import Mathlib.Data.List.Infix

/-! URLs of web servers in the generic syntax: a scheme, after which comes an authority of user information, the name of
a host and a port, and then a path, a query and a fragment. A client is anything that sends a request with such a URL to
its host; what it makes of other texts is its own. Schemes and hosts are compared without regard to case. -/

namespace CvmAttestation.Base.Url

def lower (s : Bytes) : Bytes := s.map fun c => if 65 ≤ c ∧ c ≤ 90 then c + 32 else c

def isDelimiter (c : UInt8) : Bool := c == 47 || c == 63 || c == 35

def isLetter (c : UInt8) : Bool := (65 ≤ c && c ≤ 90) || (97 ≤ c && c ≤ 122)

/-- A letter, a digit or a hyphen. -/
def isLabelChar (c : UInt8) : Bool := isLetter c || Numeral.isDigit c || c == 45

/-- What user information may hold without an escape; the colon stands before a password. -/
def isUserChar (c : UInt8) : Bool := isLabelChar c || c == 46 || c == 95 || c == 126 || c == 58

/-- A printable character other than the blank. -/
def isVisible (c : UInt8) : Bool := 33 ≤ c && c ≤ 126

/-- The name of a host: labels with dots between them, the last one of letters, so that it is not an address. -/
structure IsName (host : Bytes) : Prop where
  short : host.length ≤ 255
  plain : ∀ c ∈ host, isLabelChar c = true ∨ c = 46
  top : ∃ labels label, host = labels ++ label ∧ (labels = [] ∨ labels.getLast? = some 46) ∧ label ≠ [] ∧
    ∀ c ∈ label, isLetter c = true

structure IsPort (text : Bytes) : Prop where
  short : text.length ≤ 5
  decimal : Numeral.Decimal text
  range : 1 ≤ Numeral.value text ∧ Numeral.value text ≤ 65535

/-- A URL of a web server in the generic syntax, whose host has a name. -/
structure Generic where
  scheme : Bytes
  userinfo : Option Bytes
  host : Bytes
  port : Option Bytes
  rest : Bytes
  scheme_web : lower scheme = ascii "http" ∨ lower scheme = ascii "https"
  userinfo_plain : ∀ text ∈ userinfo, ∀ c ∈ text, isUserChar c = true
  host_name : IsName host
  port_range : ∀ text ∈ port, IsPort text
  rest_visible : ∀ c ∈ rest, isVisible c = true
  rest_delimited : ∀ c ∈ rest.head?, isDelimiter c = true

namespace Generic

variable (u : Generic)

def userText : Bytes := u.userinfo.elim [] fun text => text ++ [64]

def portText : Bytes := u.port.elim [] fun text => 58 :: text

def authority : Bytes := u.userText ++ (u.host ++ u.portText)

def text : Bytes := u.scheme ++ (ascii "://" ++ (u.authority ++ u.rest))

/-- The URL with something behind it that begins like a path. -/
def extend (tail : Bytes) (hvisible : ∀ c ∈ tail, isVisible c = true) (hslash : tail.head? = some 47) : Generic where
  scheme := u.scheme
  userinfo := u.userinfo
  host := u.host
  port := u.port
  rest := u.rest ++ tail
  scheme_web := u.scheme_web
  userinfo_plain := u.userinfo_plain
  host_name := u.host_name
  port_range := u.port_range
  rest_visible := List.forall_mem_append.2 ⟨u.rest_visible, hvisible⟩
  rest_delimited := by
    intro c hc
    cases hrest : u.rest with
    | nil =>
        rw [hrest, List.nil_append, hslash] at hc
        cases hc
        rfl
    | cons d rest =>
        rw [hrest] at hc
        exact u.rest_delimited c (by rw [hrest]; exact hc)

theorem text_extend {tail : Bytes} (hvisible : ∀ c ∈ tail, isVisible c = true) (hslash : tail.head? = some 47) :
    (u.extend tail hvisible hslash).text = u.text ++ tail := by
  simp only [text, extend, authority, userText, portText, List.append_assoc]

end Generic

/-- Where a request goes. -/
structure Destination where
  scheme : Bytes
  host : Bytes
  deriving DecidableEq, Repr

/-- The longest URL that is read. -/
def maxLength : ℕ := 8000000

/-- An HTTP client: where the request with a URL goes, if one is sent at all. -/
structure Client where
  destination : Bytes → Option Destination
  destination_generic : ∀ u : Generic, u.text.length ≤ maxLength →
    destination u.text = some ⟨lower u.scheme, lower u.host⟩

/-- A request that is sent uses https and goes to a host with a name that ends as given. -/
def Client.Secure (C : Client) (suffix url : Bytes) : Prop :=
  ∀ d, C.destination url = some d → d.scheme = ascii "https" ∧ suffix <:+ d.host

theorem secure_generic_iff (C : Client) (suffix : Bytes) (u : Generic) (hlen : u.text.length ≤ maxLength) :
    C.Secure suffix u.text ↔ lower u.scheme = ascii "https" ∧ suffix <:+ lower u.host := by
  rw [Client.Secure, C.destination_generic u hlen]
  constructor
  · exact fun h => h _ rfl
  · intro h d hd
    cases hd
    exact h

/-! ### Targets -/

def authority (rest : Bytes) : Bytes := rest.takeWhile fun c => !isDelimiter c

/-- What follows the authority. -/
def target (rest : Bytes) : Bytes := rest.dropWhile fun c => !isDelimiter c

/-- A request to the URL uses https, and asks a host for a target. The authority is the name of the host alone. -/
def Asks (url name goal : Bytes) : Prop :=
  ∃ rest, url = ascii "https://" ++ rest ∧ authority rest = name ∧ target rest = goal ∧ 64 ∉ name ∧ 58 ∉ name

theorem asks_append {name tail : Bytes} {c : UInt8} (hname : ∀ d ∈ name, isDelimiter d = false) (huser : 64 ∉ name)
    (hport : 58 ∉ name) (hc : isDelimiter c = true) : Asks (ascii "https://" ++ (name ++ c :: tail)) name (c :: tail) := by
  have hinside : ∀ d ∈ name, (!isDelimiter d) = true := by
    intro d hd
    rw [hname d hd]
    rfl
  have hstop : (!isDelimiter c) ≠ true := by
    rw [hc]
    decide
  refine ⟨name ++ c :: tail, rfl, ?_, ?_, huser, hport⟩
  · rw [authority, List.takeWhile_append_of_pos hinside, List.takeWhile_cons, if_neg hstop, List.append_nil]
  · rw [target, List.dropWhile_append_of_pos hinside, List.dropWhile_cons, if_neg hstop]

/-! ### Queries -/

/-- What stands between the first question mark and the number sign of a fragment. -/
def query (url : Bytes) : Option Bytes :=
  match url.dropWhile fun c => c ≠ 63 ∧ c ≠ 35 with
  | 63 :: rest => some (rest.takeWhile (· ≠ 35))
  | _ => none

theorem query_append {base : Bytes} (hquestion : 63 ∉ base) (hnumber : 35 ∉ base) (rest : Bytes) :
    query (base ++ 63 :: rest) = some (rest.takeWhile (· ≠ 35)) := by
  have hbase : ∀ c ∈ base, decide (c ≠ 63 ∧ c ≠ 35) = true :=
    fun c hc => decide_eq_true ⟨ne_of_mem_of_not_mem hc hquestion, ne_of_mem_of_not_mem hc hnumber⟩
  have hdrop : (base ++ 63 :: rest).dropWhile (fun c => c ≠ 63 ∧ c ≠ 35) = 63 :: rest := by
    rw [List.dropWhile_append_of_pos hbase]
    rfl
  rw [query, hdrop]
  rfl

/-- A URL without a question mark before its fragment has no query. -/
theorem query_eq_none_iff (url : Bytes) : query url = none ↔ 63 ∉ url.takeWhile (· ≠ 35) := by
  induction url with
  | nil => simp [query]
  | cons c url ih =>
      by_cases hquestion : c = 63
      · subst hquestion
        exact iff_of_false (by simp [query]) (by simp)
      · by_cases hnumber : c = 35
        · subst hnumber
          exact iff_of_true rfl (by simp)
        · have hdrop : (c :: url).dropWhile (fun c => c ≠ 63 ∧ c ≠ 35) = url.dropWhile fun c => c ≠ 63 ∧ c ≠ 35 := by
            rw [List.dropWhile_cons_of_pos]
            exact decide_eq_true ⟨hquestion, hnumber⟩
          have htake : (c :: url).takeWhile (· ≠ 35) = c :: url.takeWhile (· ≠ 35) := by
            rw [List.takeWhile_cons_of_pos]
            exact decide_eq_true hnumber
          have hquery : query (c :: url) = query url := by rw [query, query, hdrop]
          rw [hquery, ih, htake, List.mem_cons, not_or, and_iff_right (Ne.symm hquestion)]

/-! ### A client -/

section

variable (u : Generic)

theorem ne_of_class {p : UInt8 → Bool} {c d : UInt8} (hc : p c = true) (hd : p d = false) : c ≠ d := by
  rintro rfl
  rw [hc] at hd
  cases hd

/-- A class of characters without the three delimiters. -/
theorem isDelimiter_eq_false {p : UInt8 → Bool} {c : UInt8} (hc : p c = true) (hslash : p 47 = false)
    (hquestion : p 63 = false) (hnumber : p 35 = false) : isDelimiter c = false := by
  simp [isDelimiter, ne_of_class hc hslash, ne_of_class hc hquestion, ne_of_class hc hnumber]

theorem isUserChar_of_isLabelChar {c : UInt8} (h : isLabelChar c = true) : isUserChar c = true := by
  rw [isUserChar, h]
  rfl

theorem Generic.host_chars {c : UInt8} (hc : c ∈ u.host) : isUserChar c = true ∧ c ≠ 58 := by
  rcases u.host_name.plain c hc with h | rfl
  · exact ⟨isUserChar_of_isLabelChar h, ne_of_class h rfl⟩
  · decide

theorem Generic.portText_chars {c : UInt8} (hc : c ∈ u.portText) : isUserChar c = true := by
  rw [portText] at hc
  cases hport : u.port with
  | none =>
      rw [hport] at hc
      cases hc
  | some text =>
      rw [hport, Option.elim_some, List.mem_cons] at hc
      rcases hc with rfl | hc
      · rfl
      · have hdigit := List.all_eq_true.1 (u.port_range text hport).decimal.2 c hc
        apply isUserChar_of_isLabelChar
        rw [isLabelChar, hdigit, Bool.or_true]
        rfl

/-- An authority is made of the characters of user information, and the at sign behind it. -/
theorem Generic.authority_chars {c : UInt8} (hc : c ∈ u.authority) : isUserChar c = true ∨ c = 64 := by
  rw [authority, List.mem_append, List.mem_append] at hc
  rcases hc with hc | hc | hc
  · rw [userText] at hc
    cases huser : u.userinfo with
    | none =>
        rw [huser] at hc
        cases hc
    | some text =>
        rw [huser, Option.elim_some, List.mem_append, List.mem_singleton] at hc
        exact hc.imp_left (u.userinfo_plain text huser c)
  · exact .inl (u.host_chars hc).1
  · exact .inl (u.portText_chars hc)

/-- A character that is in neither of the two schemes. -/
theorem Generic.notMem_scheme {c : UInt8} (hc : lower [c] = [c]) (hhttp : c ∉ ascii "http") (hhttps : c ∉ ascii "https") :
    c ∉ u.scheme := by
  intro hmem
  have hlower : c ∈ lower u.scheme := List.mem_map.2 ⟨c, hmem, List.cons.inj hc |>.1⟩
  rcases u.scheme_web with h | h
  · exact hhttp (h ▸ hlower)
  · exact hhttps (h ▸ hlower)

theorem Generic.authority_text : Url.authority (u.authority ++ u.rest) = u.authority := by
  have hinside : ∀ c ∈ u.authority, (!isDelimiter c) = true := by
    intro c hc
    rw [Bool.not_eq_true']
    rcases u.authority_chars hc with h | rfl
    · exact isDelimiter_eq_false h rfl rfl rfl
    · rfl
  have hstop : u.rest.takeWhile (fun c => !isDelimiter c) = [] := by
    have hdelimited := u.rest_delimited
    cases hrest : u.rest with
    | nil => rfl
    | cons c rest =>
        rw [hrest] at hdelimited
        rw [List.takeWhile_cons, hdelimited c rfl]
        rfl
  rw [Url.authority, List.takeWhile_append_of_pos hinside, hstop, List.append_nil]

/-- No character of a URL is zero. -/
theorem Generic.zero_notMem_text : 0 ∉ u.text := by
  intro hzero
  rw [Generic.text, List.mem_append, List.mem_append, List.mem_append] at hzero
  rcases hzero with hscheme | hmarks | hauthority | hrest
  · exact u.notMem_scheme rfl (by decide) (by decide) hscheme
  · revert hmarks
    decide
  · rcases u.authority_chars hauthority with h | h
    · exact ne_of_class h rfl rfl
    · cases h
  · exact ne_of_class (u.rest_visible 0 hrest) rfl rfl

/-- The part of an authority behind the user information, up to a port. -/
def hostPart (authority : Bytes) : Bytes := (authority.rtakeWhile (· ≠ 64)).takeWhile (· ≠ 58)

theorem Generic.hostPart_authority : hostPart u.authority = u.host := by
  have hplain : ∀ c ∈ u.host ++ u.portText, decide (c ≠ 64) = true := by
    intro c hc
    rw [List.mem_append] at hc
    rcases hc with hc | hc
    · exact decide_eq_true (ne_of_class (u.host_chars hc).1 rfl)
    · exact decide_eq_true (ne_of_class (u.portText_chars hc) rfl)
  have huser : u.authority.rtakeWhile (· ≠ 64) = u.host ++ u.portText := by
    rw [Generic.authority, Generic.userText]
    cases u.userinfo with
    | none => exact List.rtakeWhile_eq_self_iff.2 hplain
    | some text =>
        rw [Option.elim_some, List.append_assoc, List.singleton_append, List.rtakeWhile]
        rw [List.reverse_append, List.reverse_cons, List.append_assoc]
        rw [List.takeWhile_append_of_pos fun c hc => hplain c (List.mem_reverse.1 hc)]
        simp
  have hhost : ∀ c ∈ u.host, decide (c ≠ 58) = true := fun c hc => decide_eq_true (u.host_chars hc).2
  rw [hostPart, huser, List.takeWhile_append_of_pos hhost, Generic.portText]
  cases u.port with
  | none => exact List.append_nil _
  | some text => simp

end

/-- The destination that a text names when it has a scheme and an authority, with no further look at either. -/
def directDestination (url : Bytes) : Option Destination :=
  if ascii "://" <+: url.dropWhile (· ≠ 58) then
    some ⟨lower (url.takeWhile (· ≠ 58)), lower (hostPart (authority ((url.dropWhile (· ≠ 58)).drop 3)))⟩
  else none

theorem directDestination_generic (u : Generic) : directDestination u.text = some ⟨lower u.scheme, lower u.host⟩ := by
  have hscheme : ∀ c ∈ u.scheme, decide (c ≠ 58) = true := by
    intro c hc
    rw [decide_eq_true_eq]
    rintro rfl
    exact u.notMem_scheme rfl (by decide) (by decide) hc
  have hdrop : u.text.dropWhile (· ≠ 58) = ascii "://" ++ (u.authority ++ u.rest) := by
    rw [Generic.text, List.dropWhile_append_of_pos hscheme]
    rfl
  have htake : u.text.takeWhile (· ≠ 58) = u.scheme := by
    rw [Generic.text, List.takeWhile_append_of_pos hscheme]
    exact List.append_nil _
  have hrest : (ascii "://" ++ (u.authority ++ u.rest)).drop 3 = u.authority ++ u.rest := rfl
  rw [directDestination, hdrop, htake, if_pos (List.prefix_append _ _), hrest, u.authority_text, u.hostPart_authority]

/-- A client that sends a request wherever there is a scheme and an authority. -/
def directClient : Client := ⟨directDestination, fun u _ => directDestination_generic u⟩

end CvmAttestation.Base.Url
