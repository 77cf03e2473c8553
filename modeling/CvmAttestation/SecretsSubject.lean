import CvmAttestation.BaseOccurrence
import CvmAttestation.SecretsParse
import Mathlib.Data.List.TakeWhile

/-! The common name in the subject of a certificate. On Linux it is read from the attributes of the subject; on Windows
the subject is rendered as a text, and the common name is searched for in that text. The check of the subject suffix is
the same on both. -/

namespace CvmAttestation.Secrets

open Base

/-- An attribute of a subject under its X.500 name. -/
structure Attribute where
  key : Bytes
  value : Bytes
  hkey : 61 ∉ key

/-- Which values `CertNameToStrA` puts in quotation marks: at least those with a comma, an equals sign or a quotation
mark. -/
structure Quoting where
  quoted : Bytes → Bool
  hquoted : ∀ value, 44 ∈ value ∨ 61 ∈ value ∨ 34 ∈ value → quoted value = true

/-- Every quotation mark is written twice. -/
def doubled (value : Bytes) : Bytes := value.flatMap fun c => if c = 34 then [34, 34] else [c]

def keyCN : Bytes := ascii "CN"

namespace Quoting

variable (Q : Quoting)

def renderValue (value : Bytes) : Bytes := if Q.quoted value then 34 :: (doubled value ++ [34]) else value

def render (a : Attribute) : Bytes := a.key ++ 61 :: Q.renderValue a.value

/-- `CertNameToStrA`, for X.500 names. -/
def certNameToStr : List Attribute → Bytes
  | [] => []
  | [a] => Q.render a
  | a :: b :: subject => Q.render a ++ (ascii ", " ++ certNameToStr (b :: subject))

end Quoting

/-! ### The common name on Windows -/

def extractFieldFromDN (dn field : Bytes) : Bytes :=
  match dn.dropInfix? (field ++ ascii "=") with
  | none => []
  | some (_, rest) => rest.takeWhile (· ≠ 44)

/-- `VerifySubjectSuffix` once the common name is known. -/
def endsWithSuffix (commonName expectedSuffix : Bytes) : Bool :=
  if commonName.isEmpty then false
  else
    let lowerCommonName := commonName.map toLower
    let lowerSuffix := expectedSuffix.map toLower
    decide (lowerSuffix.length ≤ lowerCommonName.length) &&
      decide (lowerCommonName.drop (lowerCommonName.length - lowerSuffix.length) = lowerSuffix)

namespace Wincrypt

variable (Q : Quoting) (subject : List Attribute)

def getCommonName : Bytes :=
  let subjectName := Q.certNameToStr subject
  if subjectName.isEmpty then [] else extractFieldFromDN subjectName keyCN

def verifySubjectSuffix (expectedSuffix : Bytes) : Bool := endsWithSuffix (getCommonName Q subject) expectedSuffix

end Wincrypt

/-! ### The common name on Linux -/

namespace Ossl

variable (subject : List Attribute)

/-- The value of the first attribute that is a common name. -/
def getCommonName : Bytes :=
  match subject.find? fun a => a.key = keyCN with
  | none => []
  | some a => a.value

def verifySubjectSuffix (expectedSuffix : Bytes) : Bool :=
  if expectedSuffix.isEmpty then false else endsWithSuffix (getCommonName subject) expectedSuffix

/-- The check of a certificate store whose leaf has the subject. -/
theorem verifySubjectSuffix_eq {L : X509Library} {x509 : OsslX509 L}
    (h : L.commonName x509.leafCert = getCommonName subject) (expectedSuffix : Bytes) :
    x509.verifySubjectSuffix expectedSuffix = verifySubjectSuffix subject expectedSuffix := by
  rw [OsslX509.verifySubjectSuffix, verifySubjectSuffix, h]
  rfl

end Ossl

/-! ### What is expected -/

/-- On Windows the common name is the one of Linux, the two checks of a suffix agree and do what they are for, and no
other attribute is taken for the common name. -/
structure SubjectSound (Q : Quoting) (subject : List Attribute) : Prop where
  extracted : extractFieldFromDN (Q.certNameToStr subject) keyCN = Ossl.getCommonName subject
  agree : ∀ suffix, suffix ≠ [] → Wincrypt.verifySubjectSuffix Q subject suffix = Ossl.verifySubjectSuffix subject suffix
  checks : ∀ suffix, suffix ≠ [] → (Ossl.verifySubjectSuffix subject suffix = true ↔
    suffix.map toLower <:+ (Ossl.getCommonName subject).map toLower)
  own : Wincrypt.getCommonName Q subject = [] ∨
    ∃ a ∈ subject, a.key = keyCN ∧ a.value = Wincrypt.getCommonName Q subject

/-- What the search for a common name can stop at: a key with the two letters at its end, or a value with what looks
like a common name in it. -/
def Attribute.Mentions (a : Attribute) : Prop := keyCN <:+ a.key ∨ keyCN ++ ascii "=" <:+: a.value

instance (a : Attribute) : Decidable a.Mentions :=
  inferInstanceAs (Decidable (keyCN <:+ a.key ∨ keyCN ++ ascii "=" <:+: a.value))

/-- In the rendered attribute, the text stands behind what looks like the key of a common name, up to a comma or the
end. -/
def Quoting.Shows (Q : Quoting) (a : Attribute) (text : Bytes) : Prop :=
  ∃ rest, After (keyCN ++ ascii "=") (Q.render a) rest ∧ text = rest.takeWhile (· ≠ 44)

/-! ### Quoted values -/

theorem doubled_cons (c : UInt8) (value : Bytes) :
    doubled (c :: value) = (if c = 34 then [34, 34] else [c]) ++ doubled value :=
  List.flatMap_cons ..

theorem mem_doubled {value : Bytes} {c : UInt8} (h : c ∈ doubled value) : c ∈ value := by
  induction value with
  | nil => exact h
  | cons d value ih =>
      rw [doubled_cons, List.mem_append] at h
      rcases h with h | h
      · have hd : c = d := by
          split_ifs at h with hquote
          · rw [List.mem_cons, List.mem_singleton, or_self] at h
            rw [h, hquote]
          · exact List.mem_singleton.1 h
        rw [hd]
        exact List.mem_cons_self
      · exact List.mem_cons_of_mem d (ih h)

theorem length_le_doubled (value : Bytes) : value.length ≤ (doubled value).length := by
  induction value with
  | nil => exact le_rfl
  | cons c value ih =>
      rw [doubled_cons, List.length_append, List.length_cons]
      split_ifs
      · rw [List.length_cons, List.length_singleton]
        omega
      · rw [List.length_singleton]
        omega

section

variable {pattern value : Bytes} (h : 34 ∉ pattern)

include h in
theorem prefix_of_doubled (hstart : pattern <+: doubled value) : pattern <+: value := by
  induction pattern generalizing value with
  | nil => exact List.nil_prefix
  | cons p pattern ih =>
      rw [List.mem_cons, not_or] at h
      cases value with
      | nil => exact hstart
      | cons c value =>
          rw [doubled_cons] at hstart
          split_ifs at hstart with hc
          · exact absurd (List.cons_prefix_cons.1 hstart).1.symm h.1
          · obtain ⟨rfl, htail⟩ := List.cons_prefix_cons.1 hstart
            exact List.cons_prefix_cons.2 ⟨rfl, ih h.2 htail⟩

include h in
/-- A pattern without quotation marks occurs in a quoted value where it occurs in the value. -/
theorem infix_doubled_iff : pattern <:+: doubled value ↔ pattern <:+: value := by
  constructor
  · intro hoccurs
    induction value with
    | nil => exact hoccurs
    | cons c value ih =>
        rw [doubled_cons] at hoccurs
        split_ifs at hoccurs with hc
        · have hskip : [(34 : UInt8), 34] ++ doubled value = [] ++ 34 :: ([] ++ 34 :: doubled value) := rfl
          rw [hskip, infix_append_cons_iff h, infix_append_cons_iff h] at hoccurs
          rcases hoccurs with hnil | hnil | hoccurs
          · exact hnil.trans List.nil_infix
          · exact hnil.trans List.nil_infix
          · exact (ih hoccurs).trans (List.suffix_cons c value).isInfix
        · rw [List.singleton_append, List.infix_cons_iff] at hoccurs
          rcases hoccurs with hstart | hoccurs
          · have hwhole : pattern <+: doubled (c :: value) := by
              rw [doubled_cons, if_neg hc]
              exact hstart
            exact (prefix_of_doubled h hwhole).isInfix
          · exact (ih hoccurs).trans (List.suffix_cons c value).isInfix
  · rintro ⟨p, r, rfl⟩
    have hkept : doubled pattern = pattern := by
      calc pattern.flatMap (fun c => if c = 34 then [34, 34] else [c])
          = pattern.flatMap fun c => [c] := List.flatMap_congr fun c hc => if_neg (ne_of_mem_of_not_mem hc h)
        _ = pattern := List.flatMap_singleton' pattern
    have hparts : doubled (p ++ pattern ++ r) = doubled p ++ pattern ++ doubled r := by
      rw [doubled, List.flatMap_append, List.flatMap_append]
      conv_rhs => rw [← hkept]
      rfl
    exact ⟨doubled p, doubled r, hparts.symm⟩

end

/-! ### The search in a rendered subject -/

/-- What is searched for. -/
abbrev patternCN : Bytes := keyCN ++ ascii "="

section

variable (Q : Quoting)

theorem infix_renderValue_iff (value : Bytes) : patternCN <:+: Q.renderValue value ↔ patternCN <:+: value := by
  unfold Quoting.renderValue
  split_ifs with hquoted
  · have hparts : (34 : UInt8) :: (doubled value ++ [34]) = [] ++ 34 :: (doubled value ++ 34 :: []) := rfl
    have hnil : ¬patternCN <:+: [] := by decide
    rw [hparts, infix_append_cons_iff (by decide), infix_append_cons_iff (by decide), infix_doubled_iff (by decide)]
    simp only [hnil, false_or, or_false]
  · exact Iff.rfl

/-- The pattern ends with an equals sign, and the first one of a rendered attribute follows its key. -/
theorem infix_key_iff {key tail : Bytes} (hkey : 61 ∉ key) :
    patternCN <:+: key ++ 61 :: tail ↔ keyCN <:+ key ∨ patternCN <:+: tail := by
  constructor
  · intro h
    induction key with
    | nil =>
        rcases List.infix_cons_iff.1 h with hstart | h
        · cases (List.cons_prefix_cons.1 hstart).1
        · exact .inr h
    | cons k key ih =>
        rw [List.mem_cons, not_or] at hkey
        rcases List.infix_cons_iff.1 h with hstart | h
        · obtain ⟨hk, hstart⟩ := List.cons_prefix_cons.1 hstart
          cases key with
          | nil => cases (List.cons_prefix_cons.1 hstart).1
          | cons k' key =>
              obtain ⟨hk', hstart⟩ := List.cons_prefix_cons.1 hstart
              cases key with
              | nil => exact .inl ⟨[], by rw [← hk, ← hk']; rfl⟩
              | cons k'' key =>
                  have hequals : 61 = k'' := (List.cons_prefix_cons.1 hstart).1
                  exact absurd (by rw [← hequals]; exact List.mem_cons_of_mem _ List.mem_cons_self) hkey.2
        · exact (ih hkey.2 h).imp_left fun hsuffix => hsuffix.trans (List.suffix_cons k key)
  · rintro (⟨k, rfl⟩ | h)
    · exact ⟨k, tail, by simp [patternCN, ascii]⟩
    · exact h.trans ((List.suffix_cons 61 tail).trans (List.suffix_append key (61 :: tail))).isInfix

theorem mentions_iff (a : Attribute) : a.Mentions ↔ patternCN <:+: Q.render a := by
  rw [Attribute.Mentions, Quoting.render, infix_key_iff a.hkey, infix_renderValue_iff]

/-- A rendered subject begins with its first attribute, and goes on with a comma, if at all. -/
theorem certNameToStr_cons (a : Attribute) (subject : List Attribute) :
    ∃ t, Q.certNameToStr (a :: subject) = Q.render a ++ t ∧ ∀ c ∈ t.head?, c = 44 := by
  cases subject with
  | nil => exact ⟨[], (List.append_nil _).symm, nofun⟩
  | cons b subject => exact ⟨_, rfl, fun c hc => (Option.some.inj hc).symm⟩

/-- The search stops in the first attribute that mentions a common name. -/
theorem after_certNameToStr {subject : List Attribute} {a : Attribute} {rest : Bytes}
    (h : subject.find? (fun a => a.Mentions) = some a) (hrest : After patternCN (Q.render a) rest) :
    ∃ t, After patternCN (Q.certNameToStr subject) (rest ++ t) ∧ ∀ c ∈ t.head?, c = 44 := by
  induction subject with
  | nil => cases h
  | cons b subject ih =>
      by_cases hb : b.Mentions
      · rw [List.find?_cons, decide_eq_true hb] at h
        obtain rfl := Option.some.inj h
        obtain ⟨t, ht, hcomma⟩ := certNameToStr_cons Q b subject
        refine ⟨t, ?_, hcomma⟩
        rw [ht]
        exact hrest.append t
      · rw [List.find?_cons_of_neg (by simpa using hb)] at h
        obtain ⟨t, ht, hcomma⟩ := ih h
        cases subject with
        | nil => cases h
        | cons c subject =>
            refine ⟨t, ?_, hcomma⟩
            have hspace : After patternCN ([] ++ 32 :: Q.certNameToStr (c :: subject)) (rest ++ t) :=
              ht.skip (by decide) (by decide)
            exact hspace.skip (c := 44) (by decide) (mt (mentions_iff Q b).2 hb)

theorem not_infix_certNameToStr {subject : List Attribute} (h : ∀ a ∈ subject, ¬a.Mentions) :
    ¬patternCN <:+: Q.certNameToStr subject := by
  induction subject with
  | nil =>
      show ¬patternCN <:+: []
      decide
  | cons b subject ih =>
      rw [List.forall_mem_cons] at h
      have hb := mt (mentions_iff Q b).2 h.1
      cases subject with
      | nil => exact hb
      | cons c subject =>
          have hparts : Q.certNameToStr (b :: c :: subject) =
              Q.render b ++ 44 :: ([] ++ 32 :: Q.certNameToStr (c :: subject)) := rfl
          rw [hparts, infix_append_cons_iff (by decide), infix_append_cons_iff (by decide), not_or, not_or]
          exact ⟨hb, by decide, ih h.2⟩

theorem extractFieldFromDN_of_after {dn rest : Bytes} (h : After patternCN dn rest) :
    extractFieldFromDN dn keyCN = rest.takeWhile (· ≠ 44) := by
  obtain ⟨before, hdn⟩ := h
  rw [extractFieldFromDN, dropInfix_eq_some_iff.2 hdn]

theorem takeWhile_append_comma (rest : Bytes) {t : Bytes} (ht : ∀ c ∈ t.head?, c = 44) :
    (rest ++ t).takeWhile (· ≠ 44) = rest.takeWhile (· ≠ 44) := by
  have hstop : t.takeWhile (· ≠ 44) = [] := by
    cases t with
    | nil => rfl
    | cons c t =>
        obtain rfl := ht c rfl
        rfl
  rw [List.takeWhile_append]
  split_ifs with hall
  · rw [hstop, List.append_nil]
    exact ((List.takeWhile_prefix _).eq_of_length hall).symm
  · rfl

/-- **What is extracted** is what the first attribute shows that mentions a common name, and nothing if none does. -/
theorem extractFieldFromDN_iff (subject : List Attribute) (text : Bytes) :
    extractFieldFromDN (Q.certNameToStr subject) keyCN = text ↔
      match subject.find? fun a => a.Mentions with
      | none => text = []
      | some a => Q.Shows a text := by
  cases hfind : subject.find? fun a => a.Mentions with
  | none =>
      have hnone : ∀ a ∈ subject, ¬a.Mentions := fun a ha => by simpa using List.find?_eq_none.1 hfind a ha
      rw [extractFieldFromDN, dropInfix_eq_none (not_infix_certNameToStr Q hnone)]
      exact eq_comm
  | some a =>
      have ha : a.Mentions := of_decide_eq_true (List.find?_some (p := fun a : Attribute => decide a.Mentions) hfind)
      obtain ⟨rest, hrest⟩ := exists_after ((mentions_iff Q a).1 ha)
      obtain ⟨t, ht, hcomma⟩ := after_certNameToStr Q hfind hrest
      rw [extractFieldFromDN_of_after ht, takeWhile_append_comma rest hcomma]
      constructor
      · rintro rfl
        exact ⟨rest, hrest, rfl⟩
      · rintro ⟨rest', hrest', rfl⟩
        rw [hrest.unique hrest']

/-- A common name shows its value exactly when it is rendered without quotation marks. -/
theorem shows_value_iff {a : Attribute} (h : a.key = keyCN) : Q.Shows a a.value ↔ Q.quoted a.value = false := by
  have hafter : After patternCN (Q.render a) (Q.renderValue a.value) := by
    rw [Quoting.render, h]
    exact after_start _
  have hshows : Q.Shows a a.value ↔ a.value = (Q.renderValue a.value).takeWhile (· ≠ 44) := by
    constructor
    · rintro ⟨rest, hrest, htext⟩
      rwa [hrest.unique hafter] at htext
    · exact fun htext => ⟨_, hafter, htext⟩
  rw [hshows, Quoting.renderValue]
  cases hquoted : Q.quoted a.value with
  | false =>
      refine iff_of_true ?_ rfl
      rw [if_neg Bool.false_ne_true, eq_comm, List.takeWhile_eq_self_iff]
      intro c hc
      rw [decide_eq_true_eq]
      rintro rfl
      rw [Q.hquoted a.value (.inl hc)] at hquoted
      cases hquoted
  | true =>
      refine iff_of_false (fun hvalue => ?_) nofun
      rw [if_pos rfl] at hvalue
      have hcomma : ∀ c ∈ a.value, decide (c ≠ 44) = true := by
        intro c hc
        rw [hvalue] at hc
        exact List.mem_takeWhile_imp (p := fun c : UInt8 => decide (c ≠ 44)) hc
      have hdoubled : ∀ c ∈ 34 :: (doubled a.value ++ [34]), decide (c ≠ 44) = true := by
        intro c hc
        rw [List.mem_cons, List.mem_append, List.mem_singleton] at hc
        obtain rfl | hc | rfl := hc
        · decide
        · exact hcomma c (mem_doubled hc)
        · decide
      rw [List.takeWhile_eq_self_iff.2 hdoubled] at hvalue
      have hlength := length_le_doubled a.value
      have hlonger := congrArg List.length hvalue
      rw [List.length_cons, List.length_append] at hlonger
      omega

end

/-! ### The two checks -/

theorem Wincrypt.getCommonName_eq (Q : Quoting) (subject : List Attribute) :
    getCommonName Q subject = extractFieldFromDN (Q.certNameToStr subject) keyCN := by
  rw [getCommonName]
  split_ifs with hempty
  · rw [List.isEmpty_iff.1 hempty]
    rfl
  · rfl

theorem endsWithSuffix_iff (commonName : Bytes) {suffix : Bytes} (h : suffix ≠ []) :
    endsWithSuffix commonName suffix = true ↔ suffix.map toLower <:+ commonName.map toLower := by
  unfold endsWithSuffix
  split_ifs with hempty
  · rw [List.isEmpty_iff.1 hempty]
    refine iff_of_false not_false fun hsuffix => h ?_
    exact List.map_eq_nil_iff.1 (List.suffix_nil.1 hsuffix)
  · rw [Bool.and_eq_true, decide_eq_true_eq, decide_eq_true_eq]
    constructor
    · rintro ⟨-, hdrop⟩
      exact List.suffix_iff_eq_drop.2 hdrop.symm
    · intro hsuffix
      exact ⟨hsuffix.length_le, (List.suffix_iff_eq_drop.1 hsuffix).symm⟩

/-- The first attribute that mentions a common name is the first one that is one, if it is one. -/
theorem getCommonName_of_find? {subject : List Attribute} {a : Attribute}
    (h : subject.find? (fun a => a.Mentions) = some a) (hkey : a.key = keyCN) : Ossl.getCommonName subject = a.value := by
  have hfirst : subject.find? (fun a => a.key = keyCN) = some a := by
    rw [List.find?_eq_some_iff_append] at h ⊢
    obtain ⟨-, before, rest, hsubject, hbefore⟩ := h
    refine ⟨decide_eq_true hkey, before, rest, hsubject, fun b hb => ?_⟩
    have hother : ¬b.Mentions := by simpa using hbefore b hb
    have hbkey : b.key ≠ keyCN := fun hbkey => hother (.inl (by rw [hbkey]))
    simpa using hbkey
  rw [Ossl.getCommonName, hfirst]

theorem getCommonName_of_find?_eq_none {subject : List Attribute} (h : subject.find? (fun a => a.Mentions) = none) :
    Ossl.getCommonName subject = [] := by
  have hnone : subject.find? (fun a => a.key = keyCN) = none := by
    rw [List.find?_eq_none] at h ⊢
    intro a ha
    have hother : ¬a.Mentions := by simpa using h a ha
    have hkey : a.key ≠ keyCN := fun hkey => hother (.inl (by rw [hkey]))
    simpa using hkey
  rw [Ossl.getCommonName, hnone]

/-- **The subject is read on Windows as it is on Linux exactly when** the first attribute that mentions a common name is
one whose value is not quoted, or shows the value of the first common name nevertheless. -/
theorem subjectSound_iff (Q : Quoting) (subject : List Attribute) :
    SubjectSound Q subject ↔ ∀ a, subject.find? (fun a => a.Mentions) = some a →
      if a.key = keyCN then Q.quoted a.value = false else Q.Shows a (Ossl.getCommonName subject) := by
  have hextracted : extractFieldFromDN (Q.certNameToStr subject) keyCN = Ossl.getCommonName subject ↔
      ∀ a, subject.find? (fun a => a.Mentions) = some a →
        if a.key = keyCN then Q.quoted a.value = false else Q.Shows a (Ossl.getCommonName subject) := by
    rw [extractFieldFromDN_iff]
    cases hfind : subject.find? fun a => a.Mentions with
    | none => exact iff_of_true (getCommonName_of_find?_eq_none hfind) nofun
    | some a =>
        simp only [Option.some.injEq, forall_eq']
        split_ifs with hkey
        · rw [getCommonName_of_find? hfind hkey, shows_value_iff Q hkey]
        · exact Iff.rfl
  rw [← hextracted]
  refine ⟨fun h => h.extracted, fun h => ?_⟩
  have hsame : Wincrypt.getCommonName Q subject = Ossl.getCommonName subject := by rw [Wincrypt.getCommonName_eq, h]
  have hossl : ∀ suffix, suffix ≠ [] →
      Ossl.verifySubjectSuffix subject suffix = endsWithSuffix (Ossl.getCommonName subject) suffix := by
    intro suffix hsuffix
    rw [Ossl.verifySubjectSuffix, if_neg (by simpa using hsuffix)]
  refine ⟨h, fun suffix hsuffix => ?_, fun suffix hsuffix => ?_, ?_⟩
  · rw [hossl suffix hsuffix, Wincrypt.verifySubjectSuffix, hsame]
  · rw [hossl suffix hsuffix, endsWithSuffix_iff _ hsuffix]
  · rw [hsame, Ossl.getCommonName]
    cases hfind : subject.find? fun a => a.key = keyCN with
    | none => exact .inl rfl
    | some a =>
        have hkey := List.find?_some (p := fun a : Attribute => decide (a.key = keyCN)) hfind
        exact .inr ⟨a, List.mem_of_find?_eq_some hfind, of_decide_eq_true hkey, rfl⟩

namespace Sample

/-- What the documentation of `CertNameToStrA` puts in quotation marks. -/
def documented : Quoting where
  quoted value := value.any (fun c => c = 44 || c = 43 || c = 61 || c = 34 || c = 10 || c = 60 || c = 62 || c = 35 || c = 59) ||
    value.head?.any (· = 32) || value.getLast?.any (· = 32)
  hquoted value h := by
    have hany : value.any (fun c => c = 44 || c = 43 || c = 61 || c = 34 || c = 10 || c = 60 || c = 62 || c = 35 ||
        c = 59) = true := by
      rw [List.any_eq_true]
      rcases h with h | h | h
      · exact ⟨44, h, rfl⟩
      · exact ⟨61, h, rfl⟩
      · exact ⟨34, h, rfl⟩
    rw [hany]
    rfl

def organization : Attribute := ⟨ascii "O", ascii "CN=h.net,", by decide⟩

def commonName : Attribute := ⟨ascii "CN", ascii "x", by decide⟩

end Sample

open Sample in
/-- An organization is taken for the common name. -/
theorem subjectSound_organization : ¬SubjectSound documented [organization, commonName] := by
  intro h
  have hlinux : Ossl.verifySubjectSuffix [organization, commonName] (ascii ".net") = false := by decide
  have hwindows : Wincrypt.verifySubjectSuffix documented [organization, commonName] (ascii ".net") = true := by decide
  have hagree := h.agree (ascii ".net") (by decide)
  rw [hlinux, hwindows] at hagree
  cases hagree

end CvmAttestation.Secrets
