import CvmAttestation.BaseBytes
import Mathlib.Data.List.Infix
import Mathlib.Data.List.TakeWhile

/-! Queries of URLs and bodies of forms. Both hold fields, a name and a value with an equals sign between them, and
ampersands between the fields. A plus sign stands for a space, and an escape, a percent sign with two hexadecimal
digits, for any octet. A text that is to be a value has to be encoded first; a text that is put there as it is comes
back unchanged only when it holds none of these. -/

namespace CvmAttestation.Base.Form

/-! ### Escapes -/

/-- The characters that an encoding leaves as they are. -/
def isUnreserved (c : UInt8) : Bool :=
  (65 ≤ c && c ≤ 90) || (97 ≤ c && c ≤ 122) || (48 ≤ c && c ≤ 57) || c == 45 || c == 46 || c == 95 || c == 126

def Unreserved (s : Bytes) : Prop := ∀ c ∈ s, isUnreserved c = true

instance (s : Bytes) : Decidable (Unreserved s) := List.decidableBAll (fun c => isUnreserved c = true) s

def hexValue (c : UInt8) : Option UInt8 :=
  if 48 ≤ c ∧ c ≤ 57 then some (c - 48)
  else if 65 ≤ c ∧ c ≤ 70 then some (c - 55)
  else if 97 ≤ c ∧ c ≤ 102 then some (c - 87)
  else none

/-- The octet of an escape. -/
def escaped (a b c : UInt8) : Option UInt8 :=
  if a = 37 then (hexValue b).bind fun high => (hexValue c).map fun low => 16 * high + low else none

/-- Percent signs that do not begin an escape stay. -/
def percentDecode : Bytes → Bytes
  | [] => []
  | [a] => [a]
  | [a, b] => [a, b]
  | a :: b :: c :: s =>
    match escaped a b c with
    | some octet => octet :: percentDecode s
    | none => a :: percentDecode (b :: c :: s)

/-- A text of unreserved characters and escapes. -/
inductive Encoded : Bytes → Prop
  | nil : Encoded []
  | unreserved {c : UInt8} {s : Bytes} : isUnreserved c = true → Encoded s → Encoded (c :: s)
  | escape {a b c octet : UInt8} {s : Bytes} : escaped a b c = some octet → Encoded s → Encoded (a :: b :: c :: s)

def HasEscape (s : Bytes) : Prop := ∃ a b c octet, escaped a b c = some octet ∧ [a, b, c] <:+: s

theorem HasEscape.three_le {s : Bytes} (h : HasEscape s) : 3 ≤ s.length := by
  obtain ⟨a, b, c, octet, -, hoccurs⟩ := h
  exact hoccurs.length_le

theorem hasEscape_cons_iff (a b c : UInt8) (s : Bytes) :
    HasEscape (a :: b :: c :: s) ↔ (∃ octet, escaped a b c = some octet) ∨ HasEscape (b :: c :: s) := by
  constructor
  · intro h
    obtain ⟨a', b', c', octet, hescaped, hoccurs⟩ := h
    rw [List.infix_cons_iff] at hoccurs
    rcases hoccurs with hstart | hoccurs
    · simp only [List.cons_prefix_cons] at hstart
      obtain ⟨rfl, rfl, rfl, -⟩ := hstart
      exact .inl ⟨octet, hescaped⟩
    · exact .inr ⟨a', b', c', octet, hescaped, hoccurs⟩
  · intro h
    rcases h with ⟨octet, hescaped⟩ | ⟨a', b', c', octet, hescaped, hoccurs⟩
    · exact ⟨a, b, c, octet, hescaped, (List.prefix_append [a, b, c] s).isInfix⟩
    · exact ⟨a', b', c', octet, hescaped, List.infix_cons_iff.2 (.inr hoccurs)⟩

theorem length_percentDecode_le (s : Bytes) : (percentDecode s).length ≤ s.length := by
  fun_induction percentDecode s with
  | case1 => rfl
  | case2 a => rfl
  | case3 a b => rfl
  | case4 a b c s octet h ih =>
      simp only [List.length_cons]
      omega
  | case5 a b c s h ih =>
      simp only [List.length_cons] at ih ⊢
      omega

/-- **A text is its own decoding when it holds no escape**, and every escape makes the decoding shorter. -/
theorem percentDecode_eq_self_iff (s : Bytes) : percentDecode s = s ↔ ¬HasEscape s := by
  fun_induction percentDecode s with
  | case1 => exact iff_of_true rfl fun h => absurd h.three_le (by decide)
  | case2 a => exact iff_of_true rfl fun h => absurd h.three_le (by simp)
  | case3 a b => exact iff_of_true rfl fun h => absurd h.three_le (by simp)
  | case4 a b c s octet h ih =>
      refine iff_of_false (fun heq => ?_) (not_not_intro ((hasEscape_cons_iff a b c s).2 (.inl ⟨octet, h⟩)))
      have hlength := congrArg List.length heq
      have hle := length_percentDecode_le s
      simp only [List.length_cons] at hlength
      omega
  | case5 a b c s h ih =>
      rw [List.cons_inj_right, ih, hasEscape_cons_iff, not_or, h]
      simp

theorem percentDecode_of_length_le {s : Bytes} (h : s.length ≤ (percentDecode s).length) : percentDecode s = s := by
  fun_induction percentDecode s with
  | case1 => rfl
  | case2 a => rfl
  | case3 a b => rfl
  | case4 a b c s octet hescaped ih =>
      have hle := length_percentDecode_le s
      simp only [List.length_cons] at h
      omega
  | case5 a b c s hescaped ih =>
      rw [ih]
      simpa using h

theorem percentDecode_cons {c : UInt8} (hc : c ≠ 37) (s : Bytes) : percentDecode (c :: s) = c :: percentDecode s := by
  match s with
  | [] => rfl
  | [_] => rfl
  | b :: d :: s =>
      have hescaped : escaped c b d = none := if_neg hc
      rw [percentDecode, hescaped]

theorem ne_of_isUnreserved {c d : UInt8} (h : isUnreserved c = true) (hd : isUnreserved d = false) : c ≠ d := by
  rintro rfl
  rw [h] at hd
  cases hd

/-- **A text that is its own encoding has unreserved characters only.** -/
theorem encoded_self_iff (s : Bytes) : Encoded s ∧ percentDecode s = s ↔ Unreserved s := by
  constructor
  · intro ⟨hencoded, hdecode⟩
    induction hencoded with
    | nil => exact fun c hc => absurd hc List.not_mem_nil
    | @unreserved c s hc hs ih =>
        rw [percentDecode_cons (ne_of_isUnreserved hc rfl), List.cons_inj_right] at hdecode
        exact List.forall_mem_cons.2 ⟨hc, ih hdecode⟩
    | @escape a b c octet s hescaped hs ih =>
        rw [percentDecode_eq_self_iff, hasEscape_cons_iff, not_or] at hdecode
        exact absurd ⟨octet, hescaped⟩ hdecode.1
  · intro h
    induction s with
    | nil => exact ⟨.nil, rfl⟩
    | cons c s ih =>
        obtain ⟨hc, hs⟩ := List.forall_mem_cons.1 h
        obtain ⟨hencoded, hdecode⟩ := ih hs
        rw [percentDecode_cons (ne_of_isUnreserved hc rfl), hdecode]
        exact ⟨.unreserved hc hencoded, rfl⟩

/-! ### Fields -/

structure Field where
  name : Bytes
  value : Bytes
  deriving DecidableEq, Repr

def plusToSpace (s : Bytes) : Bytes := s.map fun c => if c = 43 then 32 else c

/-- What a part of a field stands for. -/
def decode (s : Bytes) : Bytes := percentDecode (plusToSpace s)

/-- The field between two ampersands; the first equals sign ends the name. -/
def field (s : Bytes) : Field := ⟨decode (s.takeWhile (· ≠ 61)), decode ((s.dropWhile (· ≠ 61)).drop 1)⟩

/-- The fields of a query or a body. Ampersands without anything between them are skipped. -/
def parse (text : Bytes) : List Field := ((text.splitOn 38).filter (· ≠ [])).map field

def Field.item (f : Field) : Bytes := f.name ++ 61 :: f.value

/-- The fields one after the other, as they are. -/
def render (fields : List Field) : Bytes := (fields.flatMap fun f => 38 :: f.item).drop 1

/-- A value that comes back as it is. -/
structure Plain (value : Bytes) : Prop where
  ampersand : 38 ∉ value
  plus : 43 ∉ value
  escape : ¬HasEscape value

theorem decode_eq_self_iff (s : Bytes) : decode s = s ↔ 43 ∉ s ∧ ¬HasEscape s := by
  have hplus : plusToSpace s = s ↔ 43 ∉ s := by
    have hmap := @List.map_inj_left _ _ s (fun c => if c = 43 then 32 else c) id
    rw [List.map_id] at hmap
    rw [plusToSpace, hmap]
    constructor
    · intro h hmem
      have hspace := h 43 hmem
      revert hspace
      decide
    · intro h c hc
      exact if_neg (ne_of_mem_of_not_mem hc h)
  constructor
  · intro h
    have hlength : (plusToSpace s).length ≤ (percentDecode (plusToSpace s)).length :=
      calc
        (plusToSpace s).length = s.length := List.length_map _
        _ = (decode s).length := by rw [h]
        _ ≤ (percentDecode (plusToSpace s)).length := le_refl _
    have hself : plusToSpace s = s := (percentDecode_of_length_le hlength).symm.trans h
    rw [decode, hself] at h
    exact ⟨hplus.1 hself, (percentDecode_eq_self_iff s).1 h⟩
  · intro h
    rw [decode, hplus.2 h.1, percentDecode_eq_self_iff]
    exact h.2

theorem length_decode_le (s : Bytes) : (decode s).length ≤ s.length :=
  (length_percentDecode_le _).trans (le_of_eq (List.length_map _))

theorem not_hasEscape {s : Bytes} (h : 37 ∉ s) : ¬HasEscape s := by
  intro ⟨a, b, c, octet, hescaped, hoccurs⟩
  by_cases ha : a = 37
  · subst ha
    exact h (hoccurs.subset List.mem_cons_self)
  · rw [escaped, if_neg ha] at hescaped
    cases hescaped

theorem plain_of_unreserved {s : Bytes} (h : Unreserved s) : Plain s where
  ampersand hmem := ne_of_isUnreserved (h 38 hmem) rfl rfl
  plus hmem := ne_of_isUnreserved (h 43 hmem) rfl rfl
  escape := not_hasEscape fun hmem => ne_of_isUnreserved (h 37 hmem) rfl rfl

theorem Plain.decode_eq {s : Bytes} (h : Plain s) : decode s = s := (decode_eq_self_iff s).2 ⟨h.plus, h.escape⟩

/-! ### Parsing -/

@[simp] theorem parse_nil : parse [] = [] := rfl

theorem parse_append (a b : Bytes) : parse (a ++ 38 :: b) = parse a ++ parse b := by
  rw [parse, List.splitOn_append_cons_self, List.filter_append, List.map_append]
  rfl

theorem parse_ampersand (s : Bytes) : parse (38 :: s) = parse s := parse_append [] s

theorem parse_segment {s : Bytes} (h : 38 ∉ s) (hne : s ≠ []) : parse s = [field s] := by
  rw [parse, List.splitOn_eq_singleton h]
  simp [hne]

section Item

variable {name : Bytes} (hname : Unreserved name)

include hname in
theorem field_item (value : Bytes) : field (name ++ 61 :: value) = ⟨name, decode value⟩ := by
  have hnot : ∀ c ∈ name, decide (c ≠ 61) = true := fun c hc => decide_eq_true (ne_of_isUnreserved (hname c hc) rfl)
  have htake : (name ++ 61 :: value).takeWhile (· ≠ 61) = name := by
    rw [List.takeWhile_append_of_pos hnot]
    exact List.append_nil name
  have hdrop : (name ++ 61 :: value).dropWhile (· ≠ 61) = 61 :: value := by
    rw [List.dropWhile_append_of_pos hnot]
    rfl
  rw [field, htake, hdrop, (plain_of_unreserved hname).decode_eq]
  rfl

include hname in
/-- The value of a field ends at the first ampersand, whatever it was meant to be. -/
theorem parse_item (value : Bytes) :
    parse (name ++ 61 :: value) =
      ⟨name, decode (value.takeWhile (· ≠ 38))⟩ :: parse (value.dropWhile (· ≠ 38)) := by
  have hnot : ∀ text : Bytes, 38 ∉ text → 38 ∉ name ++ 61 :: text := by
    intro text htext hmem
    rw [List.mem_append, List.mem_cons] at hmem
    rcases hmem with hmem | heq | hmem
    · exact ne_of_isUnreserved (hname 38 hmem) rfl rfl
    · revert heq
      decide
    · exact htext hmem
  have hvalue := List.takeWhile_append_dropWhile (p := (· ≠ 38)) (l := value)
  have htake : 38 ∉ value.takeWhile (· ≠ 38) := fun hmem => by simpa using List.mem_takeWhile_imp hmem
  generalize value.takeWhile (· ≠ 38) = before at hvalue htake ⊢
  have hsegment : parse (name ++ 61 :: before) = [⟨name, decode before⟩] := by
    rw [parse_segment (hnot before htake) (by simp), field_item hname]
  cases hrest : value.dropWhile (· ≠ 38) with
  | nil =>
      rw [hrest, List.append_nil] at hvalue
      rw [← hvalue, hsegment, parse_nil]
  | cons c rest =>
      have hc : c = 38 := by
        have hhead := List.head?_dropWhile_not (· ≠ 38) value
        rw [hrest] at hhead
        simpa using hhead
      rw [hrest] at hvalue
      calc
        parse (name ++ 61 :: value) = parse ((name ++ 61 :: before) ++ 38 :: rest) := by
          rw [← hvalue, hc, List.append_assoc, List.cons_append]
        _ = [⟨name, decode before⟩] ++ parse rest := by rw [parse_append, hsegment]
        _ = ⟨name, decode before⟩ :: parse (c :: rest) := by rw [hc, parse_ampersand, List.singleton_append]

include hname in
theorem length_value_le {text value : Bytes} {fields more : List Field}
    (h : parse (name ++ 61 :: text) ++ more = ⟨name, value⟩ :: fields) :
    value.length ≤ (text.takeWhile (· ≠ 38)).length := by
  rw [parse_item hname, List.cons_append] at h
  have hvalue : decode (text.takeWhile (· ≠ 38)) = value := congrArg Field.value (List.cons.inj h).1
  calc
    value.length = (decode (text.takeWhile (· ≠ 38))).length := by rw [hvalue]
    _ ≤ (text.takeWhile (· ≠ 38)).length := length_decode_le _

include hname in
/-- A value and what stands after it, which is nothing or the next field. -/
theorem parse_item_append_iff (value : Bytes) {tail : Bytes} (htail : ∀ c ∈ tail.head?, c = 38) (fields : List Field) :
    parse (name ++ 61 :: (value ++ tail)) = ⟨name, value⟩ :: fields ↔ Plain value ∧ parse tail = fields := by
  have hsplit : parse (name ++ 61 :: (value ++ tail)) = parse (name ++ 61 :: value) ++ parse tail := by
    cases tail with
    | nil => rw [List.append_nil, parse_nil, List.append_nil]
    | cons c tail => rw [htail c rfl, parse_ampersand, ← parse_append, List.append_assoc, List.cons_append]
  have hplain : 38 ∉ value → parse (name ++ 61 :: value) = [⟨name, decode value⟩] := by
    intro hvalue
    have hnot : ∀ c ∈ value, decide (c ≠ 38) = true := fun c hc => decide_eq_true (ne_of_mem_of_not_mem hc hvalue)
    rw [parse_item hname, List.takeWhile_eq_self_iff.2 hnot, List.dropWhile_eq_nil_iff.2 hnot, parse_nil]
  rw [hsplit]
  constructor
  · intro h
    have hwhole : value.takeWhile (· ≠ 38) = value :=
      (List.takeWhile_prefix _).eq_of_length_le (length_value_le hname h)
    have hampersand : 38 ∉ value := by
      rw [List.takeWhile_eq_self_iff] at hwhole
      exact fun hmem => by simpa using hwhole 38 hmem
    rw [hplain hampersand, List.singleton_append, List.cons.injEq] at h
    have hself := (decode_eq_self_iff value).1 (congrArg Field.value h.1)
    exact ⟨⟨hampersand, hself.1, hself.2⟩, h.2⟩
  · intro ⟨hvalue, hfields⟩
    rw [hplain hvalue.ampersand, hvalue.decode_eq, hfields]
    rfl

end Item

theorem parse_render (keep : UInt8 → Bool) (h : keep 38 = true) (fields : List Field) :
    parse ((render fields).takeWhile keep) = parse ((fields.flatMap fun f => 38 :: f.item).takeWhile keep) := by
  cases fields with
  | nil => rfl
  | cons f fields =>
      have hrender : (f :: fields).flatMap (fun f => 38 :: f.item) = 38 :: render (f :: fields) := rfl
      rw [hrender, List.takeWhile_cons_of_pos h, parse_ampersand]

section Render

variable (keep : UInt8 → Bool) (hampersand : keep 38 = true) (hequals : keep 61 = true)

include hampersand hequals in
/-- **Fields come back from the text that they are put into as they are exactly when all their values are plain.** A
text may end early, as a query does before a fragment; then nothing that ends it may occur in the values. -/
theorem parse_render_iff (fields : List Field)
    (hnames : ∀ f ∈ fields, Unreserved f.name ∧ ∀ c ∈ f.name, keep c = true) :
    parse ((render fields).takeWhile keep) = fields ↔ ∀ f ∈ fields, Plain f.value ∧ ∀ c ∈ f.value, keep c = true := by
  rw [parse_render keep hampersand]
  induction fields with
  | nil => simp
  | cons f fields ih =>
      rw [List.forall_mem_cons] at hnames ⊢
      obtain ⟨⟨hname, hkept⟩, hnames⟩ := hnames
      rw [← ih hnames]
      have hrest : ∀ c ∈ (fields.flatMap fun f => 38 :: f.item).head?, c = 38 := by
        cases fields with
        | nil => simp
        | cons g fields => simp
      rw [List.flatMap_cons]
      generalize fields.flatMap (fun f => 38 :: f.item) = rest at hrest ⊢
      have hstart : (38 :: f.item ++ rest).takeWhile keep =
          38 :: (f.name ++ 61 :: (f.value ++ rest).takeWhile keep) := by
        rw [Field.item, List.cons_append, List.takeWhile_cons_of_pos hampersand, List.append_assoc,
          List.takeWhile_append_of_pos hkept, List.cons_append, List.takeWhile_cons_of_pos hequals]
      rw [hstart, parse_ampersand]
      by_cases hvalue : ∀ c ∈ f.value, keep c = true
      · have htail : ∀ c ∈ (rest.takeWhile keep).head?, c = 38 := by
          cases rest with
          | nil => simp
          | cons c rest =>
              obtain rfl := hrest c rfl
              rw [List.takeWhile_cons_of_pos hampersand]
              simp
        rw [List.takeWhile_append_of_pos hvalue, parse_item_append_iff hname f.value htail, and_iff_left hvalue]
      · refine iff_of_false (fun h => ?_) fun h => hvalue h.1.2
        have hlength := length_value_le hname ((List.append_nil _).trans h)
        have hwhole : f.value <+: (f.value ++ rest).takeWhile keep :=
          List.prefix_of_prefix_length_le (List.prefix_append _ _) (List.takeWhile_prefix _)
            (hlength.trans (List.takeWhile_prefix _).length_le)
        exact hvalue fun c hc => List.mem_takeWhile_imp (hwhole.subset hc)

end Render

end CvmAttestation.Base.Form
