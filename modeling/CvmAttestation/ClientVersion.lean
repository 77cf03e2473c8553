import CvmAttestation.BaseNumeral
import CvmAttestation.ClientPayload

/-! The version of the operating system. It is read from the release file of the distribution, as two numbers that are
separated by a dot, and is 1.0 if it cannot be read. `std::stoi` reads the numbers. -/

namespace CvmAttestation.Client

open Base

def intMin : ℤ := -2 ^ 31

def parseInt (str : Bytes) : ℤ := (Numeral.stoi str).getD intMin

/-- `getline` with a dot as the delimiter: the text before it, and the text after it unless the stream is at its end. -/
def getline (s : Bytes) : Bytes × Option Bytes :=
  (s.takeWhile (· ≠ 46), if (46 : UInt8) ∈ s then some (s.dropWhile (· ≠ 46)).tail else none)

/-- `ParseVersionString`: what it returns, and the two numbers that it sets. -/
def parseVersionString (str : Bytes) : Bool × UInt32 × UInt32 :=
  if str = [] then (false, 0, 0)
  else
    let (majorStr, rest) := getline str
    let major := parseInt majorStr
    if major = intMin then (false, 0, 0)
    else
      match rest with
      | none => (true, UInt32.ofInt major, 0)
      | some rest =>
        let minor := parseInt (getline rest).1
        if minor = intMin then (false, 0, 0) else (true, UInt32.ofInt major, UInt32.ofInt minor)

/-- A line of the release file: the key before the first equals sign, and the value without quotation marks. -/
def releaseEntry (line : Bytes) : Option (Bytes × Bytes) :=
  (find 61 line).map fun delimPos => (line.take delimPos, (line.drop (delimPos + 1)).filter (· ≠ 34))

/-- `ParseOSReleaseFile` on the content of the file, `none` if it cannot be opened. The last line with a key counts, so
the lines are listed from the last one on. -/
def parseOSReleaseFile (content : Option Bytes) : Option (List (Bytes × Bytes)) :=
  content.map fun text => ((text.splitOn 10).filterMap releaseEntry).reverse

def distroNameKey : Bytes := ascii "NAME"

def distroVersionKey : Bytes := ascii "VERSION_ID"

def osInfoFailure (description : Bytes) : AttestationResult × Payload.OsInfo :=
  (.failure .failedToGetOsInfo description, ⟨.invalid, [], [], 0, 0⟩)

/-- `GetOSInfo` on Linux. -/
def getOSInfo (content : Option Bytes) : AttestationResult × Payload.OsInfo :=
  match parseOSReleaseFile content with
  | none => osInfoFailure (ascii "Failed to parse file path to retrieve OS info")
  | some entries =>
    match entries.lookup distroNameKey with
    | none => osInfoFailure (ascii "Distro name not found")
    | some distroName =>
      let version := parseVersionString ((entries.lookup distroVersionKey).getD (ascii "1.0"))
      let numbers := if version.1 then version.2 else (1, 0)
      (.success, ⟨.linux, distroName, ascii "NotApplication", numbers.1, numbers.2⟩)

/-! ### What is a version -/

/-- A number that an `int` can hold. -/
def IsNumber (p : Bytes) : Prop := Numeral.Decimal p ∧ Numeral.value p ≤ 2147483647

/-- A version and its two numbers: one number, or two numbers and a dot, and after another dot anything. -/
inductive Version : Bytes → ℕ → ℕ → Prop
  | major {p : Bytes} (hp : IsNumber p) : Version p (Numeral.value p) 0
  | minor {p q : Bytes} (hp : IsNumber p) (hq : IsNumber q) :
    Version (p ++ 46 :: q) (Numeral.value p) (Numeral.value q)
  | more {p q rest : Bytes} (hp : IsNumber p) (hq : IsNumber q) :
    Version (p ++ 46 :: (q ++ 46 :: rest)) (Numeral.value p) (Numeral.value q)

/-- A version is read as its two numbers, and anything else is refused. -/
structure VersionRead (s : Bytes) : Prop where
  accepted : ∀ major minor, Version s major minor → parseVersionString s = (true, UInt32.ofNat major, UInt32.ofNat minor)
  refused : (∀ major minor, ¬Version s major minor) → parseVersionString s = (false, 0, 0)

/-- A machine reports the version of its release file, or 1.0 if it has none. -/
structure VersionReported (s : Bytes) : Prop where
  known : ∀ content entries, parseOSReleaseFile content = some entries → (entries.lookup distroNameKey).isSome →
    entries.lookup distroVersionKey = some s → ∀ major minor, Version s major minor →
      (getOSInfo content).2.distroVersionMajor = UInt32.ofNat major ∧
        (getOSInfo content).2.distroVersionMinor = UInt32.ofNat minor
  unknown : ∀ content entries, parseOSReleaseFile content = some entries → (entries.lookup distroNameKey).isSome →
    entries.lookup distroVersionKey = some s → (∀ major minor, ¬Version s major minor) →
      (getOSInfo content).2.distroVersionMajor = 1 ∧ (getOSInfo content).2.distroVersionMinor = 0

/-- No number at the beginning, or one that is too large. -/
def Unreadable (p : Bytes) : Prop := ∀ v ∈ Numeral.leading p, 2 ^ 31 ≤ v.2

/-- A version, or a text of which one of the two pieces begins with no number of an `int`. -/
def VersionSound (s : Bytes) : Prop :=
  (∃ major minor, Version s major minor) ∨ Unreadable (getline s).1 ∨ ∃ rest ∈ (getline s).2, Unreadable (getline rest).1

/-! ### The pieces -/

theorem parseInt_eq_intMin_iff (p : Bytes) : parseInt p = intMin ↔ Unreadable p := by
  rw [parseInt, Numeral.stoi, Unreadable]
  cases Numeral.leading p with
  | none => simp
  | some v =>
      obtain ⟨negative, n⟩ := v
      simp only [Option.bind_some, Option.mem_def, Option.some.injEq, forall_eq', Numeral.signed, intMin]
      split_ifs with hnegative hrange hrange
      · rw [Option.getD_some]
        omega
      · rw [Option.getD_none]
        omega
      · rw [Option.getD_some]
        omega
      · rw [Option.getD_none]
        omega

theorem not_unreadable {p : Bytes} (h : IsNumber p) : ¬Unreadable p := by
  intro hbad
  have hle := hbad (false, Numeral.value p) (Numeral.leading_decimal h.1)
  have hvalue := h.2
  simp only at hle
  omega

theorem parseInt_of_isNumber {p : Bytes} (h : IsNumber p) : parseInt p = Numeral.value p := by
  have hlt : Numeral.value p < 2 ^ 31 := by
    have hvalue := h.2
    omega
  rw [parseInt, Numeral.stoi_decimal h.1 hlt, Option.getD_some]

theorem dot_notMem {p : Bytes} (h : IsNumber p) : (46 : UInt8) ∉ p := fun hmem =>
  absurd (List.all_eq_true.1 h.1.2 46 hmem) (by decide)

theorem getline_of_notMem {p : Bytes} (h : (46 : UInt8) ∉ p) : getline p = (p, none) := by
  rw [getline, if_neg h, List.takeWhile_eq_self_iff.2]
  intro c hc
  rw [decide_eq_true_eq]
  rintro rfl
  exact h hc

theorem getline_append {p : Bytes} (h : (46 : UInt8) ∉ p) (rest : Bytes) : getline (p ++ 46 :: rest) = (p, some rest) := by
  have hall : ∀ c ∈ p, decide (c ≠ 46) = true := by
    intro c hc
    rw [decide_eq_true_eq]
    rintro rfl
    exact h hc
  rw [getline, if_pos (by simp), List.takeWhile_append_of_pos hall, List.dropWhile_append_of_pos hall]
  simp

/-- The first piece of a version, and of what follows it. -/
theorem Version.getline {s : Bytes} {major minor : ℕ} (h : Version s major minor) :
    ∃ p, IsNumber p ∧ major = Numeral.value p ∧ (Client.getline s).1 = p ∧
      match (Client.getline s).2 with
      | none => minor = 0
      | some rest => ∃ q, IsNumber q ∧ minor = Numeral.value q ∧ (Client.getline rest).1 = q := by
  cases h with
  | major hp => exact ⟨s, hp, rfl, by rw [getline_of_notMem (dot_notMem hp)], by rw [getline_of_notMem (dot_notMem hp)]⟩
  | @minor p q hp hq =>
      refine ⟨p, hp, rfl, by rw [getline_append (dot_notMem hp)], ?_⟩
      rw [getline_append (dot_notMem hp)]
      exact ⟨q, hq, rfl, by rw [getline_of_notMem (dot_notMem hq)]⟩
  | @more p q rest hp hq =>
      refine ⟨p, hp, rfl, by rw [getline_append (dot_notMem hp)], ?_⟩
      rw [getline_append (dot_notMem hp)]
      exact ⟨q, hq, rfl, by rw [getline_append (dot_notMem hq)]⟩

/-- A call in closed form, by the two pieces. -/
theorem parseVersionString_eq (s : Bytes) :
    parseVersionString s =
      if parseInt (getline s).1 = intMin then (false, 0, 0)
      else
        match (getline s).2 with
        | none => (true, UInt32.ofInt (parseInt (getline s).1), 0)
        | some rest =>
          if parseInt (getline rest).1 = intMin then (false, 0, 0)
          else (true, UInt32.ofInt (parseInt (getline s).1), UInt32.ofInt (parseInt (getline rest).1)) := by
  by_cases hempty : s = []
  · rw [hempty]
    rfl
  · rw [parseVersionString, if_neg hempty]

theorem ofInt_natCast (n : ℕ) : UInt32.ofInt (n : ℤ) = UInt32.ofNat n := by
  have hmod : ((n : ℤ) % 2 ^ 32).toNat = n % 2 ^ 32 := by omega
  rw [UInt32.ofInt, hmod]
  exact UInt32.ofNat_mod_size

theorem parseVersionString_of_version {s : Bytes} {major minor : ℕ} (h : Version s major minor) :
    parseVersionString s = (true, UInt32.ofNat major, UInt32.ofNat minor) := by
  have hint : ∀ {p : Bytes}, IsNumber p → ¬parseInt p = intMin := fun hp =>
    mt (parseInt_eq_intMin_iff _).1 (not_unreadable hp)
  obtain ⟨p, hp, rfl, hfirst, hsecond⟩ := h.getline
  rw [parseVersionString_eq, hfirst, if_neg (hint hp), parseInt_of_isNumber hp]
  cases hrest : (getline s).2 with
  | none =>
      rw [hrest] at hsecond
      rw [hsecond]
      simp only [ofInt_natCast]
      rfl
  | some rest =>
      rw [hrest] at hsecond
      obtain ⟨q, hq, rfl, hpiece⟩ := hsecond
      have hminor := hint hq
      rw [parseInt_of_isNumber hq] at hminor
      simp only [hpiece, parseInt_of_isNumber hq, if_neg hminor, ofInt_natCast]

/-- A text is refused exactly when one of its pieces begins with no number of an `int`. -/
theorem parseVersionString_refuses_iff (s : Bytes) :
    parseVersionString s = (false, 0, 0) ↔
      Unreadable (getline s).1 ∨ ∃ rest ∈ (getline s).2, Unreadable (getline rest).1 := by
  rw [parseVersionString_eq, ← parseInt_eq_intMin_iff]
  split_ifs with hfirst
  · exact iff_of_true rfl (Or.inl hfirst)
  · rw [or_iff_right hfirst]
    cases (getline s).2 with
    | none => simp
    | some rest =>
        simp only [Option.mem_def, Option.some.injEq, exists_eq_left', ← parseInt_eq_intMin_iff]
        split_ifs with hsecond
        · exact iff_of_true rfl hsecond
        · exact iff_of_false (by simp) hsecond

theorem versionRead_iff (s : Bytes) : VersionRead s ↔ VersionSound s := by
  rw [VersionSound, ← parseVersionString_refuses_iff]
  constructor
  · intro h
    by_cases hversion : ∃ major minor, Version s major minor
    · exact Or.inl hversion
    · exact Or.inr (h.refused fun major minor hv => hversion ⟨major, minor, hv⟩)
  · intro h
    refine ⟨fun major minor hv => parseVersionString_of_version hv, fun hnone => ?_⟩
    rcases h with ⟨major, minor, hv⟩ | hrefused
    · exact absurd hv (hnone major minor)
    · exact hrefused

/-- What a machine reports, from what is read of its version. -/
theorem getOSInfo_eq {content : Option Bytes} {entries : List (Bytes × Bytes)} {s : Bytes}
    (hentries : parseOSReleaseFile content = some entries) (hname : (entries.lookup distroNameKey).isSome)
    (hversion : entries.lookup distroVersionKey = some s) :
    ((getOSInfo content).2.distroVersionMajor, (getOSInfo content).2.distroVersionMinor) =
      if (parseVersionString s).1 then (parseVersionString s).2 else (1, 0) := by
  obtain ⟨distroName, hname⟩ := Option.isSome_iff_exists.1 hname
  rw [getOSInfo, hentries]
  simp only [hname, hversion, Option.getD_some]

theorem VersionRead.reported {s : Bytes} (h : VersionRead s) : VersionReported s := by
  constructor
  · intro content entries hentries hname hversion major minor hv
    have hnumbers := getOSInfo_eq hentries hname hversion
    rw [h.accepted major minor hv] at hnumbers
    exact Prod.mk.inj hnumbers
  · intro content entries hentries hname hversion hnone
    have hnumbers := getOSInfo_eq hentries hname hversion
    rw [h.refused hnone] at hnumbers
    exact Prod.mk.inj hnumbers

/-- **A version is read and reported as it should** exactly when it is one, or when `std::stoi` refuses a piece of it. -/
theorem parseVersionString_iff (s : Bytes) : VersionRead s ∧ VersionReported s ↔ VersionSound s := by
  rw [← versionRead_iff]
  exact and_iff_left_of_imp VersionRead.reported

/-- A sign, and the digits in front of other text. -/
theorem parseVersionString_malformed :
    ¬(VersionRead (ascii "-5.3abc") ∧ VersionReported (ascii "-5.3abc")) := by
  rintro ⟨hread, -⟩
  have hparse : parseVersionString (ascii "-5.3abc") = (true, 4294967291, 3) := by decide
  have hnone : ∀ major minor, ¬Version (ascii "-5.3abc") major minor := by
    intro major minor h
    obtain ⟨p, hp, -, hfirst, -⟩ := h.getline
    rw [← hfirst] at hp
    exact absurd hp.1.2 (by decide)
  have hrefused := hread.refused hnone
  rw [hparse] at hrefused
  cases hrefused

end CvmAttestation.Client
