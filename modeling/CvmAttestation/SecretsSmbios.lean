import CvmAttestation.BaseLayout
import CvmAttestation.BaseRounds
import CvmAttestation.SecretsParse

/-! The UUID of the system on Windows. `GetSystemSmBios` walks the structures of the SMBIOS table: it looks for one of
type 1, and jumps over the others by their length and to the double null behind their strings. Its index is a `ULONG`.
What it has found is used without a look at whether there is anything, and whether it holds a UUID. -/

namespace CvmAttestation.Secrets

open Base

/-- The table of the firmware, of its declared size. -/
structure SmbiosTable where
  data : Bytes
  fits : data.length < 2 ^ 32

inductive SmbiosFault
  | missingStructure
  deriving DecidableEq, Repr

section

variable (T : SmbiosTable)

/-- The inner loop: whether there is a double null, and the index after it; `none` when it would leave the table. -/
def findEnd (i : ℕ) : Option (Bool × ℕ) :=
  if hnext : (i + 1) % 2 ^ 32 < T.data.length then
    if hi : i < T.data.length then
      if T.data[i] = 0 ∧ T.data[(i + 1) % 2 ^ 32] = 0 then some (true, (i + 2) % 2 ^ 32)
      else findEnd ((i + 1) % 2 ^ 32)
    else none
  else some (false, i)
termination_by T.data.length - i
decreasing_by
  have hfits := T.fits
  omega

/-- The body and the condition of the outer loop. The size of a structure header is a 64-bit number, and so is the sum in
the check of the header. -/
def smbiosRound (i : ℕ) (_ : Unit) : Round ℕ SmbiosFault (Option ℕ) :=
  if i + 4 < T.data.length then
    match T.data[i]?, T.data[(i + 1) % 2 ^ 32]? with
    | some type, some length =>
      let smBiosStructure := if type = 1 then some i else none
      match findEnd T ((i + length.toNat) % 2 ^ 32) with
      | some (properTermination, i) =>
        if properTermination && smBiosStructure.isNone then .next i else .ended (.returned smBiosStructure)
      | none => .ended .outside
    | _, _ => .ended .outside
  else .ended (.returned none)

def smbiosRounds : Rounds Unit ℕ SmbiosFault (Option ℕ) where
  start := .next 0
  round := smbiosRound T
  remaining i := (T.data.length : ℤ) - i

end

/-- `GetSystemSmBios` after `k` rounds of its loop: the size that it returns, and the offset of the UUID in the table.
There is no table when the call for its size fails, or no memory for it. -/
def getSystemSmBios (firmware : Option SmbiosTable) (k : ℕ) : Round ℕ SmbiosFault (ℕ × Option ℕ) :=
  match firmware with
  | none => .ended (.returned (0, none))
  | some T =>
    match (smbiosRounds T).after (fun _ => ()) k with
    | .next i => .next i
    | .ended (.returned (some smBiosStructure)) => .ended (.returned (16, some (smBiosStructure + 8)))
    | .ended (.returned none) => .ended (.raised .missingStructure)
    | .ended (.raised e) => .ended (.raised e)
    | .ended .outside => .ended .outside

/-- The `width` upper-case hexadecimal digits of a number that has no more. -/
def hexDigits : (width n : ℕ) → Bytes
  | 0, _ => []
  | width + 1, n =>
    hexDigits width (n / 16) ++ [if n % 16 < 10 then UInt8.ofNat (48 + n % 16) else UInt8.ofNat (55 + n % 16)]

/-- `formatUUID`, for a UUID that is read. -/
def uuidText (uuid : Bytes) : Bytes :=
  hexDigits 8 (ofLittleEndian (member uuid 0 4)) ++ ascii "-" ++
    hexDigits 4 (ofLittleEndian (member uuid 4 2)) ++ ascii "-" ++
    hexDigits 4 (ofLittleEndian (member uuid 6 2)) ++ ascii "-" ++
    (member uuid 8 2).flatMap (fun b => hexDigits 2 b.toNat) ++ ascii "-" ++
    (member uuid 10 6).flatMap fun b => hexDigits 2 b.toNat

/-- `formatUUID` on a pointer into the memory, `none` when it would be read outside. -/
def formatUUID (memory : Bytes) (uuid : Option ℕ) (size : ℕ) : Option Bytes :=
  if size = 0 then some [] else uuid.bind fun offset => (slice memory offset 16).map uuidText

/-- `GetSystemUuid`, after `k` rounds of the loop. -/
def getSystemUuid (firmware : Option SmbiosTable) (k : ℕ) : Round ℕ SmbiosFault Bytes :=
  match getSystemSmBios firmware k with
  | .next i => .next i
  | .ended (.returned (size, uuid)) =>
    match formatUUID (firmware.elim [] SmbiosTable.data) uuid size with
    | some text => .ended (.returned (text.map toLower))
    | none => .ended .outside
  | .ended (.raised e) => .ended (.raised e)
  | .ended .outside => .ended .outside

/-! ### The walk over the structures -/

namespace SmbiosTable

variable (T : SmbiosTable)

def byte (i : ℕ) : UInt8 := T.data.getD i 0

/-- The first double null at or after an index. -/
structure EndsAt (start q : ℕ) : Prop where
  le : start ≤ q
  inside : q + 1 < T.data.length
  null : T.byte q = 0 ∧ T.byte (q + 1) = 0
  first : ∀ j, start ≤ j → j < q → ¬(T.byte j = 0 ∧ T.byte (j + 1) = 0)

/-- The places where structures begin, up to the first one of type 1. -/
inductive Reached : ℕ → Prop
  | first : Reached 0
  | next {p q : ℕ} (hp : Reached p) (hheader : p + 4 ≤ T.data.length) (htype : T.byte p ≠ 1)
    (hend : EndsAt T (p + (T.byte (p + 1)).toNat) q) : Reached (q + 2)

/-- The first structure of type 1, with a whole UUID. -/
structure HasUuid (p : ℕ) : Prop where
  reached : T.Reached p
  type : T.byte p = 1
  length : 24 ≤ (T.byte (p + 1)).toNat
  inside : p + 24 ≤ T.data.length

end SmbiosTable

/-- The UUID is found, and without one nothing is returned. Only the table is read, and the loop comes to an end. -/
structure SmbiosSound (T : SmbiosTable) : Prop where
  inside : ∀ k, getSystemSmBios (some T) k ≠ .ended .outside
  found : ∀ p, T.HasUuid p → ∃ k offset, getSystemSmBios (some T) k = .ended (.returned (16, some offset)) ∧
    slice T.data offset 16 = some (member T.data (p + 8) 16) ∧
    getSystemUuid (some T) k = .ended (.returned ((uuidText (member T.data (p + 8) 16)).map toLower))
  missing : (∀ p, ¬T.HasUuid p) → ∃ k, getSystemSmBios (some T) k = .ended (.returned (0, none)) ∧
    getSystemUuid (some T) k = .ended (.returned [])

section

variable {T : SmbiosTable}

theorem byte_eq {i : ℕ} (h : i < T.data.length) : T.data[i]? = some (T.byte i) := by
  rw [SmbiosTable.byte, List.getD_eq_getElem?_getD, List.getElem?_eq_getElem h, Option.getD_some]

theorem getElem_eq_byte {i : ℕ} (h : i < T.data.length) : T.data[i] = T.byte i := by
  rw [SmbiosTable.byte, List.getD_eq_getElem?_getD, List.getElem?_eq_getElem h, Option.getD_some]

/-! ### The inner loop -/

/-- The inner loop in closed form, except at the last index of a `ULONG`. -/
theorem findEnd_eq {i : ℕ} (h : i < 2 ^ 32 - 1) :
    findEnd T i =
      if i + 1 < T.data.length then
        if T.byte i = 0 ∧ T.byte (i + 1) = 0 then some (true, i + 2) else findEnd T (i + 1)
      else some (false, i) := by
  have hsucc : (i + 1) % 2 ^ 32 = i + 1 := Nat.mod_eq_of_lt (by omega)
  rw [findEnd]
  simp only [hsucc]
  by_cases hinside : i + 1 < T.data.length
  · have hfits := T.fits
    have hnext : (i + 2) % 2 ^ 32 = i + 2 := Nat.mod_eq_of_lt (by omega)
    rw [dif_pos hinside, dif_pos (Nat.lt_of_succ_lt hinside), if_pos hinside]
    simp only [getElem_eq_byte, hnext]
  · rw [dif_neg hinside, if_neg hinside]

/-- From the last index the loop goes on to the first one, and looks at a byte that no table has. -/
theorem findEnd_last (h : 0 < T.data.length) : findEnd T (2 ^ 32 - 1) = none := by
  have hfits := T.fits
  rw [findEnd, dif_pos (show (2 ^ 32 - 1 + 1) % 2 ^ 32 < T.data.length from h), dif_neg (by omega)]

theorem findEnd_endsAt {start q : ℕ} (h : T.EndsAt start q) : findEnd T start = some (true, q + 2) := by
  have hfits := T.fits
  have hinside := h.inside
  obtain ⟨n, hn⟩ := Nat.exists_eq_add_of_le h.le
  induction n generalizing start with
  | zero =>
      obtain rfl : q = start := hn
      rw [findEnd_eq (by omega), if_pos hinside, if_pos h.null]
  | succ n ih =>
      have hskip := h.first start le_rfl (by omega)
      have htail : T.EndsAt (start + 1) q :=
        ⟨by omega, hinside, h.null, fun j hj => h.first j (Nat.le_of_succ_le hj)⟩
      rw [findEnd_eq (by omega), if_pos (by omega), if_neg hskip]
      exact ih htail (by omega)

theorem findEnd_returns {start : ℕ} (h : start < 2 ^ 32 - 1) : ∃ r, findEnd T start = some r := by
  have hfits := T.fits
  obtain ⟨n, hn⟩ : ∃ n, T.data.length - start = n := ⟨_, rfl⟩
  induction n generalizing start with
  | zero =>
      rw [findEnd_eq h, if_neg (by omega)]
      exact ⟨_, rfl⟩
  | succ n ih =>
      rw [findEnd_eq h]
      split_ifs with hinside hnull
      · exact ⟨_, rfl⟩
      · exact ih (by omega) (by omega)
      · exact ⟨_, rfl⟩

/-- Behind a double null is a later place of the table. -/
theorem findEnd_true {start t : ℕ} (h : start < 2 ^ 32 - 1) (ht : findEnd T start = some (true, t)) :
    start + 2 ≤ t ∧ t ≤ T.data.length := by
  have hfits := T.fits
  obtain ⟨n, hn⟩ : ∃ n, T.data.length - start = n := ⟨_, rfl⟩
  induction n generalizing start with
  | zero =>
      rw [findEnd_eq h, if_neg (by omega)] at ht
      cases ht
  | succ n ih =>
      rw [findEnd_eq h] at ht
      split_ifs at ht with hinside hnull
      · cases ht
        omega
      · obtain ⟨hle, hlength⟩ := ih (by omega) ht (by omega)
        exact ⟨by omega, hlength⟩
      · cases ht

/-! ### The outer loop -/

/-- A round that looks at a header. -/
theorem smbiosRound_eq {i : ℕ} (h : i + 4 < T.data.length) :
    smbiosRound T i () =
      match findEnd T ((i + (T.byte (i + 1)).toNat) % 2 ^ 32) with
      | some (properTermination, i') =>
        if properTermination && (if T.byte i = 1 then some i else none).isNone then .next i'
        else .ended (.returned (if T.byte i = 1 then some i else none))
      | none => .ended .outside := by
  have hfits := T.fits
  have hsucc : (i + 1) % 2 ^ 32 = i + 1 := Nat.mod_eq_of_lt (by omega)
  rw [smbiosRound, if_pos h, hsucc]
  simp only [byte_eq (by omega : i < T.data.length), byte_eq (by omega : i + 1 < T.data.length)]

/-- **The walk ends and reads only the table**, whatever the table holds, as long as no length can take the index past
the end of a `ULONG`. -/
theorem smbiosRounds_wellBehaved (hsize : T.data.length ≤ 2 ^ 32 - 256) :
    (smbiosRounds T).WellBehaved fun _ => () := by
  rw [Rounds.wellBehaved_iff]
  refine ⟨nofun, fun _ i _ => ?_⟩
  show smbiosRound T i () ≠ .ended .outside ∧ ∀ t, smbiosRound T i () = .next t →
    0 ≤ (T.data.length : ℤ) - t ∧ (T.data.length : ℤ) - t < (T.data.length : ℤ) - i
  by_cases hheader : i + 4 < T.data.length
  · have hlength := (T.byte (i + 1)).toNat_lt
    have hstart : i + (T.byte (i + 1)).toNat < 2 ^ 32 - 1 := by omega
    obtain ⟨⟨properTermination, i'⟩, hr⟩ := findEnd_returns (T := T) hstart
    rw [smbiosRound_eq hheader, Nat.mod_eq_of_lt (by omega), hr]
    generalize (if T.byte i = 1 then some i else none) = smBiosStructure
    dsimp only
    split_ifs with hnext
    · refine ⟨nofun, fun t ht => ?_⟩
      obtain rfl := Round.next.inj ht
      rw [(Bool.and_eq_true_iff.1 hnext).1] at hr
      obtain ⟨hle, hinside⟩ := findEnd_true hstart hr
      omega
    · exact ⟨nofun, nofun⟩
  · rw [smbiosRound, if_neg hheader]
    exact ⟨nofun, nofun⟩

/-- The loop comes to every place where a structure begins, as long as there is room for more than its header. -/
theorem after_reached {p : ℕ} (h : T.Reached p) (hroom : p + 4 < T.data.length) :
    ∃ k, (smbiosRounds T).after (fun _ => ()) k = .next p := by
  induction h with
  | first => exact ⟨0, rfl⟩
  | @next p q hp hheader htype hend ih =>
      have hle := hend.le
      have hinside := hend.inside
      have hfits := T.fits
      obtain ⟨k, hk⟩ := ih (by omega)
      refine ⟨k + 1, ?_⟩
      rw [Rounds.after_succ hk]
      show smbiosRound T p () = .next (q + 2)
      rw [smbiosRound_eq (by omega), Nat.mod_eq_of_lt (by omega), findEnd_endsAt hend]
      simp only [if_neg htype]
      rfl

/-- At the structure that is looked for the loop ends, outside the table if the structure ends at the last index. -/
theorem smbiosRound_hasUuid {p : ℕ} (h : T.HasUuid p) :
    smbiosRound T p () =
      if p + (T.byte (p + 1)).toNat = 2 ^ 32 - 1 then .ended .outside else .ended (.returned (some p)) := by
  have hfits := T.fits
  have hinside := h.inside
  have hlength := (T.byte (p + 1)).toNat_lt
  rw [smbiosRound_eq (by omega)]
  simp only [if_pos h.type]
  by_cases hlast : p + (T.byte (p + 1)).toNat = 2 ^ 32 - 1
  · rw [if_pos hlast, hlast, show (2 ^ 32 - 1) % 2 ^ 32 = 2 ^ 32 - 1 from rfl, findEnd_last (by omega)]
  · rw [if_neg hlast]
    have hreturns : ∃ r, findEnd T ((p + (T.byte (p + 1)).toNat) % 2 ^ 32) = some r := findEnd_returns (by omega)
    obtain ⟨⟨properTermination, i'⟩, hr⟩ := hreturns
    rw [hr]
    simp only [Option.isNone_some, Bool.and_false, Bool.false_eq_true, if_false]

theorem after_hasUuid {p : ℕ} (h : T.HasUuid p) :
    ∃ k, (smbiosRounds T).after (fun _ => ()) k = .ended
      (if p + (T.byte (p + 1)).toNat = 2 ^ 32 - 1 then .outside else .returned (some p)) := by
  have hinside := h.inside
  obtain ⟨k, hk⟩ := after_reached h.reached (by omega)
  refine ⟨k + 1, ?_⟩
  rw [Rounds.after_succ hk]
  show smbiosRound T p () = _
  rw [smbiosRound_hasUuid h]
  split_ifs <;> rfl

/-- What the function returns comes from the end of its loop. -/
theorem getSystemSmBios_returned {k size : ℕ} {uuid : Option ℕ}
    (h : getSystemSmBios (some T) k = .ended (.returned (size, uuid))) :
    ∃ p, (smbiosRounds T).after (fun _ => ()) k = .ended (.returned (some p)) ∧ size = 16 ∧ uuid = some (p + 8) := by
  rw [getSystemSmBios] at h
  split at h
  · cases h
  · rename_i p hp
    cases h
    exact ⟨p, hp, rfl, rfl⟩
  · cases h
  · cases h
  · cases h

theorem getSystemSmBios_found {k p : ℕ} (h : (smbiosRounds T).after (fun _ => ()) k = .ended (.returned (some p))) :
    getSystemSmBios (some T) k = .ended (.returned (16, some (p + 8))) := by
  unfold getSystemSmBios
  simp only [h]

theorem getSystemSmBios_outside_iff {k : ℕ} :
    getSystemSmBios (some T) k = .ended .outside ↔ (smbiosRounds T).after (fun _ => ()) k = .ended .outside := by
  rw [getSystemSmBios]
  split
  all_goals
    rename_i hafter
    simp [hafter]

end

/-- **The UUID of a table is found exactly when** there is one in the first structure of type 1 and that structure does
not end at the last index. A table without such a structure has the missing one dereferenced, and what follows a type 1
structure without a UUID is taken for its UUID. -/
theorem smbiosSound_iff (T : SmbiosTable) :
    SmbiosSound T ↔ ∃ p, T.HasUuid p ∧ p + (T.byte (p + 1)).toNat ≠ 2 ^ 32 - 1 := by
  constructor
  · intro h
    by_cases hsome : ∃ p, T.HasUuid p
    · obtain ⟨p, hp⟩ := hsome
      refine ⟨p, hp, fun hlast => ?_⟩
      obtain ⟨k, hk⟩ := after_hasUuid hp
      rw [if_pos hlast] at hk
      exact h.inside k (getSystemSmBios_outside_iff.2 hk)
    · obtain ⟨k, hk, -⟩ := h.missing (not_exists.1 hsome)
      obtain ⟨_, -, hsize, -⟩ := getSystemSmBios_returned hk
      cases hsize
  · rintro ⟨p, hp, hlast⟩
    obtain ⟨k, hk⟩ := after_hasUuid hp
    rw [if_neg hlast] at hk
    refine ⟨fun n hn => ?_, fun p' hp' => ?_, fun hnone => absurd hp (hnone p)⟩
    · cases Rounds.ended_unique hk (getSystemSmBios_outside_iff.1 hn)
    · obtain ⟨k', hk'⟩ := after_hasUuid hp'
      have hsame := Rounds.ended_unique hk hk'
      have hne : p' + (T.byte (p' + 1)).toNat ≠ 2 ^ 32 - 1 := by
        intro hlast'
        rw [if_pos hlast'] at hsame
        cases hsame
      rw [if_neg hne] at hsame
      obtain rfl : p = p' := Option.some.inj (Ending.returned.inj hsame)
      have hfound := getSystemSmBios_found hk
      have hread : slice T.data (p + 8) 16 = some (member T.data (p + 8) 16) :=
        slice_member (by have hinside := hp.inside; omega)
      refine ⟨k, p + 8, hfound, hread, ?_⟩
      unfold getSystemUuid
      simp only [hfound, Option.elim_some, formatUUID, Option.bind_some, hread, Option.map_some]
      rfl

namespace Sample

/-- A table of nothing but its end, a structure of type 127. -/
def endOfTable : SmbiosTable := ⟨[127, 4, 0xfe, 0xff, 0, 0], by decide⟩

end Sample

theorem smbiosSound_endOfTable : ¬SmbiosSound Sample.endOfTable := by
  intro h
  have hnone : ∀ p, ¬Sample.endOfTable.HasUuid p := by
    intro p hp
    have hinside : p + 24 ≤ 6 := hp.inside
    omega
  obtain ⟨k, hk, -⟩ := h.missing hnone
  obtain ⟨_, -, hsize, -⟩ := getSystemSmBios_returned hk
  cases hsize

end CvmAttestation.Secrets
