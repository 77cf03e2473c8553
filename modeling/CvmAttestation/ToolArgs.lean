import CvmAttestation.BaseNumeral
import CvmAttestation.SecretsPolicy

/-! The command line of the secrets tool. The value of an option is read by `strtoul`, whose result is cut to 32 bits. -/

namespace CvmAttestation.Tool

open Base Secrets

structure CliArgs where
  command : Bytes
  token : Bytes
  policy : Word
  help : Bool
  version : Bool
  jsonOutput : Bool
  deriving DecidableEq, Repr

def CliArgs.default : CliArgs := ⟨[], [], 0, false, false, false⟩

/-- An argument that is no option: the command, and then the token. -/
def CliArgs.positional (args : CliArgs) (arg : Bytes) : CliArgs :=
  if args.command = [] then { args with command := arg }
  else if args.token = [] then { args with token := arg }
  else args

def policyValue (value : Bytes) : Word := BitVec.ofNat 32 (Numeral.strtoul 64 value)

/-- The loop of `parse_args` over the arguments that are left. -/
def parseFrom : List Bytes → CliArgs → CliArgs
  | [], args => args
  | arg :: rest, args =>
    if arg = ascii "--help" ∨ arg = ascii "-h" then parseFrom rest { args with help := true }
    else if arg = ascii "--json" then parseFrom rest { args with jsonOutput := true }
    else if arg = ascii "--version" then parseFrom rest { args with version := true }
    else if arg = ascii "--policy" then
      match rest with
      | value :: rest => parseFrom rest { args with policy := policyValue value }
      -- without a value it is an argument that begins with a dash
      | [] => args
    else if arg.head? ≠ some 45 then parseFrom rest (args.positional arg)
    else parseFrom rest args

/-- `parse_args`. The first argument is the name of the program. -/
def parseArgs (argv : List Bytes) : CliArgs := parseFrom argv.tail .default

/-! ### What the command line asks for -/

/-- The values of the option, `none` where the arguments end before one. -/
def policyValues : List Bytes → List (Option Bytes)
  | [] => []
  | arg :: rest =>
    if arg = ascii "--policy" then
      match rest with
      | value :: rest => some value :: policyValues rest
      | [] => [none]
    else policyValues rest

/-- No option beyond the default is set. -/
def GrantsNothing (policy : Word) : Prop :=
  isPolicySet policy PolicyOption.allowUnencrypted = false ∧ isPolicySet policy PolicyOption.allowUnsigned = false ∧
    isPolicySet policy PolicyOption.allowLegacy = false

/-- A numeral of 32 bits. -/
def IsPolicy (value : Bytes) : Prop := Numeral.Decimal value ∧ Numeral.value value < 2 ^ 32

/-- The policy is what the last option says, and grants nothing if it says nothing sensible. -/
def PolicyAsAsked (argv : List Bytes) (policy : Word) : Prop :=
  match (policyValues argv.tail).getLast? with
  | some (some value) => (IsPolicy value → policy.toNat = Numeral.value value) ∧ (¬IsPolicy value → GrantsNothing policy)
  | some none => GrantsNothing policy
  | none => GrantsNothing policy

/-- No number is read, or a multiple of eight that `strtoul` can return. -/
def Harmless (value : Bytes) : Prop := ∀ v ∈ Numeral.leading value, v.2 < 2 ^ 64 ∧ 8 ∣ v.2

/-- The last value that is given is a numeral or harmless; harmless, if another option without a value follows. -/
def PolicySound (argv : List Bytes) : Prop :=
  match (policyValues argv.tail).getLast? with
  | some (some value) => IsPolicy value ∨ Harmless value
  | some none => ∀ value ∈ ((policyValues argv.tail).filterMap id).getLast?, Harmless value
  | none => True

/-! ### The policy that is left -/

/-- An option that is left out of a list of options, or the value of the last one. -/
theorem elim_getLast?_cons (v : Bytes) (vs : List Bytes) (p : Word) :
    (v :: vs).getLast?.elim p policyValue = vs.getLast?.elim (policyValue v) policyValue := by
  cases vs with
  | nil => rfl
  | cons w vs =>
      rw [List.getLast?_cons_cons, List.getLast?_eq_some_getLast (List.cons_ne_nil w vs)]
      rfl

theorem policyValues_of_ne {arg : Bytes} (h : arg ≠ ascii "--policy") (rest : List Bytes) :
    policyValues (arg :: rest) = policyValues rest := by
  rw [policyValues.eq_def]
  exact if_neg h

theorem policyValues_policy (value : Bytes) (rest : List Bytes) :
    policyValues (ascii "--policy" :: value :: rest) = some value :: policyValues rest := by
  rw [policyValues.eq_def]
  exact if_pos rfl

@[simp] theorem CliArgs.positional_policy (args : CliArgs) (arg : Bytes) : (args.positional arg).policy = args.policy := by
  unfold CliArgs.positional
  split_ifs <;> rfl

/-- What the loop leaves: the last value that is given, and the policy before it if there is none. -/
theorem parseFrom_policy (rest : List Bytes) (args : CliArgs) :
    (parseFrom rest args).policy = ((policyValues rest).filterMap id).getLast?.elim args.policy policyValue := by
  fun_induction parseFrom rest args with
  | case1 args => rfl
  | case2 arg rest args h ih =>
      have hne : arg ≠ ascii "--policy" := by
        rcases h with rfl | rfl
        · decide
        · decide
      rw [ih, policyValues_of_ne hne]
  | case3 rest args _ ih => rw [ih, policyValues_of_ne (by decide)]
  | case4 rest args _ _ ih => rw [ih, policyValues_of_ne (by decide)]
  | case5 args value rest _ _ _ ih =>
      rw [ih, policyValues_policy]
      exact (elim_getLast?_cons value _ args.policy).symm
  | case6 args => rfl
  | case7 arg rest args _ _ _ hne _ ih => rw [ih, policyValues_of_ne hne, CliArgs.positional_policy]
  | case8 arg rest args _ _ _ hne _ ih => rw [ih, policyValues_of_ne hne]

theorem parseArgs_policy (argv : List Bytes) :
    (parseArgs argv).policy = ((policyValues argv.tail).filterMap id).getLast?.elim 0 policyValue :=
  parseFrom_policy argv.tail .default

/-! ### Which values set no option -/

theorem isPolicySet_twoPow (policy : Word) (i : ℕ) (hi : i < 32) :
    isPolicySet policy (BitVec.twoPow 32 i) = policy.getLsbD i := by
  rw [isPolicySet, BitVec.and_twoPow]
  cases policy.getLsbD i with
  | true => simp
  | false =>
      have hne : (0#32 == BitVec.twoPow 32 i) = false := by
        rw [beq_eq_false_iff_ne]
        intro heq
        have hbit := congrArg (fun x => BitVec.getLsbD x i) heq
        simp [hi] at hbit
      simpa using hne

theorem grantsNothing_ofNat (n : ℕ) : GrantsNothing (BitVec.ofNat 32 n) ↔ 8 ∣ n := by
  have hbit : ∀ i, i < 32 → isPolicySet (BitVec.ofNat 32 n) (BitVec.twoPow 32 i) = n.testBit i := fun i hi => by
    rw [isPolicySet_twoPow _ i hi, BitVec.getLsbD_ofNat]
    simp [hi]
  have h0 := hbit 0 (by decide)
  have h1 := hbit 1 (by decide)
  have h2 := hbit 2 (by decide)
  have hgrants : GrantsNothing (BitVec.ofNat 32 n) ↔ n.testBit 0 = false ∧ n.testBit 1 = false ∧ n.testBit 2 = false := by
    rw [← h0, ← h1, ← h2]
    exact Iff.rfl
  rw [hgrants]
  simp only [Nat.testBit_eq_decide_div_mod_eq, decide_eq_false_iff_not]
  omega

theorem strtoul_dvd_iff (value : Bytes) : 8 ∣ Numeral.strtoul 64 value ↔ Harmless value := by
  rw [Harmless, Numeral.strtoul]
  cases hlead : Numeral.leading value with
  | none => simp
  | some v =>
      obtain ⟨negative, n⟩ := v
      simp only [Option.mem_def, Option.some.injEq, forall_eq']
      have hwidth : (2 : ℕ) ^ 64 = 18446744073709551616 := by norm_num
      rw [hwidth]
      split_ifs with hlarge hnegative
      · constructor
        · omega
        · rintro ⟨hlt, -⟩
          omega
      · omega
      · omega

theorem grantsNothing_policyValue (value : Bytes) : GrantsNothing (policyValue value) ↔ Harmless value := by
  rw [policyValue, grantsNothing_ofNat, strtoul_dvd_iff]

theorem strtoul_isPolicy {value : Bytes} (h : IsPolicy value) : Numeral.strtoul 64 value = Numeral.value value := by
  have hlt : Numeral.value value < 2 ^ 64 := h.2.trans (by norm_num)
  rw [Numeral.strtoul, Numeral.leading_decimal h.1]
  simp only [if_neg hlt.not_ge]
  rfl

theorem toNat_policyValue {value : Bytes} (h : IsPolicy value) : (policyValue value).toNat = Numeral.value value := by
  rw [policyValue, strtoul_isPolicy h, BitVec.toNat_ofNat, Nat.mod_eq_of_lt h.2]

theorem getLast?_filterMap_of_some {l : List (Option Bytes)} {value : Bytes} (h : l.getLast? = some (some value)) :
    (l.filterMap id).getLast? = some value := by
  obtain ⟨l, rfl⟩ := List.getLast?_eq_some_iff.1 h
  simp

/-- **The policy is as it was asked for** exactly when the value that decides is a numeral of 32 bits or grants nothing by
accident. -/
theorem parseArgs_policy_iff (argv : List Bytes) : PolicyAsAsked argv (parseArgs argv).policy ↔ PolicySound argv := by
  have hzero : GrantsNothing 0 := (grantsNothing_ofNat 0).2 (dvd_zero 8)
  rw [parseArgs_policy, PolicyAsAsked, PolicySound]
  cases hlast : (policyValues argv.tail).getLast? with
  | none =>
      rw [List.getLast?_eq_none_iff.1 hlast]
      exact iff_of_true hzero trivial
  | some last =>
      cases last with
      | none =>
          cases ((policyValues argv.tail).filterMap id).getLast? with
          | none => exact iff_of_true hzero nofun
          | some value =>
              simp only [Option.elim_some, Option.mem_def, Option.some.injEq, forall_eq']
              exact grantsNothing_policyValue value
      | some value =>
          rw [getLast?_filterMap_of_some hlast]
          simp only [Option.elim_some, grantsNothing_policyValue]
          constructor
          · intro h
            by_cases hpolicy : IsPolicy value
            · exact Or.inl hpolicy
            · exact Or.inr (h.2 hpolicy)
          · rintro (hpolicy | hharmless)
            · exact ⟨toNat_policyValue, fun hnot => absurd hpolicy hnot⟩
            · exact ⟨toNat_policyValue, fun _ => hharmless⟩

/-- A negative value sets every option. -/
theorem parseArgs_policy_negative :
    ¬PolicyAsAsked [ascii "azure-protected-secrets-tool", ascii "unprotect-secret", ascii "--policy", ascii "-1"]
      (parseArgs [ascii "azure-protected-secrets-tool", ascii "unprotect-secret", ascii "--policy", ascii "-1"]).policy := by
  intro h
  have hnot : ¬IsPolicy (ascii "-1") := by
    rintro ⟨⟨-, hall⟩, -⟩
    exact absurd hall (by decide)
  have hgrants : GrantsNothing (policyValue (ascii "-1")) := h.2 hnot
  have hset : isPolicySet (policyValue (ascii "-1")) PolicyOption.allowUnsigned = true := by decide
  rw [hgrants.2.1] at hset
  cases hset

end CvmAttestation.Tool
