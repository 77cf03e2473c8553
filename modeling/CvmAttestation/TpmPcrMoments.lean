import CvmAttestation.TpmPcr

/-! Reading registers while other software extends them. The collection of the evidence is a sequence of commands, the
quote and then the reads of `GetPCRValues`, and any number of extends may fall before each of them. A read returns the
values of one moment; several reads return those of several moments, and nothing compares them. -/

namespace CvmAttestation.Tpm

open Base Base.Mask

/-- The hash functions of the banks. -/
structure Banks where
  hash : HashAlg → Bytes → Bytes
  size_eq : ∀ hashAlg data, (hash hashAlg data).length = hashAlg.size

/-- An extend of one register by other software. -/
structure Extend where
  hashAlg : HashAlg
  index : Nat
  digest : Bytes

def PcrState.extend (B : Banks) (s : PcrState) (e : Extend) : PcrState where
  value hashAlg i :=
    if hashAlg = e.hashAlg ∧ i = e.index then B.hash hashAlg (s.value hashAlg i ++ e.digest) else s.value hashAlg i
  size_eq hashAlg i := by
    split_ifs
    · exact B.size_eq hashAlg _
    · exact s.size_eq hashAlg i

def PcrState.extendAll (B : Banks) (s : PcrState) (es : List Extend) : PcrState := es.foldl (PcrState.extend B) s

/-- The extends that fall before each command. Command 0 is the quote, and command `k + 1` is read `k`. -/
structure Interleaving where
  start : PcrState
  before : Nat → List Extend

namespace Interleaving

variable (B : Banks) (I : Interleaving)

/-- The registers after a command and before the extends that precede the next one. -/
def after : Nat → PcrState
  | 0 => I.start
  | k + 1 => (after k).extendAll B (I.before k)

/-- The registers as a command finds them. -/
def atCommand (k : Nat) : PcrState := I.after B (k + 1)

/-- The registers as they are at some moment, before or after any of the extends. -/
def Moment (s : PcrState) : Prop := ∃ k j, s = (I.after B k).extendAll B ((I.before k).take j)

end Interleaving

section

variable {B : Banks} {hashAlg : HashAlg} {pcrs : List Nat}

theorem extendAll_value {s : PcrState} {es : List Extend}
    (hes : ∀ e ∈ es, e.hashAlg = hashAlg → e.index ∉ pcrs) {i : Nat} (hi : i ∈ pcrs) :
    (s.extendAll B es).value hashAlg i = s.value hashAlg i := by
  induction es generalizing s with
  | nil => rfl
  | cons e es ih =>
      rw [List.forall_mem_cons] at hes
      have hne : ¬(hashAlg = e.hashAlg ∧ i = e.index) := by
        rintro ⟨halg, rfl⟩
        exact hes.1 halg.symm hi
      have hstep : (s.extend B e).value hashAlg i = s.value hashAlg i := if_neg hne
      rw [← hstep]
      exact ih hes.2

/-- Registers that are not extended between two commands keep their values. -/
theorem atCommand_value {I : Interleaving} {first last : Nat} (hle : first ≤ last)
    (hes : ∀ k, first < k → k ≤ last → ∀ e ∈ I.before k, e.hashAlg = hashAlg → e.index ∉ pcrs) {i : Nat}
    (hi : i ∈ pcrs) : (I.atCommand B last).value hashAlg i = (I.atCommand B first).value hashAlg i := by
  induction last, hle using Nat.le_induction with
  | base => rfl
  | succ last hle ih =>
      have hstep : (I.atCommand B (last + 1)).value hashAlg i = (I.atCommand B last).value hashAlg i :=
        extendAll_value (hes (last + 1) (by omega) (le_refl _)) hi
      rw [hstep]
      exact ih fun k hk hkl => hes k hk (by omega)

end

/-! ### What is returned -/

section

variable (B : Banks) (I : Interleaving) {batch : Nat → Nat} {pcrCount : Nat} {pcrs : List Nat} (hashAlg : HashAlg)

end

/-! ### A torn read -/

namespace Sample

/-- Hash functions that keep the last bytes of what they are given. -/
def banks : Banks where
  hash hashAlg data := (data.reverse ++ List.replicate hashAlg.size 0).take hashAlg.size
  size_eq hashAlg data := by
    rw [List.length_take, List.length_append, List.length_replicate]
    omega

/-- Registers 0 and 11 are extended, in this order, between the two reads. -/
def interleaving : Interleaving where
  start := ⟨fun hashAlg _ => List.replicate hashAlg.size 0, fun _ _ => List.length_replicate⟩
  before k := if k = 2 then [⟨.sha256, 0, List.replicate 32 1⟩, ⟨.sha256, 11, List.replicate 32 1⟩] else []

end Sample

end CvmAttestation.Tpm
