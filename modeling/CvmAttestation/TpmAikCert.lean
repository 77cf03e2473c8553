import CvmAttestation.TpmNv
import Mathlib.Tactic

/-! Replacement of the AIK certificate. `WriteAikCert` undefines the index, defines it again and writes the
new certificate in chunks. It has no way back: once the old index is gone, a call that fails leaves the
index absent, unwritten or partly written. -/

namespace CvmAttestation.Tpm

open Base

def Stored (s : NvStore) (cert : Bytes) : Prop :=
  ∃ i, s aikCertIndex = some i ∧ i.data = cert ∧ (i.written = true ∨ cert = [])

/-- None of the calls that follow the removal of the old index fails. -/
def NoLaterFailure (fails : NvCall → Bool) (cert : Bytes) : Prop :=
  fails .define = false ∧ fails .openWrite = false ∧ ∀ k < chunks cert.length, fails (.write k) = false

/-- The index is absent, or it was defined for the new certificate and holds no more than a proper part of
it: nothing was written, or whole chunks up to some point. -/
def Interrupted (new : Bytes) (s : NvStore) : Prop :=
  s aikCertIndex = none ∨
    ∃ i k, s aikCertIndex = some i ∧ (k = 0 ∨ 512 * k < new.length) ∧ i.written = decide (0 < k) ∧
      i.data.length = new.length ∧ i.data.take (512 * k) = new.take (512 * k)

theorem getAIKCert_stored {s : NvStore} {cert : Bytes} (reads : ShortReads) (h : Stored s cert) :
    (getAIKCert reads).exec s = (.ok cert, s) := by
  obtain ⟨i, hi, hdata, hw⟩ := h
  have hread := nvRead_stored reads aikCertIndex s i hi (by rwa [hdata])
  rwa [hdata] at hread

section

variable {erased : UInt8} {s : NvStore} {new : Bytes}

theorem stored_progress (erased : UInt8) (hnew : new.length < 2 ^ 16) :
    Stored (Function.update s aikCertIndex (some (NvIndex.progress erased new hnew new.length))) new := by
  refine ⟨NvIndex.progress erased new hnew new.length, Function.update_self _ _ _, progress_length erased new hnew, ?_⟩
  cases new with
  | nil => exact .inr rfl
  | cons c cs => exact .inl rfl

theorem interrupted_progress (erased : UInt8) (hnew : new.length < 2 ^ 16) {k : ℕ}
    (hk : k = 0 ∨ 512 * k < new.length) :
    Interrupted new (Function.update s aikCertIndex (some (NvIndex.progress erased new hnew (512 * k)))) := by
  refine .inr ⟨NvIndex.progress erased new hnew (512 * k), k, Function.update_self _ _ _, hk, ?_, ?_, ?_⟩
  · simp [NvIndex.progress]
  · simp only [NvIndex.progress, List.length_append, List.length_take, List.length_replicate]
    omega
  · rw [NvIndex.progress]
    rcases hk with rfl | hk
    · rfl
    · rw [List.take_append_of_le_length (by rw [List.length_take]; omega), List.take_take, Nat.min_self]

theorem define_write_exec (fails : NvCall → Bool) (erased : UInt8) (hs : s aikCertIndex = none)
    (hnew : new.length < 2 ^ 16) :
    let run := (do
      nvDefineSpace aikCertIndex (fails .define) erased (intOfSize new.length)
      nvWrite aikCertIndex (fails .openWrite) (fun k => fails (.write k)) new : NvProc Unit).exec s
    (NoLaterFailure fails new ∧ run.1 = .ok () ∧ Stored run.2 new) ∨
      (¬NoLaterFailure fails new ∧ (∃ e, run.1 = .error e) ∧ Interrupted new run.2) := by
  have hdefine := nvDefineSpace_exec erased hs hnew (fails .define)
  cases hd : fails .define with
  | true =>
      rw [hd, if_pos rfl] at hdefine
      simp only [Proc.exec_bind_error hdefine]
      refine .inr ⟨fun h => ?_, ⟨_, rfl⟩, .inl hs⟩
      rw [h.1] at hd
      cases hd
  | false =>
      rw [hd, if_neg (by decide)] at hdefine
      simp only [Proc.exec_bind_ok hdefine]
      generalize hs' : Function.update s aikCertIndex (some (NvIndex.progress erased new hnew 0)) = s'
      have hindex : s' aikCertIndex = some (NvIndex.progress erased new hnew 0) := by
        rw [← hs', Function.update_self]
      rcases nvWrite_exec hnew hindex (fails .openWrite) (fun k => fails (.write k)) with
        ⟨ho, hall, hrun⟩ | ⟨e, k, hfail, hk, hrun⟩
      · left
        simp only [hrun]
        exact ⟨⟨hd, ho, hall⟩, trivial, stored_progress erased hnew⟩
      · right
        simp only [hrun]
        refine ⟨?_, ⟨e, rfl⟩, interrupted_progress erased hnew hk⟩
        rintro ⟨-, ho, hall⟩
        rcases hfail with hf | ⟨j, hj, hf⟩
        · rw [ho] at hf
          cases hf
        · have h := hall j hj
          rw [h] at hf
          cases hf

/-- Once the old index is removed, a new one is defined and written. -/
theorem writeAikCert_removed {fails : NvCall → Bool} {erased : UInt8} {i : NvIndex} (hi : s aikCertIndex = some i)
    (hopen : fails .openUndefine = false) (hundefine : fails .undefine = false) :
    (writeAikCert fails erased new).exec s =
      (do
        nvDefineSpace aikCertIndex (fails .define) erased (intOfSize new.length)
        nvWrite aikCertIndex (fails .openWrite) (fun k => fails (.write k)) new : NvProc Unit).exec
          (Function.update s aikCertIndex none) := by
  have hexec := nvUndefineSpace_exec hi (fails .openUndefine) (fails .undefine)
  rw [hopen, hundefine, if_neg (by decide), if_neg (by decide)] at hexec
  rw [writeAikCert, hopen, hundefine]
  exact Proc.exec_bind_ok hexec _

theorem writeAikCert_stores {fails : NvCall → Bool} (erased : UInt8) {old : Bytes} (hold : Stored s old)
    (hnew : new.length ≤ 65535) (hfails : ∀ c, fails c = false) :
    ∃ s', (writeAikCert fails erased new).exec s = (.ok (), s') ∧ Stored s' new := by
  have hfits : new.length < 2 ^ 16 := by omega
  obtain ⟨i, hi, -⟩ := hold
  have habsent : Function.update s aikCertIndex none aikCertIndex = none := Function.update_self _ _ _
  rw [writeAikCert_removed hi (hfails _) (hfails _)]
  rcases define_write_exec fails erased habsent hfits with ⟨-, hret, hstored⟩ | ⟨hfailed, -⟩
  · exact ⟨_, Prod.ext hret rfl, hstored⟩
  · exact absurd ⟨hfails _, hfails _, fun _ _ => hfails _⟩ hfailed

end

def ShortReads.full : ShortReads := ⟨fun _ n => n, fun _ _ h => h, fun _ _ => le_rfl⟩

def sampleStore : NvStore := Function.update (fun _ => none) aikCertIndex (some ⟨[1], true, by decide⟩)

theorem stored_sampleStore : Stored sampleStore [1] := ⟨_, Function.update_self _ _ _, rfl, .inl rfl⟩

end CvmAttestation.Tpm
