import CvmAttestation.TpmAikCert

/-! What `WriteAikCert` can leave, whatever certificate it is given and wherever it stops: nothing has changed, or the
index is absent, or it holds a first part of the certificate and erased bytes after that. The index of a certificate of
65536 bytes or more is too small for it. -/

namespace CvmAttestation.Tpm

open Base

/-- The size of the index that is defined for a certificate. -/
def definedSize (cert : Bytes) : ℕ := uint16OfInt (intOfSize cert.length)

/-- The first `n` bytes of a certificate in an index that was defined for it. -/
def partOf (erased : UInt8) (cert : Bytes) (n : ℕ) : Bytes :=
  cert.take n ++ List.replicate (definedSize cert - n) erased

/-- The index as it is after some of the write commands. -/
def Begun (erased : UInt8) (cert : Bytes) (n : ℕ) (i : NvIndex) : Prop :=
  i.data = partOf erased cert n ∧ i.written = decide (0 < n) ∧ n ≤ definedSize cert ∧ n ≤ cert.length

/-- The store after the removal of the index: all other indices are as they were. -/
def Left (erased : UInt8) (cert : Bytes) (s s' : NvStore) : Prop :=
  ∃ index, s' = Function.update s aikCertIndex index ∧ ∀ i, index = some i → ∃ n, Begun erased cert n i

section

variable {erased : UInt8} {cert : Bytes} {n : ℕ} {i : NvIndex}

theorem Begun.length (h : Begun erased cert n i) : i.data.length = definedSize cert := by
  obtain ⟨hdata, -, hsize, hn⟩ := h
  rw [hdata, partOf, List.length_append, List.length_take, List.length_replicate]
  omega

/-- A write command that succeeds moves the part on by its chunk. -/
theorem Begun.write {m : ℕ} {i' : NvIndex} (h : Begun erased cert n i) (hm : 0 < m) (hcert : n + m ≤ cert.length)
    (hwrite : i.write ((cert.drop n).take m) (n % 2 ^ 16) = some i') : Begun erased cert (n + m) i' := by
  have hlength := h.length
  have hfits := i.fits
  obtain ⟨hdata, -, hsize, hn⟩ := h
  have hoffset : n % 2 ^ 16 = n := Nat.mod_eq_of_lt (by omega)
  have hchunk : ((cert.drop n).take m).length = m := by
    rw [List.length_take, List.length_drop]
    omega
  have htake : (cert.take n).length = n := by
    rw [List.length_take]
    omega
  rw [hoffset, NvIndex.write] at hwrite
  split at hwrite
  · rename_i hroom
    rw [hchunk, hlength] at hroom
    have hkept : i.data.take n = cert.take n := by
      rw [hdata, partOf, List.take_append_of_le_length (le_of_eq htake.symm), List.take_take, Nat.min_self]
    have hrest : i.data.drop (n + m) = List.replicate (definedSize cert - (n + m)) erased := by
      rw [hdata, partOf, List.drop_append, htake, List.drop_eq_nil_of_le (by omega), List.nil_append,
        List.drop_replicate]
      congr 1
      omega
    cases hwrite
    refine ⟨?_, ?_, hroom, hcert⟩
    · simp only [hkept, hchunk, hrest]
      rw [partOf, List.take_add, List.append_assoc]
    · have hpos : 0 < n + m := by omega
      exact (decide_eq_true hpos).symm
  · cases hwrite

theorem begun_fresh (erased : UInt8) (cert : Bytes) :
    Begun erased cert 0 (.fresh erased (definedSize cert) (uint16OfInt_lt _)) :=
  ⟨rfl, rfl, Nat.zero_le _, Nat.zero_le _⟩

theorem Left.some {s : NvStore} (h : Begun erased cert n i) :
    Left erased cert s (Function.update s aikCertIndex (some i)) := by
  refine ⟨_, rfl, fun j hj => ⟨n, ?_⟩⟩
  cases hj
  exact h

theorem Left.none (s : NvStore) : Left erased cert s (Function.update s aikCertIndex none) := by
  refine ⟨_, rfl, fun j hj => ?_⟩
  cases hj

/-- The write loop goes on with what is there, and stops where a command fails. -/
theorem nvWriteLoop_left (fails : ℕ → Bool) (size k : ℕ) (s : NvStore) (hi : Begun erased cert n i)
    (hsize : n + size ≤ cert.length) :
    Left erased cert s
      ((nvWriteLoop aikCertIndex fails cert size n k).exec (Function.update s aikCertIndex (some i))).2 := by
  induction size using Nat.strong_induction_on generalizing n k i with
  | _ size ih =>
      rw [nvWriteLoop]
      by_cases hzero : size = 0
      · rw [if_pos hzero]
        exact Left.some hi
      · rw [if_neg hzero]
        have hm : 0 < min size maxNvBufferSize := by
          rw [maxNvBufferSize]
          omega
        have hle : min size maxNvBufferSize ≤ size := min_le_left _ _
        generalize min size maxNvBufferSize = m at hm hle
        have hstop : ∀ {e : Tss2Error}, (nvWriteChunk aikCertIndex (fails k) ((cert.drop n).take m) n).exec
            (Function.update s aikCertIndex (some i)) = (.error e, Function.update s aikCertIndex (some i)) →
            Left erased cert s ((do
              nvWriteChunk aikCertIndex (fails k) ((cert.drop n).take m) n
              nvWriteLoop aikCertIndex fails cert (size - m) (n + m) (k + 1) : NvProc Unit).exec
                (Function.update s aikCertIndex (some i))).2 := by
          intro e he
          rw [Proc.exec_bind_error he]
          exact Left.some hi
        cases hwrite : i.write ((cert.drop n).take m) (n % 2 ^ 16) with
        | none =>
            apply hstop
            apply Proc.exec_attempt_error
            rw [Function.update_self, Option.bind_some, hwrite]
        | some i' =>
            cases hfail : fails k with
            | true =>
                rw [hfail] at hstop
                apply hstop
                apply Proc.exec_attempt_error
                rw [Function.update_self, Option.bind_some, hwrite]
                exact if_pos rfl
            | false =>
                have hstep : (nvWriteChunk aikCertIndex false ((cert.drop n).take m) n).exec
                    (Function.update s aikCertIndex (some i)) =
                      (.ok (), Function.update s aikCertIndex (some i')) := by
                  apply Proc.exec_attempt_ok
                  rw [Function.update_self, Option.bind_some, hwrite]
                  simp only [Bool.false_eq_true, if_false, Function.update_idem]
                rw [Proc.exec_bind_ok hstep]
                exact ih (size - m) (by omega) (k + 1) (hi.write hm (by omega) hwrite) (by omega)

/-- **What is left of a certificate**, from any store and for a certificate of any size: the store is as it was, or the
index is absent or holds a part of the new certificate. -/
theorem writeAikCert_left (fails : NvCall → Bool) (erased : UInt8) (s : NvStore) (cert : Bytes) :
    ((writeAikCert fails erased cert).exec s).2 = s ∨
      Left erased cert s ((writeAikCert fails erased cert).exec s).2 := by
  cases hindex : s aikCertIndex with
  | none =>
      left
      have hopen : (nvUndefineSpace aikCertIndex (fails .openUndefine) (fails .undefine)).exec s =
          (.error .openTr, s) := by
        apply Proc.exec_bind_error
        apply Proc.exec_attempt_error
        simp [hindex]
      rw [writeAikCert, Proc.exec_bind_error hopen]
  | some i =>
      have hundefine := nvUndefineSpace_exec hindex (fails .openUndefine) (fails .undefine)
      cases ho : fails .openUndefine with
      | true =>
          left
          rw [ho, if_pos rfl] at hundefine
          rw [writeAikCert, ho, Proc.exec_bind_error hundefine]
      | false =>
          cases hu : fails .undefine with
          | true =>
              left
              rw [ho, hu, if_neg (by decide), if_pos rfl] at hundefine
              rw [writeAikCert, ho, hu, Proc.exec_bind_error hundefine]
          | false =>
              right
              rw [writeAikCert_removed hindex ho hu]
              cases hd : fails .define with
              | true =>
                  have hdefine : (nvDefineSpace aikCertIndex true erased (intOfSize cert.length)).exec
                      (Function.update s aikCertIndex none) =
                        (.error .defineSpace, Function.update s aikCertIndex none) :=
                    Proc.exec_attempt_error (by simp)
                  rw [Proc.exec_bind_error hdefine]
                  exact Left.none s
              | false =>
                  have hdefine : (nvDefineSpace aikCertIndex false erased (intOfSize cert.length)).exec
                      (Function.update s aikCertIndex none) = (.ok (), Function.update s aikCertIndex
                        (some (.fresh erased (definedSize cert) (uint16OfInt_lt _)))) := by
                    apply Proc.exec_attempt_ok
                    simp only [Function.update_self, Option.isSome_none, Bool.or_self, Bool.false_eq_true, if_false,
                      Function.update_idem, definedSize]
                  rw [Proc.exec_bind_ok hdefine, nvWrite]
                  cases hw : fails .openWrite with
                  | true =>
                      have hopen : (handleToEsys aikCertIndex true).exec (Function.update s aikCertIndex
                          (some (.fresh erased (definedSize cert) (uint16OfInt_lt _)))) = (.error .openTr, _) :=
                        Proc.exec_attempt_error (by simp)
                      rw [Proc.exec_bind_error hopen]
                      exact Left.some (begun_fresh erased cert)
                  | false =>
                      rw [Proc.exec_bind_ok (handleToEsys_some (Function.update_self _ _ _))]
                      have hsize : (intOfSize cert.length).toNat ≤ cert.length := by
                        rw [intOfSize]
                        split
                        all_goals omega
                      exact nvWriteLoop_left _ _ _ _ (begun_fresh erased cert) (by omega)

end

/-- A write whose first command fails changes nothing. -/
theorem nvWrite_stops {fails : ℕ → Bool} {openFails : Bool} {s : NvStore} {i : NvIndex} {data : Bytes}
    (hi : s aikCertIndex = some i) (hfirst : openFails = true ∨ fails 0 = true)
    (hsize : (intOfSize data.length).toNat ≠ 0) :
    ∃ e, (nvWrite aikCertIndex openFails fails data).exec s = (.error e, s) := by
  unfold nvWrite
  cases openFails with
  | true =>
      have hopen : (handleToEsys aikCertIndex true).exec s = (.error .openTr, s) := Proc.exec_attempt_error (by simp)
      exact ⟨_, Proc.exec_bind_error hopen _⟩
  | false =>
      obtain hopen | hfirst := hfirst
      · cases hopen
      · refine ⟨.nvWrite, ?_⟩
        rw [Proc.exec_bind_ok (handleToEsys_some hi), nvWriteLoop, if_neg hsize]
        apply Proc.exec_bind_error
        apply Proc.exec_attempt_error
        rw [hfirst]
        split
        · rfl
        · rfl

/-- **A replacement that stops before its first chunk leaves no certificate.** -/
theorem writeAikCert_lost {fails : NvCall → Bool} (erased : UInt8) {s : NvStore} {old new : Bytes} (hold : Stored s old)
    (hnew : new ≠ []) (hfits : new.length < 2 ^ 16) (hopen : fails .openUndefine = false)
    (hundefine : fails .undefine = false)
    (hfirst : fails .define = true ∨ fails .openWrite = true ∨ fails (.write 0) = true) (cert : Bytes) :
    ¬Stored ((writeAikCert fails erased new).exec s).2 cert := by
  obtain ⟨i, hi, -⟩ := hold
  rw [writeAikCert_removed hi hopen hundefine]
  have hdefine := nvDefineSpace_exec erased (Function.update_self aikCertIndex none s) hfits (fails .define)
  cases hd : fails .define with
  | true =>
      rw [hd, if_pos rfl] at hdefine
      rw [Proc.exec_bind_error hdefine]
      rintro ⟨j, hj, -⟩
      dsimp only at hj
      rw [Function.update_self] at hj
      cases hj
  | false =>
      rw [hd, if_neg (by decide)] at hdefine
      rw [Proc.exec_bind_ok hdefine]
      have hwrites : fails .openWrite = true ∨ fails (.write 0) = true := by
        rw [hd] at hfirst
        exact hfirst.resolve_left Bool.false_ne_true
      have hlength : new.length ≠ 0 := mt List.eq_nil_of_length_eq_zero hnew
      have hsize : (intOfSize new.length).toNat ≠ 0 := by
        rw [intOfSize_of_lt hfits]
        exact hlength
      obtain ⟨e, hrun⟩ := @nvWrite_stops (fun k => fails (.write k)) _ _ _ new (Function.update_self _ _ _) hwrites hsize
      rw [hrun]
      rintro ⟨j, hj, hdata, hread⟩
      dsimp only at hj
      rw [Function.update_self] at hj
      cases hj
      -- the index has the size of the new certificate, and nothing was written to it
      obtain hwritten | hempty := hread
      · cases hwritten
      · rw [← hdata, progress_zero] at hempty
        exact hlength ((List.replicate_eq_nil_iff _).1 hempty)

/-- The certificate is read exactly where it is stored. -/
theorem getAIKCert_eq_ok_iff {reads : ShortReads} {s : NvStore} {cert : Bytes} :
    ((getAIKCert reads).exec s).1 = .ok cert ↔ Stored s cert := by
  constructor
  · intro h
    cases hindex : s aikCertIndex with
    | none =>
        rw [getAIKCert, nvRead_absent reads hindex] at h
        cases h
    | some i =>
        by_cases hread : i.written = true ∨ i.data = []
        · rw [getAIKCert, nvRead_stored reads aikCertIndex s i hindex hread] at h
          cases h
          exact ⟨i, hindex, rfl, hread⟩
        · rw [not_or, Bool.not_eq_true] at hread
          rw [getAIKCert, nvRead_unwritten reads hindex hread.1 hread.2] at h
          cases h
  · intro h
    rw [getAIKCert_stored reads h]

theorem Stored.unique {s : NvStore} {cert cert' : Bytes} (h : Stored s cert) (h' : Stored s cert') : cert = cert' := by
  obtain ⟨i, hi, rfl, -⟩ := h
  obtain ⟨i', hi', rfl, -⟩ := h'
  rw [hi] at hi'
  cases hi'
  rfl

end CvmAttestation.Tpm
