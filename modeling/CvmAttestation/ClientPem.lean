import CvmAttestation.ClientAkCert

/-! PEM texts of a certificate. `ReadAkCertFromTpm` builds one for IMDS, and the renewal takes one apart: it removes the
header and the footer, each with one line end, and then all other line ends. -/

namespace CvmAttestation.Client

open Base Tpm

def certificateHeader : Bytes := ascii "-----BEGIN CERTIFICATE-----\n"

def certificateFooter : Bytes := ascii "\n-----END CERTIFICATE-----"

theorem header_line : ascii "-----BEGIN CERTIFICATE-----" ++ [10] = certificateHeader := rfl

theorem footer_line : [10] ++ ascii "-----END CERTIFICATE-----" = certificateFooter := rfl

/-- The text that `ReadAkCertFromTpm` builds: the base64 text of the certificate in one line. -/
def akCertPem (aikCert : Bytes) : Bytes := certificateHeader ++ (Base64.encode aikCert ++ certificateFooter)

/-- `ReadAkCertFromTpm`: its result, and the text it leaves in `akCert`. -/
def TpmCalls.readAkCert (T : TpmCalls) (s : NvStore) (akCert : Bytes) : AttestationResult × Bytes :=
  match ((getAIKCert T.reads).exec s).1 with
  | .ok aikCert => (.success, akCertPem aikCert)
  | .error e => (⟨.tpmOperationFailure, tss2What e.what (T.rc e), T.rc e⟩, akCert)

theorem readAkCert_result (T : TpmCalls) (s : NvStore) (akCert : Bytes) :
    (T.readAkCert s akCert).1 = T.readAkCertFromTpm s := by
  unfold TpmCalls.readAkCert TpmCalls.readAkCertFromTpm
  cases ((getAIKCert T.reads).exec s).1 with
  | ok aikCert => rfl
  | error e => rfl

inductive LineEnd
  | lf
  | crlf
  deriving DecidableEq, Repr

def LineEnd.bytes : LineEnd → Bytes
  | .lf => [10]
  | .crlf => [13, 10]

/-- A PEM text of a certificate, given by its lines and their ends. The base64 text may be broken anywhere, so that
lines may also be empty. -/
structure Pem (d : Bytes) where
  headerEnd : LineEnd
  lines : List (Bytes × LineEnd)
  trailing : List LineEnd
  hlines : lines.flatMap Prod.fst = Base64.encode d

def Pem.text {d : Bytes} (p : Pem d) : Bytes :=
  ascii "-----BEGIN CERTIFICATE-----" ++ (p.headerEnd.bytes ++ (p.lines.flatMap (fun l => l.1 ++ l.2.bytes) ++
    (ascii "-----END CERTIFICATE-----" ++ p.trailing.flatMap LineEnd.bytes)))

/-! ### Erasing a pattern -/

section

variable {pattern : Bytes}

theorem eraseFrom_eq (skip : ℕ) (s : Bytes) : eraseFrom pattern skip s = eraseAll pattern (s.drop skip) := by
  induction s generalizing skip with
  | nil => cases skip <;> rfl
  | cons c s ih =>
      cases skip with
      | zero => rfl
      | succ skip => exact ih skip

theorem eraseAll_cons_of_not {c : UInt8} {s : Bytes} (h : ¬pattern <+: c :: s) :
    eraseAll pattern (c :: s) = c :: eraseAll pattern s := by
  rw [← List.isPrefixOf_iff_prefix] at h
  exact if_neg h

theorem eraseAll_pattern_append (h : pattern ≠ []) (s : Bytes) : eraseAll pattern (pattern ++ s) = eraseAll pattern s := by
  cases pattern with
  | nil => exact absurd rfl h
  | cons c rest =>
      have hstart : (c :: rest).isPrefixOf (c :: (rest ++ s)) = true :=
        List.isPrefixOf_iff_prefix.2 (List.prefix_append (c :: rest) s)
      calc eraseAll (c :: rest) (c :: (rest ++ s))
          = eraseFrom (c :: rest) rest.length (rest ++ s) := if_pos hstart
        _ = eraseAll (c :: rest) ((rest ++ s).drop rest.length) := eraseFrom_eq _ _
        _ = eraseAll (c :: rest) s := by rw [List.drop_left]

/-- A part of a text in which the pattern begins nowhere is kept. -/
theorem eraseAll_append {s t : Bytes} (h : ∀ u, u <:+ s → u ≠ [] → ¬pattern <+: u ++ t) :
    eraseAll pattern (s ++ t) = s ++ eraseAll pattern t := by
  induction s with
  | nil => rfl
  | cons c s ih =>
      have hhead : ¬pattern <+: c :: (s ++ t) := h (c :: s) List.suffix_rfl (List.cons_ne_nil c s)
      rw [List.cons_append, eraseAll_cons_of_not hhead, List.cons_append]
      rw [ih fun u hu hne => h u (hu.trans (List.suffix_cons c s)) hne]

theorem eraseAll_of_notMem {c : UInt8} (hc : c ∈ pattern) {s : Bytes} (hs : c ∉ s) : eraseAll pattern s = s := by
  have hnowhere : ∀ u, u <:+ s → u ≠ [] → ¬pattern <+: u ++ [] := by
    intro u hu _ hstart
    rw [List.append_nil] at hstart
    exact hs (hu.subset (hstart.subset hc))
  calc eraseAll pattern s = eraseAll pattern (s ++ []) := by rw [List.append_nil]
    _ = s ++ eraseAll pattern [] := eraseAll_append hnowhere
    _ = s := List.append_nil s

theorem eraseAll_singleton (c : UInt8) (s : Bytes) : eraseAll [c] s = s.filter (· ≠ c) := by
  induction s with
  | nil => rfl
  | cons d s ih =>
      by_cases hd : d = c
      · subst hd
        rw [List.filter_cons_of_neg (by simp), ← ih]
        exact eraseAll_pattern_append (List.cons_ne_nil d []) s
      · have hhead : ¬[c] <+: d :: s := by
          rintro ⟨rest, hrest⟩
          exact hd (List.cons.inj hrest).1.symm
        rw [List.filter_cons_of_pos (by simpa using hd), eraseAll_cons_of_not hhead, ih]

end

/-! ### Taking a PEM text apart -/

/-- A text between header and footer that has no hyphen is what is left, without its line ends. -/
theorem erase_markers {content : Bytes} (h : 45 ∉ content) (k : ℕ) :
    eraseAll (ascii "\n") (eraseAll certificateFooter (eraseAll certificateHeader
      (certificateHeader ++ (content ++ (certificateFooter ++ List.replicate k 10))))) = content.filter (· ≠ 10) := by
  have hmem : ∀ {u : Bytes}, u <:+ content → 45 ∉ u := fun hu hc => h (hu.subset hc)
  have hheader : eraseAll certificateHeader (certificateHeader ++ (content ++ (certificateFooter ++ List.replicate k 10))) =
      content ++ (certificateFooter ++ List.replicate k 10) := by
    rw [eraseAll_pattern_append (by decide), eraseAll_append]
    · have hletter : (66 : UInt8) ∉ certificateFooter ++ List.replicate k 10 := by
        rw [List.mem_append, not_or]
        refine ⟨by decide, fun hc => ?_⟩
        cases List.eq_of_mem_replicate hc
      rw [eraseAll_of_notMem (c := 66) (by decide) hletter]
    · -- the header begins with a hyphen
      intro u hu hne hstart
      obtain ⟨c, u, rfl⟩ := List.exists_cons_of_ne_nil hne
      obtain ⟨rest, hrest⟩ := hstart
      exact hmem hu (by rw [← (List.cons.inj hrest).1]; exact List.mem_cons_self)
  have hfooter : eraseAll certificateFooter (content ++ (certificateFooter ++ List.replicate k 10)) =
      content ++ List.replicate k 10 := by
    have hhyphen : (45 : UInt8) ∉ List.replicate k 10 := fun hc => by cases List.eq_of_mem_replicate hc
    rw [eraseAll_append, eraseAll_pattern_append (by decide), eraseAll_of_notMem (c := 45) (by decide) hhyphen]
    -- a hyphen is the second character of the footer
    intro u hu hne hstart
    obtain ⟨c, u, rfl⟩ := List.exists_cons_of_ne_nil hne
    obtain ⟨rest, hrest⟩ := hstart
    have htail := (List.cons.inj hrest).2
    cases u with
    | nil => cases (List.cons.inj htail).1
    | cons c' u =>
        exact hmem hu (by rw [← (List.cons.inj htail).1]; exact List.mem_cons_of_mem c List.mem_cons_self)
  rw [hheader, hfooter, show ascii "\n" = [10] from rfl, eraseAll_singleton, List.filter_append, List.filter_replicate,
    if_neg (by decide), List.append_nil]

theorem mem_encode_ne {d : Bytes} {c : UInt8} (h : c ∈ Base64.encode d) : c ≠ 10 ∧ c ≠ 13 ∧ c ≠ 45 := by
  have hchar : ∀ n < 64, Base64.char n ≠ 10 ∧ Base64.char n ≠ 13 ∧ Base64.char n ≠ 45 := by decide
  rw [Base64.encode, List.mem_append] at h
  rcases h with h | h
  · obtain ⟨n, hn, rfl⟩ := Base64.mem_encodeRaw h
    exact hchar n hn
  · rw [List.eq_of_mem_replicate h]
    decide

namespace Pem

variable {d : Bytes}

theorem line_subset (p : Pem d) {l : Bytes × LineEnd} (hl : l ∈ p.lines) {c : UInt8} (hc : c ∈ l.1) :
    c ∈ Base64.encode d := by
  rw [← p.hlines]
  exact List.mem_flatMap.2 ⟨l, hl, hc⟩

/-- Without carriage returns every line end is a line feed. -/
theorem text_unix (p : Pem d) :
    p.text.filter (· ≠ 13) = certificateHeader ++ (p.lines.flatMap (fun l => l.1 ++ [10]) ++
      (ascii "-----END CERTIFICATE-----" ++ List.replicate p.trailing.length 10)) := by
  have hend : ∀ e : LineEnd, e.bytes.filter (· ≠ 13) = [10] := fun e => by cases e <;> rfl
  have hlines : (p.lines.flatMap fun l => l.1 ++ l.2.bytes).filter (· ≠ 13) = p.lines.flatMap fun l => l.1 ++ [10] := by
    rw [List.filter_flatMap]
    apply List.flatMap_congr
    intro l hl
    have hkept : l.1.filter (· ≠ 13) = l.1 :=
      List.filter_eq_self.2 fun c hc => decide_eq_true (mem_encode_ne (p.line_subset hl hc)).2.1
    rw [List.filter_append, hend, hkept]
  have htrailing : (p.trailing.flatMap LineEnd.bytes).filter (· ≠ 13) = List.replicate p.trailing.length 10 := by
    rw [List.filter_flatMap]
    calc p.trailing.flatMap (fun e => e.bytes.filter (· ≠ 13))
        = p.trailing.flatMap fun _ => [10] := List.flatMap_congr fun e _ => hend e
      _ = p.trailing.map fun _ => 10 := List.flatMap_pure_eq_map _ _
      _ = List.replicate p.trailing.length 10 := List.map_const'
  have hheader : (ascii "-----BEGIN CERTIFICATE-----").filter (· ≠ 13) = ascii "-----BEGIN CERTIFICATE-----" := rfl
  have hfooter : (ascii "-----END CERTIFICATE-----").filter (· ≠ 13) = ascii "-----END CERTIFICATE-----" := rfl
  unfold text
  simp only [List.filter_append]
  rw [hend, hlines, htrailing, hheader, hfooter, ← List.append_assoc, header_line]

/-- The last line of a text that is not empty has its end right before the footer. -/
theorem lines_last (p : Pem d) (hd : d ≠ []) :
    ∃ content, (p.lines.flatMap fun l => l.1 ++ [10]) = content ++ [10] ∧ 45 ∉ content ∧
      content.filter (· ≠ 10) = Base64.encode d := by
  obtain hnil | ⟨lines, l, hlast⟩ := p.lines.eq_nil_or_concat
  · have hempty := p.hlines
    rw [hnil] at hempty
    exact absurd hempty.symm (Base64.encode_ne_nil hd)
  · have hlines : p.lines = lines ++ [l] := hlast.trans (List.concat_eq_append ..)
    have hhyphen : ∀ l' ∈ p.lines, 45 ∉ l'.1 := fun l' hl' hc => (mem_encode_ne (p.line_subset hl' hc)).2.2 rfl
    rw [hlines, List.forall_mem_append, List.forall_mem_singleton] at hhyphen
    refine ⟨lines.flatMap (fun l => l.1 ++ [10]) ++ l.1, ?_, ?_, ?_⟩
    · rw [hlines, List.flatMap_append, List.flatMap_singleton, List.append_assoc]
    · intro hc
      rw [List.mem_append, List.mem_flatMap] at hc
      obtain ⟨l', hl', hc⟩ | hc := hc
      · rw [List.mem_append, List.mem_singleton] at hc
        obtain hc | hc := hc
        · exact hhyphen.1 l' hl' hc
        · cases hc
      · exact hhyphen.2 hc
    · have hkept : ∀ l' ∈ p.lines, l'.1.filter (· ≠ 10) = l'.1 := fun l' hl' =>
        List.filter_eq_self.2 fun c hc => decide_eq_true (mem_encode_ne (p.line_subset hl' hc)).1
      have hparts : (p.lines.flatMap fun l => l.1 ++ [10]).filter (· ≠ 10) = Base64.encode d := by
        rw [List.filter_flatMap, ← p.hlines]
        apply List.flatMap_congr
        intro l' hl'
        rw [List.filter_append, hkept l' hl']
        exact List.append_nil _
      rw [← hparts, hlines, List.flatMap_append, List.flatMap_singleton, ← List.append_assoc, List.filter_append _ [10]]
      exact (List.append_nil _).symm

/-- **Every PEM text of a certificate is mapped back to its base64 text**, however the lines are broken and ended. -/
theorem removeCertHeaderAndFooter_text (p : Pem d) (hd : d ≠ []) : removeCertHeaderAndFooter p.text = Base64.encode d := by
  obtain ⟨content, hcontent, hhyphen, hfilter⟩ := p.lines_last hd
  have hreturn : ascii "\r" = [13] := rfl
  calc removeCertHeaderAndFooter p.text
      = eraseAll (ascii "\n") (eraseAll certificateFooter (eraseAll certificateHeader (p.text.filter (· ≠ 13)))) := by
        rw [removeCertHeaderAndFooter, hreturn, eraseAll_singleton, certificateHeader, certificateFooter]
    _ = eraseAll (ascii "\n") (eraseAll certificateFooter (eraseAll certificateHeader
          (certificateHeader ++ (content ++ (certificateFooter ++ List.replicate p.trailing.length 10))))) := by
        rw [p.text_unix, hcontent, List.append_assoc content, ← List.append_assoc [10], footer_line]
    _ = Base64.encode d := by rw [erase_markers hhyphen, hfilter]

/-- The text that `ReadAkCertFromTpm` builds has one line. -/
def read (d : Bytes) : Pem d where
  headerEnd := .lf
  lines := [(Base64.encode d, .lf)]
  trailing := []
  hlines := List.flatMap_singleton _ _

theorem read_text (d : Bytes) : (read d).text = akCertPem d := by
  calc (read d).text
      = ascii "-----BEGIN CERTIFICATE-----" ++ [10] ++ (Base64.encode d ++ ([10] ++ ascii "-----END CERTIFICATE-----")) := by
        simp [text, read, LineEnd.bytes]
    _ = akCertPem d := by rw [header_line, footer_line, akCertPem]

end Pem

/-! ### Renewing with what was read -/

section

variable {T : TpmCalls} {s : NvStore} {d : Bytes}

theorem readAkCert_stored (hd : Stored s d) (akCert : Bytes) : T.readAkCert s akCert = (.success, akCertPem d) := by
  rw [TpmCalls.readAkCert, getAIKCert_stored T.reads hd]

/-- A write that returns has stored the certificate. -/
theorem writeAikCert_returns {s' : NvStore} {new : Bytes} (hold : Stored s d) (hnew : new.length ≤ 65535)
    (h : (writeAikCert T.fails T.erased new).exec s = (.ok (), s')) : Stored s' new := by
  have hfits : new.length < 2 ^ 16 := by omega
  obtain ⟨i, hi, -⟩ := hold
  have hundefine := nvUndefineSpace_exec hi (T.fails .openUndefine) (T.fails .undefine)
  cases ho : T.fails .openUndefine with
  | true =>
      rw [ho, if_pos rfl] at hundefine
      rw [writeAikCert, ho, Proc.exec_bind_error hundefine] at h
      cases h
  | false =>
      cases hu : T.fails .undefine with
      | true =>
          rw [ho, hu, if_neg (by decide), if_pos rfl] at hundefine
          rw [writeAikCert, ho, hu, Proc.exec_bind_error hundefine] at h
          cases h
      | false =>
          rw [writeAikCert_removed hi ho hu] at h
          rcases define_write_exec T.fails T.erased (Function.update_self _ _ _) hfits with ⟨-, -, hstored⟩ | ⟨-, ⟨e, he⟩, -⟩
          · rw [h] at hstored
            exact hstored
          · rw [h] at he
            cases he

/-- A renewal that receives a text of the stored certificate writes that certificate. -/
theorem renewAndReplaceAkCertOn_same {J : Jsoncpp} {M : Machine} {pem : Bytes} (hd : Stored s d)
    (hpem : base64ToBinary (removeCertHeaderAndFooter pem) = .ok d) (hreceived : Received J M pem) :
    let run := renewAndReplaceAkCertOn J M T s
    (run.1.code = .success → Stored run.2 d) ∧ ((∀ c, T.fails c = false) → run.1.code = .success) := by
  intro run
  have hread : (M.on T s).readAkCertFromTpm.code = .success := by
    show (T.readAkCertFromTpm s).code = .success
    rw [readAkCertFromTpm_stored hd]
    rfl
  have hder : (renewedDer J (M.on T s)).Returns d := (returns_renewedDer_iff hread).2 ⟨pem, hreceived, hpem⟩
  have hsize : d.length ≤ 65535 := by
    obtain ⟨i, -, hdata, -⟩ := hd
    have hfits := i.fits
    rw [hdata] at hfits
    omega
  rcases hwrite : (writeAikCert T.fails T.erased d).exec s with ⟨r, s'⟩
  cases r with
  | ok u =>
      have hrun : run = (.success, s') := renewAndReplaceAkCertOn_written hder hwrite
      rw [hrun]
      exact ⟨fun _ => writeAikCert_returns hd hsize hwrite, fun _ => rfl⟩
  | error e =>
      have hrun : run = (.failure .akCertRenew (ascii "Unexpected erropr in RenewAndReplaceAkCert"), s') := by
        show renewAndReplaceAkCertOn J M T s = _
        rw [renewAndReplaceAkCertOn, hder]
        simp only [hwrite]
      rw [hrun]
      constructor
      · intro hcode
        cases hcode
      · intro hcalls
        obtain ⟨_, hdone, -⟩ := writeAikCert_stores T.erased hd hsize hcalls
        rw [hwrite] at hdone
        cases hdone

end

/-- **Every PEM text of a certificate is mapped back to the certificate**, and so is the text that `ReadAkCertFromTpm`
builds. A renewal that receives that text and succeeds leaves the same bytes stored, and it succeeds when no call to the
TPM fails. -/
theorem pem_mapped_back (d : Bytes) (hd : d ≠ []) :
    (∀ p : Pem d, base64ToBinary (removeCertHeaderAndFooter p.text) = .ok d) ∧
      ∀ (T : TpmCalls) (s : NvStore) (akCert : Bytes), Stored s d →
        T.readAkCert s akCert = (.success, akCertPem d) ∧
          base64ToBinary (removeCertHeaderAndFooter (akCertPem d)) = .ok d ∧
          ∀ (J : Jsoncpp) (M : Machine), Received J M (akCertPem d) →
            let run := renewAndReplaceAkCertOn J M T s
            (run.1.code = .success → Stored run.2 d) ∧ ((∀ c, T.fails c = false) → run.1.code = .success) := by
  have hback : ∀ p : Pem d, base64ToBinary (removeCertHeaderAndFooter p.text) = .ok d := by
    intro p
    rw [p.removeCertHeaderAndFooter_text hd, base64ToBinary_encode]
  have hread : base64ToBinary (removeCertHeaderAndFooter (akCertPem d)) = .ok d := by
    rw [← Pem.read_text]
    exact hback _
  refine ⟨hback, fun T s akCert hs => ⟨readAkCert_stored hs akCert, hread, fun J M hreceived => ?_⟩⟩
  exact renewAndReplaceAkCertOn_same hs hread hreceived

namespace Sample

def der : Bytes := (List.range 100).map UInt8.ofNat

/-- Three lines with different ends, the last one of eight characters, and two line ends after the footer. -/
def wrapped : Pem der where
  headerEnd := .crlf
  lines := [((Base64.encode der).take 64, .crlf), (((Base64.encode der).drop 64).take 64, .lf),
    ((Base64.encode der).drop 128, .crlf)]
  trailing := [.crlf, .lf]
  hlines := by decide +kernel

def derStore : NvStore := Function.update (fun _ => none) aikCertIndex (some ⟨der, true, by decide⟩)

theorem stored_derStore : Stored derStore der := ⟨_, Function.update_self _ _ _, rfl, .inl rfl⟩

theorem received_akCertPem : Received noJson (queried (akCertPem der)) (akCertPem der) :=
  ⟨by decide, by decide +kernel, .inr ⟨rfl, by decide, rfl⟩⟩

end Sample

open Sample in
theorem pem_mapped_back_wrapped :
    base64ToBinary (removeCertHeaderAndFooter wrapped.text) = .ok der ∧ Stored derStore der ∧
      Received noJson (queried (akCertPem der)) (akCertPem der) ∧
      (renewAndReplaceAkCertOn noJson (queried (akCertPem der)) calls derStore).1.code = .success := by
  obtain ⟨hback, hread⟩ := pem_mapped_back der (by decide)
  obtain ⟨-, -, hrenew⟩ := hread calls derStore [] stored_derStore
  exact ⟨hback wrapped, stored_derStore, received_akCertPem, (hrenew noJson _ received_akCertPem).2 fun _ => rfl⟩

end CvmAttestation.Client
