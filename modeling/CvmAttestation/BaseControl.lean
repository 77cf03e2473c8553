import Mathlib.Tactic

/-! Control flow with exceptions: how to take a computation apart that has returned, `try` blocks, and
procedures that also change a state. A `try` block is `guarded body handler`, where the handler may return
a value of its own or raise again. A procedure keeps the state it had reached when it raises. A function that
reports failures through its result but may also raise is `Fallible`; it is safe when it does not raise. -/

namespace CvmAttestation.Base

variable {ε ε' σ α β : Type}

theorem ok_bind (a : α) (f : α → Except ε β) : (Except.ok a >>= f) = f a := rfl

theorem bind_returns {x : Except ε α} {f : α → Except ε β} {b : β} :
    (x >>= f) = .ok b ↔ ∃ a, x = .ok a ∧ f a = .ok b := by
  cases x with
  | error e => simp [bind, Except.bind]
  | ok a => simp [bind, Except.bind]

theorem mapError_ok_iff {x : Except ε α} {g : ε → ε'} {a : α} : x.mapError g = .ok a ↔ x = .ok a := by
  cases x <;> simp [Except.mapError]

theorem mapError_bind (x : Except ε α) (f : α → Except ε β) (g : ε → ε') :
    (x >>= f).mapError g = x.mapError g >>= fun a => (f a).mapError g := by
  cases x with
  | ok a => rfl
  | error e => rfl

/-- Two computations that return the same values also raise together. -/
theorem raises_iff {x : Except ε α} {y : Except ε' α} (h : ∀ a, x = .ok a ↔ y = .ok a) :
    (∃ e, x = .error e) ↔ ∃ e, y = .error e := by
  cases x with
  | ok a =>
      rw [(h a).1 rfl]
      simp
  | error e =>
      cases y with
      | ok b => cases (h b).2 rfl
      | error e' => simp

/-- `try { body } catch (...) { handler }`. -/
def guarded (body : Except ε α) (handler : ε → Except ε' α) : Except ε' α :=
  match body with
  | .ok a => .ok a
  | .error e => handler e

theorem guarded_returns {body : Except ε α} {handler : ε → ε'} {a : α}
    (h : guarded body (fun e => .error (handler e)) = .ok a) : body = .ok a := by
  cases body with
  | ok b =>
      cases h
      rfl
  | error e => cases h

theorem guarded_always {body : Except ε α} {handler : ε → Except ε' α} (h : ∀ e, ∃ a, handler e = .ok a) :
    ∃ a, guarded body handler = .ok a := by
  cases body with
  | ok a => exact ⟨a, rfl⟩
  | error e => exact h e

/-- A procedure on a state `σ` that may raise `ε`. -/
abbrev Proc (ε σ α : Type) := ExceptT ε (StateM σ) α

namespace Proc

def call (x : Except ε α) : Proc ε σ α := ExceptT.mk (pure x)

/-- A step that changes the state, or raises and leaves it alone. -/
def attempt (f : σ → Except ε (α × σ)) : Proc ε σ α :=
  ExceptT.mk fun s =>
    match f s with
    | .ok (a, s') => (.ok a, s')
    | .error e => (.error e, s)

/-- A whole run: what the procedure returns or raises, and the state it leaves. -/
def exec (p : Proc ε σ α) (s : σ) : Except ε α × σ := p.run.run s

theorem exec_bind (p : Proc ε σ α) (f : α → Proc ε σ β) (s : σ) :
    (p >>= f).exec s =
      match (p.exec s).1 with
      | .ok a => (f a).exec (p.exec s).2
      | .error e => (.error e, (p.exec s).2) := by
  simp only [exec, ExceptT.run_bind, StateT.run_bind]
  generalize StateT.run (ExceptT.run p) s = q
  obtain ⟨r, s'⟩ : Except ε α × σ := q
  cases r with
  | ok a => rfl
  | error e => rfl

theorem exec_tryCatch (p : Proc ε σ α) (handler : ε → Proc ε σ α) (s : σ) :
    (tryCatch p handler).exec s =
      match (p.exec s).1 with
      | .ok a => (.ok a, (p.exec s).2)
      | .error e => (handler e).exec (p.exec s).2 := by
  simp only [exec, ExceptT.run_tryCatch, StateT.run_bind]
  generalize StateT.run (ExceptT.run p) s = q
  obtain ⟨r, s'⟩ : Except ε α × σ := q
  cases r with
  | ok a => rfl
  | error e => rfl

theorem exec_call (x : Except ε α) (s : σ) : (call x : Proc ε σ α).exec s = (x, s) := rfl

theorem exec_call_ok (a : α) (f : α → Proc ε σ β) (s : σ) : (call (.ok a) >>= f).exec s = (f a).exec s := rfl

theorem exec_modify (g : σ → σ) (f : Unit → Proc ε σ β) (s : σ) :
    ((modify g : Proc ε σ Unit) >>= f).exec s = (f ()).exec (g s) := rfl

theorem exec_attempt_ok {f : σ → Except ε (α × σ)} {s s' : σ} {a : α} (h : f s = .ok (a, s')) :
    (attempt f).exec s = (.ok a, s') := by
  change (match f s with
    | .ok (a, s') => ((.ok a, s') : Except ε α × σ)
    | .error e => (.error e, s)) = _
  rw [h]

theorem exec_attempt_error {f : σ → Except ε (α × σ)} {s : σ} {e : ε} (h : f s = .error e) :
    (attempt f).exec s = (.error e, s) := by
  change (match f s with
    | .ok (a, s') => ((.ok a, s') : Except ε α × σ)
    | .error e => (.error e, s)) = _
  rw [h]

theorem exec_bind_ok {p : Proc ε σ α} {s s' : σ} {a : α} (h : p.exec s = (.ok a, s')) (f : α → Proc ε σ β) :
    (p >>= f).exec s = (f a).exec s' := by
  rw [exec_bind, h]

theorem exec_bind_error {p : Proc ε σ α} {s s' : σ} {e : ε} (h : p.exec s = (.error e, s'))
    (f : α → Proc ε σ β) : (p >>= f).exec s = (.error e, s') := by
  rw [exec_bind, h]

/-- The state after a run that returns, or what is raised. -/
def outcome (p : Proc ε σ Unit) (s : σ) : Except ε σ :=
  match p.exec s with
  | (.ok _, s') => .ok s'
  | (.error e, _) => .error e

theorem outcome_eq_ok_iff {p : Proc ε σ Unit} {s s' : σ} : p.outcome s = .ok s' ↔ p.exec s = (.ok (), s') := by
  rw [outcome]
  obtain ⟨r, u⟩ := p.exec s
  cases r with
  | ok a => rw [Except.ok.injEq, Prod.mk.injEq, and_iff_right (rfl : Except.ok a = Except.ok ())]
  | error e => exact iff_of_false (fun h => by cases h) (fun h => by cases h)

theorem outcome_bind (p : Proc ε σ α) (f : α → Proc ε σ Unit) (s : σ) :
    (p >>= f).outcome s =
      match p.exec s with
      | (.ok a, s') => (f a).outcome s'
      | (.error e, _) => .error e := by
  rw [outcome, exec_bind]
  obtain ⟨r, u⟩ := p.exec s
  cases r with
  | ok a => rfl
  | error e => rfl

theorem outcome_seq (p : Proc ε σ Unit) (f : Unit → Proc ε σ Unit) (s : σ) :
    (p >>= f).outcome s = p.outcome s >>= (f ()).outcome := by
  rw [outcome_bind, outcome]
  obtain ⟨r, u⟩ := p.exec s
  cases r with
  | ok a => rfl
  | error e => rfl

theorem outcome_call (x : Except ε α) (f : α → Proc ε σ Unit) (s : σ) :
    (call x >>= f).outcome s = x >>= fun a => (f a).outcome s := by
  rw [outcome_bind, exec_call]
  cases x with
  | ok a => rfl
  | error e => rfl

theorem outcome_get (f : σ → Proc ε σ Unit) (s : σ) : (get >>= f).outcome s = (f s).outcome s := rfl

/-- A call that both sides make, where the other side computes a part `β` of the state. -/
theorem outcome_call_map {x : Except ε α} {f : α → Proc ε σ Unit} {g : α → Except ε β} {h : β → σ} {s : σ}
    (hf : ∀ a, (f a).outcome s = (g a).map h) : (call x >>= f).outcome s = (x >>= g).map h := by
  rw [outcome_call]
  cases x with
  | ok a => exact hf a
  | error e => rfl

theorem outcome_attempt (g : σ → Except ε (α × σ)) (f : α → Proc ε σ Unit) (s : σ) :
    (attempt g >>= f).outcome s = g s >>= fun r => (f r.1).outcome r.2 := by
  rw [outcome_bind]
  cases h : g s with
  | ok r => rw [exec_attempt_ok (show g s = .ok (r.1, r.2) from h), ok_bind]
  | error e =>
      rw [exec_attempt_error h]
      rfl

theorem outcome_attempt_last (g : σ → Except ε (Unit × σ)) (s : σ) : (attempt g).outcome s = (g s).map Prod.snd := by
  rw [outcome]
  cases h : g s with
  | ok r => rw [exec_attempt_ok (show g s = .ok (r.1, r.2) from h), Except.map]
  | error e => rw [exec_attempt_error h, Except.map]

/-- A handler that raises again. -/
theorem outcome_rethrow (p : Proc ε σ Unit) (handler : ε → ε) (s : σ) :
    (tryCatch p fun e => call (.error (handler e))).outcome s =
      guarded (p.outcome s) fun e => .error (handler e) := by
  rw [outcome, exec_tryCatch, outcome]
  obtain ⟨r, u⟩ := p.exec s
  cases r with
  | ok a => rfl
  | error e => rfl

/-- Where a run from `s` ends: in `Q` with what it returns, in `R` when it raises. -/
def Ends (p : Proc ε σ α) (s : σ) (Q : α → σ → Prop) (R : σ → Prop) : Prop :=
  match p.exec s with
  | (.ok a, s') => Q a s'
  | (.error _, s') => R s'

theorem Ends.imp {p : Proc ε σ α} {s : σ} {Q Q' : α → σ → Prop} {R : σ → Prop} (h : p.Ends s Q R)
    (hQ : ∀ a s', Q a s' → Q' a s') : p.Ends s Q' R := by
  unfold Ends at h ⊢
  split at h
  · exact hQ _ _ h
  · exact h

theorem Ends.final {p : Proc ε σ α} {s : σ} {I : σ → Prop} (h : p.Ends s (fun _ => I) I) : I (p.exec s).2 := by
  unfold Ends at h
  split at h
  all_goals
    rename_i heq
    rw [heq]
    exact h

theorem ends_bind_iff {p : Proc ε σ α} {f : α → Proc ε σ β} {s : σ} {Q : β → σ → Prop} {R : σ → Prop} :
    (p >>= f).Ends s Q R ↔ p.Ends s (fun a s' => (f a).Ends s' Q R) R := by
  unfold Ends
  rw [exec_bind]
  obtain ⟨r, s'⟩ := p.exec s
  cases r with
  | ok a => rfl
  | error e => rfl

theorem ends_call_iff {x : Except ε α} {s : σ} {Q : α → σ → Prop} {R : σ → Prop} :
    (call x : Proc ε σ α).Ends s Q R ↔ (∀ a, x = .ok a → Q a s) ∧ ((∃ e, x = .error e) → R s) := by
  unfold Ends
  rw [exec_call]
  cases x with
  | ok a => simp
  | error e => simp

/-- However a run from `I` ends, it ends in `I`. -/
def Keeps (p : Proc ε σ α) (I : σ → Prop) : Prop := ∀ s, I s → p.Ends s (fun _ => I) I

theorem Keeps.bind {p : Proc ε σ α} {f : α → Proc ε σ β} {I : σ → Prop} (hp : p.Keeps I) (hf : ∀ a, (f a).Keeps I) :
    (p >>= f).Keeps I := by
  intro s hs
  rw [ends_bind_iff]
  exact (hp s hs).imp fun a s' hs' => hf a s' hs'

theorem keeps_call (x : Except ε α) (I : σ → Prop) : (call x).Keeps I := fun _ hs =>
  ends_call_iff.2 ⟨fun _ _ => hs, fun _ => hs⟩

theorem keeps_pure (a : α) (I : σ → Prop) : (pure a : Proc ε σ α).Keeps I := fun _ hs => hs

/-- No run raises. -/
def Succeeds (p : Proc ε σ α) : Prop := ∀ s, ∃ a s', p.exec s = (.ok a, s')

/-- The result of a run, from whatever state it starts. -/
def Yields (p : Proc ε σ α) (x : Except ε α) : Prop := ∀ s, (p.exec s).1 = x

theorem yields_call (x : Except ε α) : (call x : Proc ε σ α).Yields x := fun _ => rfl

theorem yields_pure (a : α) : (pure a : Proc ε σ α).Yields (.ok a) := fun _ => rfl

theorem Succeeds.bind {p : Proc ε σ α} {f : α → Proc ε σ β} (hp : p.Succeeds) (hf : ∀ a, (f a).Succeeds) :
    (p >>= f).Succeeds := by
  intro s
  obtain ⟨a, s', h⟩ := hp s
  rw [exec_bind_ok h]
  exact hf a s'

theorem Succeeds.yields_bind {p : Proc ε σ α} {f : α → Proc ε σ β} {y : Except ε β} (hp : p.Succeeds)
    (hf : ∀ a, (f a).Yields y) : (p >>= f).Yields y := by
  intro s
  obtain ⟨a, s', h⟩ := hp s
  rw [exec_bind_ok h]
  exact hf a s'

theorem Yields.bind {p : Proc ε σ α} {x : Except ε α} {f : α → Proc ε σ β} {g : α → Except ε β} (hp : p.Yields x)
    (hf : ∀ a, (f a).Yields (g a)) : (p >>= f).Yields (x >>= g) := by
  intro s
  rw [exec_bind, hp s]
  cases x with
  | ok a => exact hf a _
  | error e => rfl

theorem Yields.bind_ok {p : Proc ε σ α} {x : Except ε α} {f : α → Proc ε σ α} (hp : p.Yields x)
    (hf : ∀ a, (f a).Yields (.ok a)) : (p >>= f).Yields x := by
  have h := hp.bind hf
  cases x with
  | ok a => exact h
  | error e => exact h

end Proc

/-- A function that returns a value `α` or a failure `ρ`, or raises `ε`. -/
abbrev Fallible (ε ρ α : Type) := ExceptT ρ (Except ε) α

namespace Fallible

variable {ρ ρ' : Type}

def call (x : Except ε α) : Fallible ε ρ α := ExceptT.mk (x.map .ok)

/-- The failures of a callee, reported in the form of its caller. -/
def report (g : ρ → ρ') (x : Fallible ε ρ α) : Fallible ε ρ' α := ExceptT.mk (x.run.map (Except.mapError g))

/-- No exception is raised. -/
def Safe (x : Fallible ε ρ α) : Prop := ∃ r, x.run = .ok r

def Returns (x : Fallible ε ρ α) (a : α) : Prop := x.run = .ok (.ok a)

def Fails (x : Fallible ε ρ α) : Prop := ∃ r, x.run = .ok (.error r)

theorem run_bind_cases (x : Fallible ε ρ α) (f : α → Fallible ε ρ β) :
    (x >>= f).run =
      match x.run with
      | .ok (.ok a) => (f a).run
      | .ok (.error r) => .ok (.error r)
      | .error e => .error e := by
  rw [ExceptT.run_bind]
  cases x.run with
  | error e => rfl
  | ok r =>
      cases r with
      | ok a => rfl
      | error r => rfl

theorem returns_bind_iff {x : Fallible ε ρ α} {f : α → Fallible ε ρ β} {b : β} :
    (x >>= f).Returns b ↔ ∃ a, x.Returns a ∧ (f a).Returns b := by
  unfold Returns
  rw [run_bind_cases]
  split <;> simp_all

/-- A sequence is safe when its first part is and the rest is on every value the first part returns. -/
theorem safe_bind_iff {x : Fallible ε ρ α} {f : α → Fallible ε ρ β} :
    (x >>= f).Safe ↔ x.Safe ∧ ∀ a, x.Returns a → (f a).Safe := by
  unfold Safe Returns
  rw [run_bind_cases]
  split <;> simp_all

theorem safe_pure (a : α) : (pure a : Fallible ε ρ α).Safe := ⟨.ok a, rfl⟩

theorem safe_throw (r : ρ) : (throw r : Fallible ε ρ α).Safe := ⟨.error r, rfl⟩

theorem safe_ite {p : Prop} [Decidable p] {x y : Fallible ε ρ α} (hx : x.Safe) (hy : y.Safe) :
    (if p then x else y).Safe := by
  split
  · exact hx
  · exact hy

theorem returns_pure_iff {a b : α} : (pure a : Fallible ε ρ α).Returns b ↔ a = b := by
  change (Except.ok (Except.ok a) : Except ε (Except ρ α)) = .ok (.ok b) ↔ _
  simp

theorem not_returns_throw {r : ρ} {a : α} : ¬(throw r : Fallible ε ρ α).Returns a := nofun

theorem safe_call_iff {x : Except ε α} : (call x : Fallible ε ρ α).Safe ↔ ∃ a, x = .ok a := by
  change (∃ r, x.map Except.ok = .ok r) ↔ _
  cases x <;> simp [Except.map]

theorem returns_call_iff {x : Except ε α} {a : α} : (call x : Fallible ε ρ α).Returns a ↔ x = .ok a := by
  change x.map Except.ok = .ok (.ok a) ↔ _
  cases x <;> simp [Except.map]

theorem safe_report_iff {g : ρ → ρ'} {x : Fallible ε ρ α} : (x.report g).Safe ↔ x.Safe := by
  change (∃ r, x.run.map (Except.mapError g) = .ok r) ↔ ∃ r, x.run = .ok r
  cases x.run <;> simp [Except.map]

theorem returns_report_iff {g : ρ → ρ'} {x : Fallible ε ρ α} {a : α} : (x.report g).Returns a ↔ x.Returns a := by
  change x.run.map (Except.mapError g) = .ok (.ok a) ↔ x.run = .ok (.ok a)
  cases x.run with
  | error e => simp [Except.map]
  | ok r => cases r <;> simp [Except.map, Except.mapError]

end Fallible

end CvmAttestation.Base
