import Mathlib.Tactic.Basic
import Mathlib.Order.Notation

/-!
# Programs that change a state and may fail

A program of this kind ends with a value or with an error, and leaves a state in both cases: what
it changed before the error stays changed. Three readings of a program are used. `Returns` inverts a
run that reached its end, `Fails` one that broke off, and `Frames` says what no run touches, whether
it ends well or not.

## Main definitions

* `Prog`, `exec`, `failIf`
* `onlyIf c m`, `orThrow o e`: a conditional part, a partial function
* `Returns m s a s'`, `Fails m s e s'`, `Frames f m`

## Main results

* `exec_bind`, `returns_bind`, `fails_bind`: a sequence runs its first half, then its second
* `Frames.bind`, `Frames.forM`: the frame rules for sequences and loops
-/

namespace Failing

variable {ε σ α β τ : Type}

/-- Programs over the state `σ` with the errors `ε`. -/
abbrev Prog (ε σ : Type) := ExceptT ε (StateM σ)

/-- How `m` ends from `s`, and the state it leaves. -/
def exec (m : Prog ε σ α) (s : σ) : Except ε α × σ := StateT.run (ExceptT.run m) s

/-- An early exit with an error. -/
def failIf (c : Prop) [Decidable c] (e : ε) : Prog ε σ Unit := if c then throw e else pure ()

/-- A part that only runs under a condition: `if (c) { ... }`. -/
def onlyIf (c : Prop) [Decidable c] (m : Prog ε σ Unit) : Prog ε σ Unit := if c then m else pure ()

/-- The value of a partial function, or an error where it has none. -/
def orThrow (o : Option α) (e : ε) : Prog ε σ α := o.elim (throw e) pure

/-- Run a part that changes the state once more if it fails. -/
def onError (undo : σ → σ) (m : Prog ε σ α) : Prog ε σ α :=
  tryCatch m fun e => do
    modify undo
    throw e

/-- A part of the state. -/
def look (f : σ → α) : Prog ε σ α := do return f (← get)

@[simp] theorem exec_pure (a : α) (s : σ) : exec (pure a : Prog ε σ α) s = (.ok a, s) := rfl

@[simp] theorem exec_throw (e : ε) (s : σ) : exec (throw e : Prog ε σ α) s = (.error e, s) := rfl

@[simp] theorem exec_look (f : σ → α) (s : σ) : exec (look f : Prog ε σ α) s = (.ok (f s), s) := rfl

@[simp] theorem exec_modify (f : σ → σ) (s : σ) :
    exec (modify f : Prog ε σ PUnit) s = (.ok ⟨⟩, f s) := rfl

theorem exec_bind (m : Prog ε σ α) (f : α → Prog ε σ β) (s : σ) :
    exec (m >>= f) s = match exec m s with
      | (.ok a, s') => exec (f a) s'
      | (.error e, s') => (.error e, s') := by
  unfold exec
  rw [ExceptT.run_bind, StateT.run_bind]
  rcases StateT.run (ExceptT.run m) s with ⟨e | a, s'⟩ <;> rfl

theorem exec_onError (undo : σ → σ) (m : Prog ε σ α) (s : σ) :
    exec (onError undo m) s = match exec m s with
      | (.ok a, s') => (.ok a, s')
      | (.error e, s') => (.error e, undo s') := by
  unfold exec onError
  simp only [tryCatch, tryCatchThe, MonadExceptOf.tryCatch, ExceptT.tryCatch, ExceptT.run_mk]
  change (StateT.run (ExceptT.run m >>= _) s) = _
  rw [StateT.run_bind]
  rcases StateT.run (ExceptT.run m) s with ⟨e | a, s'⟩ <;> rfl

@[simp] theorem exec_failIf (c : Prop) [Decidable c] (e : ε) (s : σ) :
    exec (failIf c e : Prog ε σ Unit) s = (if c then .error e else .ok (), s) := by
  unfold failIf
  split <;> rfl

/-! ## Runs that reach their end -/

/-- The program ends well. -/
def Returns (m : Prog ε σ α) (s : σ) (a : α) (s' : σ) : Prop := exec m s = (.ok a, s')

variable {m : Prog ε σ α} {f : α → Prog ε σ β} {s s' : σ} {a : α} {b : β}

@[simp] theorem returns_pure {c : α} : Returns (pure c : Prog ε σ α) s a s' ↔ c = a ∧ s = s' := by
  simp [Returns]

@[simp] theorem not_returns_throw {e : ε} : ¬ Returns (throw e : Prog ε σ α) s a s' := by
  simp [Returns]

@[simp] theorem returns_look {g : σ → α} :
    Returns (look g : Prog ε σ α) s a s' ↔ g s = a ∧ s = s' := by
  simp [Returns]

@[simp] theorem returns_modify {g : σ → σ} {u : PUnit} :
    Returns (modify g : Prog ε σ PUnit) s u s' ↔ g s = s' := by
  simp [Returns]

@[simp] theorem returns_failIf {c : Prop} [Decidable c] {e : ε} {u : Unit} :
    Returns (failIf c e : Prog ε σ Unit) s u s' ↔ ¬ c ∧ s = s' := by
  by_cases hc : c <;> simp [Returns, hc]

theorem returns_onError {undo : σ → σ} {m : Prog ε σ α} :
    Returns (onError undo m) s a s' ↔ Returns m s a s' := by
  unfold Returns
  rw [exec_onError]
  rcases exec m s with ⟨e | a', t⟩ <;> simp

theorem returns_onlyIf {c : Prop} [Decidable c] {m : Prog ε σ Unit} {u : Unit} :
    Returns (onlyIf c m) s u s' ↔ c ∧ Returns m s u s' ∨ ¬ c ∧ s = s' := by
  by_cases hc : c <;> simp [onlyIf, hc]

@[simp] theorem returns_orThrow {o : Option α} {e : ε} :
    Returns (orThrow o e : Prog ε σ α) s a s' ↔ o = some a ∧ s = s' := by
  rcases o with _ | b
  · show Returns (throw e : Prog ε σ α) s a s' ↔ _
    simp
  · show Returns (pure b : Prog ε σ α) s a s' ↔ _
    simp

/-- **A sequence ends well exactly if both halves do.** -/
theorem returns_bind :
    Returns (m >>= f) s b s' ↔ ∃ a t, Returns m s a t ∧ Returns (f a) t b s' := by
  unfold Returns
  rw [exec_bind]
  rcases exec m s with ⟨e | a, t⟩
  · simp
  · constructor
    · intro h
      exact ⟨a, t, rfl, h⟩
    · rintro ⟨a', t', heq, h⟩
      cases heq
      exact h

theorem exec_bind_of_returns (h : Returns m s a s') : exec (m >>= f) s = exec (f a) s' := by
  rw [exec_bind, h]

theorem exec_bind_of_error {e : ε} (h : exec m s = (.error e, s')) :
    exec (m >>= f) s = (.error e, s') := by
  rw [exec_bind, h]

def Fails (m : Prog ε σ α) (s : σ) (e : ε) (s' : σ) : Prop := exec m s = (.error e, s')

variable {e e' : ε}

@[simp] theorem not_fails_pure : ¬ Fails (pure a : Prog ε σ α) s e s' := by simp [Fails]

@[simp] theorem not_fails_look {g : σ → α} : ¬ Fails (look g : Prog ε σ α) s e s' := by simp [Fails]

@[simp] theorem not_fails_modify {g : σ → σ} : ¬ Fails (modify g : Prog ε σ PUnit) s e s' := by
  simp [Fails]

@[simp] theorem fails_failIf {c : Prop} [Decidable c] :
    Fails (failIf c e' : Prog ε σ Unit) s e s' ↔ c ∧ e' = e ∧ s = s' := by
  by_cases hc : c <;> simp [Fails, hc]

theorem fails_onlyIf {c : Prop} [Decidable c] {m : Prog ε σ Unit} :
    Fails (onlyIf c m) s e s' ↔ c ∧ Fails m s e s' := by
  by_cases hc : c <;> simp [onlyIf, hc]

@[simp] theorem fails_orThrow {o : Option α} :
    Fails (orThrow o e' : Prog ε σ α) s e s' ↔ o = none ∧ e' = e ∧ s = s' := by
  rcases o with _ | b
  · show Fails (throw e' : Prog ε σ α) s e s' ↔ _
    simp [Fails]
  · show Fails (pure b : Prog ε σ α) s e s' ↔ _
    simp

/-- **A sequence breaks off in its first half or in its second.** -/
theorem fails_bind :
    Fails (m >>= f) s e s' ↔ Fails m s e s' ∨ ∃ a t, Returns m s a t ∧ Fails (f a) t e s' := by
  unfold Fails Returns
  rw [exec_bind]
  rcases exec m s with ⟨e' | a, t⟩
  · simp
  · constructor
    · intro h
      exact .inr ⟨a, t, rfl, h⟩
    · rintro (h | ⟨a', t', heq, h⟩)
      · cases h
      · cases heq
        exact h

/-! ## What no run touches -/

/-- Whether it ends well or not, the program leaves `f` of the state as it was. -/
def Frames (f : σ → τ) (m : Prog ε σ α) : Prop := ∀ s, f (exec m s).2 = f s

variable {g : σ → τ}

theorem Frames.of_returns (h : Frames g m) (hret : Returns m s a s') : g s' = g s := by
  have := h s
  rwa [hret] at this

theorem Frames.pure : Frames g (pure a : Prog ε σ α) := fun _ => rfl

theorem Frames.throw {e : ε} : Frames g (throw e : Prog ε σ α) := fun _ => rfl

theorem Frames.look {k : σ → α} : Frames g (look k : Prog ε σ α) := fun _ => rfl

theorem Frames.failIf {c : Prop} [Decidable c] {e : ε} : Frames g (failIf c e : Prog ε σ Unit) := by
  intro s
  rw [exec_failIf]

theorem Frames.onlyIf {c : Prop} [Decidable c] {m : Prog ε σ Unit} (h : Frames g m) :
    Frames g (onlyIf c m) := by
  unfold Failing.onlyIf
  split
  · exact h
  · exact Frames.pure

theorem Frames.orThrow {o : Option α} {e : ε} : Frames g (orThrow o e : Prog ε σ α) := by
  rcases o with _ | a
  · exact Frames.throw
  · exact Frames.pure

theorem Frames.onError {undo : σ → σ} {m : Prog ε σ α} (hundo : ∀ s, g (undo s) = g s)
    (h : Frames g m) : Frames g (onError undo m) := by
  intro s
  have hs := h s
  rw [exec_onError]
  rcases hexec : exec m s with ⟨e | a, t⟩
  · rw [hexec] at hs
    exact (hundo t).trans hs
  · rwa [hexec] at hs

theorem Frames.modify {k : σ → σ} (h : ∀ s, g (k s) = g s) :
    Frames g (modify k : Prog ε σ PUnit) := h

theorem Frames.bind (hm : Frames g m) (hf : ∀ a, Frames g (f a)) : Frames g (m >>= f) := by
  intro s
  have h := hm s
  rw [exec_bind]
  rcases hexec : exec m s with ⟨e | a, t⟩
  · rwa [hexec] at h
  · rw [hexec] at h
    exact (hf a t).trans h

theorem Frames.forM {ι : Type} {body : ι → Prog ε σ PUnit} (h : ∀ i, Frames g (body i))
    (l : List ι) : Frames g (forM l body) := by
  induction l with
  | nil => exact Frames.pure
  | cons i l ih =>
    rw [List.forM_cons]
    exact (h i).bind fun _ => ih

end Failing
