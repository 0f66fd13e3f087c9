import Mathlib.Data.Option.Basic
import Mathlib.Data.List.Basic

/-!
# Programs that leave events

A program of this kind runs from a state. It leaves events behind as it goes, and either returns a
value in a new state or does not return at all. What it left behind before is there in both cases.

## Main definitions

* `Prog`
* `events m s`, `outcome m s`: what `m` leaves behind from `s`, and how it ends
* `emit`, `Safe`

## Main results

* `outcome_bind`: a sequence runs its first half, then its second
* `safe_bind`: a sequence is safe exactly if its first half is, and its second from there
-/

namespace Traced

variable {σ ε α β : Type}

/-- What a program leaves behind from a state, and its value and its last state if it returns. -/
structure Prog (σ ε α : Type) where
  run : σ → List ε × Option (α × σ)

/-- What a program leaves behind. -/
def events (m : Prog σ ε α) (s : σ) : List ε := (m.run s).1

/-- How a program ends, if it does. -/
def outcome (m : Prog σ ε α) (s : σ) : Option (α × σ) := (m.run s).2

instance monad : Monad (Prog σ ε) where
  pure a := ⟨fun s => ([], some (a, s))⟩
  bind m f := ⟨fun s =>
    match m.run s with
    | (es, none) => (es, none)
    | (es, some (a, t)) => (es ++ ((f a).run t).1, ((f a).run t).2)⟩

/-- Leave an event behind. -/
def emit (e : ε) : Prog σ ε Unit := ⟨fun s => ([e], some ((), s))⟩

/-- The state. -/
def current : Prog σ ε σ := ⟨fun s => ([], some (s, s))⟩

/-- A new state. -/
def become (t : σ) : Prog σ ε Unit := ⟨fun _ => ([], some ((), t))⟩

/-! ## Runs -/

@[simp] theorem events_pure (a : α) (s : σ) : events (pure a : Prog σ ε α) s = [] := rfl

@[simp] theorem outcome_pure (a : α) (s : σ) : outcome (pure a : Prog σ ε α) s = some (a, s) := rfl

@[simp] theorem outcome_emit (e : ε) (s : σ) : outcome (emit e) s = some ((), s) := rfl

@[simp] theorem events_emit (e : ε) (s : σ) : events (emit e) s = [e] := rfl

@[simp] theorem outcome_current (s : σ) : outcome (current : Prog σ ε σ) s = some (s, s) := rfl

@[simp] theorem events_current (s : σ) : events (current : Prog σ ε σ) s = [] := rfl

@[simp] theorem outcome_become (t s : σ) :
    outcome (become t : Prog σ ε Unit) s = some ((), t) := rfl

@[simp] theorem events_become (t s : σ) : events (become t : Prog σ ε Unit) s = [] := rfl

variable (m : Prog σ ε α) (f : α → Prog σ ε β) (s : σ)

theorem run_bind : (m >>= f).run s = match m.run s with
    | (es, none) => (es, none)
    | (es, some (a, t)) => (es ++ ((f a).run t).1, ((f a).run t).2) := rfl

/-- **A sequence runs its first half, then its second.** -/
theorem outcome_bind :
    outcome (m >>= f) s = (outcome m s).bind fun r => outcome (f r.1) r.2 := by
  unfold outcome
  rw [run_bind]
  rcases m.run s with ⟨es, _ | ⟨a, t⟩⟩ <;> rfl

theorem events_bind :
    events (m >>= f) s = events m s ++ (outcome m s).elim [] fun r => events (f r.1) r.2 := by
  unfold events outcome
  rw [run_bind]
  rcases m.run s with ⟨es, _ | ⟨a, t⟩⟩
  · exact (List.append_nil es).symm
  · rfl

variable (P : ε → Prop)

/-- From `s`, `m` returns, and its events have the property `P`. -/
def Safe (m : Prog σ ε α) (s : σ) : Prop := (∀ e ∈ events m s, P e) ∧ (outcome m s).isSome

@[simp] theorem safe_pure (a : α) : Safe P (pure a : Prog σ ε α) s := by simp [Safe]

@[simp] theorem safe_emit (e : ε) : Safe P (emit e) s ↔ P e := by simp [Safe]

@[simp] theorem safe_current : Safe P (current : Prog σ ε σ) s := by simp [Safe]

@[simp] theorem safe_become (t : σ) : Safe P (become t : Prog σ ε Unit) s := by simp [Safe]

/-- **A sequence is safe exactly if its first half is, and its second from there.** -/
theorem safe_bind : Safe P (m >>= f) s ↔
    Safe P m s ∧ ∀ a t, outcome m s = some (a, t) → Safe P (f a) t := by
  unfold Safe
  rw [events_bind, outcome_bind]
  rcases outcome m s with _ | ⟨a, t⟩
  · simp
  · constructor
    · rintro ⟨he, ho⟩
      refine ⟨⟨fun e h => he e (List.mem_append_left _ h), rfl⟩, ?_⟩
      rintro a' t' heq
      cases heq
      exact ⟨fun e h => he e (List.mem_append_right _ h), ho⟩
    · rintro ⟨⟨he, -⟩, hrest⟩
      obtain ⟨hf, ho⟩ := hrest a t rfl
      refine ⟨fun e h => ?_, ho⟩
      rcases List.mem_append.mp h with h | h
      · exact he e h
      · exact hf e h

theorem Safe.bind {P : ε → Prop} {m : Prog σ ε α} {f : α → Prog σ ε β} {s : σ} (h : Safe P m s)
    (hf : ∀ a t, outcome m s = some (a, t) → Safe P (f a) t) : Safe P (m >>= f) s :=
  (safe_bind m f s P).mpr ⟨h, hf⟩

end Traced
