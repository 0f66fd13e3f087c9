import Mathlib.Data.List.Basic
import Mathlib.Data.Nat.Notation

/-!
# Loops with an early exit

The body of a loop gives the state in which its head is reached again, or the result with which
the loop is left. The loop is run for a number of passes; it ends if there are enough of them, and
a measure that every pass lowers says how many are enough.

## Main definitions

* `iterate`, `Reaches`, `trace`

## Main results

* `isSome_iterate`: a measure bounds the number of passes
* `iterate_invariant`: what every pass keeps holds when the loop is left
* `exists_iterate_iff`: the loop is left from one of the states that it reaches
* `iterate_of_stuck`: a loop that comes back to the same state does not end
* `mem_trace_iff`: the trace of a loop that ends is that of the states that it reaches
* `exists_lockstep`: two loops that go on alike are left from the same state
-/

namespace Loop

variable {σ ρ : Type*} {body : σ → σ ⊕ ρ} {n : ℕ} {s s' : σ} {r : ρ}

/-- The loop, with at most `n` passes. -/
def iterate (body : σ → σ ⊕ ρ) : ℕ → σ → Option ρ
  | 0, _ => none
  | n + 1, s =>
    match body s with
    | .inl s' => iterate body n s'
    | .inr r => some r

theorem iterate_succ (body : σ → σ ⊕ ρ) (n : ℕ) (s : σ) :
    iterate body (n + 1) s =
      match body s with
      | .inl s' => iterate body n s'
      | .inr r => some r := rfl

theorem iterate_succ_of_inl (h : body s = .inl s') :
    iterate body (n + 1) s = iterate body n s' := by
  rw [iterate_succ, h]

theorem iterate_succ_of_inr (h : body s = .inr r) : iterate body (n + 1) s = some r := by
  rw [iterate_succ, h]

/-- **A measure bounds the number of passes.** -/
theorem isSome_iterate (μ : σ → ℕ) (hμ : ∀ s s', body s = .inl s' → μ s' < μ s)
    (hn : μ s < n) : (iterate body n s).isSome := by
  induction n generalizing s with
  | zero => exact absurd hn (Nat.not_lt_zero _)
  | succ n ih =>
    cases hbody : body s with
    | inl s' =>
      rw [iterate_succ_of_inl hbody]
      exact ih (Nat.lt_of_lt_of_le (hμ s s' hbody) (Nat.le_of_lt_succ hn))
    | inr r =>
      rw [iterate_succ_of_inr hbody]
      rfl

/-- **What every pass keeps holds when the loop is left.** -/
theorem iterate_invariant {I : σ → Prop} {P : ρ → Prop}
    (hinl : ∀ s s', I s → body s = .inl s' → I s')
    (hinr : ∀ s r, I s → body s = .inr r → P r)
    (hs : I s) (hr : iterate body n s = some r) : P r := by
  induction n generalizing s with
  | zero => cases hr
  | succ n ih =>
    cases hbody : body s with
    | inl s' =>
      rw [iterate_succ_of_inl hbody] at hr
      exact ih (hinl s s' hs hbody) hr
    | inr r' =>
      rw [iterate_succ_of_inr hbody] at hr
      obtain rfl := Option.some.inj hr
      exact hinr s r' hs hbody

/-! ## States on the way -/

/-- The head of the loop is reached in state `t`. -/
inductive Reaches (body : σ → σ ⊕ ρ) : σ → σ → Prop
  | refl (s : σ) : Reaches body s s
  | step {s s' t : σ} (h : body s = .inl s') (rest : Reaches body s' t) : Reaches body s t

variable {t : σ}

theorem Reaches.trans {u : σ} (h : Reaches body s t) (h' : Reaches body t u) :
    Reaches body s u := by
  induction h with
  | refl => exact h'
  | step hbody _ ih => exact .step hbody (ih h')

theorem Reaches.tail {u : σ} (h : Reaches body s t) (hbody : body t = .inl u) :
    Reaches body s u :=
  h.trans (.step hbody (.refl u))

theorem Reaches.invariant {I : σ → Prop} (h : Reaches body s t)
    (hinl : ∀ s s', I s → body s = .inl s' → I s') (hs : I s) : I t := by
  induction h with
  | refl => exact hs
  | step hbody _ ih => exact ih (hinl _ _ hs hbody)

/-- **The loop is left from one of the states that it reaches.** -/
theorem exists_iterate_iff :
    (∃ n, iterate body n s = some r) ↔ ∃ t, Reaches body s t ∧ body t = .inr r := by
  constructor
  · rintro ⟨n, h⟩
    induction n generalizing s with
    | zero => cases h
    | succ n ih =>
      cases hbody : body s with
      | inl s' =>
        rw [iterate_succ_of_inl hbody] at h
        obtain ⟨t, ht, hleft⟩ := ih h
        exact ⟨t, .step hbody ht, hleft⟩
      | inr r' =>
        rw [iterate_succ_of_inr hbody] at h
        obtain rfl := Option.some.inj h
        exact ⟨s, .refl s, hbody⟩
  · rintro ⟨t, ht, hleft⟩
    induction ht with
    | refl => exact ⟨1, iterate_succ_of_inr hleft⟩
    | step hbody _ ih =>
      obtain ⟨n, hn⟩ := ih hleft
      exact ⟨n + 1, (iterate_succ_of_inl hbody).trans hn⟩

/-- With enough passes, the result does not depend on their number. -/
theorem iterate_of_reaches (hsome : (iterate body n s).isSome) (ht : Reaches body s t)
    (hleft : body t = .inr r) : iterate body n s = some r := by
  induction ht generalizing n with
  | refl s =>
    cases n with
    | zero => cases hsome
    | succ n => exact iterate_succ_of_inr hleft
  | step hbody _ ih =>
    cases n with
    | zero => cases hsome
    | succ n =>
      rw [iterate_succ_of_inl hbody] at hsome ⊢
      exact ih hsome hleft

theorem exists_iterate_of_measure (μ : σ → ℕ)
    (hμ : ∀ t t', Reaches body s t → body t = .inl t' → μ t' < μ t) :
    ∃ n r, iterate body n s = some r := by
  suffices h : ∀ k t, Reaches body s t → μ t ≤ k → ∃ n r, iterate body n t = some r from
    h (μ s) s (.refl s) (Nat.le_refl _)
  intro k
  induction k with
  | zero =>
    intro t ht hk
    cases hbody : body t with
    | inl t' => exact absurd (hμ t t' ht hbody) (by omega)
    | inr r => exact ⟨1, r, iterate_succ_of_inr hbody⟩
  | succ k ih =>
    intro t ht hk
    cases hbody : body t with
    | inl t' =>
      have hlt := hμ t t' ht hbody
      obtain ⟨n, r, hr⟩ := ih t' (ht.tail hbody) (by omega)
      exact ⟨n + 1, r, (iterate_succ_of_inl hbody).trans hr⟩
    | inr r => exact ⟨1, r, iterate_succ_of_inr hbody⟩

/-- **A loop that comes back to the same state** does not end. -/
theorem iterate_of_stuck (ht : Reaches body s t) (hstuck : body t = .inl t) :
    iterate body n s = none := by
  induction ht generalizing n with
  | refl s =>
    induction n with
    | zero => rfl
    | succ n ih => exact (iterate_succ_of_inl hstuck).trans ih
  | step hbody _ ih =>
    cases n with
    | zero => rfl
    | succ n => exact (iterate_succ_of_inl hbody).trans (ih hstuck)

variable {α : Type*} {log : σ → List α} {a : α}

/-- What at most `n` passes leave behind them. -/
def trace (log : σ → List α) (body : σ → σ ⊕ ρ) : ℕ → σ → List α
  | 0, _ => []
  | n + 1, s =>
    log s ++
      match body s with
      | .inl s' => trace log body n s'
      | .inr _ => []

theorem trace_succ (log : σ → List α) (body : σ → σ ⊕ ρ) (n : ℕ) (s : σ) :
    trace log body (n + 1) s =
      log s ++
        match body s with
        | .inl s' => trace log body n s'
        | .inr _ => [] := rfl

theorem exists_mem_trace (ht : Reaches body s t) (ha : a ∈ log t) :
    ∃ n, a ∈ trace log body n s := by
  induction ht with
  | refl s => exact ⟨1, List.mem_append_left _ ha⟩
  | step hbody _ ih =>
    obtain ⟨n, hn⟩ := ih ha
    refine ⟨n + 1, ?_⟩
    rw [trace_succ, hbody]
    exact List.mem_append_right _ hn

theorem exists_reaches_of_mem_trace (h : a ∈ trace log body n s) :
    ∃ t, Reaches body s t ∧ a ∈ log t := by
  induction n generalizing s with
  | zero => cases h
  | succ n ih =>
    rw [trace_succ] at h
    rcases List.mem_append.mp h with hhead | hrest
    · exact ⟨s, .refl s, hhead⟩
    · cases hbody : body s with
      | inl s' =>
        rw [hbody] at hrest
        obtain ⟨t, ht, hlog⟩ := ih hrest
        exact ⟨t, .step hbody ht, hlog⟩
      | inr r =>
        rw [hbody] at hrest
        cases hrest

/-- **The trace of a loop that ends** is that of the states that it reaches. -/
theorem mem_trace_iff (hsome : (iterate body n s).isSome) :
    a ∈ trace log body n s ↔ ∃ t, Reaches body s t ∧ a ∈ log t := by
  refine ⟨exists_reaches_of_mem_trace, ?_⟩
  rintro ⟨t, ht, hlog⟩
  induction ht generalizing n with
  | refl s =>
    cases n with
    | zero => cases hsome
    | succ n => exact List.mem_append_left _ hlog
  | step hbody _ ih =>
    cases n with
    | zero => cases hsome
    | succ n =>
      rw [iterate_succ_of_inl hbody] at hsome
      rw [trace_succ, hbody]
      exact List.mem_append_right _ (ih hsome hlog)

variable {body' : σ → σ ⊕ ρ}

theorem Reaches.lockstep (hstep : ∀ s t, body s = .inl t ↔ body' s = .inl t)
    (h : Reaches body s t) : Reaches body' s t := by
  induction h with
  | refl s => exact .refl s
  | step hbody _ ih => exact .step ((hstep _ _).mp hbody) ih

theorem trace_lockstep (hstep : ∀ s t, body s = .inl t ↔ body' s = .inl t) :
    trace log body n s = trace log body' n s := by
  induction n generalizing s with
  | zero => rfl
  | succ n ih =>
    rw [trace_succ, trace_succ]
    cases hbody : body s with
    | inl t =>
      rw [(hstep s t).mp hbody]
      exact congrArg (log s ++ ·) ih
    | inr r =>
      cases hbody' : body' s with
      | inl t => exact absurd ((hstep s t).mpr hbody') (by rw [hbody]; exact nofun)
      | inr r' => rfl

/-- **Two loops that go on alike** are left from the same state. -/
theorem exists_lockstep (hstep : ∀ s t, body s = .inl t ↔ body' s = .inl t) {r' : ρ}
    (hr : iterate body n s = some r) (hr' : iterate body' n s = some r') :
    ∃ t, Reaches body s t ∧ body t = .inr r ∧ body' t = .inr r' := by
  induction n generalizing s with
  | zero => cases hr
  | succ n ih =>
    cases hbody : body s with
    | inl t =>
      rw [iterate_succ_of_inl hbody] at hr
      rw [iterate_succ_of_inl ((hstep s t).mp hbody)] at hr'
      obtain ⟨u, hu, hleft⟩ := ih hr hr'
      exact ⟨u, .step hbody hu, hleft⟩
    | inr q =>
      cases hbody' : body' s with
      | inl t => exact absurd ((hstep s t).mpr hbody') (by rw [hbody]; exact nofun)
      | inr q' =>
        rw [iterate_succ_of_inr hbody] at hr
        rw [iterate_succ_of_inr hbody'] at hr'
        obtain rfl := Option.some.inj hr
        obtain rfl := Option.some.inj hr'
        exact ⟨s, .refl s, hbody, hbody'⟩

end Loop
