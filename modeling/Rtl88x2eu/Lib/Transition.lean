import Mathlib.Algebra.BigOperators.Group.List.Basic
import Mathlib.Algebra.Order.Ring.Int
import Mathlib.Tactic.Linarith

/-!
# Runs of partial transitions, and threads over a shared state

A transition system is a partial step function on labels, so that a run on given labels is
computed. Invariants hold along runs by induction, also along the runs whose steps all meet a
condition on the state they start from. A pool of threads steps one thread at a time over a shared
state; what one thread's step keeps, summed or quantified over the threads, the pool keeps.

## Main definitions

* `run`, `Meets`, `Pool`, `Pool.advance`

## Main results

* `run_invariant`, `run_invariant_of_meets`: the invariant rules
* `run_iff_meets`, `forall_prefix_iff_meets`: a property of the run so far, or of every state on the
  way, holds exactly if every step meets its condition
* `run_filter_of_meets`: a run beside the run of some of its labels
* `Pool.advance_cases`: what a step of one thread does
* `Pool.advance_balance`: a ledger that every thread's step balances stays balanced
-/

namespace Transition

variable {σ ε τ : Type*}

/-- The state after the labels `es`. -/
def run (step : σ → ε → Option σ) : σ → List ε → Option σ
  | s, [] => some s
  | s, e :: es => (step s e).bind fun s' => run step s' es

/-- Every step of the run starts in a state that `ok` allows for its label. -/
def Meets (step : σ → ε → Option σ) (ok : σ → ε → Prop) : σ → List ε → Prop
  | _, [] => True
  | s, e :: es => ok s e ∧ ∀ s', step s e = some s' → Meets step ok s' es

variable {step : σ → ε → Option σ} {ok : σ → ε → Prop} {inv : σ → Prop} {s s' : σ} {es : List ε}

@[simp] theorem run_nil : run step s ([] : List ε) = some s := rfl

theorem run_cons {e : ε} :
    run step s (e :: es) = some s' ↔ ∃ m, step s e = some m ∧ run step m es = some s' := by
  simp [run, Option.bind_eq_some_iff]

theorem run_append {es' : List ε} :
    run step s (es ++ es') = some s' ↔ ∃ m, run step s es = some m ∧ run step m es' = some s' := by
  induction es generalizing s with
  | nil => simp
  | cons e es ih =>
    rw [List.cons_append, run_cons]
    simp only [ih, run_cons]
    grind

/-- **The invariant rule along conditioned runs.** -/
theorem run_invariant_of_meets
    (hstep : ∀ s e s', inv s → ok s e → step s e = some s' → inv s')
    (hs : inv s) (hok : Meets step ok s es) (hrun : run step s es = some s') : inv s' := by
  induction es generalizing s with
  | nil =>
    obtain rfl := Option.some.inj hrun
    exact hs
  | cons e es ih =>
    obtain ⟨m, hm, hrun⟩ := run_cons.mp hrun
    exact ih (hstep s e m hs hok.1 hm) (hok.2 m hm) hrun

theorem meets_of_forall (h : ∀ s e, ok s e) (s : σ) (es : List ε) : Meets step ok s es := by
  induction es generalizing s with
  | nil => trivial
  | cons e es ih => exact ⟨h s e, fun m _ => ih m⟩

theorem meets_of_forall_mem {ok' : ε → Prop} (h : ∀ e ∈ es, ok' e) (s : σ) :
    Meets step (fun _ => ok') s es := by
  induction es generalizing s with
  | nil => trivial
  | cons e es ih =>
    exact ⟨h e List.mem_cons_self, fun m _ => ih (fun e he => h e (List.mem_cons_of_mem _ he)) m⟩

/-- **The invariant rule.** -/
theorem run_invariant (hstep : ∀ s e s', inv s → step s e = some s' → inv s')
    (hs : inv s) (hrun : run step s es = some s') : inv s' :=
  run_invariant_of_meets (fun s e s' hs (_ : True) => hstep s e s' hs) hs
    (meets_of_forall (fun _ _ => trivial) s es) hrun

/-- **The rule of the ledger**: what every step adds to a property of the run so far, so does
the run. -/
theorem run_iff_meets {P : σ → Prop}
    (hstep : ∀ s e s', inv s → step s e = some s' → inv s' ∧ (P s' ↔ P s ∧ ok s e))
    (hs : inv s) (hrun : run step s es = some s') : P s' ↔ P s ∧ Meets step ok s es := by
  induction es generalizing s with
  | nil =>
    obtain rfl := Option.some.inj hrun
    exact (and_iff_left trivial).symm
  | cons e es ih =>
    obtain ⟨m, hm, hrun⟩ := run_cons.mp hrun
    obtain ⟨hinv, hP⟩ := hstep s e m hs hm
    have hmeets : Meets step ok s (e :: es) ↔ ok s e ∧ Meets step ok m es := by
      simp [Meets, hm]
    rw [ih hinv hrun, hP, hmeets, and_assoc]

instance Meets.decidable [∀ s e, Decidable (ok s e)] : ∀ s es, Decidable (Meets step ok s es)
  | _, [] => isTrue trivial
  | s, e :: es =>
    match h : step s e with
    | none => decidable_of_iff (ok s e) (by simp [Meets, h])
    | some m =>
      have := Meets.decidable m es
      decidable_of_iff (ok s e ∧ Meets step ok m es) (by simp [Meets, h])

theorem exists_run_of_any {P : σ → Prop} [DecidablePred P]
    (h : (run step s es).any (fun s' => decide (P s')) = true) :
    ∃ s', run step s es = some s' ∧ P s' := by
  obtain ⟨s', hs', hP⟩ := (Option.any_eq_true _ _).mp h
  exact ⟨s', hs', of_decide_eq_true hP⟩

/-- Conditions weaken along runs. -/
theorem Meets.imp {ok' : σ → ε → Prop} (h : ∀ s e, ok s e → ok' s e)
    (hok : Meets step ok s es) : Meets step ok' s es := by
  induction es generalizing s with
  | nil => trivial
  | cons e es ih => exact ⟨h s e hok.1, fun m hm => ih (hok.2 m hm)⟩

/-- **The rule of the first violation**: where a step leaves a property of the states exactly if it
misses its condition, every state that the run reaches has the property exactly if every step meets
its condition. -/
theorem forall_prefix_iff_meets {P : σ → Prop} (hP : ∀ s, inv s → P s)
    (hstep : ∀ s e s', inv s → step s e = some s' → (P s' ↔ ok s e) ∧ (ok s e → inv s'))
    (hs : inv s) (hrun : run step s es = some s') :
    (∀ es' t, es' <+: es → run step s es' = some t → P t) ↔ Meets step ok s es := by
  induction es generalizing s with
  | nil =>
    refine iff_of_true (fun es' t hprefix ht => ?_) trivial
    rw [List.prefix_nil.mp hprefix] at ht
    obtain rfl := Option.some.inj ht
    exact hP s hs
  | cons e es ih =>
    obtain ⟨m, hm, hrest⟩ := run_cons.mp hrun
    obtain ⟨hPm, hinv⟩ := hstep s e m hs hm
    have hmeets : Meets step ok s (e :: es) ↔ ok s e ∧ Meets step ok m es := by
      simp [Meets, hm]
    rw [hmeets]
    constructor
    · intro hall
      have hok : ok s e := by
        apply hPm.mp
        exact hall [e] m ⟨es, rfl⟩ (run_cons.mpr ⟨m, hm, rfl⟩)
      refine ⟨hok, (ih (hinv hok) hrest).mp fun es' t hprefix ht => ?_⟩
      exact hall (e :: es') t ((List.prefix_cons_inj e).mpr hprefix) (run_cons.mpr ⟨m, hm, ht⟩)
    · rintro ⟨hok, hes⟩ es' t hprefix ht
      cases es' with
      | nil =>
        obtain rfl := Option.some.inj ht
        exact hP s hs
      | cons e' es' =>
        obtain ⟨rfl, hrestPrefix⟩ := List.cons_prefix_cons.mp hprefix
        obtain ⟨m', hm', ht⟩ := run_cons.mp ht
        obtain rfl := Option.some.inj (hm.symm.trans hm')
        exact (ih (hinv hok) hrest).mpr hes es' t hrestPrefix ht

/-- **The rule of the projected run**: where the labels that `p` keeps move two related states alike
and the others leave the relation, a run has the run of the labels kept beside it. -/
theorem run_filter_of_meets {p : ε → Bool} {R : σ → σ → Prop}
    (hkeep : ∀ s t e s', R s t → ok s e → p e → step s e = some s' →
      ∃ t', step t e = some t' ∧ R s' t')
    (hdrop : ∀ s t e s', R s t → ok s e → p e = false → step s e = some s' → R s' t)
    {t : σ} (hs : R s t) (hok : Meets step ok s es) (hrun : run step s es = some s') :
    ∃ t', run step t (es.filter p) = some t' ∧ R s' t' := by
  induction es generalizing s t with
  | nil =>
    obtain rfl := Option.some.inj hrun
    exact ⟨t, rfl, hs⟩
  | cons e es ih =>
    obtain ⟨m, hm, hrun⟩ := run_cons.mp hrun
    cases he : p e with
    | true =>
      obtain ⟨t', ht', hm'⟩ := hkeep s t e m hs hok.1 he hm
      obtain ⟨t'', ht'', hs'⟩ := ih hm' (hok.2 m hm) hrun
      refine ⟨t'', ?_, hs'⟩
      rw [List.filter_cons_of_pos he]
      exact run_cons.mpr ⟨t', ht', ht''⟩
    | false =>
      rw [List.filter_cons_of_neg (by simp [he])]
      exact ih (hdrop s t e m hs hok.1 he hm) (hok.2 m hm) hrun

/-- A shared state and the threads' own states. -/
structure Pool (σ τ : Type*) where
  shared : σ
  threads : List τ

/-- Thread `i` takes a step. -/
def Pool.advance (f : Pool σ τ → τ → Option (σ × τ)) (p : Pool σ τ) (i : ℕ) :
    Option (Pool σ τ) :=
  p.threads[i]?.bind fun t => (f p t).map fun r => ⟨r.1, p.threads.set i r.2⟩

def Pool.spawn (p : Pool σ τ) (t : τ) : Pool σ τ := { p with threads := p.threads ++ [t] }

variable {f : Pool σ τ → τ → Option (σ × τ)} {p p' : Pool σ τ} {i : ℕ}

/-- **What a step of one thread does**: the thread is replaced where it stands. -/
theorem Pool.advance_cases (h : p.advance f i = some p') :
    ∃ pre t post s t', p.threads[i]? = some t ∧ p.threads = pre ++ t :: post ∧
      f p t = some (s, t') ∧ p' = ⟨s, pre ++ t' :: post⟩ := by
  obtain ⟨t, ht, hstep⟩ := Option.bind_eq_some_iff.mp h
  obtain ⟨⟨s, t'⟩, hf, rfl⟩ := Option.map_eq_some_iff.mp hstep
  obtain ⟨hi, rfl⟩ := List.getElem?_eq_some_iff.mp ht
  refine ⟨p.threads.take i, p.threads[i], p.threads.drop (i + 1), s, t', ht, ?_, hf, ?_⟩
  · rw [List.cons_getElem_drop_succ, List.take_append_drop]
  · rw [List.set_eq_take_append_cons_drop, if_pos hi]

/-- **A ledger that every thread's step balances stays balanced.** -/
theorem Pool.advance_balance {balance : σ → ℤ} {debt : τ → ℤ}
    (hf : ∀ t ∈ p.threads, ∀ s t', f p t = some (s, t') →
      balance s - debt t' = balance p.shared - debt t)
    (h : p.advance f i = some p') :
    balance p'.shared - (p'.threads.map debt).sum =
      balance p.shared - (p.threads.map debt).sum := by
  obtain ⟨pre, t, post, s, t', -, hthreads, hstep, rfl⟩ := Pool.advance_cases h
  have hlocal := hf t (by simp [hthreads]) s t' hstep
  simp only [hthreads, List.map_append, List.map_cons, List.sum_append, List.sum_cons]
  linarith

end Transition
