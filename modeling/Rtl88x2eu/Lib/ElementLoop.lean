import Mathlib.Data.List.Basic
import Mathlib.Data.UInt

/-!
# Loops over elements

A buffer holds elements: an id, a length and that many octets. A loop counts a length down by the
sizes of the elements that it comes to, until nothing is left or it has had enough. It may pass
zero by; then it goes on to the end of the buffer.

## Main definitions

* `elems`, `loop`

## Main results

* `exists_loop_iff`: a loop ends well exactly if some of the first elements are as long as the
  length says, or enough
-/

namespace ElementLoop

/-- An element with all that is behind its header. -/
structure Elem where
  id : UInt8
  len : UInt8
  rest : List UInt8

def Elem.size (e : Elem) : ℤ := e.len.toNat + 2

/-- The elements whose headers are in the buffer. -/
def elems : List UInt8 → List Elem
  | id :: len :: rest => ⟨id, len, rest⟩ :: elems (rest.drop len.toNat)
  | _ => []
termination_by b => b.length
decreasing_by
  rw [List.length_drop, List.length_cons, List.length_cons]
  omega

universe u

variable {σ : Type u} {ε : Type*}

theorem bind_ok {α β : Type u} {x : Except ε α} {f : α → Except ε β} {b : β} :
    x >>= f = .ok b ↔ ∃ a, x = .ok a ∧ f a = .ok b := by
  cases x with
  | error err => simp [Bind.bind, Except.bind]
  | ok a => simp [Bind.bind, Except.bind]

theorem pure_ok {α : Type u} {a b : α} : (pure a : Except ε α) = .ok b ↔ b = a := by
  rw [show (pure a : Except ε α) = .ok a from rfl, Except.ok.injEq, eq_comm]

theorem foldlM_cons_ok {α : Type*} {f : σ → α → Except ε σ} {x : α} {xs : List α} {s s' : σ} :
    (x :: xs).foldlM f s = .ok s' ↔ ∃ t, f s x = .ok t ∧ xs.foldlM f t = .ok s' := by
  rw [List.foldlM_cons]
  exact bind_ok

variable (full : σ → Bool) (step : σ → Elem → Except ε σ) (short : ε)

/-- The loop from `s`; `short` if the buffer comes to its end. -/
def loop (len : ℤ) (s : σ) : List Elem → Except ε σ
  | [] => if len = 0 ∨ full s then .ok s else .error short
  | e :: es =>
    if len = 0 ∨ full s then .ok s
    else step s e >>= fun s' => loop (len - e.size) s' es

variable {full step short} {len : ℤ} {s s' : σ} {e : Elem} {es : List Elem} {P : σ → Prop}

theorem of_foldlM (hP : ∀ s e s', step s e = .ok s' → P s' → P s)
    (h : es.foldlM step s = .ok s') (hs' : P s') : P s := by
  induction es generalizing s with
  | nil =>
    obtain rfl := Except.ok.inj h
    exact hs'
  | cons e es ih =>
    obtain ⟨t, ht, h⟩ := foldlM_cons_ok.1 h
    exact hP s e t ht (ih h)

theorem loop_of_stop (hstop : len = 0 ∨ full s) : loop full step short len s es = .ok s := by
  cases es with
  | nil => exact if_pos hstop
  | cons e es => exact if_pos hstop

theorem loop_cons_ok (hstop : ¬(len = 0 ∨ full s)) :
    loop full step short len s (e :: es) = .ok s' ↔
      ∃ t, step s e = .ok t ∧ loop full step short (len - e.size) t es = .ok s' := by
  rw [loop, if_neg hstop]
  exact bind_ok

/-- **When a loop ends well**: over some of the first elements every step goes well, and they are
what the length says or enough. -/
theorem exists_loop_iff (hP : ∀ s e s', step s e = .ok s' → P s' → P s) :
    (∃ s', loop full step short len s es = .ok s' ∧ P s') ↔
      ∃ pre s', pre <+: es ∧ pre.foldlM step s = .ok s' ∧
        (len = (pre.map Elem.size).sum ∨ full s') ∧ P s' := by
  by_cases hstop : len = 0 ∨ full s
  · rw [loop_of_stop hstop]
    constructor
    · rintro ⟨t, ht, hPt⟩
      obtain rfl := Except.ok.inj ht
      exact ⟨[], s, List.nil_prefix, rfl, hstop, hPt⟩
    · rintro ⟨pre, s', _, hfold, _, hPs'⟩
      exact ⟨s, rfl, of_foldlM hP hfold hPs'⟩
  · induction es generalizing len s with
    | nil =>
      refine iff_of_false ?_ ?_
      · rintro ⟨t, ht, _⟩
        rw [loop, if_neg hstop] at ht
        cases ht
      · rintro ⟨pre, t, hpre, hfold, hend, _⟩
        obtain rfl := List.prefix_nil.1 hpre
        obtain rfl := Except.ok.inj hfold
        exact hstop hend
    | cons e es ih =>
      simp only [loop_cons_ok hstop]
      constructor
      · rintro ⟨s', ⟨t, ht, hloop⟩, hs'⟩
        by_cases hstop' : len - e.size = 0 ∨ full t
        · rw [loop_of_stop hstop'] at hloop
          obtain rfl := Except.ok.inj hloop
          refine ⟨[e], t, ⟨es, rfl⟩, foldlM_cons_ok.2 ⟨t, ht, rfl⟩, ?_, hs'⟩
          exact hstop'.imp (fun h => by simpa using sub_eq_zero.1 h) id
        · obtain ⟨pre, s'', hpre, hfold, hend, hP''⟩ := (ih hstop').1 ⟨s', hloop, hs'⟩
          refine ⟨e :: pre, s'', List.cons_prefix_cons.2 ⟨rfl, hpre⟩,
            foldlM_cons_ok.2 ⟨t, ht, hfold⟩, hend.imp (fun h => ?_) id, hP''⟩
          rw [List.map_cons, List.sum_cons, ← h, add_sub_cancel]
      · rintro ⟨pre, s', hpre, hfold, hend, hs'⟩
        cases pre with
        | nil =>
          obtain rfl := Except.ok.inj hfold
          exact absurd hend hstop
        | cons e' pre =>
          obtain ⟨rfl, hpre'⟩ := List.cons_prefix_cons.1 hpre
          obtain ⟨t, ht, hfold⟩ := foldlM_cons_ok.1 hfold
          by_cases hstop' : len - e'.size = 0 ∨ full t
          · exact ⟨t, ⟨t, ht, loop_of_stop hstop'⟩, of_foldlM hP hfold hs'⟩
          · have hend' : len - e'.size = (pre.map Elem.size).sum ∨ full s' := by
              refine hend.imp (fun h => ?_) id
              rw [h, List.map_cons, List.sum_cons, add_sub_cancel_left]
            obtain ⟨u, hloop, hu⟩ := (ih hstop').2 ⟨pre, s', hpre', hfold, hend', hs'⟩
            exact ⟨u, ⟨t, ht, hloop⟩, hu⟩

end ElementLoop
