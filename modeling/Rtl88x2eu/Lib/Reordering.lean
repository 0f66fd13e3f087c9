import Mathlib.Tactic.Linarith
import Mathlib.Data.List.Chain
import Mathlib.Data.List.Perm.Basic
import Mathlib.Algebra.Order.Ring.Int

/-!
# Reordering buffers

A receiver that restores the order of numbered items: the window starts at the next number it
expects and is `w` wide, an item inside the window that came early is held back, an item beyond
the window moves the window forward, and an item before it is refused. The numbers are integers,
so the order is a linear order; a protocol that sends residues refines this buffer.

## Main definitions

* `Buffer`
* `Buffer.arrive`, `Buffer.expire`: an item comes in, the oldest gap is given up
* `Buffer.restart`, `Buffer.Sound`, `Buffer.Waits`, `Steps`

## Main results

* `Sound.arrive`, `Sound.expire`: the operations keep the invariant and release in `Steps`
* `Waits.expire`, `Waits.restart`: a window that was moved, and one that starts anew
* `arrive_perm`, `expire_append`: no item is lost or doubled
-/

namespace Reordering

variable {α : Type*}

/-- The first number the window expects, and the items held back with their numbers. -/
structure Buffer (α : Type*) where
  next : ℤ
  held : List (ℤ × α)

/-- The window start once number `n` has arrived in a window of width `w`. -/
def advance (w next n : ℤ) : ℤ :=
  if n = next then next + 1 else if next + w ≤ n then n + 1 - w else next

/-- Insertion behind every smaller number. -/
def place (n : ℤ) (x : α) : List (ℤ × α) → List (ℤ × α)
  | [] => [(n, x)]
  | p :: q => if p.1 < n then p :: place n x q else (n, x) :: p :: q

/-- The items that are due, the window start behind them, and the items that stay. -/
def release (next : ℤ) : List (ℤ × α) → List (ℤ × α) × Buffer α
  | [] => ([], ⟨next, []⟩)
  | p :: q =>
    if next < p.1 then ([], ⟨next, p :: q⟩)
    else
      let r := release (if next = p.1 then next + 1 else next) q
      (p :: r.1, r.2)

/-- An item arrives: it is refused before the window or when its number is held already. -/
def Buffer.arrive (w : ℤ) (b : Buffer α) (n : ℤ) (x : α) : Option (List (ℤ × α) × Buffer α) :=
  if n < b.next ∨ n ∈ b.held.map Prod.fst then none
  else some (release (advance w b.next n) (place n x b.held))

/-- The oldest gap is given up: the window moves to the first held item. -/
def Buffer.expire (b : Buffer α) : List (ℤ × α) × Buffer α :=
  match b.held with
  | [] => ([], b)
  | p :: _ => release p.1 b.held

theorem Buffer.expire_of_nil {b : Buffer α} (hb : b.held = []) : b.expire = ([], b) := by
  simp [expire, hb]

theorem Buffer.expire_of_cons {b : Buffer α} {p : ℤ × α} {q : List (ℤ × α)}
    (hb : b.held = p :: q) : b.expire = release p.1 b.held := by
  simp [expire, hb]

/-- The numbers of `l` go up from `last`, by at most `h` from one to the next. -/
def Steps (h : ℤ) (last : Option ℤ) (l : List (ℤ × α)) : Prop :=
  (last.toList ++ l.map Prod.fst).IsChain fun a b => a < b ∧ b ≤ a + h

/-- The number released last, after `l` was released. -/
def lastOf (last : Option ℤ) (l : List (ℤ × α)) : Option ℤ :=
  (l.getLast?.map Prod.fst).or last

/-- The held numbers go up inside the window, from the number released last on by at most `h` at a
time; that number is before the window, and just before it when nothing is held. -/
structure Buffer.Sound (w h : ℤ) (last : Option ℤ) (b : Buffer α) : Prop where
  steps : Steps h last b.held
  ahead : ∀ p ∈ b.held, b.next < p.1
  within : ∀ p ∈ b.held, p.1 < b.next + w
  behind : ∀ l ∈ last, l < b.next
  tight : ∀ l ∈ last, b.held = [] → b.next = l + 1

/-! ## Steps -/

@[simp] theorem steps_nil {h : ℤ} {last : Option ℤ} : Steps h last ([] : List (ℤ × α)) := by
  cases last <;> simp [Steps]

theorem steps_cons {h : ℤ} {last : Option ℤ} {p : ℤ × α} {q : List (ℤ × α)} :
    Steps h last (p :: q) ↔ (∀ l ∈ last, l < p.1 ∧ p.1 ≤ l + h) ∧ Steps h (some p.1) q := by
  cases last <;> simp [Steps]

theorem Steps.cons {h : ℤ} {last : Option ℤ} {p : ℤ × α} {q : List (ℤ × α)}
    (hfirst : ∀ l ∈ last, l < p.1 ∧ p.1 ≤ l + h) (hrest : Steps h (some p.1) q) :
    Steps h last (p :: q) := by
  rw [steps_cons]
  exact ⟨hfirst, hrest⟩

theorem Steps.tail {h : ℤ} {last : Option ℤ} {p : ℤ × α} {q : List (ℤ × α)}
    (hq : Steps h last (p :: q)) : Steps h (some p.1) q := by
  rw [steps_cons] at hq
  exact hq.2

@[simp] theorem lastOf_nil (last : Option ℤ) : lastOf last ([] : List (ℤ × α)) = last := rfl

@[simp] theorem lastOf_cons (last : Option ℤ) (p : ℤ × α) (q : List (ℤ × α)) :
    lastOf last (p :: q) = lastOf (some p.1) q := by
  cases q with
  | nil => simp [lastOf]
  | cons a q =>
    rw [lastOf, lastOf, List.getLast?_cons_cons,
      List.getLast?_eq_some_getLast (List.cons_ne_nil a q)]
    rfl

theorem lastOf_append (last : Option ℤ) (p q : List (ℤ × α)) :
    lastOf last (p ++ q) = lastOf (lastOf last p) q := by
  induction p generalizing last with
  | nil => rfl
  | cons a p ih => simp [ih]

theorem steps_append {h : ℤ} {last : Option ℤ} {p q : List (ℤ × α)} :
    Steps h last (p ++ q) ↔ Steps h last p ∧ Steps h (lastOf last p) q := by
  induction p generalizing last with
  | nil => simp
  | cons a p ih => simp only [List.cons_append, steps_cons, ih, lastOf_cons, and_assoc]

/-- Steps go up. -/
theorem Steps.lt {h : ℤ} {last : Option ℤ} {q : List (ℤ × α)} (hq : Steps h last q) :
    ∀ l ∈ last, ∀ p ∈ q, l < p.1 := by
  induction q generalizing last with
  | nil => simp
  | cons a q ih =>
    rw [steps_cons] at hq
    obtain ⟨hfirst, hrest⟩ := hq
    intro l hl p hp
    rcases List.mem_cons.mp hp with rfl | hp
    · exact (hfirst l hl).1
    · exact (hfirst l hl).1.trans (ih hrest _ rfl p hp)

theorem Steps.le_lastOf {h : ℤ} {last : Option ℤ} {q : List (ℤ × α)} (hq : Steps h last q)
    {l : ℤ} (hl : lastOf last q = some l) : ∀ p ∈ q, p.1 ≤ l := by
  induction q generalizing last with
  | nil => simp
  | cons a q ih =>
    have hrest := hq.tail
    rw [lastOf_cons] at hl
    have hle := ih hrest hl
    intro p hp
    rcases List.mem_cons.mp hp with rfl | hp
    · cases q with
      | nil => exact le_of_eq (Option.some.inj hl)
      | cons b q =>
          exact ((hrest.lt _ rfl b List.mem_cons_self).le).trans (hle b List.mem_cons_self)
    · exact hle p hp

theorem Steps.sorted {h : ℤ} {last : Option ℤ} {q : List (ℤ × α)} (hq : Steps h last q) :
    q.Pairwise fun p r => p.1 < r.1 := by
  induction q generalizing last with
  | nil => exact List.Pairwise.nil
  | cons a q ih =>
    have hrest := hq.tail
    exact List.pairwise_cons.mpr ⟨hrest.lt _ rfl, ih hrest⟩

theorem place_perm (n : ℤ) (x : α) (q : List (ℤ × α)) : (place n x q).Perm ((n, x) :: q) := by
  induction q with
  | nil => exact List.Perm.refl _
  | cons a q ih =>
    simp only [place]
    split
    · exact (List.Perm.cons a ih).trans (List.Perm.swap _ _ _)
    · exact List.Perm.refl _

theorem mem_place {n : ℤ} {x : α} {q : List (ℤ × α)} {p : ℤ × α} :
    p ∈ place n x q ↔ p = (n, x) ∨ p ∈ q :=
  (place_perm n x q).mem_iff.trans List.mem_cons

theorem place_sorted {n : ℤ} {x : α} {q : List (ℤ × α)} (hq : q.Pairwise fun p r => p.1 < r.1)
    (hnew : n ∉ q.map Prod.fst) : (place n x q).Pairwise fun p r => p.1 < r.1 := by
  induction q with
  | nil => simp [place]
  | cons a q ih =>
    simp only [List.map_cons, List.mem_cons, not_or] at hnew
    obtain ⟨ha, hq⟩ := List.pairwise_cons.mp hq
    simp only [place]
    split
    next hlt =>
      refine List.pairwise_cons.mpr ⟨fun r hr => ?_, ih hq hnew.2⟩
      rcases mem_place.mp hr with rfl | hr
      · exact hlt
      · exact ha r hr
    next hle =>
      have hna : n < a.1 := lt_of_le_of_ne (not_lt.mp hle) hnew.1
      refine List.pairwise_cons.mpr ⟨fun r hr => ?_, List.pairwise_cons.mpr ⟨ha, hq⟩⟩
      rcases List.mem_cons.mp hr with rfl | hr
      · exact hna
      · exact hna.trans (ha r hr)

theorem place_steps {h n : ℤ} {x : α} {last : Option ℤ} {q : List (ℤ × α)}
    (hq : Steps h last q) (hnew : n ∉ q.map Prod.fst) (hlast : ∀ l ∈ last, l < n)
    (hlone : q = [] → ∀ l ∈ last, n ≤ l + h) (hup : ∀ p ∈ q, n ≤ p.1 + h)
    (hdown : ∀ p ∈ q, p.1 ≤ n + h) : Steps h last (place n x q) := by
  induction q generalizing last with
  | nil => exact .cons (fun l hl => ⟨hlast l hl, hlone rfl l hl⟩) steps_nil
  | cons a q ih =>
    simp only [List.map_cons, List.mem_cons, not_or] at hnew
    have hmem : a ∈ a :: q := List.mem_cons_self
    rw [steps_cons] at hq
    obtain ⟨hfirst, hrest⟩ := hq
    simp only [place]
    split
    next hlt =>
      refine .cons hfirst (ih hrest hnew.2 ?_ ?_ (fun p hp => hup p (.tail _ hp))
        (fun p hp => hdown p (.tail _ hp)))
      · rintro l ⟨rfl⟩
        exact hlt
      · rintro - l ⟨rfl⟩
        exact hup a hmem
    next hle =>
      have hna : n < a.1 := lt_of_le_of_ne (not_lt.mp hle) hnew.1
      refine .cons (fun l hl => ⟨hlast l hl, ?_⟩) (.cons ?_ hrest)
      · have := (hfirst l hl).2
        omega
      · rintro l ⟨rfl⟩
        exact ⟨hna, hdown a hmem⟩

/-! ## Release -/

@[simp] theorem release_nil (next : ℤ) :
    release next ([] : List (ℤ × α)) = ([], ⟨next, []⟩) := rfl

theorem release_of_lt {next : ℤ} {p : ℤ × α} {q : List (ℤ × α)} (hp : next < p.1) :
    release next (p :: q) = ([], ⟨next, p :: q⟩) := by
  simp [release, hp]

theorem release_of_le {next : ℤ} {p : ℤ × α} {q : List (ℤ × α)} (hp : p.1 ≤ next) :
    release next (p :: q) =
      (p :: (release (if next = p.1 then next + 1 else next) q).1,
        (release (if next = p.1 then next + 1 else next) q).2) := by
  simp [release, not_lt.mpr hp]

theorem release_append (next : ℤ) (q : List (ℤ × α)) :
    (release next q).1 ++ (release next q).2.held = q := by
  induction q generalizing next with
  | nil => rfl
  | cons p q ih =>
    rcases lt_or_ge next p.1 with hp | hp
    · simp [release_of_lt hp]
    · simp [release_of_le hp, ih]

theorem le_release_next (next : ℤ) (q : List (ℤ × α)) : next ≤ (release next q).2.next := by
  induction q generalizing next with
  | nil => exact le_refl _
  | cons p q ih =>
    rcases lt_or_ge next p.1 with hp | hp
    · simp [release_of_lt hp]
    · rw [release_of_le hp]
      refine le_trans ?_ (ih _)
      split <;> omega

theorem lt_of_mem_released {next : ℤ} {q : List (ℤ × α)} :
    ∀ p ∈ (release next q).1, p.1 < (release next q).2.next := by
  induction q generalizing next with
  | nil => simp
  | cons a q ih =>
    rcases lt_or_ge next a.1 with ha | ha
    · simp [release_of_lt ha]
    · rw [release_of_le ha]
      intro p hp
      rcases List.mem_cons.mp hp with rfl | hp
      · refine lt_of_lt_of_le ?_ (le_release_next _ q)
        split <;> omega
      · exact ih p hp

theorem release_ahead {next : ℤ} {q : List (ℤ × α)} (hq : q.Pairwise fun p r => p.1 < r.1) :
    ∀ p ∈ (release next q).2.held, (release next q).2.next < p.1 := by
  induction q generalizing next with
  | nil => simp
  | cons a q ih =>
    rw [List.pairwise_cons] at hq
    rcases lt_or_ge next a.1 with ha | ha
    · rw [release_of_lt ha]
      intro p hp
      rcases List.mem_cons.mp hp with rfl | hp
      · exact ha
      · exact ha.trans (hq.1 p hp)
    · rw [release_of_le ha]
      exact ih hq.2

theorem release_next_le {next bound : ℤ} {q : List (ℤ × α)} (hnext : next ≤ bound)
    (hq : ∀ p ∈ q, p.1 + 1 ≤ bound) : (release next q).2.next ≤ bound := by
  induction q generalizing next with
  | nil => exact hnext
  | cons a q ih =>
    rcases lt_or_ge next a.1 with ha | ha
    · simpa [release_of_lt ha] using hnext
    · rw [release_of_le ha]
      refine ih ?_ fun p hp => hq p (List.mem_cons_of_mem _ hp)
      have hbound := hq a List.mem_cons_self
      split <;> omega

theorem release_sound {w h next : ℤ} {last : Option ℤ} {q : List (ℤ × α)}
    (hsteps : Steps h last q) (hbehind : ∀ l ∈ last, l < next)
    (hwithin : ∀ p ∈ q, p.1 < next + w) (hreach : ∃ p ∈ q, next ≤ p.1 + 1) :
    Steps h last (release next q).1 ∧
      (release next q).2.Sound w h (lastOf last (release next q).1) := by
  have happend := release_append next q
  have hnext := le_release_next next q
  have hcut := steps_append.mp (happend.symm ▸ hsteps)
  refine ⟨hcut.1, hcut.2, release_ahead hsteps.sorted, fun p hp => ?_, fun l hl => ?_,
    fun l hl hnil => ?_⟩
  · have := hwithin p (happend ▸ List.mem_append_right _ hp)
    omega
  · simp only [lastOf, Option.mem_def, Option.or_eq_some_iff, Option.map_eq_some_iff] at hl
    rcases hl with ⟨p, hp, rfl⟩ | ⟨-, hl⟩
    · exact lt_of_mem_released p (List.mem_of_getLast? hp)
    · exact lt_of_lt_of_le (hbehind l hl) hnext
  · rw [hnil, List.append_nil] at happend
    obtain ⟨p, hp, hreach⟩ := hreach
    have hmax := hcut.1.le_lastOf hl
    rw [happend] at hmax
    refine le_antisymm (release_next_le ?_ fun r hr => ?_) ?_
    · have := hmax p hp
      omega
    · have := hmax r hr
      omega
    · simp only [lastOf, Option.mem_def, Option.or_eq_some_iff, Option.map_eq_some_iff] at hl
      rcases hl with ⟨r, hr, rfl⟩ | ⟨hr, -⟩
      · exact lt_of_mem_released r (List.mem_of_getLast? hr)
      · rw [happend] at hr
        simp only [Option.map_eq_none_iff, List.getLast?_eq_none_iff] at hr
        exact absurd hp (by simp [hr])

/-- **An arriving number keeps the invariant**, when it is less than `h` ahead of the window and
the window is at most `h` wide. -/
theorem Buffer.Sound.arrive {w h n : ℤ} {x : α} {last : Option ℤ} {b b' : Buffer α}
    {out : List (ℤ × α)} (hb : b.Sound w h last) (hw : 1 ≤ w) (hwh : w ≤ h)
    (hn : n < b.next + h) (hstep : b.arrive w n x = some (out, b')) :
    Steps h last out ∧ b'.Sound w h (lastOf last out) := by
  rw [Buffer.arrive, Option.ite_none_left_eq_some, not_or, not_lt] at hstep
  obtain ⟨⟨hge, hnew⟩, hstep⟩ := hstep
  obtain rfl : out = _ := congrArg Prod.fst (Option.some.inj hstep).symm
  obtain rfl : b' = _ := congrArg Prod.snd (Option.some.inj hstep).symm
  have hmem : (n, x) ∈ place n x b.held := mem_place.mpr (Or.inl rfl)
  refine release_sound (place_steps hb.steps hnew (fun l hl => ?_) (fun hnil l hl => ?_)
    (fun p hp => ?_) (fun p hp => ?_)) (fun l hl => ?_) (fun p hp => ?_) ⟨(n, x), hmem, ?_⟩
  · exact lt_of_lt_of_le (hb.behind l hl) hge
  · have := hb.tight l hl hnil
    omega
  · have := hb.ahead p hp
    omega
  · have := hb.within p hp
    omega
  · have := hb.behind l hl
    unfold advance
    split_ifs <;> omega
  · rcases mem_place.mp hp with rfl | hp
    · simp only [advance]
      split_ifs <;> omega
    · have := hb.within p hp
      unfold advance
      split_ifs <;> omega
  · simp only [advance]
    split_ifs <;> omega

/-- **Giving up the oldest gap keeps the invariant.** -/
theorem Buffer.Sound.expire {w h : ℤ} {last : Option ℤ} {b : Buffer α} (hb : b.Sound w h last) :
    Steps h last b.expire.1 ∧ b.expire.2.Sound w h (lastOf last b.expire.1) := by
  cases hheld : b.held with
  | nil =>
    rw [Buffer.expire_of_nil hheld]
    exact ⟨steps_nil, hb⟩
  | cons p q =>
    have hp : p ∈ b.held := by simp [hheld]
    rw [Buffer.expire_of_cons hheld]
    have hahead := hb.ahead p hp
    refine release_sound hb.steps (fun l hl => ?_) (fun r hr => ?_) ⟨p, hp, (lt_add_one p.1).le⟩
    · exact (hb.behind l hl).trans hahead
    · have := hb.within r hr
      omega

/-- A fresh window behind nothing is sound. -/
theorem Buffer.Sound.empty (w h next : ℤ) : (⟨next, []⟩ : Buffer α).Sound w h none where
  steps := steps_nil
  ahead := by simp
  within := by simp
  behind := by simp
  tight := by simp

/-- **An accepted item is released or held**, with everything held before it. -/
theorem Buffer.arrive_perm {w n : ℤ} {x : α} {b b' : Buffer α} {out : List (ℤ × α)}
    (hstep : b.arrive w n x = some (out, b')) : (out ++ b'.held).Perm ((n, x) :: b.held) := by
  rw [Buffer.arrive, Option.ite_none_left_eq_some] at hstep
  obtain rfl : out = _ := congrArg Prod.fst (Option.some.inj hstep.2).symm
  obtain rfl : b' = _ := congrArg Prod.snd (Option.some.inj hstep.2).symm
  rw [release_append]
  exact place_perm n x b.held

theorem Buffer.expire_append (b : Buffer α) : b.expire.1 ++ b.expire.2.held = b.held := by
  cases hheld : b.held with
  | nil => simp [Buffer.expire_of_nil hheld, hheld]
  | cons p q => rw [Buffer.expire_of_cons hheld, release_append, hheld]

/-! ## Windows that are moved -/

/-- The window starts anew behind item `n`: the held items before it, the item with those that
follow it directly, and what stays. -/
def Buffer.restart (b : Buffer α) (n : ℤ) (x : α) :
    List (ℤ × α) × List (ℤ × α) × Buffer α :=
  let r := release (n + 1) (b.held.dropWhile (·.1 < n))
  (b.held.takeWhile (·.1 < n), (n, x) :: r.1, r.2)

/-- The held numbers go up inside the window, from the number released last on. -/
structure Buffer.Waits (w h : ℤ) (last : Option ℤ) (b : Buffer α) : Prop where
  steps : Steps h last b.held
  within : ∀ p ∈ b.held, b.next ≤ p.1 ∧ p.1 < b.next + w

theorem Buffer.Sound.waits {w h : ℤ} {last : Option ℤ} {b : Buffer α} (hb : b.Sound w h last) :
    b.Waits w h last :=
  ⟨hb.steps, fun p hp => ⟨(hb.ahead p hp).le, hb.within p hp⟩⟩

theorem Steps.of_none {h : ℤ} {last : Option ℤ} {q : List (ℤ × α)} (hq : Steps h last q) :
    Steps h none q := by
  cases q with
  | nil => exact steps_nil
  | cons p q => exact .cons (by simp) hq.tail

theorem Buffer.Sound.forget {w h : ℤ} {last : Option ℤ} {b : Buffer α} (hb : b.Sound w h last) :
    b.Sound w h none :=
  ⟨hb.steps.of_none, hb.ahead, hb.within, by simp, by simp⟩

theorem Buffer.Sound.moveTo {w h n : ℤ} {b : Buffer α} (hb : b.Sound w h none) (hn : b.next ≤ n)
    (hheld : ∀ p ∈ b.held, n < p.1) : ({ b with next := n } : Buffer α).Sound w h none where
  steps := hb.steps
  ahead := hheld
  within p hp := by
    have := hb.within p hp
    show p.1 < n + w
    omega
  behind := by simp
  tight := by simp

theorem release_span {first next bound : ℤ} {q : List (ℤ × α)} (hfirst : first ≤ next)
    (hnext : next ≤ bound) (hq : ∀ p ∈ q, first ≤ p.1 ∧ p.1 + 1 ≤ bound) :
    first ≤ (release next q).2.next ∧ (release next q).2.next ≤ bound ∧
      ∀ p ∈ (release next q).1, first ≤ p.1 ∧ p.1 < (release next q).2.next := by
  refine ⟨hfirst.trans (le_release_next next q), release_next_le hnext fun p hp => (hq p hp).2,
    fun p hp => ⟨(hq p ?_).1, lt_of_mem_released p hp⟩⟩
  exact release_append next q ▸ List.mem_append_left _ hp

/-- An arrival moves the window by at most `h`, over the items it releases. -/
theorem Buffer.Sound.arrive_span {w h n : ℤ} {x : α} {last : Option ℤ} {b b' : Buffer α}
    {out : List (ℤ × α)} (hb : b.Sound w h last) (hw : 1 ≤ w) (hwh : w ≤ h)
    (hn : n < b.next + h) (hstep : b.arrive w n x = some (out, b')) :
    b.next ≤ b'.next ∧ b'.next ≤ b.next + h ∧ ∀ p ∈ out, b.next ≤ p.1 ∧ p.1 < b'.next := by
  rw [Buffer.arrive, Option.ite_none_left_eq_some, not_or, not_lt] at hstep
  obtain ⟨⟨hge, -⟩, hstep⟩ := hstep
  obtain rfl : out = _ := congrArg Prod.fst (Option.some.inj hstep).symm
  obtain rfl : b' = _ := congrArg Prod.snd (Option.some.inj hstep).symm
  refine release_span ?_ ?_ fun p hp => ?_
  · unfold advance
    split_ifs <;> omega
  · unfold advance
    split_ifs <;> omega
  · rcases mem_place.mp hp with rfl | hp
    · exact ⟨hge, by omega⟩
    · have := hb.ahead p hp
      have := hb.within p hp
      omega

/-- Giving up the oldest gap moves the window by at most its width. -/
theorem Buffer.Sound.expire_span {w h : ℤ} {last : Option ℤ} {b : Buffer α}
    (hb : b.Sound w h last) (hw : 0 ≤ w) :
    b.next ≤ b.expire.2.next ∧ b.expire.2.next ≤ b.next + w ∧
      ∀ p ∈ b.expire.1, b.next ≤ p.1 ∧ p.1 < b.expire.2.next := by
  cases hheld : b.held with
  | nil => simp [Buffer.expire_of_nil hheld, hw]
  | cons p q =>
    have hspan : ∀ r ∈ b.held, b.next ≤ r.1 ∧ r.1 + 1 ≤ b.next + w := fun r hr => by
      have := hb.ahead r hr
      have := hb.within r hr
      omega
    have hp := hspan p (by simp [hheld])
    rw [Buffer.expire_of_cons hheld]
    exact release_span hp.1 (by omega) hspan

/-- Items before the window are released at once. -/
theorem release_append_of_lt {next : ℤ} {p q : List (ℤ × α)} (hp : ∀ r ∈ p, r.1 < next) :
    release next (p ++ q) = (p ++ (release next q).1, (release next q).2) := by
  induction p with
  | nil => rfl
  | cons a p ih =>
    have ha := hp a List.mem_cons_self
    rw [List.cons_append, release_of_le ha.le, if_neg ha.ne',
      ih fun r hr => hp r (List.mem_cons_of_mem _ hr)]
    rfl

theorem place_eq (n : ℤ) (x : α) (q : List (ℤ × α)) :
    place n x q = q.takeWhile (·.1 < n) ++ (n, x) :: q.dropWhile (·.1 < n) := by
  induction q with
  | nil => rfl
  | cons a q ih =>
    by_cases ha : a.1 < n
    · simp [place, ha, ih]
    · simp [place, ha]

/-- Releasing behind an item that was just placed starts the window anew. -/
theorem Buffer.release_place (b : Buffer α) (n : ℤ) (x : α) :
    release (n + 1) (place n x b.held) =
      ((b.restart n x).1 ++ (b.restart n x).2.1, (b.restart n x).2.2) := by
  have hlower : ∀ r ∈ b.held.takeWhile (·.1 < n), r.1 < n + 1 := by
    intro r hr
    have hlt := List.all_eq_true.mp List.all_takeWhile r hr
    simp only [decide_eq_true_eq] at hlt
    omega
  rw [place_eq, release_append_of_lt hlower, release_of_le (by simp)]
  simp [Buffer.restart]

/-- **A window that starts anew is sound**, when no held item is beyond it. -/
theorem Buffer.Waits.restart {w h n : ℤ} {x : α} {last : Option ℤ} {b : Buffer α}
    (hb : b.Waits w h last) (hw : 1 ≤ w) (hwh : w ≤ h) (hnew : n ∉ b.held.map Prod.fst)
    (hnear : ∀ p ∈ b.held, n ≤ p.1 + h ∧ p.1 ≤ n + w) :
    Steps h last (b.restart n x).1 ∧ Steps h none (b.restart n x).2.1 ∧
      (b.restart n x).2.2.Sound w h (lastOf none (b.restart n x).2.1) := by
  have hmem : (n, x) ∈ place n x b.held := mem_place.mpr (Or.inl rfl)
  have hheld : Steps h last ((b.restart n x).1 ++ b.held.dropWhile (·.1 < n)) := by
    simpa [Buffer.restart] using hb.steps
  have hsteps : Steps h none (place n x b.held) := by
    refine place_steps hb.steps.of_none hnew (by simp) (by simp) (fun p hp => (hnear p hp).1)
      (fun p hp => ?_)
    have := (hnear p hp).2
    omega
  have hwithin : ∀ p ∈ place n x b.held, p.1 < n + 1 + w := by
    intro p hp
    rcases mem_place.mp hp with rfl | hp
    · simp only
      omega
    · have := (hnear p hp).2
      omega
  obtain ⟨hout, hsound⟩ := release_sound hsteps (by simp) hwithin ⟨(n, x), hmem, le_rfl⟩
  have hlastOf : lastOf none ((b.restart n x).1 ++ (b.restart n x).2.1) =
      lastOf none (b.restart n x).2.1 := by
    rw [lastOf_append]
    simp [Buffer.restart]
  rw [b.release_place] at hout hsound
  rw [hlastOf] at hsound
  exact ⟨(steps_append.mp hheld).1, (steps_append.mp hout).2.of_none, hsound⟩

/-- A window that starts anew continues what was released, when the item does. -/
theorem Buffer.restart_steps {h n : ℤ} {x : α} {last : Option ℤ} {b : Buffer α}
    (hlower : Steps h last (b.restart n x).1) (hupper : Steps h none (b.restart n x).2.1)
    (hlast : ∀ l ∈ lastOf last (b.restart n x).1, l < n ∧ n ≤ l + h) :
    Steps h last ((b.restart n x).1 ++ (b.restart n x).2.1) :=
  steps_append.mpr ⟨hlower, .cons hlast hupper.tail⟩

/-- **Giving up the oldest gap** keeps a window that was moved. -/
theorem Buffer.Waits.expire {w h : ℤ} {last : Option ℤ} {b : Buffer α} (hb : b.Waits w h last) :
    Steps h last b.expire.1 ∧ b.expire.2.Waits w h (lastOf last b.expire.1) := by
  have hcut := steps_append.mp (b.expire_append ▸ hb.steps)
  refine ⟨hcut.1, hcut.2, fun p hp => ?_⟩
  cases hheld : b.held with
  | nil =>
    rw [Buffer.expire_of_nil hheld, hheld] at hp
    simp at hp
  | cons r q =>
    have hr := hb.within r (by simp [hheld])
    have hpw := hb.within p (b.expire_append ▸ List.mem_append_right _ hp)
    rw [Buffer.expire_of_cons hheld] at hp ⊢
    have hahead := release_ahead hb.steps.sorted p hp
    have hnext := le_release_next r.1 b.held
    omega

end Reordering
