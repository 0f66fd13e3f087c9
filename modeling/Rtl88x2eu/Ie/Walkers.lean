import Rtl88x2eu.Ie.Elements

/-!
# Loops over the elements of a buffer

A loop looks at one element after another, by the length bytes, while it is not at the end of the
buffer. The case for an element changes the state of the loop, or leaves the function.

## Main definitions

* `data`, `ElemWalk`, `Visits`, `WalkOutcome`, `InsideOf`

## Main results

* `insideOf_outcome_iff`: a loop stays inside exactly if it does so at every element it comes to
* `run_elems`: what a loop over a list of elements returns
-/

namespace Rtl88x2eu.Ie

/-- A byte of the body of the element at `q`. -/
def data (p : Bytes) (q k : ℕ) : UInt8 := p.u8 (q + 2 + k)

/-- `_rtw_memcmp` of bytes of the body, from an offset on. -/
def dataIs (p : Bytes) (q k : ℕ) (b : Bytes) : Bool := p.read (q + 2 + k) b.length = b

/-- The addresses of bytes of the body. -/
def dataAt (q k count : ℕ) : List ℕ := List.range' (q + 2 + k) count

theorem forall_dataAt {n q k count : ℕ} :
    (∀ a ∈ dataAt q k count, a < n) ↔ (0 < count → q + 2 + k + count ≤ n) := by
  constructor
  · intro h hpos
    have hlast := h (q + 2 + k + (count - 1)) (List.mem_range'_1.mpr (by omega))
    omega
  · intro h a ha
    obtain ⟨hge, hlt⟩ := List.mem_range'_1.mp ha
    have hend := h (by omega)
    omega

theorem data_bytes {pre rest : Bytes} {e : Elem} {k : ℕ} (h : k < e.body.length) :
    data (pre ++ (e.bytes ++ rest)) pre.length k = e.body.u8 k := by
  have hsplit : pre ++ (e.bytes ++ rest) =
      (pre ++ [e.id, UInt8.ofNat e.body.length]) ++ (e.body ++ rest) := by
    rw [List.append_assoc]
    rfl
  have hlen : (pre ++ [e.id, UInt8.ofNat e.body.length]).length = pre.length + 2 := by
    rw [List.length_append]
    rfl
  rw [data, hsplit, ← hlen, u8_append_right, Bytes.u8_append h]

/-- A loop over elements. -/
structure ElemWalk (σ ρ : Type) where
  start : ℕ
  /-- The loop goes on while there is a byte so far ahead. -/
  ahead : ℕ := 0
  /-- The case for the element at an address: the new state, or what is returned there. -/
  pass : Bytes → ℕ → σ → σ ⊕ ρ
  /-- The addresses that the case reads besides that of the id. -/
  log : Bytes → ℕ → σ → List ℕ
  /-- What is returned behind the loop. -/
  leave : σ → ρ

/-- What a loop returns, and which addresses it reads. -/
structure WalkOutcome (ρ : Type) where
  /-- `none` if the loop does not end. -/
  result : Option ρ
  reads : List ℕ

/-- **The loop ends and reads nothing at or behind `n`.** -/
structure InsideOf {ρ : Type} (o : WalkOutcome ρ) (n : ℕ) : Prop where
  ends : o.result.isSome
  reads : ∀ a ∈ o.reads, a < n

namespace ElemWalk

variable {σ ρ : Type} (w : ElemWalk σ ρ) (p : Bytes) (limit : ℕ)

/-- One turn of the loop. -/
def body : ℕ × σ → (ℕ × σ) ⊕ ρ
  | (q, s) =>
    if q + w.ahead < limit then
      match w.pass p q s with
      | .inl s' => .inl (elemNext p q, s')
      | .inr r => .inr r
    else .inr (w.leave s)

/-- What a turn reads: the id, what the case reads, and the length byte if the loop goes on. -/
def turnLog : ℕ × σ → List ℕ
  | (q, s) =>
    if q + w.ahead < limit then
      q :: w.log p q s ++ if (w.pass p q s).isLeft then [q + 1] else []
    else []

def run (s : σ) : Option ρ := Loop.iterate (w.body p limit) (limit + 1) (w.start, s)

def outcome (s : σ) : WalkOutcome ρ where
  result := w.run p limit s
  reads := Loop.trace (w.turnLog p limit) (w.body p limit) (limit + 1) (w.start, s)

/-- The loop comes to the element at `q` in state `t`. -/
structure Visits (s : σ) (q : ℕ) (t : σ) : Prop where
  reaches : Loop.Reaches (w.body p limit) (w.start, s) (q, t)
  go : q + w.ahead < limit

variable {w p limit} {s t : σ} {q a n : ℕ} {r : ρ}

theorem body_eq_inl {u : ℕ × σ} (h : w.body p limit (q, s) = .inl u) :
    q + w.ahead < limit ∧ u.1 = elemNext p q ∧ w.pass p q s = .inl u.2 := by
  rw [body] at h
  split at h
  case isFalse => cases h
  case isTrue hgo =>
    split at h
    case h_2 => cases h
    case h_1 s' hpass =>
      cases h
      exact ⟨hgo, rfl, hpass⟩

theorem body_of_inl (hgo : q + w.ahead < limit) (h : w.pass p q s = .inl t) :
    w.body p limit (q, s) = .inl (elemNext p q, t) := by
  rw [body, if_pos hgo, h]

theorem body_of_end (h : limit ≤ q + w.ahead) : w.body p limit (q, s) = .inr (w.leave s) :=
  if_neg (Nat.not_lt.mpr h)

/-- **The loop ends.** -/
theorem isSome_run (w : ElemWalk σ ρ) (p : Bytes) (limit : ℕ) (s : σ) :
    (w.run p limit s).isSome := by
  refine Loop.isSome_iterate (fun u => limit - u.1) ?_ (by omega)
  rintro ⟨q, s⟩ u hbody
  obtain ⟨hgo, hnext, -⟩ := body_eq_inl hbody
  have hlt := lt_elemNext p q
  rw [hnext]
  change limit - elemNext p q < limit - q
  omega

theorem mem_reads_iff : a ∈ (w.outcome p limit s).reads ↔ ∃ q t, w.Visits p limit s q t ∧
    (a = q ∨ a ∈ w.log p q t ∨ (w.pass p q t).isLeft ∧ a = q + 1) := by
  refine (Loop.mem_trace_iff (isSome_run w p limit s)).trans ⟨?_, ?_⟩
  · rintro ⟨⟨q, t⟩, hreach, ha⟩
    rw [turnLog] at ha
    split at ha
    case isFalse => cases ha
    case isTrue hgo =>
      refine ⟨q, t, ⟨hreach, hgo⟩, ?_⟩
      rcases List.mem_append.mp ha with ha | ha
      · rcases List.mem_cons.mp ha with ha | ha
        · exact .inl ha
        · exact .inr (.inl ha)
      · split at ha
        case isFalse => cases ha
        case isTrue hleft => exact .inr (.inr ⟨hleft, List.mem_singleton.mp ha⟩)
  · rintro ⟨q, t, ⟨hreach, hgo⟩, ha⟩
    refine ⟨(q, t), hreach, ?_⟩
    rw [turnLog, if_pos hgo]
    rcases ha with rfl | ha | ⟨hleft, rfl⟩
    · simp
    · simp [ha]
    · simp [hleft]

/-- What the loop reads at one element lies before `n`. -/
def StaysAt (w : ElemWalk σ ρ) (p : Bytes) (n q : ℕ) (t : σ) : Prop :=
  q < n ∧ (∀ a ∈ w.log p q t, a < n) ∧ ((w.pass p q t).isLeft → q + 1 < n)

/-- **A loop stays inside exactly if it does so at every element that it comes to.** -/
theorem insideOf_outcome_iff :
    InsideOf (w.outcome p limit s) n ↔
      ∀ q t, w.Visits p limit s q t → w.StaysAt p n q t := by
  constructor
  · rintro ⟨-, hreads⟩ q t hvisit
    refine ⟨hreads q (mem_reads_iff.mpr ⟨q, t, hvisit, .inl rfl⟩), fun a ha => ?_, fun hleft => ?_⟩
    · exact hreads a (mem_reads_iff.mpr ⟨q, t, hvisit, .inr (.inl ha)⟩)
    · exact hreads (q + 1) (mem_reads_iff.mpr ⟨q, t, hvisit, .inr (.inr ⟨hleft, rfl⟩)⟩)
  · intro h
    refine ⟨isSome_run w p limit s, fun a ha => ?_⟩
    obtain ⟨q, t, hvisit, ha⟩ := mem_reads_iff.mp ha
    obtain ⟨hid, hlog, hlen⟩ := h q t hvisit
    rcases ha with rfl | ha | ⟨hleft, rfl⟩
    · exact hid
    · exact hlog a ha
    · exact hlen hleft

section Lists

variable {ι : Type} {elem : ι → Elem} {f : ι → σ → σ} {L : List ι} {pre rest : Bytes}

theorem reaches_elems (hahead : w.ahead ≤ 1)
    (hpass : ∀ x ∈ L, ∀ pre rest s,
      w.pass (pre ++ ((elem x).bytes ++ rest)) pre.length s = .inl (f x s))
    (hlimit : (pre ++ encode (L.map elem)).length ≤ limit) :
    Loop.Reaches (w.body (pre ++ (encode (L.map elem) ++ rest)) limit) (pre.length, s)
      ((pre ++ encode (L.map elem)).length, L.foldl (fun s x => f x s) s) := by
  induction L generalizing pre s with
  | nil =>
    simp only [List.map_nil, encode_nil, List.append_nil, List.foldl_nil]
    exact .refl _
  | cons x L ih =>
    have hbuf : pre ++ (encode ((x :: L).map elem) ++ rest) =
        pre ++ ((elem x).bytes ++ (encode (L.map elem) ++ rest)) := by
      rw [List.map_cons, encode_cons, List.append_assoc]
    have hbuf' : pre ++ (encode ((x :: L).map elem) ++ rest) =
        (pre ++ (elem x).bytes) ++ (encode (L.map elem) ++ rest) := by
      rw [hbuf, List.append_assoc]
    have hend : pre ++ encode ((x :: L).map elem) =
        (pre ++ (elem x).bytes) ++ encode (L.map elem) := by
      rw [List.map_cons, encode_cons, List.append_assoc]
    have hgo : pre.length + w.ahead < limit := by
      rw [hend] at hlimit
      simp only [List.length_append, Elem.length_bytes] at hlimit
      omega
    have hnext : elemNext (pre ++ (encode ((x :: L).map elem) ++ rest)) pre.length =
        (pre ++ (elem x).bytes).length := by
      rw [hbuf, elemNext, bodyLen_bytes, List.length_append, Elem.length_bytes]
    have hbody : w.body (pre ++ (encode ((x :: L).map elem) ++ rest)) limit (pre.length, s) =
        .inl ((pre ++ (elem x).bytes).length, f x s) := by
      rw [← hnext]
      refine body_of_inl hgo ?_
      rw [hbuf]
      exact hpass x List.mem_cons_self _ _ _
    refine .step hbody ?_
    rw [hend, hbuf']
    rw [hend] at hlimit
    exact ih (fun y hy => hpass y (List.mem_cons_of_mem x hy)) hlimit

/-- **What a loop over a list of elements returns.** -/
theorem run_elems (hahead : w.ahead ≤ 1) (hstart : w.start = pre.length)
    (hpass : ∀ x ∈ L, ∀ pre rest s,
      w.pass (pre ++ ((elem x).bytes ++ rest)) pre.length s = .inl (f x s)) :
    w.run (pre ++ (encode (L.map elem) ++ rest)) (pre ++ encode (L.map elem)).length s =
      some (w.leave (L.foldl (fun s x => f x s) s)) := by
  refine Loop.iterate_of_reaches (isSome_run w _ _ s) ?_ (body_of_end (Nat.le_add_right ..))
  rw [hstart]
  exact reaches_elems hahead hpass le_rfl

end Lists

end ElemWalk

end Rtl88x2eu.Ie
