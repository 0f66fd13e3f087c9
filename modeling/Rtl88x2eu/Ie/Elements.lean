import Rtl88x2eu.Ie.Search

/-!
# Lists of information elements

A well-formed buffer holds elements one after another: an id, the length of the body, and the body.
The walk of the searches goes from element to element, and the first element that matches is found.

## Main definitions

* `Elem`, `encode`
* `Elem.Hits eid oui e`: the element is looked for

## Main results

* `iterate_elemNext`: where the elements of a list are
* `run_encode_some`, `run_encode_none`: a search of a list
-/

namespace Rtl88x2eu.Ie

open Walk

/-- An information element. -/
structure Elem where
  id : UInt8
  body : Bytes
  short : body.length < 256

namespace Elem

def bytes (e : Elem) : Bytes := e.id :: UInt8.ofNat e.body.length :: e.body

def Hits (eid : UInt8) (oui : Bytes) (e : Elem) : Prop := e.id = eid ∧ oui <+: e.body

instance Hits.decidable (eid : UInt8) (oui : Bytes) : DecidablePred (Hits eid oui) := fun _ =>
  inferInstanceAs (Decidable (_ ∧ _))

@[simp] theorem length_bytes (e : Elem) : e.bytes.length = e.body.length + 2 := rfl

end Elem

/-- The bytes of a list of elements. -/
def encode (L : List Elem) : Bytes := L.flatMap Elem.bytes

variable {L A B : List Elem} {e : Elem} {pre rest : Bytes} {f : IeSearch} {n q k : ℕ}

@[simp] theorem encode_nil : encode [] = [] := rfl

@[simp] theorem encode_cons (e : Elem) (L : List Elem) : encode (e :: L) = e.bytes ++ encode L :=
  List.flatMap_cons

@[simp] theorem encode_append (A B : List Elem) : encode (A ++ B) = encode A ++ encode B :=
  List.flatMap_append

/-! ## Bytes of an element -/

theorem u8_append_right (p r : Bytes) (i : ℕ) : (p ++ r).u8 (p.length + i) = r.u8 i := by
  unfold Bytes.u8 List.getD
  rw [List.getElem?_append_right (Nat.le_add_right ..), Nat.add_sub_cancel_left]

theorem read_append (p b r : Bytes) : (p ++ (b ++ r)).read p.length b.length = b := by
  refine List.ext_getElem (by simp [Bytes.read]) fun k hk hk' => ?_
  have hread : (p ++ (b ++ r)).u8 (p.length + k) = b[k] := by
    rw [u8_append_right, Bytes.u8_append hk']
    simp [Bytes.u8, hk']
  simpa [Bytes.read] using hread

theorem toNat_length (e : Elem) : (UInt8.ofNat e.body.length).toNat = e.body.length := by
  rw [UInt8.toNat_ofNat']
  exact Nat.mod_eq_of_lt e.short

theorem u8_bytes (pre : Bytes) (e : Elem) (rest : Bytes) :
    (pre ++ (e.bytes ++ rest)).u8 pre.length = e.id := by
  exact u8_append_right pre (e.bytes ++ rest) 0

theorem bodyLen_bytes (pre : Bytes) (e : Elem) (rest : Bytes) :
    bodyLen (pre ++ (e.bytes ++ rest)) pre.length = e.body.length := by
  unfold bodyLen
  rw [u8_append_right]
  exact toNat_length e

theorem read_body (pre : Bytes) (e : Elem) (rest : Bytes) (h : k ≤ e.body.length) :
    (pre ++ (e.bytes ++ rest)).read (pre.length + 2) k = e.body.take k := by
  have hsplit : pre ++ (e.bytes ++ rest) =
      (pre ++ [e.id, UInt8.ofNat e.body.length]) ++ (e.body.take k ++ (e.body.drop k ++ rest)) := by
    rw [← List.append_assoc (e.body.take k), List.take_append_drop, List.append_assoc]
    rfl
  have hlen : (e.body.take k).length = k := by
    rw [List.length_take]
    omega
  have hread := read_append (pre ++ [e.id, UInt8.ofNat e.body.length]) (e.body.take k)
    (e.body.drop k ++ rest)
  rwa [hlen, ← hsplit, List.length_append] at hread

/-- What the comparison of the source finds on an element. -/
theorem hit_bytes (pre : Bytes) (e : Elem) (rest : Bytes)
    (hlong : e.id = f.eid → f.oui.length ≤ e.body.length) :
    f.hit (pre ++ (e.bytes ++ rest)) pre.length = true ↔ e.Hits f.eid f.oui := by
  unfold IeSearch.hit Elem.Hits
  rw [Bool.and_eq_true, decide_eq_true_iff, decide_eq_true_iff, u8_bytes]
  refine and_congr_right fun hid => ?_
  rw [read_body pre e rest (hlong hid), List.prefix_iff_eq_take]
  exact eq_comm

/-- **Where the elements of a list are.** -/
theorem iterate_elemNext (rest : Bytes) (hk : k ≤ L.length) :
    (elemNext (encode L ++ rest))^[k] 0 = (encode (L.take k)).length := by
  induction k with
  | zero => rfl
  | succ k ih =>
    have hlt : k < L.length := hk
    rw [Function.iterate_succ_apply', ih hlt.le, List.take_succ_eq_append_getElem hlt,
      encode_append,
      List.length_append]
    have hsplit : encode L ++ rest =
        encode (L.take k) ++ (L[k].bytes ++ (encode (L.drop (k + 1)) ++ rest)) := by
      rw [← List.append_assoc L[k].bytes, ← encode_cons, List.getElem_cons_drop,
        ← List.append_assoc, ← encode_append, List.take_append_drop]
    rw [hsplit, elemNext, bodyLen_bytes]
    simp

theorem at_encode_iff (hq : q < (encode L).length) :
    At (elemNext (encode L ++ rest)) 0 q ↔
      ∃ A e B, L = A ++ e :: B ∧ q = (encode A).length := by
  constructor
  · rintro ⟨k, rfl⟩
    have hlt : k < L.length := by
      by_contra hge
      have hstrict : StrictMono fun k => (elemNext (encode L ++ rest))^[k] 0 :=
        strictMono_iterate (lt_elemNext (encode L ++ rest))
      have hmono := hstrict.monotone (Nat.not_lt.mp hge)
      have hend := iterate_elemNext (L := L) rest le_rfl
      rw [List.take_length] at hend
      exact absurd (hend.symm.trans_le hmono) (Nat.not_le.mpr hq)
    refine ⟨L.take k, L[k], L.drop (k + 1), ?_, iterate_elemNext rest hlt.le⟩
    rw [List.getElem_cons_drop, List.take_append_drop]
  · rintro ⟨A, e, B, rfl, rfl⟩
    refine ⟨A.length, ?_⟩
    rw [iterate_elemNext rest (by simp), List.take_left]

/-- A search that goes to the end of the list, and knows no other one. -/
structure Plain (f : IeSearch) : Prop where
  ahead : f.ahead = 0
  maxSz : f.maxSz = none

theorem Plain.go_iff (h : Plain f) : f.go n q = true ↔ q < n := by
  rw [IeSearch.go_iff, h.ahead, h.maxSz]
  simp

def OuiFits (f : IeSearch) (L : List Elem) : Prop :=
  ∀ e ∈ L, e.id = f.eid → f.oui.length ≤ e.body.length

theorem hit_encode (hfits : OuiFits f (A ++ e :: B)) (rest : Bytes) :
    f.hit (encode (A ++ e :: B) ++ rest) (encode A).length = true ↔ e.Hits f.eid f.oui := by
  rw [encode_append, encode_cons, List.append_assoc, List.append_assoc]
  exact hit_bytes (encode A) e (encode B ++ rest) (hfits e (by simp))

/-- **The first element that is looked for is found.** -/
theorem run_encode_some (hf : Plain f) (hfits : OuiFits f (A ++ e :: B)) (rest : Bytes)
    (hA : ∀ x ∈ A, ¬x.Hits f.eid f.oui) (he : e.Hits f.eid f.oui) :
    f.run (encode (A ++ e :: B) ++ rest) (encode (A ++ e :: B)).length =
      some (some (encode A).length) := by
  have hlt : (encode A).length < (encode (A ++ e :: B)).length := by
    simp only [encode_append, encode_cons, List.length_append, Elem.length_bytes]
    omega
  refine run_eq_some_iff.mpr ⟨⟨(at_encode_iff hlt).mpr ⟨A, e, B, rfl, rfl⟩, hf.go_iff.mpr hlt, ?_⟩,
    (hit_encode hfits rest).mpr he⟩
  intro r hr hitem
  obtain ⟨A', e', B', hL, rfl⟩ := (at_encode_iff (hr.trans hlt)).mp hitem
  -- an element that ends before `e` begins is one of `A`
  have hmem : e' ∈ A := by
    rcases List.append_eq_append_iff.mp hL with ⟨C, rfl, -⟩ | ⟨C, rfl, hC⟩
    · rw [encode_append, List.length_append] at hr
      omega
    · cases C with
      | nil =>
        rw [List.append_nil] at hr
        omega
      | cons c C =>
        obtain ⟨rfl, -⟩ := List.cons.inj hC
        simp
  have hmiss := hA e' hmem
  rw [hL] at hfits ⊢
  exact Bool.eq_false_iff.mpr fun hhit => hmiss ((hit_encode hfits rest).mp hhit)

/-- A search of a list where nothing is looked for. -/
theorem run_encode_none (hf : Plain f) (hfits : OuiFits f L) (rest : Bytes)
    (hL : ∀ x ∈ L, ¬x.Hits f.eid f.oui) :
    f.run (encode L ++ rest) (encode L).length = some none := by
  obtain ⟨found, hrun⟩ :=
    Option.isSome_iff_exists.mp (isSome_run f (encode L ++ rest) (encode L).length)
  cases found with
  | none => exact hrun
  | some q =>
    obtain ⟨⟨hitem, hgo, -⟩, hhit⟩ := run_eq_some_iff.mp hrun
    obtain ⟨A, e, B, rfl, rfl⟩ := (at_encode_iff (hf.go_iff.mp hgo)).mp hitem
    exact absurd ((hit_encode hfits rest).mp hhit) (hL e (by simp))

end Rtl88x2eu.Ie
