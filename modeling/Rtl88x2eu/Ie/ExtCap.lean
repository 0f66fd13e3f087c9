import Rtl88x2eu.Ie.Edit
import Rtl88x2eu.Lib.Transition

/-!
# Extended capabilities

`ext_capab_ie_data` is an array of ten bytes with the length that the element is to have. A
capability is added or removed, or the capabilities of an element are taken over, and the element of
a beacon is made from the array. An element that is taken over into an array in use is merged byte
by byte, without a look at either length; into an array of length 0 it is copied as it is.

## Main definitions

* `rtwAddExtCapInfo`, `rtwRemoveExtCapInfo`, `rtwParseExtCapIe`, `rtwUpdateExtCapIe`
* `CapOp.unite`, `Kept`, `CapOp.Fits`

## Main results

* `extCap_of_run`: the array and the element, after every run
* `not_extCap`: an element that is longer than the capabilities in use
-/

namespace Rtl88x2eu.Ie

def wlanEidExtCap : UInt8 := 127

def wlanEidExtCapMaxLen : ℕ := 10

structure ExtCap where
  data : Bytes := List.replicate wlanEidExtCapMaxLen 0
  len : ℕ := 0
  /-- Where `ext_cap_data` was written. -/
  writes : List ℕ := []

/-- `BIT`, in a byte. -/
def bit (n : ℕ) : UInt8 := ⟨BitVec.twoPow 8 n⟩

def rtwAddExtCapInfo (s : ExtCap) (capInfo : ℕ) : ExtCap :=
  let byteOffset := capInfo / 8
  let bitOffset := capInfo % 8
  { data := s.data.overwrite byteOffset [s.data.u8 byteOffset ||| bit bitOffset]
    len := if s.len < byteOffset + 1 then byteOffset + 1 else s.len
    writes := s.writes ++ [byteOffset] }

def rtwRemoveExtCapInfo (s : ExtCap) (capInfo : ℕ) : ExtCap :=
  let byteOffset := capInfo / 8
  let bitOffset := capInfo % 8
  let data := s.data.overwrite byteOffset [s.data.u8 byteOffset &&& ~~~bit bitOffset]
  { data
    len := (List.range wlanEidExtCapMaxLen).foldl
      (fun maxLen i => if data.u8 i ≠ 0 then i + 1 else maxLen) 0
    writes := s.writes ++ [byteOffset] }

def rtwParseExtCapIe (s : ExtCap) (w : IesState) (iesOffset : ℕ) : ExtCap :=
  let o := rtwGetIe (w.ies.drop iesOffset) wlanEidExtCap (w.iesLen - iesOffset)
  match o.found.join with
  | none => s
  | some target =>
    let extcapIe := iesOffset + target + 2
    if s.len = 0 then
      { data := s.data.overwrite 0 (w.ies.read extcapIe o.len)
        len := o.len
        writes := s.writes ++ List.range o.len }
    else
      { s with
        data := (List.range o.len).foldl
          (fun data i => data.overwrite i [data.u8 i ||| w.ies.u8 (extcapIe + i)]) s.data
        writes := s.writes ++ List.range o.len }

def rtwSetIe (index : UInt8) (source : Bytes) : Bytes :=
  index :: UInt8.ofNat source.length :: source

/-- `rtw_update_ext_cap_ie`; `none` if the removal does not end. -/
def rtwUpdateExtCapIe (s : ExtCap) (w : IesState) (iesOffset : ℕ) (malloc : Bool) :
    Option IesState :=
  let extCapData := s.data.read 0 s.len
  if s.len ≠ 0 then
    let o := rtwGetIe (w.ies.drop iesOffset) wlanEidExtCap (w.iesLen - iesOffset)
    match o.found.join with
    | none =>
      some
        { w with
          ies := w.ies.overwrite w.iesLen (rtwSetIe wlanEidExtCap extCapData)
          iesLen := w.iesLen + (s.len + 2) }
    | some _ => some (rtwIesUpdateIe w iesOffset wlanEidExtCap extCapData malloc)
  else rtwIesRemoveIe w iesOffset wlanEidExtCap []

/-! ## Sets of capabilities -/

def HasCap (p : Bytes) (cap : ℕ) : Prop := (p.u8 (cap / 8)).toBitVec.getLsbD (cap % 8) = true

def extCapElem (L : List Elem) : Option Elem := L.find? fun e => e.id = wlanEidExtCap

/-- An operation on the array. The elements that are taken over are behind `pre`. -/
inductive CapOp
  | add (cap : Fin (8 * wlanEidExtCapMaxLen))
  | remove (cap : Fin (8 * wlanEidExtCapMaxLen))
  | parse (pre : Bytes) (L : List Elem) (rest : Bytes)

def elemBuffer (pre : Bytes) (L : List Elem) (rest : Bytes) : IesState where
  ies := pre ++ (encode L ++ rest)
  iesLen := pre.length + (encode L).length

/-- What an operation does to the array. -/
def CapOp.apply (s : ExtCap) : CapOp → Option ExtCap
  | add cap => some (rtwAddExtCapInfo s cap)
  | remove cap => some (rtwRemoveExtCapInfo s cap)
  | parse pre L rest => some (rtwParseExtCapIe s (elemBuffer pre L rest) pre.length)

/-- What an operation is for, on sets of capabilities. -/
def CapOp.unite (caps : Set ℕ) : CapOp → Set ℕ
  | add cap => insert ↑cap caps
  | remove cap => caps \ {↑cap}
  | parse _ L _ => caps ∪ {cap | ∃ e ∈ extCapElem L, HasCap e.body cap}

/-- **The array holds the capabilities**, was written inside only, and has nothing but zeros behind
its length. -/
structure Kept (caps : Set ℕ) (s : ExtCap) : Prop where
  writes : ∀ a ∈ s.writes, a < wlanEidExtCapMaxLen
  bits : {cap | HasCap s.data cap} = caps
  zeros : ∀ i, s.len ≤ i → s.data.u8 i = 0

/-- **The list has the element**, with every capability, or none if there is none. -/
def Carried (caps : Set ℕ) (pre : Bytes) (w : IesState) : Prop :=
  ∃ L, Holds pre L w ∧
    (caps.Nonempty → ∃ e ∈ L, e.id = wlanEidExtCap ∧ ∀ cap ∈ caps, HasCap e.body cap) ∧
      (caps = ∅ → ∀ e ∈ L, e.id ≠ wlanEidExtCap)

/-- The element that is taken over has its place in the array: it is no longer than the array, into
an array in use it brings nothing behind its length, and into an unused one at least one capability
or nothing. -/
def CapOp.Fits (s : ExtCap) : CapOp → Prop
  | parse _ L _ => ∀ e ∈ extCapElem L, e.body.length ≤ wlanEidExtCapMaxLen ∧
      if s.len = 0 then e.body = [] ∨ ∃ i, e.body.u8 i ≠ 0
      else ∀ i, s.len ≤ i → e.body.u8 i = 0
  | _ => True

def UpdateFits (s : ExtCap) (L : List Elem) (malloc : Bool) : Prop :=
  s.len ≠ 0 → ∀ e ∈ extCapElem L, e.body ≠ [] ∧ (malloc = true ∨ s.len = e.body.length)

variable {caps : Set ℕ} {s s' : ExtCap} {p q pre rest : Bytes} {L : List Elem} {w : IesState}
  {cap i j n : ℕ} {x : UInt8}

/-! ## Bytes and bits -/

theorem u8_overwrite_one (h : i < p.length) :
    (p.overwrite i [x]).u8 j = if j = i then x else p.u8 j := by
  simp only [Bytes.u8, Bytes.overwrite, List.getD_eq_getElem?_getD]
  grind

theorem length_overwrite_one (h : i < p.length) : (p.overwrite i [x]).length = p.length := by
  simp only [Bytes.overwrite, List.length_append, List.length_take, List.length_drop,
    List.length_singleton]
  omega

theorem u8_of_length_le (h : p.length ≤ j) : p.u8 j = 0 := by
  rw [Bytes.u8, List.getD_eq_getElem?_getD, List.getElem?_eq_none h]
  rfl

theorem u8_overwrite_zero : (p.overwrite 0 q).u8 j = if j < q.length then q.u8 j else p.u8 j := by
  simp only [Bytes.u8, Bytes.overwrite, List.getD_eq_getElem?_getD]
  grind

theorem hasCap_add (h : cap / 8 < p.length) (k : ℕ) :
    HasCap (p.overwrite (cap / 8) [p.u8 (cap / 8) ||| bit (cap % 8)]) k ↔ k = cap ∨ HasCap p k := by
  unfold HasCap
  rw [u8_overwrite_one h]
  by_cases hk : k / 8 = cap / 8
  · rw [if_pos hk, hk, UInt8.toBitVec_or, BitVec.getLsbD_or, Bool.or_eq_true]
    have hbit : (bit (cap % 8)).toBitVec.getLsbD (k % 8) = true ↔ k = cap := by
      rw [bit, BitVec.getLsbD_twoPow, Bool.and_eq_true, decide_eq_true_iff, decide_eq_true_iff]
      omega
    rw [hbit, or_comm]
  · rw [if_neg hk]
    have hne : k ≠ cap := fun h => hk (congrArg (· / 8) h)
    simp [hne]

theorem hasCap_remove (h : cap / 8 < p.length) (k : ℕ) :
    HasCap (p.overwrite (cap / 8) [p.u8 (cap / 8) &&& ~~~bit (cap % 8)]) k ↔
      HasCap p k ∧ k ≠ cap := by
  unfold HasCap
  rw [u8_overwrite_one h]
  by_cases hk : k / 8 = cap / 8
  · rw [if_pos hk, hk, UInt8.toBitVec_and, BitVec.getLsbD_and, Bool.and_eq_true]
    refine and_congr_right fun _ => ?_
    rw [UInt8.toBitVec_not, BitVec.getLsbD_not, bit, BitVec.getLsbD_twoPow]
    simp only [Bool.and_eq_true, decide_eq_true_iff, Bool.not_eq_true', Bool.and_eq_false_iff,
      decide_eq_false_iff_not]
    omega
  · rw [if_neg hk]
    have hne : k ≠ cap := fun h => hk (congrArg (· / 8) h)
    simp [hne]

theorem u8_mergeLoop (f : ℕ → UInt8) (hn : n ≤ p.length) :
    let merged := (List.range n).foldl (fun data i => data.overwrite i [data.u8 i ||| f i]) p
    merged.length = p.length ∧
      ∀ j, merged.u8 j = if j < n then p.u8 j ||| f j else p.u8 j := by
  induction n with
  | zero => exact ⟨rfl, fun j => (if_neg (Nat.not_lt_zero j)).symm⟩
  | succ n ih =>
    obtain ⟨hlen, hbytes⟩ := ih (by omega)
    rw [List.range_succ, List.foldl_append, List.foldl_cons, List.foldl_nil]
    have hlt : n < ((List.range n).foldl
        (fun data i => data.overwrite i [data.u8 i ||| f i]) p).length := by
      rw [hlen]
      omega
    refine ⟨(length_overwrite_one hlt).trans hlen, fun j => ?_⟩
    rw [u8_overwrite_one hlt, hbytes, hbytes]
    grind

/-- The loop that finds the new length. -/
theorem maxLen_spec (f : ℕ → UInt8) (n : ℕ) :
    let m := (List.range n).foldl (fun maxLen i => if f i ≠ 0 then i + 1 else maxLen) 0
    m ≤ n ∧ (∀ i, m ≤ i → i < n → f i = 0) ∧ (m ≠ 0 → f (m - 1) ≠ 0) := by
  induction n with
  | zero => exact ⟨le_rfl, fun i _ hi => absurd hi (Nat.not_lt_zero i), fun h => absurd rfl h⟩
  | succ n ih =>
    obtain ⟨hle, hzeros, hlast⟩ := ih
    rw [List.range_succ, List.foldl_append, List.foldl_cons, List.foldl_nil]
    by_cases hn : f n = 0
    · rw [if_neg (not_not.mpr hn)]
      refine ⟨hle.trans (Nat.le_succ n), fun i hi hlt => ?_, hlast⟩
      rcases Nat.lt_succ_iff_lt_or_eq.mp hlt with hlt | rfl
      · exact hzeros i hi hlt
      · exact hn
    · rw [if_pos hn]
      exact ⟨le_rfl, fun i hi hlt => absurd hlt (Nat.not_lt.mpr hi), fun _ => hn⟩

theorem exists_hasCap (h : p.u8 i ≠ 0) : ∃ cap, HasCap p cap := by
  by_contra hnone
  refine h (UInt8.toBitVec_inj.mp (BitVec.eq_of_getLsbD_eq fun k hk => ?_))
  have hbit : ¬HasCap p (8 * i + k) := fun hcap => hnone ⟨_, hcap⟩
  have hdiv : (8 * i + k) / 8 = i := by omega
  have hmod : (8 * i + k) % 8 = k := by omega
  rw [HasCap, hdiv, hmod, Bool.not_eq_true] at hbit
  rw [hbit]
  exact (BitVec.getLsbD_zero ..).symm

theorem hasCap_byte (h : HasCap p cap) : p.u8 (cap / 8) ≠ 0 := by
  intro hzero
  rw [HasCap, hzero] at h
  exact Bool.false_ne_true ((BitVec.getLsbD_zero ..).symm.trans h)

/-! ## The array -/

/-- What every operation keeps. -/
structure CapInv (caps : Set ℕ) (s : ExtCap) : Prop extends Kept caps s where
  size : s.data.length = wlanEidExtCapMaxLen
  len : s.len ≤ wlanEidExtCapMaxLen
  used : s.len ≠ 0 → caps.Nonempty

theorem CapInv.init : CapInv ∅ {} where
  writes := by simp
  bits := by
    refine Set.eq_empty_of_forall_notMem fun cap hcap => hasCap_byte hcap ?_
    simp only [Bytes.u8, List.getD_eq_getElem?_getD, List.getElem?_replicate]
    split_ifs <;> rfl
  zeros i _ := by
    simp only [Bytes.u8, List.getD_eq_getElem?_getD, List.getElem?_replicate]
    split_ifs <;> rfl
  size := rfl
  len := Nat.zero_le _
  used h := absurd rfl h

theorem CapInv.add (h : CapInv caps s) (hcap : cap < 8 * wlanEidExtCapMaxLen) :
    CapInv (insert cap caps) (rtwAddExtCapInfo s cap) := by
  have hbyte : cap / 8 < wlanEidExtCapMaxLen := by omega
  have hlt : cap / 8 < s.data.length := hbyte.trans_eq h.size.symm
  have hle : s.len ≤ (rtwAddExtCapInfo s cap).len ∧ cap / 8 < (rtwAddExtCapInfo s cap).len ∧
      (rtwAddExtCapInfo s cap).len ≤ wlanEidExtCapMaxLen := by
    have hlen := h.len
    unfold rtwAddExtCapInfo
    grind
  refine { writes := ?_, bits := ?_, zeros := ?_, size := ?_, len := hle.2.2, used := ?_ }
  · intro a ha
    rcases List.mem_append.mp ha with ha | ha
    · exact h.writes a ha
    · rwa [List.mem_singleton.mp ha]
  · ext k
    refine (hasCap_add hlt k).trans ?_
    rw [Set.mem_insert_iff, ← h.bits]
    rfl
  · intro i hi
    refine (u8_overwrite_one hlt).trans ?_
    rw [if_neg (by omega)]
    exact h.zeros i (hle.1.trans hi)
  · exact (length_overwrite_one hlt).trans h.size
  · exact fun _ => ⟨cap, Set.mem_insert cap caps⟩

theorem CapInv.remove (h : CapInv caps s) (hcap : cap < 8 * wlanEidExtCapMaxLen) :
    CapInv (caps \ {cap}) (rtwRemoveExtCapInfo s cap) := by
  have hbyte : cap / 8 < wlanEidExtCapMaxLen := by omega
  have hlt : cap / 8 < s.data.length := hbyte.trans_eq h.size.symm
  have hsize : (rtwRemoveExtCapInfo s cap).data.length = wlanEidExtCapMaxLen :=
    (length_overwrite_one hlt).trans h.size
  have hcaps : {k | HasCap (rtwRemoveExtCapInfo s cap).data k} = caps \ {cap} := by
    ext k
    refine (hasCap_remove hlt k).trans ?_
    rw [Set.mem_sdiff, ← h.bits]
    rfl
  obtain ⟨hle, hzeros, hlast⟩ :=
    maxLen_spec (rtwRemoveExtCapInfo s cap).data.u8 wlanEidExtCapMaxLen
  refine { writes := ?_, bits := hcaps, zeros := ?_, size := hsize, len := hle, used := ?_ }
  · intro a ha
    rcases List.mem_append.mp ha with ha | ha
    · exact h.writes a ha
    · rwa [List.mem_singleton.mp ha]
  · intro i hi
    by_cases hin : i < wlanEidExtCapMaxLen
    · exact hzeros i hi hin
    · exact u8_of_length_le (hsize.trans_le (Nat.not_lt.mp hin))
  · intro hne
    obtain ⟨k, hk⟩ := exists_hasCap (hlast hne)
    exact ⟨k, hcaps.subset hk⟩

theorem CapInv.unused (h : CapInv caps s) (hlen : s.len = 0) : caps = ∅ := by
  rw [← h.bits]
  refine Set.eq_empty_of_forall_notMem fun cap hcap => hasCap_byte hcap ?_
  exact h.zeros _ (hlen.trans_le (Nat.zero_le _))

/-- An element is copied into an unused array. -/
theorem CapInv.copy (h : CapInv caps s) (hlen : s.len = 0) (hle : p.length ≤ wlanEidExtCapMaxLen)
    (hplace : p = [] ∨ ∃ i, p.u8 i ≠ 0) :
    CapInv (caps ∪ {cap | HasCap p cap})
      { data := s.data.overwrite 0 p
        len := p.length
        writes := s.writes ++ List.range p.length } := by
  have hbytes (j : ℕ) : (s.data.overwrite 0 p).u8 j = p.u8 j := by
    rw [u8_overwrite_zero]
    split_ifs with hj
    · rfl
    · rw [h.zeros j (hlen.trans_le (Nat.zero_le j)), u8_of_length_le (Nat.not_lt.mp hj)]
  have hbits : {cap | HasCap (s.data.overwrite 0 p) cap} = {cap | HasCap p cap} := by
    ext k
    exact iff_of_eq (congrArg (fun x : UInt8 => x.toBitVec.getLsbD (k % 8) = true) (hbytes _))
  refine { writes := ?_, bits := ?_, zeros := ?_, size := ?_, len := hle, used := ?_ }
  · intro a ha
    rcases List.mem_append.mp ha with ha | ha
    · exact h.writes a ha
    · exact (List.mem_range.mp ha).trans_le hle
  · rw [h.unused hlen, Set.empty_union]
    exact hbits
  · intro i hi
    exact (hbytes i).trans (u8_of_length_le hi)
  · have hsize := h.size
    simp only [Bytes.overwrite, List.length_append, List.length_take, List.length_drop]
    omega
  · intro hne
    rcases hplace with rfl | ⟨i, hi⟩
    · exact absurd rfl hne
    · obtain ⟨cap, hcap⟩ := exists_hasCap hi
      exact ⟨cap, .inr hcap⟩

/-- An element is merged into an array in use. -/
theorem CapInv.merge (h : CapInv caps s) (hle : p.length ≤ wlanEidExtCapMaxLen)
    (hplace : ∀ i, s.len ≤ i → p.u8 i = 0) {f : ℕ → UInt8} (hf : ∀ i < p.length, f i = p.u8 i) :
    CapInv (caps ∪ {cap | HasCap p cap})
      { s with
        data := (List.range p.length).foldl
          (fun data i => data.overwrite i [data.u8 i ||| f i]) s.data
        writes := s.writes ++ List.range p.length } := by
  obtain ⟨hsize, hmerged⟩ := u8_mergeLoop f (hle.trans_eq h.size.symm)
  have hbytes (j : ℕ) : ((List.range p.length).foldl
      (fun data i => data.overwrite i [data.u8 i ||| f i]) s.data).u8 j =
        s.data.u8 j ||| p.u8 j := by
    rw [hmerged]
    split_ifs with hj
    · rw [hf j hj]
    · rw [u8_of_length_le (Nat.not_lt.mp hj), UInt8.or_zero]
  refine
    { writes := ?_, bits := ?_, zeros := ?_, size := hsize.trans h.size, len := h.len, used := ?_ }
  · intro a ha
    rcases List.mem_append.mp ha with ha | ha
    · exact h.writes a ha
    · exact (List.mem_range.mp ha).trans_le hle
  · ext k
    rw [← h.bits, Set.mem_ofPred_eq, HasCap, hbytes, UInt8.toBitVec_or, BitVec.getLsbD_or,
      Bool.or_eq_true]
    rfl
  · intro i hi
    rw [hbytes, h.zeros i hi, hplace i hi, UInt8.or_zero]
  · intro hne
    exact (h.used hne).mono Set.subset_union_left

theorem CapInv.parse (h : CapInv caps s) (hfits : (CapOp.parse pre L rest).Fits s) :
    CapInv ((CapOp.parse pre L rest).unite caps)
      (rtwParseExtCapIe s (elemBuffer pre L rest) pre.length) := by
  have hdrop : (elemBuffer pre L rest).ies.drop pre.length = encode L ++ rest := List.drop_left
  have hsearch : (elemBuffer pre L rest).iesLen - pre.length = (encode L).length :=
    Nat.add_sub_cancel_left ..
  rcases first_or_none (fun x => x.id = wlanEidExtCap) L with hnone | ⟨A, e, B, rfl, hA, he⟩
  · have hfind : extCapElem L = none :=
      find_none hnone
    have hunite : (CapOp.parse pre L rest).unite caps = caps := by
      simp [CapOp.unite, hfind]
    have hfound := getIe_none hnone rest
    rw [← hdrop, ← hsearch] at hfound
    rw [hunite, rtwParseExtCapIe]
    dsimp only
    rw [hfound]
    exact h
  · have hfind : extCapElem (A ++ e :: B) = some e :=
      find_first hA he
    obtain ⟨hle, hplace⟩ := hfits e hfind
    have hunite : (CapOp.parse pre (A ++ e :: B) rest).unite caps =
        caps ∪ {cap | HasCap e.body cap} := by
      simp [CapOp.unite, hfind]
    obtain ⟨hfound, holen⟩ := getIe_some hA he rest (B := B)
    rw [← hdrop, ← hsearch] at hfound holen
    have hsplit : (elemBuffer pre (A ++ e :: B) rest).ies =
        (pre ++ encode A) ++ (e.bytes ++ (encode B ++ rest)) := by
      change pre ++ (encode (A ++ e :: B) ++ rest) = _
      rw [encode_append, encode_cons]
      simp only [List.append_assoc]
    have hread : (elemBuffer pre (A ++ e :: B) rest).ies.read
        (pre.length + (encode A).length + 2) e.body.length = e.body := by
      rw [hsplit, ← List.length_append, read_body _ e _ le_rfl, List.take_length]
    rw [hunite, rtwParseExtCapIe]
    dsimp only
    rw [hfound]
    dsimp only
    rw [holen]
    by_cases hlen : s.len = 0
    · rw [if_pos hlen, hread]
      rw [if_pos hlen] at hplace
      exact h.copy hlen hle hplace
    · rw [if_neg hlen]
      rw [if_neg hlen] at hplace
      refine h.merge hle hplace fun i hi => ?_
      have hbyte := congrArg (fun p : Bytes => p.u8 i) hread
      simpa [Bytes.read, Bytes.u8, hi] using hbyte

theorem CapInv.apply {op : CapOp} (h : CapInv caps s) (hfits : op.Fits s)
    (happly : op.apply s = some s') : CapInv (op.unite caps) s' := by
  cases op with
  | add cap =>
    obtain rfl := Option.some.inj happly
    exact h.add cap.isLt
  | remove cap =>
    obtain rfl := Option.some.inj happly
    exact h.remove cap.isLt
  | parse pre L rest =>
    obtain rfl := Option.some.inj happly
    exact h.parse hfits

/-- **The array along a run.** -/
theorem CapInv.run {ops : List CapOp} (h : CapInv caps s)
    (hfits : Transition.Meets CapOp.apply CapOp.Fits s ops)
    (hrun : Transition.run CapOp.apply s ops = some s') :
    CapInv (ops.foldl CapOp.unite caps) s' := by
  induction ops generalizing s caps with
  | nil =>
    obtain rfl := Option.some.inj hrun
    exact h
  | cons op ops ih =>
    obtain ⟨t, ht, hrun⟩ := Transition.run_cons.mp hrun
    exact ih (h.apply hfits.1 ht) (hfits.2 t ht) hrun

theorem CapInv.hasCap_read (h : CapInv caps s) (hcap : cap ∈ caps) :
    HasCap (s.data.read 0 s.len) cap := by
  have hbit : HasCap s.data cap := h.bits.symm.subset hcap
  have hlt : cap / 8 < s.len := by
    by_contra hge
    exact hasCap_byte hbit (h.zeros _ (Nat.not_lt.mp hge))
  have hbyte : (s.data.read 0 s.len).u8 (cap / 8) = s.data.u8 (cap / 8) := by
    simp [Bytes.read, Bytes.u8, hlt]
  rwa [HasCap, hbyte]

theorem holds_setIe (h : Holds pre L w) (eid : UInt8) {content : Bytes}
    (hshort : content.length < 256) :
    Holds pre (L ++ [⟨eid, content, hshort⟩])
      { w with
        ies := w.ies.overwrite w.iesLen (rtwSetIe eid content)
        iesLen := w.iesLen + (content.length + 2) } := by
  obtain ⟨⟨rest, hies⟩, hlen⟩ := h
  have hbehind : w.iesLen = (pre ++ encode L).length := by rw [hlen, List.length_append]
  have hnew : encode (L ++ [⟨eid, content, hshort⟩]) = encode L ++ rtwSetIe eid content := by
    rw [encode_append, encode_cons, encode_nil, List.append_nil]
    rfl
  refine ⟨⟨rest.drop (rtwSetIe eid content).length, ?_⟩, ?_⟩
  · change w.ies.overwrite w.iesLen _ = _
    rw [hies, ← List.append_assoc, overwrite_append_of_eq hbehind, hnew]
    simp only [List.append_assoc]
  · change w.iesLen + _ = _
    rw [hlen, hnew, List.length_append, Nat.add_assoc]
    rfl

/-- **The element after an update.** -/
theorem CapInv.update (h : CapInv caps s) {malloc : Bool} (hholds : Holds pre L w)
    (hfits : UpdateFits s L malloc) :
    ∃ w', rtwUpdateExtCapIe s w pre.length malloc = some w' ∧ Carried caps pre w' := by
  by_cases hlen : s.len = 0
  · have hcaps := h.unused hlen
    have hfits : OuiFits (ieExSearch wlanEidExtCap [] false true) L := fun x _ _ => Nat.zero_le _
    obtain ⟨w', hremove, hkept, -⟩ := holds_remove hholds hfits
    refine ⟨w', ?_, _, hkept, ?_, fun _ x hx hid => ?_⟩
    · rw [rtwUpdateExtCapIe, if_neg (not_not.mpr hlen), hremove]
    · intro hne
      exact absurd hcaps hne.ne_empty
    · have hmiss := (List.mem_filter.mp hx).2
      exact of_decide_eq_true hmiss ⟨hid, List.nil_prefix⟩
  · have hcaps := h.used hlen
    have hread : (s.data.read 0 s.len).length = s.len := by simp [Bytes.read]
    have hshort : (s.data.read 0 s.len).length < 256 := by
      rw [hread]
      exact h.len.trans_lt (by decide)
    obtain ⟨⟨rest, hies⟩, hiesLen⟩ := id hholds
    have hdrop : w.ies.drop pre.length = encode L ++ rest := by
      rw [hies, List.drop_left]
    have hsearch : w.iesLen - pre.length = (encode L).length := by
      rw [hiesLen, Nat.add_sub_cancel_left]
    rcases first_or_none (fun x => x.id = wlanEidExtCap) L with hnone | ⟨A, e, B, rfl, hA, he⟩
    · have hfound := getIe_none hnone rest
      rw [← hdrop, ← hsearch] at hfound
      have hset := holds_setIe hholds wlanEidExtCap hshort
      rw [hread] at hset
      refine ⟨_, ?_, _, hset, ?_, ?_⟩
      · rw [rtwUpdateExtCapIe, if_pos hlen]
        dsimp only
        rw [hfound]
      · exact fun _ => ⟨_, List.mem_append_right _ List.mem_cons_self, rfl,
          fun cap hcap => h.hasCap_read hcap⟩
      · exact fun hempty => absurd hempty hcaps.ne_empty
    · have hfind : extCapElem (A ++ e :: B) = some e :=
        find_first hA he
      obtain ⟨hbody, hmem⟩ := hfits hlen e hfind
      rw [← hread] at hmem
      obtain ⟨hupdated, -⟩ := holds_update hholds hA he hbody hshort hmem
      obtain ⟨hfound, -⟩ := getIe_some hA he rest (B := B)
      rw [← hdrop, ← hsearch] at hfound
      refine ⟨_, ?_, _, hupdated, ?_, ?_⟩
      · rw [rtwUpdateExtCapIe, if_pos hlen]
        dsimp only
        rw [hfound]
      · exact fun _ => ⟨_, List.mem_append_right _ List.mem_cons_self, he,
          fun cap hcap => h.hasCap_read hcap⟩
      · exact fun hempty => absurd hempty hcaps.ne_empty

/-- **The array and the element**: where every element that is taken over has its place in the
array, it holds what was added and not removed, and the element carries it. -/
theorem extCap_of_run {ops : List CapOp} {s : ExtCap}
    (hfits : Transition.Meets CapOp.apply CapOp.Fits {} ops)
    (hrun : Transition.run CapOp.apply {} ops = some s) :
    Kept (ops.foldl CapOp.unite ∅) s ∧
      ∀ (w : IesState) (pre : Bytes) (L : List Elem) (malloc : Bool), Holds pre L w →
        UpdateFits s L malloc →
        ∃ w', rtwUpdateExtCapIe s w pre.length malloc = some w' ∧
          Carried (ops.foldl CapOp.unite ∅) pre w' := by
  have hinv := CapInv.init.run hfits hrun
  exact ⟨hinv.toKept, fun w pre L malloc hholds hupdate => hinv.update hholds hupdate⟩

def takeOver : List CapOp :=
  [.parse [7] [⟨wlanEidExtCap, [1, 0, 4], by decide⟩] [], .remove ⟨0, by decide⟩,
    .add ⟨37, by decide⟩]

theorem takeOver_fits : Transition.Meets CapOp.apply CapOp.Fits {} takeOver := by
  refine ⟨fun e he => ?_, fun _ _ => ⟨trivial, fun _ _ => ⟨trivial, fun _ _ => trivial⟩⟩⟩
  obtain rfl : _ = e := Option.some.inj he
  exact ⟨by decide, .inr ⟨0, by decide⟩⟩

/-- A shorter element grows. -/
theorem extCap_of_run_takeOver :
    ∃ s, Transition.run CapOp.apply {} takeOver = some s ∧
      Kept (takeOver.foldl CapOp.unite ∅) s ∧
        ∃ w', rtwUpdateExtCapIe s { ies := [1, 1, 9, 127, 1, 1], iesLen := 6 } 0 true = some w' ∧
          Carried (takeOver.foldl CapOp.unite ∅) [] w' := by
  have hrun : (Transition.run CapOp.apply {} takeOver).isSome := by decide
  obtain ⟨s, hs⟩ := Option.isSome_iff_exists.mp hrun
  obtain ⟨hkept, hupdate⟩ := extCap_of_run takeOver_fits hs
  have hholds : Holds [] [⟨1, [9], by decide⟩, ⟨wlanEidExtCap, [1], by decide⟩]
      { ies := [1, 1, 9, 127, 1, 1], iesLen := 6 } := ⟨⟨[], rfl⟩, rfl⟩
  refine ⟨s, hs, hkept, hupdate _ _ _ true hholds fun _ e he => ?_⟩
  obtain rfl : _ = e := Option.some.inj he
  exact ⟨List.cons_ne_nil 1 [], .inl rfl⟩

/-- **An element that is longer than the capabilities in use** leaves a bit behind the length. -/
theorem not_extCap :
    ¬∀ (ops : List CapOp) (s : ExtCap), Transition.run CapOp.apply {} ops = some s →
      Kept (ops.foldl CapOp.unite ∅) s ∧
        ∀ (w : IesState) (pre : Bytes) (L : List Elem) (malloc : Bool), Holds pre L w →
          ∃ w', rtwUpdateExtCapIe s w pre.length malloc = some w' ∧
            Carried (ops.foldl CapOp.unite ∅) pre w' := by
  intro h
  obtain ⟨hkept, -⟩ := h
    [.add ⟨0, by decide⟩, .parse [] [⟨wlanEidExtCap, [0, 0, 1], by decide⟩] []] _ rfl
  exact absurd (hkept.zeros 2 (by decide)) (by decide)

end Rtl88x2eu.Ie
