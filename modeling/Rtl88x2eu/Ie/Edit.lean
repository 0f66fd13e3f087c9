import Rtl88x2eu.Ie.Elements

/-!
# Elements removed and replaced in place

`rtw_ies_remove_ie` and `rtw_ies_update_ie`. Both find an element and move what is behind it; the
bytes behind the end of the new list are left over.

## Main definitions

* `rtwIesRemoveIe`, `rtwIesUpdateIe`
* `Holds`

## Main results

* `removeLoop_spec`: the loop of the removal
* `ies_edited`: both edits do what they are for
-/

namespace Rtl88x2eu.Ie

open Walk

/-- A buffer of elements, with `*ies_len`, and what the function returns. -/
structure IesState where
  ies : Bytes
  iesLen : ℕ
  ret : Bool := false

structure RemoveState extends IesState where
  start : ℕ
  searchLen : ℕ

def uintSub (a b : ℕ) : ℕ := if b ≤ a then a - b else a + 2 ^ 32 - b

theorem uintSub_of_le {a b : ℕ} (h : b ≤ a) : uintSub a b = a - b := if_pos h

def removeBody (eid : UInt8) (oui : Bytes) (w : RemoveState) : RemoveState ⊕ RemoveState :=
  let o := rtwGetIeEx (w.ies.drop w.start) w.searchLen eid oui false true
  match o.found.join with
  | none => .inr w
  | some targetIe =>
    if o.len = 0 then .inr w
    else
      let remainIes := targetIe + o.len
      let remainLen := uintSub w.searchLen remainIes
      .inl
        { ies := w.ies.overwrite (w.start + targetIe) (w.ies.read (w.start + remainIes) remainLen)
          iesLen := uintSub w.iesLen o.len
          ret := true
          start := w.start + targetIe
          searchLen := remainLen }

/-- `rtw_ies_remove_ie`; `none` if the loop does not end. -/
def rtwIesRemoveIe (w : IesState) (offset : ℕ) (eid : UInt8) (oui : Bytes) : Option IesState :=
  if w.iesLen ≤ offset then some { w with ret := false }
  else
    (Loop.iterate (removeBody eid oui) (w.iesLen + 1)
      { w with ret := false, start := offset, searchLen := w.iesLen - offset }).map
      RemoveState.toIesState

def rtwIesUpdateIe (w : IesState) (offset : ℕ) (eid : UInt8) (content : Bytes) (malloc : Bool) :
    IesState :=
  if w.iesLen = 0 ∨ w.iesLen ≤ offset then { w with ret := false }
  else
    let searchLen := w.iesLen - offset
    let o := rtwGetIe (w.ies.drop offset) eid searchLen
    match o.found.join with
    | none => { w with ret := false }
    | some targetIe =>
      if o.len = 0 then { w with ret := false }
      else if o.len ≠ content.length ∧ !malloc then { w with ret := false }
      else
        let target := offset + targetIe
        -- `rtw_get_ie` found it within `searchLen`
        let remainLen := searchLen - (targetIe + 2 + o.len)
        let backup := w.ies.read (target + 2 + o.len) remainLen
        let ies := (w.ies.overwrite (target + 2) content).overwrite (target + 1)
          [UInt8.ofNat content.length]
        if o.len ≠ content.length then
          { ies := ies.overwrite (target + 2 + content.length) backup
            iesLen := w.iesLen + content.length - o.len
            ret := true }
        else { ies, iesLen := w.iesLen, ret := true }

/-! ## The buffer -/

/-- **The buffer holds the list** behind the bytes before the offset. -/
structure Holds (pre : Bytes) (L : List Elem) (w : IesState) : Prop where
  ies : ∃ rest, w.ies = pre ++ (encode L ++ rest)
  iesLen : w.iesLen = pre.length + (encode L).length

variable {pre rest oui : Bytes} {L A B : List Elem} {e : Elem} {eid : UInt8} {w : IesState}

theorem overwrite_append (p b r : Bytes) :
    (p ++ r).overwrite p.length b = p ++ (b ++ r.drop b.length) := by
  rw [Bytes.overwrite, List.take_left, List.drop_append, List.append_assoc]
  simp

theorem overwrite_append_of_eq {p b r : Bytes} {i : ℕ} (hi : i = p.length) :
    (p ++ r).overwrite i b = p ++ (b ++ r.drop b.length) := by
  rw [hi, overwrite_append]

theorem read_append_of_eq {p b r : Bytes} {i n : ℕ} (hi : i = p.length) (hn : n = b.length) :
    (p ++ (b ++ r)).read i n = b := by
  rw [hi, hn, read_append]

theorem plain_ieEx (eid : UInt8) (oui : Bytes) (ie ielen : Bool) :
    Plain (ieExSearch eid oui ie ielen) := ⟨rfl, rfl⟩

theorem plain_ie (eid : UInt8) : Plain (ieSearch eid) := ⟨rfl, rfl⟩

theorem length_le_encode (L : List Elem) : L.length ≤ (encode L).length := by
  induction L with
  | nil => exact le_rfl
  | cons e L ih =>
    rw [encode_cons, List.length_append, Elem.length_bytes, List.length_cons]
    omega

theorem first_or_none (p : Elem → Prop) [DecidablePred p] (L : List Elem) :
    (∀ x ∈ L, ¬p x) ∨ ∃ A e B, L = A ++ e :: B ∧ (∀ x ∈ A, ¬p x) ∧ p e := by
  cases hfind : L.find? (fun x => decide (p x)) with
  | none =>
    refine .inl fun x hx => ?_
    simpa using List.find?_eq_none.mp hfind x hx
  | some e =>
    obtain ⟨hp, A, B, rfl, hA⟩ := List.find?_eq_some_iff_append.mp hfind
    exact .inr ⟨A, e, B, rfl, fun x hx => by simpa using hA x hx, of_decide_eq_true hp⟩

theorem find_first {p : Elem → Prop} [DecidablePred p] (hA : ∀ x ∈ A, ¬p x) (he : p e) :
    (A ++ e :: B).find? (fun x => decide (p x)) = some e :=
  List.find?_eq_some_iff_append.mpr
    ⟨decide_eq_true he, A, B, rfl, fun x hx => by simpa using hA x hx⟩

theorem find_none {p : Elem → Prop} [DecidablePred p] (hL : ∀ x ∈ L, ¬p x) :
    L.find? (fun x => decide (p x)) = none :=
  List.find?_eq_none.mpr fun x hx => by simpa using hL x hx

theorem getIeEx_none (hfits : OuiFits (ieExSearch eid oui false true) L)
    (hL : ∀ x ∈ L, ¬x.Hits eid oui) (rest : Bytes) :
    (rtwGetIeEx (encode L ++ rest) (encode L).length eid oui false true).found.join = none := by
  unfold rtwGetIeEx
  split_ifs
  · rfl
  · have hrun := run_encode_none (plain_ieEx eid oui false true) hfits rest hL
    exact congrArg Option.join hrun

theorem getIeEx_some (hfits : OuiFits (ieExSearch eid oui false true) (A ++ e :: B))
    (hA : ∀ x ∈ A, ¬x.Hits eid oui) (he : e.Hits eid oui) (rest : Bytes) :
    let o := rtwGetIeEx (encode (A ++ e :: B) ++ rest)
        (encode (A ++ e :: B)).length eid oui false true
    o.found.join = some (encode A).length ∧ o.len = e.body.length + 2 := by
  have hrun := run_encode_some (plain_ieEx eid oui false true) hfits rest hA he
  have hjoin := congrArg Option.join hrun
  have hpos : ¬(encode (A ++ e :: B)).length ≤ 0 := by
    simp only [encode_append, encode_cons, List.length_append, Elem.length_bytes]
    omega
  unfold rtwGetIeEx
  rw [if_neg hpos]
  refine ⟨hjoin, ?_⟩
  change ((IeSearch.run _ _ _).join.elim 0 fun q => bodyLen _ q + 2) = _
  rw [hjoin, encode_append, encode_cons, List.append_assoc, List.append_assoc]
  exact congrArg (· + 2) (bodyLen_bytes (encode A) e (encode B ++ rest))

/-- The elements that stay. -/
def kept (eid : UInt8) (oui : Bytes) (L : List Elem) : List Elem :=
  L.filter fun e => ¬e.Hits eid oui

theorem kept_of_none (hL : ∀ x ∈ L, ¬x.Hits eid oui) : kept eid oui L = L :=
  List.filter_eq_self.mpr fun x hx => decide_eq_true (hL x hx)

theorem kept_append_cons (hA : ∀ x ∈ A, ¬x.Hits eid oui) (he : e.Hits eid oui) :
    kept eid oui (A ++ e :: B) = A ++ kept eid oui B := by
  unfold kept
  rw [List.filter_append, List.filter_cons_of_neg (by simpa using he)]
  exact congrArg (· ++ _) (kept_of_none hA)

/-- **The loop of the removal**: what is behind the start loses the elements that match. -/
theorem removeLoop_spec (n : ℕ) : ∀ (L : List Elem) (pre rest : Bytes) (w : RemoveState),
    w.ies = pre ++ (encode L ++ rest) → w.start = pre.length →
    w.searchLen = (encode L).length → w.iesLen = pre.length + (encode L).length →
    OuiFits (ieExSearch eid oui false true) L → L.length < n →
    ∃ w', Loop.iterate (removeBody eid oui) n w = some w' ∧
      Holds pre (kept eid oui L) w'.toIesState ∧ w'.ies.length = w.ies.length ∧
        (w'.ret = true ↔ w.ret = true ∨ ∃ x ∈ L, x.Hits eid oui) := by
  induction n with
  | zero => exact fun L _ _ _ _ _ _ _ _ hn => absurd hn (Nat.not_lt_zero _)
  | succ n ih =>
    intro L pre rest w hies hstart hsearch hlen hfits hn
    have hdrop : w.ies.drop w.start = encode L ++ rest := by
      rw [hies, hstart, List.drop_left]
    rcases first_or_none (Elem.Hits eid oui) L with hnone | ⟨A, e, B, rfl, hA, he⟩
    · have hbody : removeBody eid oui w = .inr w := by
        unfold removeBody
        dsimp only
        rw [hdrop, hsearch, getIeEx_none hfits hnone rest]
      refine ⟨w, Loop.iterate_succ_of_inr hbody, ⟨⟨rest, ?_⟩, ?_⟩, rfl, ?_⟩
      · rw [hies, kept_of_none hnone]
      · rw [hlen, kept_of_none hnone]
      · exact (or_iff_left fun ⟨x, hx, hhits⟩ => hnone x hx hhits).symm
    · obtain ⟨hfound, holen⟩ := getIeEx_some hfits hA he rest
      rw [← hdrop, ← hsearch] at hfound holen
      -- what is behind the element moves to where it was
      have hsplit : w.ies = (pre ++ encode A) ++ (e.bytes ++ (encode B ++ rest)) := by
        rw [hies, encode_append, encode_cons]
        simp only [List.append_assoc]
      have hsizes : w.searchLen = (encode A).length + (e.body.length + 2) + (encode B).length := by
        rw [hsearch, encode_append, encode_cons]
        simp only [List.length_append, Elem.length_bytes]
        omega
      set w₁ : RemoveState :=
        { ies := (pre ++ encode A) ++
        (encode B ++ (e.bytes ++ (encode B ++ rest)).drop (encode B).length)
          iesLen := w.iesLen - (e.body.length + 2)
          ret := true
          start := w.start + (encode A).length
          searchLen := (encode B).length } with hw₁
      have hbody : removeBody eid oui w = .inl w₁ := by
        unfold removeBody
        dsimp only
        rw [hfound]
        dsimp only
        rw [holen, if_neg (Nat.succ_ne_zero _)]
        have hrest : uintSub w.searchLen ((encode A).length + (e.body.length + 2)) =
            (encode B).length := by
          rw [uintSub_of_le (by omega)]
          omega
        have hlen' : uintSub w.iesLen (e.body.length + 2) = w.iesLen - (e.body.length + 2) :=
          uintSub_of_le (by omega)
        have hread : w.ies.read (w.start + ((encode A).length + (e.body.length + 2)))
            (encode B).length = encode B := by
          rw [hsplit, ← List.append_assoc]
          refine read_append_of_eq ?_ rfl
          rw [hstart]
          simp only [List.length_append, Elem.length_bytes]
          omega
        rw [hrest, hlen', hread, hsplit,
          overwrite_append_of_eq (by rw [hstart, List.length_append])]
      have hstart₁ : w₁.start = (pre ++ encode A).length := by
        rw [hw₁, List.length_append, hstart]
      have hlen₁ : w₁.iesLen = (pre ++ encode A).length + (encode B).length := by
        change w.iesLen - (e.body.length + 2) = _
        rw [hlen, ← hsearch, hsizes, List.length_append]
        omega
      have hfits₁ : OuiFits (ieExSearch eid oui false true) B := fun x hx =>
        hfits x (List.mem_append_right _ (List.mem_cons_of_mem _ hx))
      have hn₁ : B.length < n := by
        rw [List.length_append, List.length_cons] at hn
        omega
      obtain ⟨w', hrun, ⟨⟨rest', hies'⟩, hlen'⟩, hsize, hret⟩ :=
        ih B (pre ++ encode A) _ w₁ rfl hstart₁ rfl hlen₁ hfits₁ hn₁
      refine ⟨w', (Loop.iterate_succ_of_inl hbody).trans hrun, ⟨⟨rest', ?_⟩, ?_⟩, ?_, ?_⟩
      · rw [hies', kept_append_cons hA he, encode_append]
        simp only [List.append_assoc]
      · rw [hlen', kept_append_cons hA he, encode_append]
        simp only [List.length_append]
        omega
      · rw [hsize, hsplit, hw₁]
        simp only [List.length_append, List.length_drop, Elem.length_bytes]
        omega
      · refine iff_of_true (hret.mpr (.inl rfl)) (.inr ⟨e, by simp, he⟩)

theorem holds_remove (h : Holds pre L w) (hfits : OuiFits (ieExSearch eid oui false true) L) :
    ∃ w', rtwIesRemoveIe w pre.length eid oui = some w' ∧ Holds pre (kept eid oui L) w' ∧
      w'.ies.length = w.ies.length ∧ (w'.ret = true ↔ ∃ x ∈ L, x.Hits eid oui) := by
  obtain ⟨⟨rest, hies⟩, hlen⟩ := h
  unfold rtwIesRemoveIe
  have hcount := length_le_encode L
  by_cases hempty : w.iesLen ≤ pre.length
  · obtain rfl : L = [] := List.eq_nil_of_length_eq_zero (by omega)
    rw [if_pos hempty]
    refine ⟨_, rfl, ⟨⟨rest, hies⟩, hlen⟩, rfl, ?_⟩
    simp
  · rw [if_neg hempty]
    obtain ⟨w', hrun, hholds, hsize, hret⟩ := removeLoop_spec (w.iesLen + 1) L pre rest
      { w with ret := false, start := pre.length, searchLen := w.iesLen - pre.length } hies rfl
      (by rw [hlen, Nat.add_sub_cancel_left]) hlen hfits (by omega)
    refine ⟨w'.toIesState, congrArg (Option.map _) hrun, hholds, hsize, hret.trans ?_⟩
    exact or_iff_right Bool.false_ne_true

/-! ## What is replaced -/

def Elem.withBody (e : Elem) (content : Bytes) (h : content.length < 256) : Elem where
  id := e.id
  body := content
  short := h

theorem getIe_none (hL : ∀ x ∈ L, x.id ≠ eid) (rest : Bytes) :
    (rtwGetIe (encode L ++ rest) eid (encode L).length).found.join = none := by
  unfold rtwGetIe
  split_ifs
  · rfl
  · have hrun := run_encode_none (plain_ie eid) (fun x _ _ => Nat.zero_le _) rest
      fun x hx hhits => hL x hx hhits.1
    exact congrArg Option.join hrun

theorem getIe_some (hA : ∀ x ∈ A, x.id ≠ eid) (he : e.id = eid) (rest : Bytes) :
    let o := rtwGetIe (encode (A ++ e :: B) ++ rest) eid (encode (A ++ e :: B)).length
    o.found.join = some (encode A).length ∧ o.len = e.body.length := by
  have hfits : OuiFits (ieSearch eid) (A ++ e :: B) := fun x _ _ => Nat.zero_le _
  have hrun := run_encode_some (plain_ie eid) hfits rest (fun x hx hhits => hA x hx hhits.1)
    ⟨he, List.nil_prefix⟩
  have hjoin := congrArg Option.join hrun
  have hpos : ¬(encode (A ++ e :: B)).length < 1 := by
    simp only [encode_append, encode_cons, List.length_append, Elem.length_bytes]
    omega
  unfold rtwGetIe
  rw [if_neg hpos]
  refine ⟨hjoin, ?_⟩
  change ((IeSearch.run _ _ _).join.elim 0 fun q => bodyLen _ q + 0) = _
  rw [hjoin, encode_append, encode_cons, List.append_assoc, List.append_assoc]
  exact bodyLen_bytes (encode A) e (encode B ++ rest)

theorem overwrite_elem (p : Bytes) (e : Elem) {content : Bytes} (h : content.length < 256)
    (r : Bytes) :
    ((p ++ (e.bytes ++ r)).overwrite (p.length + 2) content).overwrite (p.length + 1)
        [UInt8.ofNat content.length] =
      p ++ ((e.withBody content h).bytes ++ (e.body ++ r).drop content.length) := by
  have hhead : p ++ (e.bytes ++ r) =
      (p ++ [e.id, UInt8.ofNat e.body.length]) ++ (e.body ++ r) := by
    rw [List.append_assoc]
    rfl
  have hlen : p.length + 2 = (p ++ [e.id, UInt8.ofNat e.body.length]).length := by
    rw [List.length_append]
    rfl
  rw [hhead, overwrite_append_of_eq hlen]
  have hmid : (p ++ [e.id, UInt8.ofNat e.body.length]) ++
        (content ++ (e.body ++ r).drop content.length) =
      (p ++ [e.id]) ++
      (UInt8.ofNat e.body.length :: (content ++ (e.body ++ r).drop content.length)) := by
    rw [List.append_assoc, List.append_assoc]
    rfl
  rw [hmid, overwrite_append_of_eq (by rw [List.length_append]; rfl), List.append_assoc]
  rfl

theorem holds_update (h : Holds pre (A ++ e :: B) w) (hA : ∀ x ∈ A, x.id ≠ eid) (he : e.id = eid)
    (hbody : e.body ≠ []) {content : Bytes} (hcontent : content.length < 256)
    {malloc : Bool} (hmem : malloc = true ∨ content.length = e.body.length) :
    let w' := rtwIesUpdateIe w pre.length eid content malloc
    Holds pre (A ++ e.withBody content hcontent :: B) w' ∧
      (pre.length + (encode (A ++ e.withBody content hcontent :: B)).length ≤ w.ies.length →
        w'.ies.length = w.ies.length) ∧ w'.ret = true := by
  obtain ⟨⟨rest, hies⟩, hlen⟩ := h
  have hdrop : w.ies.drop pre.length = encode (A ++ e :: B) ++ rest := by
    rw [hies, List.drop_left]
  have hbodyLen : e.body.length ≠ 0 := fun h => hbody (List.eq_nil_of_length_eq_zero h)
  have hsize : (encode (A ++ e :: B)).length =
      (encode A).length + (e.body.length + 2 + (encode B).length) := by
    rw [encode_append, encode_cons, List.length_append, List.length_append, Elem.length_bytes]
  have hsearch : w.iesLen - pre.length = (encode (A ++ e :: B)).length := by
    rw [hlen, Nat.add_sub_cancel_left]
  obtain ⟨hfound, holen⟩ := getIe_some hA he rest (B := B)
  rw [← hdrop, ← hsearch] at hfound holen
  unfold rtwIesUpdateIe
  rw [if_neg (by omega)]
  dsimp only
  rw [hfound]
  dsimp only
  rw [holen, if_neg hbodyLen, if_neg (by grind)]
  -- the buffer in front of the element, and behind it
  have hsplit : w.ies = (pre ++ encode A) ++ (e.bytes ++ (encode B ++ rest)) := by
    rw [hies, encode_append, encode_cons]
    simp only [List.append_assoc]
  have htarget : pre.length + (encode A).length = (pre ++ encode A).length :=
    List.length_append.symm
  have hbackup : w.ies.read (pre.length + (encode A).length + 2 + e.body.length)
      (w.iesLen - pre.length - ((encode A).length + 2 + e.body.length)) = encode B := by
    rw [hsplit, ← List.append_assoc]
    refine read_append_of_eq ?_ ?_
    · rw [List.length_append, ← htarget, Elem.length_bytes]
      omega
    · omega
  rw [hbackup, htarget, hsplit, overwrite_elem _ e hcontent]
  have hnew : pre ++ encode (A ++ e.withBody content hcontent :: B) =
      (pre ++ encode A) ++ ((e.withBody content hcontent).bytes ++ encode B) := by
    rw [encode_append, encode_cons, List.append_assoc]
  have hsizeNew : (encode (A ++ e.withBody content hcontent :: B)).length =
      (encode A).length + (content.length + 2 + (encode B).length) := by
    rw [encode_append, encode_cons, List.length_append, List.length_append, Elem.length_bytes]
    rfl
  have hall : w.ies.length = pre.length + (encode A).length +
      (e.body.length + 2 + ((encode B).length + rest.length)) := by
    rw [hsplit]
    simp only [List.length_append, Elem.length_bytes]
  by_cases hsame : e.body.length = content.length
  · rw [if_neg (not_not.mpr hsame), ← hsame, List.drop_left]
    refine ⟨⟨⟨rest, ?_⟩, by rw [hlen]; omega⟩, fun _ => ?_, rfl⟩
    · rw [← List.append_assoc pre (encode _), hnew]
      simp only [List.append_assoc]
    · simp only [List.length_append, Elem.length_bytes]
      exact congrArg (fun k => _ + (k + 2 + _)) hsame.symm
  · rw [if_pos hsame]
    have hbehind : (pre ++ encode A).length + 2 + content.length =
        ((pre ++ encode A) ++ (e.withBody content hcontent).bytes).length := by
      simp only [List.length_append, Elem.length_bytes]
      exact Nat.add_right_comm _ 2 _
    rw [← List.append_assoc (pre ++ encode A), overwrite_append_of_eq hbehind]
    refine ⟨⟨⟨((e.body ++ (encode B ++ rest)).drop content.length).drop (encode B).length, ?_⟩,
      ?_⟩, fun hroom => ?_, rfl⟩
    · rw [← List.append_assoc pre (encode _), hnew]
      simp only [List.append_assoc]
    · dsimp only
      omega
    · rw [← hsplit] at hroom
      simp only [List.length_append, List.length_drop, Elem.length_bytes]
      change _ + (content.length + 2) + _ = _
      omega

/-- Without memory for what is behind the element, nothing is changed. -/
theorem update_unchanged (h : Holds pre (A ++ e :: B) w) (hA : ∀ x ∈ A, x.id ≠ eid)
    (he : e.id = eid) {content : Bytes} (hlen : content.length ≠ e.body.length) :
    rtwIesUpdateIe w pre.length eid content false = { w with ret := false } := by
  obtain ⟨⟨rest, hies⟩, hiesLen⟩ := h
  have hdrop : w.ies.drop pre.length = encode (A ++ e :: B) ++ rest := by
    rw [hies, List.drop_left]
  have hsearch : w.iesLen - pre.length = (encode (A ++ e :: B)).length := by
    rw [hiesLen, Nat.add_sub_cancel_left]
  obtain ⟨hfound, holen⟩ := getIe_some hA he rest (B := B)
  rw [← hdrop, ← hsearch] at hfound holen
  unfold rtwIesUpdateIe
  split_ifs
  · rfl
  · dsimp only
    rw [hfound]
    dsimp only
    rw [holen]
    have hmem : e.body.length ≠ content.length ∧ (!false) = true := ⟨hlen.symm, rfl⟩
    rw [if_pos hmem, ite_self]

/-- **Lists are edited in place.** The removal leaves the elements that do not match; the update
leaves the list with another body in the first element of the id, or, where the length changes and
there is no memory for what is behind it, as it was. -/
theorem ies_edited (h : Holds pre L w) :
    (∀ oui : Bytes, (∀ e ∈ L, e.id = eid → oui.length ≤ e.body.length) →
      ∃ w', rtwIesRemoveIe w pre.length eid oui = some w' ∧ Holds pre (kept eid oui L) w' ∧
        w'.ies.length = w.ies.length) ∧
    ∀ (A B : List Elem) (e : Elem) (content : Bytes) (hcontent : content.length < 256)
      (malloc : Bool), L = A ++ e :: B → (∀ x ∈ A, x.id ≠ eid) → e.id = eid → e.body ≠ [] →
      pre.length + (encode (A ++ e.withBody content hcontent :: B)).length ≤ w.ies.length →
      if malloc = true ∨ content.length = e.body.length then
        Holds pre (A ++ e.withBody content hcontent :: B)
            (rtwIesUpdateIe w pre.length eid content malloc) ∧
          (rtwIesUpdateIe w pre.length eid content malloc).ies.length = w.ies.length
      else rtwIesUpdateIe w pre.length eid content malloc = { w with ret := false } := by
  refine ⟨fun oui hfits => ?_, ?_⟩
  · obtain ⟨w', hrun, hholds, hsize, -⟩ := holds_remove h hfits
    exact ⟨w', hrun, hholds, hsize⟩
  · rintro A B e content hcontent malloc rfl hA he hbody hroom
    split_ifs with hmem
    · obtain ⟨hholds, hsize, -⟩ := holds_update h hA he hbody hcontent hmem
      exact ⟨hholds, hsize hroom⟩
    · obtain ⟨hmalloc, hlen⟩ := not_or.mp hmem
      rw [Bool.not_eq_true] at hmalloc
      rw [hmalloc]
      exact update_unchanged h hA he hlen

def twoElems : List Elem := [⟨42, [], by decide⟩, ⟨1, [9], by decide⟩]

/-- Both are removed, or one of them grows. -/
theorem ies_edited_two :
    (∃ w', rtwIesRemoveIe { ies := [7, 7, 42, 0, 1, 1, 9, 0], iesLen := 7 } 2 1 [] = some w' ∧
        w'.iesLen = 4) ∧
      (rtwIesUpdateIe { ies := [7, 7, 42, 0, 1, 1, 9, 0], iesLen := 7 } 2 1 [5, 6] true).iesLen =
        8 := by
  have hholds : Holds [7, 7] twoElems { ies := [7, 7, 42, 0, 1, 1, 9, 0], iesLen := 7 } :=
    ⟨⟨[0], rfl⟩, rfl⟩
  have hfits : ∀ e ∈ twoElems, e.id = 1 → ([] : Bytes).length ≤ e.body.length := fun _ _ _ =>
    Nat.zero_le _
  obtain ⟨hremove, hupdate⟩ := ies_edited hholds
  obtain ⟨w', hrun, hkept, -⟩ := hremove [] hfits
  refine ⟨⟨w', hrun, hkept.iesLen⟩, ?_⟩
  have hgrown := hupdate [⟨42, [], by decide⟩] [] ⟨1, [9], by decide⟩ [5, 6] (by decide) true rfl
    (by decide) rfl (by decide) (by decide)
  rw [if_pos (.inl rfl)] at hgrown
  exact hgrown.1.iesLen

/-- No memory: the element keeps its body. -/
theorem not_ies_updated :
    ¬∀ (w : IesState) (pre : Bytes) (A B : List Elem) (e : Elem) (content : Bytes)
      (hcontent : content.length < 256) (malloc : Bool), Holds pre (A ++ e :: B) w →
      (∀ x ∈ A, x.id ≠ e.id) → e.body ≠ [] →
      pre.length + (encode (A ++ e.withBody content hcontent :: B)).length ≤ w.ies.length →
      Holds pre (A ++ e.withBody content hcontent :: B)
        (rtwIesUpdateIe w pre.length e.id content malloc) := by
  intro h
  have hheld := h { ies := [1, 1, 9, 0], iesLen := 3 } [] [] [] ⟨1, [9], by decide⟩ [5, 6]
    (by decide) false ⟨⟨[0], rfl⟩, rfl⟩ (by decide) (by decide) (by decide)
  exact absurd hheld.iesLen (by decide)

end Rtl88x2eu.Ie
