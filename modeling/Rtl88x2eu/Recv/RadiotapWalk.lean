import Mathlib.Tactic.IntervalCases
import Rtl88x2eu.Recv.RadiotapHeader

/-!
# Radiotap headers, read back

The iterator of the injection path goes from bit to bit through a header, with the fields found on
the way; the rules of radiotap read the words first. Where they read a header to its end, the two
come to the same fields, so that a frame that was captured can be injected again.

## Main definitions

* `Begins`, `asked`

## Main results

* `radiotapArgs_asked`: the iterator finds the fields of the rules
* `radiotapArgs_captured`: a captured frame is injected at the rate that it came with
-/

namespace Rtl88x2eu.MonitorRx

open PresenceMap Xmit

/-- A packet that begins with these octets. -/
structure Begins (skb : Skb) (hdr : Bytes) : Prop where
  mem : ∀ i < hdr.length, skb.mem i = hdr.u8 i
  len : hdr.length ≤ skb.len

/-- The `switch` over the fields, on the octets of one. -/
def useField (v : TxArgs) (f : Field) : TxArgs :=
  let octet (i : ℕ) : ℕ := (Bytes.u8 f.data i).toNat
  match f.idx with
  | 2 => { v with fixedRate := octet 0 }
  | 15 => { v with txflags := Bytes.le16 f.data 0 }
  | 19 => v.mcs (octet 0) (octet 1) (octet 2)
  | 21 => v.vht (octet 0) (octet 2) (octet 3) (octet 4) (octet 8)
  | _ => v

/-- What fields ask for. -/
def asked (fss : List (List Field)) : TxArgs := fss.flatten.foldl useField {}

/-- The words of a header in memory, from `o` on, each inside the first `n` octets. -/
def WordsAt (skb : Skb) (n : ℕ) : ℕ → List ℕ → Prop
  | _, [] => False
  | o, [w] => skb.le32 o = w ∧ o + 4 ≤ n ∧ w.testBit 31 = false
  | o, w :: ws => skb.le32 o = w ∧ o + 4 ≤ n ∧ w.testBit 31 = true ∧ WordsAt skb n (o + 4) ws

section Memory

variable {skb : Skb} {hdr : Bytes} {o n align : ℕ} {w : ℕ} {ws : List ℕ} {v : TxArgs}

theorem Begins.octet (h : Begins skb hdr) (hlen : hdr.length < 65536) (ho : o < hdr.length) :
    skb.mem (o % 2 ^ 64) = hdr.u8 o := by
  rw [Nat.mod_eq_of_lt (by omega)]
  exact h.mem o ho

theorem Begins.le16 (h : Begins skb hdr) (hlen : hdr.length < 65536) (ho : o + 1 < hdr.length) :
    skb.le16 o = hdr.le16 o := by
  unfold Skb.le16 Bytes.le16
  rw [h.octet hlen (by omega), h.octet hlen ho]

theorem Begins.wordsAt (h : Begins skb hdr) (hlen : hdr.length < 65536)
    (hws : presentWords (hdr.drop o) = some ws) : WordsAt skb hdr.length o ws := by
  induction ws generalizing o with
  | nil =>
    unfold presentWords at hws
    split at hws
    · dsimp only at hws
      split_ifs at hws
      · simp at hws
      · simp at hws
    · cases hws
  | cons w ws ih =>
    unfold presentWords at hws
    split at hws
    · rename_i b₀ b₁ b₂ b₃ rest heq
      have hfour : o + 4 ≤ hdr.length := by
        have hdrop := congrArg List.length heq
        simp only [List.length_drop, List.length_cons] at hdrop
        omega
      have hrest : hdr.drop (o + 4) = rest := by
        rw [← List.drop_drop, heq]
        rfl
      have hoctet (i : ℕ) : hdr.u8 (o + i) = Bytes.u8 (b₀ :: b₁ :: b₂ :: b₃ :: rest) i := by
        rw [← heq, Bytes.u8_drop]
      have hword : skb.le32 o =
          b₀.toNat + 256 * b₁.toNat + 65536 * b₂.toNat + 16777216 * b₃.toNat := by
        unfold Skb.le32
        rw [h.le16 hlen (by omega), h.le16 hlen (by omega)]
        unfold Bytes.le16
        rw [← Nat.add_zero o, hoctet 0, Nat.add_zero, hoctet 1, hoctet 2, Nat.add_assoc o 2 1,
          hoctet 3]
        simp only [Bytes.u8, List.getD_cons_zero, List.getD_cons_succ]
        omega
      dsimp only at hws
      split_ifs at hws with hext
      · obtain ⟨ws', hws', heq'⟩ := Option.map_eq_some_iff.mp hws
        obtain ⟨rfl, rfl⟩ := List.cons.inj heq'
        have hnext := ih (hrest ▸ hws')
        cases ws' with
        | nil => exact hnext.elim
        | cons w' ws' => exact ⟨hword, hfour, hext, hnext⟩
      · obtain ⟨rfl, rfl⟩ := List.cons.inj (Option.some.inj hws)
        exact ⟨hword, hfour, Bool.eq_false_of_not_eq_true hext⟩
    · cases hws

theorem aligned_eq (it : RtapIterator) (hpos : 0 < align) (hle : align ≤ 8)
    (harg : it.arg < 65536) : it.aligned align = alignUp align it.arg := by
  unfold RtapIterator.aligned alignUp
  split_ifs <;> interval_cases align <;> omega

theorem useArg_other {idx : ℕ} (h₂ : idx ≠ 2) (h₁₅ : idx ≠ 15) (h₁₉ : idx ≠ 19) (h₂₁ : idx ≠ 21) :
    (v.useArg skb idx o).1 = v := by
  unfold TxArgs.useArg
  split
  · exact absurd rfl h₂
  · exact absurd rfl h₁₅
  · exact absurd rfl h₁₉
  · exact absurd rfl h₂₁
  · rfl

theorem useField_other {idx : ℕ} {data : Bytes} (h₂ : idx ≠ 2) (h₁₅ : idx ≠ 15) (h₁₉ : idx ≠ 19)
    (h₂₁ : idx ≠ 21) : useField v ⟨idx, data⟩ = v := by
  unfold useField
  dsimp only
  split
  · exact absurd rfl h₂
  · exact absurd rfl h₁₅
  · exact absurd rfl h₁₉
  · exact absurd rfl h₂₁
  · rfl

theorem Begins.useArg (h : Begins skb hdr) (hlen : hdr.length < 65536) {idx : ℕ}
    (hlayout : radiotapLayout idx = some (align, n)) (hn : o + n ≤ hdr.length) :
    (v.useArg skb idx o).1 = useField v ⟨idx, (hdr.drop o).take n⟩ := by
  have hsizes := (Option.filter_eq_some_iff.mp hlayout).1
  have hoctet (i : ℕ) (hi : i < n) :
      (skb.mem ((o + i) % 2 ^ 64)).toNat = (Bytes.u8 ((hdr.drop o).take n) i).toNat := by
    rw [h.octet hlen (by omega), Bytes.u8, Bytes.u8, List.getD_eq_getElem?_getD,
      List.getD_eq_getElem?_getD, List.getElem?_take_of_lt hi, List.getElem?_drop]
  by_cases h₂ : idx = 2
  · subst h₂
    obtain rfl : n = 1 := (Prod.mk.inj (Option.some.inj hsizes)).2.symm
    unfold TxArgs.useArg useField
    dsimp only
    rw [hoctet 0 (by decide)]
    rfl
  by_cases h₁₅ : idx = 15
  · subst h₁₅
    obtain rfl : n = 2 := (Prod.mk.inj (Option.some.inj hsizes)).2.symm
    have hlow := hoctet 0 (by decide)
    rw [Nat.add_zero] at hlow
    unfold TxArgs.useArg useField Skb.le16
    dsimp only
    rw [hlow, hoctet 1 (by decide)]
    rfl
  by_cases h₁₉ : idx = 19
  · subst h₁₉
    obtain rfl : n = 3 := (Prod.mk.inj (Option.some.inj hsizes)).2.symm
    unfold TxArgs.useArg useField
    dsimp only
    rw [hoctet 0 (by decide), hoctet 1 (by decide), hoctet 2 (by decide)]
    rfl
  by_cases h₂₁ : idx = 21
  · subst h₂₁
    obtain rfl : n = 12 := (Prod.mk.inj (Option.some.inj hsizes)).2.symm
    unfold TxArgs.useArg useField
    dsimp only
    rw [hoctet 0 (by decide), hoctet 2 (by decide), hoctet 3 (by decide), hoctet 4 (by decide),
      hoctet 8 (by decide)]
    rfl
  rw [useArg_other h₂ h₁₅ h₁₉ h₂₁, useField_other h₂ h₁₅ h₁₉ h₂₁]

end Memory

/-! ## Bit by bit -/

section Bits

variable {skb : Skb} {hdr : Bytes} {v : TxArgs} {pos pos' base b w nb ns m : ℕ} {reset : Bool}
  {fs : List Field} {ws : List ℕ} {fss : List (List Field)}

def atBit (hdr : Bytes) (pos base b w nb ns : ℕ) (reset : Bool) : RtapIterator :=
  ⟨pos, base + b, w / 2 ^ b, nb, ns, hdr.length, reset, true⟩

theorem nextEntry_atBit : (atBit hdr pos base b w nb ns reset).nextEntry =
    atBit hdr pos base (b + 1) w nb ns reset := by
  unfold RtapIterator.nextEntry atBit
  rw [pow_succ, Nat.div_div_eq_div_mul, Nat.add_assoc]

@[simp]
theorem atBit_argIndex : (atBit hdr pos base b w nb ns reset).argIndex = base + b := rfl

theorem bit_atBit :
    (atBit hdr pos base b w nb ns reset).bitmapShifter % 2 = 0 ↔ w.testBit b = false := by
  show w / 2 ^ b % 2 = 0 ↔ _
  rw [Nat.testBit_eq_decide_div_mod_eq, decide_eq_false_iff_not]
  omega

theorem rtapPass_clear (hbase : base % 32 = 0) (hb : b < 31) (hbit : w.testBit b = false) :
    rtapPass skb (atBit hdr pos base b w nb ns reset) =
      (.next (atBit hdr pos base (b + 1) w nb ns reset), []) := by
  unfold rtapPass
  dsimp only
  rw [if_pos (bit_atBit.mpr hbit), atBit_argIndex, if_neg (by omega), nextEntry_atBit]

theorem rtapPass_set {it : RtapIterator} {align size : ℕ} (hset : ¬it.bitmapShifter % 2 = 0)
    (hsize : it.alignSize = some (align, size)) (halign : 0 < align)
    (hend : it.aligned align + size ≤ it.maxLength) (hmax : it.maxLength < 65536)
    (hidx : it.argIndex % 32 ≠ 30) :
    rtapPass skb it =
      let past := it.aligned align + size
      if it.argIndex % 32 = 29 then
        (.next { it with arg := past, resetOnExt := true, radiotapNs := true }.nextEntry, [])
      else if it.argIndex % 32 = 31 then
        (.next { it with
          arg := past
          bitmapShifter := skb.le32 it.nextBitmap
          nextBitmap := it.nextBitmap + 4
          argIndex := if it.resetOnExt then 0 else it.argIndex + 1
          resetOnExt := false }, offsets it.nextBitmap 4)
      else (.hit { it with arg := past }.nextEntry it.argIndex (it.aligned align), []) := by
  unfold rtapPass
  dsimp only
  rw [if_neg hset, hsize]
  split
  · contradiction
  · rename_i heq
    obtain ⟨rfl, -⟩ := Prod.mk.inj (Option.some.inj heq)
    cases halign
  · rename_i heq
    obtain ⟨rfl, rfl⟩ := Prod.mk.inj (Option.some.inj heq)
    rw [Nat.mod_eq_of_lt (show it.aligned align + size < 2 ^ 64 by omega),
      if_neg (Nat.not_lt.mpr hend), if_neg hidx]

/-- **A field that the layout has** is found where the rules have it. -/
theorem rtapPass_field {align size : ℕ} (hbase : base % 32 = 0) (hb : b < 29)
    (hbit : w.testBit b = true) (hlayout : radiotapLayout (base + b) = some (align, size))
    (hlen : hdr.length < 65536) (hpos : pos ≤ hdr.length)
    (hsize : alignUp align pos + size ≤ hdr.length) :
    rtapPass skb (atBit hdr pos base b w nb ns reset) =
      (.hit (atBit hdr (alignUp align pos + size) base (b + 1) w nb ns reset) (base + b)
        (alignUp align pos), []) := by
  obtain ⟨halign, hle⟩ := radiotapLayout_cases hlayout
  have hmod : (base + b) % 32 = b := by omega
  have halignSize : (atBit hdr pos base b w nb ns reset).alignSize = some (align, size) := by
    unfold RtapIterator.alignSize
    rw [atBit_argIndex, hmod]
    split
    · omega
    · omega
    · omega
    · exact (Option.filter_eq_some_iff.mp hlayout).1
  have haligned : (atBit hdr pos base b w nb ns reset).aligned align = alignUp align pos :=
    aligned_eq _ halign hle (hpos.trans_lt hlen)
  rw [rtapPass_set (fun hz => by simp [bit_atBit.mp hz] at hbit) halignSize halign
    (haligned ▸ hsize) hlen (by rw [atBit_argIndex]; omega)]
  dsimp only
  rw [atBit_argIndex, hmod, if_neg (by omega), if_neg (by omega), haligned]
  exact congrArg (fun it => (RtapNext.hit it (base + b) (alignUp align pos), ([] : List ℕ)))
    nextEntry_atBit

/-- **The fields of a word**, from a bit on. -/
theorem rtapWalk_bits (h : Begins skb hdr) (hlen : hdr.length < 65536) (hbase : base % 32 = 0)
    (k : ℕ) (hk : b + k = 29) (hpos : pos ≤ hdr.length)
    (hdecode : decode radiotapLayout hdr pos
      (((List.range' b k).filter w.testBit).map (base + ·)) = some (fs, pos')) :
    (rtapWalk skb (m + k) (atBit hdr pos base b w nb ns reset) v).1 =
      (rtapWalk skb m (atBit hdr pos' base 29 w nb ns reset) (fs.foldl useField v)).1 ∧
        pos' ≤ hdr.length := by
  -- one pass for each bit: the position moves at the bits that are set
  induction k generalizing b pos fs v with
  | zero =>
    obtain ⟨rfl, rfl⟩ := Prod.mk.inj (Option.some.inj hdecode)
    obtain rfl : b = 29 := hk
    exact ⟨rfl, hpos⟩
  | succ k ih =>
    rw [List.range'_succ, List.filter_cons] at hdecode
    rw [← Nat.add_assoc, rtapWalk]
    cases hbit : w.testBit b with
    | false =>
      rw [hbit, if_neg Bool.false_ne_true] at hdecode
      rw [rtapPass_clear hbase (by omega) hbit]
      exact ih (by omega) hpos hdecode
    | true =>
      rw [hbit, if_pos rfl, List.map_cons, decode] at hdecode
      split at hdecode
      · cases hdecode
      · rename_i align size hlayout
        dsimp only at hdecode
        split_ifs at hdecode with hsize
        obtain ⟨⟨fs', pos''⟩, hrest, heq⟩ := Option.map_eq_some_iff.mp hdecode
        obtain ⟨rfl, rfl⟩ := Prod.mk.inj heq
        rw [rtapPass_field hbase (by omega) hbit hlayout hlen hpos hsize]
        dsimp only
        rw [List.foldl_cons, ← h.useArg hlen hlayout hsize]
        exact ih (by omega) hsize hrest

theorem rtapWalk_last (hbase : base % 32 = 0) (hlen : hdr.length < 65536)
    (hpos : pos ≤ hdr.length) (hvendor : w.testBit 30 = false) :
    (rtapWalk skb (m + 3) (atBit hdr pos base 29 w nb ns false) v).1 =
      if w.testBit 31 then
        (rtapWalk skb m (atBit hdr pos (if w.testBit 29 then 0 else base + 32) 0 (skb.le32 nb)
          (nb + 4) ns false) v).1
      else v := by
  have hset (b : ℕ) (hb : b = 29 ∨ b = 31) (hbit : w.testBit b = true) (reset : Bool) :=
    @rtapPass_set skb (atBit hdr pos base b w nb ns reset) 1 0
      (fun hz => by simp [bit_atBit.mp hz] at hbit)
      (by
        unfold RtapIterator.alignSize
        rw [atBit_argIndex, show (base + b) % 32 = b by omega]
        rcases hb with rfl | rfl <;> rfl)
      Nat.one_pos (by rw [aligned_one]; exact hpos) hlen (by rw [atBit_argIndex]; omega)
  -- bit 29 sets the flag that bit 31 looks at
  have h29 : rtapPass skb (atBit hdr pos base 29 w nb ns false) =
      (.next (atBit hdr pos base 30 w nb ns (w.testBit 29)), []) := by
    cases hbit : w.testBit 29 with
    | false => exact rtapPass_clear hbase (by decide) hbit
    | true =>
      rw [hset 29 (.inl rfl) hbit, aligned_one, atBit_argIndex]
      dsimp only
      rw [if_pos (by omega)]
      exact congrArg (fun it => (RtapNext.next it, ([] : List ℕ))) nextEntry_atBit
  rw [rtapWalk, h29]
  dsimp only
  rw [rtapWalk, rtapPass_clear hbase (by decide) hvendor]
  dsimp only
  rw [rtapWalk]
  cases hbit : w.testBit 31 with
  | false =>
    unfold rtapPass
    dsimp only
    rw [if_pos (bit_atBit.mpr hbit), atBit_argIndex, if_pos (by omega)]
    rfl
  | true =>
    -- the numbers of the fields start anew behind a radiotap namespace
    have hpass : rtapPass skb (atBit hdr pos base 31 w nb ns (w.testBit 29)) =
        (.next (atBit hdr pos (if w.testBit 29 then 0 else base + 32) 0 (skb.le32 nb) (nb + 4) ns
          false), offsets nb 4) := by
      rw [hset 31 (.inr rfl) hbit, aligned_one, atBit_argIndex]
      dsimp only
      rw [if_neg (by omega), if_pos (by omega)]
      unfold atBit
      simp
    rw [hpass]
    rfl

theorem decodeWords_cons {layout : Layout} {n : ℕ}
    (h : decodeWords layout hdr base pos (w :: ws) = some (fss, n)) :
    w.testBit 30 = false ∧ ∃ fs pos' fss',
      decode layout hdr pos ((indices w).map (base + ·)) = some (fs, pos') ∧
      decodeWords layout hdr (if w.testBit 29 then 0 else base + 32) pos' ws = some (fss', n) ∧
      fss = fs :: fss' := by
  rw [decodeWords] at h
  cases hvendor : w.testBit 30 with
  | true =>
    rw [hvendor, if_pos rfl] at h
    cases h
  | false =>
    rw [hvendor, if_neg Bool.false_ne_true] at h
    split at h
    · cases h
    · rename_i fs pos' hword
      obtain ⟨⟨fss', n'⟩, hrest, heq⟩ := Option.map_eq_some_iff.mp h
      obtain ⟨rfl, rfl⟩ := Prod.mk.inj heq
      exact ⟨rfl, fs, pos', fss', hword, hrest, rfl⟩

/-- **The words, one after the other.** -/
theorem rtapWalk_words (h : Begins skb hdr) (hlen : hdr.length < 65536) {o n : ℕ}
    (hbase : base % 32 = 0) (hws : WordsAt skb hdr.length o (w :: ws)) (hpos : pos ≤ hdr.length)
    (hdecode : decodeWords radiotapLayout hdr base pos (w :: ws) = some (fss, n)) :
    (rtapWalk skb (m + 32 * (w :: ws).length) (atBit hdr pos base 0 w (o + 4) ns false) v).1 =
      fss.flatten.foldl useField v := by
  -- a word takes 32 passes, the last of which loads the next word
  induction ws generalizing w o base pos fss v with
  | nil =>
    obtain ⟨hvendor, fs, pos', fss', hword, hrest, rfl⟩ := decodeWords_cons hdecode
    obtain ⟨rfl, -⟩ := Prod.mk.inj (Option.some.inj hrest)
    rw [indices, List.range_eq_range'] at hword
    obtain ⟨hbits, hpos'⟩ := rtapWalk_bits h hlen hbase 29 rfl hpos hword
    refine hbits.trans ?_
    rw [rtapWalk_last hbase hlen hpos' hvendor, hws.2.2, if_neg Bool.false_ne_true]
    simp
  | cons w' ws ih =>
    obtain ⟨-, -, hext, hnext⟩ := hws
    have hword' : skb.le32 (o + 4) = w' := by
      cases ws with
      | nil => exact hnext.1
      | cons _ _ => exact hnext.1
    obtain ⟨hvendor, fs, pos', fss', hword, hrest, rfl⟩ := decodeWords_cons hdecode
    rw [indices, List.range_eq_range'] at hword
    obtain ⟨hbits, hpos'⟩ := rtapWalk_bits h hlen hbase 29 rfl hpos hword
    have hrounds : m + 32 * (w :: w' :: ws).length = m + 32 * (w' :: ws).length + 3 + 29 := by
      simp only [List.length_cons]
      omega
    rw [hrounds]
    refine hbits.trans ?_
    rw [rtapWalk_last hbase hlen hpos' hvendor, hext, if_pos rfl, hword', List.flatten_cons,
      List.foldl_append]
    refine ih ?_ hnext hpos' hrest
    split_ifs
    · rfl
    · omega

end Bits

section Header

variable {skb : Skb} {hdr : Bytes} {ws : List ℕ} {fss : List (List Field)} {n stale : ℕ}

theorem WordsAt.end_le {o : ℕ} (h : WordsAt skb n o ws) : o + 4 * ws.length ≤ n := by
  induction ws generalizing o with
  | nil => exact h.elim
  | cons w ws ih =>
    cases ws with
    | nil => exact h.2.1
    | cons w' ws =>
      have hrest := ih h.2.2.2
      simp only [List.length_cons] at hrest ⊢
      omega

theorem rtapExtend_wordsAt {o rounds : ℕ} (h : WordsAt skb n o ws) (hrounds : ws.length ≤ rounds) :
    (rtapExtend skb n rounds o).1 = some (o + 4 * ws.length) := by
  induction ws generalizing o rounds with
  | nil => exact h.elim
  | cons w ws ih =>
    obtain ⟨rounds, rfl⟩ : ∃ m, rounds = m + 1 := ⟨rounds - 1, by
      rw [List.length_cons] at hrounds
      omega⟩
    rw [rtapExtend]
    cases ws with
    | nil =>
      obtain ⟨hword, -, hlast⟩ := h
      rw [hword, hlast, if_neg Bool.false_ne_true]
      rfl
    | cons w' ws =>
      obtain ⟨hword, -, hext, hnext⟩ := h
      have hroom := hnext.end_le
      simp only [List.length_cons] at hroom hrounds
      rw [hword, hext, if_pos rfl, if_neg (by omega)]
      dsimp only
      rw [ih hnext (by rw [List.length_cons]; omega)]
      simp only [List.length_cons]
      congr 1
      omega

theorem rtapIteratorInit_wordsAt {w : ℕ} (h : Begins skb hdr) (hlong : 8 ≤ hdr.length)
    (hversion : hdr.u8 0 = 0) (hlength : hdr.le16 2 = hdr.length) (hlen : hdr.length < 65536)
    (hws : WordsAt skb hdr.length 4 (w :: ws)) (stale : ℕ) :
    (rtapIteratorInit skb stale).1 =
      some (atBit hdr (4 + 4 * (w :: ws).length) 0 0 w 8 (stale % 2 ^ 64) false) := by
  have hlen' := h.len
  have hmax : skb.le16 2 = hdr.length := (h.le16 hlen (by omega)).trans hlength
  have hat : atBit hdr (4 + 4 * (w :: ws).length) 0 0 w 8 (stale % 2 ^ 64) false =
      ⟨4 + 4 * (w :: ws).length, 0, w, 8, stale % 2 ^ 64, hdr.length, false, true⟩ := by
    unfold atBit
    rw [pow_zero, Nat.div_one]
  rw [hat]
  unfold rtapIteratorInit radiotapHdrLen
  rw [if_neg (by omega), if_neg (by rw [h.mem 0 (by omega), hversion]; decide)]
  dsimp only
  rw [hmax, if_neg (by omega)]
  cases ws with
  | nil =>
    obtain ⟨hword, -, hlast⟩ := hws
    rw [hword, hlast, if_neg Bool.false_ne_true]
    rfl
  | cons w' ws =>
    obtain ⟨hword, -, hext, hnext⟩ := hws
    have hroom := hnext.end_le
    rw [List.length_cons] at hroom
    rw [hword, hext, if_pos rfl, if_neg (by omega)]
    dsimp only
    rw [rtapExtend_wordsAt hnext (by rw [List.length_cons]; omega), Option.map_some]
    simp only [List.length_cons]
    congr 2
    omega

/-- **The arguments are what the fields ask for**, where the rules read a header that the packet
begins with. -/
theorem Begins.radiotapArgs (h : Begins skb hdr) (hlength : hdr.le16 2 = hdr.length)
    (hdecode : decodeHeader hdr = some (fss, n)) (stale : ℕ) :
    (Xmit.radiotapArgs skb stale).1 = asked fss := by
  have hlen : hdr.length < 65536 := by
    have h₁ := (hdr.u8 2).toNat_lt
    have h₂ := (hdr.u8 (2 + 1)).toNat_lt
    rw [← hlength, Bytes.le16]
    omega
  unfold decodeHeader at hdecode
  split_ifs at hdecode with hbad
  rw [not_or, not_or, not_not] at hbad
  obtain ⟨hlong, hversion, -⟩ := hbad
  obtain ⟨ws, hws, hfields⟩ := Option.bind_eq_some_iff.mp hdecode
  have hwords := h.wordsAt hlen hws
  rw [hlength, List.take_length] at hfields
  cases ws with
  | nil => exact hwords.elim
  | cons w ws =>
    have hend := hwords.end_le
    unfold Xmit.radiotapArgs
    have hinit := rtapIteratorInit_wordsAt h (by omega) hversion hlength hlen hwords stale
    generalize rtapIteratorInit skb stale = r at hinit ⊢
    obtain ⟨it, reads⟩ := r
    dsimp only at hinit
    subst hinit
    dsimp only
    have hrounds : rtapRounds hdr.length =
        8 * hdr.length + 32 - 32 * (w :: ws).length + 32 * (w :: ws).length := by
      unfold rtapRounds
      omega
    show (rtapWalk skb (rtapRounds hdr.length) _ _).1 = _
    rw [hrounds]
    exact rtapWalk_words h hlen rfl hwords hend hfields

end Header

/-! ## What was captured -/

/-- **What stands in the header is read back**, for any number of antennas. -/
theorem decodeHeader_captured {rfType : Option RfType} {r : AmpduRef} {c : OperChan}
    {a : MonAttrib} {headroom : ℕ} {hdr : Bytes}
    (h : (rtwFillRadiotapHdr rfType r c a headroom).1 = some hdr) :
    hdr.le16 2 = hdr.length ∧
      ∃ n, decodeHeader hdr = some (headerFields (rfTypeToRfRxCnt rfType) r c a, n) := by
  obtain ⟨pre, hlen, hversion, hpre, hmem, hwords⟩ := bytes_eq rfType r c a headroom hdr h
  refine ⟨hlen, ?_⟩
  generalize rfTypeToRfRxCnt rfType = n at hpre hmem hwords ⊢
  have hlong : 8 ≤ hdr.length := by
    rw [hmem, List.length_append, hpre]
    simp only [presentOf, List.length_cons]
    omega
  have hdecode := decodeWords_encodeAll radiotapLayout_valid (presentOf_describes n r c a) pre
    (encodeAll radiotapLayout
      (pre.length + (encodeAll radiotapLayout pre.length (headerFields n r c a)).length)
      (surplus n a))
  rw [List.append_assoc, ← encodeAll_append, ← hmem] at hdecode
  unfold decodeHeader
  rw [if_neg (by simp [hversion, hlen, hlong]), hwords,
    presentWords_flatMap (presentOf_chained n (mainFields_lt r c a)), hlen, List.take_length,
    Option.bind_some, ← hpre]
  exact ⟨_, hdecode⟩

/-- The rate of a frame as the driver counts rates: `hw_rate_to_m_rate`. -/
def capturedRate (rate : UInt8) : ℕ :=
  if rate ≤ 0x0b then (hwRateToMRate rate).toNat
  else if isMcsRate rate then mgnMcs0 + (rate.toNat - 0x0c)
  else if isVhtRate rate then mgnVht1ssMcs0 + (rate.toNat - 0x2c)
  else 0x02

theorem foldl_antennas (a : MonAttrib) (v : TxArgs) (is : List ℕ) :
    (is.map (antennaFields a)).flatten.foldl useField v = v := by
  induction is with
  | nil => rfl
  | cons i is ih =>
    rw [List.map_cons, List.flatten_cons, List.foldl_append]
    exact ih

theorem asked_headerFields (n : ℕ) (r : AmpduRef) (c : OperChan) (a : MonAttrib) :
    asked (headerFields n r c a) = (mainFields r c a).foldl useField {} := by
  unfold asked headerFields
  rw [List.flatten_cons, List.foldl_append]
  split_ifs
  · exact foldl_antennas a _ _
  · rfl

theorem mcs_fixedRate (v : TxArgs) (flags rate : ℕ) :
    (v.mcs 0x37 flags rate).fixedRate = (if 31 < rate % 128 then 0 else rate % 128) + mgnMcs0 := by
  unfold TxArgs.mcs
  simp only [show Nat.testBit 0x37 1 = true by decide, if_true]
  split_ifs <;> rfl

theorem mcs_txflags (v : TxArgs) (known flags rate : ℕ) :
    (v.mcs known flags rate).txflags = v.txflags := by
  unfold TxArgs.mcs
  dsimp only
  split_ifs <;> rfl

theorem vht_fixedRate (v : TxArgs) (known flags bandwidth mcsNss coding : ℕ)
    (hnss : 0 < mcsNss % 16) : (v.vht known flags bandwidth mcsNss coding).fixedRate =
      (mgnVht1ssMcs0 + ((min (mcsNss % 16) 4 - 1) * 10 + min (mcsNss / 16) 9)) % 256 := by
  unfold TxArgs.vht
  dsimp only
  rw [if_pos hnss]

theorem vht_txflags (v : TxArgs) (known flags bandwidth mcsNss coding : ℕ) :
    (v.vht known flags bandwidth mcsNss coding).txflags = v.txflags := by
  unfold TxArgs.vht
  dsimp only
  split_ifs <;> rfl

def mcsRate (octet : UInt8) : ℕ :=
  (if 31 < octet.toNat % 128 then 0 else octet.toNat % 128) + mgnMcs0

def vhtRate (octet : UInt8) : ℕ :=
  (mgnVht1ssMcs0 + ((min (octet.toNat % 16) 4 - 1) * 10 + min (octet.toNat / 16) 9)) % 256

def RateOk (rate : UInt8) : Prop :=
  (rate ≤ 0x0b → isMcsRate rate = false ∧ isVhtRate rate = false) ∧
    (isMcsRate rate = true → isVhtRate rate = false ∧
      mcsRate (rate - 0x0c) = mgnMcs0 + (rate.toNat - 0x0c)) ∧
    (isVhtRate rate = true →
      0 < (((rate - 0x2C) % 10) <<< 4 ||| ((rate - 0x2C) / 10 + 1)).toNat % 16 ∧
      vhtRate (((rate - 0x2C) % 10) <<< 4 ||| ((rate - 0x2C) / 10 + 1)) =
        mgnVht1ssMcs0 + (rate.toNat - 0x2c))

instance (rate : UInt8) : Decidable (RateOk rate) := by
  unfold RateOk
  infer_instance

theorem rateOk (rate : UInt8) : RateOk rate := by
  have hall : ∀ n < 256, RateOk (UInt8.ofNat n) := by decide +kernel
  have hrate := hall rate.toNat rate.toNat_lt
  rwa [UInt8.ofNat_toNat] at hrate

theorem foldl_mainFields (r : AmpduRef) (c : OperChan) (a : MonAttrib) :
    ((mainFields r c a).foldl useField {}).fixedRate = capturedRate a.dataRate ∧
      ((mainFields r c a).foldl useField {}).txflags = 0 := by
  obtain ⟨hlegacy, hmcs, hvht⟩ := rateOk a.dataRate
  unfold mainFields capturedRate
  by_cases h : a.dataRate ≤ 0x0b
  · rw [(hlegacy h).1, (hlegacy h).2]
    simp only [h, if_true, Bool.false_eq_true, if_false]
    cases a.ampdu <;> exact ⟨rfl, rfl⟩
  cases hm : isMcsRate a.dataRate with
  | true =>
    rw [(hmcs hm).1]
    simp only [h, if_true, Bool.false_eq_true, if_false]
    have hrate : ∀ v : TxArgs,
        (useField v ⟨19, mcsField a⟩).fixedRate = mcsRate (a.dataRate - 0x0c) ∧
        (useField v ⟨19, mcsField a⟩).txflags = v.txflags := fun v =>
      ⟨mcs_fixedRate v _ _, mcs_txflags v _ _ _⟩
    cases a.ampdu <;> exact ⟨(hrate _).1.trans (hmcs hm).2, (hrate _).2⟩
  | false =>
    cases hv : isVhtRate a.dataRate with
    | true =>
      simp only [h, if_true, Bool.false_eq_true, if_false]
      have hrate : ∀ v : TxArgs, (useField v ⟨21, vhtField a⟩).fixedRate =
          vhtRate (((a.dataRate - 0x2C) % 10) <<< 4 ||| ((a.dataRate - 0x2C) / 10 + 1)) ∧
          (useField v ⟨21, vhtField a⟩).txflags = v.txflags := fun v =>
        ⟨vht_fixedRate v _ _ _ _ _ (hvht hv).1, vht_txflags v _ _ _ _ _⟩
      cases a.ampdu <;> exact ⟨(hrate _).1.trans (hvht hv).2, (hrate _).2⟩
    | false =>
      simp only [h, Bool.false_eq_true, if_false]
      cases a.ampdu <;> exact ⟨rfl, rfl⟩

/-- **The iterator finds the fields of the rules**: where they read the header of a packet, the
arguments are what the fields ask for. -/
theorem radiotapArgs_asked (skb : Skb) (fss : List (List Field)) (n stale : ℕ)
    (hlen : ieee80211GetRadiotapLen skb ≤ skb.len)
    (hdecode : decodeHeader ((List.range (ieee80211GetRadiotapLen skb)).map skb.mem) =
      some (fss, n)) : (radiotapArgs skb stale).1 = asked fss := by
  have hbegins : Begins skb ((List.range (ieee80211GetRadiotapLen skb)).map skb.mem) := by
    refine ⟨fun i hi => ?_, by simpa using hlen⟩
    rw [List.length_map, List.length_range] at hi
    simp [Bytes.u8, List.getD_eq_getElem?_getD, hi]
  refine hbegins.radiotapArgs ?_ hdecode stale
  have hlong : 8 ≤ ieee80211GetRadiotapLen skb := by
    unfold decodeHeader at hdecode
    split_ifs at hdecode with hbad
    rw [not_or, List.length_map, List.length_range] at hbad
    omega
  have hmem (i : ℕ) (hi : i < 4) :
      Bytes.u8 ((List.range (ieee80211GetRadiotapLen skb)).map skb.mem) i = skb.mem i :=
    (hbegins.mem i (by simp only [List.length_map, List.length_range]; omega)).symm
  rw [List.length_map, List.length_range, Bytes.le16, hmem 2 (by decide), hmem 3 (by decide)]
  rfl

/-- A packet for 11 Mbit/s. -/
theorem radiotapArgs_asked_rate :
    (radiotapArgs ⟨fun i => Bytes.u8 [0, 0, 9, 0, 4, 0, 0, 0, 0x16] i, 9⟩ 0).1 =
      asked [[⟨2, [0x16]⟩]] :=
  radiotapArgs_asked ⟨fun i => Bytes.u8 [0, 0, 9, 0, 4, 0, 0, 0, 0x16] i, 9⟩ [[⟨2, [0x16]⟩]] 9 0
    (by decide) (by decide +kernel)

/-- **A captured frame is injected at the rate that it came with**: the header that goes up with it
asks for that rate, whatever the number of antennas. -/
theorem radiotapArgs_captured (rfType : Option RfType) (r : AmpduRef) (c : OperChan)
    (a : MonAttrib) (headroom : ℕ) (hdr : Bytes) (skb : Skb) (stale : ℕ)
    (h : (rtwFillRadiotapHdr rfType r c a headroom).1 = some hdr) (hskb : Begins skb hdr) :
    (radiotapArgs skb stale).1.fixedRate = capturedRate a.dataRate ∧
      (radiotapArgs skb stale).1.txflags = 0 := by
  obtain ⟨hlength, n, hdecode⟩ := decodeHeader_captured h
  rw [hskb.radiotapArgs hlength hdecode, asked_headerFields]
  exact foldl_mainFields r c a

/-- A frame at MCS 0, captured with two antennas. -/
theorem radiotapArgs_captured_mcs :
    ∃ hdr, (rtwFillRadiotapHdr (some ⟨1, 1⟩) {} {} mcsAttrib 64).1 = some hdr ∧
      (radiotapArgs ⟨fun i => hdr.u8 i, hdr.length⟩ 0).1.fixedRate = capturedRate 0x0c ∧
      (radiotapArgs ⟨fun i => hdr.u8 i, hdr.length⟩ 0).1.txflags = 0 := by
  obtain ⟨hdr, h⟩ : ∃ hdr, (rtwFillRadiotapHdr (some ⟨1, 1⟩) {} {} mcsAttrib 64).1 = some hdr :=
    Option.isSome_iff_exists.mp (by decide +kernel)
  have hskb : Begins ⟨fun i => hdr.u8 i, hdr.length⟩ hdr := ⟨fun _ _ => rfl, le_rfl⟩
  exact ⟨hdr, h, radiotapArgs_captured (some ⟨1, 1⟩) {} {} mcsAttrib 64 hdr
    ⟨fun i => hdr.u8 i, hdr.length⟩ 0 h hskb⟩

end Rtl88x2eu.MonitorRx
