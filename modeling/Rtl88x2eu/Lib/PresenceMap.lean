import Mathlib.Data.List.Basic
import Mathlib.Data.List.Nodup
import Mathlib.Data.List.Perm.Basic
import Mathlib.Data.List.Sort
import Mathlib.Data.Nat.Bitwise

/-!
# Records behind presence bitmaps

A record is a chain of bitmap words and the fields they announce. A field stands at its natural
alignment; the fields of one word stand in the order of its bits; a word says with its top bit that
another one follows, and with bit 29 that the next one counts its fields from zero again.

## Main definitions

* `Layout`
* `encode`, `encodeAll`: fields in memory, at their alignment
* `decode`, `decodeWords`, `presentWords`: the way back, from the words
* `presence`, `Describes`, `Chained`

## Main results

* `decode_encode`, `decodeWords_encodeAll`: what was written is read back, and nothing else is read
* `indices_presence`
* `presentWords_flatMap`: the chain is read back
-/

namespace PresenceMap

structure Field where
  idx : ℕ
  data : List UInt8
deriving DecidableEq, Repr

/-- The alignment and the size of a field. -/
abbrev Layout := ℕ → Option (ℕ × ℕ)

def alignUp (a n : ℕ) : ℕ := (n + (a - 1)) / a * a

def padding (a pos : ℕ) : List UInt8 := List.replicate (alignUp a pos - pos) 0

def place (layout : Layout) (pos : ℕ) (f : Field) : List UInt8 :=
  padding ((layout f.idx).elim 1 Prod.fst) pos ++ f.data

/-- Fields in memory, from `pos` on. -/
def encode (layout : Layout) : ℕ → List Field → List UInt8
  | _, [] => []
  | pos, f :: fs => place layout pos f ++ encode layout (pos + (place layout pos f).length) fs

def encodeAll (layout : Layout) : ℕ → List (List Field) → List UInt8
  | _, [] => []
  | pos, fs :: fss =>
    encode layout pos fs ++ encodeAll layout (pos + (encode layout pos fs).length) fss

/-- The fields with the given indices, read from `pos` on, and where they end. -/
def decode (layout : Layout) (buf : List UInt8) : ℕ → List ℕ → Option (List Field × ℕ)
  | pos, [] => some ([], pos)
  | pos, i :: is =>
    match layout i with
    | none => none
    | some (a, n) =>
      let start := alignUp a pos
      if start + n ≤ buf.length then
        (decode layout buf (start + n) is).map fun r => (⟨i, (buf.drop start).take n⟩ :: r.1, r.2)
      else none

def indices (w : ℕ) : List ℕ := (List.range 29).filter w.testBit

def decodeWords (layout : Layout) (buf : List UInt8) :
    ℕ → ℕ → List ℕ → Option (List (List Field) × ℕ)
  | _, pos, [] => some ([], pos)
  | base, pos, w :: ws =>
    if w.testBit 30 then none
    else
      match decode layout buf pos ((indices w).map (base + ·)) with
      | none => none
      | some (fs, pos) =>
        (decodeWords layout buf (if w.testBit 29 then 0 else base + 32) pos ws).map fun r =>
          (fs :: r.1, r.2)

def presentWords : List UInt8 → Option (List ℕ)
  | a :: b :: c :: d :: rest =>
    let w := a.toNat + 256 * b.toNat + 65536 * c.toNat + 16777216 * d.toNat
    if w.testBit 31 then (presentWords rest).map (w :: ·) else some [w]
  | _ => none

/-- The four octets of a word. -/
def ofLe32 (n : ℕ) : List UInt8 :=
  [UInt8.ofNat n, UInt8.ofNat (n / 256), UInt8.ofNat (n / 65536), UInt8.ofNat (n / 16777216)]

/-- The bitmap of some fields. -/
def presence (fs : List Field) : ℕ := fs.foldr (fun f w => 2 ^ f.idx ||| w) 0

def Fits (layout : Layout) (f : Field) : Prop := (layout f.idx).map Prod.snd = some f.data.length

/-- Words that announce given fields. -/
inductive Describes (layout : Layout) : ℕ → List ℕ → List (List Field) → Prop
  | nil (base : ℕ) : Describes layout base [] []
  | cons {base w : ℕ} {ws : List ℕ} {fs : List Field} {fss : List (List Field)}
      (hvendor : w.testBit 30 = false) (hidx : (indices w).map (base + ·) = fs.map Field.idx)
      (hfits : ∀ f ∈ fs, Fits layout f)
      (hrest : Describes layout (if w.testBit 29 then 0 else base + 32) ws fss) :
      Describes layout base (w :: ws) (fs :: fss)

/-- Every word but the last says that another one follows. -/
def Chained : List ℕ → Prop
  | [] => False
  | [w] => w < 2 ^ 32 ∧ w.testBit 31 = false
  | w :: ws => w < 2 ^ 32 ∧ w.testBit 31 = true ∧ Chained ws

/-! ## Fields -/

section Fields

variable {layout : Layout} {fs : List Field} {fss : List (List Field)} {ws : List ℕ}
  {pre post : List UInt8} {base pos : ℕ} {f : Field}

theorem length_padding (a pos : ℕ) : pos + (padding a pos).length = max pos (alignUp a pos) := by
  simp only [padding, List.length_replicate]
  omega

theorem le_alignUp {a : ℕ} (ha : 0 < a) (n : ℕ) : n ≤ alignUp a n := by
  have hdiv := Nat.div_add_mod (n + (a - 1)) a
  have hmod := Nat.mod_lt (n + (a - 1)) ha
  unfold alignUp
  rw [Nat.mul_comm]
  omega

def Layout.Valid (layout : Layout) : Prop := ∀ i a n, layout i = some (a, n) → 0 < a

theorem encode_append (layout : Layout) (pos : ℕ) (fs gs : List Field) :
    encode layout pos (fs ++ gs) =
      encode layout pos fs ++ encode layout (pos + (encode layout pos fs).length) gs := by
  induction fs generalizing pos with
  | nil => rfl
  | cons f fs ih =>
    simp only [List.cons_append, encode, ih, List.append_assoc, List.length_append, Nat.add_assoc]

theorem encodeAll_append (layout : Layout) (pos : ℕ) (fss gss : List (List Field)) :
    encodeAll layout pos (fss ++ gss) = encodeAll layout pos fss ++
      encodeAll layout (pos + (encodeAll layout pos fss).length) gss := by
  induction fss generalizing pos with
  | nil => rfl
  | cons fs fss ih =>
    simp only [List.cons_append, encodeAll, ih, List.append_assoc, List.length_append,
      Nat.add_assoc]

/-- A field is read back where it was written. -/
theorem decode_cons (hlayout : layout.Valid) (hf : Fits layout f) (pre post : List UInt8)
    (is : List ℕ) :
    decode layout (pre ++ place layout pre.length f ++ post) pre.length (f.idx :: is) =
      (decode layout (pre ++ place layout pre.length f ++ post)
        (pre ++ place layout pre.length f).length is).map fun r => (f :: r.1, r.2) := by
  obtain ⟨⟨a, n⟩, hl, hn⟩ := Option.map_eq_some_iff.mp hf
  dsimp only at hn
  have hpad := length_padding a pre.length
  rw [Nat.max_eq_right (le_alignUp (hlayout _ _ _ hl) _)] at hpad
  have hplace : place layout pre.length f = padding a pre.length ++ f.data := by
    unfold place
    rw [hl]
    rfl
  have hstart : alignUp a pre.length = (pre ++ padding a pre.length).length := by
    rw [List.length_append, hpad]
  have hread : ((pre ++ (padding a pre.length ++ f.data) ++ post).drop
      (pre ++ padding a pre.length).length).take f.data.length = f.data := by
    rw [← List.append_assoc, List.append_assoc, List.drop_left, List.take_left]
  have hend : (pre ++ padding a pre.length).length + f.data.length =
      (pre ++ (padding a pre.length ++ f.data)).length := by
    simp only [List.length_append, Nat.add_assoc]
  rw [decode, hl]
  dsimp only
  rw [hplace, hstart, hn, hread, hend, if_pos (by simp)]

/-- **The fields of a word are read back, from their own octets.** -/
theorem decode_encode (hlayout : layout.Valid) (hfs : ∀ f ∈ fs, Fits layout f)
    (pre post : List UInt8) :
    decode layout (pre ++ encode layout pre.length fs ++ post) pre.length (fs.map Field.idx) =
      some (fs, (pre ++ encode layout pre.length fs).length) := by
  induction fs generalizing pre with
  | nil => simp [decode, encode]
  | cons f fs ih =>
    have hrest := ih (fun g hg => hfs g (List.mem_cons_of_mem _ hg))
      (pre ++ place layout pre.length f)
    rw [List.length_append] at hrest
    have hcons := decode_cons hlayout (hfs f List.mem_cons_self) pre
      (encode layout (pre.length + (place layout pre.length f).length) fs ++ post)
      (fs.map Field.idx)
    simp only [encode, List.map_cons, List.append_assoc, List.length_append] at hrest hcons ⊢
    rw [hcons, hrest]
    rfl

/-- **The fields of a chain of words are read back**, and what follows them is not read. -/
theorem decodeWords_encodeAll (hlayout : layout.Valid) (h : Describes layout base ws fss)
    (pre post : List UInt8) :
    decodeWords layout (pre ++ encodeAll layout pre.length fss ++ post) base pre.length ws =
      some (fss, (pre ++ encodeAll layout pre.length fss).length) := by
  induction h generalizing pre with
  | nil base => simp [decodeWords, encodeAll]
  | @cons base w ws fs fss hvendor hidx hfits hrest ih =>
    have hword := decode_encode hlayout hfits pre
      (encodeAll layout (pre.length + (encode layout pre.length fs).length) fss ++ post)
    have hwords := ih (pre ++ encode layout pre.length fs)
    simp only [List.append_assoc, List.length_append] at hword hwords
    simp only [decodeWords, encodeAll, List.append_assoc, List.length_append]
    rw [hvendor, if_neg Bool.false_ne_true, hidx, hword]
    dsimp only
    rw [hwords]
    rfl

end Fields

section Words

variable {ws : List ℕ}

theorem presence_append (fs gs : List Field) :
    presence (fs ++ gs) = presence fs ||| presence gs := by
  induction fs with
  | nil => simp [presence]
  | cons f fs ih =>
    simp only [presence, List.cons_append, List.foldr_cons] at ih ⊢
    rw [ih, Nat.or_assoc]

theorem testBit_presence (fs : List Field) (i : ℕ) :
    (presence fs).testBit i = true ↔ i ∈ fs.map Field.idx := by
  induction fs with
  | nil => simp [presence]
  | cons f fs ih =>
    rw [show presence (f :: fs) = 2 ^ f.idx ||| presence fs from rfl, Nat.testBit_or,
      Bool.or_eq_true, ih, Nat.testBit_two_pow, List.map_cons, List.mem_cons]
    simp [eq_comm]

/-- A bitmap names its fields in order. -/
theorem indices_presence {fs : List Field} {w : ℕ}
    (hw : ∀ i < 29, w.testBit i = (presence fs).testBit i)
    (hsorted : (fs.map Field.idx).Pairwise (· < ·)) (hlt : ∀ i ∈ fs.map Field.idx, i < 29) :
    indices w = fs.map Field.idx := by
  have hnodup : ((List.range 29).filter w.testBit).Nodup := List.nodup_range.filter _
  unfold indices
  refine List.Perm.eq_of_pairwise' (r := (· < ·)) ?_ hsorted ?_
  · exact List.pairwise_lt_range.filter _
  rw [List.perm_ext_iff_of_nodup hnodup (hsorted.imp fun h => h.ne)]
  intro i
  rw [List.mem_filter, List.mem_range]
  constructor
  · rintro ⟨hi, hbit⟩
    rwa [hw i hi, testBit_presence] at hbit
  · intro hi
    refine ⟨hlt i hi, ?_⟩
    rwa [hw i (hlt i hi), testBit_presence]

theorem ofLe32_value {n : ℕ} (hn : n < 2 ^ 32) :
    (UInt8.ofNat n).toNat + 256 * (UInt8.ofNat (n / 256)).toNat +
      65536 * (UInt8.ofNat (n / 65536)).toNat + 16777216 * (UInt8.ofNat (n / 16777216)).toNat =
        n := by
  simp only [UInt8.toNat_ofNat']
  omega

/-- **The chain of words is read back.** -/
theorem presentWords_flatMap (h : Chained ws) (rest : List UInt8) :
    presentWords (ws.flatMap ofLe32 ++ rest) = some ws := by
  induction ws with
  | nil => exact h.elim
  | cons w ws ih =>
    rw [List.flatMap_cons, ofLe32, List.append_assoc]
    simp only [List.cons_append, List.nil_append, presentWords]
    cases ws with
    | nil =>
      obtain ⟨hlt, hlast⟩ := h
      rw [ofLe32_value hlt, hlast, if_neg Bool.false_ne_true]
    | cons w' ws =>
      obtain ⟨hlt, hext, hrest⟩ := h
      rw [ofLe32_value hlt, hext, if_pos rfl, ih hrest]
      rfl

end Words

end PresenceMap
