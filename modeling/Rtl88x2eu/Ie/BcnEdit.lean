import Mathlib.Data.List.TakeWhile
import Rtl88x2eu.Ie.Edit

/-!
# The elements of an access point's beacon

`rtw_ap.c`. The beacon template is edited in place: an element is added or gets another body, an
element is removed, and the TIM is brought up to date. Every routine looks for its place in its own
way, keeps a copy of what is behind it, and writes the copy back behind the new bytes.

## Main definitions

* `rtwAddBcnIe`, `rtwRemoveBcnIe`, `updateBcntim`: the routines, `rtwSetTimIe` the TIM
* `addSpec`, `removeSpec`, `TimRight`: the lists that are wanted
* `pvbBit`
* `AddMeets`, `RemoveMeets`, `TimMeets`: when the routines do what they are for

## Main results

* `add_iff`, `remove_iff`, `tim_iff`: when each of the edits is right
* `timBody_decodes`: the bitmap is read back
* `bcnEdited_iff`: the three edits are right exactly if the conditions hold
-/

namespace Rtl88x2eu.Ie

/-- The end of the three routines: `new` is written at `dst`, and behind it what was at
`premainder`. -/
def spliceBcn (w : IesState) (dst premainder : ℕ) (new : Bytes) : IesState :=
  let remainder := uintSub w.iesLen premainder
  let backup := w.ies.read premainder remainder
  { ies := (w.ies.overwrite dst new).overwrite (dst + new.length) backup
    iesLen := (dst + new.length + remainder) % 2 ^ 32
    ret := true }

/-- The search of `rtw_add_bcn_ie` from the element at `i` on: the last element it looked at, with
its length, and `bmatch`. -/
def addWalk (w : IesState) (index : UInt8) : ℕ → ℕ → Option (ℕ × ℕ) → Option (ℕ × ℕ) × Bool
  | 0, _, p => (p, false)
  | k + 1, i, p =>
    if i < w.iesLen then
      if index < w.ies.u8 i then (p, false)
      else if w.ies.u8 i = index then (some (i, bodyLen w.ies i), true)
      else addWalk w index k (elemNext w.ies i) (some (i, bodyLen w.ies i))
    else (p, false)

/-- `sizeof(NDIS_802_11_FIXED_IEs)`, `_BEACON_IE_OFFSET_`, `_FIXED_IE_LENGTH_`. -/
def fixedIeLength : ℕ := 12

/-- `rtw_add_bcn_ie`, with memory for the copy. -/
def rtwAddBcnIe (w : IesState) (index : UInt8) (data : Bytes) : IesState :=
  let (p, bmatch) := addWalk w index (w.iesLen + 1) fixedIeLength none
  match p with
  | none => w
  | some (p, ielen) =>
    if ielen = 0 then w
    else
      spliceBcn w (if bmatch then p else p + (ielen + 2)) (p + (ielen + 2))
        (index :: UInt8.ofNat data.length :: data)

def rtwRemoveBcnIe (w : IesState) (index : UInt8) : IesState :=
  let o := rtwGetIe (w.ies.drop fixedIeLength) index (w.iesLen - fixedIeLength)
  match o.found.join with
  | none => w
  | some p =>
    if o.len = 0 then w
    else spliceBcn w (fixedIeLength + p) (fixedIeLength + p + (o.len + 2)) []

/-! ## TIM -/

def rtwBmpIsSet (bmp : Bytes) (id : ℕ) : Bool :=
  if id / 8 < bmp.length then (bmp.u8 (id / 8)).toNat.testBit (id % 8) else false

def rtwBmpNotEmpty (bmp : Bytes) : Bool := bmp.any (· != 0)

/-- The loop for the last nonzero octet, down from `i`; it stops at octet 0. -/
def lastNonzero (bmp : Bytes) : ℕ → ℕ
  | 0 => 0
  | i + 1 => if bmp.u8 (i + 1) ≠ 0 then i + 1 else lastNonzero bmp i

/-- `n1`: the first nonzero octet, made even. -/
def timN1 (bmp : Bytes) : ℕ :=
  if rtwBmpNotEmpty bmp then bmp.findIdx (· != 0) / 2 * 2 else 0

def timBmpLen (bmp : Bytes) : ℕ :=
  if rtwBmpNotEmpty bmp then lastNonzero bmp (bmp.length - 1) - timN1 bmp + 1 else 1

def wlanEidTim : UInt8 := 5

def timBody (dtimCnt dtimPeriod : UInt8) (bmp : Bytes) : Bytes :=
  [dtimCnt, dtimPeriod, UInt8.ofNat ((rtwBmpIsSet bmp 0).toNat + timN1 bmp)] ++
    bmp.read (timN1 bmp) (timBmpLen bmp)

def rtwSetTimIe (dtimCnt dtimPeriod : UInt8) (bmp : Bytes) : Bytes :=
  wlanEidTim :: UInt8.ofNat (2 + 1 + timBmpLen bmp) :: timBody dtimCnt dtimPeriod bmp

/-- `update_BCNTIM`: the buffer, and the place where the TIM was written. -/
def updateBcntim (w : IesState) (dtimPeriod : UInt8) (bmp : Bytes) : IesState × ℕ :=
  let limit := w.iesLen - fixedIeLength
  let new := rtwSetTimIe 0 dtimPeriod bmp
  let pie := w.ies.drop fixedIeLength
  let tim := rtwGetIe pie wlanEidTim limit
  if tim.found.join.isSome ∧ tim.len ≠ 0 then
    let p := fixedIeLength + tim.found.join.getD 0
    (spliceBcn w p (p + (tim.len + 2)) new, p)
  else
    let ssid := rtwGetIe pie 0 limit
    let rates := rtwGetIe pie 1 limit
    let offset := fixedIeLength + ssid.found.join.elim 0 (fun _ => ssid.len + 2) +
      rates.found.join.elim 0 (fun _ => rates.len + 2) + 3
    (spliceBcn w offset offset new, offset)

/-- The bit of a station in the bitmap of a TIM: the octets are those from the even offset of the
bitmap control on, and all others are zero. -/
def pvbBit (body : Bytes) (aid : ℕ) : Bool :=
  let n1 := (body.u8 2).toNat / 2 * 2
  if n1 ≤ aid / 8 ∧ aid / 8 - n1 < body.length - 3 then
    (body.u8 (3 + (aid / 8 - n1))).toNat.testBit (aid % 8)
  else false

def groupBit (body : Bytes) : Bool := (body.u8 2).toNat.testBit 0

def replaceFirst (new : Elem) : List Elem → List Elem
  | [] => []
  | e :: L => if e.id = new.id then new :: L else e :: replaceFirst new L

def insertByEid (new : Elem) : List Elem → List Elem
  | [] => [new]
  | e :: L => if new.id < e.id then new :: e :: L else e :: insertByEid new L

/-- **What `rtw_add_bcn_ie` is to do.** -/
def addSpec (new : Elem) (L : List Elem) : List Elem :=
  if ∃ e ∈ L, e.id = new.id then replaceFirst new L else insertByEid new L

/-- **What `rtw_remove_bcn_ie` is to do.** -/
def removeSpec (index : UInt8) (L : List Elem) : List Elem := L.eraseP (·.id = index)

def Replaces (new : Elem) (L : List Elem) : Prop :=
  ∃ A e B, L = A ++ e :: B ∧ (∀ x ∈ A, x.id < new.id) ∧ e.id = new.id ∧ e.body ≠ []

def Inserts (new : Elem) (L : List Elem) : Prop :=
  ∃ A x B, L = A ++ x :: B ∧ (∀ y ∈ A, y.id < new.id) ∧ x.id < new.id ∧ x.body ≠ [] ∧
    ∀ y ∈ B.head?, new.id < y.id

/-- **When an element is added as it should be**: the search stops at one of the id, with a body;
or behind one with a body, and there is none of the id; or it stops at neither, and the element is
there already. -/
def AddMeets (new : Elem) (L : List Elem) : Prop :=
  Replaces new L ∨ (Inserts new L ∧ ∀ e ∈ L, e.id ≠ new.id) ∨
    (¬Replaces new L ∧ ¬Inserts new L ∧ ∃ A B, L = A ++ new :: B ∧ ∀ x ∈ A, x.id ≠ new.id)

/-- **When an element is removed as it should be**: the first one of the id has a body. -/
def RemoveMeets (index : UInt8) (L : List Elem) : Prop :=
  ∀ A e B, L = A ++ e :: B → (∀ x ∈ A, x.id ≠ index) → e.id = index → e.body ≠ []

/-- **When the TIM is brought up to date as it should be**: there is one, with a body; or there is
none, and the third element takes three bytes. -/
def TimMeets (L : List Elem) : Prop :=
  (∃ A e B, L = A ++ e :: B ∧ e.id = wlanEidTim ∧ e.body ≠ [] ∧ ∀ x ∈ A ++ B, x.id ≠ wlanEidTim) ∨
    ((∀ x ∈ L, x.id ≠ wlanEidTim) ∧ ∃ s r d B, L = s :: r :: d :: B ∧ d.body.length = 1)

/-- The list of an access point begins with its SSID and its supported rates. -/
def Fronted (L : List Elem) : Prop := ∃ s r L', L = s :: r :: L' ∧ s.id = 0 ∧ r.id = 1

/-! ## The splice -/

variable {pre : Bytes} {L L' A B : List Elem} {e x : Elem} {w : IesState} {index : UInt8}

/-- Nothing is as large as the arithmetic of the routines. -/
structure Beacon (pre : Bytes) (L : List Elem) (w : IesState) : Prop where
  holds : Holds pre L w
  fixed : pre.length = fixedIeLength
  size : w.ies.length = maxIeSz

theorem Beacon.le (h : Beacon pre L w) : pre.length + (encode L).length ≤ maxIeSz := by
  obtain ⟨⟨rest, hies⟩, -⟩ := h.holds
  rw [← h.size, hies]
  simp only [List.length_append]
  omega

theorem spliceBcn_spec {front old tail rest : Bytes} (new : Bytes)
    (hies : w.ies = front ++ (old ++ (tail ++ rest)))
    (hlen : w.iesLen = front.length + old.length + tail.length)
    (hsmall : front.length + new.length + tail.length < 2 ^ 32) :
    (∃ rest', (spliceBcn w front.length (front.length + old.length) new).ies =
        front ++ (new ++ (tail ++ rest'))) ∧
      (spliceBcn w front.length (front.length + old.length) new).iesLen =
        front.length + new.length + tail.length ∧
      (front.length + new.length + tail.length ≤ w.ies.length →
        (spliceBcn w front.length (front.length + old.length) new).ies.length =
          w.ies.length) := by
  have hrem : uintSub w.iesLen (front.length + old.length) = tail.length := by
    rw [uintSub_of_le (by omega)]
    omega
  have hbackup : w.ies.read (front.length + old.length) tail.length = tail := by
    rw [hies, ← List.append_assoc]
    exact read_append_of_eq List.length_append.symm rfl
  have hsplice : (spliceBcn w front.length (front.length + old.length) new).ies =
      front ++ (new ++ (tail ++
        ((old ++ (tail ++ rest)).drop new.length).drop tail.length)) := by
    rw [spliceBcn]
    dsimp only
    rw [hrem, hbackup, hies, overwrite_append, ← List.append_assoc,
      overwrite_append_of_eq List.length_append.symm]
    simp only [List.append_assoc]
  refine ⟨⟨_, hsplice⟩, ?_, fun hroom => ?_⟩
  · rw [spliceBcn]
    dsimp only
    rw [hrem, Nat.mod_eq_of_lt hsmall]
  · have hall : w.ies.length = front.length + (old.length + (tail.length + rest.length)) := by
      rw [hies]
      simp only [List.length_append]
    rw [hsplice]
    simp only [List.length_append, List.length_drop]
    omega

/-- The splice at a boundary of the elements: those of `M` give way to those of `N`. -/
theorem holds_splice {M N : List Elem} (h : Beacon pre (A ++ M ++ B) w) {dst premainder : ℕ}
    (hdst : dst = pre.length + (encode A).length)
    (hrem : premainder = dst + (encode M).length) (hN : (encode N).length < 2 ^ 16) :
    Holds pre (A ++ N ++ B) (spliceBcn w dst premainder (encode N)) ∧
      (pre.length + (encode (A ++ N ++ B)).length ≤ maxIeSz →
        (spliceBcn w dst premainder (encode N)).ies.length = maxIeSz) := by
  obtain ⟨⟨rest, hies⟩, hlen⟩ := h.holds
  have hle := h.le
  have hmax : maxIeSz < 2 ^ 16 := by decide
  have hfront : dst = (pre ++ encode A).length := by rw [hdst, List.length_append]
  simp only [encode_append, List.length_append] at hlen hle
  have hspec := @spliceBcn_spec w (pre ++ encode A) (encode M) (encode B) rest (encode N)
    (by rw [hies]; simp only [encode_append, List.append_assoc])
    (by rw [hlen, List.length_append]; omega)
    (by rw [List.length_append]; omega)
  rw [← hfront, ← hrem] at hspec
  obtain ⟨⟨rest', hnew⟩, hnewLen, hroom⟩ := hspec
  refine ⟨⟨⟨rest', ?_⟩, ?_⟩, fun hfit => ?_⟩
  · rw [hnew]
    simp only [encode_append, List.append_assoc]
  · rw [hnewLen, hfront]
    simp only [encode_append, List.length_append]
    omega
  · rw [← h.size]
    refine hroom ?_
    rw [h.size, hfront]
    simp only [encode_append, List.length_append] at hfit ⊢
    omega

theorem encode_singleton (e : Elem) : encode [e] = e.bytes := by
  rw [encode_cons, encode_nil, List.append_nil]

theorem encode_injective : ∀ {L L' : List Elem}, encode L = encode L' → L = L'
  | [], [], _ => rfl
  | [], e :: L', h => by
    rw [encode_cons] at h
    exact absurd h (by simp [Elem.bytes])
  | e :: L, [], h => by
    rw [encode_cons] at h
    exact absurd h (by simp [Elem.bytes])
  | e :: L, e' :: L', h => by
    rw [encode_cons, encode_cons] at h
    obtain ⟨id, body, short⟩ := e
    obtain ⟨id', body', short'⟩ := e'
    simp only [Elem.bytes, List.cons_append, List.cons.injEq] at h
    obtain ⟨rfl, hlen, hrest⟩ := h
    have hsame : body.length = body'.length := by
      have hnat := congrArg UInt8.toNat hlen
      rwa [UInt8.toNat_ofNat', UInt8.toNat_ofNat', Nat.mod_eq_of_lt short,
        Nat.mod_eq_of_lt short'] at hnat
    obtain ⟨rfl, htail⟩ := List.append_inj hrest hsame
    rw [encode_injective htail]

/-- A buffer holds one list. -/
theorem Holds.unique (h : Holds pre L w) (h' : Holds pre L' w) : L = L' := by
  obtain ⟨⟨rest, hies⟩, hlen⟩ := h
  obtain ⟨⟨rest', hies'⟩, hlen'⟩ := h'
  rw [hies] at hies'
  refine encode_injective (List.append_inj (List.append_cancel_left hies') ?_).1
  omega

theorem removeSpec_first (hA : ∀ x ∈ A, x.id ≠ index) (he : e.id = index) :
    removeSpec index (A ++ e :: B) = A ++ B := by
  rw [removeSpec, List.eraseP_append_right _ (fun x hx => by simpa using hA x hx),
    List.eraseP_cons_of_pos (by simpa using he)]

theorem removeSpec_none (hL : ∀ x ∈ L, x.id ≠ index) : removeSpec index L = L :=
  List.eraseP_of_forall_not fun x hx => by simpa using hL x hx

theorem Beacon.drop (h : Beacon pre L w) :
    ∃ rest, w.ies.drop fixedIeLength = encode L ++ rest ∧
      w.iesLen - fixedIeLength = (encode L).length := by
  obtain ⟨⟨rest, hies⟩, hlen⟩ := h.holds
  refine ⟨rest, ?_, ?_⟩
  · rw [← h.fixed, hies, List.drop_left]
  · rw [← h.fixed, hlen, Nat.add_sub_cancel_left]

theorem holds_remove_first (h : Beacon pre (A ++ e :: B) w) (hA : ∀ x ∈ A, x.id ≠ index)
    (he : e.id = index) (hbody : e.body ≠ []) :
    Holds pre (A ++ B) (rtwRemoveBcnIe w index) ∧
      (rtwRemoveBcnIe w index).ies.length = maxIeSz := by
  obtain ⟨rest, hdrop, hlimit⟩ := h.drop
  obtain ⟨hfound, hlen⟩ := getIe_some hA he rest (B := B)
  rw [← hdrop, ← hlimit] at hfound hlen
  have hpos : e.body.length ≠ 0 := fun h => hbody (List.eq_nil_of_length_eq_zero h)
  have h' : Beacon pre (A ++ [e] ++ B) w := by
    rwa [List.append_assoc, List.singleton_append]
  have hsplice := holds_splice (N := []) h' rfl rfl (by decide)
  rw [List.append_nil, encode_nil, encode_singleton, Elem.length_bytes] at hsplice
  have hle := h.le
  simp only [encode_append, encode_cons, List.length_append] at hle hsplice
  rw [rtwRemoveBcnIe, hfound]
  dsimp only
  rw [hlen, if_neg hpos, ← h.fixed]
  exact ⟨hsplice.1, hsplice.2 (by omega)⟩

theorem remove_idle (h : Beacon pre L w)
    (hidle : (∀ x ∈ L, x.id ≠ index) ∨
      ∃ A e B, L = A ++ e :: B ∧ (∀ x ∈ A, x.id ≠ index) ∧ e.id = index ∧ e.body = []) :
    rtwRemoveBcnIe w index = w := by
  obtain ⟨rest, hdrop, hlimit⟩ := h.drop
  rw [rtwRemoveBcnIe, hdrop, hlimit]
  obtain hnone | ⟨A, e, B, rfl, hA, he, hbody⟩ := hidle
  · rw [getIe_none hnone rest]
  · obtain ⟨hfound, hlen⟩ := getIe_some hA he rest (B := B)
    rw [hfound]
    dsimp only
    rw [hlen, hbody]
    exact if_pos rfl

/-- **An element is removed as it should be exactly if it has a body.** -/
theorem remove_iff (h : Beacon pre L w) (index : UInt8) :
    (Holds pre (removeSpec index L) (rtwRemoveBcnIe w index) ∧
      (rtwRemoveBcnIe w index).ies.length = maxIeSz) ↔ RemoveMeets index L := by
  rcases first_or_none (·.id = index) L with hnone | ⟨A, e, B, rfl, hA, he⟩
  · rw [removeSpec_none hnone, remove_idle h (.inl hnone)]
    refine ⟨fun _ A e B hL hA he => ?_, fun _ => ⟨h.holds, h.size⟩⟩
    exact absurd he (hnone e (hL ▸ List.mem_append_right _ List.mem_cons_self))
  · rw [removeSpec_first hA he]
    constructor
    · rintro ⟨hholds, -⟩ A' e' B' hL hA' he' hbody
      rw [remove_idle h (.inr ⟨A', e', B', hL, hA', he', hbody⟩)] at hholds
      have hlen := congrArg List.length (hholds.unique h.holds)
      simp at hlen
    · exact fun hmeets => holds_remove_first h hA he (hmeets A e B rfl hA he)

/-! ## Addition -/

def lastPlace (front : Bytes) (last : Option (ℕ × ℕ)) : List Elem → Option (ℕ × ℕ)
  | [] => last
  | x :: A => lastPlace (front ++ x.bytes) (some (front.length, x.body.length)) A

theorem lastPlace_append (front : Bytes) (last : Option (ℕ × ℕ)) (A : List Elem) (x : Elem) :
    lastPlace front last (A ++ [x]) =
      some (front.length + (encode A).length, x.body.length) := by
  induction A generalizing front last with
  | nil => rfl
  | cons y A ih =>
    rw [List.cons_append, lastPlace, ih, encode_cons, List.length_append, List.length_append,
      Nat.add_assoc]

/-- The search goes over the elements of smaller ids. -/
theorem addWalk_lower {k : ℕ} (hA : ∀ y ∈ A, y.id < index) {front rest : Bytes}
    (hies : w.ies = front ++ (encode A ++ rest))
    (hlen : front.length + (encode A).length ≤ w.iesLen) (last : Option (ℕ × ℕ)) :
    addWalk w index (k + A.length) front.length last =
      addWalk w index k (front.length + (encode A).length) (lastPlace front last A) := by
  induction A generalizing front last with
  | nil => rfl
  | cons y A ih =>
    rw [encode_cons, List.append_assoc] at hies
    rw [encode_cons, List.length_append, Elem.length_bytes] at hlen
    have hid : w.ies.u8 front.length = y.id := by rw [hies, u8_bytes]
    have hbody : bodyLen w.ies front.length = y.body.length := by rw [hies, bodyLen_bytes]
    have hy := hA y List.mem_cons_self
    have hnext : elemNext w.ies front.length = (front ++ y.bytes).length := by
      rw [elemNext, hbody, List.length_append, Elem.length_bytes]
    rw [List.length_cons, ← Nat.add_assoc, addWalk, if_pos (by omega), hid,
      if_neg (UInt8.lt_asymm hy), if_neg (UInt8.ne_of_lt hy), hnext, hbody,
      ih (fun z hz => hA z (List.mem_cons_of_mem _ hz)) (by rw [hies, List.append_assoc])
        (by rw [List.length_append, Elem.length_bytes]; omega),
      lastPlace, encode_cons, List.length_append, List.length_append, Nat.add_assoc]

/-- The search from the first element that is not smaller. -/
theorem addWalk_found (h : Beacon pre (A ++ e :: B) w) (hA : ∀ y ∈ A, y.id < index)
    (he : e.id = index) :
    addWalk w index (w.iesLen + 1) fixedIeLength none =
      (some (pre.length + (encode A).length, e.body.length), true) := by
  obtain ⟨⟨rest, hies⟩, hlen⟩ := h.holds
  have hsize := length_le_encode A
  simp only [encode_append, encode_cons, List.length_append, Elem.length_bytes] at hlen
  have hies' : w.ies = pre ++ (encode A ++ (e.bytes ++ (encode B ++ rest))) := by
    rw [hies]
    simp only [encode_append, encode_cons, List.append_assoc]
  have hfront : w.ies = (pre ++ encode A) ++ (e.bytes ++ (encode B ++ rest)) := by
    rw [hies', List.append_assoc]
  have hid : w.ies.u8 (pre.length + (encode A).length) = index := by
    rw [← List.length_append, hfront, u8_bytes, he]
  have hbody : bodyLen w.ies (pre.length + (encode A).length) = e.body.length := by
    rw [← List.length_append, hfront, bodyLen_bytes]
  obtain ⟨k, hk⟩ : ∃ k, w.iesLen + 1 = (k + 1) + A.length := ⟨w.iesLen - A.length, by omega⟩
  rw [hk, ← h.fixed, addWalk_lower hA hies' (by omega), addWalk, if_pos (by omega), hid,
    if_neg (UInt8.lt_irrefl _), if_pos rfl, hbody]

theorem addWalk_missing (h : Beacon pre (A ++ B) w) (hA : ∀ y ∈ A, y.id < index)
    (hB : ∀ y ∈ B.head?, index < y.id) :
    addWalk w index (w.iesLen + 1) fixedIeLength none = (lastPlace pre none A, false) := by
  obtain ⟨⟨rest, hies⟩, hlen⟩ := h.holds
  have hsize := length_le_encode A
  simp only [encode_append, List.length_append] at hlen
  have hies' : w.ies = pre ++ (encode A ++ (encode B ++ rest)) := by
    rw [hies]
    simp only [encode_append, List.append_assoc]
  obtain ⟨k, hk⟩ : ∃ k, w.iesLen + 1 = (k + 1) + A.length := ⟨w.iesLen - A.length, by omega⟩
  rw [hk, ← h.fixed, addWalk_lower hA hies' (by omega), addWalk]
  cases B with
  | nil =>
    rw [encode_nil, List.length_nil] at hlen
    rw [if_neg (by omega)]
  | cons e B =>
    have hfront : w.ies = (pre ++ encode A) ++ (e.bytes ++ (encode B ++ rest)) := by
      rw [hies', encode_cons, List.append_assoc, List.append_assoc]
    have hid : w.ies.u8 (pre.length + (encode A).length) = e.id := by
      rw [← List.length_append, hfront, u8_bytes]
    rw [encode_cons, List.length_append, Elem.length_bytes] at hlen
    rw [if_pos (by omega), hid, if_pos (hB e rfl)]

variable {new : Elem}

theorem exists_cut (index : UInt8) (L : List Elem) :
    ∃ A B, L = A ++ B ∧ (∀ y ∈ A, y.id < index) ∧ ∀ y ∈ B.head?, ¬y.id < index := by
  refine ⟨L.takeWhile (·.id < index), L.dropWhile (·.id < index),
    List.takeWhile_append_dropWhile.symm, fun y hy => ?_, fun y hy => ?_⟩
  · simpa using List.mem_takeWhile_imp hy
  · have hhead := List.head?_dropWhile_not (fun e : Elem => decide (e.id < index)) L
    rw [Option.mem_def] at hy
    rw [hy] at hhead
    simpa using hhead

theorem replaceFirst_first (hA : ∀ x ∈ A, x.id ≠ new.id) (he : e.id = new.id) :
    replaceFirst new (A ++ e :: B) = A ++ new :: B := by
  induction A with
  | nil => exact if_pos he
  | cons x A ih =>
    rw [List.cons_append, replaceFirst, if_neg (hA x List.mem_cons_self),
      ih fun y hy => hA y (List.mem_cons_of_mem _ hy), List.cons_append]

theorem insertByEid_cut (hA : ∀ y ∈ A, y.id < new.id) (hB : ∀ y ∈ B.head?, new.id < y.id) :
    insertByEid new (A ++ B) = A ++ new :: B := by
  induction A with
  | nil =>
    cases B with
    | nil => rfl
    | cons e B => exact if_pos (hB e rfl)
  | cons x A ih =>
    rw [List.cons_append, insertByEid, if_neg (UInt8.lt_asymm (hA x List.mem_cons_self)),
      ih fun y hy => hA y (List.mem_cons_of_mem _ hy), List.cons_append]

theorem length_insertByEid (L : List Elem) : (insertByEid new L).length = L.length + 1 := by
  induction L with
  | nil => rfl
  | cons e L ih =>
    rw [insertByEid]
    split
    · rfl
    · rw [List.length_cons, ih, List.length_cons]

theorem encode_singleton_lt (e : Elem) : (encode [e]).length < 2 ^ 16 := by
  have hshort := e.short
  rw [encode_singleton, Elem.length_bytes]
  omega

theorem length_replaceFirst (L : List Elem) : (replaceFirst new L).length = L.length := by
  induction L with
  | nil => rfl
  | cons e L ih =>
    rw [replaceFirst]
    split
    · rfl
    · rw [List.length_cons, ih, List.length_cons]

theorem addSpec_first (hA : ∀ x ∈ A, x.id ≠ new.id) (he : e.id = new.id) :
    addSpec new (A ++ e :: B) = A ++ new :: B := by
  rw [addSpec, if_pos ⟨e, List.mem_append_right _ List.mem_cons_self, he⟩,
    replaceFirst_first hA he]

theorem addSpec_cut (hL : ∀ x ∈ A ++ B, x.id ≠ new.id) (hA : ∀ y ∈ A, y.id < new.id)
    (hB : ∀ y ∈ B.head?, new.id < y.id) : addSpec new (A ++ B) = A ++ new :: B := by
  rw [addSpec, if_neg (fun ⟨e, he, hid⟩ => hL e he hid), insertByEid_cut hA hB]

theorem addSpec_eq_self_iff :
    addSpec new L = L ↔ ∃ A B, L = A ++ new :: B ∧ ∀ x ∈ A, x.id ≠ new.id := by
  constructor
  · intro h
    rcases first_or_none (·.id = new.id) L with hnone | ⟨A, e, B, rfl, hA, he⟩
    · rw [addSpec, if_neg (fun ⟨e, he, hid⟩ => hnone e he hid)] at h
      have hlen := congrArg List.length h
      rw [length_insertByEid] at hlen
      omega
    · rw [addSpec_first hA he] at h
      obtain rfl := (List.cons.inj (List.append_cancel_left h)).1
      exact ⟨A, B, rfl, hA⟩
  · rintro ⟨A, B, rfl, hA⟩
    exact addSpec_first hA rfl

theorem rtwAddBcnIe_replaces (h : Beacon pre (A ++ e :: B) w) (hA : ∀ y ∈ A, y.id < new.id)
    (he : e.id = new.id) (hbody : e.body ≠ [])
    (hroom : pre.length + (encode (A ++ new :: B)).length ≤ maxIeSz) :
    Holds pre (A ++ new :: B) (rtwAddBcnIe w new.id new.body) ∧
      (rtwAddBcnIe w new.id new.body).ies.length = maxIeSz := by
  have hpos : e.body.length ≠ 0 := fun h => hbody (List.eq_nil_of_length_eq_zero h)
  have h' : Beacon pre (A ++ [e] ++ B) w := by
    rwa [List.append_assoc, List.singleton_append]
  have hsplice := holds_splice (N := [new]) h' rfl rfl (encode_singleton_lt new)
  rw [encode_singleton, encode_singleton, Elem.length_bytes, List.append_assoc,
    List.singleton_append] at hsplice
  rw [rtwAddBcnIe, addWalk_found h hA he]
  dsimp only
  rw [if_neg hpos, if_pos rfl]
  exact ⟨hsplice.1, hsplice.2 hroom⟩

theorem rtwAddBcnIe_inserts (h : Beacon pre (A ++ x :: B) w) (hA : ∀ y ∈ A, y.id < new.id)
    (hx : x.id < new.id) (hbody : x.body ≠ []) (hB : ∀ y ∈ B.head?, new.id < y.id)
    (hroom : pre.length + (encode (A ++ x :: new :: B)).length ≤ maxIeSz) :
    Holds pre (A ++ x :: new :: B) (rtwAddBcnIe w new.id new.body) ∧
      (rtwAddBcnIe w new.id new.body).ies.length = maxIeSz := by
  have hpos : x.body.length ≠ 0 := fun h => hbody (List.eq_nil_of_length_eq_zero h)
  have h' : Beacon pre ((A ++ [x]) ++ [] ++ B) w := by
    rwa [List.append_nil, List.append_assoc, List.singleton_append]
  have h'' : Beacon pre ((A ++ [x]) ++ B) w := by
    rwa [List.append_assoc, List.singleton_append]
  have hsplice := holds_splice (N := [new]) h' rfl rfl (encode_singleton_lt new)
  rw [encode_singleton, encode_nil, List.length_nil, Nat.add_zero, List.append_assoc,
    List.append_assoc, List.singleton_append, List.singleton_append, encode_append,
    encode_singleton, List.length_append, Elem.length_bytes] at hsplice
  have hlower : ∀ y ∈ A ++ [x], y.id < new.id := by
    intro y hy
    rcases List.mem_append.mp hy with hy | hy
    · exact hA y hy
    · rw [List.mem_singleton.mp hy]
      exact hx
  rw [rtwAddBcnIe, addWalk_missing h'' hlower hB, lastPlace_append]
  dsimp only
  rw [if_neg hpos, if_neg Bool.false_ne_true, Nat.add_assoc]
  exact ⟨hsplice.1, hsplice.2 hroom⟩

theorem ne_of_lower {new : Elem} (hA : ∀ y ∈ A, y.id < new.id) : ∀ y ∈ A, y.id ≠ new.id :=
  fun y hy => UInt8.ne_of_lt (hA y hy)

theorem rtwAddBcnIe_idle (h : Beacon pre L w) (hrep : ¬Replaces new L) (hins : ¬Inserts new L) :
    rtwAddBcnIe w new.id new.body = w := by
  obtain ⟨A, B, rfl, hA, hB⟩ := exists_cut new.id L
  by_cases hid : ∃ e B', B = e :: B' ∧ e.id = new.id
  · -- the element has no body
    obtain ⟨e, B', rfl, he⟩ := hid
    have hbody : e.body = [] := by
      by_contra hbody
      exact hrep ⟨A, e, B', rfl, hA, he, hbody⟩
    rw [rtwAddBcnIe, addWalk_found h hA he]
    dsimp only
    rw [hbody]
    exact if_pos rfl
  · have hup : ∀ y ∈ B.head?, new.id < y.id := by
      intro y hy
      have hne : y.id ≠ new.id := fun he => by
        cases B with
        | nil => cases hy
        | cons e B' =>
          obtain rfl := Option.some.inj hy
          exact hid ⟨e, B', rfl, he⟩
      exact UInt8.lt_of_le_of_ne (UInt8.not_lt.mp (hB y hy)) hne.symm
    rw [rtwAddBcnIe, addWalk_missing h hA hup]
    rcases A.eq_nil_or_concat' with rfl | ⟨A', x, rfl⟩
    · rfl
    · -- the element in front of the place has no body
      have hbody : x.body = [] := by
        by_contra hbody
        refine hins ⟨A', x, B, by simp, fun y hy => hA y (List.mem_append_left _ hy),
          hA x (List.mem_append_right _ (List.mem_singleton_self x)), hbody, hup⟩
      rw [lastPlace_append]
      dsimp only
      rw [hbody]
      exact if_pos rfl

/-- **An element is added as it should be exactly if the conditions hold.** -/
theorem add_iff (h : Beacon pre L w) (new : Elem)
    (hroom : pre.length + (encode L).length + new.bytes.length ≤ maxIeSz) :
    (Holds pre (addSpec new L) (rtwAddBcnIe w new.id new.body) ∧
      (rtwAddBcnIe w new.id new.body).ies.length = maxIeSz) ↔ AddMeets new L := by
  by_cases hrep : Replaces new L
  · refine iff_of_true ?_ (.inl hrep)
    obtain ⟨A, e, B, rfl, hA, he, hbody⟩ := hrep
    rw [addSpec_first (ne_of_lower hA) he]
    refine rtwAddBcnIe_replaces h hA he hbody ?_
    simp only [encode_append, encode_cons, List.length_append] at hroom ⊢
    omega
  by_cases hins : Inserts new L
  · obtain ⟨A, x, B, rfl, hA, hx, hbody, hB⟩ := id hins
    have hfit : pre.length + (encode (A ++ x :: new :: B)).length ≤ maxIeSz := by
      simp only [encode_append, encode_cons, List.length_append] at hroom ⊢
      omega
    have hdone := rtwAddBcnIe_inserts h hA hx hbody hB hfit
    by_cases hmem : ∃ e ∈ A ++ x :: B, e.id = new.id
    · -- there is one further back
      refine iff_of_false (fun hspec => ?_) ?_
      · have hlen := congrArg List.length (hspec.1.unique hdone.1)
        rw [addSpec, if_pos hmem, length_replaceFirst] at hlen
        simp at hlen
      · obtain ⟨e, he, hid⟩ := hmem
        rintro (hrep' | ⟨-, hno⟩ | ⟨-, hins', -⟩)
        · exact hrep hrep'
        · exact hno e he hid
        · exact hins' hins
    · have hno : ∀ e ∈ A ++ x :: B, e.id ≠ new.id := fun e he hid => hmem ⟨e, he, hid⟩
      refine iff_of_true ?_ (.inr (.inl ⟨hins, hno⟩))
      have hsplit : A ++ x :: B = (A ++ [x]) ++ B := by simp
      have hlower : ∀ y ∈ A ++ [x], y.id < new.id := by
        intro y hy
        rcases List.mem_append.mp hy with hy | hy
        · exact hA y hy
        · rw [List.mem_singleton.mp hy]
          exact hx
      rw [hsplit] at hno ⊢
      rwa [addSpec_cut hno hlower hB, List.append_assoc]
  · rw [rtwAddBcnIe_idle h hrep hins]
    constructor
    · exact fun hspec => .inr (.inr ⟨hrep, hins, addSpec_eq_self_iff.mp (hspec.1.unique h.holds)⟩)
    · rintro (hrep' | ⟨hins', -⟩ | ⟨-, -, hself⟩)
      · exact absurd hrep' hrep
      · exact absurd hins' hins
      · rw [addSpec_eq_self_iff.mpr hself]
        exact ⟨h.holds, h.size⟩

/-! ## The bitmap is read back -/

variable {bmp : Bytes} {dtimPeriod : UInt8} {k n : ℕ}

theorem u8_read (p : Bytes) (i : ℕ) (hk : k < n) : (p.read i n).u8 k = p.u8 (i + k) := by
  rw [Bytes.read, Bytes.u8, List.getD_eq_getElem _ _ (by simpa using hk), List.getElem_map,
    List.getElem_range]

theorem lastNonzero_le (bmp : Bytes) (n : ℕ) : lastNonzero bmp n ≤ n := by
  induction n with
  | zero => exact le_rfl
  | succ n ih =>
    rw [lastNonzero]
    split
    · exact le_rfl
    · omega

theorem u8_of_lastNonzero_lt (hlt : lastNonzero bmp n < k) (hle : k ≤ n) : bmp.u8 k = 0 := by
  induction n with
  | zero => omega
  | succ n ih =>
    rw [lastNonzero] at hlt
    split at hlt
    · omega
    next hzero =>
      rw [not_not] at hzero
      rcases Nat.lt_or_ge n k with hk | hk
      · rw [show k = n + 1 by omega, hzero]
      · exact ih hlt hk

theorem u8_of_lt_findIdx (h : k < bmp.findIdx (· != 0)) : bmp.u8 k = 0 := by
  have hnot := List.not_of_lt_findIdx h
  rw [Bytes.u8, List.getD_eq_getElem _ _ (lt_of_lt_of_le h List.findIdx_le_length)]
  simpa using hnot

theorem u8_of_empty (h : rtwBmpNotEmpty bmp = false) (k : ℕ) : bmp.u8 k = 0 := by
  rw [rtwBmpNotEmpty, List.any_eq_false] at h
  rcases Nat.lt_or_ge k bmp.length with hk | hk
  · rw [Bytes.u8, List.getD_eq_getElem _ _ hk]
    simpa using h _ (List.getElem_mem hk)
  · rw [Bytes.u8, List.getD_eq_default _ _ hk]

theorem timN1_le_lastNonzero (h : rtwBmpNotEmpty bmp = true) :
    timN1 bmp ≤ lastNonzero bmp (bmp.length - 1) := by
  have hlt : bmp.findIdx (· != 0) < bmp.length := by
    rw [rtwBmpNotEmpty, List.any_eq_true] at h
    exact List.findIdx_lt_length_of_exists h
  have hne : bmp.u8 (bmp.findIdx (· != 0)) ≠ 0 := by
    rw [Bytes.u8, List.getD_eq_getElem _ _ hlt]
    simpa using List.findIdx_getElem (w := hlt)
  have hle : bmp.findIdx (· != 0) ≤ lastNonzero bmp (bmp.length - 1) := by
    by_contra hcon
    exact hne (u8_of_lastNonzero_lt (n := bmp.length - 1) (by omega) (by omega))
  rw [timN1, if_pos h]
  omega

theorem timN1_add_timBmpLen_le (hpos : 0 < bmp.length) :
    timN1 bmp + timBmpLen bmp ≤ bmp.length := by
  rw [timBmpLen]
  split
  next h =>
    have hle := timN1_le_lastNonzero h
    have hlast := lastNonzero_le bmp (bmp.length - 1)
    omega
  next h =>
    rw [timN1, if_neg h]
    omega

theorem u8_of_outside (h : k < timN1 bmp ∨ timN1 bmp + timBmpLen bmp ≤ k) : bmp.u8 k = 0 := by
  cases hempty : rtwBmpNotEmpty bmp with
  | false => exact u8_of_empty hempty k
  | true =>
    have hle := timN1_le_lastNonzero hempty
    rcases h with h | h
    · rw [timN1, if_pos hempty] at h
      exact u8_of_lt_findIdx (by omega)
    · rw [timBmpLen, if_pos hempty] at h
      rcases Nat.lt_or_ge k bmp.length with hk | hk
      · exact u8_of_lastNonzero_lt (n := bmp.length - 1) (by omega) (by omega)
      · rw [Bytes.u8, List.getD_eq_default _ _ hk]

theorem rtwBmpIsSet_eq (bmp : Bytes) (id : ℕ) :
    rtwBmpIsSet bmp id = (bmp.u8 (id / 8)).toNat.testBit (id % 8) := by
  rw [rtwBmpIsSet]
  split
  · rfl
  next h =>
    rw [Bytes.u8, List.getD_eq_default _ _ (Nat.le_of_not_lt h)]
    exact (Nat.zero_testBit _).symm

theorem length_timBody (dtimCnt dtimPeriod : UInt8) (bmp : Bytes) :
    (timBody dtimCnt dtimPeriod bmp).length = 3 + timBmpLen bmp := by
  rw [timBody, List.length_append, Bytes.read, List.length_map, List.length_range]
  rfl

theorem toNat_control (dtimCnt dtimPeriod : UInt8) (hpos : 0 < bmp.length)
    (hshort : bmp.length ≤ 251) :
    ((timBody dtimCnt dtimPeriod bmp).u8 2).toNat = (rtwBmpIsSet bmp 0).toNat + timN1 bmp := by
  have hle := timN1_add_timBmpLen_le hpos
  have hbit := Bool.toNat_le (rtwBmpIsSet bmp 0)
  change (UInt8.ofNat ((rtwBmpIsSet bmp 0).toNat + timN1 bmp)).toNat = _
  rw [UInt8.toNat_ofNat', Nat.mod_eq_of_lt (by omega)]

theorem timN1_even (bmp : Bytes) : timN1 bmp % 2 = 0 := by
  rw [timN1]
  split
  · omega
  · rfl

/-- **The bitmap is read back from the TIM.** -/
theorem timBody_decodes (dtimCnt dtimPeriod : UInt8) (hpos : 0 < bmp.length)
    (hshort : bmp.length ≤ 251) :
    (∀ aid, pvbBit (timBody dtimCnt dtimPeriod bmp) aid = rtwBmpIsSet bmp aid) ∧
      groupBit (timBody dtimCnt dtimPeriod bmp) = rtwBmpIsSet bmp 0 := by
  have hcontrol := toNat_control dtimCnt dtimPeriod hpos hshort
  have hbit := Bool.toNat_le (rtwBmpIsSet bmp 0)
  have heven := timN1_even bmp
  refine ⟨fun aid => ?_, ?_⟩
  · have hn1 : ((timBody dtimCnt dtimPeriod bmp).u8 2).toNat / 2 * 2 = timN1 bmp := by omega
    rw [pvbBit, hn1, length_timBody, Nat.add_sub_cancel_left, rtwBmpIsSet_eq]
    split
    next hin =>
      have hoctet : (timBody dtimCnt dtimPeriod bmp).u8 (3 + (aid / 8 - timN1 bmp)) =
          bmp.u8 (aid / 8) := by
        refine (u8_append_right _ _ (aid / 8 - timN1 bmp)).trans ?_
        rw [u8_read _ _ hin.2, Nat.add_sub_cancel' hin.1]
      rw [hoctet]
    next hout =>
      rw [u8_of_outside (k := aid / 8) (by omega)]
      exact (Nat.zero_testBit _).symm
  · rw [groupBit, hcontrol, Nat.testBit_zero]
    cases rtwBmpIsSet bmp 0 with
    | false => exact decide_eq_false (by rw [Bool.toNat_false]; omega)
    | true => exact decide_eq_true (by rw [Bool.toNat_true]; omega)

/-! ## The TIM in the list -/

/-- A bitmap, as it is allocated for the largest association id. -/
structure TimBmp where
  octets : Bytes
  pos : 0 < octets.length
  short : octets.length ≤ 251

def timElem (dtimPeriod : UInt8) (b : TimBmp) : Elem :=
  ⟨wlanEidTim, timBody 0 dtimPeriod b.octets, by
    have hle := timN1_add_timBmpLen_le b.pos
    have hshort := b.short
    rw [length_timBody]
    omega⟩

theorem rtwSetTimIe_eq (dtimPeriod : UInt8) (b : TimBmp) :
    rtwSetTimIe 0 dtimPeriod b.octets = (timElem dtimPeriod b).bytes := by
  rw [rtwSetTimIe, ← length_timBody 0 dtimPeriod]
  rfl

/-- **What `update_BCNTIM` is to do**: the TIM is in the list once, and it was written where an
element begins. -/
def TimRight (pre : Bytes) (L : List Elem) (tim : Elem) (w : IesState) (place : ℕ) : Prop :=
  ∃ A B, A ++ B = L.filter (·.id ≠ wlanEidTim) ∧ Holds pre (A ++ tim :: B) w ∧
    place = pre.length + (encode A).length ∧ w.ies.length = maxIeSz

variable {b : TimBmp} {s r d : Elem}

theorem filter_eq_self_of_none (hL : ∀ x ∈ L, x.id ≠ wlanEidTim) :
    L.filter (·.id ≠ wlanEidTim) = L :=
  List.filter_eq_self.mpr fun x hx => decide_eq_true (hL x hx)

theorem mem_filter_ne (hx : x ∈ L.filter (·.id ≠ wlanEidTim)) : x.id ≠ wlanEidTim :=
  of_decide_eq_true (List.mem_filter.mp hx).2

theorem length_encode_filter_le (L : List Elem) (p : Elem → Bool) :
    (encode (L.filter p)).length ≤ (encode L).length := by
  induction L with
  | nil => exact le_rfl
  | cons e L ih =>
    rw [List.filter_cons]
    split <;> simp only [encode_cons, List.length_append] <;> omega

theorem length_encode_filter_lt (he : e.id = wlanEidTim) :
    (encode ((A ++ e :: B).filter (·.id ≠ wlanEidTim))).length <
      (encode (A ++ e :: B)).length := by
  have hA := length_encode_filter_le A (·.id ≠ wlanEidTim)
  have hB := length_encode_filter_le B (·.id ≠ wlanEidTim)
  rw [List.filter_append, List.filter_cons_of_neg (by simpa using he)]
  simp only [encode_append, encode_cons, List.length_append, Elem.length_bytes]
  omega

theorem updateBcntim_found (h : Beacon pre (A ++ e :: B) w)
    (hA : ∀ y ∈ A, y.id ≠ wlanEidTim) (he : e.id = wlanEidTim) (hbody : e.body ≠ [])
    (hroom : pre.length + (encode (A ++ timElem dtimPeriod b :: B)).length ≤ maxIeSz) :
    Holds pre (A ++ timElem dtimPeriod b :: B) (updateBcntim w dtimPeriod b.octets).1 ∧
      (updateBcntim w dtimPeriod b.octets).2 = pre.length + (encode A).length ∧
      (updateBcntim w dtimPeriod b.octets).1.ies.length = maxIeSz := by
  obtain ⟨rest, hdrop, hlimit⟩ := h.drop
  obtain ⟨hfound, hlen⟩ := getIe_some hA he rest (B := B)
  rw [← hdrop, ← hlimit] at hfound hlen
  have hpos : e.body.length ≠ 0 := fun h => hbody (List.eq_nil_of_length_eq_zero h)
  have h' : Beacon pre (A ++ [e] ++ B) w := by
    rwa [List.append_assoc, List.singleton_append]
  have hsplice := holds_splice (N := [timElem dtimPeriod b]) h' rfl rfl (encode_singleton_lt _)
  rw [encode_singleton, encode_singleton, Elem.length_bytes, List.append_assoc,
    List.singleton_append, h.fixed] at hsplice
  rw [updateBcntim]
  dsimp only
  rw [hfound, hlen, rtwSetTimIe_eq, if_pos ⟨rfl, hpos⟩, Option.getD_some]
  refine ⟨hsplice.1, ?_, hsplice.2 ?_⟩
  · rw [h.fixed]
  · rwa [← h.fixed]

theorem iesLen_insert {dst : ℕ} {new : Bytes} (hdst : dst < 2 ^ 32)
    (hlen : w.iesLen + new.length < 2 ^ 32) :
    (spliceBcn w dst dst new).iesLen = w.iesLen + new.length := by
  rw [spliceBcn, uintSub]
  dsimp only
  split <;> omega

theorem updateBcntim_front (h : Beacon pre (s :: r :: B) w) (hs : s.id = 0) (hr : r.id = 1)
    (hnone : (∀ x ∈ s :: r :: B, x.id ≠ wlanEidTim) ∨
      ∃ A e B', s :: r :: B = A ++ e :: B' ∧ (∀ x ∈ A, x.id ≠ wlanEidTim) ∧
        e.id = wlanEidTim ∧ e.body = []) :
    updateBcntim w dtimPeriod b.octets =
      (spliceBcn w (pre.length + (encode [s, r]).length + 3)
        (pre.length + (encode [s, r]).length + 3) (timElem dtimPeriod b).bytes,
        pre.length + (encode [s, r]).length + 3) := by
  obtain ⟨rest, hdrop, hlimit⟩ := h.drop
  have hssid := getIe_some (A := []) (e := s) (B := r :: B) (by simp) hs rest
  have hrates := getIe_some (A := [s]) (e := r) (B := B) (by simp [hs]) hr rest
  dsimp only at hssid hrates
  rw [List.nil_append] at hssid
  rw [List.singleton_append] at hrates
  have hno : ¬((rtwGetIe (encode (s :: r :: B) ++ rest) wlanEidTim
      (encode (s :: r :: B)).length).found.join.isSome = true ∧
      (rtwGetIe (encode (s :: r :: B) ++ rest) wlanEidTim
        (encode (s :: r :: B)).length).len ≠ 0) := by
    rcases hnone with hL | ⟨A, e, B', hL, hA, he, hbody⟩
    · rw [getIe_none hL rest]
      exact fun hsome => Bool.false_ne_true hsome.1
    · have hfound := getIe_some hA he rest (B := B')
      dsimp only at hfound
      rw [hL, hfound.2, hbody]
      exact fun hsome => hsome.2 rfl
  rw [updateBcntim]
  dsimp only
  rw [hdrop, hlimit, if_neg hno, hssid.1, hssid.2, hrates.1, hrates.2, rtwSetTimIe_eq]
  have hoffset : fixedIeLength + (some (encode []).length).elim 0 (fun _ => s.body.length + 2) +
      (some (encode [s]).length).elim 0 (fun _ => r.body.length + 2) + 3 =
      pre.length + (encode [s, r]).length + 3 := by
    rw [h.fixed]
    simp only [encode_cons, encode_nil, List.length_append, Elem.length_bytes, Option.elim_some,
      List.append_nil]
    omega
  rw [hoffset]

theorem two_le_length_encode_cons (e : Elem) (L : List Elem) : 2 ≤ (encode (e :: L)).length := by
  rw [encode_cons, List.length_append, Elem.length_bytes]
  omega

theorem third_of_length (h : A ++ B = s :: r :: L)
    (hlen : (encode A).length = (encode [s, r]).length + 3) :
    ∃ d C, L = d :: C ∧ d.body.length = 1 ∧ A = [s, r, d] ∧ B = C := by
  have htwo := two_le_length_encode_cons
  simp only [encode_cons, encode_nil, List.length_append, List.length_nil] at hlen
  match A, h with
  | [], _ =>
    rw [encode_nil, List.length_nil] at hlen
    omega
  | [a], h =>
    obtain ⟨rfl, -⟩ := List.cons.inj h
    rw [encode_singleton] at hlen
    omega
  | [a, a'], h =>
    obtain ⟨rfl, h₁⟩ := List.cons.inj h
    obtain ⟨rfl, -⟩ := List.cons.inj h₁
    rw [encode_cons, encode_singleton, List.length_append] at hlen
    omega
  | a :: a' :: d :: A', h =>
    obtain ⟨rfl, h₁⟩ := List.cons.inj h
    obtain ⟨rfl, h₂⟩ := List.cons.inj h₁
    have hd := Elem.length_bytes d
    rw [encode_cons, encode_cons, encode_cons, List.length_append, List.length_append,
      List.length_append] at hlen
    cases A' with
    | nil =>
      rw [encode_nil, List.length_nil] at hlen
      exact ⟨d, B, h₂.symm, by omega, rfl, rfl⟩
    | cons x A' =>
      have hx := htwo x A'
      omega

theorem others_of_countP {p : Elem → Bool} (h : (A ++ e :: B).countP p = 1) (he : p e = true) :
    ∀ x ∈ A ++ B, ¬p x = true := by
  rw [List.countP_append, List.countP_cons_of_pos he] at h
  rw [← List.countP_eq_zero, List.countP_append]
  omega

theorem countP_of_others {p : Elem → Bool} (h : ∀ x ∈ A ++ B, ¬p x = true) (he : p e = true) :
    (A ++ e :: B).countP p = 1 := by
  rw [← List.countP_eq_zero, List.countP_append] at h
  rw [List.countP_append, List.countP_cons_of_pos he]
  omega

/-- **The TIM is brought up to date as it should be exactly if there is one, with a body, or none
and the third element takes three bytes.** -/
theorem tim_iff (h : Beacon pre (s :: r :: L) w) (hs : s.id = 0) (hr : r.id = 1)
    (hroom : pre.length + (encode (s :: r :: L)).length + (timElem dtimPeriod b).bytes.length ≤
      maxIeSz) :
    TimRight pre (s :: r :: L) (timElem dtimPeriod b) (updateBcntim w dtimPeriod b.octets).1
      (updateBcntim w dtimPeriod b.octets).2 ↔ TimMeets (s :: r :: L) := by
  have htim : (timElem dtimPeriod b).id = wlanEidTim := rfl
  rcases first_or_none (·.id = wlanEidTim) (s :: r :: L) with hnone | ⟨A, e, B, hL, hA, he⟩
  · -- there is none
    rw [updateBcntim_front h hs hr (.inl hnone)]
    constructor
    · rintro ⟨A, B, hAB, -, hplace, -⟩
      rw [filter_eq_self_of_none hnone] at hAB
      obtain ⟨d, C, rfl, hd, -, -⟩ := third_of_length hAB (by omega)
      exact .inr ⟨hnone, s, r, d, C, rfl, hd⟩
    · rintro (⟨A, e, B, hL, he, -⟩ | ⟨-, s', r', d, B, hL, hd⟩)
      · exact absurd he (hnone e (hL ▸ List.mem_append_right _ List.mem_cons_self))
      · obtain ⟨rfl, hL₁⟩ := List.cons.inj hL
        obtain ⟨rfl, rfl⟩ := List.cons.inj hL₁
        have h' : Beacon pre ([s, r, d] ++ [] ++ B) w := h
        have hplace : pre.length + (encode [s, r]).length + 3 =
            pre.length + (encode [s, r, d]).length := by
          simp only [encode_cons, encode_nil, List.length_append, Elem.length_bytes,
            List.length_nil, hd]
          omega
        obtain ⟨hholds, hsize⟩ := holds_splice (N := [timElem dtimPeriod b]) h' hplace
          (Nat.add_zero _).symm (encode_singleton_lt _)
        rw [encode_singleton] at hholds hsize
        refine ⟨[s, r, d], B, (filter_eq_self_of_none hnone).symm, hholds, hplace, hsize ?_⟩
        have hlen : (encode (([s, r, d] ++ [timElem dtimPeriod b]) ++ B)).length =
            (encode (s :: r :: d :: B)).length + (timElem dtimPeriod b).bytes.length := by
          simp only [encode_append, encode_cons, encode_nil, List.length_append, List.length_nil]
          omega
        omega
  · by_cases hbody : e.body = []
    · -- it has no body, and stays
      have hidle : updateBcntim w dtimPeriod b.octets = _ :=
        updateBcntim_front h hs hr (.inr ⟨A, e, B, hL, hA, he, hbody⟩)
      constructor
      · rintro ⟨A', B', hAB, ⟨-, hlen⟩, -, -⟩
        have hlt := length_encode_filter_lt (A := A) (B := B) he
        rw [← hL, ← hAB] at hlt
        have hold := h.holds.2
        have hmax : maxIeSz < 2 ^ 16 := by decide
        have hhead : (encode (s :: r :: L)).length =
            (encode [s, r]).length + (encode L).length := by
          simp only [encode_cons, encode_nil, List.length_append, List.length_nil]
          omega
        rw [hidle] at hlen
        have hnew : (spliceBcn w (pre.length + (encode [s, r]).length + 3)
            (pre.length + (encode [s, r]).length + 3) (timElem dtimPeriod b).bytes).iesLen =
            w.iesLen + (timElem dtimPeriod b).bytes.length :=
          iesLen_insert (by omega) (by omega)
        rw [hnew] at hlen
        simp only [encode_append, encode_cons, List.length_append] at hlen hlt hold
        omega
      · rintro (⟨A', e', B', hL', -, hbody', hothers⟩ | ⟨hnone, -⟩)
        · have hmem : e ∈ A' ++ e' :: B' := by
            rw [← hL', hL]
            exact List.mem_append_right _ List.mem_cons_self
          rw [List.mem_append, List.mem_cons] at hmem
          rcases hmem with hmem | rfl | hmem
          · exact absurd he (hothers e (List.mem_append_left _ hmem))
          · exact absurd hbody hbody'
          · exact absurd he (hothers e (List.mem_append_right _ hmem))
        · exact absurd he (hnone e (hL ▸ List.mem_append_right _ List.mem_cons_self))
    · -- it gives way
      rw [hL] at h hroom ⊢
      have hfit : pre.length + (encode (A ++ timElem dtimPeriod b :: B)).length ≤ maxIeSz := by
        simp only [encode_append, encode_cons, List.length_append] at hroom ⊢
        omega
      obtain ⟨hholds, hplace, hsize⟩ := updateBcntim_found h hA he hbody hfit
      constructor
      · rintro ⟨A', B', hAB, hholds', -, -⟩
        have hcount := countP_of_others (p := fun x => decide (x.id = wlanEidTim)) (A := A')
          (B := B') (e := timElem dtimPeriod b)
          (fun x hx => by simpa using mem_filter_ne (hAB ▸ hx)) (decide_eq_true htim)
        rw [hholds'.unique hholds] at hcount
        refine .inl ⟨A, e, B, rfl, he, hbody, fun x hx => ?_⟩
        simpa using others_of_countP hcount (decide_eq_true htim) x hx
      · rintro (⟨A', e', B', hL', he', -, hothers⟩ | ⟨hnone, -⟩)
        · have hcount := countP_of_others (p := fun x => decide (x.id = wlanEidTim)) (A := A')
            (B := B') (e := e') (fun x hx => by simpa using hothers x hx) (decide_eq_true he')
          rw [← hL'] at hcount
          have hrest := others_of_countP hcount (decide_eq_true he)
          refine ⟨A, B, ?_, hholds, hplace, hsize⟩
          rw [List.filter_append, List.filter_cons_of_neg (by simpa using he),
            ← List.filter_append]
          exact (List.filter_eq_self.mpr fun x hx => by simpa using hrest x hx).symm
        · exact absurd he (hnone e (List.mem_append_right _ List.mem_cons_self))

/-! ## The three edits -/

/-- **The beacon is edited as it should be.** -/
structure BcnEdited (pre : Bytes) (L : List Elem) (w : IesState) (new : Elem) (index : UInt8)
    (dtimPeriod : UInt8) (b : TimBmp) : Prop where
  added : Holds pre (addSpec new L) (rtwAddBcnIe w new.id new.body) ∧
    (rtwAddBcnIe w new.id new.body).ies.length = maxIeSz
  removed : Holds pre (removeSpec index L) (rtwRemoveBcnIe w index) ∧
    (rtwRemoveBcnIe w index).ies.length = maxIeSz
  tim : Fronted L → TimRight pre L (timElem dtimPeriod b) (updateBcntim w dtimPeriod b.octets).1
    (updateBcntim w dtimPeriod b.octets).2
  stations : ∀ aid, pvbBit (timElem dtimPeriod b).body aid = rtwBmpIsSet b.octets aid
  group : groupBit (timElem dtimPeriod b).body = rtwBmpIsSet b.octets 0

/-- **The three edits are right exactly if none of them meets an element without a body that it
takes for none, a larger id in front, or a beacon without its DS element.** -/
theorem bcnEdited_iff (h : Beacon pre L w) (new : Elem) (index : UInt8)
    (hroom : pre.length + (encode L).length + new.bytes.length ≤ maxIeSz)
    (hroomTim : pre.length + (encode L).length + (timElem dtimPeriod b).bytes.length ≤ maxIeSz) :
    BcnEdited pre L w new index dtimPeriod b ↔
      AddMeets new L ∧ RemoveMeets index L ∧ (Fronted L → TimMeets L) := by
  have hdecodes := timBody_decodes 0 dtimPeriod b.pos b.short
  have htim : Fronted L → (TimRight pre L (timElem dtimPeriod b)
      (updateBcntim w dtimPeriod b.octets).1 (updateBcntim w dtimPeriod b.octets).2 ↔
        TimMeets L) := by
    rintro ⟨s, r, L', rfl, hs, hr⟩
    exact tim_iff h hs hr hroomTim
  constructor
  · rintro ⟨hadd, hremove, htimRight, -, -⟩
    exact ⟨(add_iff h new hroom).mp hadd, (remove_iff h index).mp hremove,
      fun hfront => (htim hfront).mp (htimRight hfront)⟩
  · rintro ⟨hadd, hremove, hmeets⟩
    exact ⟨(add_iff h new hroom).mpr hadd, (remove_iff h index).mpr hremove,
      fun hfront => (htim hfront).mpr (hmeets hfront), hdecodes.1, hdecodes.2⟩

def beaconOf (L : List Elem) : IesState :=
  { ies := List.replicate 12 0 ++ (encode L ++
      List.replicate (maxIeSz - (12 + (encode L).length)) 0)
    iesLen := 12 + (encode L).length }

theorem beacon_of (hfit : 12 + (encode L).length ≤ maxIeSz) :
    Beacon (List.replicate 12 0) L (beaconOf L) where
  holds := ⟨⟨_, rfl⟩, by rw [List.length_replicate]; rfl⟩
  fixed := List.length_replicate
  size := by
    rw [beaconOf]
    simp only [List.length_append, List.length_replicate]
    omega

theorem length_byte_lt : 1 < 256 := by decide

theorem length_empty_lt : 0 < 256 := by decide

def byteElem (id c : UInt8) : Elem := ⟨id, [c], length_byte_lt⟩

/-- SSID, rates and DS of an access point. -/
def visible : List Elem := [byteElem 0 97, byteElem 1 2, byteElem 3 1]

/-- An ERP element is added, and a TIM for the station of id 9. -/
theorem bcnEdited_iff_visible :
    BcnEdited (List.replicate 12 0) visible (beaconOf visible) ⟨42, [0], by decide⟩ 42 1
      ⟨[0, 2], by decide, by decide⟩ := by
  refine (bcnEdited_iff (beacon_of (by decide)) ⟨42, [0], by decide⟩ 42 (by decide)
    (by decide)).mpr ⟨.inr (.inl ⟨?_, by decide⟩), ?_,
      fun _ => .inr ⟨by decide, _, _, _, _, rfl, rfl⟩⟩
  · exact ⟨[byteElem 0 97, byteElem 1 2], byteElem 3 1, [], rfl, by decide,
      by decide, by decide, fun y hy => (nomatch hy)⟩
  · intro A e B hL _ he
    have hmem : e ∈ visible := by
      rw [hL]
      exact List.mem_append_right _ List.mem_cons_self
    exact absurd he ((by decide : ∀ x ∈ visible, x.id ≠ 42) e hmem)

def hidden : List Elem := [⟨0, [], length_empty_lt⟩, byteElem 1 2, byteElem 3 1]

/-- **A hidden SSID gets no other body.** -/
theorem not_bcnEdited :
    ¬∀ (pre : Bytes) (L : List Elem) (w : IesState) (new : Elem) (index : UInt8)
      (dtimPeriod : UInt8) (b : TimBmp), Beacon pre L w →
      pre.length + (encode L).length + new.bytes.length ≤ maxIeSz →
      pre.length + (encode L).length + (timElem dtimPeriod b).bytes.length ≤ maxIeSz →
      BcnEdited pre L w new index dtimPeriod b := by
  intro h
  have hbeacon : Beacon (List.replicate 12 0) hidden (beaconOf hidden) := beacon_of (by decide)
  have hedited := h _ _ _ ⟨0, [97], by decide⟩ 42 1 ⟨[0, 2], by decide, by decide⟩ hbeacon
    (by decide) (by decide)
  have hnone : ∀ {A B : List Elem} {e : Elem}, hidden = A ++ e :: B → (∀ y ∈ A, y.id ≠ 0) →
      e.id = 0 → e.body = [] := by
    intro A B e hL hA he
    cases A with
    | nil =>
      obtain rfl := (List.cons.inj hL).1
      rfl
    | cons x A =>
      obtain rfl := (List.cons.inj hL).1
      exact absurd rfl (hA _ List.mem_cons_self)
  rcases (add_iff hbeacon ⟨0, [97], by decide⟩ (by decide)).mp hedited.added with
    ⟨A, e, B, hL, hA, he, hbody⟩ | ⟨⟨-, x, -, -, -, hx, -⟩, -⟩ | ⟨-, -, A, B, hL, hA⟩
  · exact hbody (hnone hL (fun y hy => UInt8.ne_of_lt (hA y hy)) he)
  · exact absurd hx (UInt8.not_lt.mpr (UInt8.zero_le))
  · exact absurd (hnone hL hA rfl) (List.cons_ne_nil _ _)

end Rtl88x2eu.Ie
